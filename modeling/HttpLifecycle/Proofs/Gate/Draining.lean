import HttpLifecycle.Proofs.Gate.Settling

namespace HttpLifecycle.Gate

/-- The marks are in order, and reading goes on only below the high mark, or
where it was just let on at the low one. -/
structure Calm (g : Gate) : Prop where
  marks : g.marks.high = 0 ∨ g.marks.low ≤ g.marks.high
  running : 0 < g.marks.high → g.suspended = false →
    g.unread < g.marks.high ∨ g.unread ≤ g.marks.low

def letsOn (g : Gate) (n : Nat) : Bool :=
  g.suspended && decide (0 < g.marks.high ∧ g.unread ≤ g.marks.low + n)

def relieved (g : Gate) (n : Nat) : Gate :=
  { g with
    unread := g.unread - n
    suspended := g.suspended && !g.letsOn n
    resumes := g.resumes + (g.letsOn n).toNat }

def drain (g : Gate) (n : Nat) : Gate := if n = 0 then g else (g.release n).state

structure Signals (g : Gate) (es : List Event) (h : Gate) : Prop where
  suspends : h.suspends = g.suspends + es.count (.signal .suspend)
  resumes : h.resumes = g.resumes + es.count (.signal .resume)

variable {g h k : Gate} {m n : Nat}

theorem calm_settle (hmarks : g.marks.high = 0 ∨ g.marks.low ≤ g.marks.high) :
    g.settle.state.Calm := by
  refine ⟨by rwa [settle_marks], fun hon hs => ?_⟩
  rw [settle_marks] at hon
  have hsettles := settles hon
  generalize g.settle = s at hs hsettles ⊢
  cases hsettles with
  | suspends => contradiction
  | resumes _ hlow => exact .inr hlow
  | stays hfull => exact .inl (hfull hs)

theorem Calm.call (hg : g.Calm) (x : Call) : (g.call x).state.Calm := by
  rw [call_eq]
  exact calm_settle hg.marks

theorem Calm.release_eq (hg : g.Calm) (hn : 0 < n) : (g.release n).state = g.relieved n := by
  rcases Nat.eq_zero_or_pos g.marks.high with hoff | hon
  · have hsteady := settle_off (g := { g with unread := g.unread - n }) hoff
    rw [release, hsteady]
    simp [relieved, letsOn, hoff]
  · have hbelow (hs : g.suspended = false) : g.unread - n < g.marks.high := by
      have hmarks := hg.marks
      have hrunning := hg.running hon hs
      omega
    have hsettles := settles (g := { g with unread := g.unread - n }) hon
    rw [release]
    generalize settle _ = s at hsettles
    cases hsettles with
    | suspends hs hfull => exact absurd (hbelow hs) (Nat.not_lt_of_le hfull)
    | resumes hs hlow =>
        have hs : g.suspended = true := hs
        have hfew : g.unread ≤ g.marks.low + n := Nat.sub_le_iff_le_add.mp hlow
        simp [relieved, letsOn, hon, hs, hfew]
    | stays _ hlow =>
        have hstays : g.letsOn n = false := by
          cases hs : g.suspended with
          | false => simp [letsOn, hs]
          | true =>
              have hmany : g.marks.low < g.unread - n := hlow hs
              have : ¬ g.unread ≤ g.marks.low + n := by omega
              simp [letsOn, this]
        simp [relieved, hstays]

theorem letsOn_more (h : g.letsOn m = true) (n : Nat) : g.letsOn (m + n) = true := by
  simp only [letsOn, Bool.and_eq_true, decide_eq_true_eq] at h ⊢
  obtain ⟨hs, hon, hfew⟩ := h
  exact ⟨hs, hon, by omega⟩

theorem letsOn_relieved (g : Gate) (m n : Nat) :
    (g.relieved m).letsOn n = (!g.letsOn m && g.letsOn (m + n)) := by
  have hsub : g.unread - m ≤ g.marks.low + n ↔ g.unread ≤ g.marks.low + (m + n) := by omega
  simp only [relieved, letsOn, hsub]
  cases g.suspended <;> simp

theorem relieved_relieved (g : Gate) (m n : Nat) :
    (g.relieved m).relieved n = g.relieved (m + n) := by
  rw [relieved, letsOn_relieved]
  cases hm : g.letsOn m with
  | false => simp [relieved, hm, Nat.sub_sub]
  | true => simp [relieved, hm, letsOn_more hm, Nat.sub_sub]

namespace Calm

theorem drain (hg : g.Calm) (n : Nat) : (g.drain n).Calm := by
  rw [Gate.drain]
  split
  · exact hg
  · exact hg.call (.release n)

theorem drain_drain (hg : g.Calm) (m n : Nat) : (g.drain m).drain n = g.drain (m + n) := by
  rcases Nat.eq_zero_or_pos m with rfl | hm
  · rw [Nat.zero_add]
    rfl
  · rcases Nat.eq_zero_or_pos n with rfl | hn
    · rfl
    · have hfirst : g.drain m = g.relieved m := (if_neg (Nat.ne_of_gt hm)).trans (hg.release_eq hm)
      have hsecond : (g.drain m).drain n = (g.drain m).relieved n :=
        (if_neg (Nat.ne_of_gt hn)).trans ((hg.drain m).release_eq hn)
      have hboth : g.drain (m + n) = g.relieved (m + n) :=
        (if_neg (by omega)).trans (hg.release_eq (by omega))
      rw [hsecond, hfirst, hboth, relieved_relieved]

theorem drain_comm (hg : g.Calm) (m n : Nat) : (g.drain m).drain n = (g.drain n).drain m := by
  rw [hg.drain_drain, hg.drain_drain, Nat.add_comm]

end Calm

namespace Signals

theorem refl (g : Gate) : g.Signals [] g := ⟨rfl, rfl⟩

theorem trans {es fs : List Event} (hg : g.Signals es h) (hh : h.Signals fs k) :
    g.Signals (es ++ fs) k := by
  constructor
  · rw [hh.suspends, hg.suspends, List.count_append, Nat.add_assoc]
  · rw [hh.resumes, hg.resumes, List.count_append, Nat.add_assoc]

end Signals

theorem signals_settle (g : Gate) : g.Signals g.settle.events g.settle.state := by
  rcases Nat.eq_zero_or_pos g.marks.high with hoff | hon
  · rw [settle_off hoff]
    exact .refl g
  · have hsettles := settles hon
    generalize g.settle = s at hsettles ⊢
    cases hsettles with
    | suspends | resumes => exact ⟨rfl, rfl⟩
    | stays => exact .refl g

theorem signals_release (g : Gate) (n : Nat) :
    g.Signals (g.release n).events (g.release n).state :=
  have h := signals_settle { g with unread := g.unread - n }
  ⟨h.suspends, h.resumes⟩

end HttpLifecycle.Gate
