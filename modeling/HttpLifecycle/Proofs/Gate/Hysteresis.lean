import HttpLifecycle.Proofs.Gate.Settling
import Mathlib.Data.List.Infix

namespace HttpLifecycle.Gate

/-- The unread bytes after some calls, whatever the marks are. -/
def level (xs : List Call) : Nat := xs.foldl (fun unread x => x.apply unread) 0

/-- Some call reached the high mark, and none since has come down to the low one. -/
def Swamped (m : Marks) (xs : List Call) : Prop :=
  ∃ past, past <+: xs ∧ m.high ≤ level past ∧
    ∀ later, past <+: later → later <+: xs → m.low < level later

def steps : Gate → List Call → List (Step Gate Event (Option Signal))
  | _, [] => []
  | g, x :: rest => g.call x :: steps (g.call x).state rest

def Event.signal? : Event → Option Signal
  | .note _ => none
  | .signal s => some s

/-- Suspending and resuming by turns, suspending first. -/
def turn (k : Nat) : Signal := if k % 2 = 0 then .suspend else .resume

def turns (n : Nat) : List Signal := (List.range n).map turn

variable {g : Gate} {m : Marks} {xs : List Call} {x : Call} {s : Step Gate Event (Option Signal)}

theorem level_concat (xs : List Call) (x : Call) : level (xs ++ [x]) = x.apply (level xs) :=
  List.foldl_append

theorem run_level (m : Marks) (xs : List Call) : ((fresh m).run xs).unread = level xs := by
  induction xs using List.reverseRecOn with
  | nil => rfl
  | append_singleton rest x ih => rw [run_concat, call_unread, ih, level_concat]

theorem steps_concat (g : Gate) (xs : List Call) (x : Call) :
    steps g (xs ++ [x]) = steps g xs ++ [(g.run xs).call x] := by
  induction xs generalizing g with
  | nil => rfl
  | cons y rest ih => exact congrArg (g.call y :: ·) (ih (g.call y).state)

theorem turns_succ (n : Nat) : turns (n + 1) = turns n ++ [turn n] := by
  rw [turns, List.range_succ, List.map_append]
  rfl

theorem turns_even (k : Nat) : turns (2 * k + 1) = turns (2 * k) ++ [.suspend] := by
  rw [turns_succ, turn, if_pos (by omega)]

theorem turns_odd (k : Nat) : turns (2 * k + 2) = turns (2 * k + 1) ++ [.resume] := by
  rw [turns_succ, turn, if_neg (by omega)]

theorem not_swamped_nil (hon : 0 < m.high) : ¬ Swamped m [] := by
  intro ⟨past, hpast, hfull, _⟩
  rw [List.prefix_nil.mp hpast] at hfull
  exact absurd hfull (Nat.not_le_of_lt hon)

theorem swamped_concat (hm : m.low < m.high) (xs : List Call) (x : Call) :
    Swamped m (xs ++ [x]) ↔
      m.high ≤ level (xs ++ [x]) ∨ Swamped m xs ∧ m.low < level (xs ++ [x]) := by
  constructor
  · intro ⟨past, hpast, hfull, hsince⟩
    rcases List.prefix_concat_iff.mp hpast with rfl | hpast
    · exact .inl hfull
    · refine .inr ⟨⟨past, hpast, hfull, fun later hlater hxs => ?_⟩, ?_⟩
      · exact hsince later hlater (hxs.trans (List.prefix_append xs [x]))
      · exact hsince _ (hpast.trans (List.prefix_append xs [x])) (List.prefix_refl _)
  · intro h
    rcases h with hfull | ⟨⟨past, hpast, hfull, hsince⟩, hlast⟩
    · refine ⟨xs ++ [x], List.prefix_refl _, hfull, fun later hlater hxs => ?_⟩
      rw [hxs.eq_of_length_le hlater.length_le]
      exact Nat.lt_of_lt_of_le hm hfull
    · refine ⟨past, hpast.trans (List.prefix_append xs [x]), hfull, fun later hlater hxs => ?_⟩
      rcases List.prefix_concat_iff.mp hxs with rfl | hxs
      · exact hlast
      · exact hsince later hlater hxs

namespace Settles

theorem flag (h : g.Settles s) (hm : g.marks.low < g.marks.high) :
    s.state.suspended = true ↔
      g.marks.high ≤ g.unread ∨ g.suspended = true ∧ g.marks.low < g.unread := by
  cases h with
  | suspends hs hfull => exact ⟨fun _ => .inl hfull, fun _ => rfl⟩
  | resumes hs hlow =>
      simp only [Bool.false_eq_true, false_iff]
      omega
  | stays hfull hlow =>
      constructor
      · intro hs
        exact .inr ⟨hs, hlow hs⟩
      · intro h
        rcases h with hover | ⟨hs, _⟩
        · cases hs : g.suspended with
          | true => rfl
          | false => exact absurd hover (Nat.not_le_of_lt (hfull hs))
        · exact hs

theorem told (h : g.Settles s) : s.events.filterMap Event.signal? = s.result.toList := by
  cases h <;> rfl

theorem counts (h : g.Settles s) (hc : g.suspends = g.resumes + g.suspended.toNat) :
    s.state.suspends = s.state.resumes + s.state.suspended.toNat ∧
      turns (s.state.suspends + s.state.resumes) =
        turns (g.suspends + g.resumes) ++ s.result.toList := by
  cases h with
  | suspends hs =>
      rw [hs, Bool.toNat_false] at hc
      have hbefore : g.suspends + g.resumes = 2 * g.resumes := by omega
      have hafter : g.suspends + 1 + g.resumes = 2 * g.resumes + 1 := by omega
      constructor
      · exact congrArg (· + 1) hc
      · calc turns (g.suspends + 1 + g.resumes) = turns (2 * g.resumes + 1) := by rw [hafter]
          _ = turns (2 * g.resumes) ++ [.suspend] := turns_even g.resumes
          _ = turns (g.suspends + g.resumes) ++ [.suspend] := by rw [hbefore]
  | resumes hs =>
      rw [hs, Bool.toNat_true] at hc
      have hbefore : g.suspends + g.resumes = 2 * g.resumes + 1 := by omega
      have hafter : g.suspends + (g.resumes + 1) = 2 * g.resumes + 2 := by omega
      constructor
      · exact hc
      · calc turns (g.suspends + (g.resumes + 1)) = turns (2 * g.resumes + 2) := by rw [hafter]
          _ = turns (2 * g.resumes + 1) ++ [.resume] := turns_odd g.resumes
          _ = turns (g.suspends + g.resumes) ++ [.resume] := by rw [hbefore]
  | stays => exact ⟨hc, (List.append_nil _).symm⟩

end Settles

theorem call_off (hoff : g.marks.high = 0) (x : Call) :
    g.call x = ⟨{ g with unread := x.apply g.unread }, [], none⟩ := by
  rw [call_eq]
  exact settle_off hoff

theorem call_told (g : Gate) (x : Call) :
    (g.call x).events.filterMap Event.signal? = (g.call x).result.toList := by
  by_cases hoff : g.marks.high = 0
  · rw [call_off hoff]
    rfl
  · exact (call_settles (Nat.pos_of_ne_zero hoff) x).told

theorem steps_all {P : Step Gate Event (Option Signal) → Prop} (hg : g.marks = m)
    (hcall : ∀ (g : Gate) (x : Call), g.marks = m → P (g.call x)) : ∀ s ∈ steps g xs, P s := by
  induction xs generalizing g with
  | nil => exact List.forall_mem_nil _
  | cons x rest ih =>
      exact List.forall_mem_cons.mpr ⟨hcall g x hg, ih ((call_marks g x).trans hg)⟩

theorem run_off (hoff : m.high = 0) (xs : List Call) :
    (fresh m).run xs = { fresh m with unread := level xs } := by
  induction xs using List.reverseRecOn with
  | nil => rfl
  | append_singleton rest x ih =>
      have hmarks : ((fresh m).run rest).marks.high = 0 := by
        rw [run_marks]
        exact hoff
      rw [run_concat, call_off hmarks, ih, level_concat]

theorem run_settles (hm : m.low < m.high) (xs : List Call) (x : Call) :
    Settles { (fresh m).run xs with unread := level (xs ++ [x]) } (((fresh m).run xs).call x) := by
  have hon : 0 < ((fresh m).run xs).marks.high := by
    rw [run_marks]
    exact Nat.lt_of_le_of_lt (Nat.zero_le _) hm
  have h := call_settles hon x
  rw [run_level, ← level_concat] at h
  exact h

theorem run_swamped (hm : m.low < m.high) (xs : List Call) :
    ((fresh m).run xs).suspended = true ↔ Swamped m xs := by
  induction xs using List.reverseRecOn with
  | nil =>
      have hnever := not_swamped_nil (Nat.lt_of_le_of_lt (Nat.zero_le _) hm)
      exact ⟨fun h => by contradiction, fun h => absurd h hnever⟩
  | append_singleton rest x ih =>
      have hmarks := run_marks m rest
      have hflag := (run_settles hm rest x).flag (hmarks.symm ▸ hm)
      rw [hmarks, ih] at hflag
      rw [run_concat, swamped_concat hm]
      exact hflag

theorem run_counts (hm : m.low < m.high) (xs : List Call) :
    let g := (fresh m).run xs
    g.suspends = g.resumes + g.suspended.toNat ∧
      (steps (fresh m) xs).filterMap Step.result = turns (g.suspends + g.resumes) := by
  induction xs using List.reverseRecOn with
  | nil => exact ⟨rfl, rfl⟩
  | append_singleton rest x ih =>
      obtain ⟨hcounts, hturns⟩ := ih
      obtain ⟨hnext, hmore⟩ := (run_settles hm rest x).counts hcounts
      simp only [run_concat, steps_concat, List.filterMap_append]
      refine ⟨hnext, ?_⟩
      rw [hturns, hmore]
      cases hresult : (((fresh m).run rest).call x).result with
      | none => simp [hresult]
      | some signal => simp [hresult]

/-- The gate against the history of its count: reading is held back from the
high mark down to the low one, the two signals come by turns and are what the
transport hears, and one that is switched off only counts. -/
theorem hysteresis (m : Marks) (xs : List Call) :
    let g := (fresh m).run xs
    let ss := steps (fresh m) xs
    g.unread = level xs ∧
      (m.low < m.high →
        (g.suspended = true ↔ Swamped m xs) ∧
          ss.filterMap Step.result = turns (g.suspends + g.resumes) ∧
          (∀ s ∈ ss, s.events.filterMap Event.signal? = s.result.toList) ∧
          g.suspends = g.resumes + g.suspended.toNat) ∧
      (m.high = 0 →
        (∀ s ∈ ss, s.result = none ∧ s.events = []) ∧
          g.suspended = false ∧ g.suspends = 0 ∧ g.resumes = 0) := by
  intro g ss
  refine ⟨run_level m xs, fun hm => ?_, fun hoff => ?_⟩
  · obtain ⟨hcounts, hturns⟩ := run_counts hm xs
    exact ⟨run_swamped hm xs, hturns, steps_all rfl fun g x _ => call_told g x, hcounts⟩
  · have hsilent : ∀ s ∈ ss, s.result = none ∧ s.events = [] :=
      steps_all rfl fun g x hg => by
        rw [call_off (hg ▸ hoff)]
        exact ⟨rfl, rfl⟩
    have hg : g = { fresh m with unread := level xs } := run_off hoff xs
    rw [hg]
    exact ⟨hsilent, rfl, rfl, rfl⟩

theorem hysteresis_swamped :
    let m : Marks := { high := 10, low := 5 }
    let xs : List Call := [.arrive 12, .release 4]
    m.low < m.high ∧ Swamped m xs ∧ level xs = 8 ∧
      (steps (fresh m) xs).filterMap Step.result = [.suspend] := by
  intro m xs
  have hm : m.low < m.high := by decide
  obtain ⟨hlevel, hon, -⟩ := hysteresis m xs
  obtain ⟨hflag, hturns, -⟩ := hon hm
  exact ⟨hm, hflag.mp (by decide), hlevel.symm.trans (by decide), hturns.trans (by decide)⟩

end HttpLifecycle.Gate
