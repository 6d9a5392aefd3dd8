import HttpLifecycle.Proofs.Intake.Balance
import Mathlib.Data.List.Induction

namespace HttpLifecycle.Gate

/-- What a gate is told of: bytes that came in, bytes that were consumed. -/
inductive Call where
  | arrive (n : Nat)
  | release (n : Nat)
  deriving DecidableEq, Repr

namespace Call

def size : Call → Nat
  | .arrive n | .release n => n

def apply : Call → Nat → Nat
  | .arrive n, unread => Word.wrap (unread + n)
  | .release n, unread => unread - n

end Call

def call (g : Gate) : Call → Step Gate Event (Option Signal)
  | .arrive n => g.arrive n
  | .release n => g.release n

def run (g : Gate) (xs : List Call) : Gate := xs.foldl (fun g x => (g.call x).state) g

def fresh (m : Marks) : Gate := { marks := m }

variable {g : Gate} {x : Call} {xs : List Call} {m : Marks}

theorem call_eq (g : Gate) (x : Call) :
    g.call x = settle { g with unread := x.apply g.unread } := by
  cases x <;> rfl

theorem run_concat (g : Gate) (xs : List Call) (x : Call) :
    g.run (xs ++ [x]) = ((g.run xs).call x).state := List.foldl_append

theorem Call.apply_lt {unread : Nat} (x : Call) (h : unread < Word.size) :
    x.apply unread < Word.size := by
  cases x with
  | arrive n => exact Nat.mod_lt _ (by decide)
  | release n => exact Nat.lt_of_le_of_lt (Nat.sub_le unread n) h

theorem Call.apply_idle {unread : Nat} (hx : x.size = 0) (h : unread < Word.size) :
    x.apply unread = unread := by
  cases x with
  | arrive n =>
      obtain rfl : n = 0 := hx
      exact Word.wrap_of_lt h
  | release n =>
      obtain rfl : n = 0 := hx
      rfl

/-- All that a gate can do to bring its flag in line. -/
inductive Settles (g : Gate) : Step Gate Event (Option Signal) → Prop
  | suspends (hs : g.suspended = false) (hfull : g.marks.high ≤ g.unread) :
      Settles g ⟨{ g with suspended := true, suspends := g.suspends + 1 },
        [.note g.suspendNote, .signal .suspend], some .suspend⟩
  | resumes (hs : g.suspended = true) (hlow : g.unread ≤ g.marks.low) :
      Settles g ⟨{ g with suspended := false, resumes := g.resumes + 1 },
        [.note g.resumeNote, .signal .resume], some .resume⟩
  | stays (hfull : g.suspended = false → g.unread < g.marks.high)
      (hlow : g.suspended = true → g.marks.low < g.unread) : Settles g ⟨g, [], none⟩

theorem settles (hon : 0 < g.marks.high) : g.Settles g.settle := by
  rw [settle, if_neg (Nat.ne_of_gt hon)]
  split
  · rename_i hup
    obtain ⟨hs, hfull⟩ : g.suspended = false ∧ g.marks.high ≤ g.unread := by simpa using hup
    exact .suspends hs hfull
  · rename_i hup
    split
    · rename_i hdown
      obtain ⟨hs, hlow⟩ : g.suspended = true ∧ g.unread ≤ g.marks.low := by simpa using hdown
      exact .resumes hs hlow
    · rename_i hdown
      apply Settles.stays
      · intro hs
        simpa [hs] using hup
      · intro hs
        simpa [hs] using hdown

theorem settle_off (hoff : g.marks.high = 0) : g.settle = ⟨g, [], none⟩ := if_pos hoff

theorem call_settles (hon : 0 < g.marks.high) (x : Call) :
    Settles { g with unread := x.apply g.unread } (g.call x) := by
  rw [call_eq]
  exact settles hon

theorem call_idle (hx : x.size = 0) (h : g.unread < Word.size) : g.call x = g.settle := by
  rw [call_eq, Call.apply_idle hx h]

theorem settle_marks (g : Gate) : g.settle.state.marks = g.marks := by
  rw [settle]
  split
  · rfl
  · split
    · rfl
    · split <;> rfl

theorem call_marks (g : Gate) (x : Call) : (g.call x).state.marks = g.marks := by
  rw [call_eq, settle_marks]

theorem call_unread (g : Gate) (x : Call) : (g.call x).state.unread = x.apply g.unread := by
  cases x <;> exact settle_unread _

theorem run_marks (m : Marks) (xs : List Call) : ((fresh m).run xs).marks = m := by
  induction xs using List.reverseRecOn with
  | nil => rfl
  | append_singleton rest x ih =>
      rw [run_concat, call_marks]
      exact ih

theorem run_unread_lt (m : Marks) (xs : List Call) : ((fresh m).run xs).unread < Word.size := by
  induction xs using List.reverseRecOn with
  | nil => exact (by decide : 0 < Word.size)
  | append_singleton rest x ih =>
      rw [run_concat, call_unread]
      exact x.apply_lt ih

/-- Both marks lie at the count: it is too high to read on and low enough to go on. -/
def Pinched (g : Gate) : Prop := g.marks.low = g.marks.high ∧ g.unread = g.marks.high

instance (g : Gate) : Decidable g.Pinched := inferInstanceAs (Decidable (_ ∧ _))

theorem settle_steady_iff (hon : 0 < g.marks.high) :
    g.settle = ⟨g, [], none⟩ ↔
      (g.suspended = false → g.unread < g.marks.high) ∧
        (g.suspended = true → g.marks.low < g.unread) := by
  have hsettles := settles hon
  generalize g.settle = s at hsettles ⊢
  cases hsettles with
  | suspends hs hfull =>
      constructor
      · intro h
        exact nomatch congrArg Step.result h
      · intro ⟨hrun, _⟩
        exact absurd hfull (Nat.not_le_of_lt (hrun hs))
  | resumes hs hlow =>
      constructor
      · intro h
        exact nomatch congrArg Step.result h
      · intro ⟨_, hheld⟩
        exact absurd hlow (Nat.not_le_of_lt (hheld hs))
  | stays hfull hlow => exact ⟨fun _ => ⟨hfull, hlow⟩, fun _ => rfl⟩

theorem Pinched.turns (h : g.Pinched) (hon : 0 < g.marks.high) :
    g.settle.result = some (if g.suspended then .resume else .suspend) := by
  obtain ⟨hmarks, hunread⟩ := h
  have hsettles := settles hon
  generalize g.settle = s at hsettles ⊢
  cases hsettles with
  | suspends hs => rw [hs, if_neg (by decide)]
  | resumes hs => rw [hs, if_pos rfl]
  | stays hfull hlow =>
      cases hs : g.suspended with
      | false =>
          have := hfull hs
          omega
      | true =>
          have := hlow hs
          omega

namespace Settles

variable {s : Step Gate Event (Option Signal)}

theorem running_iff (h : g.Settles s) (hle : g.marks.low ≤ g.marks.high) :
    s.state.suspended = false ∧ s.state.marks.high ≤ s.state.unread ↔
      s.state.Pinched ∧ s.result = some .resume := by
  cases h with
  | suspends => simp
  | resumes hs hlow =>
      simp only [Pinched, true_and, and_true]
      omega
  | stays hfull =>
      constructor
      · intro ⟨hrun, hover⟩
        exact absurd hover (Nat.not_le_of_lt (hfull hrun))
      · intro ⟨_, hresult⟩
        contradiction

theorem steady_iff (h : g.Settles s) (hon : 0 < g.marks.high) (hle : g.marks.low ≤ g.marks.high) :
    s.state.settle = ⟨s.state, [], none⟩ ↔ ¬ s.state.Pinched := by
  have hstate : s.state.marks = g.marks := by cases h <;> rfl
  rw [settle_steady_iff (hstate ▸ hon), Pinched, hstate]
  cases h with
  | suspends hs hfull =>
      simp only [Bool.true_eq_false, false_implies, true_and, true_implies]
      omega
  | resumes hs hlow =>
      simp only [Bool.false_eq_true, false_implies, and_true, true_implies]
      omega
  | stays hfull hlow =>
      have hpart : ¬ (g.marks.low = g.marks.high ∧ g.unread = g.marks.high) := by
        intro ⟨hmarks, hunread⟩
        cases hs : g.suspended with
        | false =>
            have := hfull hs
            omega
        | true =>
            have := hlow hs
            omega
      exact ⟨fun _ => hpart, fun _ => ⟨hfull, hlow⟩⟩

end Settles

theorem accepted_marks {c : Config} (h : c.validate = .ok ()) (hon : 0 < c.marks.high) :
    c.marks.low ≤ c.marks.high := by
  rw [Config.validate] at h
  split at h
  · contradiction
  · omega

/-- Settling once is settling for good, and no gate reads on at its high mark,
unless both marks lie where the count is: then every call turns the gate over. -/
theorem level_triggered_unless_pinched (c : Config) (hvalid : c.validate = .ok ())
    (hon : 0 < c.marks.high) (xs : List Call) (x : Call) :
    let s := ((fresh c.marks).run xs).call x
    (s.state.suspended = false ∧ c.marks.high ≤ s.state.unread ↔
        s.state.Pinched ∧ s.result = some .resume) ∧
      ∀ y : Call, y.size = 0 →
        (s.state.call y = ⟨s.state, [], none⟩ ↔ ¬ s.state.Pinched) ∧
          (s.state.Pinched →
            (s.state.call y).result = some (if s.state.suspended then .resume else .suspend)) := by
  intro s
  have hmarks : ((fresh c.marks).run xs).marks = c.marks := run_marks c.marks xs
  have hstate : s.state.marks = c.marks := (call_marks _ x).trans hmarks
  have hhigh : 0 < ((fresh c.marks).run xs).marks.high := by
    rw [hmarks]
    exact hon
  have hle : ((fresh c.marks).run xs).marks.low ≤ ((fresh c.marks).run xs).marks.high := by
    rw [hmarks]
    exact accepted_marks hvalid hon
  have hsettles := call_settles hhigh x
  have hrunning := hsettles.running_iff hle
  rw [hstate] at hrunning
  refine ⟨hrunning, fun y hy => ?_⟩
  have hunread := run_unread_lt c.marks (xs ++ [x])
  rw [run_concat] at hunread
  rw [call_idle hy hunread]
  refine ⟨hsettles.steady_iff hhigh hle, fun h => h.turns ?_⟩
  rw [hstate]
  exact hon

theorem level_triggered_unless_pinched_apart :
    let c : Config := { marks := { high := 10, low := 5 } }
    let s := ((fresh c.marks).run [.arrive 12]).call (.release 6)
    c.validate = .ok () ∧ 0 < c.marks.high ∧ s.state.suspended = true ∧ s.state.unread = 6 ∧
      s.state.call (.arrive 0) = ⟨s.state, [], none⟩ := by
  intro c s
  have hvalid : c.validate = .ok () := rfl
  have hon : 0 < c.marks.high := by decide
  obtain ⟨-, hsteady⟩ := level_triggered_unless_pinched c hvalid hon [.arrive 12] (.release 6)
  exact ⟨hvalid, hon, by decide, by decide, (hsteady (.arrive 0) rfl).1.mpr (by decide)⟩

/-- A gate that is accepted with both marks at ten, and nothing read or consumed
between its two signals. -/
theorem pinched_gate_turns_over :
    let c : Config := { marks := { high := 10, low := 10 } }
    let g := (fresh c.marks).run [.arrive 10]
    let s := g.call (.arrive 0)
    c.validate = .ok () ∧ 0 < c.marks.high ∧ g.suspended = true ∧ g.resumes = 0 ∧
      s.result = some .resume ∧ s.state.resumes = 1 ∧ s.state.suspended = false ∧
      c.marks.high ≤ s.state.unread := by
  intro c g s
  exact ⟨rfl, by decide, by decide, by decide, by decide, by decide, by decide, by decide⟩

end HttpLifecycle.Gate
