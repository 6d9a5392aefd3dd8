import HttpLifecycle.Proofs.Connection.Deadlines
import HttpLifecycle.Registry

namespace HttpLifecycle.Registry.Member

variable {m : Member} {now target : Instant}

/-- The task has no timer to fire before `target`. -/
def Rests (m : Member) (target : Instant) : Prop :=
  m.finished = true ∨ ∀ d, m.connection.nextDeadline = some d → target < d.tick

theorem turn_connection (m : Member) (now : Instant) (f : Connection → Connection) :
    (m.turn now f).connection = { f m.connection with journal := [] } := by
  rw [turn]
  split <;> rfl

theorem fireTimers_step {turns : Nat} (hle : now ≤ target)
    (hnext : ∀ d at_, m.connection.nextDeadline = some d → at_ = max now d.tick → at_ ≤ target →
      ((m.turn at_ fun c => c.pollTimers at_).fireTimers at_ target turns).Rests target) :
    (m.fireTimers now target (turns + 1)).Rests target := by
  rw [fireTimers]
  split
  · rename_i hdone
    exact .inl hdone
  · split
    · rename_i hnone
      exact .inr fun d hd => by rw [hnone] at hd; contradiction
    · rename_i d hd
      simp only
      split
      · rename_i hat
        exact hnext d _ hd rfl hat
      · rename_i hat
        apply Or.inr
        intro e he
        obtain rfl := Option.some.inj (hd.symm.trans he)
        apply Nat.lt_of_not_le
        intro htick
        apply hat
        exact Nat.max_le.mpr ⟨hle, htick⟩

theorem turn_sound (h : m.connection.Coherent) (hv : m.connection.monitor.Vigilant)
    (now : Instant) :
    let n := m.turn now fun c => c.pollTimers now
    n.connection.Coherent ∧ n.connection.monitor.Vigilant ∧ n.connection.Ahead now := by
  intro n
  have hmoves := Connection.moves_pollTimers now h
  have hcoh := hmoves.coherent h
  have hahead : (m.connection.pollTimers now).Ahead now := Connection.pollTimers_ahead h hv
  have hpolled := Connection.invariant_vigilant.moves h hv hmoves
  have hturn : n.connection = { m.connection.pollTimers now with journal := [] } :=
    turn_connection m now _
  rw [hturn]
  exact ⟨{ hcoh with }, hpolled, ⟨hahead.monitor, hahead.drain⟩⟩

/-- Each turn but the first comes later than the one before, so the turns do
not run out. -/
theorem fireTimers_rests (turns : Nat) (h : m.connection.Coherent)
    (hv : m.connection.monitor.Vigilant) (ha : m.connection.Ahead now) (hle : now ≤ target)
    (hturns : target ≤ now + turns) : (m.fireTimers now target turns).Rests target := by
  induction turns generalizing m now with
  | zero =>
      apply Or.inr
      intro d hd
      have hlater := (Connection.nextDeadline_later _ now).mpr ha d hd
      exact Nat.lt_of_le_of_lt hturns (Nat.lt_of_lt_of_le hlater d.le_tick)
  | succ turns ih =>
      refine fireTimers_step hle fun d at_ hd hat hle' => ?_
      obtain ⟨h', hv', ha'⟩ := turn_sound h hv at_
      apply ih h' hv' ha' hle'
      have hlater := (Connection.nextDeadline_later _ now).mpr ha d hd
      have hstep : now + 1 ≤ at_ := by
        rw [hat]
        exact Nat.le_trans (Nat.le_trans hlater d.le_tick) (Nat.le_max_right ..)
      calc
        target ≤ now + (turns + 1) := hturns
        _ = now + 1 + turns := Nat.add_right_comm now turns 1
        _ ≤ at_ + turns := Nat.add_le_add_right hstep turns

theorem fireTimers_done (span : Duration) (h : m.connection.Coherent)
    (hv : m.connection.monitor.Vigilant) :
    (m.fireTimers now (now + span) (span + 1)).Rests (now + span) := by
  refine fireTimers_step (Nat.le_add_right ..) fun d at_ _ hat hle => ?_
  obtain ⟨h', hv', ha'⟩ := turn_sound h hv at_
  have hnow : now ≤ at_ := by
    rw [hat]
    exact Nat.le_max_left ..
  exact fireTimers_rests span h' hv' ha' hle (Nat.add_le_add_right hnow span)

/-- A poll leaves nothing due, whatever came before it. So a task that sleeps
until its next deadline and polls then gets on: what it is given for some time,
one turn for each instant and one for what is overdue, is enough to find it
asleep or gone when the time is over. -/
theorem timers_never_spin (id : ConnectionId) (protocol : Protocol) (config : Config)
    (routes : Resolver) (handler : Handler) (start : Instant) (xs : List Connection.Call)
    (now : Instant) :
    let c := (Connection.create id protocol config routes handler start).run xs
    (∀ d, (c.pollTimers now).nextDeadline = some d → now < d) ∧
      ∀ (m : Member) (journal : List Effect) (span : Duration),
        ({ m with connection := { c with journal := journal } }.fireTimers now (now + span)
          (span + 1)).Rests (now + span) := by
  intro c
  have hcoh : c.Coherent :=
    Connection.coherent_run id protocol config routes handler start xs
  have hv : c.monitor.Vigilant :=
    Connection.vigilant_run id protocol config routes handler start xs
  constructor
  · exact (Connection.nextDeadline_later _ now).mpr (Connection.pollTimers_ahead hcoh hv)
  · intro m journal span
    exact fireTimers_done span { hcoh with } hv

end HttpLifecycle.Registry.Member
