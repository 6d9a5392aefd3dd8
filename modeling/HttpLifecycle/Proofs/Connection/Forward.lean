import HttpLifecycle.Proofs.Connection.Deadlines

namespace HttpLifecycle.Connection

variable {b : Bool} {c d : Connection} {now : Instant}

/-- Neither the state nor the phase of the drain falls back. -/
structure Forward (c d : Connection) : Prop where
  state : c.state.rank ≤ d.state.rank
  phase : c.drain.phase.rank ≤ d.drain.phase.rank

namespace Forward

theorem same (hs : c.state = d.state) (hp : c.drain.phase = d.drain.phase) : Forward c d :=
  ⟨Nat.le_of_eq (congrArg _ hs), Nat.le_of_eq (congrArg _ hp)⟩

theorem trans {e : Connection} (h : Forward c d) (g : Forward d e) : Forward c e :=
  ⟨Nat.le_trans h.state g.state, Nat.le_trans h.phase g.phase⟩

end Forward

theorem State.rank_le_closed (s : State) : s.rank ≤ State.closed.rank := by
  cases s <;> simp [State.rank]

theorem rank_le_closed (p : Drain.Phase) : p.rank ≤ Drain.Phase.closed.rank := by
  cases p <;> simp [Drain.Phase.rank]

theorem Coherent.state_open (h : Coherent c) (ho : c.Open) :
    c.state.rank ≤ State.draining.rank := by
  have hphase := ho.1
  cases hp : c.drain.phase <;> simp_all [h.state, stateFor, ho.2, State.rank]

theorem Move.forward (h : Coherent c) (m : Move b c d) : Forward c d := by
  cases m with
  | serve ha => cases ha; exact .same rfl rfl
  | announce reason wait now es htorn hphase hes =>
      refine ⟨h.state_open ⟨by simp [hphase], htorn⟩, ?_⟩
      simp [hphase, Drain.Phase.rank]
  | finish reason now es ho hreason hes =>
      exact ⟨Nat.le_succ_of_le (h.state_open ho), rank_le_closed _⟩
  | finishLate => exact ⟨Nat.le_refl _, rank_le_closed _⟩
  | tearDown => exact ⟨c.state.rank_le_closed, Nat.le_refl _⟩
  | tally | attach | watch | latch | probe | supersede | decide | peerFails => exact .same rfl rfl

theorem Moves.forward (h : Coherent c) (m : Moves b c d) : Forward c d := by
  induction m with
  | refl => exact .same rfl rfl
  | tail m n ih => exact ih.trans (n.forward (Moves.coherent h m))

theorem after_forward (h : Coherent c) (x : Call) : Forward c (c.after x) := by
  rcases after_cases h x with ⟨-, -, he⟩ | hl
  · rw [he]
    exact .same rfl rfl
  · generalize c.admission? x = s at hl
    cases hl with
    | plain m => exact m.forward h
    | admits stream m hrank n =>
        have hm := m.coherent h
        have hseated : Forward _ (c.after x) := n.forward (hm.admitStream stream)
        exact (m.forward h).trans ⟨hseated.state, hseated.phase⟩

theorem nextDeadline_over (h : Coherent c) (ho : ¬ c.Open) : c.nextDeadline = none := by
  have htimers : c.monitor.nextDeadline = none := by
    rw [Monitor.nextDeadline, Monitor.timers, h.destroyed_iff.mpr ho]
    rfl
  have hdrain : c.drain.deadline = none := by
    cases hd : c.drain.deadline with
    | none => rfl
    | some at_ =>
        obtain ⟨ht, hphase⟩ := h.deadline.mp (by simp [hd])
        exact absurd ⟨by simp [hphase], ht⟩ ho
  rw [nextDeadline, htimers, hdrain]
  rfl

theorem Coherent.over_iff (h : Coherent c) :
    ¬ c.Open ↔ c.state = .closing ∨ c.state = .closed := by
  have hstate := h.state
  have hphase := h.phase
  cases ht : c.tornDown <;> cases hp : c.drain.phase <;> simp_all [Open, stateFor]

/-- The state tells what became of the transport and of the drain, and the
other parts go by it. Whatever is done, neither state nor phase falls back. -/
theorem state_tells (id : ConnectionId) (protocol : Protocol) (config : Config)
    (routes : Resolver) (handler : Handler) (start : Instant) (xs : List Call) :
    let c := (create id protocol config routes handler start).run xs
    ((c.state = .closed ↔ c.tornDown = true) ∧
      (c.state = .active ↔ c.tornDown = false ∧ c.drain.phase = .idle) ∧
      (c.state = .draining ↔ c.tornDown = false ∧ c.drain.phase = .wait) ∧
      (c.state = .closing ↔ c.tornDown = false ∧ c.drain.phase = .closed) ∧
      c.drain.phase ≠ .start) ∧
    (c.monitor.stage = .destroyed ↔ c.state = .closing ∨ c.state = .closed) ∧
    (c.drain.deadline.isSome → c.state = .draining) ∧
    (c.state = .closing ∨ c.state = .closed → c.nextDeadline = none) ∧
    ∀ x, c.state.rank ≤ (c.after x).state.rank ∧
      c.drain.phase.rank ≤ (c.after x).drain.phase.rank := by
  intro c
  have h : Coherent c := coherent_run id protocol config routes handler start xs
  refine ⟨?_, ?_, ?_, ?_, ?_⟩
  · have hstate := h.state
    have hphase := h.phase
    cases ht : c.tornDown <;> cases hp : c.drain.phase <;> simp_all [stateFor]
  · rw [h.destroyed_iff, h.over_iff]
  · intro hd
    obtain ⟨ht, hwait⟩ := h.deadline.mp hd
    simp [h.state, stateFor, ht, hwait]
  · intro hs
    exact nextDeadline_over h (h.over_iff.mpr hs)
  · intro x
    have hforward := after_forward h x
    exact ⟨hforward.state, hforward.phase⟩

end HttpLifecycle.Connection
