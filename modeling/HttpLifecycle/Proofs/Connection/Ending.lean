import HttpLifecycle.Proofs.Connection.Move

namespace HttpLifecycle.Connection

variable {b : Bool} {c d : Connection} (reason : Reason) (now : Instant)

theorem ShutdownKept.moves (h : ShutdownKept c d) : Moves b c d := .of (.serve h)

theorem StreamSteps.moves (m : StreamSteps (fun _ _ => True) false c d) : Moves b c d :=
  m.shutdownKept.moves

theorem moves_log (c : Connection) (level : Level) (message : String)
    (fields : List (String × Note.Value)) : Moves b c (c.log level message fields) :=
  (ShutdownKept.log c level message fields).moves

theorem moves_watch {α : Type} {s : Step Monitor Monitor.Event α} (h : c.monitor.Turn s.state) :
    Moves b c (c.observe s) :=
  (Moves.of (.watch h)).trans (.of (.tally _ (commandsOf_ofMonitor c s.events)))

theorem moves_latch {α : Type} {s : Step Monitor Monitor.Event α} (h : c.monitor.Latch s.state) :
    Moves true c (c.observe s) :=
  (Moves.of (.latch h)).trans (.of (.tally _ (commandsOf_ofMonitor c s.events)))

theorem moves_fire (c : Connection) (now : Instant) : Moves true c (c.fire now) :=
  moves_latch (.verdict now)

theorem moves_startDrain (wait : Duration) (h : Coherent c) (ht : c.tornDown = false) :
    Moves b c (c.startDrain reason wait now) := by
  by_cases hphase : c.drain.phase = .idle
  · by_cases hw : wait = 0
    · obtain ⟨es, fs, hes, hfs, he⟩ := startDrain_zero reason now h ht hphase
      rw [hw, he]
      have hopen := Move.announce (b := b) reason 0 now es ht hphase hes
      refine (Moves.of hopen).trans (.of ?_)
      exact .finish reason now fs ⟨by simp, ht⟩ rfl hfs
    · obtain ⟨es, hes, he⟩ := startDrain_idle reason now h ht hphase hw
      rw [he]
      exact .of (.announce reason wait now es ht hphase hes)
  · obtain ⟨es, hes, he⟩ := startDrain_later reason now wait h hphase
    rw [he]
    by_cases hs : c.drain.phase ≠ .closed ∧ c.drain.reason = some .appRequested ∧ reason.required
    · rw [superseded, if_pos hs]
      exact (Moves.of (.supersede reason hs.1 hs.2.1 hs.2.2)).trans (.of (.tally es hes))
    · rw [superseded, if_neg hs]
      exact .of (.tally es hes)

theorem moves_conclude (h : Coherent c) : Moves b c (c.conclude reason now) := by
  by_cases hphase : c.drain.phase = .closed
  · rw [conclude_closed reason now h hphase]
    exact .refl c
  · have hreason :
        c.drain.reason.getD (c.drain.reason.getD reason) = c.drain.reason.getD reason := by
      cases c.drain.reason <;> rfl
    cases ht : c.tornDown with
    | false =>
        obtain ⟨es, hes, he⟩ := conclude_open reason now h ht hphase
        rw [he]
        exact .of (.finish _ now es ⟨hphase, ht⟩ hreason hes)
    | true =>
        obtain ⟨es, hes, he⟩ := conclude_late reason now (h.state_closed ht) hphase
        rw [he]
        exact .of (.finishLate _ es ht hphase hreason hes)

theorem startDrain_decided (wait : Duration) (h : Coherent c) (ht : c.tornDown = false)
    (hreq : reason.required = true) : (c.startDrain reason wait now).drain.Decided := by
  have happ := Reason.ne_appRequested hreq
  by_cases hphase : c.drain.phase = .idle
  · by_cases hw : wait = 0
    · obtain ⟨es, fs, -, -, he⟩ := startDrain_zero reason now h ht hphase
      rw [hw, he]
      exact .inl rfl
    · obtain ⟨es, -, he⟩ := startDrain_idle reason now h ht hphase hw
      rw [he]
      exact .inr ⟨by simp, happ⟩
  · obtain ⟨es, -, he⟩ := startDrain_later reason now wait h hphase
    rw [he]
    by_cases hp : c.drain.phase = .closed
    · exact .inl hp
    · refine .inr ⟨hphase, ?_⟩
      show superseded c.drain reason ≠ _
      rw [superseded]
      split
      · exact happ
      · rename_i hs
        exact fun ha => hs ⟨hp, ha, hreq⟩

theorem afterDrain_peerError (c : Connection) (code : Option Nat) :
    ({ c with peerError := code }).afterDrain now =
      { c.afterDrain now with peerError := code } := by
  cases hb : c.drain.isClosed && decide (c.state.rank < State.closing.rank) with
  | true => simp only [afterDrain, hb, if_true]; rfl
  | false => simp only [afterDrain, hb, Bool.false_eq_true, if_false]

theorem afterDrain_flag (c : Connection) (flag : Bool) :
    ({ c with closeRequested := flag }).afterDrain now =
      { c.afterDrain now with closeRequested := flag } := by
  cases hb : c.drain.isClosed && decide (c.state.rank < State.closing.rank) with
  | true => simp only [afterDrain, hb, if_true]; rfl
  | false => simp only [afterDrain, hb, Bool.false_eq_true, if_false]

theorem startDrain_flag (wait : Duration) (c : Connection) (flag : Bool) :
    ({ c with closeRequested := flag }).startDrain reason wait now =
      { c.startDrain reason wait now with closeRequested := flag } := by
  simp only [startDrain]
  cases (c.drain.startOn c.clock reason wait now).result with
  | none => rfl
  | some answer =>
      simp only
      rw [← afterDrain_flag]
      cases answer <;> rfl

theorem conclude_peerError (c : Connection) (code : Option Nat) :
    ({ c with peerError := code }).conclude reason now =
      { c.conclude reason now with peerError := code } := by
  simp only [conclude]
  rw [← afterDrain_peerError]
  cases (c.drain.force reason now).result <;> rfl

theorem moves_forced (h : Coherent c) (hd : d = c ∨ d = c.fire now) :
    Moves true c (d.conclude reason now) := by
  rcases hd with rfl | rfl
  · exact moves_conclude reason now h
  · have hfire := moves_fire c now
    exact hfire.trans (moves_conclude reason now (hfire.coherent h))

theorem moves_close (h : Coherent c) : Moves true c (c.close now) := by
  by_cases ho : c.Open
  · by_cases hu : c.Urgent now
    · obtain ⟨d, reason, hd, he⟩ := close_urgent ho hu
      rw [he]
      exact moves_forced reason now h hd
    · rw [close_calm ho hu]
      have hfire := moves_fire c now
      exact hfire.trans (moves_startDrain _ now _ (hfire.coherent h) ho.2)
  · rw [close_over ho]
    exact .refl c

theorem moves_checkDisconnection (h : Coherent c) : Moves true c (c.checkDisconnection now) := by
  by_cases ho : c.Open
  · have hfire := moves_fire c now
    by_cases hu : c.Urgent now
    · obtain ⟨d, reason, hd, he⟩ := checkDisconnection_urgent ho hu
      rw [he]
      exact moves_forced reason now h hd
    · rw [checkDisconnection_calm ho hu]
      split
      · have hc := hfire.coherent h
        have hreq := drainReason_required (c.monitor.verdict now).result
        have hstart : Moves true (c.fire now) ((c.fire now).startDrain _ c.drainFor now) :=
          moves_startDrain (drainReason (c.monitor.verdict now).result) now _ hc ho.2
        rw [startDrain_flag]
        exact (hfire.trans hstart).trans (.of (.decide (startDrain_decided _ now _ hc ho.2 hreq)))
      · exact hfire
  · rw [checkDisconnection_over ho]
    exact .refl c

theorem pollDrain_cases (h : Coherent c) :
    (c.pollDrain now = c ∧ ∀ at_, c.drain.deadline = some at_ → now < at_) ∨
      ∃ reason es, c.Open ∧ c.drain.reason = some reason ∧
        commandsOf es = farewell c.protocol c.lastStream reason ∧
        c.pollDrain now =
          { c with
            state := .closing
            monitor := (c.monitor.destroy now).state
            drain := { c.drain with phase := .closed, reason := some reason, deadline := none }
            journal := c.journal ++ es } := by
  by_cases hdue : ∃ at_, c.drain.deadline = some at_ ∧ at_ ≤ now
  · obtain ⟨at_, hat, hle⟩ := hdue
    obtain ⟨ht, hphase⟩ := h.deadline.mp (by simp [hat])
    obtain ⟨reason, hreason⟩ := Option.isSome_iff_exists.mp (h.reason.mpr (by simp [hphase]))
    obtain ⟨es, hes, he⟩ := pollDrain_due now h hreason hat hle
    exact .inr ⟨reason, es, ⟨by simp [hphase], ht⟩, hreason, hes, he⟩
  · have hearly (at_ : Instant) (hat : c.drain.deadline = some at_) : now < at_ :=
      Nat.lt_of_not_le fun hle => hdue ⟨at_, hat, hle⟩
    exact .inl ⟨pollDrain_early now hearly, hearly⟩

theorem moves_pollDrain (h : Coherent c) : Moves b c (c.pollDrain now) := by
  rcases pollDrain_cases now h with ⟨he, -⟩ | ⟨reason, es, ho, hreason, hes, he⟩
  · rw [he]
    exact .refl c
  · rw [he]
    exact .of (.finish reason now es ho (by simp [hreason]) hes)

theorem moves_probed (c : Connection) (now : Instant) : Moves true c (c.probed now) := by
  have hpoll : Moves true c (c.observe (c.monitor.poll now)) := moves_latch (.poll now)
  rw [probed]
  split
  · rename_i payload hresult
    have hactive : c.monitor.stage = .active := by
      rcases Monitor.poll_cases c.monitor now with ⟨hnone, -, -⟩ | ⟨_, ha, -⟩
      · rw [hnone] at hresult
        contradiction
      · exact ha
    exact hpoll.trans (.of (.probe payload ((Monitor.poll_stage c.monitor now).trans hactive)))
  · exact hpoll

theorem moves_pollTimers (h : Coherent c) : Moves true c (c.pollTimers now) := by
  rw [pollTimers_eq]
  split
  · exact .refl c
  · have hprobed := moves_probed c now
    have hdrain := hprobed.trans (moves_pollDrain now (hprobed.coherent h))
    exact hdrain.trans (moves_checkDisconnection now (hdrain.coherent h))

theorem cancel_state (d : Drain) : d.cancel.state = { d with deadline := none } := by
  cases hd : d.deadline with
  | none => simp [Drain.cancel, hd]; rw [← hd]
  | some at_ => simp [Drain.cancel, hd]

theorem cancel_silent (c : Connection) :
    commandsOf (c.drain.cancel.events.flatMap c.ofDrain) = [] := by
  cases hd : c.drain.deadline <;> simp [Drain.cancel, hd]

theorem cancel_gone (h : Coherent c) (ht : c.tornDown = true) :
    c.drain.cancel = ⟨c.drain, [], false⟩ := by
  have hnone : c.drain.deadline = none := by
    rw [← Option.not_isSome_iff_eq_none, h.deadline, ht]
    simp
  simp [Drain.cancel, hnone]

def stopped (c : Connection) (now : Instant) : Connection :=
  (c.observe (c.monitor.destroy now)).steer c.drain.cancel

theorem stopped_eq (c : Connection) (now : Instant) :
    ∃ es, commandsOf es = [] ∧
      c.stopped now =
        { c with
          monitor := (c.monitor.destroy now).state
          drain := { c.drain with deadline := none }
          journal := c.journal ++ es } := by
  refine ⟨(c.monitor.destroy now).events.map c.ofMonitor ++
    c.drain.cancel.events.flatMap c.ofDrain, ?_, ?_⟩
  · rw [commandsOf_append, commandsOf_ofMonitor, cancel_silent]
    rfl
  · simp only [stopped, observe, steer, emit, cancel_state, List.append_assoc]
    rfl

def parted (c : Connection) (now : Instant) : Connection :=
  { (c.stopped now).streams.foldl (closeStream now) { c.stopped now with tornDown := true } with
    state := .closed }

theorem stopped_tornDown (c : Connection) (now : Instant) :
    (c.stopped now).tornDown = c.tornDown := by
  obtain ⟨es, -, he⟩ := stopped_eq c now
  rw [he]

theorem teardown_later (ht : c.tornDown = true) : c.teardown now = c.stopped now := if_pos ht

theorem teardown_first (ht : c.tornDown = false) :
    c.teardown now =
      let d := if (c.parted now).active then (c.parted now).count .connectionsClosed
        else c.parted now
      d.log .info "connection closed"
        [("connection_id", .num d.id), ("age_ms", .millis (d.age now))] := by
  have hnot : ¬ (c.stopped now).tornDown = true := by simp [stopped_tornDown, ht]
  exact if_neg hnot

theorem moves_parted (c : Connection) (now : Instant) : Moves b c (c.parted now) := by
  obtain ⟨es, hes, he⟩ := stopped_eq c now
  have hserved := ShutdownKept.closeStreams { c.stopped now with tornDown := true } now
    (c.stopped now).streams
  rw [parted]
  generalize (c.stopped now).streams.foldl (closeStream now)
    { c.stopped now with tornDown := true } = e at hserved
  obtain ⟨streams, intake, dispatched, fs, hfs⟩ := hserved
  rw [he]
  have hdown : Moves b c _ := (Moves.of (.tearDown now)).trans (.of (.tally es hes))
  exact hdown.trans (ShutdownKept.intro streams intake dispatched fs hfs).moves

theorem moves_teardown (h : Coherent c) : Moves b c (c.teardown now) := by
  obtain ⟨es, hes, he⟩ := stopped_eq c now
  cases ht : c.tornDown with
  | true =>
      rw [teardown_later now ht, he, h.state_closed ht, ht]
      exact (Moves.of (.tearDown now)).trans (.of (.tally es hes))
  | false =>
      rw [teardown_first now ht]
      refine (moves_parted c now).trans (Moves.trans ?_ (moves_log _ _ _ _))
      split
      · exact .of (.tally _ rfl)
      · exact .refl _

end HttpLifecycle.Connection
