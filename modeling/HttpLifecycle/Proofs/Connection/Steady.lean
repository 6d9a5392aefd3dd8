import HttpLifecycle.Proofs.Connection.Adds

namespace HttpLifecycle

inductive Landmark where
  | opened
  | closed
  | lifespan (p : Protocol)
  deriving DecidableEq

def Effect.landmark? : Effect → Option Landmark
  | .count .connectionsOpened => some .opened
  | .count .connectionsClosed => some .closed
  | .lifespan p _ => some (.lifespan p)
  | _ => none

def landmarksOf (es : List Effect) : List Landmark := es.filterMap Effect.landmark?

theorem Serving.landmarks {es : List Effect} (h : Serving es) : landmarksOf es = [] := by
  apply List.filterMap_eq_nil_iff.mpr
  intro e he
  have hserving := h e he
  cases e with
  | count k => cases k <;> first | rfl | contradiction
  | lifespan p d => contradiction
  | _ => rfl

namespace Monitor

def Event.isLifespan : Event → Bool
  | .lifespan _ => true
  | _ => false

def lifespansOf (es : List Event) : List Event := es.filter Event.isLifespan

theorem lifespansOf_append (es fs : List Event) :
    lifespansOf (es ++ fs) = lifespansOf es ++ lifespansOf fs := List.filter_append ..

def spent (m n : Monitor) : Nat :=
  if m.stage = .active ∧ n.stage = .destroyed then m.startedAt.toList.length else 0

structure Steady {α : Type} (n : Nat) (m : Monitor) (s : Step Monitor Event α) : Prop where
  startedAt : s.state.startedAt = m.startedAt
  requests : s.state.requests = m.requests + n
  stage : s.state.stage = m.stage ∨ s.state.stage = .destroyed
  lifespans : (lifespansOf s.events).length = m.spent s.state

variable (m : Monitor) (now : Instant)

theorem spent_same {m n : Monitor} (h : n.stage = m.stage) : m.spent n = 0 := by
  rw [spent, if_neg]
  rintro ⟨ha, hd⟩
  rw [h, ha] at hd
  contradiction

theorem Steady.still {α : Type} {n : Nat} {m : Monitor} {s : Step Monitor Event α}
    (hstart : s.state.startedAt = m.startedAt) (hrequests : s.state.requests = m.requests + n)
    (hstage : s.state.stage = m.stage) (hevents : lifespansOf s.events = []) : Steady n m s :=
  ⟨hstart, hrequests, .inl hstage, by rw [hevents, spent_same hstage]; rfl⟩

theorem expire_lifespans : lifespansOf (m.expire now).events = [] := by
  obtain ⟨notes, hevents⟩ := m.expire_events now
  have hnotes : lifespansOf (notes.map .note) = [] := by simp [lifespansOf, Event.isLifespan]
  have hping : lifespansOf (m.expirePing now).events = [] := by
    rw [expirePing]
    split
    · split <;> rfl
    · rfl
  rw [hevents, lifespansOf_append, hnotes, hping]
  rfl

theorem steady_verdict : Steady 0 m (m.verdict now) := by
  refine .still (fired_startedAt m now) (fired_requests m now) (fired_stage m now) ?_
  rw [verdict]
  split
  · rfl
  · exact expire_lifespans m now
  · rfl

theorem steady_poll : Steady 0 m (m.poll now) := by
  have hevents : lifespansOf (m.poll now).events = [] := by
    have hfired := expire_lifespans m now
    rw [poll]
    split
    · rfl
    · simp only
      split
      · rw [lifespansOf_append, hfired]
        rfl
      · exact hfired
  rcases poll_cases m now with ⟨-, hs, -⟩ | ⟨timeout, -, -, -, -, hs⟩
  · apply Steady.still _ _ (poll_stage m now) hevents
    · rw [hs, fired_startedAt]
    · rw [hs, fired_requests]
      rfl
  · apply Steady.still _ _ (poll_stage m now) hevents
    · rw [hs]
      exact fired_startedAt m now
    · rw [hs]
      exact fired_requests m now

theorem steady_ack (payload : Nat) : Steady 0 m (m.ack payload now) := by
  rw [ack]
  split
  · split <;> exact .still rfl rfl rfl rfl
  · exact .still rfl rfl rfl rfl

theorem steady_openStream : Steady 1 m m.openStream := by
  have hevents : lifespansOf m.openStream.events = [] := by
    rw [openStream]
    simp only
    split
    · rfl
    · split <;> rfl
  apply Steady.still _ _ _ hevents
  · rw [openStream_state]
  · rw [openStream_state]
  · rw [openStream_state]

theorem destroy_startedAt : (m.destroy now).state.startedAt = m.startedAt := by
  rw [destroy]
  split <;> rfl

theorem steady_destroy : Steady 0 m (m.destroy now) := by
  refine ⟨destroy_startedAt m now, ?_, .inr (destroy_stage m now), ?_⟩
  · rw [destroy]
    split <;> rfl
  · rw [spent, destroy_stage]
    cases hs : m.stage with
    | active => cases ht : m.startedAt <;> simp [destroy, hs, ht] <;> rfl
    | dormant => simp [destroy, hs, lifespansOf]
    | destroyed => simp [destroy, hs, lifespansOf]

end Monitor

namespace Connection

def parting (c d : Connection) : List Landmark :=
  List.replicate (c.monitor.spent d.monitor) (.lifespan c.protocol)

/-- One connection follows another while the transport neither comes nor goes,
and `n` streams are counted. Of the landmarks only the end of the monitor may
be passed. -/
structure Steady (n : Nat) (c d : Connection) : Prop where
  protocol : d.protocol = c.protocol
  registered : d.registered = c.registered
  active : d.active = c.active
  tornDown : d.tornDown = c.tornDown
  startedAt : d.monitor.startedAt = c.monitor.startedAt
  requests : d.monitor.requests = c.monitor.requests + n
  stage : d.monitor.stage = c.monitor.stage ∨ d.monitor.stage = .destroyed
  journal : Adds Effect.landmark? (c.parting d) c d

theorem landmarksOf_ofMonitor (c : Connection) {es : List Monitor.Event} (h : Monitor.Modest es) :
    landmarksOf (es.map c.ofMonitor) =
      List.replicate (Monitor.lifespansOf es).length (.lifespan c.protocol) := by
  induction es with
  | nil => rfl
  | cons e rest ih =>
      obtain ⟨he, hrest⟩ := List.forall_mem_cons.mp h
      cases e with
      | note n => exact ih hrest
      | count k => cases k <;> first | exact ih hrest | contradiction
      | lifespan d => exact congrArg (Landmark.lifespan c.protocol :: ·) (ih hrest)

theorem landmarksOf_ofDrain (c : Connection) (es : List Drain.Event) :
    landmarksOf (es.flatMap c.ofDrain) = [] := by
  induction es with
  | nil => rfl
  | cons e rest ih =>
      have hone : landmarksOf (c.ofDrain e) = [] := by
        cases e with
        | note n => rfl
        | announce reason => cases hp : c.protocol.isHttp2 <;> simp [ofDrain, hp] <;> rfl
        | finalize reason => cases hp : c.protocol.isHttp2 <;> simp [ofDrain, hp] <;> rfl
      rw [landmarksOf] at *
      rw [List.flatMap_cons, List.filterMap_append, hone, ih]
      rfl

theorem parting_same {c d : Connection} (h : d.monitor.stage = c.monitor.stage) :
    c.parting d = [] := by
  rw [parting, Monitor.spent_same h]
  rfl

namespace Steady

variable {n k : Nat} {c d e : Connection} (now : Instant)

theorem still (hm : d.monitor = c.monitor) (hp : d.protocol = c.protocol)
    (hr : d.registered = c.registered) (ha : d.active = c.active) (ht : d.tornDown = c.tornDown)
    (hj : Adds Effect.landmark? [] c d) : Steady 0 c d := by
  have hstage : d.monitor.stage = c.monitor.stage := by rw [hm]
  exact ⟨hp, hr, ha, ht, by rw [hm], by rw [hm]; rfl, .inl hstage, parting_same hstage ▸ hj⟩

theorem refl (c : Connection) : Steady 0 c c := still rfl rfl rfl rfl rfl (.same rfl)

theorem parting (h : Steady n c d) (g : Steady k d e) :
    c.parting d ++ d.parting e = c.parting e := by
  rw [Connection.parting, Connection.parting, Connection.parting, h.protocol,
    List.replicate_append_replicate]
  congr 1
  rw [Monitor.spent, Monitor.spent, Monitor.spent, h.startedAt]
  rcases h.stage with hs | hs <;> rcases g.stage with hg | hg <;>
    cases hc : c.monitor.stage <;> simp_all

theorem trans (h : Steady n c d) (g : Steady k d e) : Steady (n + k) c e where
  protocol := g.protocol.trans h.protocol
  registered := g.registered.trans h.registered
  active := g.active.trans h.active
  tornDown := g.tornDown.trans h.tornDown
  startedAt := g.startedAt.trans h.startedAt
  requests := by rw [g.requests, h.requests, Nat.add_assoc]
  stage := by
    rcases g.stage with hs | hs
    · rw [hs]
      exact h.stage
    · exact .inr hs
  journal := h.parting g ▸ h.journal.trans g.journal

theorem ite {p : Prop} [Decidable p] (h : Steady n c d) (g : Steady n c e) :
    Steady n c (if p then d else e) := by
  split
  · exact h
  · exact g

theorem shutdownKept (h : ShutdownKept c d) : Steady 0 c d := by
  obtain ⟨streams, intake, dispatched, es, hes⟩ := h
  exact still rfl rfl rfl rfl rfl ⟨es, rfl, hes.landmarks⟩

theorem streamSteps (m : StreamSteps (fun _ _ => True) false c d) : Steady 0 c d :=
  shutdownKept m.shutdownKept

theorem emit (c : Connection) {es : List Effect} (h : landmarksOf es = []) :
    Steady 0 c (c.emit es) :=
  still rfl rfl rfl rfl rfl ⟨es, rfl, h⟩

theorem log (c : Connection) (level : Level) (message : String)
    (fields : List (String × Note.Value)) : Steady 0 c (c.log level message fields) :=
  emit c rfl

theorem silent (c : Connection) (state : State) (closeRequested serverClosing : Bool)
    (drain : Drain) (lastStream : StreamId) (peerError : Option Nat) :
    Steady 0 c { c with
      state := state
      closeRequested := closeRequested
      serverClosing := serverClosing
      drain := drain
      lastStream := lastStream
      peerError := peerError } :=
  still rfl rfl rfl rfl rfl (.same rfl)

theorem observe {α : Type} (c : Connection) {s : Step Monitor Monitor.Event α}
    (h : c.monitor.Steady n s) (hm : Monitor.Modest s.events) : Steady n c (c.observe s) := by
  refine ⟨rfl, rfl, rfl, rfl, h.startedAt, h.requests, h.stage, s.events.map c.ofMonitor, rfl, ?_⟩
  rw [← landmarksOf, landmarksOf_ofMonitor c hm, h.lifespans]
  rfl

theorem steer {α : Type} (c : Connection) (s : Step Drain Drain.Event α) : Steady 0 c (c.steer s) :=
  still rfl rfl rfl rfl rfl ⟨_, rfl, landmarksOf_ofDrain c s.events⟩

theorem activity (c : Connection) (frame : Frame) : Steady 0 c (c.activity now frame) := by
  have hsame : (c.monitor.activity now frame).startedAt = c.monitor.startedAt ∧
      (c.monitor.activity now frame).requests = c.monitor.requests ∧
      (c.monitor.activity now frame).stage = c.monitor.stage := by
    rw [Monitor.activity]
    split
    · exact ⟨rfl, rfl, rfl⟩
    · split <;> exact ⟨rfl, rfl, rfl⟩
  obtain ⟨hstart, hrequests, hstage⟩ := hsame
  have hquiet : c.parting (c.activity now frame) = [] := parting_same hstage
  exact ⟨rfl, rfl, rfl, rfl, hstart, hrequests, .inl hstage, hquiet ▸ .same rfl⟩

variable (c : Connection)

theorem fire : Steady 0 c (c.fire now) :=
  observe c (Monitor.steady_verdict _ now) (Monitor.modest_verdict _ now)

theorem needsImmediate : Steady 0 c (c.needsImmediate now).1 := by
  rcases needsImmediate_state c now with h | h <;> rw [h]
  · exact refl c
  · exact fire now c

theorem afterDrain : Steady 0 c (c.afterDrain now) := by
  rw [Connection.afterDrain]
  exact ite ((silent c .closing c.closeRequested c.serverClosing c.drain c.lastStream
    c.peerError).trans (observe _ (Monitor.steady_destroy _ now) (Monitor.modest_destroy _ now)))
    (refl c)

theorem onStarted (answer : Except Error Unit) : Steady 0 c (c.onStarted answer) := by
  cases answer with
  | ok u => exact (silent ..).trans (emit _ rfl)
  | error e => exact log _ _ _ _

theorem startDrain (reason : Reason) (wait : Duration) :
    Steady 0 c (c.startDrain reason wait now) := by
  have hsteer := steer c (c.drain.startOn c.clock reason wait now)
  rw [Connection.startDrain]
  split
  · exact (hsteer.trans (onStarted _ _)).trans (afterDrain now _)
  · exact hsteer

theorem conclude (reason : Reason) : Steady 0 c (c.conclude reason now) := by
  rw [Connection.conclude]
  exact ((steer c _).trans (ite (emit _ rfl) (refl _))).trans (afterDrain now _)

theorem forceClose : Steady 0 c (c.forceClose now) := by
  rw [forceClose_eq]
  rcases forceReason_state c now with h | h <;> rw [h]
  · exact conclude now c _
  · exact (fire now c).trans (conclude now _ _)

theorem close : Steady 0 c (c.close now) := by
  have hasked := needsImmediate now c
  rw [Connection.close]
  split
  · exact refl c
  · split
    · rename_i d hd
      rw [hd] at hasked
      exact hasked.trans (forceClose now d)
    · rename_i d hd
      rw [hd] at hasked
      exact (hasked.trans (fire now d)).trans (startDrain now _ _ _)

theorem shutdownRequested (wait : Option Duration) : Steady 0 c (c.shutdownRequested wait now) := by
  rw [Connection.shutdownRequested]
  exact ite (refl c) (startDrain now c _ _)

theorem checkDisconnection : Steady 0 c (c.checkDisconnection now) := by
  have hasked := needsImmediate now c
  rw [Connection.checkDisconnection]
  split
  · exact refl c
  · split
    · rename_i d hd
      rw [hd] at hasked
      exact hasked.trans (forceClose now d)
    · rename_i d hd
      rw [hd] at hasked
      have hverdict : Steady 0 c (d.observe (d.monitor.needsDisconnection now)) :=
        hasked.trans (fire now d)
      exact ite hasked (ite ((hverdict.trans (silent ..)).trans (close now _)) hverdict)

theorem probed : Steady 0 c (c.probed now) := by
  have hpoll := observe c (Monitor.steady_poll c.monitor now) (Monitor.modest_poll _ now)
  rw [Connection.probed]
  split
  · exact hpoll.trans (emit _ rfl)
  · exact hpoll

theorem pollTimers : Steady 0 c (c.pollTimers now) := by
  rw [pollTimers_eq]
  have hdrain (d : Connection) : Steady 0 d (d.pollDrain now) := by
    rw [pollDrain]
    exact (steer d _).trans (ite (afterDrain now _) (refl _))
  exact ite (refl c) (((probed now c).trans (hdrain _)).trans (checkDisconnection now _))

theorem onGoAway (code : Nat) (last : StreamId) : Steady 0 c (c.onGoAway code last now) := by
  have hnoted : Steady 0 c (c.noted code last now) := (activity now c .control).trans (log _ _ _ _)
  rw [Connection.onGoAway]
  exact ite ((hnoted.trans (silent ..)).trans (forceClose now _))
    (ite hnoted (hnoted.trans (startDrain now _ _ _)))

theorem onPingAck (payload : Nat) : Steady 0 c (c.onPingAck payload now) :=
  (activity now c .ping).trans
    (observe _ (Monitor.steady_ack _ now payload) (Monitor.modest_ack _ now payload))

theorem counted : Steady 1 c (c.counted now) :=
  (activity now c .headers).trans
    (observe _ (Monitor.steady_openStream _) (Monitor.modest_openStream _))

end Steady

def Input.report? : Input → Option Lifecycle
  | .event (.lifecycle e) => some e
  | _ => none

def Input.opens : Input → Bool
  | .event (.headers ..) => true
  | _ => false

/-- A call that asks for a stream while the connection is below closing. Each
of them is counted, admitted or not. -/
def asking (c : Connection) (x : Call) : Bool :=
  x.input.opens && decide (c.state.rank < State.closing.rank)

variable {c : Connection} {x : Call} (now : Instant)

theorem onHeaders_checked (stream : StreamId) (headers : Headers) (endOfStream : Bool)
    (h : ¬ State.closing.rank ≤ c.state.rank) :
    ∃ d, Steady 1 c d ∧ (Coherent c → Coherent d) ∧
      (c.onHeaders stream headers endOfStream now).1 = d.checkDisconnection now := by
  have hcounted := Steady.counted now c
  have hcoh : Coherent c → Coherent (c.counted now) := (moves_counted c now).coherent
  cases hr : (c.activity now .headers).monitor.openStream.result with
  | false =>
      have hserved := ShutdownKept.refuse (c.counted now) stream .maxRequests
      refine ⟨_, hcounted.trans (.shutdownKept hserved), fun hc => ?_, ?_⟩
      · exact (hserved.moves (b := true)).coherent (hcoh hc)
      · rw [onHeaders_beyond now stream headers endOfStream h hr]
  | true =>
      obtain ⟨d, hserved, he⟩ := onHeaders_opens now stream headers endOfStream h hr
      refine ⟨d, (hcounted.trans (.silent ..)).trans (.shutdownKept hserved), fun hc => ?_, ?_⟩
      · exact (hserved.moves (b := true)).coherent ((hcoh hc).admitStream stream)
      · rw [he]

theorem Steady.onHeaders (stream : StreamId) (headers : Headers) (endOfStream : Bool) :
    Steady (c.asking ⟨.event (.headers stream headers endOfStream), now⟩).toNat c
      (c.onHeaders stream headers endOfStream now).1 := by
  by_cases h : State.closing.rank ≤ c.state.rank
  · have hno : c.asking ⟨.event (.headers stream headers endOfStream), now⟩ = false := by
      simp [asking, Nat.not_lt.mpr h]
    rw [onHeaders_late now stream headers endOfStream h, hno]
    exact (activity now c .headers).trans (.shutdownKept (.refuse _ stream .closing))
  · have hyes : c.asking ⟨.event (.headers stream headers endOfStream), now⟩ = true := by
      simpa [asking, Input.opens] using h
    obtain ⟨d, hd, -, he⟩ := onHeaders_checked now stream headers endOfStream h
    rw [he, hyes]
    exact hd.trans (.checkDisconnection now d)

theorem after_steady (h : x.input.report? = none) :
    Steady (c.asking x).toNat c (c.after x) := by
  obtain ⟨input, now⟩ := x
  cases input with
  | timers => exact .pollTimers now c
  | query => exact .needsImmediate now c
  | serve stream demand allowance => exact .streamSteps (.serve stream demand allowance)
  | serverCloses => exact .silent ..
  | event e =>
      cases e with
      | lifecycle e => contradiction
      | headers stream headers endOfStream => exact .onHeaders now stream headers endOfStream
      | data stream bytes endOfStream =>
          exact (Steady.activity now c .data).trans
            (.streamSteps (.onData stream bytes endOfStream now fun _ _ _ => trivial))
      | ping payload => exact .activity now c .ping
      | pingAck payload => exact .onPingAck now c payload
      | reset stream code =>
          exact (Steady.activity now c .control).trans (.streamSteps (.onReset stream code now))
      | goAway code last => exact .onGoAway now c code last
      | setResponse stream tag => exact .streamSteps (.setResponse stream tag)
      | complete stream => exact .streamSteps (.completeResponse stream now)
      | abort stream cause => exact .streamSteps (.abortStream stream cause now)
      | close => exact .close now c
      | shutdown wait => exact .shutdownRequested now c wait

/-- The monitor is armed once both events came, unless it was before or the
connection is past that. -/
def arms (c : Connection) : Bool :=
  c.registered && c.active && !c.tornDown && c.monitor.stage == .dormant && c.monitor.limits.enabled

theorem establish_armed (h : c.arms = true) :
    ∃ es, landmarksOf es = [] ∧
      c.establish now =
        { c with monitor := (c.monitor.arm now).state, journal := c.journal ++ es } ∧
      (c.monitor.arm now).state.stage = .active ∧
      (c.monitor.arm now).state.startedAt = some now := by
  obtain ⟨hrest, henabled⟩ := Bool.and_eq_true_iff.mp h
  obtain ⟨hboth, hstage⟩ := Bool.and_eq_true_iff.mp hrest
  have hdormant : c.monitor.stage = .dormant := by simpa using hstage
  have harm : ¬ (c.monitor.stage ≠ .dormant ∨ c.monitor.isNoop = true) := by
    simp [hdormant, Monitor.isNoop, henabled]
  refine ⟨(c.monitor.arm now).events.map c.ofMonitor ++ [.note ⟨.info, "connection established",
    [("connection_id", .num c.id), ("protocol", .text c.protocol.label)]⟩], ?_, ?_, ?_⟩
  · rw [Monitor.arm, if_neg harm]
    rfl
  · rw [establish, if_pos hboth, Monitor.arm, if_neg harm]
    simp [observe, emit, log]
  · rw [Monitor.arm, if_neg harm]
    exact ⟨rfl, rfl⟩

theorem establish_idle (h : c.arms = false) : c.establish now = c := by
  rw [establish]
  split
  · rename_i hboth
    have harm : c.monitor.stage ≠ .dormant ∨ c.monitor.isNoop = true := by
      rw [arms, hboth] at h
      rw [Monitor.isNoop]
      by_cases hs : c.monitor.stage = .dormant <;> simp_all
    have hsame : c.monitor.arm now = ⟨c.monitor, [], false⟩ := by rw [Monitor.arm, if_pos harm]
    rw [hsame]
    exact observe_idle rfl rfl
  · rfl

theorem parted_passed (c : Connection) :
    (c.parted now).protocol = c.protocol ∧ (c.parted now).registered = c.registered ∧
      (c.parted now).active = c.active ∧ (c.parted now).tornDown = true ∧
      (c.parted now).monitor = (c.monitor.destroy now).state ∧
      Adds Effect.landmark? (c.parting (c.parted now)) c (c.parted now) := by
  obtain ⟨_, -, he⟩ := stopped_eq c now
  have hstopped : Steady 0 c (c.stopped now) :=
    (Steady.observe c (Monitor.steady_destroy _ now) (Monitor.modest_destroy _ now)).trans
      (.steer _ _)
  have hserved := ShutdownKept.closeStreams { c.stopped now with tornDown := true } now
    (c.stopped now).streams
  rw [parted]
  generalize (c.stopped now).streams.foldl (closeStream now)
    { c.stopped now with tornDown := true } = d at hserved
  obtain ⟨streams, intake, dispatched, es, hes⟩ := hserved
  have hjournal := hstopped.journal.trans (e := { c.stopped now with
    journal := (c.stopped now).journal ++ es }) ⟨es, rfl, hes.landmarks⟩
  rw [List.append_nil] at hjournal
  exact ⟨hstopped.protocol, hstopped.registered, hstopped.active, rfl, by rw [he], hjournal⟩

theorem teardown_passed (ht : c.tornDown = false) :
    (c.teardown now).protocol = c.protocol ∧ (c.teardown now).registered = c.registered ∧
      (c.teardown now).active = c.active ∧ (c.teardown now).tornDown = true ∧
      (c.teardown now).monitor = (c.monitor.destroy now).state ∧
      Adds Effect.landmark? (c.parting (c.teardown now) ++ if c.active then [.closed] else []) c
        (c.teardown now) := by
  obtain ⟨hprotocol, hregistered, hactive, htorn, hmonitor, hjournal⟩ := parted_passed now c
  rw [teardown_first now ht, ← hactive]
  generalize c.parted now = d at *
  let note : Note := ⟨.info, "connection closed",
    [("connection_id", .num d.id), ("age_ms", .millis (d.age now))]⟩
  cases ha : d.active with
  | false =>
      exact ⟨hprotocol, hregistered, ha, htorn, hmonitor,
        hjournal.trans (e := d.emit [.note note]) ⟨_, rfl, rfl⟩⟩
  | true =>
      exact ⟨hprotocol, hregistered, ha, htorn, hmonitor,
        hjournal.trans (e := (d.count .connectionsClosed).emit [.note note])
          ⟨[.count .connectionsClosed, .note note], List.append_assoc .., rfl⟩⟩

end Connection

end HttpLifecycle
