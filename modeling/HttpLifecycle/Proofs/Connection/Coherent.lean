import HttpLifecycle.Connection.Shutdown

namespace HttpLifecycle

def Effect.command? : Effect → Option Command
  | .sink c => some c
  | _ => none

def commandsOf (es : List Effect) : List Command := es.filterMap Effect.command?

@[simp] theorem commandsOf_append (es fs : List Effect) :
    commandsOf (es ++ fs) = commandsOf es ++ commandsOf fs := List.filterMap_append

@[simp] theorem commandsOf_nil : commandsOf [] = [] := rfl

@[simp] theorem commandsOf_cons_sink (command : Command) (es : List Effect) :
    commandsOf (.sink command :: es) = command :: commandsOf es := rfl

@[simp] theorem commandsOf_cons_note (n : Note) (es : List Effect) :
    commandsOf (.note n :: es) = commandsOf es := rfl

@[simp] theorem commandsOf_cons_count (k : Counter) (es : List Effect) :
    commandsOf (.count k :: es) = commandsOf es := rfl

@[simp] theorem commandsOf_sinks (commands : List Command) :
    commandsOf (commands.map .sink) = commands := by
  induction commands with
  | nil => rfl
  | cons command rest ih => simpa using ih

/-- A drain to which a latched limit has nothing to add: it is over, or it runs
for a reason that the protocol requires. -/
def Drain.Decided (d : Drain) : Prop :=
  d.phase = .closed ∨ d.phase ≠ .idle ∧ d.reason ≠ some .appRequested

theorem Reason.ne_appRequested {r : Reason} (h : r.required = true) :
    some r ≠ some .appRequested := by
  rintro he
  obtain rfl := Option.some.inj he
  contradiction

namespace Connection

def commands (c : Connection) : List Command := commandsOf c.journal

def stateFor (tornDown : Bool) (phase : Drain.Phase) : State :=
  if tornDown then .closed
  else match phase with
    | .idle => .active
    | .start => .draining
    | .wait => .draining
    | .closed => .closing

def announcement (p : Protocol) (r : Reason) : List Command :=
  if p.isHttp2 then [.goAway ErrorCode.noError unboundedStream r.tag, .flush] else []

def farewell (p : Protocol) (last : StreamId) (r : Reason) : List Command :=
  (if p.isHttp2 then [.goAway ErrorCode.noError last r.tag] else []) ++ [.close]

/-- What the parts of a connection know of its shutdown agrees. -/
structure Coherent (c : Connection) : Prop where
  clock : c.clock = .endless
  state : c.state = stateFor c.tornDown c.drain.phase
  phase : c.drain.phase ≠ .start
  stage : c.monitor.stage = .destroyed ↔ c.tornDown = true ∨ c.drain.phase = .closed
  deadline : c.drain.deadline.isSome ↔ c.tornDown = false ∧ c.drain.phase = .wait
  reason : c.drain.reason.isSome ↔ c.drain.phase ≠ .idle
  peerError : c.peerError.isSome → c.drain.phase = .closed
  closeRequested : c.closeRequested = true → c.drain.Decided

theorem coherent_create (id : ConnectionId) (protocol : Protocol) (config : Config)
    (routes : Resolver) (handler : Handler) (now : Instant) :
    Coherent (create id protocol config routes handler now) := by
  constructor <;> simp [create, stateFor]

section Signals

variable (c : Connection)

@[simp] theorem commandsOf_ofMonitor (es : List Monitor.Event) :
    commandsOf (es.map c.ofMonitor) = [] := by
  induction es with
  | nil => rfl
  | cons e rest ih => cases e <;> simpa [commandsOf, ofMonitor, Effect.command?] using ih

@[simp] theorem commandsOf_note (n : Note) : commandsOf (c.ofDrain (.note n)) = [] := rfl

@[simp] theorem commandsOf_announce (r : Reason) :
    commandsOf (c.ofDrain (.announce r)) = announcement c.protocol r := by
  cases hp : c.protocol.isHttp2 <;>
    simp [ofDrain, announcement, hp]

@[simp] theorem commandsOf_finalize (r : Reason) :
    commandsOf (c.ofDrain (.finalize r)) = farewell c.protocol c.lastStream r := by
  cases hp : c.protocol.isHttp2 <;>
    simp [ofDrain, farewell, hp]

end Signals

variable {c : Connection} (reason : Reason) (now : Instant)

theorem startDrain_idle {wait : Duration} (h : Coherent c) (ht : c.tornDown = false)
    (hphase : c.drain.phase = .idle) (hw : wait ≠ 0) :
    ∃ es, commandsOf es = announcement c.protocol reason ∧
      c.startDrain reason wait now =
        { c with
          state := .draining
          drain := ⟨.wait, some reason, some now, some (now + wait)⟩
          journal := c.journal ++ es } := by
  have hstate : c.state = .active := by simp [h.state, ht, hphase, stateFor]
  refine ⟨(c.drain.startOn c.clock reason wait now).events.flatMap c.ofDrain ++
    [.count .drainsStarted], ?_, ?_⟩
  · simp [Drain.startOn, h.clock, hphase, hw]
  · simp [startDrain, onStarted, Drain.startOn, h.clock, hphase, hw, steer, emit,
      Connection.count, afterDrain, Drain.isClosed, hstate]

theorem startDrain_zero (h : Coherent c) (ht : c.tornDown = false)
    (hphase : c.drain.phase = .idle) :
    ∃ es fs, commandsOf es = announcement c.protocol reason ∧
      commandsOf fs = farewell c.protocol c.lastStream reason ∧
      c.startDrain reason 0 now =
        { c with
          state := .closing
          monitor := (c.monitor.destroy now).state
          drain := ⟨.closed, some reason, some now, none⟩
          journal := c.journal ++ es ++ fs } := by
  have hstate : c.state = .active := by simp [h.state, ht, hphase, stateFor]
  refine ⟨c.ofDrain (.note ⟨.info, "starting connection drain", [("reason", .text reason.tag),
      ("drain_us", .micros 0)]⟩) ++ c.ofDrain (.announce reason),
    (Drain.finish ⟨.start, some reason, some now, none⟩ now).events.flatMap c.ofDrain ++
      [.count .drainsStarted] ++ (c.monitor.destroy now).events.map c.ofMonitor, ?_, ?_, ?_⟩
  · simp
  · simp [Drain.finish]
  · simp [startDrain, onStarted, Drain.startOn, Drain.finish, hphase, steer, emit,
      Connection.count, afterDrain, Drain.isClosed, hstate, State.rank, observe]
    rintro (_ | _ | _) _ <;> rfl

def superseded (d : Drain) (reason : Reason) : Option Reason :=
  if d.phase ≠ .closed ∧ d.reason = some .appRequested ∧ reason.required then some reason
  else d.reason

theorem Coherent.rank (h : Coherent c) (hphase : c.drain.phase = .closed) :
    ¬ c.state.rank < State.closing.rank := by
  cases ht : c.tornDown <;> simp [h.state, stateFor, hphase, ht, State.rank]

theorem Coherent.state_closed (h : Coherent c) (ht : c.tornDown = true) : c.state = .closed := by
  simp [h.state, stateFor, ht]

theorem Coherent.closed_iff (h : Coherent c) : c.state = .closed ↔ c.tornDown = true := by
  rw [h.state]
  cases c.tornDown <;> cases c.drain.phase <;> simp [stateFor]

theorem Coherent.attached (h : Coherent c) (hrank : ¬ State.closing.rank ≤ c.state.rank) :
    c.tornDown = false := by
  cases ht : c.tornDown with
  | false => rfl
  | true => simp [h.state_closed ht, State.rank] at hrank

theorem afterDrain_settled
    (h : c.drain.phase = .closed → ¬ c.state.rank < State.closing.rank) :
    c.afterDrain now = c := by
  rw [afterDrain, if_neg]
  simpa [Drain.isClosed] using h

theorem afterDrain_drain (c : Connection) : (c.afterDrain now).drain = c.drain := by
  rw [afterDrain]
  split <;> rfl

theorem startDrain_later (wait : Duration) (h : Coherent c) (hphase : c.drain.phase ≠ .idle) :
    ∃ es, commandsOf es = [] ∧
      c.startDrain reason wait now =
        { c with
          drain := { c.drain with reason := superseded c.drain reason }
          journal := c.journal ++ es } := by
  obtain ⟨current, hcurrent⟩ := Option.isSome_iff_exists.mp (h.reason.mpr hphase)
  refine ⟨(c.drain.race reason).events.flatMap c.ofDrain ++ [.note ⟨.debug,
    "ignoring drain trigger", [("connection_id", .num c.id),
      ("err", .text (Error.shutdownRace current).message)]⟩], ?_, ?_⟩
  · simp only [Drain.race]
    split <;> simp
  · by_cases hr : c.drain.phase ≠ .closed ∧ current = .appRequested ∧ reason.required
    · obtain ⟨hp, rfl, hreq⟩ := hr
      have hd : c.drain.startOn c.clock reason wait now =
          ⟨{ c.drain with reason := some reason }, (c.drain.race reason).events,
            some (.error (.shutdownRace .appRequested))⟩ := by
        simp [Drain.startOn, Drain.race, hphase, hp, hcurrent, hreq]
      simp only [startDrain, onStarted, hd]
      rw [afterDrain_settled]
      · simp [superseded, hp, hcurrent, hreq, steer, emit, log]
      · exact h.rank
    · have hd : c.drain.startOn c.clock reason wait now =
          ⟨c.drain, (c.drain.race reason).events, some (.error (.shutdownRace current))⟩ := by
        simp [Drain.startOn, Drain.race, hphase, hcurrent, hr]
      have hs : superseded c.drain reason = c.drain.reason := by
        simp [superseded, hcurrent, hr]
      simp only [startDrain, onStarted, hd, hs]
      rw [afterDrain_settled]
      · simp [steer, emit, log]
      · exact h.rank

def conclude (c : Connection) (reason : Reason) (now : Instant) : Connection :=
  let s := c.drain.force reason now
  let c := c.steer s
  let c := if s.result then c.count .immediateDisconnects else c
  c.afterDrain now

theorem forceClose_eq (c : Connection) (now : Instant) :
    c.forceClose now = (c.forceReason now).1.conclude (c.forceReason now).2 now := rfl

theorem conclude_phase (c : Connection) : (c.conclude reason now).drain.phase = .closed := by
  have hforced : (c.drain.force reason now).state.phase = .closed := by
    by_cases hphase : c.drain.phase = .closed
    · simp [Drain.force, hphase]
    · simp [Drain.force, Drain.finish, hphase]
  rw [conclude, afterDrain_drain]
  split <;> exact hforced

theorem conclude_closed (h : Coherent c) (hphase : c.drain.phase = .closed) :
    c.conclude reason now = c := by
  have hf : c.drain.force reason now = ⟨c.drain, [], false⟩ := by simp [Drain.force, hphase]
  have hs : c.steer (⟨c.drain, [], false⟩ : Step Drain Drain.Event Bool) = c := by
    simp [steer, emit]
  simp only [conclude, hf, hs]
  exact afterDrain_settled now h.rank

theorem conclude_open (h : Coherent c) (ht : c.tornDown = false)
    (hphase : c.drain.phase ≠ .closed) :
    ∃ es, commandsOf es = farewell c.protocol c.lastStream (c.drain.reason.getD reason) ∧
      c.conclude reason now =
        { c with
          state := .closing
          monitor := (c.monitor.destroy now).state
          drain :=
            { c.drain with
              phase := .closed, reason := some (c.drain.reason.getD reason), deadline := none }
          journal := c.journal ++ es } := by
  have hrank : c.state.rank < State.closing.rank := by
    cases hp : c.drain.phase <;> simp_all [h.state, stateFor, State.rank]
  refine ⟨(c.drain.force reason now).events.flatMap c.ofDrain ++ [.count .immediateDisconnects] ++
    (c.monitor.destroy now).events.map c.ofMonitor, ?_, ?_⟩
  · simp [Drain.force, Drain.finish, hphase]
  · simp [conclude, Drain.force, Drain.finish, hphase, steer, emit, Connection.count, afterDrain,
      Drain.isClosed, hrank, observe]
    rintro (_ | _ | _) _ <;> rfl

theorem conclude_late (ht : c.state = .closed) (hphase : c.drain.phase ≠ .closed) :
    ∃ es, commandsOf es = farewell c.protocol c.lastStream (c.drain.reason.getD reason) ∧
      c.conclude reason now =
        { c with
          drain :=
            { c.drain with
              phase := .closed, reason := some (c.drain.reason.getD reason), deadline := none }
          journal := c.journal ++ es } := by
  refine ⟨(c.drain.force reason now).events.flatMap c.ofDrain ++ [.count .immediateDisconnects],
    ?_, ?_⟩
  · simp [Drain.force, Drain.finish, hphase]
  · simp [conclude, Drain.force, Drain.finish, hphase, steer, emit, Connection.count, afterDrain,
      Drain.isClosed, ht, State.rank]

def pollDrain (c : Connection) (now : Instant) : Connection :=
  let d := c.drain.poll now
  let c := c.steer d
  if d.result then c.afterDrain now else c

theorem pollDrain_due {reason : Reason} (h : Coherent c) (hreason : c.drain.reason = some reason)
    {at_ : Instant} (hat : c.drain.deadline = some at_) (hle : at_ ≤ now) :
    ∃ es, commandsOf es = farewell c.protocol c.lastStream reason ∧
      c.pollDrain now =
        { c with
          state := .closing
          monitor := (c.monitor.destroy now).state
          drain := { c.drain with phase := .closed, reason := some reason, deadline := none }
          journal := c.journal ++ es } := by
  obtain ⟨ht, hphase⟩ := h.deadline.mp (by simp [hat])
  have hrank : c.state.rank < State.closing.rank := by
    simp [h.state, ht, hphase, stateFor, State.rank]
  refine ⟨(c.drain.finish now).events.flatMap c.ofDrain ++
    (c.monitor.destroy now).events.map c.ofMonitor, ?_, ?_⟩
  · simp [Drain.finish, hreason]
  · simp [pollDrain, Drain.poll, Drain.finish, hat, hle, hphase, hreason, steer, emit, afterDrain,
      Drain.isClosed, hrank, observe]
    rintro (_ | _ | _) _ <;> rfl

theorem pollDrain_early (h : ∀ at_, c.drain.deadline = some at_ → now < at_) :
    c.pollDrain now = c := by
  have hp : c.drain.poll now = ⟨c.drain, [], false⟩ := by
    cases hd : c.drain.deadline with
    | none => simp [Drain.poll, hd]
    | some at_ =>
        have hlt := Nat.not_le_of_lt (h at_ hd)
        simp [Drain.poll, hd, hlt]
  simp [pollDrain, hp, steer, emit]

def probed (c : Connection) (now : Instant) : Connection :=
  match (c.monitor.poll now).result with
  | some payload => (c.observe (c.monitor.poll now)).write [.ping payload, .flush]
  | none => c.observe (c.monitor.poll now)

theorem pollTimers_eq (c : Connection) (now : Instant) :
    c.pollTimers now =
      if c.tornDown then c else ((c.probed now).pollDrain now).checkDisconnection now := rfl

end Connection

end HttpLifecycle
