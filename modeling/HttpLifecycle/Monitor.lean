import HttpLifecycle.Config
import HttpLifecycle.Note
import HttpLifecycle.Metrics.Counter
import HttpLifecycle.Word

namespace HttpLifecycle

inductive Frame where
  | headers
  | data
  | ping
  | control
  deriving DecidableEq, Repr

namespace Monitor

inductive Stage where
  | dormant
  | active
  | destroyed
  deriving DecidableEq, Repr

def Stage.text : Stage → String
  | dormant => "Uninitialized"
  | active => "Active"
  | destroyed => "Destroyed"

structure Ping where
  payload : Nat
  sentAt : Instant
  deadline : Instant
  deriving DecidableEq, Repr

inductive Event where
  | note (n : Note)
  | count (c : Counter)
  | lifespan (d : Duration)
  deriving DecidableEq, Repr

end Monitor

/-- Keep-alive tracking of one connection: idle time, ping round trips, age and
the number of streams opened. Its timers are instants that the owner of the
connection fires through `poll`; a limit that was hit stays latched. -/
structure Monitor where
  limits : KeepAlive
  stage : Monitor.Stage := .dormant
  startedAt : Option Instant := none
  idleAt : Option Instant := none
  ageAt : Option Instant := none
  pingAt : Option Instant := none
  outstanding : Option Monitor.Ping := none
  nextPayload : Nat := 1
  requests : Nat := 0
  graceful : Option Verdict := none
  unhealthy : Bool := false
  pingsSent : Nat := 0
  pingsAcked : Nat := 0
  roundTrips : Duration := 0
  deriving DecidableEq, Repr

namespace Monitor

def isNoop (m : Monitor) : Bool := !m.limits.enabled

def isActive (m : Monitor) : Bool := m.stage == .active

def arm (m : Monitor) (now : Instant) : Step Monitor Event Bool :=
  if m.stage ≠ .dormant ∨ m.isNoop then ⟨m, [], false⟩
  else
    ⟨{ m with
        stage := .active
        startedAt := some now
        idleAt := m.limits.idleTimeout?.map (now + ·)
        ageAt := m.limits.maxAge?.map (now + ·)
        pingAt := m.limits.pingInterval?.map (now + ·) },
      [.note ⟨.debug, "keep-alive monitor initialized",
        [("idle_timeout_ms", .num m.limits.idleTimeoutMillis),
          ("ping_interval_ms", .num m.limits.pingIntervalMillis),
          ("max_age_ms", .num m.limits.maxAgeMillis),
          ("max_requests", .num m.limits.maxRequests)]⟩],
      true⟩

/-- The limit that was hit. A lost ping outranks the graceful ones. -/
def latched (m : Monitor) : Option Verdict :=
  if m.unhealthy then some .pingTimeout else m.graceful

/-- A frame puts the idle timer off, and the next ping too unless one is out.
The peer's own pings count only where the configuration says so. -/
def activity (m : Monitor) (now : Instant) (frame : Frame) : Monitor :=
  if m.stage ≠ .active ∨ m.latched.isSome then m
  else if frame = .ping ∧ !m.limits.onPing then m
  else
    { m with
      idleAt := (m.limits.idleTimeout?.map (now + ·)).or m.idleAt
      pingAt :=
        if m.outstanding.isSome then m.pingAt
        else (m.limits.pingInterval?.map (now + ·)).or m.pingAt }

/-- Counts a stream. The answer is false once there are more than the limit. -/
def openStream (m : Monitor) : Step Monitor Event Bool :=
  let m := { m with requests := m.requests + 1 }
  match m.limits.maxRequests? with
  | none => ⟨m, [], true⟩
  | some max =>
    if max ≤ m.requests ∧ m.graceful = none then
      ⟨{ m with graceful := some .maxRequests },
        [.note ⟨.info, "connection reached its request limit",
          [("request_count", .num m.requests), ("max", .num max)]⟩],
        decide (m.requests ≤ max)⟩
    else ⟨m, [], decide (m.requests ≤ max)⟩

/-- An acknowledgement counts if it carries the payload of the ping that is
out, and none counts on an unhealthy connection. -/
def ack (m : Monitor) (payload : Nat) (now : Instant) : Step Monitor Event Bool :=
  match m.outstanding with
  | some ping =>
    if ping.payload = payload ∧ !m.unhealthy then
      ⟨{ m with
          outstanding := none
          pingsAcked := m.pingsAcked + 1
          roundTrips := m.roundTrips + now.since ping.sentAt
          pingAt := m.limits.pingInterval?.map (now + ·) },
        [], true⟩
    else ⟨m, [unexpected payload], false⟩
  | none => ⟨m, [unexpected payload], false⟩
where
  unexpected (payload : Nat) : Event :=
    .note ⟨.debug, "ignoring unexpected ping ack", [("payload", .num payload)]⟩

def due (at? : Option Instant) (now : Instant) : Bool := at?.any (· ≤ now)

/-- The first graceful limit to be hit is the one that is kept. -/
def latch (m : Monitor) (v : Verdict) : Step Monitor Event Unit :=
  if m.graceful.isSome then ⟨m, [], ()⟩
  else
    ⟨{ m with graceful := some v },
      [.note ⟨.info, "keep-alive limit reached", [("reason", .text v.tag)]⟩], ()⟩

def expireIdle (m : Monitor) (now : Instant) : Step Monitor Event Unit :=
  if due m.idleAt now then latch { m with idleAt := none } .idleTimeout else ⟨m, [], ()⟩

def expireAge (m : Monitor) (now : Instant) : Step Monitor Event Unit :=
  if due m.ageAt now then latch { m with ageAt := none } .maxAge else ⟨m, [], ()⟩

def expirePing (m : Monitor) (now : Instant) : Step Monitor Event Unit :=
  match m.outstanding with
  | some ping =>
    if ping.deadline ≤ now ∧ !m.unhealthy then
      ⟨{ m with unhealthy := true },
        [.count .pingTimeouts,
          .note ⟨.warn, "keep-alive ping not acknowledged, connection unhealthy",
            [("payload", .num ping.payload)]⟩], ()⟩
    else ⟨m, [], ()⟩
  | none => ⟨m, [], ()⟩

/-- Fires the limits that are due, in this order: idle time, age, ping. -/
def expire (m : Monitor) (now : Instant) : Step Monitor Event Unit :=
  let idle := m.expireIdle now
  let age := idle.state.expireAge now
  let ping := age.state.expirePing now
  ⟨ping.state, idle.events ++ age.events ++ ping.events, ()⟩

def nextPing (m : Monitor) : Option Instant :=
  if m.outstanding.isSome || m.unhealthy then none else m.pingAt

def poll (m : Monitor) (now : Instant) : Step Monitor Event (Option Nat) :=
  if m.stage ≠ .active then ⟨m, [], none⟩
  else
    let fired := m.expire now
    let m := fired.state
    match m.nextPing.filter (· ≤ now), m.limits.pingTimeout? with
    | some at_, some timeout =>
      ⟨{ m with
          nextPayload := Word.wrap (m.nextPayload + 1)
          pingAt := none
          outstanding := some ⟨m.nextPayload, now, now + timeout⟩
          pingsSent := m.pingsSent + 1 },
        fired.events ++ [.count .pingsSent,
          .note ⟨.debug, "sending keep-alive ping",
            [("payload", .num m.nextPayload),
              ("late_by_us", .micros (now.since at_))]⟩],
        some m.nextPayload⟩
    | _, _ => ⟨m, fired.events, none⟩

def verdict (m : Monitor) (now : Instant) : Step Monitor Event (Option Verdict) :=
  match m.stage with
  | .destroyed => ⟨m, [], none⟩
  | .active =>
    let fired := m.expire now
    ⟨fired.state, fired.events, fired.state.latched⟩
  | .dormant => ⟨m, [], m.latched⟩

def needsDisconnection (m : Monitor) (now : Instant) : Step Monitor Event Bool :=
  let s := m.verdict now
  ⟨s.state, s.events, s.result.isSome⟩

def isUnhealthy (m : Monitor) (now : Instant) : Step Monitor Event Bool :=
  let s := m.verdict now
  ⟨s.state, s.events, s.result.any (·.unhealthy)⟩

def timers (m : Monitor) : List Instant :=
  if m.stage ≠ .active then []
  else
    [m.idleAt, m.ageAt, m.nextPing,
      if m.unhealthy then none else m.outstanding.map (·.deadline)].filterMap id

def nextDeadline (m : Monitor) : Option Instant := m.timers.min?

def destroy (m : Monitor) (now : Instant) : Step Monitor Event Bool :=
  let gone : Monitor :=
    { m with
      stage := .destroyed
      idleAt := none
      ageAt := none
      pingAt := none
      outstanding := none }
  if m.stage = .active then
    ⟨gone,
      (m.startedAt.toList.map fun start => .lifespan (now.since start)) ++
        [.note ⟨.debug, "keep-alive monitor destroyed", [("request_count", .num m.requests)]⟩],
      true⟩
  else ⟨gone, [], false⟩

structure Stats where
  requests : Nat
  pingsSent : Nat
  pingsAcked : Nat
  averageRoundTrip : Option Duration
  verdict : Option Verdict
  deriving DecidableEq, Repr

/-- The divisor is the number of acknowledgements as a 32-bit word. Where that
word is zero there is no average to give and the whole report fails. -/
def stats? (m : Monitor) : Option Stats :=
  let report (average : Option Duration) : Stats :=
    ⟨m.requests, m.pingsSent, m.pingsAcked, average, m.latched⟩
  let divisor := Word.wrap32 m.pingsAcked
  if m.pingsAcked = 0 then some (report none)
  else if divisor = 0 then none
  else some (report (some (m.roundTrips / divisor)))

def verdictText : Verdict → String
  | .idleTimeout => "IdleTimeout"
  | .maxAge => "MaxAge"
  | .maxRequests => "MaxRequests"
  | .pingTimeout => "PingTimeout"

def Stats.text (s : Stats) : String :=
  Text.record "KeepAliveStats" [
    ("request_count", toString s.requests),
    ("pings_sent", toString s.pingsSent),
    ("pings_acked", toString s.pingsAcked),
    ("average_rtt", Text.optional (s.averageRoundTrip.map Text.duration)),
    ("verdict", Text.optional (s.verdict.map verdictText))]

def text? (m : Monitor) : Option String :=
  m.stats?.map fun s =>
    Text.record "KeepAliveMonitor" [
      ("config", m.limits.text), ("state", m.stage.text), ("stats", s.text)]

end Monitor

end HttpLifecycle
