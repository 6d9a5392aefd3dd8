import HttpLifecycle.Connection.Basic

namespace HttpLifecycle.Connection

def afterDrain (c : Connection) (now : Instant) : Connection :=
  if c.drain.isClosed && decide (c.state.rank < State.closing.rank) then
    { c with state := .closing }.observe (c.monitor.destroy now)
  else c

/-- Whether the connection has to close without waiting for a drain. The
monitor is asked last, and being asked it fires what is due. -/
def needsImmediate (c : Connection) (now : Instant) : Connection × Bool :=
  if c.serverClosing || c.peerError.isSome then (c, true)
  else
    let s := c.monitor.isUnhealthy now
    (c.observe s, s.result)

def onStarted (c : Connection) : Except Error Unit → Connection
  | .ok () =>
    { c with state := if c.state = State.active then .draining else c.state }.count .drainsStarted
  | .error e =>
    c.log .debug "ignoring drain trigger"
      [("connection_id", .num c.id), ("err", .text e.message)]

/-- A start without an answer stops whatever was under way. -/
def startDrain (c : Connection) (reason : Reason) (wait : Duration) (now : Instant) :
    Connection :=
  let s := c.drain.startOn c.clock reason wait now
  match s.result with
  | some answer => ((c.steer s).onStarted answer).afterDrain now
  | none => c.steer s

def forceReason (c : Connection) (now : Instant) : Connection × Reason :=
  if c.peerError.isSome then (c, .peerGoAway)
  else
    let s := c.monitor.isUnhealthy now
    (c.observe s, if s.result then .pingTimeout else .serverShutdown)

def forceClose (c : Connection) (now : Instant) : Connection :=
  let (c, reason) := c.forceReason now
  let s := c.drain.force reason now
  let c := c.steer s
  let c := if s.result then c.count .immediateDisconnects else c
  c.afterDrain now

/-- Closes at once where that is needed. Otherwise a drain starts, named for
the keep-alive limit that was hit, if any. -/
def close (c : Connection) (now : Instant) : Connection :=
  if c.drain.isClosed || c.tornDown then c
  else
    match c.needsImmediate now with
    | (c, true) => c.forceClose now
    | (c, false) =>
      let s := c.monitor.verdict now
      let reason := (s.result.map Reason.ofVerdict).getD .serverShutdown
      (c.observe s).startDrain reason c.drainFor now

def shutdownRequested (c : Connection) (wait : Option Duration) (now : Instant) : Connection :=
  if c.tornDown then c
  else c.startDrain .appRequested (wait.getD c.drainFor) now

/-- Acts on a limit that was hit, a graceful one only once. -/
def checkDisconnection (c : Connection) (now : Instant) : Connection :=
  if c.drain.isClosed || c.tornDown then c
  else
    match c.needsImmediate now with
    | (c, true) => c.forceClose now
    | (c, false) =>
      if c.closeRequested then c
      else
        let s := c.monitor.needsDisconnection now
        let c := c.observe s
        if s.result then { c with closeRequested := true }.close now else c

def pollTimers (c : Connection) (now : Instant) : Connection :=
  if c.tornDown then c
  else
    let s := c.monitor.poll now
    let c := c.observe s
    let c :=
      match s.result with
      | some payload => c.write [.ping payload, .flush]
      | none => c
    let d := c.drain.poll now
    let c := c.steer d
    let c := if d.result then c.afterDrain now else c
    c.checkDisconnection now

/-- The earliest instant at which `pollTimers` has work. -/
def nextDeadline (c : Connection) : Option Instant :=
  (c.monitor.nextDeadline.toList ++ c.drain.deadline.toList).min?

def closeStream (now : Instant) (c : Connection) (r : Request) : Connection :=
  let c := c.remove r.stream
  if r.terminal then c.retire r now
  else
    let s := r.abort c.intake .connectionClosed false
    (({ c with intake := s.state.2 }.emit s.events).count .requestsAborted).retire s.state.1 now

/-- The transport is gone: timers stop, and the first time every open stream
ends too. -/
def teardown (c : Connection) (now : Instant) : Connection :=
  let c := c.observe (c.monitor.destroy now)
  let c := c.steer c.drain.cancel
  if c.tornDown then c
  else
    let c := c.streams.foldl (closeStream now) { c with tornDown := true }
    let c := { c with state := .closed }
    let c := if c.active then c.count .connectionsClosed else c
    c.log .info "connection closed"
      [("connection_id", .num c.id), ("age_ms", .millis (c.age now))]

end HttpLifecycle.Connection
