import HttpLifecycle.Connection.Event
import HttpLifecycle.Metrics.Basic

namespace HttpLifecycle

/-- The task of the connection is over: it is closed, or a call on it did not come
back, which leaves a drain that waits with no end set. -/
def Connection.halted (c : Connection) : Bool :=
  c.state == .closed || !c.tornDown && c.drain.phase == .wait && c.drain.deadline.isNone

namespace Registry

structure Member where
  connection : Connection
  handles : Nat := 1
  attached : Bool := true
  finished : Bool := false
  queue : List Connection.Event := []
  history : List (Instant × Effect) := []

end Registry

/-- The connections of a server: the map of those it holds, and all that it ever
had, in the order in which they came. What a connection did stays on record after
its task has ended. -/
structure Registry where
  config : Config
  routes : Resolver
  handler : Handler
  clock : Clock := .endless
  closing : Bool := false
  now : Instant := 0
  held : List ConnectionId := []
  members : List Registry.Member := []

namespace Registry

namespace Member

def id (m : Member) : ConnectionId := m.connection.id

def live (m : Member) : Bool := !m.finished

def left (m : Member) : Bool := m.connection.state == .closed

/-- Moves the effects of the connection into the history. Writes to a transport
that is gone are lost. -/
def stamp (m : Member) (now : Instant) : Member :=
  let kept := m.connection.journal.filter fun
    | .sink _ => m.attached
    | _ => true
  { m with
    connection := { m.connection with journal := [] }
    history := m.history ++ kept.map fun e => (now, e) }

/-- One turn of the task. When the task is over, what was still queued is thrown
away. -/
def turn (m : Member) (now : Instant) (f : Connection → Connection) : Member :=
  let m := { m with connection := f m.connection }.stamp now
  if m.connection.halted then { m with finished := true, queue := [] } else m

def drainQueue (m : Member) (now : Instant) : List Connection.Event → Member
  | [] => { m with queue := [] }
  | e :: rest =>
    let m := m.turn now fun c => (c.handle e now).1
    if m.finished then m else drainQueue m now rest

/-- Fires the timers that are due by `target`. The clock of a task ticks in whole
milliseconds, so a timer fires at the first tick that is not before its deadline,
or at once if the clock has passed it. A timer that fires is armed again, if at
all, for a later instant, so there are no more turns than instants on the way. -/
def fireTimers (m : Member) (now target : Instant) : Nat → Member
  | 0 => m
  | turns + 1 =>
    if m.finished then m
    else
      match m.connection.nextDeadline with
      | none => m
      | some deadline =>
        let at_ := max now deadline.tick
        if at_ ≤ target then
          fireTimers (m.turn at_ fun c => c.pollTimers at_) at_ target turns
        else m

/-- With no handle left nothing can be queued any more, and the connection
counts as removed. -/
def release (m : Member) (now : Instant) : Member :=
  if m.live && m.handles == 0 then m.turn now fun c => c.onLifecycle .removed now else m

def run (m : Member) (now target : Instant) : Member :=
  if m.finished then m
  else ((m.drainQueue now m.queue).release now).fireTimers now target (target - now + 1)

def enqueue (m : Member) (e : Connection.Event) : Member × Bool :=
  if m.finished then (m, false) else ({ m with queue := m.queue ++ [e] }, true)

end Member

def find? (r : Registry) (id : ConnectionId) : Option Member :=
  r.members.find? fun m => m.id == id

/-- Each task that has run to its end takes its connection out of the map. A task
that was stopped never gets there. -/
def reap (r : Registry) : Registry :=
  { r with held := r.held.filter fun id => !(r.find? id).any Member.left }

def runUntil (r : Registry) (target : Instant) : Registry :=
  let r : Registry :=
    { r with now := target, members := r.members.map fun m => m.run r.now target }
  r.reap

def settle (r : Registry) : Registry := r.runUntil r.now

def advance (r : Registry) (d : Duration) : Registry := r.runUntil (r.now + d)

def modify (r : Registry) (id : ConnectionId) (f : Member → Member) : Registry :=
  { r with members := r.members.map fun m => if m.id == id then f m else m }

def size (r : Registry) : Nat := r.held.length

/-- Starts the task of a new connection. On a server that is closing, a close
is waiting for it. -/
def spawn (r : Registry) (protocol : Protocol) : Registry × ConnectionId :=
  let id := r.members.length + 1
  let connection :=
    { Connection.create id protocol r.config r.routes r.handler r.now with
      serverClosing := r.closing
      clock := r.clock }
  ({ r with
      held := r.held ++ [id]
      members := r.members ++
        [{ connection := connection, queue := if r.closing then [.close] else [] }] }, id)

/-- The map has a handle to give out for as long as the transport holds one. -/
def yields (r : Registry) (m : Member) : Bool := r.held.contains m.id && decide (0 < m.handles)

def get? (r : Registry) (id : ConnectionId) : Option Member := (r.find? id).filter r.yields

def send (r : Registry) (id : ConnectionId) (viaGet : Bool) (events : List Connection.Event) :
    Registry × Option (List Bool) :=
  let holder := if viaGet then r.get? id else (r.find? id).filter fun m => decide (0 < m.handles)
  match holder with
  | none => (r, none)
  | some m =>
    (r.modify id fun m => events.foldl (fun m e => (m.enqueue e).1) m,
      some (events.map fun _ => m.live))

/-- Queues an event for every connection in the map that can be reached, and
counts those whose task takes it. -/
def broadcast (r : Registry) (e : Connection.Event) : Registry × Nat :=
  ({ r with members := r.members.map fun m => if r.yields m then (m.enqueue e).1 else m },
    r.members.countP fun m => r.yields m && (m.enqueue e).2)

/-- Marks the server as closing and closes every connection without a drain. -/
def shutdownAll (r : Registry) : Registry × Nat :=
  let r : Registry :=
    { r with
      closing := true
      members := r.members.map fun m =>
        { m with connection := { m.connection with serverClosing := true } } }
  r.broadcast .close

def drainAll (r : Registry) (wait : Option Duration) : Registry × Nat :=
  r.broadcast (.shutdown wait)

def clone (r : Registry) (id : ConnectionId) : Registry × Bool :=
  match (r.find? id).filter fun m => decide (0 < m.handles) with
  | none => (r, false)
  | some _ => (r.modify id fun m => { m with handles := m.handles + 1 }, true)

def dropHandle (r : Registry) (id : ConnectionId) : Registry × Bool :=
  match (r.find? id).filter fun m => decide (0 < m.handles) with
  | none => (r, false)
  | some _ => (r.modify id fun m => { m with handles := m.handles - 1 }, true)

def dropTransport (r : Registry) (id : ConnectionId) : Registry :=
  r.modify id fun m => { m with attached := false }

/-- Items that a reader takes in one go before other tasks have their turn. -/
def allowance : Nat := 128

def serve (r : Registry) (id : ConnectionId) (stream : StreamId) (demand : Demand) :
    Registry × Supply :=
  match r.find? id with
  | none => (r, .absent)
  | some m =>
    let (connection, supply) := m.connection.serve stream demand (some allowance)
    (r.modify id fun m => { m with connection := connection }.stamp r.now, supply)

def metrics (r : Registry) : Metrics :=
  r.members.foldl (fun acc m => acc.recordAll (m.history.map (·.2))) {}

def text (r : Registry) : String :=
  Text.record "ConnectionRegistry"
    [("connections", toString r.size), ("closing", Text.bool r.closing)]

end Registry

end HttpLifecycle
