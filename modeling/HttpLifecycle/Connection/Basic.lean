import HttpLifecycle.Drain
import HttpLifecycle.Monitor
import HttpLifecycle.Request.Actions

namespace HttpLifecycle

namespace Connection

inductive State where
  | active
  | draining
  | closing
  | closed
  deriving DecidableEq, Repr

namespace State

def rank : State → Nat
  | active => 0
  | draining => 1
  | closing => 2
  | closed => 3

def text : State → String
  | active => "Active"
  | draining => "Draining"
  | closing => "Closing"
  | closed => "Closed"

end State

/-- What the transport reports about itself, in any order and any number of times. -/
inductive Lifecycle where
  | added
  | registered
  | active
  | inactive
  | removed
  deriving DecidableEq, Repr

def Lifecycle.text : Lifecycle → String
  | added => "Added"
  | registered => "Registered"
  | active => "Active"
  | inactive => "Inactive"
  | removed => "Removed"

end Connection

/-- The actions a handler takes on a request it is given, in this order. It may
remember what came before, so it is told how many requests it was given already. -/
abbrev Handler := Nat → Request → List Action

/-- One connection: its monitor, its drain, its streams and its inbound side,
and the journal of everything it did so far. -/
structure Connection where
  id : ConnectionId
  protocol : Protocol
  createdAt : Instant
  state : Connection.State := .active
  registered : Bool := false
  active : Bool := false
  tornDown : Bool := false
  monitor : Monitor
  closeRequested : Bool := false
  drain : Drain := {}
  drainFor : Duration
  defaultLimit : Nat
  streams : List Request := []
  lastStream : StreamId := 0
  peerError : Option Nat := none
  serverClosing : Bool := false
  routes : Resolver
  handler : Handler
  clock : Clock := .endless
  dispatched : Nat := 0
  intake : Intake
  journal : List Effect := []

namespace Connection

def create (id : ConnectionId) (protocol : Protocol) (config : Config) (routes : Resolver)
    (handler : Handler) (now : Instant) : Connection :=
  { id := id
    protocol := protocol
    createdAt := now
    monitor := { limits := config.keepAlive }
    drainFor := config.drain
    defaultLimit := config.maxRequestLength
    routes := routes
    handler := handler
    intake := { gate := { marks := config.marks } } }

def emit (c : Connection) (es : List Effect) : Connection :=
  { c with journal := c.journal ++ es }

def log (c : Connection) (level : Level) (message : String)
    (fields : List (String × Note.Value)) : Connection :=
  c.emit [.note ⟨level, message, fields⟩]

def count (c : Connection) (k : Counter) : Connection := c.emit [.count k]

def write (c : Connection) (commands : List Command) : Connection :=
  c.emit (commands.map .sink)

def find? (c : Connection) (stream : StreamId) : Option Request :=
  c.streams.find? fun r => r.stream == stream

def age (c : Connection) (now : Instant) : Duration := now.since c.createdAt

def text (c : Connection) : String :=
  Text.record "ConnectionController" [
    ("connection_id", toString c.id),
    ("protocol", c.protocol.text),
    ("state", c.state.text),
    ("open_streams", toString c.streams.length)]

def ofMonitor (c : Connection) : Monitor.Event → Effect
  | .note n => .note n
  | .count k => .count k
  | .lifespan d => .lifespan c.protocol d

def observe {α : Type} (c : Connection) (s : Step Monitor Monitor.Event α) : Connection :=
  { c with monitor := s.state }.emit (s.events.map c.ofMonitor)

/-- No stream id lies above it, so a GOAWAY with it cuts no stream off. -/
def unboundedStream : StreamId := 0x7fffffff

/-- The announcement keeps every stream; the final signal names the last one
admitted. HTTP/1 has no way to say either. -/
def ofDrain (c : Connection) : Drain.Event → List Effect
  | .note n => [.note n]
  | .announce reason =>
    (if c.protocol.isHttp2 then
      [.sink (.goAway ErrorCode.noError unboundedStream reason.tag), .sink .flush]
    else []) ++
      [.note ⟨.debug, "shutdown announced",
        [("connection_id", .num c.id), ("reason", .text reason.tag)]⟩]
  | .finalize reason =>
    (if c.protocol.isHttp2 then
      [.sink (.goAway ErrorCode.noError c.lastStream reason.tag)]
    else []) ++
      [.sink .close,
        .note ⟨.debug, "final shutdown signal sent",
          [("connection_id", .num c.id), ("last_stream_id", .num c.lastStream),
            ("reason", .text reason.tag)]⟩]

def steer {α : Type} (c : Connection) (s : Step Drain Drain.Event α) : Connection :=
  { c with drain := s.state }.emit (s.events.flatMap c.ofDrain)

def absorb {α : Type} (c : Connection) (s : Step Intake Effect α) : Connection :=
  { c with intake := s.state }.emit s.events

def remove (c : Connection) (stream : StreamId) : Connection :=
  { c with streams := c.streams.filter fun r => r.stream != stream }

def retire (c : Connection) (r : Request) (now : Instant) : Connection :=
  let s := r.retire c.intake now
  (c.absorb s).emit [.record s.result]

def finishStream (c : Connection) (stream : StreamId) (now : Instant) : Connection :=
  match c.find? stream with
  | none => c
  | some r => (c.remove stream).retire r now

def update (c : Connection) (r : Request) : Connection :=
  { c with streams := c.streams.map fun s => if s.stream == r.stream then r else s }

/-- Puts a request into the table. One that was there under its id is given up. -/
def put (c : Connection) (r : Request) : Connection :=
  match c.find? r.stream with
  | none => { c with streams := c.streams ++ [r] }
  | some old => (c.update r).absorb (old.discard c.intake)

def dispatch (c : Connection) (r : Request) : Connection × Request :=
  let s := r.performAll c.intake (c.handler c.dispatched r)
  ({ c with intake := s.state.2, dispatched := c.dispatched + 1 }.emit
    (.dispatch r :: s.events), s.state.1)

end Connection

end HttpLifecycle
