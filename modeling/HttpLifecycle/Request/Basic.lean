import HttpLifecycle.Body
import HttpLifecycle.Route

namespace HttpLifecycle

namespace Request

/-- How the body reaches the service, picked once when the headers arrive. -/
inductive Mode where
  | empty
  | aggregating (buffer : Bytes) (complete taken : Bool)
  | streaming (body : BodyId) (untaken : Bool)
  deriving DecidableEq, Repr

inductive State where
  | empty
  | aggregating
  | streaming
  | completed
  | aborted
  deriving DecidableEq, Repr

def State.text : State → String
  | empty => "Empty"
  | aggregating => "Aggregating"
  | streaming => "Streaming"
  | completed => "Completed"
  | aborted => "Aborted"

end Request

structure Request where
  connection : ConnectionId
  stream : StreamId
  headers : Headers
  keepAlive : Bool
  exchange : Exchange
  service : Option Service
  limit : Nat
  startedAt : Instant
  received : Nat := 0
  response : Option String := none
  cause : Option AbortCause := none
  resetRequested : Bool := false
  completed : Bool := false
  mode : Request.Mode
  deriving DecidableEq, Repr

namespace Request

def terminal (r : Request) : Bool := r.completed || r.cause.isSome

def state (r : Request) : State :=
  if r.cause.isSome then .aborted
  else if r.completed then .completed
  else match r.mode with
    | .empty => .empty
    | .aggregating .. => .aggregating
    | .streaming .. => .streaming

def needsAggregation (r : Request) : Bool :=
  match r.mode with
  | .aggregating .. => true
  | _ => false

def ready (r : Request) : Bool :=
  match r.mode with
  | .aggregating _ complete _ => complete || r.cause.isSome
  | _ => true

def text (r : Request) : String :=
  Text.record "StreamRequest" [
    ("connection_id", toString r.connection),
    ("stream_id", toString r.stream),
    ("state", r.state.text),
    ("exchange_type", r.exchange.text)]

structure Opening where
  connection : ConnectionId
  stream : StreamId
  headers : Headers
  endOfStream : Bool
  keepAlive : Bool
  service : Option Service
  defaultLimit : Nat
  now : Instant
  deriving DecidableEq, Repr

/-- Without a service, or when the headers end the stream, no content will
come. Otherwise the service decides whether it is streamed or gathered. -/
def ofOpening (o : Opening) (i : Intake) : Request × Intake :=
  let request (exchange : Exchange) (limit : Nat) (mode : Mode) : Request :=
    { connection := o.connection
      stream := o.stream
      headers := o.headers
      keepAlive := o.keepAlive
      exchange := exchange
      service := o.service
      limit := limit
      startedAt := o.now
      mode := mode }
  match o.service with
  | none => (request .responseStreaming o.defaultLimit .empty, i)
  | some service =>
    let limit := service.limit o.defaultLimit
    if o.endOfStream then (request service.exchange limit .empty, i)
    else if service.exchange.streamsRequest then
      let (i, body) := i.add {}
      (request service.exchange limit (.streaming body true), i)
    else (request service.exchange limit (.aggregating [] false false), i)

end Request

end HttpLifecycle
