import HttpLifecycle.Note
import HttpLifecycle.Request.Basic

namespace HttpLifecycle

structure AccessRecord where
  connection : ConnectionId
  stream : StreamId
  method : String
  path : String
  service : Option String
  exchange : Exchange
  startedAt : Instant
  duration : Duration
  length : Nat
  transient : Bool
  cause : Option AbortCause
  deriving DecidableEq, Repr

namespace AccessRecord

def ofRequest (r : Request) (now : Instant) : AccessRecord :=
  { connection := r.connection
    stream := r.stream
    method := r.headers.method
    path := r.headers.path
    service := r.service.map (·.name)
    exchange := r.exchange
    startedAt := r.startedAt
    duration := now.since r.startedAt
    length := r.received
    transient := r.service.any (·.transient)
    cause := r.cause }

def success (a : AccessRecord) : Bool := a.cause.isNone

def loggable (a : AccessRecord) : Bool := !(a.transient && a.success)

def note? (a : AccessRecord) : Option Note :=
  if !a.loggable then none
  else
    let fields : List (String × Note.Value) :=
      [("connection_id", .num a.connection),
        ("stream_id", .num a.stream),
        ("method", .text a.method),
        ("path", .text a.path),
        ("service", .text (a.service.getD "-")),
        ("duration_us", .micros a.duration),
        ("request_length", .num a.length)]
    match a.cause with
    | some cause => some ⟨.warn, "request failed", fields ++ [("cause", .text cause.message)]⟩
    | none => some ⟨.debug, "request completed", fields⟩

end AccessRecord

end HttpLifecycle
