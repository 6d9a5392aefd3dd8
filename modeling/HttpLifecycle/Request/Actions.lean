import HttpLifecycle.Effect
import HttpLifecycle.Word

namespace HttpLifecycle.Request

def receive (r : Request) (n : Nat) : Request × Option AbortCause :=
  let received := Word.saturate (r.received + n)
  ({ r with received := received },
    if 0 < r.limit ∧ r.limit < received then some (.limitExceeded r.limit received) else none)

/-- Notes the first failure and tells the bound response. Later ones, and any
after completion, change nothing; the answer tells which it was. -/
def fail (r : Request) (cause : AbortCause) (reset : Bool) : Step Request Effect Bool :=
  if r.terminal then ⟨r, [], false⟩
  else
    ⟨{ r with cause := some cause, resetRequested := reset },
      .note ⟨.debug, "aborting request",
        [("connection_id", .num r.connection), ("stream_id", .num r.stream),
          ("cause", .text cause.message), ("reset_stream", .flag reset)]⟩ ::
        r.response.toList.map fun tag => .abortResponse r.stream tag cause,
      true⟩

/-- Binds a response. A response bound to an aborted request hears so at once. -/
def bind (r : Request) (tag : String) : Step Request Effect (Except Error Unit) :=
  if r.response.isSome then ⟨r, [], .error (.alreadyBound r.stream)⟩
  else
    ⟨{ r with response := some tag },
      r.cause.toList.map fun cause => .abortResponse r.stream tag cause, .ok ()⟩

/-- Feeds a DATA frame. A body over the limit aborts the request; data for an
empty or finished request is dropped. -/
def onData (r : Request) (i : Intake) (bytes : Bytes) (endOfStream : Bool) :
    Step (Request × Intake) Effect (Except Error Unit) :=
  match r.mode with
  | .empty =>
    ⟨({ r with received := Word.saturate (r.received + bytes.length) }, i), [], .ok ()⟩
  | .aggregating buffer complete taken =>
    if r.terminal || complete then ⟨(r, i), [], .ok ()⟩
    else
      match r.receive bytes.length with
      | (r, some cause) =>
        let s := { r with mode := .aggregating [] complete taken }.fail cause true
        ⟨(s.state, i), s.events, .error (Error.ofCause r.stream cause)⟩
      | (r, none) =>
        ⟨({ r with mode := .aggregating (buffer ++ bytes) endOfStream taken }, i), [], .ok ()⟩
  | .streaming body _ =>
    if r.terminal || !i.writable body then ⟨(r, i), [], .ok ()⟩
    else
      match r.receive bytes.length with
      | (r, some cause) =>
        let s := r.fail cause true
        ⟨(s.state, i.finish body (some cause)), s.events,
          .error (Error.ofCause r.stream cause)⟩
      | (r, none) =>
        let s := if bytes.isEmpty then ⟨i, [], ()⟩ else i.push body bytes
        let i := if endOfStream then s.state.finish body none else s.state
        ⟨(r, i), s.events.map .ofGate, .ok ()⟩

def takeBody (r : Request) : Request × Option BodyId :=
  match r.mode with
  | .streaming body true => ({ r with mode := .streaming body false }, some body)
  | _ => (r, none)

def takeAggregated (r : Request) : Request × Option Bytes :=
  match r.mode with
  | .aggregating buffer true false =>
    if r.cause.isNone then ({ r with mode := .aggregating [] true true }, some buffer)
    else (r, none)
  | _ => (r, none)

/-- Aborts the exchange: the response hears of it, a gathered body is thrown
away and a streamed one ends with the cause. The answer is the cause on
record, none after completion. -/
def abort (r : Request) (i : Intake) (cause : AbortCause) (reset : Bool) :
    Step (Request × Intake) Effect (Option AbortCause) :=
  let s := r.fail cause reset
  let r := s.state
  if s.result then
    match r.mode with
    | .empty => ⟨(r, i), s.events, r.cause⟩
    | .aggregating _ complete taken =>
      ⟨({ r with mode := .aggregating [] complete taken }, i), s.events, r.cause⟩
    | .streaming body _ => ⟨(r, i.finish body (some cause)), s.events, r.cause⟩
  else ⟨(r, i), s.events, r.cause⟩

def complete (r : Request) : Request × Bool :=
  if r.terminal then (r, false) else ({ r with completed := true }, true)

/-- A request that a service can stream from, its body and response failed
from the start, so that it sees the failure and none of the gathered bytes. -/
def toAborted? (r : Request) (i : Intake) (cause : AbortCause) : Option (Request × Intake) :=
  match r.mode with
  | .aggregating .. =>
    let (i, body) := i.add { queue := [.failed cause], writable := false }
    some ({ r with
      response := none
      cause := some cause
      completed := false
      mode := .streaming body true }, i)
  | _ => none

/-- The end of a request: nothing more is written into its body, and one that
nobody took is given up. -/
def discard (r : Request) (i : Intake) : Step Intake Effect Unit :=
  match r.mode with
  | .streaming body untaken =>
    let i := i.finish body none
    if untaken then
      let s := i.drop body
      ⟨s.state, s.events.map .ofGate, ()⟩
    else ⟨i, [], ()⟩
  | _ => ⟨i, [], ()⟩

def retire (r : Request) (i : Intake) (now : Instant) : Step Intake Effect AccessRecord :=
  let s := r.discard i
  ⟨s.state, s.events, .ofRequest r now⟩

def perform (r : Request) (i : Intake) : Action → Step (Request × Intake) Effect Reply
  | .bind tag =>
    let s := r.bind tag
    ⟨(s.state, i), s.events, Reply.ofResult s.result⟩
  | .takeBody =>
    match r.takeBody with
    | (r, some body) =>
      let s := i.keep r.stream body
      ⟨(r, s.state), s.events.map .ofGate, .flag true⟩
    | (r, none) => ⟨(r, i), [], .flag false⟩
  | .takeAggregated =>
    let (r, bytes) := r.takeAggregated
    ⟨(r, i), [], .bytes bytes⟩
  | .abort cause reset =>
    let s := r.abort i cause reset
    ⟨s.state, s.events, .cause s.result⟩
  | .complete =>
    let (r, first) := r.complete
    ⟨(r, i), [], .flag first⟩

def performAll (r : Request) (i : Intake) : List Action → Step (Request × Intake) Effect Unit
  | [] => ⟨(r, i), [], ()⟩
  | a :: rest =>
    let s := r.perform i a
    let t := performAll s.state.1 s.state.2 rest
    ⟨t.state, s.events ++ .action r.stream a s.result :: t.events, ()⟩

end HttpLifecycle.Request
