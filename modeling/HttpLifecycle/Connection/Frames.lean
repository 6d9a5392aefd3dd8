import HttpLifecycle.Connection.Shutdown

namespace HttpLifecycle.Connection

def activity (c : Connection) (now : Instant) (frame : Frame) : Connection :=
  { c with monitor := c.monitor.activity now frame }

/-- Keep-alive starts when the connection is both registered and active. -/
def establish (c : Connection) (now : Instant) : Connection :=
  if c.registered && c.active && !c.tornDown then
    let s := c.monitor.arm now
    let c := c.observe s
    if s.result then
      c.log .info "connection established"
        [("connection_id", .num c.id), ("protocol", .text c.protocol.label)]
    else c
  else c

def onLifecycle (c : Connection) (event : Lifecycle) (now : Instant) : Connection :=
  let c := c.log .debug "lifecycle event"
    [("connection_id", .num c.id), ("event", .text event.text)]
  match event with
  | .added => c
  | .registered => { c with registered := true }.establish now
  | .active =>
    let c :=
      if c.active || c.tornDown then c
      else { c with active := true }.count .connectionsOpened
    c.establish now
  | .inactive => c.teardown now
  | .removed => c.teardown now

def refuse (c : Connection) (stream : StreamId) (why : Refusal) : Connection :=
  let c := c.log .debug "refusing stream"
    [("connection_id", .num c.id), ("stream_id", .num stream), ("reason", .text why.text)]
  (c.write [.reset stream ErrorCode.refusedStream]).count .streamsRefused

/-- Opens a stream. A connection that is closing refuses it, and so does one
that has served its number of requests. -/
def onHeaders (c : Connection) (stream : StreamId) (headers : Headers) (endOfStream : Bool)
    (now : Instant) : Connection × Except Error Unit :=
  let c := c.activity now .headers
  if State.closing.rank ≤ c.state.rank then
    (c.refuse stream .closing, .error (.refused stream .closing))
  else
    let s := c.monitor.openStream
    let c := c.observe s
    if !s.result then
      ((c.refuse stream .maxRequests).checkDisconnection now,
        .error (.refused stream .maxRequests))
    else
      let c := { c with lastStream := max c.lastStream stream }.count .streamsOpened
      let (request, intake) := Request.ofOpening
        { connection := c.id
          stream := stream
          headers := headers
          endOfStream := endOfStream
          keepAlive := c.state == .active && (c.protocol.isHttp2 || !headers.wantsClose)
          service := c.routes headers
          defaultLimit := c.defaultLimit
          now := now } c.intake
      let c := { c with intake := intake }
      let (c, request) := if request.ready then c.dispatch request else (c, request)
      ((c.put request).checkDisconnection now, .ok ())

/-- A body was turned away. A service that gathers its body still gets to see
the failure, as a request that was aborted from the start. -/
def rejectBody (c : Connection) (r : Request) (e : Error) (now : Instant) : Connection :=
  let c := (c.count .aggregationFailures).log .warn "request body rejected"
    [("connection_id", .num c.id), ("stream_id", .num r.stream), ("err", .text e.message)]
  match r.cause with
  | none => c
  | some cause =>
    let c :=
      match r.toAborted? c.intake cause with
      | none => c
      | some (aborted, intake) =>
        let (c, aborted) := { c with intake := intake }.dispatch aborted
        c.put aborted
    let c :=
      if (c.find? r.stream).any (·.resetRequested) then
        c.write [.reset r.stream ErrorCode.cancel]
      else c
    c.finishStream r.stream now

def onData (c : Connection) (stream : StreamId) (bytes : Bytes) (endOfStream : Bool)
    (now : Instant) : Connection × Except Error Unit :=
  let c := c.activity now .data
  match c.find? stream with
  | none => (c, .error (.unknownStream stream))
  | some r =>
    let wasReady := r.ready
    let s := r.onData c.intake bytes endOfStream
    let r := s.state.1
    let c := ({ c with intake := s.state.2 }.emit s.events).update r
    match s.result with
    | .ok () =>
      if !wasReady && r.ready then
        let (c, r) := c.dispatch r
        (c.update r, .ok ())
      else (c, .ok ())
    | .error e => (c.rejectBody r e now, .error e)

def onPing (c : Connection) (now : Instant) : Connection := c.activity now .ping

def onPingAck (c : Connection) (payload : Nat) (now : Instant) : Connection :=
  let c := c.activity now .ping
  c.observe (c.monitor.ack payload now)

def onReset (c : Connection) (stream : StreamId) (code : Nat) (now : Instant) :
    Connection × Except Error Unit :=
  let c := c.activity now .control
  match c.find? stream with
  | none => (c, .error (.unknownStream stream))
  | some r =>
    let c :=
      if r.cause.isSome then c
      else
        let s := r.abort c.intake (.peerReset code) false
        (({ c with intake := s.state.2 }.emit s.events).count .requestsAborted).update s.state.1
    (c.finishStream stream now, .ok ())

/-- A GOAWAY with an error closes at once; one without starts a drain. -/
def onGoAway (c : Connection) (code : Nat) (last : StreamId) (now : Instant) : Connection :=
  let c := (c.activity now .control).log .info "peer sent GOAWAY"
    [("connection_id", .num c.id), ("error_code", .num code), ("last_stream_id", .num last)]
  if code ≠ ErrorCode.noError then
    { c with peerError := c.peerError.or (some code) }.forceClose now
  else if c.tornDown || c.drain.isClosed then c
  else c.startDrain .peerGoAway c.drainFor now

def setResponse (c : Connection) (stream : StreamId) (tag : String) :
    Connection × Except Error Unit :=
  match c.find? stream with
  | none => (c, .error (.unknownStream stream))
  | some r =>
    let s := r.bind tag
    ((c.update s.state).emit s.events, s.result)

def completeResponse (c : Connection) (stream : StreamId) (now : Instant) :
    Connection × Except Error Unit :=
  match c.find? stream with
  | none => (c, .error (.unknownStream stream))
  | some r => ((c.update r.complete.1).finishStream stream now, .ok ())

def abortStream (c : Connection) (stream : StreamId) (cause : AbortCause) (now : Instant) :
    Connection × Except Error Unit :=
  match c.find? stream with
  | none => (c, .error (.unknownStream stream))
  | some r =>
    let (c, r) :=
      if r.cause.isSome then (c, r)
      else
        let s := r.abort c.intake cause true
        let c := { c with intake := s.state.2 }.emit s.events
        let c := if s.result.isSome then c.count .requestsAborted else c
        (c.update s.state.1, s.state.1)
    let c := if r.resetRequested then c.write [.reset stream ErrorCode.cancel] else c
    (c.finishStream stream now, .ok ())

end HttpLifecycle.Connection
