import HttpLifecycle.Body.Reader
import HttpLifecycle.Connection.Frames

namespace HttpLifecycle.Connection

inductive Event where
  | lifecycle (e : Lifecycle)
  | headers (stream : StreamId) (headers : Headers) (endOfStream : Bool)
  | data (stream : StreamId) (bytes : Bytes) (endOfStream : Bool)
  | ping (payload : Nat)
  | pingAck (payload : Nat)
  | reset (stream : StreamId) (code : Nat)
  | goAway (code : Nat) (last : StreamId)
  | setResponse (stream : StreamId) (tag : String)
  | complete (stream : StreamId)
  | abort (stream : StreamId) (cause : AbortCause)
  | close
  | shutdown (wait : Option Duration)
  deriving DecidableEq, Repr

namespace Event

def text : Event → String
  | lifecycle e => "Lifecycle(" ++ e.text ++ ")"
  | headers stream _ _ => s!"Headers({stream})"
  | data stream bytes _ => s!"Data({stream}, {bytes.length} bytes)"
  | ping payload => "Ping(" ++ Text.hex payload ++ ")"
  | pingAck payload => "PingAck(" ++ Text.hex payload ++ ")"
  | reset stream code => s!"RstStream({stream}, " ++ Text.hex code ++ ")"
  | goAway code last => "GoAway(" ++ Text.hex code ++ s!", {last})"
  | setResponse stream _ => s!"SetResponse({stream})"
  | complete stream => s!"ResponseComplete({stream})"
  | abort stream cause => s!"AbortStream({stream}, " ++ cause.message ++ ")"
  | close => "Close"
  | shutdown wait =>
    "ApplicationShutdown(" ++ Text.optional (wait.map Text.duration) ++ ")"

def fallible : Event → Bool
  | headers .. | data .. | reset .. | setResponse .. | complete .. | abort .. => true
  | _ => false

end Event

def handle (c : Connection) (e : Event) (now : Instant) : Connection × Except Error Unit :=
  match e with
  | .lifecycle e => (c.onLifecycle e now, .ok ())
  | .headers stream headers endOfStream => c.onHeaders stream headers endOfStream now
  | .data stream bytes endOfStream => c.onData stream bytes endOfStream now
  | .ping _ => (c.onPing now, .ok ())
  | .pingAck payload => (c.onPingAck payload now, .ok ())
  | .reset stream code => c.onReset stream code now
  | .goAway code last => (c.onGoAway code last now, .ok ())
  | .setResponse stream tag => c.setResponse stream tag
  | .complete stream => c.completeResponse stream now
  | .abort stream cause => c.abortStream stream cause now
  | .close => (c.close now, .ok ())
  | .shutdown wait => (c.shutdownRequested wait now, .ok ())

def serve (c : Connection) (stream : StreamId) (demand : Demand) (allowance : Option Nat := none) :
    Connection × Supply :=
  let s := c.intake.serve stream demand allowance
  ({ c with intake := s.state }.emit (s.events.map .ofGate), s.result)

end HttpLifecycle.Connection
