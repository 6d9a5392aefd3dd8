import HttpLifecycle.Reason
import HttpLifecycle.Text.Layout

namespace HttpLifecycle

abbrev ConnectionId := Nat

abbrev StreamId := Nat

inductive AbortCause where
  | peerReset (code : Nat)
  | limitExceeded (limit received : Nat)
  | connectionClosed
  | connectionDraining
  | cancelled (text : String)
  deriving DecidableEq, Repr

namespace AbortCause

def message : AbortCause → String
  | peerReset code => s!"stream reset by peer with code {code}"
  | limitExceeded limit received =>
    s!"request body of {received} bytes exceeds limit of {limit} bytes"
  | connectionClosed => "connection closed before the exchange completed"
  | connectionDraining => "connection is draining"
  | cancelled text => "request cancelled: " ++ text

def peerInitiated : AbortCause → Bool
  | peerReset _ => true
  | _ => false

end AbortCause

inductive Refusal where
  | closing
  | maxRequests
  deriving DecidableEq, Repr

def Refusal.text : Refusal → String
  | closing => "connection closing"
  | maxRequests => "max-requests"

inductive ReadFailure where
  | notFound
  | isDirectory
  | notText
  deriving DecidableEq, Repr

inductive Error where
  | keepAliveTimeout (limit : Verdict)
  | keepAliveUnhealthy (payload timeoutMillis : Nat)
  | shutdownRace (current : Reason)
  | limitExceeded (limit received : Nat)
  | aborted (stream : StreamId) (cause : AbortCause)
  | alreadyBound (stream : StreamId)
  | unknownStream (stream : StreamId)
  | refused (stream : StreamId) (why : Refusal)
  | invalidConfig (reason : String)
  | malformedToml
  | malformedJson
  | unreadable (why : ReadFailure)
  | logging (text : String)
  deriving DecidableEq, Repr

namespace Error

def message : Error → String
  | keepAliveTimeout limit => "keep-alive limit reached: " ++ limit.tag
  | keepAliveUnhealthy payload timeoutMillis =>
    "keep-alive ping " ++ Text.hex payload ++ s!" not acknowledged within {timeoutMillis}ms"
  | shutdownRace current => "shutdown already in progress with reason " ++ current.tag
  | limitExceeded limit received =>
    s!"request body of {received} bytes exceeds limit of {limit} bytes"
  | aborted stream cause => s!"request on stream {stream} aborted: " ++ cause.message
  | alreadyBound stream => s!"response already bound to stream {stream}"
  | unknownStream stream => s!"unknown stream {stream}"
  | refused stream why => s!"stream {stream} refused: " ++ why.text
  | invalidConfig reason => "invalid configuration: " ++ reason
  | malformedToml => "config parse error"
  | malformedJson => "serialization error"
  | unreadable _ => "unreadable file"
  | logging text => "logging setup failed: " ++ text

/-- The limits are graceful; only a lost ping makes the connection unhealthy. -/
def ofVerdict : Verdict → Error
  | .pingTimeout => keepAliveUnhealthy 0 0
  | v => keepAliveTimeout v

def ofCause (stream : StreamId) : AbortCause → Error
  | .limitExceeded limit received => limitExceeded limit received
  | cause => aborted stream cause

end Error

end HttpLifecycle
