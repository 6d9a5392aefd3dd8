namespace HttpLifecycle

inductive Verdict where
  | idleTimeout
  | maxAge
  | maxRequests
  | pingTimeout
  deriving DecidableEq, Repr

namespace Verdict

/-- An unacknowledged ping means the peer is gone: there is nobody to drain for. -/
def unhealthy : Verdict → Bool
  | pingTimeout => true
  | _ => false

def tag : Verdict → String
  | idleTimeout => "idle-timeout"
  | maxAge => "max-age"
  | maxRequests => "max-requests"
  | pingTimeout => "ping-timeout"

end Verdict

inductive Reason where
  | idleTimeout
  | maxAge
  | maxRequests
  | pingTimeout
  | peerGoAway
  | serverShutdown
  | appRequested
  deriving DecidableEq, Repr

namespace Reason

def tag : Reason → String
  | idleTimeout => "idle-timeout"
  | maxAge => "max-age"
  | maxRequests => "max-requests"
  | pingTimeout => "ping-timeout"
  | peerGoAway => "peer-go-away"
  | serverShutdown => "server-shutdown"
  | appRequested => "app-requested"

def required : Reason → Bool
  | appRequested => false
  | _ => true

def ofVerdict : Verdict → Reason
  | .idleTimeout => idleTimeout
  | .maxAge => maxAge
  | .maxRequests => maxRequests
  | .pingTimeout => pingTimeout

end Reason

end HttpLifecycle
