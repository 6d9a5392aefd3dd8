import HttpLifecycle.AccessLog
import HttpLifecycle.Metrics.Counter
import HttpLifecycle.Request.Basic

namespace HttpLifecycle

inductive Protocol where
  | h1
  | h1c
  | h2
  | h2c
  deriving DecidableEq, Repr

namespace Protocol

def label : Protocol → String
  | h1 => "h1"
  | h1c => "h1c"
  | h2 => "h2"
  | h2c => "h2c"

def text : Protocol → String
  | h1 => "H1"
  | h1c => "H1C"
  | h2 => "H2"
  | h2c => "H2C"

def isHttp2 : Protocol → Bool
  | h2 | h2c => true
  | h1 | h1c => false

end Protocol

namespace ErrorCode

def noError : Nat := 0x0

def refusedStream : Nat := 0x7

def cancel : Nat := 0x8

end ErrorCode

inductive Command where
  | flush
  | goAway (code : Nat) (last : StreamId) (debugData : String)
  | reset (stream : StreamId) (code : Nat)
  | ping (payload : Nat)
  | close
  | suspendReads
  | resumeReads
  deriving DecidableEq, Repr

/-- What a handler does with a request it is given. It answers it, reads it and
ends it. It does not feed data into it, which is the connection's part, and does
not put another request in its place. -/
inductive Action where
  | bind (tag : String)
  | takeBody
  | takeAggregated
  | abort (cause : AbortCause) (reset : Bool)
  | complete
  deriving DecidableEq, Repr

inductive Reply where
  | done
  | failed (e : Error)
  | flag (b : Bool)
  | bytes (b : Option Bytes)
  | cause (c : Option AbortCause)
  deriving DecidableEq, Repr

def Reply.ofResult : Except Error Unit → Reply
  | .ok () => .done
  | .error e => .failed e

/-- What a connection does to the parts around it. -/
inductive Effect where
  | sink (c : Command)
  | dispatch (r : Request)
  | action (stream : StreamId) (a : Action) (r : Reply)
  | abortResponse (stream : StreamId) (tag : String) (cause : AbortCause)
  | record (a : AccessRecord)
  | note (n : Note)
  | count (c : Counter)
  | lifespan (p : Protocol) (d : Duration)
  deriving DecidableEq, Repr

namespace Effect

def ofGate : Gate.Event → Effect
  | .note n => .note n
  | .signal .suspend => .sink .suspendReads
  | .signal .resume => .sink .resumeReads

def stream? : Effect → Option StreamId
  | .sink (.reset stream _) => some stream
  | .sink _ => none
  | .dispatch r => some r.stream
  | .action stream _ _ => some stream
  | .abortResponse stream _ _ => some stream
  | .record a => some a.stream
  | .note n => n.stream?
  | .count _ => none
  | .lifespan _ _ => none

def streamLe (a b : Effect) : Bool :=
  match a.stream?, b.stream? with
  | some x, some y => x ≤ y
  | _, none => true
  | none, some _ => false

def byStream (es : List Effect) : List Effect := es.mergeSort streamLe

end Effect

end HttpLifecycle
