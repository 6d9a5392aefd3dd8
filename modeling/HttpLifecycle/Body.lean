import HttpLifecycle.Error
import HttpLifecycle.Gate

namespace HttpLifecycle

abbrev Bytes := List UInt8

/-- What travels through a body: payload, or the failure that ends it. -/
inductive Chunk where
  | data (bytes : Bytes)
  | failed (cause : AbortCause)
  deriving DecidableEq, Repr

def Chunk.size : Chunk → Nat
  | data bytes => bytes.length
  | failed _ => 0

def Chunk.isData : Chunk → Bool
  | data _ => true
  | failed _ => false

/-- A streaming body between the request that fills it and its reader. -/
structure Channel where
  queue : List Chunk := []
  writable : Bool := true
  held : Bool := true
  deriving DecidableEq, Repr

namespace Channel

def unread (c : Channel) : Nat := c.queue.foldr (fun chunk n => chunk.size + n) 0

/-- What is left for a reader who asks for everything. -/
inductive Content where
  | complete (bytes : Bytes)
  | failed (cause : AbortCause)
  | pending
  deriving DecidableEq, Repr

def gather (writable : Bool) : Bytes → List Chunk → Content
  | read, [] => if writable then .pending else .complete read
  | read, .data bytes :: rest => gather writable (read ++ bytes) rest
  | _, .failed cause :: _ => .failed cause

def reach (c : Channel) : Nat := (c.queue.takeWhile Chunk.isData).length + 1

def content (c : Channel) (allowance : Option Nat) : Content :=
  if allowance.any (· < c.reach) then .pending else gather c.writable [] c.queue

end Channel

abbrev BodyId := Nat

/-- The inbound side of a connection: its gate, every body channel that was
opened, and the bodies that handlers took, by stream. -/
structure Intake where
  gate : Gate
  channels : List Channel := []
  taken : List (StreamId × BodyId) := []
  deriving DecidableEq, Repr

inductive Reading where
  | item (c : Chunk)
  | ended
  | pending
  deriving DecidableEq, Repr

namespace Intake

def buffered (i : Intake) : Nat :=
  i.channels.foldr (fun c n => (if c.held then c.unread else 0) + n) 0

def modify (i : Intake) (body : BodyId) (f : Channel → Channel) : Intake :=
  { i with channels := i.channels.modify body f }

def add (i : Intake) (c : Channel) : Intake × BodyId :=
  ({ i with channels := i.channels ++ [c] }, i.channels.length)

def writable (i : Intake) (body : BodyId) : Bool := i.channels[body]?.any (·.writable)

def held (i : Intake) (body : BodyId) : Bool := i.channels[body]?.any (·.held)

def consume (i : Intake) (c : Chunk) : Step Intake Gate.Event Unit :=
  match c with
  | .data bytes =>
    let s := i.gate.release bytes.length
    ⟨{ i with gate := s.state }, s.events, ()⟩
  | .failed _ => ⟨i, [], ()⟩

def consumeAll : Intake → List Chunk → Step Intake Gate.Event Unit
  | i, [] => ⟨i, [], ()⟩
  | i, c :: rest =>
    let s := i.consume c
    let t := consumeAll s.state rest
    ⟨t.state, s.events ++ t.events, ()⟩

/-- Puts payload into a body. The gate counts it on arrival and gives it back
if nobody is left to read. -/
def push (i : Intake) (body : BodyId) (bytes : Bytes) : Step Intake Gate.Event Unit :=
  let came := i.gate.arrive bytes.length
  let i := { i with gate := came.state }
  if i.held body then
    ⟨i.modify body fun c => { c with queue := c.queue ++ [.data bytes] }, came.events, ()⟩
  else
    let gone := i.consume (.data bytes)
    ⟨gone.state, came.events ++ gone.events, ()⟩

/-- Ends a body, with the failure if there is one. A second end is ignored, and
a failure that nobody can read is lost. -/
def finish (i : Intake) (body : BodyId) (cause : Option AbortCause) : Intake :=
  i.modify body fun c =>
    if !c.writable then c
    else
      { c with
        writable := false
        queue := if c.held then c.queue ++ cause.toList.map .failed else c.queue }

def read (i : Intake) (body : BodyId) : Step Intake Gate.Event Reading :=
  match i.channels[body]? with
  | none => ⟨i, [], .ended⟩
  | some channel =>
    match channel.queue with
    | [] => ⟨i, [], if channel.writable then .pending else .ended⟩
    | c :: rest =>
      let s := (i.modify body fun ch => { ch with queue := rest }).consume c
      ⟨s.state, s.events, .item c⟩

def drop (i : Intake) (body : BodyId) : Step Intake Gate.Event Unit :=
  match i.channels[body]? with
  | none => ⟨i, [], ()⟩
  | some channel =>
    (i.modify body fun c => { c with queue := [], held := false }).consumeAll channel.queue

/-- Reads a body to its end and gives it up. Reading stops at a failure or at the
allowance, and what follows is released all the same. -/
def collect (i : Intake) (body : BodyId) (allowance : Option Nat) :
    Step Intake Gate.Event Channel.Content :=
  let content := (i.channels[body]?.map fun c => c.content allowance).getD .pending
  let s := i.drop body
  ⟨s.state, s.events, content⟩

/-- Keeps a body under its stream. The one that was kept there before goes
after the new one is in place. -/
def keep (i : Intake) (stream : StreamId) (body : BodyId) : Step Intake Gate.Event Unit :=
  let older := i.taken.lookup stream
  let i := { i with taken := (stream, body) :: i.taken.filter (·.1 != stream) }
  match older with
  | none => ⟨i, [], ()⟩
  | some old => i.drop old

def forget (i : Intake) (stream : StreamId) : Intake :=
  { i with taken := i.taken.filter (·.1 != stream) }

end Intake

end HttpLifecycle
