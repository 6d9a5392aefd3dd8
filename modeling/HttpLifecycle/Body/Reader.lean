import HttpLifecycle.Body

namespace HttpLifecycle

inductive Demand where
  | next
  | nextIfAny
  | rest
  | drop
  | describe
  deriving DecidableEq, Repr

inductive Supply where
  | absent
  | item (c : Chunk)
  | ended
  | pending
  | dropped
  | description (s : String)
  deriving DecidableEq, Repr

namespace Supply

def ofReading : Reading → Supply
  | .item c => item c
  | .ended => ended
  | .pending => pending

def ofContent : Channel.Content → Supply
  | .complete bytes => item (.data bytes)
  | .failed cause => item (.failed cause)
  | .pending => pending

end Supply

namespace Intake

/-- Serves the holder of the body that was kept under `stream`, who may take as
many items in one go as the allowance says, or any number. -/
def serve (i : Intake) (stream : StreamId) (demand : Demand) (allowance : Option Nat := none) :
    Step Intake Gate.Event Supply :=
  match i.taken.lookup stream with
  | none => ⟨i, [], .absent⟩
  | some body =>
    match demand with
    | .next =>
      let s := i.read body
      ⟨s.state, s.events, .ofReading s.result⟩
    | .nextIfAny =>
      let s := i.read body
      ⟨s.state, s.events, if s.result = .pending then .ended else .ofReading s.result⟩
    | .rest =>
      let s := (i.forget stream).collect body allowance
      ⟨s.state, s.events, .ofContent s.result⟩
    | .drop =>
      let s := (i.forget stream).drop body
      ⟨s.state, s.events, .dropped⟩
    | .describe => ⟨i, [], .description "RequestBody \x7b .. \x7d"⟩

end Intake

end HttpLifecycle
