import HttpLifecycle.Time
import HttpLifecycle.Word

namespace HttpLifecycle

inductive Level where
  | debug
  | info
  | warn
  deriving DecidableEq, Repr

namespace Note

inductive Value where
  | num (n : Nat)
  | text (s : String)
  | flag (b : Bool)
  deriving DecidableEq, Repr

/-- A note has 64 bits for a number, so it may not show all of a long time. -/
def Value.micros (d : Duration) : Value := .num (Word.wrap d.toMicros)

def Value.millis (d : Duration) : Value := .num (Word.wrap d.toMillis)

end Note

/-- One structured line of the diagnostic log. -/
structure Note where
  level : Level
  message : String
  fields : List (String × Note.Value)
  deriving DecidableEq, Repr

namespace Note

def stream? (n : Note) : Option Nat :=
  match n.fields.lookup "stream_id" with
  | some (.num id) => some id
  | _ => none

end Note

/-- What a component hands back: its next state, what it did on the way, in
order, and the answer. -/
structure Step (σ ε α : Type) where
  state : σ
  events : List ε
  result : α
  deriving Repr

end HttpLifecycle
