import HttpLifecycle.Word

namespace HttpLifecycle

/-- What a settings file says, whatever format it was written in. A `none` among
the keys is one whose escapes spell no text; so is a `garbled` value. -/
inductive Document where
  | null
  | bool (b : Bool)
  | int (n : Int)
  | float
  | moment
  | text (s : String)
  | garbled
  | list (items : List Document)
  | table (entries : List (Option String × Document))
  deriving Repr

namespace Document

def get? (d : Document) (key : String) : Option Document :=
  match d with
  | table entries => (entries.reverse.find? fun e => e.1 == some key).map (·.2)
  | _ => none

inductive Surplus where
  | refused
  | ignored
  deriving DecidableEq, Repr

/-- The values of a record's fields: by name, with other names left alone, or
by position. A field that is given twice is an error, one that is missing is not. -/
def fields? (surplus : Surplus) (names : List String) :
    Document → Option (List (Option Document))
  | table entries =>
    if entries.any fun e => e.1.isNone then none
    else
      names.mapM fun name =>
        match entries.filter fun e => e.1 == some name with
        | [] => some none
        | [e] => some (some e.2)
        | _ => none
  | moment => some (names.map fun _ => none)
  | list items =>
    if surplus = .refused ∧ names.length < items.length then none
    else some (names.zipIdx.map fun n => items[n.2]?)
  | _ => none

def count? : Document → Option Nat
  | int (.ofNat n) => if n < Word.size then some n else none
  | _ => none

def flag? : Document → Option Bool
  | bool b => some b
  | _ => none

def text? : Document → Option String
  | text s => some s
  | _ => none

def orDefault {α : Type} (default : α) (read : Document → Option α) :
    Option Document → Option α
  | none => some default
  | some d => read d

end Document

end HttpLifecycle
