import HttpLifecycle.Body.Reader
import Mathlib.Logic.Relation

namespace HttpLifecycle.Intake

/-- All that can happen to the inbound side, one thing at a time. What payload
there is room for is left open. -/
inductive Move (R : Intake → Bytes → Prop) (i : Intake) : Intake → Prop
  | add (c : Channel) (hheld : c.held = true) (hempty : ∀ chunk ∈ c.queue, chunk.isData = false) :
      Move R i (i.add c).1
  | push (body : BodyId) (bytes : Bytes) (h : R i bytes) : Move R i (i.push body bytes).state
  | finish (body : BodyId) (cause : Option AbortCause) : Move R i (i.finish body cause)
  | read (body : BodyId) : Move R i (i.read body).state
  | drop (body : BodyId) : Move R i (i.drop body).state
  | file (taken : List (StreamId × BodyId)) : Move R i { i with taken := taken }

def Moves (R : Intake → Bytes → Prop) : Intake → Intake → Prop :=
  Relation.ReflTransGen (Move R)

variable {R : Intake → Bytes → Prop}

namespace Moves

theorem refl (i : Intake) : Moves R i i := Relation.ReflTransGen.refl

theorem of {i j : Intake} (m : Move R i j) : Moves R i j := Relation.ReflTransGen.single m

theorem trans {i j k : Intake} (m : Moves R i j) (n : Moves R j k) : Moves R i k :=
  Relation.ReflTransGen.trans m n

end Moves

variable (i : Intake)

theorem moves_finish (body : BodyId) (cause : Option AbortCause) :
    Moves R i (i.finish body cause) := .of (.finish body cause)

theorem moves_read (body : BodyId) : Moves R i (i.read body).state := .of (.read body)

theorem moves_drop (body : BodyId) : Moves R i (i.drop body).state := .of (.drop body)

theorem moves_forget (stream : StreamId) : Moves R i (i.forget stream) := .of (.file _)

theorem moves_collect (body : BodyId) (allowance : Option Nat) :
    Moves R i (i.collect body allowance).state := moves_drop i body

theorem moves_keep (stream : StreamId) (body : BodyId) : Moves R i (i.keep stream body).state := by
  have hfile : Moves R i
      { i with taken := (stream, body) :: i.taken.filter (·.1 != stream) } := .of (.file _)
  rw [keep]
  cases i.taken.lookup stream with
  | none => exact hfile
  | some old => exact hfile.trans (moves_drop _ old)

theorem moves_serve (stream : StreamId) (demand : Demand) (allowance : Option Nat) :
    Moves R i (i.serve stream demand allowance).state := by
  rw [serve]
  cases i.taken.lookup stream with
  | none => exact .refl i
  | some body =>
      cases demand with
      | next => exact moves_read i body
      | nextIfAny => exact moves_read i body
      | rest => exact (moves_forget i stream).trans (moves_collect _ body allowance)
      | drop => exact (moves_forget i stream).trans (moves_drop _ body)
      | describe => exact .refl i

end HttpLifecycle.Intake
