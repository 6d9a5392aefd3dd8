import HttpLifecycle.Connection.Event

namespace HttpLifecycle.Connection

/-- What can be done to a connection from outside. -/
inductive Input where
  | event (e : Event)
  | timers
  | query
  | serve (stream : StreamId) (demand : Demand) (allowance : Option Nat)
  | serverCloses

/-- An input and the time at which it comes. Times need not go up. -/
structure Call where
  input : Input
  now : Instant

def perform (c : Connection) (x : Call) : Connection × Except Error Unit :=
  match x.input with
  | .event e => c.handle e x.now
  | .timers => (c.pollTimers x.now, .ok ())
  | .query => ((c.needsImmediate x.now).1, .ok ())
  | .serve stream demand allowance => ((c.serve stream demand allowance).1, .ok ())
  | .serverCloses => ({ c with serverClosing := true }, .ok ())

def after (c : Connection) (x : Call) : Connection := (c.perform x).1

def run (c : Connection) (xs : List Call) : Connection := xs.foldl after c

def admission? (c : Connection) (x : Call) : Option StreamId :=
  match x.input, (c.perform x).2 with
  | .event (.headers stream _ _), .ok () => some stream
  | _, _ => none

def admitted (c : Connection) : List Call → List StreamId
  | [] => []
  | x :: rest => (c.admission? x).toList ++ (c.after x).admitted rest

theorem run_concat (c : Connection) (xs : List Call) (x : Call) :
    c.run (xs ++ [x]) = (c.run xs).after x := List.foldl_append

theorem admitted_append (c : Connection) (xs ys : List Call) :
    c.admitted (xs ++ ys) = c.admitted xs ++ (c.run xs).admitted ys := by
  induction xs generalizing c with
  | nil => rfl
  | cons x rest ih =>
      show (c.admission? x).toList ++ (c.after x).admitted (rest ++ ys) = _
      rw [ih, ← List.append_assoc]
      rfl

end HttpLifecycle.Connection
