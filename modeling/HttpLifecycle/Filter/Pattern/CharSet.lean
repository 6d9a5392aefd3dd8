import HttpLifecycle.Filter.Pattern.Atom

namespace HttpLifecycle.Filter.Pattern.CharSet

def classes : List String :=
  ["alnum", "alpha", "ascii", "blank", "cntrl", "digit", "graph", "lower", "print", "punct",
    "space", "upper", "word", "xdigit"]

def named? : List Char → Option (Bool × List Char)
  | ':' :: rest =>
    let negated := rest.head? == some '^'
    let rest := if negated then rest.tail else rest
    match rest.dropWhile (· != ':') with
    | ':' :: ']' :: after =>
      if String.ofList (rest.takeWhile (· != ':')) ∈ classes then some (negated, after) else none
    | _ => none
  | _ => none

/-- The character that decides whether the dash before `cs` makes a range. Of a
comment only the number sign and the blanks after it are passed over. -/
def peek (m : Mode) (cs : List Char) : Option Char :=
  if m.spaced then
    let seen :=
      match cs.dropWhile Text.isBlank with
      | '#' :: rest => rest.dropWhile Text.isBlank
      | rest => rest
    seen.head?.or cs.head?
  else cs.head?

def member? (m : Mode) (cs : List Char) : Option (List Char) := do
  let (a, rest) ← Atom.readMember? m cs
  let rest := m.skip rest
  if !a.collectable m then none
  match rest with
  | '-' :: after =>
    if peek m after ∈ [some ']', some '-'] then some rest
    else do
      let (b, rest) ← Atom.readMember? m (m.skip after)
      if !b.collectable m then none
      if (← a.char?) ≤ (← b.char?) then some rest else none
  | _ => some rest

def opening? (m : Mode) (cs : List Char) : Option (List Char) :=
  match m.skip cs with
  | '^' :: rest => if m.unicode then some rest else none
  | rest => some rest

def union (members : List Nat) : Nat :=
  let deepest := members.foldr max 0
  if members.length < 2 then deepest else deepest + 1

def operands (left : Option Nat) (members : List Nat) : Nat :=
  match left with
  | none => union members
  | some depth => max depth (union members) + 1

/-- The depth of a set and what follows it. While it is `fresh`, a dash is a
member, and so is a bracket that would leave the set empty. `left` is the depth of
what stands before the last operator. A turn takes up at least one character. -/
def read? (m : Mode) : Nat → Bool → Option Nat → List Nat → List Char →
    Option (Nat × List Char)
  | 0, _, _, _, _ => none
  | turns + 1, fresh, left, members, cs =>
    match m.skip cs with
    | [] => none
    | ']' :: rest =>
      if fresh && members.isEmpty then
        if (Atom.char ']').collectable m then read? m turns false left [0] rest else none
      else some (operands left members + 1, rest)
    | '-' :: rest =>
      if fresh then
        if (Atom.char '-').collectable m then read? m turns true left (0 :: members) rest
        else none
      else
        match rest with
        | '-' :: rest => read? m turns false (some (operands left members)) [] rest
        | _ => (member? m ('-' :: rest)).bind (read? m turns false left (0 :: members))
    | '&' :: '&' :: rest => read? m turns false (some (operands left members)) [] rest
    | '~' :: '~' :: rest => read? m turns false (some (operands left members)) [] rest
    | '[' :: rest =>
      match named? rest with
      | some (negated, rest) =>
        if (if m.unicode then m.folded else negated) then none
        else read? m turns false left (0 :: members) rest
      | none => do
        let rest ← opening? m rest
        let (depth, rest) ← read? m turns true none [] rest
        read? m turns false left (depth :: members) rest
    | rest => (member? m rest).bind (read? m turns false left (0 :: members))

end HttpLifecycle.Filter.Pattern.CharSet
