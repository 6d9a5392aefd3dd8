import HttpLifecycle.Filter.Pattern.CharSet
import HttpLifecycle.Text.Alphanumeric

namespace HttpLifecycle.Filter.Pattern

/-- What decides, of a part of a pattern that can be read, whether the whole can
be used. -/
structure Shape where
  depth : Nat := 0
  edges : Bool := false
  names : List String := []
  deriving DecidableEq, Repr

namespace Shape

def beside (a b : Shape) : Shape :=
  ⟨max a.depth b.depth, a.edges || b.edges, a.names ++ b.names⟩

def within (s : Shape) : Shape := { s with depth := s.depth + 1 }

def all (parts : List Shape) : Shape :=
  let s := parts.foldr beside {}
  if parts.length < 2 then s else s.within

end Shape

def Mode.switch (m : Mode) (letters : List Char) : Mode :=
  let turn (c : Char) (before : Bool) : Bool :=
    if c ∈ letters.takeWhile (· != '-') then true
    else if c ∈ letters then false
    else before
  { unicode := turn 'u' m.unicode, folded := turn 'i' m.folded, spaced := turn 'x' m.spaced }

inductive Opening where
  | group (m : Mode) (name : Option String)
  | switches (m : Mode)
  deriving DecidableEq, Repr

namespace Opening

def name? (cs : List Char) : Option (String × List Char) :=
  match cs.takeWhile (· != '>'), cs.dropWhile (· != '>') with
  | first :: others, _ :: rest =>
    if (first = '_' ∨ Text.isAlphabetic first) ∧
        others.all fun c => c ∈ ['_', '.', '[', ']'] || Text.isAlphanumeric c then
      some (String.ofList (first :: others), rest)
    else none
  | _, _ => none

def switches? (m : Mode) (cs : List Char) : Option (Opening × List Char) :=
  let isEnd (c : Char) : Bool := c == ':' || c == ')'
  let letters := cs.takeWhile fun c => !isEnd c
  let known := letters.all (· ∈ ['i', 'm', 's', 'U', 'u', 'R', 'x', '-'])
  if !known || !decide letters.Nodup || letters.getLast? == some '-' then none
  else
    match cs.dropWhile fun c => !isEnd c with
    | ':' :: rest => some (group (m.switch letters) none, rest)
    | ')' :: rest => if letters.isEmpty then none else some (switches (m.switch letters), rest)
    | _ => none

def read? (m : Mode) (cs : List Char) : Option (Opening × List Char) :=
  match m.skip cs with
  | '?' :: '=' :: _ => none
  | '?' :: '!' :: _ => none
  | '?' :: '<' :: '=' :: _ => none
  | '?' :: '<' :: '!' :: _ => none
  | '?' :: '<' :: rest => (name? rest).map fun (name, rest) => (group m (some name), rest)
  | '?' :: 'P' :: '<' :: rest => (name? rest).map fun (name, rest) => (group m (some name), rest)
  | '?' :: rest => switches? m rest
  | rest => some (group m none, rest)

end Opening

structure Group where
  branches : List Shape := []
  parts : List (Option Shape) := []

namespace Group

def push (g : Group) (part : Option Shape) : Group := { g with parts := part :: g.parts }

def branch (g : Group) : Group :=
  ⟨Shape.all (g.parts.map fun part => part.getD {}) :: g.branches, []⟩

def shape (g : Group) : Shape := Shape.all g.branch.branches

/-- Reads on to the end of the group, and leaves its parenthesis. A turn takes up
at least one character. -/
def read? : Nat → Mode → Group → List Char → Option (Shape × List Char)
  | 0, _, _, _ => none
  | turns + 1, m, g, cs =>
    match m.skip cs with
    | [] => some (g.shape, [])
    | ')' :: rest => some (g.shape, ')' :: rest)
    | '|' :: rest => read? turns m g.branch rest
    | '(' :: rest =>
      match Opening.read? m rest with
      | some (.switches inner, rest) => read? turns inner (g.push none) rest
      | some (.group inner name, rest) =>
        match read? turns inner {} rest with
        | some (s, ')' :: rest) =>
          let named : Shape := { s with names := name.toList ++ s.names }
          read? turns m (g.push (some named.within)) rest
        | _ => none
      | none => none
    | '[' :: rest => do
      let (depth, rest) ← CharSet.read? m turns true none [] (← CharSet.opening? m rest)
      read? turns m (g.push (some { depth := depth })) rest
    | '\x7b' :: _ => none
    | c :: rest =>
      if c ∈ ['*', '+', '?'] then
        match g.parts with
        | some s :: before =>
          let rest := if rest.head? = some '?' then rest.tail else rest
          read? turns m { g with parts := some s.within :: before } rest
        | _ => none
      else do
        let (a, rest) ← Atom.read? m (c :: rest)
        if !a.matchable m then none
        read? turns m (g.push (some { edges := a == .edge && m.unicode })) rest

end Group

inductive Fault where
  | malformed
  | unicodeEdge
  deriving DecidableEq, Repr

def Fault.text : Fault → String
  | malformed => "error building NFA"
  | unicodeEdge =>
    "unsupported regex feature for DFAs: cannot build DFAs for regexes with Unicode word " ++
      "boundaries; switch to ASCII word boundaries, or heuristically enable Unicode word " ++
      "boundaries or use a different regex engine"

def maxDepth : Nat := 250

/-- Names of groups must differ, and no part may lie too deep. -/
def shape? (cs : List Char) : Option Shape :=
  match Group.read? (cs.length + 1) {} {} cs with
  | some (s, []) => if s.names.Nodup ∧ s.depth ≤ maxDepth then some s else none
  | _ => none

def fault? (cs : List Char) : Option Fault :=
  match shape? cs with
  | none => some .malformed
  | some s => if s.edges then some .unicodeEdge else none

end HttpLifecycle.Filter.Pattern
