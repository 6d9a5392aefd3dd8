import HttpLifecycle.Text.Blank
import HttpLifecycle.Text.Hex

namespace HttpLifecycle.Filter.Pattern

/-- How a pattern is read from some place on. -/
structure Mode where
  unicode : Bool := true
  folded : Bool := false
  spaced : Bool := false
  deriving DecidableEq, Repr

namespace Mode

def gap : Bool → List Char → List Char
  | _, [] => []
  | true, c :: rest => gap (c != '\n') rest
  | false, c :: rest =>
    if c = '#' then gap true rest
    else if Text.isBlank c then gap false rest
    else c :: rest

def skip (m : Mode) (cs : List Char) : List Char := if m.spaced then gap false cs else cs

end Mode

inductive Atom where
  | char (c : Char)
  | byte (c : Char)
  | wildcard
  | anchor
  | edge
  | shorthand (negated : Bool)
  deriving DecidableEq, Repr

namespace Atom

def ofEscape? : Char → Option Atom
  | 'a' => some (char '\x07')
  | 'f' => some (char '\x0c')
  | 't' => some (char '\t')
  | 'n' => some (char '\n')
  | 'r' => some (char '\r')
  | 'v' => some (char '\x0b')
  | 'A' | 'z' => some anchor
  | 'b' | 'B' | '<' | '>' => some edge
  | 'd' | 's' | 'w' => some (shorthand false)
  | 'D' | 'S' | 'W' => some (shorthand true)
  | c => if c.toNat < 0x80 ∧ !c.isAlphanum then some (char c) else none

def digits? (m : Mode) : Nat → List Char → Option (List Char × List Char)
  | 0, cs => some ([], cs)
  | n + 1, cs =>
    match m.skip cs with
    | [] => none
    | c :: rest => (digits? m n rest).map fun (ds, rest) => (c :: ds, rest)

def escaped? (m : Mode) : List Char → Option (Atom × List Char)
  | [] => none
  | 'x' :: rest => do
    let (ds, rest) ← digits? m 2 rest
    some (byte (← Text.Hex.char? ds), rest)
  | 'u' :: rest => do
    let (ds, rest) ← digits? m 4 rest
    some (char (← Text.Hex.char? ds), rest)
  | 'U' :: rest => do
    let (ds, rest) ← digits? m 8 rest
    some (char (← Text.Hex.char? ds), rest)
  | c :: rest => (ofEscape? c).map (·, rest)

def read? (m : Mode) : List Char → Option (Atom × List Char)
  | [] => none
  | '\\' :: rest => escaped? m rest
  | '.' :: rest => some (wildcard, rest)
  | '^' :: rest => some (anchor, rest)
  | '$' :: rest => some (anchor, rest)
  | c :: rest => some (char c, rest)

def readMember? (m : Mode) : List Char → Option (Atom × List Char)
  | [] => none
  | '\\' :: rest => escaped? m rest
  | c :: rest => some (char c, rest)

def char? : Atom → Option Char
  | char c => some c
  | byte c => some c
  | _ => none

def matchable (m : Mode) : Atom → Bool
  | char _ => !(m.unicode && m.folded)
  | byte c => if m.unicode then !m.folded else c.toNat < 0x80
  | wildcard => m.unicode
  | anchor => true
  | edge => true
  | shorthand negated => !m.unicode && !negated

def collectable (m : Mode) : Atom → Bool
  | char c => if m.unicode then !m.folded else c.toNat < 0x80
  | byte c => if m.unicode then !m.folded else c.toNat < 0x80
  | shorthand negated => !m.unicode && !negated
  | _ => false

end Atom

end HttpLifecycle.Filter.Pattern
