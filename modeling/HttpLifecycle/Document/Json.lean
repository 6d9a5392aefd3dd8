import HttpLifecycle.Document.Basic
import HttpLifecycle.Text.Hex

namespace HttpLifecycle.Document.Json

def isBlank (c : Char) : Bool := c == ' ' || c == '\n' || c == '\t' || c == '\r'

def skip (cs : List Char) : List Char := cs.dropWhile isBlank

def escape? : Char → Option Char
  | '\x22' => some '\x22'
  | '\\' => some '\\'
  | '/' => some '/'
  | 'b' => some '\x08'
  | 'f' => some '\x0c'
  | 'n' => some '\n'
  | 'r' => some '\r'
  | 't' => some '\t'
  | _ => none

def units? : List Char → Option (List Nat × List Char)
  | [] => none
  | '\x22' :: rest => some ([], rest)
  | '\\' :: 'u' :: a :: b :: c :: d :: rest => do
    let unit ← Text.Hex.number? [a, b, c, d]
    let (units, rest) ← units? rest
    some (unit :: units, rest)
  | '\\' :: c :: rest => do
    let c ← escape? c
    let (units, rest) ← units? rest
    some (c.toNat :: units, rest)
  | c :: rest => do
    if c.toNat < 0x20 ∨ c = '\\' then none
    let (units, rest) ← units? rest
    some (c.toNat :: units, rest)

def isHigh (unit : Nat) : Bool := 0xD800 ≤ unit && unit < 0xDC00

def isLow (unit : Nat) : Bool := 0xDC00 ≤ unit && unit < 0xE000

def join? : List Nat → Option (List Char)
  | [] => some []
  | high :: rest =>
    if isHigh high then
      match rest with
      | low :: rest =>
        if isLow low then
          (join? rest).map
            (Char.ofNat (0x10000 + (high - 0xD800) * 0x400 + (low - 0xDC00)) :: ·)
        else none
      | [] => none
    else if isLow high then none
    else (join? rest).map (Char.ofNat high :: ·)

def string? (cs : List Char) : Option (Option String × List Char) := do
  let (units, rest) ← units? cs
  some ((join? units).map String.ofList, rest)

def digits (cs : List Char) : List Char × List Char :=
  (cs.takeWhile Char.isDigit, cs.dropWhile Char.isDigit)

def fraction? : List Char → Option (Bool × List Char)
  | '.' :: rest =>
    match digits rest with
    | ([], _) => none
    | (_, rest) => some (true, rest)
  | cs => some (false, cs)

def exponent? : List Char → Option (Bool × List Char)
  | c :: rest =>
    if c = 'e' ∨ c = 'E' then
      let rest :=
        match rest with
        | '+' :: r => r
        | '-' :: r => r
        | r => r
      match digits rest with
      | ([], _) => none
      | (_, rest) => some (true, rest)
    else some (false, c :: rest)
  | [] => some (false, [])

/-- What a literal of these parts stands for. A whole number that fits no 64-bit
word is a float, and so is minus zero. -/
def number (negative : Bool) (magnitude : Nat) (whole : Bool) : Document :=
  if !whole then .float
  else if negative then
    if magnitude = 0 ∨ Word.half < magnitude then .float else .int (-magnitude)
  else if magnitude < Word.size then .int magnitude
  else .float

def number? (negative : Bool) (cs : List Char) : Option (Document × List Char) := do
  let (ds, rest) ←
    match cs with
    | '0' :: rest => some (['0'], rest)
    | _ =>
      match digits cs with
      | ([], _) => none
      | parts => some parts
  let magnitude := ds.foldl (fun n c => 10 * n + (c.toNat - '0'.toNat)) 0
  let (fractional, rest) ← fraction? rest
  let (scaled, rest) ← exponent? rest
  some (number negative magnitude (!fractional && !scaled), rest)

mutual

/-- One value with blanks before it. `depth` bounds the work that is left. -/
def value? : Nat → List Char → Option (Document × List Char)
  | 0, _ => none
  | depth + 1, cs =>
    match skip cs with
    | 'n' :: 'u' :: 'l' :: 'l' :: rest => some (.null, rest)
    | 't' :: 'r' :: 'u' :: 'e' :: rest => some (.bool true, rest)
    | 'f' :: 'a' :: 'l' :: 's' :: 'e' :: rest => some (.bool false, rest)
    | '\x22' :: rest => do
      let (s, rest) ← string? rest
      some (s.elim .garbled .text, rest)
    | '-' :: rest => number? true rest
    | '[' :: rest =>
      match skip rest with
      | ']' :: rest => some (.list [], rest)
      | rest => do
        let (items, rest) ← items? depth rest
        some (.list items, rest)
    | '\x7b' :: rest =>
      match skip rest with
      | '\x7d' :: rest => some (.table [], rest)
      | rest => do
        let (entries, rest) ← entries? depth rest
        some (.table entries, rest)
    | rest => number? false rest

def items? : Nat → List Char → Option (List Document × List Char)
  | 0, _ => none
  | depth + 1, cs => do
    let (item, rest) ← value? depth cs
    match skip rest with
    | ',' :: rest => do
      let (items, rest) ← items? depth rest
      some (item :: items, rest)
    | ']' :: rest => some ([item], rest)
    | _ => none

def entries? : Nat → List Char → Option (List (Option String × Document) × List Char)
  | 0, _ => none
  | depth + 1, cs =>
    match skip cs with
    | '\x22' :: rest => do
      let (key, rest) ← string? rest
      match skip rest with
      | ':' :: rest => do
        let (value, rest) ← value? depth rest
        match skip rest with
        | ',' :: rest => do
          let (entries, rest) ← entries? depth rest
          some ((key, value) :: entries, rest)
        | '\x7d' :: rest => some ([(key, value)], rest)
        | _ => none
      | _ => none
    | _ => none

end

/-- A text that holds one value and nothing else. Every step takes a character,
so its length bounds the work. -/
def parse? (s : String) : Option Document := do
  let cs := s.toList
  let (d, rest) ← value? (cs.length + 1) cs
  if (skip rest).isEmpty then some d else none

end HttpLifecycle.Document.Json
