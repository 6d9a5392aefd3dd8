import HttpLifecycle.Document.Basic
import HttpLifecycle.Text.Hex

namespace HttpLifecycle.Document.Toml

def isBlank (c : Char) : Bool := c == ' ' || c == '\t'

def skip (cs : List Char) : List Char := cs.dropWhile isBlank

def isPlain (c : Char) : Bool := c == '\t' || (0x20 ≤ c.toNat && c.toNat != 0x7f)

def newline? : List Char → Option (List Char)
  | '\n' :: rest => some rest
  | '\r' :: '\n' :: rest => some rest
  | _ => none

def gap : Bool → List Char → List Char
  | _, [] => []
  | _, '\n' :: rest => gap false rest
  | _, '\r' :: '\n' :: rest => gap false rest
  | true, c :: rest => if isPlain c then gap true rest else c :: rest
  | false, '#' :: rest => gap true rest
  | false, c :: rest => if isBlank c then gap false rest else c :: rest

def ending? (cs : List Char) : Option (List Char) :=
  let rest :=
    match skip cs with
    | '#' :: rest => rest.dropWhile isPlain
    | rest => rest
  if rest.isEmpty then some [] else newline? rest

def escape? : Char → Option Char
  | 'b' => some '\x08'
  | 't' => some '\t'
  | 'n' => some '\n'
  | 'f' => some '\x0c'
  | 'r' => some '\r'
  | '\x22' => some '\x22'
  | '\\' => some '\\'
  | _ => none

def basic? : List Char → Option (List Char × List Char)
  | [] => none
  | '\x22' :: rest => some ([], rest)
  | '\\' :: 'u' :: a :: b :: c :: d :: rest => do
    let x ← Text.Hex.char? [a, b, c, d]
    let (cs, rest) ← basic? rest
    some (x :: cs, rest)
  | '\\' :: 'U' :: a :: b :: c :: d :: e :: f :: g :: h :: rest => do
    let x ← Text.Hex.char? [a, b, c, d, e, f, g, h]
    let (cs, rest) ← basic? rest
    some (x :: cs, rest)
  | '\\' :: c :: rest => do
    let x ← escape? c
    let (cs, rest) ← basic? rest
    some (x :: cs, rest)
  | c :: rest => do
    if !isPlain c || c == '\\' then none
    let (cs, rest) ← basic? rest
    some (c :: cs, rest)

def continues (cs : List Char) : Bool := (newline? (skip cs)).isSome

def basicLines? (swallow : Bool) : List Char → Option (List Char × List Char)
  | [] => none
  | '\x22' :: '\x22' :: '\x22' :: '\x22' :: '\x22' :: rest => some (['\x22', '\x22'], rest)
  | '\x22' :: '\x22' :: '\x22' :: '\x22' :: rest => some (['\x22'], rest)
  | '\x22' :: '\x22' :: '\x22' :: rest => some ([], rest)
  | '\r' :: '\n' :: rest => do
    let (cs, rest) ← basicLines? swallow rest
    some (if swallow then cs else '\n' :: cs, rest)
  | '\n' :: rest => do
    let (cs, rest) ← basicLines? swallow rest
    some (if swallow then cs else '\n' :: cs, rest)
  | '\\' :: 'u' :: a :: b :: c :: d :: rest => do
    let x ← Text.Hex.char? [a, b, c, d]
    let (cs, rest) ← basicLines? false rest
    some (x :: cs, rest)
  | '\\' :: 'U' :: a :: b :: c :: d :: e :: f :: g :: h :: rest => do
    let x ← Text.Hex.char? [a, b, c, d, e, f, g, h]
    let (cs, rest) ← basicLines? false rest
    some (x :: cs, rest)
  | '\\' :: c :: rest => do
    if continues (c :: rest) then basicLines? true (c :: rest)
    else
      let x ← escape? c
      let (cs, rest) ← basicLines? false rest
      some (x :: cs, rest)
  | c :: rest => do
    if !isPlain c || c == '\\' then none
    if swallow && isBlank c then basicLines? true rest
    else
      let (cs, rest) ← basicLines? false rest
      some (c :: cs, rest)

def literal? : List Char → Option (List Char × List Char)
  | [] => none
  | '\x27' :: rest => some ([], rest)
  | c :: rest => do
    if !isPlain c then none
    let (cs, rest) ← literal? rest
    some (c :: cs, rest)

def literalLines? : List Char → Option (List Char × List Char)
  | [] => none
  | '\x27' :: '\x27' :: '\x27' :: '\x27' :: '\x27' :: rest => some (['\x27', '\x27'], rest)
  | '\x27' :: '\x27' :: '\x27' :: '\x27' :: rest => some (['\x27'], rest)
  | '\x27' :: '\x27' :: '\x27' :: rest => some ([], rest)
  | '\r' :: '\n' :: rest => do
    let (cs, rest) ← literalLines? rest
    some ('\n' :: cs, rest)
  | c :: rest => do
    if !isPlain c && c != '\n' then none
    let (cs, rest) ← literalLines? rest
    some (c :: cs, rest)

def trimmed (cs : List Char) : List Char := (newline? cs).getD cs

def string? : List Char → Option (List Char × List Char)
  | '\x22' :: '\x22' :: '\x22' :: rest => basicLines? false (trimmed rest)
  | '\x22' :: rest => basic? rest
  | '\x27' :: '\x27' :: '\x27' :: rest => literalLines? (trimmed rest)
  | '\x27' :: rest => literal? rest
  | _ => none

def isBare (c : Char) : Bool := c.isAlphanum || c == '_' || c == '-'

def part? : List Char → Option (String × List Char)
  | '\x22' :: rest => (basic? rest).map fun (cs, rest) => (String.ofList cs, rest)
  | '\x27' :: rest => (literal? rest).map fun (cs, rest) => (String.ofList cs, rest)
  | cs =>
    match cs.takeWhile isBare with
    | [] => none
    | bare => some (String.ofList bare, cs.dropWhile isBare)

def depthLimit : Nat := 80

/-- A key with dots between its parts, and blanks around them. There are `parts`
of them at most. -/
def key? : Nat → List Char → Option (List String × List Char)
  | 0, _ => none
  | parts + 1, cs => do
    let (part, rest) ← part? (skip cs)
    match skip rest with
    | '.' :: rest => do
      let (more, rest) ← key? parts rest
      some (part :: more, rest)
    | rest => some ([part], rest)

end HttpLifecycle.Document.Toml
