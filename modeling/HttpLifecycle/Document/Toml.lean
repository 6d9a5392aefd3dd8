import HttpLifecycle.Document.Toml.Number
import HttpLifecycle.Document.Toml.Table

namespace HttpLifecycle.Document.Toml

def splitKey? (parts : List String) : Option (List String × String) := do
  let key ← parts.getLast?
  some (parts.dropLast, key)

mutual

/-- One value. `fuel` bounds the work that is left and `depth` the nesting. -/
def value? : Nat → Nat → List Char → Option (Document × List Char)
  | 0, _, _ => none
  | fuel + 1, depth, cs =>
    match cs with
    | 't' :: 'r' :: 'u' :: 'e' :: rest => some (.bool true, rest)
    | 'f' :: 'a' :: 'l' :: 's' :: 'e' :: rest => some (.bool false, rest)
    | '[' :: rest => do
      if depth ≤ 1 then none
      let (items, rest) ← items? fuel (depth - 1) rest
      some (.list items, rest)
    | '\x7b' :: rest => do
      if depth ≤ 1 then none
      match skip rest with
      | '\x7d' :: rest => some (.table [], rest)
      | rest => do
        let (entries, rest) ← entries? fuel (depth - 1) [] rest
        some (.table (entriesDocument entries), rest)
    | _ =>
      match string? cs, moment? cs with
      | some (s, rest), _ => some (.text (String.ofList s), rest)
      | none, some rest => some (.moment, rest)
      | none, none => number? cs

def items? : Nat → Nat → List Char → Option (List Document × List Char)
  | 0, _, _ => none
  | fuel + 1, depth, cs =>
    match gap false cs with
    | ']' :: rest => some ([], rest)
    | rest => do
      let (item, rest) ← value? fuel depth rest
      match gap false rest with
      | ',' :: rest => do
        let (items, rest) ← items? fuel depth rest
        some (item :: items, rest)
      | ']' :: rest => some ([item], rest)
      | _ => none

def entries? : Nat → Nat → Entries → List Char → Option (Entries × List Char)
  | 0, _, _, _ => none
  | fuel + 1, depth, es, cs => do
    let (parts, rest) ← key? (depthLimit - 1) cs
    let (path, key) ← splitKey? parts
    match rest with
    | '=' :: rest => do
      let (value, rest) ← value? fuel depth (skip rest)
      let es ← Entries.put path key (.value value) es
      match skip rest with
      | ',' :: rest => entries? fuel depth es rest
      | '\x7d' :: rest => some (es, rest)
      | _ => none
    | _ => none

end

def line? (fuel : Nat) (d : Draft) (cs : List Char) : Option (Draft × List Char) :=
  match cs with
  | '[' :: '[' :: rest => do
    let (parts, rest) ← key? (depthLimit - 1) rest
    let (path, key) ← splitKey? parts
    match rest with
    | ']' :: ']' :: rest => do
      let d ← d.openItem? path key
      some (d, rest)
    | _ => none
  | '[' :: rest => do
    let (parts, rest) ← key? (depthLimit - 1) rest
    let (path, key) ← splitKey? parts
    match rest with
    | ']' :: rest => do
      let d ← d.openTable? path key
      some (d, rest)
    | _ => none
  | _ => do
    let (parts, rest) ← key? (depthLimit - 1) cs
    let (path, key) ← splitKey? parts
    match rest with
    | '=' :: rest => do
      let (value, rest) ← value? fuel depthLimit (skip rest)
      let d ← d.put? path key value
      some (d, rest)
    | _ => none

def lines? : Nat → Draft → List Char → Option Draft
  | 0, _, _ => none
  | fuel + 1, d, cs =>
    match skip cs with
    | [] => some d
    | '#' :: rest => do
      let rest ← ending? ('#' :: rest)
      lines? fuel d rest
    | rest =>
      match newline? rest with
      | some rest => lines? fuel d rest
      | none => do
        let (d, rest) ← line? (rest.length + 1) d rest
        let rest ← ending? rest
        lines? fuel d rest

/-- A whole text. A mark of the byte order at its start is skipped. -/
def parse? (s : String) : Option Document := do
  let cs :=
    match s.toList with
    | '\uFEFF' :: rest => rest
    | cs => cs
  let d ← lines? (cs.length + 1) {} cs
  let root ← d.close?
  some (.table (entriesDocument root))

end HttpLifecycle.Document.Toml
