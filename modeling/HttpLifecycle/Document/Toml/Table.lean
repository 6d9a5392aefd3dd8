import HttpLifecycle.Document.Basic

namespace HttpLifecycle.Document.Toml

/-- How a table came to be, which decides what may still be added to it. -/
inductive Origin where
  | stated
  | implied
  | dotted
  deriving DecidableEq, Repr

inductive Node where
  | value (d : Document)
  | table (origin : Origin) (entries : List (String × Node))
  | tables (items : List (List (String × Node)))

abbrev Entries := List (String × Node)

mutual

def Node.document : Node → Document
  | .value d => d
  | .table _ entries => .table (entriesDocument entries)
  | .tables items => .list (itemsDocument items)

def entriesDocument : List (String × Node) → List (Option String × Document)
  | [] => []
  | (key, node) :: rest => (some key, node.document) :: entriesDocument rest

def itemsDocument : List (List (String × Node)) → List Document
  | [] => []
  | entries :: rest => .table (entriesDocument entries) :: itemsDocument rest

end

namespace Entries

def replace (es : Entries) (key : String) (n : Node) : Entries :=
  es.map fun e => if e.1 = key then (key, n) else e

def erase (es : Entries) (key : String) : Entries := es.filter fun e => e.1 != key

def changeLast (items : List Entries) (f : Entries → Option Entries) : Option (List Entries) := do
  let last ← items.getLast?
  let changed ← f last
  some (items.dropLast ++ [changed])

/-- Adds a value under a key with dots. The tables on the way are made by it or
by another such key; one with a header of its own is closed to it. -/
def put : List String → String → Node → Entries → Option Entries
  | [], key, node, es => if (es.lookup key).isSome then none else some (es ++ [(key, node)])
  | step :: path, key, node, es =>
    match es.lookup step with
    | none => do
      let inner ← put path key node []
      some (es ++ [(step, .table .dotted inner)])
    | some (.table origin inner) => do
      if origin = .stated then none
      if path.isEmpty ∧ origin ≠ .dotted then none
      let inner ← put path key node inner
      some (es.replace step (.table origin inner))
    | some (.tables items) => do
      if path.isEmpty then none
      let items ← changeLast items (put path key node)
      some (es.replace step (.tables items))
    | some (.value _) => none

/-- Changes the table at the end of a header's path. Tables that are missing on
the way are implied, and of an array the last table is meant. -/
def within : List String → (Entries → Option Entries) → Entries → Option Entries
  | [], f, es => f es
  | step :: path, f, es =>
    match es.lookup step with
    | none => do
      let inner ← within path f []
      some (es ++ [(step, .table .implied inner)])
    | some (.table origin inner) => do
      let inner ← within path f inner
      some (es.replace step (.table origin inner))
    | some (.tables items) => do
      let items ← changeLast items (within path f)
      some (es.replace step (.tables items))
    | some (.value _) => none

def at? : List String → String → Entries → Option Node
  | [], key, es => es.lookup key
  | step :: path, key, es =>
    match es.lookup step with
    | some (.table _ inner) => at? path key inner
    | some (.tables items) => items.getLast?.bind (at? path key)
    | _ => none

end Entries

structure Header where
  path : List String
  key : String
  appends : Bool
  deriving DecidableEq, Repr

/-- What was read so far: tables that are complete, and the one that lines are
added to. Before the first header that is the root itself. -/
structure Draft where
  root : Entries := []
  header : Option Header := none
  current : Entries := []

namespace Draft

def close? (d : Draft) : Option Entries :=
  match d.header with
  | none => some d.current
  | some h =>
    Entries.within h.path (fun es =>
      match h.appends, es.lookup h.key with
      | true, none => some (es ++ [(h.key, .tables [d.current])])
      | true, some (.tables items) =>
        some (Entries.replace es h.key (.tables (items ++ [d.current])))
      | true, some _ => none
      | false, none => some (es ++ [(h.key, .table .stated d.current)])
      | false, some _ => none) d.root

def openTable? (d : Draft) (path : List String) (key : String) : Option Draft := do
  let root ← d.close?
  let header : Header := ⟨path, key, false⟩
  match Entries.at? path key root with
  | none => do
    let root ← Entries.within path some root
    some ⟨root, some header, []⟩
  | some (.table .implied inner) => do
    let root ← Entries.within path (fun es => some (Entries.erase es key)) root
    some ⟨root, some header, inner⟩
  | some _ => none

def openItem? (d : Draft) (path : List String) (key : String) : Option Draft := do
  let root ← d.close?
  let root ← Entries.within path (fun es =>
    match es.lookup key with
    | none => some (es ++ [(key, .tables [])])
    | some (.tables _) => some es
    | some _ => none) root
  some ⟨root, some ⟨path, key, true⟩, []⟩

def put? (d : Draft) (path : List String) (key : String) (value : Document) : Option Draft := do
  let current ← Entries.put path key (.value value) d.current
  some { d with current := current }

end Draft

end HttpLifecycle.Document.Toml
