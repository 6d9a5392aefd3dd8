import HttpLifecycle.Error
import HttpLifecycle.Config
import HttpLifecycle.Filter.Field
import HttpLifecycle.Text.Alphanumeric
import HttpLifecycle.Text.Blank
import HttpLifecycle.Text.Offset

namespace HttpLifecycle

namespace Filter

inductive Failure where
  | directive
  | level
  | field (fault : Pattern.Fault)
  deriving DecidableEq, Repr

def Failure.text : Failure → String
  | directive => "invalid filter directive"
  | level =>
    "error parsing level filter: expected one of \"off\", \"error\", \"warn\", \"info\", " ++
      "\"debug\", \"trace\", or a number 0-5"
  | field fault => "invalid field filter: " ++ fault.text

inductive Level where
  | off
  | error
  | warn
  | info
  | debug
  | trace
  deriving DecidableEq, Repr

namespace Level

def ofNumber? : Nat → Option Level
  | 0 => some off
  | 1 => some error
  | 2 => some warn
  | 3 => some info
  | 4 => some debug
  | 5 => some trace
  | _ => none

def ofName? (s : String) : Option Level :=
  match s.toLower with
  | "off" => some off
  | "error" => some error
  | "warn" => some warn
  | "info" => some info
  | "debug" => some debug
  | "trace" => some trace
  | _ => none

def number? (s : List Char) : Option Nat :=
  let ds :=
    match s with
    | '+' :: rest => rest
    | cs => cs
  if ds.isEmpty || !ds.all Char.isDigit then none
  else some (ds.foldl (fun n c => 10 * n + (c.toNat - '0'.toNat)) 0)

def ofChars? (s : List Char) : Option Level :=
  ((number? s).bind ofNumber?).or (ofName? (String.ofList s))

end Level

/-- Which events are let through: those of a target, inside a span with all of
some fields, up to a level. -/
structure Directive where
  target : Option String := none
  span : Option String := none
  fields : List Field := []
  level : Level := .trace
  deriving DecidableEq, Repr

inductive Place where
  | start
  | head
  | span
  | field
  | afterFields
  | afterSpan
  | level
  deriving DecidableEq, Repr

/-- A directive read in part. Places in its text are counted in bytes. -/
structure Reader where
  place : Place := .start
  start : Nat := 0
  offset : Nat := 0
  directive : Directive := {}

namespace Reader

/-- The word under way. It is cut from `shown`, which need not be the text that
is read. -/
def word (r : Reader) (shown : List Char) : List Char := Text.slice shown r.start r.offset

def text (r : Reader) (shown : List Char) : String := String.ofList (r.word shown)

def enter (r : Reader) (p : Place) (d : Directive) : Reader := ⟨p, r.offset + 1, r.offset + 1, d⟩

def stay (r : Reader) (p : Place) (c : Char) : Reader :=
  { r with place := p, offset := r.offset + c.utf8Size }

def next (r : Reader) (shown : List Char) (c : Char) : Except Failure Reader :=
  let d := r.directive
  match r.place with
  | .start =>
    if c = '[' then .ok (r.enter .span d)
    else if c ∈ ['-', ':', '_'] ∨ Text.isAlphanumeric c then .ok (r.stay .head c)
    else .error .directive
  | .head =>
    if c = '=' then .ok (r.enter .level { d with target := some (r.text shown) })
    else if c = '[' then .ok (r.enter .span { d with target := some (r.text shown) })
    else .ok (r.stay .head c)
  | .span =>
    if c = ']' then .ok (r.enter .afterSpan { d with span := some (r.text shown) })
    else if c = '\x7b' then
      .ok (r.enter .field
        { d with span := if r.start = r.offset then none else some (r.text shown) })
    else .ok (r.stay .span c)
  | .field =>
    if c ≠ '\x7d' then .ok (r.stay .field c)
    else if r.start = r.offset then .error .directive
    else
      match Field.parse (r.word shown) with
      | .ok field => .ok (r.enter .afterFields { d with fields := d.fields ++ [field] })
      | .error fault => .error (.field fault)
  | .afterFields => if c = ']' then .ok (r.enter .afterSpan d) else .error .directive
  | .afterSpan => if c = '=' then .ok (r.enter .level d) else .error .directive
  | .level => .ok (r.stay .level c)

/-- Ends the text. The last word goes on to the end of `shown`. A head alone is a
level if it names one, and else a target; a level that is left out lets everything
through. -/
def finish (r : Reader) (shown : List Char) : Except Failure Directive :=
  let d := r.directive
  let word := Text.dropBytes r.start shown
  match r.place with
  | .head =>
    match Level.ofChars? word with
    | some l => .ok { d with level := l }
    | none => .ok { d with target := some (String.ofList word) }
  | .level =>
    if word.isEmpty then .ok d
    else
      match Level.ofChars? word with
      | some l => .ok { d with level := l }
      | none => .error .level
  | .afterSpan => .ok d
  | _ => .error .directive

end Reader

/-- The blanks around a directive are passed over, but its words are cut from the
text that has them: leading blanks shift every word by as many bytes, and trailing
blanks belong to the last word. A level thus admits no blanks. -/
def Directive.parse (shown : List Char) : Except Failure Directive := do
  let r ← (Text.trim shown).foldlM (fun (r : Reader) c => r.next shown c) {}
  r.finish shown

end Filter

structure Filter where
  directives : List Filter.Directive
  deriving DecidableEq, Repr

namespace Filter

def parse (s : String) : Except Error Filter :=
  match ((s.splitOn ",").filter (· ≠ "")).mapM (fun d => Directive.parse d.toList) with
  | .ok ds => .ok ⟨ds⟩
  | .error f => .error (.logging f.text)

/-- The directives of the environment, unless there are none, win over those of
the settings. -/
def choose (environment : Option String) (settings : LogSettings) : Except Error Filter :=
  match environment with
  | none => parse settings.filter
  | some s => if s.isEmpty then parse settings.filter else parse s

end Filter

end HttpLifecycle
