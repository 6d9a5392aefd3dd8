import HttpLifecycle.Filter.Pattern

namespace HttpLifecycle.Filter

/-- A field that a span must have, and what its value must be, if that matters: a
number, or any text that a pattern matches. -/
structure Field where
  name : String
  value : Option String := none
  deriving DecidableEq, Repr

namespace Field

/-- Digits with a point or an exponent, or a name of what is no finite number,
perhaps after a sign. At least one digit is next to the point. -/
def isNumber (cs : List Char) : Bool :=
  let sign : List Char → List Char
    | '+' :: rest => rest
    | '-' :: rest => rest
    | rest => rest
  let magnitude := sign cs
  let afterWhole := magnitude.dropWhile Char.isDigit
  let afterPoint :=
    match afterWhole with
    | '.' :: rest => rest.dropWhile Char.isDigit
    | rest => rest
  let digits := (magnitude.take (magnitude.length - afterPoint.length)).filter Char.isDigit
  let isExponent : List Char → Bool
    | [] => true
    | e :: rest => (e == 'e' || e == 'E') && !(sign rest).isEmpty && (sign rest).all Char.isDigit
  (String.ofList magnitude).toLower ∈ ["inf", "infinity", "nan"] ||
    !digits.isEmpty && isExponent afterPoint

def parse (cs : List Char) : Except Pattern.Fault Field :=
  let name := String.ofList (cs.takeWhile (· != '='))
  match cs.dropWhile (· != '=') with
  | [] => .ok { name := name }
  | _ :: rest =>
    let value := rest.takeWhile (· != '=')
    match if isNumber value then none else Pattern.fault? value with
    | some fault => .error fault
    | none => .ok { name := name, value := some (String.ofList value) }

end Field

end HttpLifecycle.Filter
