import HttpLifecycle.Time

namespace HttpLifecycle.Text

def record (name : String) (fields : List (String × String)) : String :=
  name ++ " \x7b " ++ ", ".intercalate (fields.map fun f => f.1 ++ ": " ++ f.2) ++ " \x7d"

def optional : Option String → String
  | none => "None"
  | some s => "Some(" ++ s ++ ")"

def bool (b : Bool) : String := if b then "true" else "false"

def hex (n : Nat) : String := "0x" ++ String.ofList (Nat.toDigits 16 n)

def padded (width n : Nat) : String :=
  let digits := Nat.toDigits 10 n
  String.ofList (List.replicate (width - digits.length) '0' ++ digits)

def decimal (whole frac width : Nat) : String :=
  let digits := ((padded width frac).toList.reverse.dropWhile (· == '0')).reverse
  if digits.isEmpty then toString whole
  else toString whole ++ "." ++ String.ofList digits

/-- A duration in the largest unit that leaves a whole part: `2s`, `1.5ms`,
`999µs`, `0ns`. -/
def duration (d : Duration) : String :=
  if 1000000000 ≤ d then decimal (d / 1000000000) (d % 1000000000) 9 ++ "s"
  else if 1000000 ≤ d then decimal (d / 1000000) (d % 1000000) 6 ++ "ms"
  else if 1000 ≤ d then decimal (d / 1000) (d % 1000) 3 ++ "µs"
  else toString d ++ "ns"

end HttpLifecycle.Text
