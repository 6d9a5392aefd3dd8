namespace HttpLifecycle.Decimal

/-- The real number `mantissa * 2 ^ exponent`. -/
structure Binary where
  mantissa : Nat
  exponent : Int
  deriving DecidableEq, Repr

def Binary.hidden : Nat := 0x10000000000000

def Binary.ofBits (bits : UInt64) : Binary :=
  let fraction : Nat := bits.toNat % hidden
  let biased : Nat := bits.toNat / hidden % 0x800
  if biased = 0 then ⟨fraction, -1074⟩ else ⟨hidden + fraction, (biased : Int) - 1075⟩

/-- Numbers that round to a given double, as numerators over one denominator. -/
structure Interval where
  low : Nat
  value : Nat
  high : Nat
  denominator : Nat
  closed : Bool
  deriving DecidableEq, Repr

/-- Half a step to either side, but only a quarter of one below a power of two,
where the steps get smaller. The ends round to the even mantissa. -/
def Binary.interval (b : Binary) : Interval :=
  let below := if b.mantissa = hidden ∧ b.exponent ≠ -1074 then 1 else 2
  let up := Nat.pow 2 (b.exponent - 2).toNat
  let down := Nat.pow 2 (2 - b.exponent).toNat
  { low := (4 * b.mantissa - below) * up
    value := 4 * b.mantissa * up
    high := (4 * b.mantissa + 2) * up
    denominator := down
    closed := b.mantissa % 2 = 0 }

namespace Interval

def contains (i : Interval) (n places : Nat) : Bool :=
  let x := n * i.denominator
  let low := i.low * Nat.pow 10 places
  let high := i.high * Nat.pow 10 places
  if i.closed then low ≤ x && x ≤ high else low < x && x < high

def nearest? (i : Interval) (zeros places : Nat) : Option Nat :=
  let unit := Nat.pow 10 zeros
  let scaled := i.value * Nat.pow 10 places
  let below := scaled / (i.denominator * unit) * unit
  let above := below + unit
  let nearer :=
    if scaled - below * i.denominator < above * i.denominator - scaled then [below, above]
    else [above, below]
  nearer.find? fun n => i.contains n places

end Interval

/-- The first grid with a point inside, from coarse to fine: first multiples of
powers of ten, then more and more places. -/
def coarsest (i : Interval) : List (Nat × Nat) → Nat × Nat
  | [] => (i.value, 0)
  | (zeros, places) :: rest =>
    match i.nearest? zeros places with
    | some n => if n = 0 then coarsest i rest else (n, places)
    | none => coarsest i rest

def grids : List (Nat × Nat) :=
  ((List.range 41).reverse.map fun zeros => (zeros, 0)) ++
    (List.range 60).map fun places => (0, places + 1)

def positional (n places : Nat) : String :=
  let digits := Nat.toDigits 10 n
  let digits := List.replicate (places + 1 - digits.length) '0' ++ digits
  let whole := digits.take (digits.length - places)
  let fraction := digits.drop (digits.length - places)
  if fraction.isEmpty then String.ofList whole
  else String.ofList whole ++ "." ++ String.ofList fraction

/-- The shortest decimal that reads back as `x`, the nearest of those. -/
def shortest (x : Float) : String :=
  let b := Binary.ofBits x.toBits
  if b.mantissa = 0 then "0"
  else
    let (n, places) := coarsest b.interval grids
    positional n places

end HttpLifecycle.Decimal
