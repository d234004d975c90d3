import A64.Binary64

/-! The shortest decimal that reads back as a given number: the fewest digits among the decimals
inside the interval of reals that round to the number, and of those the nearest to it. -/

namespace A64

/-- A fraction with the reals that round to it, all over the denominator `den`. The ends `low` and
`high` belong to them if `closed` says so. -/
structure Rounding where
  value : Nat
  low : Nat
  high : Nat
  den : Nat
  closed : Bool
  deriving Repr

structure Decimal where
  coefficient : Nat
  exponent : Int
  deriving DecidableEq, Repr

def Binary64.rounding (x : Binary64) : Rounding :=
  let quarters := x.scale - 2
  let num := 1 <<< quarters.toNat
  { value := 4 * x.significand * num
    low := (4 * x.significand - if x.isBoundary then 1 else 2) * num
    high := (4 * x.significand + 2) * num
    den := 1 <<< (-quarters).toNat
    closed := x.significand % 2 == 0 }

namespace Rounding

/-- How many digits the value has before its decimal point; not above zero if it is less than one. -/
def point (r : Rounding) : Int :=
  if r.den ≤ r.value then ((Nat.toDigits 10 (r.value / r.den)).length : Int)
  else 1 - ((List.range 400).find? fun j => r.den ≤ r.value * Nat.pow 10 j).getD 0

def above (r : Rounding) (n : Nat) : Bool := if r.closed then r.low ≤ n else r.low < n

def below (r : Rounding) (n : Nat) : Bool := if r.closed then n ≤ r.high else n < r.high

def inUnits (r : Rounding) (e : Int) : Rounding :=
  let k := Nat.pow 10 (-e).toNat
  { r with value := r.value * k, low := r.low * k, high := r.high * k, den := r.den * Nat.pow 10 e.toNat }

/-- The whole number of units nearest to the value among its two neighbours that lie inside; of two
equally near ones the greater. -/
def whole? (r : Rounding) : Option Nat :=
  let down := r.value / r.den
  let rest := r.value % r.den
  match r.above (down * r.den), r.below ((down + 1) * r.den) with
  | true, true => some (if 2 * rest < r.den then down else down + 1)
  | true, false => some down
  | false, true => some (down + 1)
  | false, false => none

/-- The shortest decimal inside. Seventeen digits always suffice. -/
def shortest (r : Rounding) : Decimal :=
  ((List.range 17).findSome? fun (n : Nat) =>
    let e := r.point - (n + 1)
    (r.inUnits e).whole?.map fun c => ⟨c, e⟩).getD ⟨0, 0⟩

end Rounding

end A64
