/-! Decimal text of whole numbers. -/

namespace A64.Numeral

def text : Int → String
  | .ofNat n => n.repr
  | .negSucc n => "-" ++ (n + 1).repr

def accumulate? (n : Nat) : List Char → Option Nat
  | [] => some n
  | c :: cs => if c.isDigit then accumulate? (10 * n + (c.toNat - '0'.toNat)) cs else none

def dropPlus : List Char → List Char
  | '+' :: cs => cs
  | cs => cs

/-- A number below `bound`: a plus sign may stand in front of at least one digit. -/
def readBelow? (bound : Nat) (s : String) : Option Nat :=
  match dropPlus s.toList with
  | [] => none
  | cs => (accumulate? 0 cs).filter (· < bound)

end A64.Numeral
