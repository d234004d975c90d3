import A64.Binary64.Shortest

/-! How a number is laid out as text: positional from one ten-thousandth up to sixteen digits before
the point, with an exponent beyond. -/

namespace A64

namespace Decimal

def digits (d : Decimal) : List Char :=
  ((Nat.toDigits 10 d.coefficient).reverse.dropWhile (· == '0')).reverse

def point (d : Decimal) : Int := (Nat.toDigits 10 d.coefficient).length + d.exponent

/-- Digits around a decimal point; a whole number keeps one zero behind it. -/
def positional (d : Decimal) : List Char :=
  let ds := d.digits
  if d.point ≤ 0 then '0' :: '.' :: (List.replicate (-d.point).toNat '0' ++ ds)
  else
    let k := d.point.toNat
    ds.take k ++ List.replicate (k - ds.length) '0' ++ '.' ::
      (if ds.length ≤ k then ['0'] else ds.drop k)

def exponentText (e : Int) : List Char :=
  (if e < 0 then ['-'] else []) ++ Nat.toDigits 10 e.natAbs

def scientific (d : Decimal) : List Char :=
  let rest := d.digits.drop 1
  d.digits.take 1 ++ (if rest.isEmpty then [] else '.' :: rest) ++ 'e' :: exponentText (d.point - 1)

end Decimal

namespace Binary64

def sizeText (x : Binary64) : List Char :=
  if x.isZero then ['0', '.', '0']
  else
    let r := x.rounding
    if -4 < r.point ∧ r.point ≤ 16 then r.shortest.positional else r.shortest.scientific

def text (x : Binary64) : String :=
  String.ofList ((if x.negative then ['-'] else []) ++ x.sizeText)

end Binary64

end A64
