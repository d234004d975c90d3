import A64.Text.CharClass

/-! Classes as sorted ranges of codes, and the shapes of the UTF-8 byte sequences for the codes of a range. -/

namespace A64.Text

namespace CodeRange

/-- Inserts a range into sorted ones that lie apart, and joins those that it touches. -/
def insert (first last : Nat) : List (Nat × Nat) → List (Nat × Nat)
  | [] => [(first, last)]
  | (a, z) :: rs =>
    if last + 1 < a then (first, last) :: (a, z) :: rs
    else if z + 1 < first then (a, z) :: insert first last rs
    else insert (min first a) (max last z) rs

def union (rs qs : List (Nat × Nat)) : List (Nat × Nat) := rs.foldr (fun r => insert r.1 r.2) qs

def lastCode : Nat := 0x10ffff

def gaps (start : Nat) : List (Nat × Nat) → List (Nat × Nat)
  | [] => if start ≤ lastCode then [(start, lastCode)] else []
  | (a, z) :: rs => if start < a then (start, a - 1) :: gaps (z + 1) rs else gaps (z + 1) rs

def other (rs : List (Nat × Nat)) : List (Nat × Nat) := gaps 0 rs

def inter (rs qs : List (Nat × Nat)) : List (Nat × Nat) := other (union (other rs) (other qs))

def without (rs qs : List (Nat × Nat)) : List (Nat × Nat) := inter rs (other qs)

/-- The parts into which a range falls when its codes are written with `k` digits of six bits behind a
leading one, each part as a range of digits for every place. -/
def digitShapes : Nat → Nat → Nat → List (List (Nat × Nat))
  | 0, first, last => [[(first, last)]]
  | k + 1, first, last =>
    let unit := 1 <<< (6 * (k + 1))
    let a := first / unit
    let z := last / unit
    if a = z then (digitShapes k (first % unit) (last % unit)).map ((a, a) :: ·)
    else
      let cutsHead := first % unit ≠ 0
      let cutsTail := last % unit ≠ unit - 1
      let low := if cutsHead then a + 1 else a
      let high := if cutsTail then z - 1 else z
      (if cutsHead then (digitShapes k (first % unit) (unit - 1)).map ((a, a) :: ·) else []) ++
        (if low ≤ high then [(low, high) :: List.replicate (k + 1) (0, 63)] else []) ++
        if cutsTail then (digitShapes k 0 (last % unit)).map ((z, z) :: ·) else []

/-- The codes that take the same number of bytes: first and last code, digits behind the leading byte, and
what the leading byte adds to its digit. -/
def lengths : List (Nat × Nat × Nat × Nat) :=
  [(0, 0x7f, 0, 0), (0x80, 0x7ff, 1, 0xc0), (0x800, 0xd7ff, 2, 0xe0), (0xe000, 0xffff, 2, 0xe0),
   (0x10000, lastCode, 3, 0xf0)]

def shift (mark : Nat) : List (Nat × Nat) → List (Nat × Nat)
  | [] => []
  | (a, z) :: rs => (a + mark, z + mark) :: rs

def shapes (r : Nat × Nat) : List (List (Nat × Nat)) :=
  lengths.flatMap fun (low, high, k, mark) =>
    if r.1 ≤ high ∧ low ≤ r.2 then (digitShapes k (max r.1 low) (min r.2 high)).map (shift mark) else []

end CodeRange

def casedLetters : List Char :=
  ((List.range 26).flatMap fun i => [Char.ofNat (65 + i), Char.ofNat (97 + i)]) ++ foldingLetters

def CharClass.ranges : CharClass → List (Nat × Nat)
  | nothing => []
  | range first last => if first ≤ last then [(first.toNat, last.toNat)] else []
  | beyond a _ => a.ranges
  | either a b => CodeRange.union a.ranges b.ranges
  | both a b => CodeRange.inter a.ranges b.ranges
  | without a b => CodeRange.without a.ranges b.ranges
  | oneOf a b =>
    CodeRange.union (CodeRange.without a.ranges b.ranges) (CodeRange.without b.ranges a.ranges)
  | other a => CodeRange.other a.ranges
  | anyCase unicode a =>
    (casedLetters.filter fun c => (caseVariants unicode c).any a.contains).foldr
      (fun c rs => CodeRange.insert c.toNat c.toNat rs) a.ranges

def CharClass.bytesBeyond : CharClass → Nat
  | nothing | range _ _ => 0
  | beyond a bytes => a.bytesBeyond + bytes
  | either a b | both a b | without a b | oneOf a b => a.bytesBeyond + b.bytesBeyond
  | other a | anyCase _ a => a.bytesBeyond

end A64.Text
