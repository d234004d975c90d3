import A64.Register

/-! Bitmask immediates: a run of ones in an element of two to sixty-four bits, rotated and repeated
over the register. -/

namespace A64

structure Bitmask where
  n : BitVec 1
  imms : BitVec 6
  immr : BitVec 6
  deriving DecidableEq, Repr

namespace Bitmask

/-- The power of two that is the element's size: the highest set bit of `n` before the complement of
`imms`. An element has at least two bits and fits the register. -/
def sizeLog? (wide : Bool) (m : Bitmask) : Option Nat :=
  let c := (m.n ++ ~~~m.imms).toNat
  if c < 2 ∨ (¬wide ∧ 5 < c.log2) then none else some c.log2

def element (size ones r : Nat) : BitVec size := (BitVec.ofNat size ((1 <<< ones) - 1)).rotateRight r

/-- The value, unless the fields are reserved: the element must not be all ones. -/
def value? (wide : Bool) (m : Bitmask) : Option (BitVec 64) :=
  (m.sizeLog? wide).bind fun k =>
    let size := 1 <<< k
    let ones := m.imms.toNat % size + 1
    if ones = size then none
    else some
      (((element size ones (m.immr.toNat % size)).replicate (Register.width wide / size)).setWidth 64)

end Bitmask

end A64
