/-! Double-precision numbers as bit patterns. -/

namespace A64

structure Binary64 where
  bits : BitVec 64
  deriving DecidableEq, Repr

namespace Binary64

def negative (x : Binary64) : Bool := x.bits.getLsbD 63

def exponent (x : Binary64) : Nat := (x.bits.extractLsb' 52 11).toNat

def fraction (x : Binary64) : Nat := (x.bits.extractLsb' 0 52).toNat

def isFinite (x : Binary64) : Bool := x.exponent != 2047

def isZero (x : Binary64) : Bool := x.exponent == 0 && x.fraction == 0

def zero : Binary64 := ⟨0⟩

/-- The number of an 8-bit floating-point immediate `abcdefgh`: its sign is `a`, its exponent
`NOT(b) bbbbbbbb cd` and its fraction `efgh` followed by zeros. -/
def ofImmediate (imm : BitVec 8) : Binary64 :=
  let b := imm.extractLsb' 6 1
  ⟨imm.extractLsb' 7 1 ++ ~~~b ++ b.replicate 8 ++ imm.extractLsb' 4 2 ++ imm.extractLsb' 0 4 ++ 0#48⟩

/-- The size of a finite number is `significand * 2 ^ scale`. -/
def significand (x : Binary64) : Nat := if x.exponent = 0 then x.fraction else (1 <<< 52) + x.fraction

def scale (x : Binary64) : Int := if x.exponent = 0 then -1074 else (x.exponent : Int) - 1075

/-- Whether the next smaller number is only half as far away as the next greater one. -/
def isBoundary (x : Binary64) : Bool := x.fraction == 0 && x.exponent > 1

end Binary64

end A64
