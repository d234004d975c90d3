import A64.Encoding.Field
import A64.Encoding.Form

/-! Operations on one vector, and reductions of a vector to a scalar. -/

namespace A64.Encoding

inductive LaneRule where
  | integer
  | bytes
  | float
  deriving DecidableEq, Repr

/-- An operation on one vector: how it is called, for which bit 29, opcode and size fields, how its
lanes are cut, and whether it compares with zero. -/
structure VectorUnary where
  mnemonic : String
  u : Bool
  opcode : Nat
  sizes : List Nat
  lanes : LaneRule
  compareZero : Bool := false
  deriving DecidableEq, Repr

namespace VectorUnary

def anySize : List Nat := [0, 1, 2, 3]

def table : List VectorUnary :=
  [⟨"rev64", false, 0, [0, 1, 2], .integer, false⟩,
   ⟨"rev16", false, 1, [0], .integer, false⟩,
   ⟨"rev32", true, 0, [0, 1], .integer, false⟩,
   ⟨"cls", false, 4, [0, 1, 2], .integer, false⟩,
   ⟨"clz", true, 4, [0, 1, 2], .integer, false⟩,
   ⟨"cnt", false, 5, [0], .bytes, false⟩,
   ⟨"mvn", true, 5, [0], .bytes, false⟩,
   ⟨"rbit", true, 5, [1], .bytes, false⟩,
   ⟨"cmgt", false, 8, anySize, .integer, true⟩,
   ⟨"cmge", true, 8, anySize, .integer, true⟩,
   ⟨"cmeq", false, 9, anySize, .integer, true⟩,
   ⟨"cmle", true, 9, anySize, .integer, true⟩,
   ⟨"cmlt", false, 10, anySize, .integer, true⟩,
   ⟨"abs", false, 11, anySize, .integer, false⟩,
   ⟨"neg", true, 11, anySize, .integer, false⟩,
   ⟨"fabs", false, 15, [2, 3], .float, false⟩,
   ⟨"fneg", true, 15, [2, 3], .float, false⟩,
   ⟨"fsqrt", true, 31, [2, 3], .float, false⟩,
   ⟨"scvtf", false, 29, [0, 1], .float, false⟩,
   ⟨"ucvtf", true, 29, [0, 1], .float, false⟩,
   ⟨"fcvtzs", false, 27, [2, 3], .float, false⟩,
   ⟨"fcvtzu", true, 27, [2, 3], .float, false⟩]

def find? (u : Bool) (opcode : BitVec 5) (size : BitVec 2) : Option VectorUnary :=
  table.find? fun e => e.u == u && e.opcode == opcode.toNat && e.sizes.contains size.toNat

def arrangement? (e : VectorUnary) (size : BitVec 2) (full : Bool) : Option Arrangement :=
  match e.lanes with
  | .integer => if size = 3 ∧ full = false then none else some (.ofSize size full)
  | .bytes => some (.ofSize 0 full)
  | .float => Arrangement.ofFloat? (size.getLsbD 0) full

def operation (e : VectorUnary) : Operation := if e.mnemonic = "mvn" then .not else .vector

end VectorUnary

def twoRegisterForm (w : Word) : Except Refusal Form :=
  let size := w.field 22 2
  match VectorUnary.find? (w.bit 29) (w.field 12 5) size with
  | none => .ok (.unnamed .vector)
  | some e =>
    match e.arrangement? size (w.bit 30) with
    | none => malformed "reserved vector arrangement"
    | some arrangement =>
      .ok (.plain (spelled e.mnemonic e.operation
        ([w.rd.lanes arrangement, w.rn.lanes arrangement] ++
          if e.compareZero then [.count 0] else [])))

def floatReductionName? (u minimum : Bool) (opcode : BitVec 5) : Option String :=
  match u, minimum, opcode.toNat with
  | true, false, 12 => some "fmaxnmv"
  | true, true, 12 => some "fminnmv"
  | true, false, 15 => some "fmaxv"
  | true, true, 15 => some "fminv"
  | _, _, _ => none

/-- The reductions of integer lanes, and whether the result is twice as wide as a lane. -/
def integerReduction? (u : Bool) (opcode : BitVec 5) : Option (String × Bool) :=
  match u, opcode.toNat with
  | false, 3 => some ("saddlv", true)
  | true, 3 => some ("uaddlv", true)
  | false, 10 => some ("smaxv", false)
  | true, 10 => some ("umaxv", false)
  | false, 26 => some ("sminv", false)
  | true, 26 => some ("uminv", false)
  | false, 27 => some ("addv", false)
  | _, _ => none

def acrossLanesForm (w : Word) : Except Refusal Form :=
  let size := w.field 22 2
  match floatReductionName? (w.bit 29) (w.bit 23) (w.field 12 5),
      integerReduction? (w.bit 29) (w.field 12 5) with
  | some mnemonic, _ =>
    if w.bit 30 && !w.bit 22 then
      .ok (.plain (spelled mnemonic .floatArith [w.rd.scalar 32, w.rn.lanes .s4]))
    else malformed "reserved across-lanes arrangement"
  | none, some (mnemonic, widening) =>
    if size == 3 || (size == 2 && !w.bit 30) then malformed "reserved across-lanes arrangement"
    else
      let width := (if widening then 16 else 8) <<< size.toNat
      .ok (.plain (spelled mnemonic .vector
        [w.rd.scalar width, w.rn.lanes (.ofSize size (w.bit 30))]))
  | none, none => .ok (.unnamed .vector)

end A64.Encoding
