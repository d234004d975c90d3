import A64.Encoding.Field
import A64.Encoding.Form

/-! Moves and conversions between general registers and scalars. -/

namespace A64.Encoding

def floatWidth? (b : BitVec 2) : Option Nat :=
  match b.toNat with
  | 0 => some 32
  | 1 => some 64
  | 3 => some 16
  | _ => none

def floatWidth (w : Word) : Except Refusal Nat :=
  match floatWidth? (w.field 22 2) with
  | some width => .ok width
  | none => malformed "reserved floating-point type"

structure ConversionOp where
  mnemonic : String
  toGeneral : Bool
  move : Bool := false
  deriving DecidableEq, Repr

/-- `fraction` is the number of fraction bits of a fixed-point number. -/
structure Conversion extends ConversionOp where
  wide : Bool
  width : Nat
  fraction : Option Nat
  rn : RegisterField
  rd : RegisterField
  deriving DecidableEq, Repr

namespace Conversion

def form (e : Conversion) : Form :=
  let operation : Operation := if e.move then .move else .convert
  let count := (e.fraction.map Operand.count).toList
  if e.toGeneral then
    let dst := e.rd.gp e.wide
    { toSpelling :=
        spelled e.mnemonic operation ([.register dst, e.rn.scalar e.width] ++ count)
      writes := .of [dst] }
  else
    let src := e.rn.gp e.wide
    { toSpelling :=
        spelled e.mnemonic operation ([e.rd.scalar e.width, .register src] ++ count)
      reads := .of [src] }

end Conversion

structure UpperHalfMove where
  toGeneral : Bool
  rn : RegisterField
  rd : RegisterField
  deriving DecidableEq, Repr

namespace UpperHalfMove

def ofWord? (w : Word) : Option UpperHalfMove :=
  if w.field 22 2 = 2 ∧ w.field 19 2 = 1 ∧ w.bit 31 ∧ w.field 17 2 = 3 then
    some ⟨!w.bit 16, w.rn, w.rd⟩
  else none

def form (e : UpperHalfMove) : Form :=
  if e.toGeneral then
    { toSpelling := spelled "fmov" .move [.register (e.rd.gp true), e.rn.lane .d 1]
      writes := .of [e.rd.gp true] }
  else
    { toSpelling := spelled "fmov" .move [e.rd.lane .d 1, .register (e.rn.gp true)]
      reads := .of [e.rn.gp true] }

end UpperHalfMove

/-- The conversion of a rounding mode and an opcode. A move needs registers of one width, except for
half precision. -/
def integerConversion (mode : BitVec 2) (opcode : BitVec 3) (wide : Bool) (width : Nat) :
    Except Refusal ConversionOp :=
  match mode.toNat, opcode.toNat with
  | 0, 0 => .ok ⟨"fcvtns", true, false⟩
  | 0, 1 => .ok ⟨"fcvtnu", true, false⟩
  | 1, 0 => .ok ⟨"fcvtps", true, false⟩
  | 1, 1 => .ok ⟨"fcvtpu", true, false⟩
  | 2, 0 => .ok ⟨"fcvtms", true, false⟩
  | 2, 1 => .ok ⟨"fcvtmu", true, false⟩
  | 3, 0 => .ok ⟨"fcvtzs", true, false⟩
  | 3, 1 => .ok ⟨"fcvtzu", true, false⟩
  | 0, 2 => .ok ⟨"scvtf", false, false⟩
  | 0, 3 => .ok ⟨"ucvtf", false, false⟩
  | 0, 4 => .ok ⟨"fcvtas", true, false⟩
  | 0, 5 => .ok ⟨"fcvtau", true, false⟩
  | 0, n =>
    if width ≠ 16 ∧ (width == 64) ≠ wide then malformed "fmov register sizes differ"
    else .ok ⟨"fmov", n == 6, true⟩
  | 3, 6 => if wide = false ∧ width = 64 then .ok ⟨"fjcvtzs", true, false⟩ else unsupported
  | _, _ => unsupported

def integerConversionForm (w : Word) : Except Refusal Form :=
  match UpperHalfMove.ofWord? w with
  | some e => .ok e.form
  | none =>
    (floatWidth w).bind fun width =>
      (integerConversion (w.field 19 2) (w.field 16 3) (w.bit 31) width).map fun op =>
        Conversion.form ⟨op, w.bit 31, width, none, w.rn, w.rd⟩

def fixedConversion (mode : BitVec 2) (opcode : BitVec 3) : Except Refusal ConversionOp :=
  match mode.toNat, opcode.toNat with
  | 3, 0 => .ok ⟨"fcvtzs", true, false⟩
  | 3, 1 => .ok ⟨"fcvtzu", true, false⟩
  | 0, 2 => .ok ⟨"scvtf", false, false⟩
  | 0, 3 => .ok ⟨"ucvtf", false, false⟩
  | _, _ => malformed "unallocated fixed-point conversion"

/-- Conversions of fixed-point numbers. The scale field holds 64 less the number of fraction bits. -/
def fixedConversionForm (w : Word) : Except Refusal Form :=
  let scale := (w.field 10 6).toNat
  if w.bit 29 then malformed "S bit set in fixed-point conversion"
  else if !w.bit 31 && scale < 32 then malformed "fixed-point scale exceeds register width"
  else
    (floatWidth w).bind fun width =>
      (fixedConversion (w.field 19 2) (w.field 16 3)).map fun op =>
        Conversion.form ⟨op, w.bit 31, width, some (64 - scale), w.rn, w.rd⟩

end A64.Encoding
