import A64.Encoding.Float
import A64.Proofs.Checked

/-! Scalar floating point, decoded with checked arithmetic. Main statement: every word of the group is
decoded without a fault. -/

namespace A64

open Checked

/-! The immediate. -/

namespace Binary64

def ofSingle (single : BitVec 32) : Binary64 :=
  ⟨single.extractLsb' 31 1 ++ BitVec.ofNat 11 ((single.extractLsb' 23 8).toNat + 896) ++
    single.extractLsb' 0 23 ++ 0#29⟩

/-- An 8-bit immediate, first expanded to single precision. -/
def checkedOfImmediate (imm : BitVec 8) : Checked Binary64 := do
  let imm := imm.setWidth 32
  let sign := (← shr imm 7) &&& 1
  let exponent := (← shr imm 4) &&& 7
  let fraction := imm &&& 0xF
  let high ← if exponent &&& 4 = 0 then shl (1 : BitVec 32) 30 else shl (0x1F : BitVec 32) 25
  return ofSingle ((← shl sign 31) ||| high ||| (← shl (exponent &&& 3) 23) ||| (← shl fraction 19))

theorem checkedOfImmediate_eq (imm : BitVec 8) : checkedOfImmediate imm = .ok (ofImmediate imm) := by
  apply eq_ok_of_toOption
  revert imm
  decide +kernel

end Binary64

namespace Encoding

/-! Conversions. -/

def checkedFloatWidth (w : Word) : Checked (Except Refusal Nat) := do
  match floatWidth? (← w.readField 22 2) with
  | some width => return .ok width
  | none => return malformed "reserved floating-point type"

theorem checkedFloatWidth_eq (w : Word) : checkedFloatWidth w = .ok (floatWidth w) := by
  cases hwidth : floatWidth? (w.field 22 2) <;> simp [checkedFloatWidth, floatWidth, hwidth]

def UpperHalfMove.checkedOfWord? (w : Word) : Checked (Option UpperHalfMove) := do
  if (← w.readField 22 2) = 2 ∧ (← w.readField 19 2) = 1 ∧ (← w.readBit 31) ∧ (← w.readField 17 2) = 3 then
    return some ⟨!(← w.readBit 16), ← w.readRn, ← w.readRd⟩
  else return none

theorem UpperHalfMove.checkedOfWord?_eq (w : Word) : checkedOfWord? w = .ok (ofWord? w) := by
  simp [checkedOfWord?, ofWord?]

def checkedConversion (w : Word) (read : Nat → Checked (Except Refusal ConversionOp))
    (fraction : Option Nat) : Checked (Except Refusal Form) :=
  andThen (checkedFloatWidth w) fun width =>
    formed (read width) fun op => do
      return Conversion.form ⟨op, ← w.readBit 31, width, fraction, ← w.readRn, ← w.readRd⟩

theorem checkedConversion_eq {w : Word} {read : Nat → Checked (Except Refusal ConversionOp)}
    {op : Nat → Except Refusal ConversionOp} (hread : ∀ width, read width = .ok (op width))
    (fraction : Option Nat) :
    checkedConversion w read fraction =
      .ok ((floatWidth w).bind fun width =>
        (op width).map fun op => Conversion.form ⟨op, w.bit 31, width, fraction, w.rn, w.rd⟩) := by
  apply andThen_eq (checkedFloatWidth_eq w)
  intro width _
  apply formed_eq (hread width)
  intro op _
  simp

def checkedIntegerConversionForm (w : Word) : Checked (Except Refusal Form) := do
  match ← UpperHalfMove.checkedOfWord? w with
  | some e => return .ok e.form
  | none =>
    checkedConversion w
      (fun width => do
        return integerConversion (← w.readField 19 2) (← w.readField 16 3) (← w.readBit 31) width)
      none

theorem checkedIntegerConversionForm_eq (w : Word) :
    checkedIntegerConversionForm w = .ok (integerConversionForm w) := by
  rw [checkedIntegerConversionForm, UpperHalfMove.checkedOfWord?_eq, ok_bind, integerConversionForm]
  cases UpperHalfMove.ofWord? w with
  | some e => rfl
  | none =>
    apply checkedConversion_eq
    intro width
    simp

def checkedFixedConversionForm (w : Word) : Checked (Except Refusal Form) := do
  let scale := (← w.readField 10 6).setWidth 32
  if ← w.readBit 29 then return malformed "S bit set in fixed-point conversion"
  else if !(← w.readBit 31) && scale.toNat < 32 then
    return malformed "fixed-point scale exceeds register width"
  else
    let fraction ← sub 64 scale
    checkedConversion w
      (fun _ => do return fixedConversion (← w.readField 19 2) (← w.readField 16 3))
      (some fraction.toNat)

theorem checkedFixedConversionForm_eq (w : Word) :
    checkedFixedConversionForm w = .ok (fixedConversionForm w) := by
  have hscale : ((w.field 10 6).setWidth 32).toNat = (w.field 10 6).toNat :=
    BitVec.toNat_setWidth_of_le (by decide)
  have hle : ((w.field 10 6).setWidth 32).toNat ≤ (64 : BitVec 32).toNat := by
    rw [hscale]
    exact Nat.le_of_lt (w.field 10 6).isLt
  have hfraction : ((64 : BitVec 32) - (w.field 10 6).setWidth 32).toNat = 64 - (w.field 10 6).toNat := by
    rw [BitVec.toNat_sub_of_le hle, hscale]
    rfl
  have hconversion := checkedConversion_eq (w := w)
    (fun _ => (rfl : Except.ok (fixedConversion (w.field 19 2) (w.field 16 3)) = .ok _))
    (some (64 - (w.field 10 6).toNat))
  simp only [checkedFixedConversionForm, Word.readField_eq, Word.readBit_eq, Nat.reduceLT, ok_bind,
    pure_eq_ok, sub_eq hle, hscale, hfraction, hconversion, ite_ok, fixedConversionForm]

/-! Arithmetic. -/

def checkedFloatOneSource (w : Word) (width : Nat) : Checked (Except Refusal Form) := do
  match floatUnary? (← w.readField 15 6) with
  | some (.keep mnemonic operation) =>
    return .ok (.plain (spelled mnemonic operation [(← w.readRd).scalar width, (← w.readRn).scalar width]))
  | some (.convert target) =>
    if target = width then return malformed "fcvt to the same precision"
    else
      return .ok (.plain (spelled "fcvt" .convert [(← w.readRd).scalar target, (← w.readRn).scalar width]))
  | none => return .ok (.unnamed .floatArith)

theorem checkedFloatOneSource_eq (w : Word) (width : Nat) :
    checkedFloatOneSource w width = .ok (floatOneSource w width) := by
  rw [checkedFloatOneSource, Word.readField_eq (by decide) (by decide), ok_bind, floatOneSource]
  rcases floatUnary? (w.field 15 6) with _ | _ | _ <;> simp

def checkedFloatTwoSource (w : Word) (width : Nat) : Checked (Except Refusal Form) := do
  match floatBinary? (← w.readField 12 4) with
  | some mnemonic =>
    return .ok (.plain (spelled mnemonic .floatArith
      [(← w.readRd).scalar width, (← w.readRn).scalar width, (← w.readRm).scalar width]))
  | none => return malformed "unallocated floating-point 2-source"

theorem checkedFloatTwoSource_eq (w : Word) (width : Nat) :
    checkedFloatTwoSource w width = .ok (floatTwoSource w width) := by
  cases hname : floatBinary? (w.field 12 4) <;> simp [checkedFloatTwoSource, floatTwoSource, hname]

def checkedFloatThreeSource (w : Word) : Checked (Except Refusal Form) := do
  if (← w.readBit 31) || (← w.readBit 29) then return malformed "unallocated floating-point 3-source"
  else
    formed (checkedFloatWidth w) fun width => do
      return .plain (spelled (fusedName (← w.readBit 21) (← w.readBit 15)) .floatArith
        [(← w.readRd).scalar width, (← w.readRn).scalar width, (← w.readRm).scalar width,
         (← w.readRa).scalar width])

theorem checkedFloatThreeSource_eq (w : Word) : checkedFloatThreeSource w = .ok (floatThreeSource w) := by
  simp [checkedFloatThreeSource, floatThreeSource, checkedFloatWidth_eq]

/-! Comparisons, selections and immediates. -/

def checkedFloatCompare (w : Word) (width : Nat) : Checked (Except Refusal Form) := do
  if (← w.readField 14 2) != 0 || (← w.readField 0 3) != 0 then
    return malformed "unallocated floating-point compare"
  else
    let rm ← w.readRm
    return .ok
      { toSpelling :=
          spelled (if ← w.readBit 4 then "fcmpe" else "fcmp") .floatCompare
            [(← w.readRn).scalar width, if ← w.readBit 3 then .float .zero else rm.scalar width]
        writes := .flags }

theorem checkedFloatCompare_eq (w : Word) (width : Nat) :
    checkedFloatCompare w width = .ok (floatCompare w width) := by
  simp [checkedFloatCompare, floatCompare]

def checkedFloatConditionalCompare (w : Word) (width : Nat) : Checked Form := do
  return {
      toSpelling :=
        spelled (if ← w.readBit 4 then "fccmpe" else "fccmp") .floatCompare
          [(← w.readRn).scalar width, (← w.readRm).scalar width, .count (← w.readField 0 4).toNat,
           .condition (← Condition.checkedOfCode (← w.readField 12 4))]
      reads := .flags
      writes := .flags }

theorem checkedFloatConditionalCompare_eq (w : Word) (width : Nat) :
    checkedFloatConditionalCompare w width = .ok (floatConditionalCompare w width) := by
  simp [checkedFloatConditionalCompare, floatConditionalCompare]

def checkedFloatSelect (w : Word) (width : Nat) : Checked Form := do
  return {
      toSpelling :=
        spelled "fcsel" .conditionalSelect
          [(← w.readRd).scalar width, (← w.readRn).scalar width, (← w.readRm).scalar width,
           .condition (← Condition.checkedOfCode (← w.readField 12 4))]
      reads := .flags }

theorem checkedFloatSelect_eq (w : Word) (width : Nat) :
    checkedFloatSelect w width = .ok (floatSelect w width) := by
  simp [checkedFloatSelect, floatSelect]

def checkedFloatImmediate (w : Word) (width : Nat) : Checked (Except Refusal Form) := do
  if (← w.readField 5 5) ≠ 0 then return malformed "unallocated floating-point immediate"
  else
    let number ← Binary64.checkedOfImmediate (← w.readByte 13 8)
    return .ok (.plain (spelled "fmov" .move [(← w.readRd).scalar width, .float number]))

theorem checkedFloatImmediate_eq (w : Word) (width : Nat) :
    checkedFloatImmediate w width = .ok (floatImmediate w width) := by
  simp [checkedFloatImmediate, floatImmediate, Binary64.checkedOfImmediate_eq]

/-! The group. -/

def checkedScalarForm (w : Word) (width : Nat) : Checked (Except Refusal Form) := do
  match (← w.readField 10 2).toNat with
  | 1 => return .ok (← checkedFloatConditionalCompare w width)
  | 2 => checkedFloatTwoSource w width
  | 3 => return .ok (← checkedFloatSelect w width)
  | _ =>
    if (← w.readField 10 5) = 16 then checkedFloatOneSource w width
    else if (← w.readField 10 4) = 8 then checkedFloatCompare w width
    else if (← w.readField 10 3) = 4 then checkedFloatImmediate w width
    else return malformed "unallocated scalar floating point"

theorem checkedScalarForm_eq (w : Word) (width : Nat) :
    checkedScalarForm w width = .ok (scalarForm w width) := by
  rw [checkedScalarForm, Word.readField_eq (by decide) (by decide), ok_bind, scalarForm]
  generalize (w.field 10 2).toNat = n
  rcases n with _ | _ | _ | _ | n <;>
    simp [checkedFloatConditionalCompare_eq, checkedFloatTwoSource_eq, checkedFloatSelect_eq,
      checkedFloatOneSource_eq, checkedFloatCompare_eq, checkedFloatImmediate_eq]

def checkedFloatForm (w : Word) : Checked (Except Refusal Form) := do
  if ← w.readBit 29 then return malformed "S bit set in scalar floating point"
  else if (← w.readField 10 6) = 0 then checkedIntegerConversionForm w
  else if ← w.readBit 31 then return malformed "M bit set in scalar floating point"
  else andThen (checkedFloatWidth w) (checkedScalarForm w)

theorem checkedFloatForm_eq (w : Word) : checkedFloatForm w = .ok (floatForm w) := by
  have hscalar : andThen (checkedFloatWidth w) (checkedScalarForm w) =
      .ok ((floatWidth w).bind (scalarForm w)) :=
    andThen_eq (checkedFloatWidth_eq w) fun width _ => checkedScalarForm_eq w width
  simp [checkedFloatForm, floatForm, checkedIntegerConversionForm_eq, hscalar]

end Encoding

end A64
