import A64.Encoding.Vector
import A64.Proofs.Checked.Float

/-! Vectors and floating point, decoded with checked arithmetic. Main statement: every word of the group is
decoded without a fault. -/

namespace A64.Encoding

open Checked

/-! Ciphers and hashes. -/

def checkedCipherForm (w : Word) : Checked (Except Refusal Form) := do
  if (← w.readField 22 2) ≠ 0 then return malformed "reserved aes size"
  else
    match cipherName? (← w.readField 12 5) with
    | some mnemonic =>
      return .ok (.plain (spelled mnemonic .crypto [(← w.readRd).lanes .b16, (← w.readRn).lanes .b16]))
    | none => return malformed "unallocated aes opcode"

theorem checkedCipherForm_eq (w : Word) : checkedCipherForm w = .ok (cipherForm w) := by
  cases hname : cipherName? (w.field 12 5) <;> simp [checkedCipherForm, cipherForm, hname]

def checkedHashThreeForm (w : Word) : Checked (Except Refusal Form) := do
  if (← w.readField 22 2) ≠ 0 then return malformed "reserved sha size"
  else
    match hashThree? (← w.readField 12 3) with
    | some (mnemonic, first, second) =>
      return .ok (.plain (spelled mnemonic .crypto
        [first.operand (← w.readRd), second.operand (← w.readRn), (← w.readRm).lanes .s4]))
    | none => return malformed "unallocated sha opcode"

theorem checkedHashThreeForm_eq (w : Word) : checkedHashThreeForm w = .ok (hashThreeForm w) := by
  cases hname : hashThree? (w.field 12 3) <;> simp [checkedHashThreeForm, hashThreeForm, hname]

def checkedHashTwoForm (w : Word) : Checked (Except Refusal Form) := do
  if (← w.readField 22 2) ≠ 0 then return malformed "reserved sha size"
  else
    match hashTwo? (← w.readField 12 5) with
    | some (mnemonic, view) =>
      return .ok (.plain (spelled mnemonic .crypto [view.operand (← w.readRd), view.operand (← w.readRn)]))
    | none => return malformed "unallocated sha opcode"

theorem checkedHashTwoForm_eq (w : Word) : checkedHashTwoForm w = .ok (hashTwoForm w) := by
  cases hname : hashTwo? (w.field 12 5) <;> simp [checkedHashTwoForm, hashTwoForm, hname]

/-! Copies. -/

/-- The lane of a five-bit field: the zeros at its end tell the size, what is left above them and the bit
that ends them the index. The highest bit alone is no size. -/
def LaneSelect.checkedOfField? (b : BitVec 5) : Checked (Option LaneSelect) := do
  let field := b.setWidth 32
  let low := field &&& 0xF
  if low = 0 then return none
  else
    let size := low.ctz
    let index ← narrow 8 (← shr field (← add size 1).toNat)
    return some ⟨size.toNat, index.toNat⟩

theorem LaneSelect.checkedOfField?_eq (b : BitVec 5) : checkedOfField? b = .ok (ofField? b) := by
  apply eq_ok_of_toOption
  revert b
  decide +kernel

theorem LaneSelect.sizeLog_lt {b : BitVec 5} {l : LaneSelect} (h : ofField? b = some l) : l.sizeLog < 4 := by
  have hall : ∀ b, ∀ l ∈ ofField? b, l.sizeLog < 4 := by decide
  exact hall b l h

def checkedLaneToGeneral (w : Word) (l : LaneSelect) (signed : Bool) : Checked (Except Refusal Form) := do
  match laneMoveName? signed (← w.readBit 30) l.sizeLog with
  | some mnemonic =>
    let dst := (← w.readRd).gp (← w.readBit 30)
    return .ok { toSpelling := spelled mnemonic .move [.register dst, l.operand (← w.readRn)]
                 writes := .of [dst] }
  | none => return malformed "element move size mismatch"

theorem checkedLaneToGeneral_eq (w : Word) (l : LaneSelect) (signed : Bool) :
    checkedLaneToGeneral w l signed = .ok (laneToGeneral w l signed) := by
  cases hname : laneMoveName? signed (w.bit 30) l.sizeLog <;>
    simp [checkedLaneToGeneral, laneToGeneral, hname]

/-- The index of the lane that is inserted; the bits below it are unused. -/
def checkedInsertedIndex (w : Word) (l : LaneSelect) : Checked Nat := do
  return (← narrow 8 (← shr (← w.readBits 11 4) l.sizeLog)).toNat

theorem checkedInsertedIndex_eq (w : Word) {l : LaneSelect} (hl : l.sizeLog < 4) :
    checkedInsertedIndex w l = .ok ((w.field 11 4).toNat >>> l.sizeLog) := by
  have hindex : ((w.field 11 4).setWidth 32 >>> l.sizeLog).toNat = (w.field 11 4).toNat >>> l.sizeLog := by
    rw [BitVec.toNat_ushiftRight, BitVec.toNat_setWidth_of_le (by decide)]
  have hbyte : (w.field 11 4).toNat >>> l.sizeLog < 2 ^ 8 :=
    calc (w.field 11 4).toNat >>> l.sizeLog
      _ ≤ (w.field 11 4).toNat := Nat.shiftRight_le _ _
      _ < 2 ^ 4 := (w.field 11 4).isLt
      _ ≤ 2 ^ 8 := by decide
  rw [checkedInsertedIndex, Word.readBits_eq (by decide) (by decide), ok_bind, shr_eq (by omega), ok_bind,
    narrow_eq (hindex ▸ hbyte), ok_bind, pure_eq_ok, BitVec.toNat_setWidth, hindex, Nat.mod_eq_of_lt hbyte]

def checkedLaneInsert (w : Word) (l : LaneSelect) : Checked (Except Refusal Form) := do
  if ← w.readBit 30 then
    let index ← checkedInsertedIndex w l
    return .ok (.plain (spelled "mov" .move [l.operand (← w.readRd), (← w.readRn).lane l.size index]))
  else return malformed "element insert requires Q"

theorem checkedLaneInsert_eq (w : Word) {l : LaneSelect} (hl : l.sizeLog < 4) :
    checkedLaneInsert w l = .ok (laneInsert w l) := by
  simp [checkedLaneInsert, laneInsert, checkedInsertedIndex_eq w hl]

def checkedDuplicate (w : Word) (l : LaneSelect) (general : Bool) : Checked (Except Refusal Form) := do
  let full ← w.readBit 30
  let dst := (← w.readRd).lanes (l.arrangement full)
  let src := (← w.readRn).gp (l.sizeLog = 3)
  if l.sizeLog = 3 ∧ full = false then return malformed "reserved vector arrangement"
  else if general then
    return .ok { toSpelling := spelled "dup" .vector [dst, .register src], reads := .of [src] }
  else return .ok (.plain (spelled "dup" .vector [dst, l.operand (← w.readRn)]))

theorem checkedDuplicate_eq (w : Word) (l : LaneSelect) (general : Bool) :
    checkedDuplicate w l general = .ok (duplicate w l general) := by
  simp [checkedDuplicate, duplicate]

def checkedGeneralToLane (w : Word) (l : LaneSelect) : Checked Form := do
  let src := (← w.readRn).gp (l.sizeLog = 3)
  return { toSpelling := spelled "mov" .move [l.operand (← w.readRd), .register src], reads := .of [src] }

theorem checkedGeneralToLane_eq (w : Word) (l : LaneSelect) :
    checkedGeneralToLane w l = .ok (generalToLane w l) := by
  simp [checkedGeneralToLane, generalToLane]

def checkedCopyForm (w : Word) : Checked (Except Refusal Form) := do
  match ← LaneSelect.checkedOfField? (← w.readField 16 5) with
  | none => return malformed "reserved element size"
  | some l =>
    if ← w.readBit 29 then checkedLaneInsert w l
    else
      match (← w.readField 11 4).toNat with
      | 0 => checkedDuplicate w l false
      | 1 => checkedDuplicate w l true
      | 3 =>
        if ← w.readBit 30 then return .ok (← checkedGeneralToLane w l)
        else return malformed "unallocated simd copy"
      | 5 => checkedLaneToGeneral w l true
      | 7 => checkedLaneToGeneral w l false
      | _ => return malformed "unallocated simd copy"

theorem checkedCopyForm_eq (w : Word) : checkedCopyForm w = .ok (copyForm w) := by
  rw [checkedCopyForm, Word.readField_eq (by decide) (by decide), ok_bind, LaneSelect.checkedOfField?_eq,
    ok_bind, copyForm]
  cases hl : LaneSelect.ofField? (w.field 16 5) with
  | none => rfl
  | some l =>
    simp only [Word.readBit_eq, Word.readField_eq, Nat.reduceLT, ok_bind,
      checkedLaneInsert_eq w (LaneSelect.sizeLog_lt hl)]
    generalize (w.field 11 4).toNat = n
    rcases n with _ | _ | _ | _ | _ | _ | _ | _ | n <;>
      simp [checkedDuplicate_eq, checkedGeneralToLane_eq, checkedLaneToGeneral_eq]

/-! Operations on three vectors. -/

def checkedThreeVectors (w : Word) (mnemonic : String) (arrangement : Arrangement) : Checked Form := do
  return .plain (spelled mnemonic .vector
    [(← w.readRd).lanes arrangement, (← w.readRn).lanes arrangement, (← w.readRm).lanes arrangement])

theorem checkedThreeVectors_eq (w : Word) (mnemonic : String) (arrangement : Arrangement) :
    checkedThreeVectors w mnemonic arrangement = .ok (threeVectors w mnemonic arrangement) := by
  simp [checkedThreeVectors, threeVectors]

def checkedBitwiseForm (w : Word) : Checked Form := do
  let arrangement : Arrangement := if ← w.readBit 30 then .b16 else .b8
  let rn ← w.readRn
  if (← w.readBit 29) = false ∧ (← w.readField 22 2) = 2 ∧ rn = (← w.readRm) then
    return .plain (spelled "mov" .move [(← w.readRd).lanes arrangement, rn.lanes arrangement])
  else checkedThreeVectors w (bitwiseName (← w.readBit 29) (← w.readField 22 2)) arrangement

theorem checkedBitwiseForm_eq (w : Word) : checkedBitwiseForm w = .ok (bitwiseForm w) := by
  simp [checkedBitwiseForm, bitwiseForm, checkedThreeVectors_eq]

def checkedFloatThreeSameForm (w : Word) : Checked (Except Refusal Form) := do
  match floatThreeSameName? (← w.readBit 29) (← w.readBit 23) (← w.readField 11 5),
      Arrangement.ofFloat? (← w.readBit 22) (← w.readBit 30) with
  | none, _ => return .ok (.unnamed .vector)
  | some _, none => return malformed "reserved vector arrangement"
  | some mnemonic, some arrangement => return .ok (← checkedThreeVectors w mnemonic arrangement)

theorem checkedFloatThreeSameForm_eq (w : Word) :
    checkedFloatThreeSameForm w = .ok (floatThreeSameForm w) := by
  cases hname : floatThreeSameName? (w.bit 29) (w.bit 23) (w.field 11 5) <;>
    cases harrangement : Arrangement.ofFloat? (w.bit 22) (w.bit 30) <;>
      simp [checkedFloatThreeSameForm, floatThreeSameForm, checkedThreeVectors_eq, hname, harrangement]

def checkedIntegerThreeSameName? (opcode : BitVec 5) (unsigned : Bool) : Checked (Option String) := do
  let names ← entry integerThreeSame opcode.toNat
  entry [names.1, names.2] unsigned.toNat

theorem checkedIntegerThreeSameName?_eq {opcode : BitVec 5} (h : opcode.toNat < 24) (unsigned : Bool) :
    checkedIntegerThreeSameName? opcode unsigned = .ok (integerThreeSameName? opcode unsigned) := by
  have hnames : integerThreeSame[opcode.toNat]? = some (integerThreeSame.getD opcode.toNat (none, none)) := by
    rw [List.getD_eq_getElem?_getD, List.getElem?_eq_getElem h]
    rfl
  rw [checkedIntegerThreeSameName?, entry_eq (none, none) h, ok_bind, integerThreeSameName?, hnames]
  cases unsigned <;> rfl

example : checkedIntegerThreeSameName? 24 false = .error .entry := rfl

def checkedIntegerThreeSameForm (w : Word) : Checked (Except Refusal Form) := do
  let opcode ← w.readField 11 5
  let size ← w.readField 22 2
  match ← checkedIntegerThreeSameName? opcode (← w.readBit 29) with
  | none => return .ok (.unnamed .vector)
  | some mnemonic =>
    if isReservedSize opcode (← w.readBit 29) size (← w.readBit 30) then
      return malformed "reserved vector arrangement"
    else return .ok (← checkedThreeVectors w mnemonic (.ofSize size (← w.readBit 30)))

theorem checkedIntegerThreeSameForm_eq {w : Word} (h : (w.field 11 5).toNat < 24) :
    checkedIntegerThreeSameForm w = .ok (integerThreeSameForm w) := by
  cases hname : integerThreeSameName? (w.field 11 5) (w.bit 29) <;>
    simp [checkedIntegerThreeSameForm, integerThreeSameForm, checkedIntegerThreeSameName?_eq h,
      checkedThreeVectors_eq, hname]

def checkedThreeSameForm (w : Word) : Checked (Except Refusal Form) := do
  let opcode ← w.readField 11 5
  if opcode = 3 then return .ok (← checkedBitwiseForm w)
  else if 24 ≤ opcode.toNat then checkedFloatThreeSameForm w
  else checkedIntegerThreeSameForm w

theorem checkedThreeSameForm_eq (w : Word) : checkedThreeSameForm w = .ok (threeSameForm w) := by
  rw [checkedThreeSameForm, Word.readField_eq (by decide) (by decide), ok_bind, threeSameForm]
  by_cases hbitwise : w.field 11 5 = 3
  · rw [if_pos hbitwise, if_pos hbitwise, checkedBitwiseForm_eq]
    rfl
  · by_cases hfloat : 24 ≤ (w.field 11 5).toNat
    · rw [if_neg hbitwise, if_neg hbitwise, if_pos hfloat, if_pos hfloat, checkedFloatThreeSameForm_eq]
    · rw [if_neg hbitwise, if_neg hbitwise, if_neg hfloat, if_neg hfloat,
        checkedIntegerThreeSameForm_eq (Nat.not_le.mp hfloat)]

/-! Operations on one vector. -/

def checkedTwoRegisterForm (w : Word) : Checked (Except Refusal Form) := do
  let size ← w.readField 22 2
  match VectorUnary.find? (← w.readBit 29) (← w.readField 12 5) size with
  | none => return .ok (.unnamed .vector)
  | some e =>
    match e.arrangement? size (← w.readBit 30) with
    | none => return malformed "reserved vector arrangement"
    | some arrangement =>
      return .ok (.plain (spelled e.mnemonic e.operation
        ([(← w.readRd).lanes arrangement, (← w.readRn).lanes arrangement] ++
          if e.compareZero then [.count 0] else [])))

theorem checkedTwoRegisterForm_eq (w : Word) : checkedTwoRegisterForm w = .ok (twoRegisterForm w) := by
  cases he : VectorUnary.find? (w.bit 29) (w.field 12 5) (w.field 22 2) with
  | none => simp [checkedTwoRegisterForm, twoRegisterForm, he]
  | some e =>
    cases harrangement : e.arrangement? (w.field 22 2) (w.bit 30) <;>
      simp [checkedTwoRegisterForm, twoRegisterForm, he, harrangement]

def checkedReductionWidth (widening : Bool) (size : BitVec 2) : Checked Nat := do
  return (← shl (if widening then 16 else 8 : BitVec 16) size.toNat).toNat

theorem checkedReductionWidth_eq (widening : Bool) (size : BitVec 2) :
    checkedReductionWidth widening size = .ok ((if widening then 16 else 8) <<< size.toNat) := by
  apply eq_ok_of_toOption
  revert widening size
  decide

def checkedAcrossLanesForm (w : Word) : Checked (Except Refusal Form) := do
  let size ← w.readField 22 2
  match floatReductionName? (← w.readBit 29) (← w.readBit 23) (← w.readField 12 5),
      integerReduction? (← w.readBit 29) (← w.readField 12 5) with
  | some mnemonic, _ =>
    if (← w.readBit 30) && !(← w.readBit 22) then
      return .ok (.plain (spelled mnemonic .floatArith [(← w.readRd).scalar 32, (← w.readRn).lanes .s4]))
    else return malformed "reserved across-lanes arrangement"
  | none, some (mnemonic, widening) =>
    if size == 3 || (size == 2 && !(← w.readBit 30)) then
      return malformed "reserved across-lanes arrangement"
    else
      let width ← checkedReductionWidth widening size
      return .ok (.plain (spelled mnemonic .vector
        [(← w.readRd).scalar width, (← w.readRn).lanes (.ofSize size (← w.readBit 30))]))
  | none, none => return .ok (.unnamed .vector)

theorem checkedAcrossLanesForm_eq (w : Word) : checkedAcrossLanesForm w = .ok (acrossLanesForm w) := by
  cases hfloat : floatReductionName? (w.bit 29) (w.bit 23) (w.field 12 5) <;>
    rcases hinteger : integerReduction? (w.bit 29) (w.field 12 5) with _ | ⟨mnemonic, widening⟩ <;>
      simp [checkedAcrossLanesForm, acrossLanesForm, checkedReductionWidth_eq, hfloat, hinteger]

/-! The group. -/

def checkedVectorForm (w : Word) : Checked (Except Refusal Form) :=
  if hasBits w 0xFF3E0C00 0x4E280800 then checkedCipherForm w
  else if hasBits w 0xFF208C00 0x5E000000 then checkedHashThreeForm w
  else if hasBits w 0xFF3E0C00 0x5E280800 then checkedHashTwoForm w
  else if hasBits w 0x5F200000 0x1E200000 then checkedFloatForm w
  else if hasBits w 0x5F200000 0x1E000000 then checkedFixedConversionForm w
  else if hasBits w 0x5F000000 0x1F000000 then checkedFloatThreeSource w
  else if hasBits w 0x9FE08400 0x0E000400 then checkedCopyForm w
  else if hasBits w 0x9F200400 0x0E200400 then checkedThreeSameForm w
  else if hasBits w 0x9F3E0C00 0x0E200800 then checkedTwoRegisterForm w
  else if hasBits w 0x9F3E0C00 0x0E300800 then checkedAcrossLanesForm w
  else return unsupported

theorem checkedVectorForm_eq (w : Word) : checkedVectorForm w = .ok (vectorForm w) := by
  simp only [checkedVectorForm, vectorForm, checkedCipherForm_eq, checkedHashThreeForm_eq,
    checkedHashTwoForm_eq, checkedFloatForm_eq, checkedFixedConversionForm_eq, checkedFloatThreeSource_eq,
    checkedCopyForm_eq, checkedThreeSameForm_eq, checkedTwoRegisterForm_eq, checkedAcrossLanesForm_eq,
    pure_eq_ok, ite_ok]

end A64.Encoding
