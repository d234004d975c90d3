import A64.Encoding.Register
import A64.Proofs.Checked.Immediate

/-! Data processing on registers, decoded with checked arithmetic. Main statement: every word of the group
is decoded without a fault. -/

namespace A64.Encoding

open Checked

/-! Shifted and extended registers. The amount of a shift takes a byte. -/

def LogicalRegister.checkedOfWord (w : Word) : Checked (Except Refusal LogicalRegister) := do
  if !(← w.readBit 31) && 32 ≤ (← w.readField 10 6).toNat then
    return malformed "shift amount exceeds register width"
  else
    return .ok ⟨← w.readBit 31, .ofCode (← w.readField 29 2), ← w.readBit 21, .ofCode (← w.readField 22 2),
      ← w.readByte 10 6, ← w.readRm, ← w.readRn, ← w.readRd⟩

@[simp] theorem LogicalRegister.checkedOfWord_eq (w : Word) : checkedOfWord w = .ok (ofWord w) := by
  simp [checkedOfWord, ofWord]

def AddSubShifted.checkedOfWord (w : Word) : Checked (Except Refusal AddSubShifted) := do
  if (← w.readField 22 2) = 3 then return malformed "reserved shift type"
  else if !(← w.readBit 31) && 32 ≤ (← w.readField 10 6).toNat then
    return malformed "shift amount exceeds register width"
  else
    return .ok ⟨← Arithmetic.checkedOfWord w, .ofCode (← w.readField 22 2), ← w.readByte 10 6, ← w.readRm,
      ← w.readRn, ← w.readRd⟩

@[simp] theorem AddSubShifted.checkedOfWord_eq (w : Word) : checkedOfWord w = .ok (ofWord w) := by
  simp [checkedOfWord, ofWord]

def AddSubExtended.checkedOfWord (w : Word) : Checked (Except Refusal AddSubExtended) := do
  if (← w.readField 22 2) ≠ 0 then return malformed "unallocated extended register opt"
  else if 4 < (← w.readField 10 3).toNat then return malformed "extended register shift above 4"
  else
    return .ok ⟨← Arithmetic.checkedOfWord w, ← w.readField 13 3, ← w.readByte 10 3, ← w.readRm, ← w.readRn,
      ← w.readRd⟩

@[simp] theorem AddSubExtended.checkedOfWord_eq (w : Word) : checkedOfWord w = .ok (ofWord w) := by
  simp [checkedOfWord, ofWord]

def AddSubCarry.checkedOfWord (w : Word) : Checked AddSubCarry := do
  return ⟨← Arithmetic.checkedOfWord w, ← w.readRm, ← w.readRn, ← w.readRd⟩

@[simp] theorem AddSubCarry.checkedOfWord_eq (w : Word) : checkedOfWord w = .ok (ofWord w) := by
  simp [checkedOfWord, ofWord]

/-! Conditions. -/

def ConditionalCompare.checkedOfWord (w : Word) : Checked (Except Refusal ConditionalCompare) := do
  if !(← w.readBit 29) || (← w.readBit 10) || (← w.readBit 4) then
    return malformed "unallocated conditional compare"
  else
    return .ok ⟨← w.readBit 31, !(← w.readBit 30), ← w.readBit 11, ← w.readRm,
      ← Condition.checkedOfCode (← w.readField 12 4), ← w.readRn, ← w.readField 0 4⟩

@[simp] theorem ConditionalCompare.checkedOfWord_eq (w : Word) : checkedOfWord w = .ok (ofWord w) := by
  simp [checkedOfWord, ofWord]

namespace ConditionalSelect

def checkedOfWord (w : Word) : Checked (Except Refusal ConditionalSelect) := do
  if (← w.readBit 29) || (← w.readBit 11) then return malformed "unallocated conditional select"
  else
    let op ← w.readJoined 30 1 10 1
    return .ok ⟨← w.readBit 31, .ofBits (op.getLsbD 1) (op.getLsbD 0),
      ← Condition.checkedOfCode (← w.readField 12 4), ← w.readRm, ← w.readRn, ← w.readRd⟩

/-- The operands. The opposite condition is looked up whether it is written or not. -/
def checkedOperands (e : ConditionalSelect) : Checked (List Operand) := do
  let inverse ← e.condition.checkedInverse
  match e.alias? with
  | some (_, true) => return [.register e.result, .condition inverse]
  | some (_, false) => return [.register e.result, .register e.first, .condition inverse]
  | none => return [.register e.result, .register e.first, .register e.second, .condition e.condition]

theorem checkedOfWord_eq (w : Word) : checkedOfWord w = .ok (ofWord w) := by
  have hinvert : (w.field 30 1 ++ w.field 10 1).getLsbD 1 = w.bit 30 := by
    rw [BitVec.getLsbD_append]
    simp [-BitVec.getLsbD_eq_getElem, Word.field, Word.bit]
  have hincrement : (w.field 30 1 ++ w.field 10 1).getLsbD 0 = w.bit 10 := by
    rw [BitVec.getLsbD_append]
    simp [-BitVec.getLsbD_eq_getElem, Word.field, Word.bit]
  simp [-BitVec.getLsbD_eq_getElem, checkedOfWord, ofWord, hinvert, hincrement]

theorem checkedOperands_eq (e : ConditionalSelect) : e.checkedOperands = .ok e.operands := by
  rw [checkedOperands, Condition.checkedInverse_eq, ok_bind, operands]
  rcases e.alias? with _ | ⟨name, _ | _⟩ <;> rfl

def checkedForm (w : Word) : Checked (Except Refusal Form) :=
  formed (checkedOfWord w) fun e => withOperands e.form e.checkedOperands

@[simp] theorem checkedForm_eq (w : Word) : checkedForm w = .ok ((ofWord w).map (·.form)) :=
  formed_eq (checkedOfWord_eq w) fun e _ => withOperands_eq e.checkedOperands_eq

end ConditionalSelect

/-! Operations on one, two and three registers. -/

def OneSource.checkedOfWord (w : Word) : Checked (Except Refusal OneSource) := do
  if ← w.readBit 29 then return malformed "unallocated 1-source encoding"
  else if (← w.readField 16 5) ≠ 0 then return unsupported
  else
    let wide ← w.readBit 31
    let rn ← w.readRn
    let rd ← w.readRd
    return (name (← w.readField 10 6) wide).map fun mnemonic => ⟨mnemonic, wide, rn, rd⟩

@[simp] theorem OneSource.checkedOfWord_eq (w : Word) : checkedOfWord w = .ok (ofWord w) := by
  simp [checkedOfWord, ofWord]

def Checksum.checkedSizeLetter (size : BitVec 2) : Checked String := entry ["b", "h", "w", "x"] size.toNat

def Checksum.checkedForm (e : Checksum) : Checked Form := do
  let letter ← checkedSizeLetter e.size
  return { e.form with mnemonic := some ("crc32" ++ (if e.castagnoli then "c" else "") ++ letter) }

theorem Checksum.checkedForm_eq (e : Checksum) : e.checkedForm = .ok e.form := by
  have hletter : ["b", "h", "w", "x"].getD e.size.toNat "x" = sizeLetter e.size := by
    generalize e.size = size
    revert size
    decide
  rw [checkedForm, checkedSizeLetter, entry_eq "x" e.size.isLt, ok_bind, hletter]
  rfl

def checkedTwoSourceForm (w : Word) : Checked (Except Refusal Form) := do
  let wide ← w.readBit 31
  if ← w.readBit 29 then return unsupported
  else if (← w.readField 13 3) = 2 then
    if wide = ((← w.readField 10 2) == 3) then
      let e : Checksum := ⟨← w.readBit 12, ← w.readField 10 2, ← w.readRm, ← w.readRn, ← w.readRd⟩
      return .ok (← e.checkedForm)
    else return malformed "crc32 size does not match sf"
  else
    match TwoSourceOp.ofCode? (← w.readField 10 6) with
    | some op => return .ok (TwoSource.form ⟨wide, op, ← w.readRm, ← w.readRn, ← w.readRd⟩)
    | none => return unsupported

theorem checkedTwoSourceForm_eq (w : Word) : checkedTwoSourceForm w = .ok (twoSourceForm w) := by
  cases hop : TwoSourceOp.ofCode? (w.field 10 6) <;>
    simp [checkedTwoSourceForm, twoSourceForm, Checksum.checkedForm_eq, hop]

def ThreeSource.checkedOfWord (w : Word) : Checked (Except Refusal ThreeSource) := do
  if (← w.readField 29 2) ≠ 0 then return malformed "unallocated 3-source encoding"
  else
    match kind? (← w.readField 21 3) (← w.readBit 15) (← w.readBit 31) with
    | some kind =>
      return .ok ⟨← w.readBit 31, kind, ← w.readBit 15, ← w.readRm, ← w.readRa, ← w.readRn, ← w.readRd⟩
    | none => return malformed "unallocated 3-source encoding"

@[simp] theorem ThreeSource.checkedOfWord_eq (w : Word) : checkedOfWord w = .ok (ofWord w) := by
  cases hkind : kind? (w.field 21 3) (w.bit 15) (w.bit 31) <;> simp [checkedOfWord, ofWord, hkind]

/-! The group. -/

def checkedRegisterForm (w : Word) : Checked (Except Refusal Form) := do
  let op := (← w.readField 21 4).toNat
  if ← w.readBit 28 then
    if 8 ≤ op then formed (ThreeSource.checkedOfWord w) fun e => return e.form
    else
      match op with
      | 0 =>
        if (← w.readField 10 6) = 0 then return .ok (← AddSubCarry.checkedOfWord w).form
        else return unsupported
      | 2 => formed (ConditionalCompare.checkedOfWord w) fun e => return e.form
      | 4 => ConditionalSelect.checkedForm w
      | 6 =>
        if ← w.readBit 30 then formed (OneSource.checkedOfWord w) fun e => return e.form
        else checkedTwoSourceForm w
      | _ => return malformed "unallocated data processing register"
  else if op < 8 then formed (LogicalRegister.checkedOfWord w) fun e => return e.form
  else if ← w.readBit 21 then formed (AddSubExtended.checkedOfWord w) fun e => return e.form
  else formed (AddSubShifted.checkedOfWord w) fun e => return e.form

theorem checkedRegisterForm_eq (w : Word) : checkedRegisterForm w = .ok (registerForm w) := by
  simp only [checkedRegisterForm, registerForm, Word.readField_eq, Nat.reduceLT, ok_bind]
  generalize (w.field 21 4).toNat = op
  rcases op with _ | _ | _ | _ | _ | _ | _ | op <;> simp [checkedTwoSourceForm_eq]

end A64.Encoding
