import A64.Proofs.Assembler.Immediate
import A64.Proofs.Checked.Bitmask

/-! Data processing with an immediate, decoded with checked arithmetic. Main statement: every word of the
group is decoded without a fault. -/

namespace A64.Encoding

open Checked

/-! Address generation. -/

namespace AddressGeneration

def checkedOfWord (w : Word) : Checked AddressGeneration := do
  return ⟨← w.readBit 31, ← w.readJoined 5 19 29 2, ← w.readRd⟩

def checkedForm (w : Word) : Checked Form := do
  let e ← checkedOfWord w
  let distance ← signed e.distance
  return { e.form with
    reference := some (if e.page then .page distance else .displaced .addressIndex distance) }

theorem checkedOfWord_eq (w : Word) : checkedOfWord w = .ok (ofWord w) := by
  simp [checkedOfWord, ofWord]

@[simp] theorem checkedForm_eq (w : Word) : checkedForm w = .ok (ofWord w).form := by
  rw [checkedForm, checkedOfWord_eq, ok_bind, signed_eq _ (by decide) (by decide)]
  rfl

end AddressGeneration

/-! Addition and subtraction. -/

def Arithmetic.checkedOfWord (w : Word) : Checked Arithmetic := do
  return ⟨← w.readBit 31, ← w.readBit 30, ← w.readBit 29⟩

@[simp] theorem Arithmetic.checkedOfWord_eq (w : Word) : checkedOfWord w = .ok (ofWord w) := by
  simp [checkedOfWord, ofWord]

def AddSubImmediate.checkedOfWord (w : Word) : Checked AddSubImmediate := do
  return ⟨← Arithmetic.checkedOfWord w, ← w.readBit 22, ← w.readField 10 12, ← w.readRn, ← w.readRd⟩

@[simp] theorem AddSubImmediate.checkedOfWord_eq (w : Word) : checkedOfWord w = .ok (ofWord w) := by
  simp [checkedOfWord, ofWord]

/-! Logical instructions. -/

def LogicalImmediate.checkedOfWord (w : Word) : Checked (Except Refusal LogicalImmediate) := do
  let wide ← w.readBit 31
  let bitmask : Bitmask := ⟨← w.readField 22 1, ← w.readField 10 6, ← w.readField 16 6⟩
  match ← bitmask.checkedValue? wide with
  | none => return malformed "reserved bitmask immediate"
  | some mask => return .ok ⟨wide, .ofCode (← w.readField 29 2), mask, ← w.readRn, ← w.readRd⟩

@[simp] theorem LogicalImmediate.checkedOfWord_eq (w : Word) : checkedOfWord w = .ok (ofWord w) := by
  cases hmask : (bitmask w).value? (w.bit 31) <;>
    simp_all [checkedOfWord, ofWord, bitmask]

/-! Moves of an immediate. -/

namespace MoveWide

def checkedOfWord (w : Word) : Checked (Except Refusal MoveWide) := do
  match op? (← w.readField 29 2) with
  | none => return malformed "unallocated move wide opcode"
  | some op =>
    if !(← w.readBit 31) && 2 ≤ (← w.readField 21 2).toNat then
      return malformed "move wide shift exceeds register width"
    else return .ok ⟨← w.readBit 31, op, ← w.readField 21 2, ← w.readField 5 16, ← w.readRd⟩

def checkedShift (e : MoveWide) : Checked (BitVec 8) := do narrow 8 (← mul (e.quarter.setWidth 32) 16)

/-- The operands. The complement of a narrow register is cut down to it on purpose. -/
def checkedOperands (e : MoveWide) : Checked (List Operand) := do
  let dst : Operand := .register (e.rd.gp e.wide)
  let shift ← e.checkedShift
  let explicit : Operand := .shiftedImmediate e.imm.toNat shift.toNat
  let straight := !(e.imm == 0 && e.quarter != 0)
  match e.op with
  | .movz =>
    if straight then return [dst, .ofNat (← shl (e.imm.setWidth 64) shift.toNat).toNat]
    else return [dst, explicit]
  | .movn =>
    let inverted := ~~~(← shl (e.imm.setWidth 64) shift.toNat)
    if e.wide && straight then return [dst, .ofInt inverted.toInt]
    else if !e.wide && straight && e.imm != 0xFFFF then
      return [dst, .ofInt (inverted.setWidth 32).toInt]
    else return [dst, explicit]
  | .movk => return [dst, explicit]

theorem checkedOfWord_eq (w : Word) : checkedOfWord w = .ok (ofWord w) := by
  cases hop : op? (w.field 29 2) <;> simp [checkedOfWord, ofWord, hop]

theorem checkedShift_eq (e : MoveWide) : e.checkedShift = .ok (.ofNat 8 e.shift) := by
  have hquarter : (e.quarter.setWidth 32).toNat = e.quarter.toNat := BitVec.toNat_setWidth_of_le (by decide)
  have hlt := e.quarter.isLt
  have hmul : (e.quarter.setWidth 32).toNat * (16 : BitVec 32).toNat < 2 ^ 32 := by
    rw [hquarter, show (16 : BitVec 32).toNat = 16 from rfl]
    omega
  have hshift : (e.quarter.setWidth 32 * 16).toNat = e.shift := by
    rw [BitVec.toNat_mul, Nat.mod_eq_of_lt hmul, hquarter, shift, Nat.mul_comm]
    rfl
  have hbyte : (e.quarter.setWidth 32 * 16).toNat < 2 ^ 8 := by
    rw [hshift, shift]
    omega
  rw [checkedShift, mul_eq hmul, ok_bind, narrow_eq hbyte, Except.ok.injEq]
  apply BitVec.eq_of_toNat_eq
  rw [BitVec.toNat_setWidth, BitVec.toNat_ofNat, hshift]

theorem checkedOperands_eq {e : MoveWide} (h : e.Fits) : e.checkedOperands = .ok e.spelling.operands := by
  have hlt := e.quarter.isLt
  have hamount : e.shift < 64 := by
    rw [shift]
    omega
  have hshift : (BitVec.ofNat 8 e.shift).toNat = e.shift := by
    rw [BitVec.toNat_ofNat]
    omega
  have hplaced : e.imm.setWidth 64 <<< e.shift = .ofNat 64 e.placed := by
    apply BitVec.eq_of_toNat_eq
    rw [BitVec.toNat_shiftLeft, BitVec.toNat_setWidth_of_le (by decide), BitVec.toNat_ofNat, placed]
  have hnat : (BitVec.ofNat 64 e.placed).toNat = e.placed :=
    Nat.mod_eq_of_lt (Nat.lt_of_lt_of_le (placed_lt h)
      (Nat.pow_le_pow_right (by decide) (Bitmask.width_le e.wide)))
  have hwide (hw : e.wide = true) : e.inverted = (~~~BitVec.ofNat 64 e.placed).toInt := by
    rw [inverted, hw]
    rfl
  have hnarrow (hw : e.wide = false) : e.inverted = ((~~~BitVec.ofNat 64 e.placed).setWidth 32).toInt := by
    rw [inverted, hw, BitVec.setWidth_not (by decide), BitVec.setWidth_ofNat_of_le (by decide)]
    rfl
  rw [checkedOperands, checkedShift_eq]
  cases hop : e.op with
  | movz =>
    simp only [hop, hshift, shl_eq hamount, hplaced, hnat, ok_bind, spelling, isMove]
    generalize (!(e.imm == 0 && e.quarter != 0)) = straight
    cases straight <;> rfl
  | movn =>
    simp only [hop, hshift, shl_eq hamount, hplaced, ok_bind, spelling, isMove]
    generalize (!(e.imm == 0 && e.quarter != 0)) = straight
    cases hw : e.wide with
    | false =>
      rw [hnarrow hw]
      cases straight <;> cases e.imm != 0xFFFF <;> rfl
    | true =>
      rw [hwide hw]
      cases straight <;> rfl
  | movk =>
    simp only [hop, hshift, ok_bind, spelling, isMove, Bool.and_false]
    rfl

def checkedForm (w : Word) : Checked (Except Refusal Form) :=
  formed (checkedOfWord w) fun e => withOperands e.form e.checkedOperands

@[simp] theorem checkedForm_eq (w : Word) : checkedForm w = .ok ((ofWord w).map (·.form)) :=
  formed_eq (checkedOfWord_eq w) fun _ he => withOperands_eq (checkedOperands_eq (fits_of_ofWord he))

end MoveWide

/-! Bitfield moves. -/

namespace Bitfield

def checkedOfWord (w : Word) : Checked (Except Refusal Bitfield) := do
  let wide ← w.readBit 31
  match op? (← w.readField 29 2) with
  | none => return malformed "unallocated bitfield opcode"
  | some op =>
    if (← w.readBit 22) != wide then return malformed "bitfield N must match sf"
    else if !wide && (32 ≤ (← w.readField 16 6).toNat || 32 ≤ (← w.readField 10 6).toNat) then
      return malformed "bitfield position exceeds register width"
    else return .ok ⟨wide, op, ← w.readField 16 6, ← w.readField 10 6, ← w.readRn, ← w.readRd⟩

def checkedInserted (width immr imms : BitVec 32) : Checked (List Operand) := do
  return [.count (← sub width immr).toNat, .count (← add imms 1).toNat]

def checkedExtracted (immr imms : BitVec 32) : Checked (List Operand) := do
  return [.count immr.toNat, .count (← add (← sub imms immr) 1).toNat]

/-- The operands. Each difference is worked out only where the arms before it have left it sound. -/
def checkedOperands (e : Bitfield) : Checked (List Operand) := do
  let width : BitVec 32 := .ofNat 32 e.width
  let immr := e.immr.setWidth 32
  let imms := e.imms.setWidth 32
  let last ← sub width 1
  let dst : Operand := .register e.result
  let src : Operand := .register e.source
  let inserted := checkedInserted width immr imms
  let extracted := checkedExtracted immr imms
  match e.op with
  | .sbfm =>
    if imms = last then return [dst, src, .count immr.toNat]
    else if imms < immr then return dst :: src :: (← inserted)
    else if immr = 0 ∧ imms = 7 then return [dst, .register (e.rn.gp false)]
    else if immr = 0 ∧ imms = 15 then return [dst, .register (e.rn.gp false)]
    else if immr = 0 ∧ imms = 31 then return [dst, .register (e.rn.gp false)]
    else return dst :: src :: (← extracted)
  | .bfm =>
    if imms < immr then
      if e.rn = 31 then return dst :: (← inserted) else return dst :: src :: (← inserted)
    else return dst :: src :: (← extracted)
  | .ubfm =>
    if imms ≠ last ∧ (← add imms 1) = immr then return [dst, src, .count (← sub last imms).toNat]
    else if imms = last then return [dst, src, .count immr.toNat]
    else if imms < immr then return dst :: src :: (← inserted)
    else if e.wide = false ∧ immr = 0 ∧ imms = 7 then return [dst, src]
    else if e.wide = false ∧ immr = 0 ∧ imms = 15 then return [dst, src]
    else return dst :: src :: (← extracted)

theorem checkedOfWord_eq (w : Word) : checkedOfWord w = .ok (ofWord w) := by
  cases hop : op? (w.field 29 2) <;> simp [checkedOfWord, ofWord, hop]

variable {e : Bitfield}

theorem toNat_position (x : BitVec 6) : (x.setWidth 32).toNat = x.toNat :=
  BitVec.toNat_setWidth_of_le (by decide)

theorem width_cases (e : Bitfield) : e.width = 32 ∨ e.width = 64 := by
  rw [width]
  cases e.wide
  · exact .inl rfl
  · exact .inr rfl

theorem toNat_width (e : Bitfield) : (BitVec.ofNat 32 e.width).toNat = e.width := by
  have hwidth := e.width_cases
  rw [BitVec.toNat_ofNat]
  omega

theorem sub_width_one (e : Bitfield) : sub (.ofNat 32 e.width) 1 = .ok (.ofNat 32 (e.width - 1)) := by
  obtain h | h := e.width_cases <;> rw [h] <;> rfl

theorem checkedInserted_eq (h : e.Fits) :
    checkedInserted (.ofNat 32 e.width) (e.immr.setWidth 32) (e.imms.setWidth 32) = .ok e.inserted := by
  obtain ⟨hr, -⟩ := h
  have hsub : (e.immr.setWidth 32).toNat ≤ (BitVec.ofNat 32 e.width).toNat := by
    rw [toNat_position, toNat_width]
    exact Nat.le_of_lt hr
  have hadd := toNat_add_one_lt e.imms (show 6 < 32 by decide)
  rw [checkedInserted, sub_eq hsub, add_eq hadd]
  simp only [ok_bind, pure_eq_ok, BitVec.toNat_sub_of_le hsub, toNat_of_add (add_eq hadd), toNat_position,
    toNat_width, inserted]
  rfl

theorem checkedExtracted_eq (h : ¬e.imms < e.immr) :
    checkedExtracted (e.immr.setWidth 32) (e.imms.setWidth 32) = .ok e.extracted := by
  have hle : (e.immr.setWidth 32).toNat ≤ (e.imms.setWidth 32).toNat := by
    rw [toNat_position, toNat_position]
    exact Nat.not_lt.mp h
  have hsub := BitVec.toNat_sub_of_le hle
  have hs := e.imms.isLt
  have hadd : (e.imms.setWidth 32 - e.immr.setWidth 32).toNat + (1 : BitVec 32).toNat < 2 ^ 32 := by
    rw [hsub, toNat_position, toNat_position, show (1 : BitVec 32).toNat = 1 from rfl]
    omega
  rw [checkedExtracted, sub_eq hle]
  simp only [ok_bind, add_eq hadd, pure_eq_ok, toNat_of_add (add_eq hadd), hsub, toNat_position, extracted]
  rfl

theorem position_eq_iff (x y : BitVec 6) : x.setWidth 32 = y.setWidth 32 ↔ x = y := by
  rw [BitVec.toNat_eq, toNat_position, toNat_position, BitVec.toNat_eq]

theorem checkedOperands_eq (h : e.Fits) : e.checkedOperands = .ok e.spelling.operands := by
  have hwidth := e.width_cases
  have hlast : (BitVec.ofNat 32 (e.width - 1)).toNat = e.width - 1 := by
    rw [BitVec.toNat_ofNat]
    omega
  have htop : e.imms.setWidth 32 = .ofNat 32 (e.width - 1) ↔ e.imms.toNat + 1 = e.width := by
    rw [BitVec.toNat_eq, toNat_position, hlast]
    omega
  have hlt : e.imms.setWidth 32 < e.immr.setWidth 32 ↔ e.imms < e.immr := by
    rw [BitVec.lt_def, toNat_position, toNat_position, BitVec.lt_def]
  have hzero : e.immr.setWidth 32 = 0 ↔ e.immr = 0 := position_eq_iff e.immr 0
  have hseven : e.imms.setWidth 32 = 7 ↔ e.imms = 7 := position_eq_iff e.imms 7
  have hfifteen : e.imms.setWidth 32 = 15 ↔ e.imms = 15 := position_eq_iff e.imms 15
  have hthirtyOne : e.imms.setWidth 32 = 31 ↔ e.imms = 31 := position_eq_iff e.imms 31
  rw [checkedOperands, sub_width_one, ok_bind]
  cases hop : e.op with
  | sbfm =>
    simp only [hop, htop, hlt, hzero, hseven, hfifteen, hthirtyOne, toNat_position, checkedInserted_eq h,
      ok_bind, pure_eq_ok, spelling, signedSpelling, apply_ite Spelling.operands, spelled]
    by_cases hins : e.imms < e.immr
    · simp only [hins, if_true, ite_ok]
    · simp only [hins, if_false, checkedExtracted_eq hins, ok_bind, ite_ok]
  | bfm =>
    simp only [hop, hlt, checkedInserted_eq h, ok_bind, pure_eq_ok, spelling, mergeSpelling,
      apply_ite Spelling.operands, spelled]
    by_cases hins : e.imms < e.immr
    · simp only [hins, if_true, ite_ok]
    · simp only [hins, if_false, checkedExtracted_eq hins, ok_bind]
  | ubfm =>
    have hs := h.2
    have hadd := toNat_add_one_lt e.imms (show 6 < 32 by decide)
    have hnext : e.imms.setWidth 32 + 1 = e.immr.setWidth 32 ↔ e.imms.toNat + 1 = e.immr.toNat := by
      rw [BitVec.toNat_eq, toNat_of_add (add_eq hadd), toNat_position, toNat_position]
      rfl
    have hle : (e.imms.setWidth 32).toNat ≤ (BitVec.ofNat 32 (e.width - 1)).toNat := by
      rw [toNat_position, hlast]
      omega
    have hsub := BitVec.toNat_sub_of_le hle
    rw [toNat_position, hlast] at hsub
    simp only [hop, htop, hlt, hzero, hseven, hfifteen, hnext, toNat_position, checkedInserted_eq h,
      add_eq hadd, sub_eq hle, hsub, ok_bind, pure_eq_ok, spelling, unsignedSpelling,
      apply_ite Spelling.operands, spelled, ne_eq]
    by_cases hins : e.imms < e.immr
    · simp only [hins, if_true, ite_ok]
    · simp only [hins, if_false, checkedExtracted_eq hins, ok_bind, ite_ok]

def checkedForm (w : Word) : Checked (Except Refusal Form) :=
  formed (checkedOfWord w) fun e => withOperands e.form e.checkedOperands

@[simp] theorem checkedForm_eq (w : Word) : checkedForm w = .ok ((ofWord w).map (·.form)) :=
  formed_eq (checkedOfWord_eq w) fun _ he => withOperands_eq (checkedOperands_eq (fits_of_ofWord he))

end Bitfield

/-! Extraction. -/

def Extract.checkedOfWord (w : Word) : Checked (Except Refusal Extract) := do
  let wide ← w.readBit 31
  if (← w.readField 29 2) != 0 || (← w.readBit 21) then return malformed "unallocated extract opcode"
  else if (← w.readBit 22) != wide || (!wide && 32 ≤ (← w.readField 10 6).toNat) then
    return malformed "extract N or lsb mismatch"
  else return .ok ⟨wide, ← w.readField 10 6, ← w.readRm, ← w.readRn, ← w.readRd⟩

@[simp] theorem Extract.checkedOfWord_eq (w : Word) : checkedOfWord w = .ok (ofWord w) := by
  simp [checkedOfWord, ofWord]

/-! The group. -/

def checkedImmediateForm (w : Word) : Checked (Except Refusal Form) := do
  match (← w.readField 23 3).toNat with
  | 0 | 1 => return .ok (← AddressGeneration.checkedForm w)
  | 2 => return .ok (← AddSubImmediate.checkedOfWord w).form
  | 3 => return unsupported
  | 4 => formed (LogicalImmediate.checkedOfWord w) fun e => return e.form
  | 5 => MoveWide.checkedForm w
  | 6 => Bitfield.checkedForm w
  | _ => formed (Extract.checkedOfWord w) fun e => return e.form

theorem checkedImmediateForm_eq (w : Word) : checkedImmediateForm w = .ok (immediateForm w) := by
  rw [checkedImmediateForm, Word.readField_eq (by decide) (by decide), ok_bind, immediateForm]
  generalize (w.field 23 3).toNat = n
  rcases n with _ | _ | _ | _ | _ | _ | _ | n <;> simp

end A64.Encoding
