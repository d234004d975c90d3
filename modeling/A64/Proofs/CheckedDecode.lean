import A64.Decode
import A64.Proofs.Checked.Branch
import A64.Proofs.Checked.Memory
import A64.Proofs.Checked.Register
import A64.Proofs.Checked.Vector

/-! Decoding with checked arithmetic. Main statement: no word at any address leads to a fault, and what is
decoded is what `decode` decodes. -/

namespace A64

open Checked

/-! Classes. -/

namespace EncodingClass

/-- The classes by bits 28 to 25. The reserved one is shared with another that has bit 31 set. -/
def table : List EncodingClass :=
  [reserved, unallocated, sve, unallocated, loadStore, dataRegister, loadStore, simdFloat,
   dataImmediate, dataImmediate, branchSystem, branchSystem, loadStore, dataRegister, loadStore, simdFloat]

def checkedOfWord (w : Word) : Checked EncodingClass := do
  let encodingClass ← entry table (← w.readField 25 4).toNat
  return if encodingClass = reserved ∧ (← w.readBit 31) then sme else encodingClass

@[simp] theorem checkedOfWord_eq (w : Word) : checkedOfWord w = .ok (ofWord w) := by
  have hlt : (w.field 25 4).toNat < table.length := (w.field 25 4).isLt
  simp only [checkedOfWord, Word.readField_eq, Word.readBit_eq, Nat.reduceLT, ok_bind, entry_eq reserved hlt,
    pure_eq_ok, Except.ok.injEq, ofWord]
  clear hlt
  generalize w.field 25 4 = b
  generalize w.bit 31 = high
  revert b high
  decide

end EncodingClass

open Encoding in
def checkedFormOf (w : Word) : Checked (Except Refusal Form) := do
  match ← EncodingClass.checkedOfWord w with
  | .reserved => return malformed "reserved encoding space"
  | .unallocated => return malformed "unallocated encoding space"
  | .sve | .sme => return unsupported
  | .dataImmediate => checkedImmediateForm w
  | .branchSystem => checkedBranchForm w
  | .loadStore => checkedMemoryForm w
  | .dataRegister => checkedRegisterForm w
  | .simdFloat => checkedVectorForm w

open Encoding in
theorem checkedFormOf_eq (w : Word) : checkedFormOf w = .ok (formOf w) := by
  rw [checkedFormOf, EncodingClass.checkedOfWord_eq, ok_bind, formOf]
  cases EncodingClass.ofWord w with
  | reserved => rfl
  | sme => rfl
  | unallocated => rfl
  | sve => rfl
  | dataImmediate => exact checkedImmediateForm_eq w
  | branchSystem => exact checkedBranchForm_eq w
  | loadStore => exact checkedMemoryForm_eq w
  | dataRegister => exact checkedRegisterForm_eq w
  | simdFloat => exact checkedVectorForm_eq w

/-! References. Sums of addresses wrap around and have no fault; a number of pages is shifted. -/

def Reference.checkedTarget (a : Address) : Reference → Checked Address
  | displaced _ bytes => return a.advance bytes
  | page pages => do return a.page + (← shl (BitVec.ofInt 64 pages) 12)

theorem Reference.checkedTarget_eq (a : Address) (r : Reference) : r.checkedTarget a = .ok (r.target a) := by
  cases r with
  | displaced kind bytes => rfl
  | page pages =>
    have hbytes : BitVec.ofInt 64 pages <<< 12 = BitVec.ofInt 64 (4096 * pages) := by
      rw [BitVec.shiftLeft_eq_mul_twoPow, BitVec.ofInt_mul, BitVec.mul_comm]
      rfl
    rw [checkedTarget, shl_eq (by decide), ok_bind, hbytes]
    rfl

def Form.checkedPlace (f : Form) (w : Word) (a : Address) : Checked Instruction := do
  let encodingClass ← EncodingClass.checkedOfWord w
  match f.reference with
  | none => return { f.place w a with encodingClass }
  | some r =>
    let target ← r.checkedTarget a
    return { f.place w a with
      encodingClass
      operands := f.operands ++ [.pcRelative (target - a).toInt target]
      branchTarget := if f.branch = .none then 0 else target
      pcRelativeTarget := target }

theorem Form.checkedPlace_eq (f : Form) (w : Word) (a : Address) :
    f.checkedPlace w a = .ok (f.place w a) := by
  obtain ⟨spelling, reads, writes, branch, reference⟩ := f
  cases reference with
  | none => simp [checkedPlace, place]
  | some r =>
    cases branch <;>
      simp [checkedPlace, place, branchTarget, Reference.checkedTarget_eq, Reference.operand]

/-! Instructions. -/

def Refusal.checkedError (r : Refusal) (w : Word) (a : Address) : Checked DecodeError := do
  match r with
  | malformed reason => return .malformed a w reason
  | unsupported => return .unsupported a w (← EncodingClass.checkedOfWord w)

theorem Refusal.checkedError_eq (r : Refusal) (w : Word) (a : Address) :
    r.checkedError w a = .ok (r.error w a) := by
  cases r <;> simp [checkedError, error]

def checkedDecode (w : Word) (a : Address) : Checked (Except DecodeError Instruction) := do
  match ← checkedFormOf w with
  | .ok f => return .ok (← f.checkedPlace w a)
  | .error r => return .error (← r.checkedError w a)

theorem checkedDecode_eq (w : Word) (a : Address) : checkedDecode w a = .ok (decode w a) := by
  rw [checkedDecode, checkedFormOf_eq, ok_bind, decode]
  cases formOf w with
  | ok f =>
    dsimp only
    rw [Form.checkedPlace_eq]
    rfl
  | error r =>
    dsimp only
    rw [Refusal.checkedError_eq]
    rfl

/-! Register sets. -/

namespace RegisterSet

def checkedInsertIndex (s : RegisterSet) (i : Nat) : Checked RegisterSet := do
  match s with
  | .all => return .all
  | .subset m => if i ≤ 31 then return .subset (m ||| (← shl 1 i)) else return .subset m

def checkedInsert (s : RegisterSet) (r : Register) : Checked RegisterSet :=
  match r.tracked? with
  | some i => s.checkedInsertIndex i
  | none => return s

def checkedInsertAll (s : RegisterSet) (rs : List Register) : Checked RegisterSet := rs.foldlM checkedInsert s

def checkedInsertFlags (s : RegisterSet) : Checked RegisterSet := do
  match s with
  | .all => return .all
  | .subset m => return .subset (m ||| (← shl 1 flagsBit))

theorem checkedInsertIndex_eq (s : RegisterSet) (i : Nat) :
    s.checkedInsertIndex i = .ok (s.insertIndex i) := by
  cases s with
  | all => rfl
  | subset m =>
    rw [checkedInsertIndex, insertIndex]
    by_cases hi : i ≤ 31
    · rw [if_pos hi, if_pos hi, shl_eq (by omega), ok_bind]
      rfl
    · rw [if_neg hi, if_neg hi]
      rfl

theorem checkedInsert_eq (s : RegisterSet) (r : Register) : s.checkedInsert r = .ok (s.insert r) := by
  rw [checkedInsert, insert]
  cases r.tracked? with
  | none => rfl
  | some i => exact checkedInsertIndex_eq s i

theorem checkedInsertAll_eq (s : RegisterSet) (rs : List Register) :
    s.checkedInsertAll rs = .ok (s.insertAll rs) := by
  induction rs generalizing s with
  | nil => rfl
  | cons r rs ih =>
    rw [checkedInsertAll, List.foldlM_cons, checkedInsert_eq, ok_bind]
    exact ih (s.insert r)

theorem checkedInsertFlags_eq (s : RegisterSet) : s.checkedInsertFlags = .ok s.insertFlags := by
  cases s <;> rfl

end RegisterSet

/-- Decoding never reaches a fault, whatever the word and its address, and neither does gathering the
registers of an instruction; checked arithmetic gives the results that decoding gives. -/
theorem decode_without_fault :
    (∀ w a, checkedDecode w a = .ok (decode w a)) ∧
      (∀ s rs, RegisterSet.checkedInsertAll s rs = .ok (s.insertAll rs)) ∧
        ∀ s, RegisterSet.checkedInsertFlags s = .ok s.insertFlags :=
  ⟨checkedDecode_eq, RegisterSet.checkedInsertAll_eq, RegisterSet.checkedInsertFlags_eq⟩

end A64
