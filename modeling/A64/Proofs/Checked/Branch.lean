import A64.Encoding.Branch
import A64.Proofs.Checked

/-! Branches, exceptions and system instructions, decoded with checked arithmetic. Main statement: every
word of the group is decoded without a fault. -/

namespace A64

open Checked

def SystemRegister.checkedOfField (f : Word) : Checked SystemRegister := do
  let op0 ← add 2 ((← f.readByte 14 1).setWidth 8)
  return ⟨op0.toNat, (← f.readByte 11 3).toNat, (← f.readByte 7 4).toNat, (← f.readByte 3 4).toNat,
    (← f.readByte 0 3).toNat⟩

theorem SystemRegister.checkedOfField_eq (w : Word) :
    checkedOfField ((w.field 5 16).setWidth 32) = .ok (ofField (w.field 5 15)) := by
  have hpart (lo len : Nat) (h : lo + len ≤ 15) :
      Word.field ((w.field 5 16).setWidth 32) lo len = (w.field 5 15).extractLsb' lo len := by
    apply BitVec.eq_of_getLsbD_eq
    intro i hi
    simp only [Word.field, BitVec.getLsbD_extractLsb', BitVec.getLsbD_setWidth, hi,
      show lo + i < 16 by omega, show lo + i < 32 by omega, show lo + i < 15 by omega, decide_true,
      Bool.true_and]
  have htop := ((w.field 5 15).extractLsb' 14 1).isLt
  have hadd : (2 : BitVec 8).toNat + (((w.field 5 15).extractLsb' 14 1).setWidth 8).toNat < 2 ^ 8 := by
    rw [BitVec.toNat_setWidth_of_le (by decide), show (2 : BitVec 8).toNat = 2 from rfl]
    omega
  simp only [checkedOfField, Word.readByte_eq, Nat.reduceLT, Nat.reduceLeDiff, ok_bind, pure_eq_ok,
    hpart _ _ (show 14 + 1 ≤ 15 by decide), hpart _ _ (show 11 + 3 ≤ 15 by decide),
    hpart _ _ (show 7 + 4 ≤ 15 by decide), hpart _ _ (show 3 + 4 ≤ 15 by decide),
    hpart _ _ (show 0 + 3 ≤ 15 by decide), add_eq hadd, toNat_of_add (add_eq hadd),
    BitVec.toNat_setWidth_of_le (show 1 ≤ 8 by decide)]
  rfl

namespace Encoding

/-! Branches to a displacement. -/

def BranchImmediate.checkedForm (w : Word) : Checked Form := do
  let e : BranchImmediate := ⟨← w.readBit 31, ← w.readField 0 26⟩
  displacedBy e.form .longBranch e.words

@[simp] theorem BranchImmediate.checkedForm_eq (w : Word) : checkedForm w = .ok (ofWord w).form := by
  simp only [checkedForm, Word.readBit_eq, Word.readField_eq, Nat.reduceLT, ok_bind]
  exact displacedBy_eq rfl (by decide) (by decide)

def CompareBranch.checkedForm (w : Word) : Checked Form := do
  let e : CompareBranch := ⟨← w.readBit 31, ← w.readBit 24, ← w.readField 5 19, ← w.readRd⟩
  displacedBy e.form .shortBranch e.words

@[simp] theorem CompareBranch.checkedForm_eq (w : Word) : checkedForm w = .ok (ofWord w).form := by
  simp only [checkedForm, Word.readBit_eq, Word.readField_eq, Word.readRd_eq, Nat.reduceLT, ok_bind]
  exact displacedBy_eq rfl (by decide) (by decide)

def TestBranch.checkedForm (w : Word) : Checked Form := do
  let e : TestBranch := ⟨← w.readBit 24, ← w.readJoined 31 1 19 5, ← w.readField 5 14, ← w.readRd⟩
  displacedBy e.form .shortBranch e.words

@[simp] theorem TestBranch.checkedForm_eq (w : Word) : checkedForm w = .ok (ofWord w).form := by
  simp only [checkedForm, Word.readBit_eq, Word.readField_eq, Word.readJoined_eq, Word.readRd_eq,
    Nat.reduceLT, Nat.reduceAdd, ok_bind]
  exact displacedBy_eq rfl (by decide) (by decide)

namespace ConditionalBranch

def checkedOfWord (w : Word) : Checked (Except Refusal ConditionalBranch) := do
  if (← w.readBit 25) || (← w.readBit 24) then return malformed "unallocated conditional branch"
  else if ← w.readBit 4 then return unsupported
  else return .ok ⟨← Condition.checkedOfCode (← w.readField 0 4), ← w.readField 5 19⟩

def checkedForm (w : Word) : Checked (Except Refusal Form) :=
  formed (checkedOfWord w) fun e => displacedBy e.form .shortBranch e.words

theorem checkedOfWord_eq (w : Word) : checkedOfWord w = .ok (ofWord w) := by
  simp [checkedOfWord, ofWord]

@[simp] theorem checkedForm_eq (w : Word) : checkedForm w = .ok ((ofWord w).map (·.form)) :=
  formed_eq (checkedOfWord_eq w) fun _ _ => displacedBy_eq rfl (by decide) (by decide)

end ConditionalBranch

/-! Branches to a register, and exceptions. -/

namespace BranchRegister

def checkedOfWord? (w : Word) : Checked (Option BranchRegister) := do
  if (← w.readField 16 5) = 31 then
    let opc ← w.readField 21 4
    let rn ← w.readRn
    let last ← w.readRd
    return (key? (← w.readField 10 6)).bind fun key => of? opc key rn last
  else return none

def checkedOfWord (w : Word) : Checked (Except Refusal BranchRegister) := do
  match ← checkedOfWord? w with
  | some e => return .ok e
  | none => return malformed "unallocated branch register encoding"

theorem checkedOfWord?_eq (w : Word) : checkedOfWord? w = .ok (ofWord? w) := by
  simp [checkedOfWord?, ofWord?]

@[simp] theorem checkedOfWord_eq (w : Word) : checkedOfWord w = .ok (ofWord w) := by
  rw [checkedOfWord, checkedOfWord?_eq, ok_bind, ofWord]
  cases ofWord? w <;> rfl

end BranchRegister

def ExceptionCall.checkedOfWord (w : Word) : Checked (Except Refusal ExceptionCall) := do
  if (← w.readField 2 3) = 0 then
    let imm ← w.readField 5 16
    return (opOf (← w.readField 21 3) (← w.readField 0 2)).map fun op => ⟨op, imm⟩
  else return malformed "unallocated exception encoding"

@[simp] theorem ExceptionCall.checkedOfWord_eq (w : Word) : checkedOfWord w = .ok (ofWord w) := by
  simp [checkedOfWord, ofWord]

/-! System instructions. -/

def Hint.targets (n : Nat) : List Operand :=
  match n with
  | 0 => []
  | 1 => [.named "c"]
  | 2 => [.named "j"]
  | _ => [.named "jc"]

/-- The targets of a `bti` hint are told by all but the lowest bit of `op2`. -/
def Hint.checkedForm (number : BitVec 7) (op2 : BitVec 3) : Checked Form :=
  match number.toNat with
  | 32 | 34 | 36 | 38 => do
    return .plain (spelled "bti" .hint (targets (← shr (op2.setWidth 32) 1).toNat))
  | _ => return Hint.form ⟨number⟩

theorem Hint.checkedForm_eq (crm : BitVec 4) (op2 : BitVec 3) :
    checkedForm (crm ++ op2) op2 = .ok (form ⟨crm ++ op2⟩) := by
  have hnumber : (crm ++ op2).toNat = 8 * crm.toNat + op2.toNat := by
    rw [BitVec.toNat_append, ← Nat.shiftLeft_add_eq_or_of_lt op2.isLt, Nat.shiftLeft_eq, Nat.mul_comm]
  have hlt := op2.isLt
  have htarget : (op2.setWidth 32 >>> 1).toNat = op2.toNat / 2 := by
    rw [BitVec.toNat_ushiftRight, BitVec.toNat_setWidth_of_le (by decide), Nat.shiftRight_eq_div_pow]
  simp only [checkedForm, shr_eq (show 1 < 32 by decide), ok_bind, htarget]
  split
  · next h =>
    rw [show op2.toNat / 2 = 0 by omega, form, h]
    rfl
  · next h =>
    rw [show op2.toNat / 2 = 1 by omega, form, h]
    rfl
  · next h =>
    rw [show op2.toNat / 2 = 2 by omega, form, h]
    rfl
  · next h =>
    rw [show op2.toNat / 2 = 3 by omega, form, h]
    rfl
  · rfl

def checkedQuietSystemForm (w : Word) : Checked (Except Refusal Form) := do
  let op1 ← w.readField 16 3
  let crm ← w.readField 8 4
  let op2 ← w.readField 5 3
  if (← w.readRd) ≠ 31 then return unsupported
  else
    match (← w.readField 12 4).toNat with
    | 2 =>
      if op1 = 3 then return .ok (← Hint.checkedForm (← w.readJoined 8 4 5 3) op2)
      else return unsupported
    | 3 => if op1 = 3 then return Barrier.form ⟨crm, op2⟩ else return unsupported
    | 4 => return ProcessorState.form ⟨op1, crm, op2⟩
    | _ => return unsupported

theorem checkedQuietSystemForm_eq (w : Word) :
    checkedQuietSystemForm w = .ok (quietSystemForm w) := by
  simp only [checkedQuietSystemForm, quietSystemForm, Word.readField_eq, Word.readRd_eq, Word.readJoined_eq,
    Nat.reduceLT, Nat.reduceAdd, ok_bind, Hint.checkedForm_eq, pure_eq_ok, ite_ok]
  generalize (w.field 12 4).toNat = n
  rcases n with _ | _ | _ | _ | _ | n <;> simp

def checkedSystemForm (w : Word) : Checked (Except Refusal Form) := do
  if (← w.readField 22 2) ≠ 0 then return malformed "unallocated system encoding"
  else
    match (← w.readField 19 2).toNat with
    | 0 =>
      if ← w.readBit 21 then return malformed "unallocated system encoding" else checkedQuietSystemForm w
    | 1 =>
      return .ok (SystemOperation.form ⟨← w.readBit 21, ← w.readField 16 3, ← w.readByte 12 4,
        ← w.readByte 8 4, ← w.readField 5 3, ← w.readRd⟩)
    | _ =>
      let system ← SystemRegister.checkedOfField (← w.readBits 5 16)
      return .ok (SystemMove.form ⟨← w.readBit 21, system, ← w.readRd⟩)

theorem checkedSystemForm_eq (w : Word) : checkedSystemForm w = .ok (systemForm w) := by
  simp only [checkedSystemForm, systemForm, Word.readBits_eq, Word.readBit_eq, Word.readField_eq,
    Word.readByte_eq, Word.readRd_eq, Nat.reduceLT, Nat.reduceLeDiff, ok_bind, pure_eq_ok,
    checkedQuietSystemForm_eq, SystemRegister.checkedOfField_eq, ite_ok]
  generalize (w.field 19 2).toNat = n
  rcases n with _ | _ | n <;> simp

/-! The group. -/

def checkedBranchForm (w : Word) : Checked (Except Refusal Form) := do
  match (← w.readField 29 3).toNat with
  | 0 | 4 => return .ok (← BranchImmediate.checkedForm w)
  | 1 | 5 =>
    if ← w.readBit 25 then return .ok (← TestBranch.checkedForm w)
    else return .ok (← CompareBranch.checkedForm w)
  | 2 => ConditionalBranch.checkedForm w
  | 6 =>
    if ← w.readBit 25 then formed (BranchRegister.checkedOfWord w) fun e => return e.form
    else if ← w.readBit 24 then checkedSystemForm w
    else formed (ExceptionCall.checkedOfWord w) fun e => return e.form
  | _ => return malformed "unallocated branch encoding"

theorem checkedBranchForm_eq (w : Word) : checkedBranchForm w = .ok (branchForm w) := by
  rw [checkedBranchForm, Word.readField_eq (by decide) (by decide), ok_bind, branchForm]
  generalize (w.field 29 3).toNat = n
  rcases n with _ | _ | _ | _ | _ | _ | _ | n <;> simp [checkedSystemForm_eq]

end Encoding

end A64
