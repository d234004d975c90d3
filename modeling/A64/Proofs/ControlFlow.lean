import A64.Proofs.Regular.General
import A64.Proofs.Regular.Vector
import A64.Proofs.References

/-! How decoded instructions pass control on. Each form goes on to the next instruction or leaves in one of
seven ways, and the way is told alike by its branch, its operation and its effects. Main statement: these
agree in every decoded instruction, and a target is known only where a displacement leads to it. -/

namespace A64

def RegisterSet.link : RegisterSet := .subset (.twoPow 64 30)

theorem RegisterSet.of_link : of [.lr] = link := by decide

namespace Form

/-- The ways in which a form passes control on. A return is told by its name, and so is an exception that
touches no register. -/
inductive Flow (f : Form) : Prop where
  | straight (h : f.IsStraight)
  | call (hn : ¬Named leavingNames f.mnemonic) (ho : f.operation = .call) (hb : f.branch = .call)
      (hr : f.reads.isAll = false) (hw : f.writes = .link)
  | conditional (hn : ¬Named leavingNames f.mnemonic) (ho : f.operation = .conditionalJump)
      (hb : f.branch = .conditional) (hr : f.reads.isAll = false) (hw : f.writes = .empty)
  | jump (hn : ¬Named leavingNames f.mnemonic) (ho : f.operation = .jump)
      (hb : f.branch = .unconditional) (hr : f.reads.isAll = false) (hw : f.writes = .empty)
  | return (hn : Named returnNames f.mnemonic) (ho : f.operation = .return)
      (hb : f.branch = .unconditional) (hr : f.reads.isAll = false) (hw : f.writes = .empty)
  | halt (hn : Named haltNames f.mnemonic) (ho : f.operation = .interrupt)
      (hb : f.branch = .exception) (hr : f.reads.isAll = false) (hw : f.writes = .empty)
  | trap (hn : ¬Named leavingNames f.mnemonic) (ho : f.operation = .syscall ∨ f.operation = .interrupt)
      (hb : f.branch = .exception) (hr : f.reads = .all) (hw : f.writes = .all)
  | unwind (hn : Named exceptionReturnNames f.mnemonic) (ho : f.operation = .return)
      (hb : f.branch = .exception) (hr : f.reads = .all) (hw : f.writes = .all)

end Form

namespace Encoding

open Form

variable {w : Word} {f : Form}

theorem BranchImmediate.flow_form (e : BranchImmediate) : e.form.Flow := by
  simp only [form]
  split
  · exact .call (named_some.not.mpr (by decide)) rfl rfl rfl RegisterSet.of_link
  · exact .jump (named_some.not.mpr (by decide)) rfl rfl rfl rfl

theorem CompareBranch.flow_form (e : CompareBranch) : e.form.Flow := by
  refine .conditional ?_ rfl rfl (by simp [form]) rfl
  simp only [form, spelled, named_some]
  split <;> decide

theorem TestBranch.flow_form (e : TestBranch) : e.form.Flow := by
  refine .conditional ?_ rfl rfl (by simp [form]) rfl
  simp only [form, spelled, named_some]
  split <;> decide

theorem ConditionalBranch.flow_form (e : ConditionalBranch) : e.form.Flow := by
  have hn : ¬Named leavingNames e.form.mnemonic := by
    have hall : ∀ c ∈ Condition.all, "b." ++ c.suffix ∉ leavingNames := by decide
    simpa only [form, spelled, named_some] using hall e.condition e.condition.mem_all
  cases hc : e.condition.isAlways with
  | true => exact .jump hn (by simp [form, spelled, hc]) (by simp [form, hc]) (by simp [form]) rfl
  | false => exact .conditional hn (by simp [form, spelled, hc]) (by simp [form, hc]) (by simp [form]) rfl

namespace BranchRegister

theorem flow_jump {link : Bool} {mnemonic : String} (hn : mnemonic ∉ leavingNames)
    (sources : List Register) : (jump link mnemonic sources).Flow := by
  have hname : ¬Named leavingNames (jump link mnemonic sources).mnemonic := by
    simpa [jump, spelled] using hn
  cases link with
  | false => exact .jump hname rfl rfl (by simp [jump]) rfl
  | true => exact .call hname rfl rfl (by simp [jump]) RegisterSet.of_link

theorem flow_form (e : BranchRegister) : e.form.Flow := by
  cases e with
  | plain link => exact flow_jump (by cases link <;> decide) _
  | authZero link key | auth link key => exact flow_jump (by cases link <;> cases key <;> decide) _
  | ret => exact .return ⟨"ret", by decide, rfl⟩ rfl rfl (by simp [form]) rfl
  | retAuth key => exact .return ⟨_, by cases key <;> decide, rfl⟩ rfl rfl (by simp [form]) rfl
  | exceptionReturn key =>
    cases key with
    | none => exact .unwind ⟨"eret", by decide, rfl⟩ rfl rfl rfl rfl
    | some key => exact .unwind ⟨_, by cases key <;> decide, rfl⟩ rfl rfl rfl rfl
  | debugReturn => exact .unwind ⟨"drps", by decide, rfl⟩ rfl rfl rfl rfl

end BranchRegister

theorem ExceptionOp.halts_or_traps (op : ExceptionOp) :
    if op.traps then op.name ∉ leavingNames ∧ (op.operation = .syscall ∨ op.operation = .interrupt)
    else op.name ∈ haltNames ∧ op.operation = .interrupt := by
  cases op <;> decide

theorem ExceptionCall.flow_form (e : ExceptionCall) : e.form.Flow := by
  have hop := e.op.halts_or_traps
  cases ht : e.op.traps with
  | true =>
    rw [if_pos ht] at hop
    exact .trap (named_some.not.mpr hop.1) hop.2 rfl (by simp [form, ht]) (by simp [form, ht])
  | false =>
    rw [ht, if_neg Bool.false_ne_true] at hop
    exact .halt (named_some.mpr hop.1) hop.2 rfl (by simp [form, ht]) (by simp [form, ht])

theorem BranchEncoding.flow (h : BranchEncoding w f) : f.Flow := by
  cases h with
  | immediate => exact BranchImmediate.flow_form _
  | test => exact TestBranch.flow_form _
  | compare => exact CompareBranch.flow_form _
  | conditional => exact ConditionalBranch.flow_form _
  | register => exact BranchRegister.flow_form _
  | exception => exact ExceptionCall.flow_form _
  | system _ _ _ _ hf => exact .straight hf.isRegular.straight

theorem BranchEncoding.kind_of_reference (h : BranchEncoding w f) {r : Reference}
    (hr : f.reference = some r) : r.kind = .shortBranch ∨ r.kind = .longBranch := by
  have hnone (hn : f.reference = none) : r.kind = .shortBranch ∨ r.kind = .longBranch := by
    rw [hn] at hr
    cases hr
  cases h with
  | immediate =>
    cases hr
    exact .inr rfl
  | test | compare | conditional =>
    cases hr
    exact .inl rfl
  | register => exact hnone (BranchRegister.reference_form _)
  | exception => exact hnone rfl
  | system _ _ _ _ hf => exact hnone hf.reference_eq_none

theorem Encoded.flow {c : EncodingClass} (h : Encoded w c f) : f.Flow := by
  cases h with
  | immediate h => exact .straight h.isRegular.straight
  | branch h => exact h.flow
  | memory h => exact .straight h.isRegular.straight
  | register h => exact .straight h.isRegular.straight
  | vector h => exact .straight h.isRegular.straight

theorem Encoded.branchEncoding {c : EncodingClass} (h : Encoded w c f) (hb : f.branch ≠ .none) :
    c = .branchSystem ∧ BranchEncoding w f := by
  cases h with
  | immediate h => exact absurd h.isRegular.straight.branch hb
  | branch h => exact ⟨rfl, h⟩
  | memory h => exact absurd h.isRegular.straight.branch hb
  | register h => exact absurd h.isRegular.straight.branch hb
  | vector h => exact absurd h.isRegular.straight.branch hb

end Encoding

/-- The branch, the operation, the name and the effects of an instruction tell alike how it passes control
on. -/
structure Instruction.FlowAgrees (i : Instruction) : Prop where
  call : i.branch = .call ↔ i.operation = .call
  conditional : i.branch = .conditional ↔ i.operation = .conditionalJump
  unconditional : i.branch = .unconditional ↔ i.operation = .jump ∨ Named returnNames i.mnemonic
  exception : i.branch = .exception ↔
    i.operation = .syscall ∨ i.operation = .interrupt ∨ Named exceptionReturnNames i.mnemonic
  returns : i.operation = .return ↔ Named (returnNames ++ exceptionReturnNames) i.mnemonic
  reads_all : i.reads = .all ↔ i.branch = .exception ∧ ¬Named haltNames i.mnemonic
  writes_all : i.writes = .all ↔ i.branch = .exception ∧ ¬Named haltNames i.mnemonic
  writes_call : i.branch = .call → i.writes = .link
  writes_empty : i.branch = .conditional ∨ i.branch = .unconditional ∨ Named haltNames i.mnemonic →
    i.writes = .empty

theorem RegisterSet.ne_all {s : RegisterSet} (h : s.isAll = false) : s ≠ .all := by
  rintro rfl
  cases h

theorem not_named_leavingNames {mnemonic : Option String} :
    ¬Named leavingNames mnemonic ↔
      (¬Named returnNames mnemonic ∧ ¬Named exceptionReturnNames mnemonic) ∧ ¬Named haltNames mnemonic := by
  simp only [leavingNames, named_append, not_or]

namespace Form

variable {f : Form}

theorem Flow.flowAgrees (h : f.Flow) (w : Word) (a : Address) : (f.place w a).FlowAgrees := by
  -- The fields are about the form alone, so in each way its own facts decide them all.
  cases h with
  | straight h =>
    obtain ⟨⟨hret, heret⟩, hhalt⟩ := not_named_leavingNames.mp h.name
    have ho := h.operation
    simp only [leavingOperations, List.mem_cons, List.not_mem_nil, or_false, not_or] at ho
    obtain ⟨hjump, hcond, hcall, hreturn, hsys, hint⟩ := ho
    constructor <;> simp [place, named_append, h.branch, RegisterSet.ne_all h.reads,
      RegisterSet.ne_all h.writes, *]
  | call hn ho hb hr hw =>
    obtain ⟨⟨hret, heret⟩, hhalt⟩ := not_named_leavingNames.mp hn
    constructor <;> simp [place, named_append, RegisterSet.ne_all hr, RegisterSet.link, *]
  | conditional hn ho hb hr hw | jump hn ho hb hr hw =>
    obtain ⟨⟨hret, heret⟩, hhalt⟩ := not_named_leavingNames.mp hn
    constructor <;> simp [place, named_append, RegisterSet.ne_all hr, RegisterSet.empty, *]
  | «return» hn ho hb hr hw =>
    have heret : ¬Named exceptionReturnNames f.mnemonic := hn.not_named (by decide)
    have hhalt : ¬Named haltNames f.mnemonic := hn.not_named (by decide)
    constructor <;> simp [place, named_append, RegisterSet.ne_all hr, RegisterSet.empty, *]
  | halt hn ho hb hr hw =>
    have hret : ¬Named returnNames f.mnemonic := hn.not_named (by decide)
    have heret : ¬Named exceptionReturnNames f.mnemonic := hn.not_named (by decide)
    constructor <;> simp [place, named_append, RegisterSet.ne_all hr, RegisterSet.empty, *]
  | trap hn ho hb hr hw =>
    obtain ⟨⟨hret, heret⟩, hhalt⟩ := not_named_leavingNames.mp hn
    constructor <;> rcases ho with ho | ho <;> simp [place, named_append, *]
  | unwind hn ho hb hr hw =>
    have hret : ¬Named returnNames f.mnemonic := hn.not_named (by decide)
    have hhalt : ¬Named haltNames f.mnemonic := hn.not_named (by decide)
    constructor <;> simp [place, named_append, *]

theorem branch_of_branchTarget_ne_zero {a : Address} (h : f.branchTarget a ≠ 0) :
    f.branch ≠ .none ∧ ∃ r, f.reference = some r := by
  cases hr : f.reference with
  | none => cases hb : f.branch <;> simp [branchTarget, hb, hr] at h
  | some r =>
    refine ⟨fun hb => ?_, r, rfl⟩
    simp [branchTarget, hb] at h

end Form

/-- In every decoded instruction branch, operation, name and effects agree on the way control is passed on;
only the class of branches leaves, and a target is told only where a displacement leads to it. -/
theorem decode_flowAgrees {w : Word} {a : Address} {i : Instruction} (hd : decode w a = .ok i) :
    i.FlowAgrees ∧ (i.branch ≠ .none → i.encodingClass = .branchSystem) ∧
      (i.branchTarget ≠ 0 → i.pcRelative = .shortBranch ∨ i.pcRelative = .longBranch) := by
  obtain ⟨f, -, he, rfl⟩ := Encoding.decode_eq_ok hd
  refine ⟨he.flow.flowAgrees w a, fun hb => (he.branchEncoding hb).1, fun ht => ?_⟩
  obtain ⟨hb, r, hr⟩ := Form.branch_of_branchTarget_ne_zero ht
  have hk := (he.branchEncoding hb).2.kind_of_reference hr
  simpa [Form.place, hr] using hk

/-- A `bl` whose target wraps around to the last word but one, a `retab` and a `brk`. -/
theorem decode_flowAgrees_bl :
    (∃ i, decode 0x97FFFFFE 0 = .ok i ∧ i.branchTarget = 0xFFFFFFFFFFFFFFF8 ∧ i.writes = .link ∧
      i.pcRelative = .longBranch) ∧
    (∃ i, decode 0xD65F0FFF 0 = .ok i ∧ i.mnemonic = some "retab" ∧ i.branch = .unconditional ∧
      i.writes = .empty) ∧
    ∃ i, decode 0xD4200000 0 = .ok i ∧ i.mnemonic = some "brk" ∧ i.branch = .exception ∧
      i.reads ≠ .all := by
  refine ⟨⟨_, rfl, by decide, ?_, rfl⟩, ⟨_, rfl, rfl, ?_, ?_⟩, ⟨_, rfl, rfl, ?_, ?_⟩⟩
  · exact (decode_flowAgrees (w := 0x97FFFFFE) (a := 0) rfl).1.writes_call rfl
  · exact (decode_flowAgrees (w := 0xD65F0FFF) (a := 0) rfl).1.unconditional.mpr
      (.inr (named_some.mpr (by decide)))
  · exact (decode_flowAgrees (w := 0xD65F0FFF) (a := 0) rfl).1.writes_empty (.inr (.inl rfl))
  · exact (decode_flowAgrees (w := 0xD4200000) (a := 0) rfl).1.exception.mpr (.inr (.inl rfl))
  · intro hr
    exact ((decode_flowAgrees (w := 0xD4200000) (a := 0) rfl).1.reads_all.mp hr).2
      (named_some.mpr (by decide))

end A64
