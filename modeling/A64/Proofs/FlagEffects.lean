import A64.Proofs.Regular.General
import A64.Proofs.Regular.Vector

/-! Which decoded instructions test and set the flags. Main statements: an instruction whose effects can be
listed tests the flags exactly if its name and operands tell so, and sets them exactly if these tell so,
but for `fjcvtzs`, whose effect on the flags is left out. -/

namespace A64

/-! Branches with a condition. -/

theorem Condition.eq_of_branch {c d : Condition} (h : "b." ++ c.suffix = "b." ++ d.suffix) : c = d := by
  have hall : ∀ c ∈ all, ∀ d ∈ all, "b." ++ c.suffix = "b." ++ d.suffix → c = d := by decide
  exact hall c c.mem_all d d.mem_all h

theorem Condition.isAlways_iff (c : Condition) : c.isAlways = true ↔ c ∈ [.al, .nv] := by
  cases c <;> decide

theorem Condition.branch_not_mem (c : Condition) :
    "b." ++ c.suffix ∉ "fjcvtzs" :: "mrs" :: "msr" :: flagSetters ++ flagTesters := by
  have hall : ∀ c ∈ all, "b." ++ c.suffix ∉ "fjcvtzs" :: "mrs" :: "msr" :: flagSetters ++ flagTesters := by
    decide
  exact hall c c.mem_all

theorem testsFlags_branch (c : Condition) (operands : List Operand) :
    TestsFlags (some ("b." ++ c.suffix)) operands ↔ c.isAlways = false := by
  have hname := c.branch_not_mem
  simp only [List.cons_append, List.mem_cons, List.mem_append, not_or] at hname
  obtain ⟨-, hmrs, -, -, htests⟩ := hname
  rw [← Bool.not_eq_true, c.isAlways_iff]
  constructor
  · rintro (⟨d, hd, hbranch⟩ | ⟨name, hname, hbranch⟩ | ⟨hbranch, -⟩)
    · rwa [Condition.eq_of_branch (Option.some.inj hbranch)]
    · exact absurd (Option.some.inj hbranch ▸ hname) htests
    · exact absurd (Option.some.inj hbranch) hmrs
  · intro hc
    exact .inl ⟨c, hc, rfl⟩

theorem not_setsFlags_branch (c : Condition) (operands : List Operand) :
    ¬SetsFlags (some ("b." ++ c.suffix)) operands := by
  have hname := c.branch_not_mem
  simp only [List.cons_append, List.mem_cons, List.mem_append, not_or] at hname
  obtain ⟨-, -, hmsr, hsets, -⟩ := hname
  simp [setsFlags_some, hsets, hmsr]

namespace Form

variable {f : Form} {name : String}

theorem flagsAgree_of_quiet (hm : f.mnemonic = some name) (h : TellsFlags name false false)
    (hc : f.operands.any Operand.isCondition = false) (hr : f.reads.hasFlags = false)
    (hw : f.writes.hasFlags = false) : f.FlagsAgree :=
  flagsAgree_of_tellsFlags hm (by rwa [hr, hw]) (by simp [hc])

/-- Of effects that cannot be listed nothing is claimed. -/
theorem flagsAgree_of_all (hr : f.reads = .all) (hw : f.writes = .all) : f.FlagsAgree := by
  refine ⟨fun h => ?_, fun h => ?_, fun _ => ?_⟩
  · rw [hr] at h
    cases h
  · rw [hw] at h
    cases h
  · rw [hr]
    rfl

end Form

namespace Encoding

open Form

variable {w : Word} {f : Form}

theorem BranchImmediate.flagsAgree_form (e : BranchImmediate) : e.form.FlagsAgree := by
  simp only [form]
  split
  · exact flagsAgree_of_quiet rfl (by decide) rfl (by simp) (by simp)
  · exact flagsAgree_of_quiet rfl (by decide) rfl (by simp) (by simp)

theorem CompareBranch.flagsAgree_form (e : CompareBranch) : e.form.FlagsAgree :=
  flagsAgree_of_quiet rfl (by cases e.nonzero <;> decide) rfl (by simp [form]) (by simp [form])

theorem TestBranch.flagsAgree_form (e : TestBranch) : e.form.FlagsAgree :=
  flagsAgree_of_quiet rfl (by cases e.nonzero <;> decide) rfl (by simp [form]) (by simp [form])

theorem ConditionalBranch.flagsAgree_form (e : ConditionalBranch) : e.form.FlagsAgree := by
  refine ⟨fun _ => ?_, fun _ => ?_, ?_⟩
  · simp [form, spelled, testsFlags_branch]
  · simp [form, spelled, not_setsFlags_branch]
  · simp [form, spelled]

namespace BranchRegister

theorem flagsAgree_jump {link : Bool} {mnemonic : String} (h : TellsFlags mnemonic false false)
    (sources : List Register) : (jump link mnemonic sources).FlagsAgree := by
  refine flagsAgree_of_quiet rfl h (Operand.any_isCondition_register sources) (by simp [jump]) ?_
  simp only [jump]
  split <;> simp

theorem flagsAgree_form (e : BranchRegister) : e.form.FlagsAgree := by
  cases e with
  | plain link => exact flagsAgree_jump (by cases link <;> decide) _
  | authZero link key | auth link key =>
    exact flagsAgree_jump (by cases link <;> cases key <;> decide) _
  | ret rn =>
    refine flagsAgree_of_quiet rfl (by decide) ?_ (by simp [form]) (by simp [form])
    simp only [form, spelled]
    split <;> rfl
  | retAuth key => exact flagsAgree_of_quiet rfl (by cases key <;> decide) rfl (by simp [form]) rfl
  | exceptionReturn key => cases key <;> exact flagsAgree_of_all rfl rfl
  | debugReturn => exact flagsAgree_of_all rfl rfl

end BranchRegister

theorem ExceptionCall.flagsAgree_form (e : ExceptionCall) : e.form.FlagsAgree := by
  have hoperands : e.form.operands.any Operand.isCondition = false := by
    simp only [form, spelled]
    split <;> rfl
  cases htraps : e.op.traps with
  | false =>
    have hname : TellsFlags e.op.name false false := by cases e.op <;> decide
    exact flagsAgree_of_quiet rfl hname hoperands (by simp [form, htraps]) (by simp [form, htraps])
  | true => exact flagsAgree_of_all (by simp [form, htraps]) (by simp [form, htraps])

theorem BranchEncoding.flagsAgree (h : BranchEncoding w f) : f.FlagsAgree := by
  cases h with
  | immediate => exact BranchImmediate.flagsAgree_form _
  | test => exact TestBranch.flagsAgree_form _
  | compare => exact CompareBranch.flagsAgree_form _
  | conditional => exact ConditionalBranch.flagsAgree_form _
  | register => exact BranchRegister.flagsAgree_form _
  | exception => exact ExceptionCall.flagsAgree_form _
  | system _ _ _ _ hf => exact hf.isRegular.flags

theorem Encoded.flagsAgree {c : EncodingClass} (h : Encoded w c f) : f.FlagsAgree := by
  cases h with
  | immediate h => exact h.isRegular.flags
  | branch h => exact h.flagsAgree
  | memory h => exact h.isRegular.flags
  | register h => exact h.isRegular.flags
  | vector h => exact h.isRegular.flags

end Encoding

namespace Form

/-- Placing a form adds at most a reference to its operands. -/
theorem mem_operands_place {f : Form} {w : Word} {a : Address} {op : Operand}
    (h : ∀ offset target, op ≠ .pcRelative offset target) :
    op ∈ (f.place w a).operands ↔ op ∈ f.operands := by
  simp only [place, List.mem_append]
  cases f.reference with
  | none => simp
  | some r => simp [Reference.operand, h]

theorem nzcv_mem_operands_place (f : Form) (w : Word) (a : Address) :
    .systemRegister .nzcv ∈ (f.place w a).operands ↔ .systemRegister .nzcv ∈ f.operands :=
  mem_operands_place (by simp)

theorem testsFlags_place {f : Form} {w : Word} {a : Address} :
    TestsFlags (f.place w a).mnemonic (f.place w a).operands ↔ TestsFlags f.mnemonic f.operands := by
  simp only [TestsFlags, nzcv_mem_operands_place]
  rfl

theorem setsFlags_place {f : Form} {w : Word} {a : Address} :
    SetsFlags (f.place w a).mnemonic (f.place w a).operands ↔ SetsFlags f.mnemonic f.operands := by
  simp only [SetsFlags, nzcv_mem_operands_place]
  rfl

end Form

/-- A decoded instruction whose written registers can be listed writes the flags exactly if its name and
operands tell that it sets them, unless it is a `fjcvtzs`. -/
theorem hasFlags_writes_iff {w : Word} {a : Address} {i : Instruction} (hd : decode w a = .ok i)
    (hw : i.writes.isAll = false) :
    i.writes.hasFlags = true ↔ SetsFlags i.mnemonic i.operands ∧ i.mnemonic ≠ some "fjcvtzs" := by
  obtain ⟨f, -, he, rfl⟩ := Encoding.decode_eq_ok hd
  rw [Form.setsFlags_place]
  exact he.flagsAgree.writes hw

/-- A move of `x1` to the flags writes them, and a conversion of the name `fjcvtzs` does not. -/
theorem hasFlags_writes_of_msr :
    (∃ i, decode 0xD51B4201 0 = .ok i ∧ i.writes.isAll = false ∧ i.writes.hasFlags = true) ∧
      ∃ i, decode 0x1E7E0020 0 = .ok i ∧ i.writes.isAll = false ∧ i.writes.hasFlags = false := by
  refine ⟨⟨_, rfl, rfl, ?_⟩, ⟨_, rfl, rfl, ?_⟩⟩
  · exact (hasFlags_writes_iff (w := 0xD51B4201) (a := 0) rfl rfl).mpr
      ⟨.inr ⟨rfl, by decide⟩, by decide⟩
  · rw [← Bool.not_eq_true, hasFlags_writes_iff (w := 0x1E7E0020) (a := 0) rfl rfl]
    exact fun h => h.2 rfl

/-- A `fjcvtzs` of `d1` into `w0` sets the flags by its name, and does not write them. -/
theorem flags_unwritten_by_fjcvtzs :
    ∃ i, decode 0x1E7E0020 0x1000 = .ok i ∧ i.writes.isAll = false ∧
      ¬(i.writes.hasFlags = true ↔ SetsFlags i.mnemonic i.operands) := by
  refine ⟨_, rfl, rfl, fun h => ?_⟩
  have hwritten := h.mpr (.inl (named_some.mpr (by decide)))
  exact absurd hwritten (by decide)

/-- A decoded instruction whose read registers can be listed reads the flags exactly if its name and operands
tell that it tests them, and every instruction with a condition reads them. -/
theorem hasFlags_reads_iff {w : Word} {a : Address} {i : Instruction} (hd : decode w a = .ok i) :
    (i.reads.isAll = false → (i.reads.hasFlags = true ↔ TestsFlags i.mnemonic i.operands)) ∧
      ∀ c, .condition c ∈ i.operands → i.reads.hasFlags = true := by
  obtain ⟨f, -, he, rfl⟩ := Encoding.decode_eq_ok hd
  refine ⟨fun hr => ?_, fun c hc => ?_⟩
  · rw [Form.testsFlags_place]
    exact he.flagsAgree.reads hr
  · rw [Form.mem_operands_place (by simp)] at hc
    exact he.flagsAgree.condition (List.any_eq_true.mpr ⟨_, hc, rfl⟩)

/-- A branch that is always taken does not read the flags, and a selection by the same condition does. -/
theorem hasFlags_reads_of_always :
    (∃ i, decode 0x5400004E 0 = .ok i ∧ i.mnemonic = some "b.al" ∧ i.reads.isAll = false ∧
      i.reads.hasFlags = false) ∧
      ∃ i, decode 0x9A82E020 0 = .ok i ∧ .condition .al ∈ i.operands ∧ i.reads.hasFlags = true := by
  refine ⟨⟨_, rfl, rfl, rfl, ?_⟩, ⟨_, rfl, by decide, ?_⟩⟩
  · rw [← Bool.not_eq_true, (hasFlags_reads_iff (w := 0x5400004E) (a := 0) rfl).1 rfl]
    exact fun h => absurd ((testsFlags_branch .al _).mp h) (by decide)
  · exact (hasFlags_reads_iff (w := 0x9A82E020) (a := 0) rfl).2 .al (by decide)

end A64
