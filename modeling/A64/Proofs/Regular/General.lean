import A64.Proofs.Regular

/-! The forms of general registers, memory and the system are regular. Sums, differences and bitwise
operations have a name for each choice of setting the flags, comparisons always set them, and a condition
tests them; nearly all other names are quiet. -/

namespace A64.Encoding

open Form

variable {w : Word} {f : Form}

/-! Data processing with an immediate. -/

namespace Arithmetic

theorem tellsFlags_name (e : Arithmetic) : TellsFlagsOnly e.name false e.setFlags := by
  obtain ⟨wide, subtract, setFlags⟩ := e
  decide +revert

theorem tellsFlags_compareName (e : Arithmetic) : TellsFlagsOnly e.compareName false true := by
  obtain ⟨wide, subtract, setFlags⟩ := e
  decide +revert

theorem tellsFlags_negateName (e : Arithmetic) : TellsFlagsOnly e.negateName false e.setFlags := by
  obtain ⟨wide, subtract, setFlags⟩ := e
  decide +revert

theorem tellsFlags_carryName (e : Arithmetic) : TellsFlagsOnly e.carryName true e.setFlags := by
  obtain ⟨wide, subtract, setFlags⟩ := e
  decide +revert

theorem tellsFlags_negateCarryName (e : Arithmetic) : TellsFlagsOnly e.negateCarryName true e.setFlags := by
  obtain ⟨wide, subtract, setFlags⟩ := e
  decide +revert

theorem operation_straight (e : Arithmetic) : e.operation ∉ leavingOperations := by
  unfold operation
  split <;> decide

end Arithmetic

theorem isRegular_of_setFlags {name : String} {operation : Operation} {operands : List Operand}
    {sources results : List Register} {sets : Bool}
    (h : TellsFlagsOnly name false sets) (ho : operation ∉ leavingOperations)
    (hc : operands.any Operand.isCondition = false) :
    Form.IsRegular ⟨spelled name operation operands, .of sources, (RegisterSet.of results).withFlags sets,
      .none, none⟩ :=
  isRegular_of_tellsFlags (by simpa using h) ho (by simp [hc]) (by simp) (by simp)

theorem AddressGeneration.isRegular_form (e : AddressGeneration) : e.form.IsRegular := by
  have hname : (if e.page then "adrp" else "adr") ∉ leavingNames ∧
      TellsFlags (if e.page then "adrp" else "adr") false false := by
    split <;> decide
  constructor
  case straight =>
    have hoperation : .loadAddress ∉ leavingOperations := by decide
    exact ⟨named_some.not.mpr hname.1, hoperation, rfl, by simp [form], by simp [form]⟩
  case flags => exact flagsAgree_of_tellsFlags rfl (by simpa [form] using hname.2) (by simp [form, spelled])
  case relative => exact fun hr => by simp [form] at hr

theorem AddSubImmediate.isRegular_form (e : AddSubImmediate) : e.form.IsRegular := by
  have himm : e.immediate.isCondition = false := by
    unfold immediate
    split <;> rfl
  simp only [form, spelling]
  split
  · next h =>
    have hset : e.setFlags = true := by simp_all
    rw [hset]
    exact isRegular_of_setFlags e.tellsFlags_compareName (by decide) (by simp [himm])
  split
  · next h =>
    have hset : e.setFlags = false := by simp_all [isMove]
    rw [hset]
    exact isRegular_of_setFlags (by decide) (by decide) rfl
  · exact isRegular_of_setFlags e.tellsFlags_name e.operation_straight
      (by simp [himm])

namespace LogicalOp

theorem tellsFlags_name (op : LogicalOp) : TellsFlagsOnly op.name false op.setsFlags := by
  cases op <;> decide

theorem tellsFlags_invertedName (op : LogicalOp) : TellsFlagsOnly op.invertedName false op.setsFlags := by
  cases op <;> decide

theorem operation_straight (op : LogicalOp) : op.operation ∉ leavingOperations := by
  cases op <;> decide

end LogicalOp

theorem LogicalImmediate.isRegular_form (e : LogicalImmediate) : e.form.IsRegular := by
  simp only [form, spelling]
  split
  · next h =>
    rw [h.1]
    exact isRegular_of_setFlags (by decide) (by decide) rfl
  split
  · next h =>
    rw [h.1]
    exact isRegular_of_setFlags (by decide) (by decide) rfl
  · exact isRegular_of_setFlags e.op.tellsFlags_name e.op.operation_straight rfl

theorem MoveWide.isRegular_form (e : MoveWide) : e.form.IsRegular := by
  have hreads : (if e.op = .movk then RegisterSet.of [e.rd.gp e.wide] else .empty).hasFlags = false := by
    split <;> simp
  simp only [form, spelling]
  split
  · exact isRegular_of_quiet (by decide) (by decide) (by split <;> rfl) hreads (by simp)
  · exact isRegular_of_quiet (by cases e.op <;> decide) (by decide) rfl hreads (by simp)

theorem Bitfield.isRegular_form (e : Bitfield) : e.form.IsRegular := by
  simp only [form, spelling]
  split
  · simp only [signedSpelling]
    repeat' split
    all_goals exact isRegular_of_registers _ _ (by decide) (by decide) rfl
  · simp only [mergeSpelling]
    repeat' split
    all_goals exact isRegular_of_registers _ _ (by decide) (by decide) rfl
  · simp only [unsignedSpelling]
    repeat' split
    all_goals exact isRegular_of_registers _ _ (by decide) (by decide) rfl

theorem Extract.isRegular_form (e : Extract) : e.form.IsRegular := by
  simp only [form, spelling]
  split <;> exact isRegular_of_registers _ _ (by decide) (by decide) rfl

theorem ImmediateEncoding.isRegular (h : ImmediateEncoding w f) : f.IsRegular := by
  cases h with
  | addressGeneration => exact AddressGeneration.isRegular_form _
  | addSub => exact AddSubImmediate.isRegular_form _
  | logical => exact LogicalImmediate.isRegular_form _
  | moveWide => exact MoveWide.isRegular_form _
  | bitfield => exact Bitfield.isRegular_form _
  | extract => exact Extract.isRegular_form _

/-! System instructions. -/

theorem Hint.isRegular_form (e : Hint) : e.form.IsRegular := by
  unfold form
  split
  · next name withSp hp =>
    have hname : name ∉ tellingNames := by
      unfold pointer? at hp
      split at hp <;> cases hp <;> decide
    exact isRegular_of_quiet hname (by decide) rfl (by simp) (by simp)
  · unfold quiet?
    split <;> exact isRegular_plain (by decide) (by decide) rfl

theorem Barrier.isRegular_spelling {e : Barrier} {s : Spelling} (h : e.spelling = .ok s) :
    (plain s).IsRegular := by
  have hdomain : (domainOperand e.domain).isCondition = false := by
    unfold domainOperand
    split <;> rfl
  have hnumber : (numberUnlessSystem e.domain).any Operand.isCondition = false := by
    unfold numberUnlessSystem
    split <;> rfl
  unfold spelling at h
  split at h
  case h_1 | h_2 | h_8 => simp at h
  case h_3 | h_6 =>
    cases h
    exact isRegular_plain (by decide) (by decide) hnumber
  case h_4 =>
    cases h
    split
    · exact isRegular_plain (by decide) (by decide) rfl
    · split
      · exact isRegular_plain (by decide) (by decide) rfl
      · exact isRegular_plain (by decide) (by decide) (by simp [hdomain])
  case h_5 =>
    cases h
    exact isRegular_plain (by decide) (by decide) (by simp [hdomain])
  case h_7 =>
    split at h
    · cases h
      exact isRegular_plain (by decide) (by decide) rfl
    · simp at h

theorem SystemOperation.isRegular_form (e : SystemOperation) : e.form.IsRegular := by
  simp only [form]
  split
  · exact isRegular_of_quiet (by decide) (by decide) rfl (by simp) (by simp)
  · exact isRegular_of_quiet (by decide) (by decide) (by split <;> rfl) (by simp) (by simp)

/-- Instructions on the flags test and set them, and a write to another field of the processor state is a
`msr` that names no system register. -/
theorem ProcessorState.isRegular_form {e : ProcessorState} (h : e.form = .ok f) : f.IsRegular := by
  unfold form at h
  split at h
  · next hn =>
    cases h
    unfold flagName? at hn
    split at hn
    case h_4 => cases hn
    all_goals
      cases hn
      exact isRegular_of_tellsFlags (by decide) (by decide) (by simp) rfl rfl
  · cases h
    exact isRegular_of_move (by decide) (by decide) rfl (by simp) (by simp) rfl rfl
  · simp at h

theorem SystemMove.isRegular_form (e : SystemMove) : e.form.IsRegular := by
  simp only [form]
  split
  · exact isRegular_of_move (by decide) (by decide) rfl (by simp [eq_comm]) (by simp) (by simp) (by simp)
  · exact isRegular_of_move (by decide) (by decide) rfl (by simp) (by simp [eq_comm]) (by simp) (by simp)

theorem SystemEncoding.isRegular (h : SystemEncoding w f) : f.IsRegular := by
  cases h with
  | hint => exact Hint.isRegular_form _
  | barrier _ _ _ hs => exact Barrier.isRegular_spelling hs
  | processorState _ _ hf => exact ProcessorState.isRegular_form hf
  | operation => exact SystemOperation.isRegular_form _
  | move => exact SystemMove.isRegular_form _

/-! Loads and stores. -/

theorem ExclusiveAccess.isRegular_access {mnemonic : String} {operation : Operation}
    {operands reads writes : List Register} {base : Register} (hn : mnemonic ∉ tellingNames)
    (ho : operation ∉ leavingOperations) :
    (access mnemonic operation operands base reads writes).IsRegular := by
  refine isRegular_of_registers _ _ hn ho ?_
  rw [List.any_append, Operand.any_isCondition_register]
  rfl

theorem ExclusiveAccess.isRegular_form (e : ExclusiveAccess) : e.form.IsRegular := by
  cases e with
  | single load fenced =>
    cases load <;> cases fenced <;>
      exact isRegular_access (not_mem_tellingNames_of_stem (by decide) _) (by decide)
  | pair load fenced => cases load <;> cases fenced <;> exact isRegular_access (by decide) (by decide)
  | ordered load strict =>
    cases load <;> cases strict <;>
      exact isRegular_access (not_mem_tellingNames_of_stem (by decide) _) (by decide)
  | swap =>
    refine isRegular_access ?_ (by decide)
    rw [String.append_assoc]
    exact not_mem_tellingNames_of_stem (by decide) _
  | swapPair => exact isRegular_access (not_mem_tellingNames_of_stem (by decide) _) (by decide)

theorem AtomicAccess.isRegular_form (e : AtomicAccess) : e.form.IsRegular := by
  cases e with
  | modify op =>
    have hop : op.operation ∉ leavingOperations := by cases op <;> decide
    simp only [form, String.append_assoc]
    split
    · exact isRegular_of_quiet (not_mem_tellingNames_of_stem (by decide) _) hop rfl (by simp) (by simp)
    · exact isRegular_of_registers _ _ (not_mem_tellingNames_of_stem (by decide) _) hop rfl
  | swap =>
    simp only [form, String.append_assoc]
    exact isRegular_of_registers _ _ (not_mem_tellingNames_of_stem (by decide) _) (by decide) rfl
  | loadAcquire =>
    exact isRegular_of_registers _ _ (not_mem_tellingNames_of_stem (by decide) _) (by decide) rfl

theorem isCondition_prefetchOperand (n : RegisterField) : (prefetchOperand n).isCondition = false := by
  simp only [prefetchOperand]
  split <;> rfl

theorem LiteralLoad.mnemonic_mem {e : LiteralLoad} (h : ofWord w = .ok e) :
    e.mnemonic ∈ ["ldr", "ldrsw", "prfm"] := by
  unfold ofWord at h
  split at h
  · next hk =>
    cases h
    unfold kind? at hk
    split at hk <;> cases hk <;> simp
  · simp at h

theorem LiteralLoad.isRegular_form {e : LiteralLoad} (h : ofWord w = .ok e) : e.form.IsRegular := by
  have hquiet : ∀ name ∈ ["ldr", "ldrsw", "prfm"], name ∉ tellingNames := by decide
  have hname := hquiet _ (mnemonic_mem h)
  simp only [form]
  split
  · exact isRegular_of_quiet hname (by decide) (by simp [isCondition_prefetchOperand]) (by simp) (by simp)
  · exact isRegular_of_quiet hname (by decide) rfl (by simp) (by simp)

theorem PairTransfer.isRegular_form (e : PairTransfer) : e.form.IsRegular := by
  have hname : e.mnemonic ∉ tellingNames := by
    unfold mnemonic
    split <;> decide
  exact isRegular_of_registers _ _ hname (by split <;> decide) rfl

theorem SingleTransfer.isRegular_form (e : SingleTransfer) : e.form.IsRegular := by
  have hname : e.mnemonic e.family ∉ tellingNames := by
    apply not_mem_tellingNames_of_stem
    unfold Transfer.stem
    split <;> decide
  have hoperation : e.operation ∉ leavingOperations := by
    unfold Transfer.operation
    split <;> decide
  have hdata : e.dataOperand.isCondition = false := by
    unfold dataOperand
    split
    · exact isCondition_prefetchOperand e.rt
    · rfl
  exact isRegular_of_registers _ _ hname hoperation (by simp [hdata])

theorem MemoryEncoding.isRegular (h : MemoryEncoding w f) : f.IsRegular := by
  cases h with
  | exclusive => exact ExclusiveAccess.isRegular_form _
  | literal _ _ he => exact LiteralLoad.isRegular_form he
  | pair => exact PairTransfer.isRegular_form _
  | unsignedOffset | signedOffset | registerOffset => exact SingleTransfer.isRegular_form _
  | atomic => exact AtomicAccess.isRegular_form _

/-! Data processing on registers. -/

theorem Operand.isCondition_ofShift (r : Register) (shift : Shift) (amount : Nat) :
    (Operand.ofShift r shift amount).isCondition = false := by
  unfold Operand.ofShift
  split <;> rfl

theorem LogicalRegister.isRegular_form (e : LogicalRegister) : e.form.IsRegular := by
  have hshifted : e.shifted.isCondition = false := Operand.isCondition_ofShift _ _ _
  have hname : TellsFlagsOnly e.name false e.op.setsFlags := by
    unfold name
    split
    · exact e.op.tellsFlags_invertedName
    · exact e.op.tellsFlags_name
  simp only [form, spelling]
  split
  · next h =>
    rw [h.1]
    exact isRegular_of_setFlags (by decide) (by decide) rfl
  split
  · next h =>
    rw [h.1]
    exact isRegular_of_setFlags (by decide) (by decide) (by simp [hshifted])
  split
  · next h =>
    rw [h.1]
    exact isRegular_of_setFlags (by decide) (by decide) (by simp [hshifted])
  · exact isRegular_of_setFlags hname e.op.operation_straight (by simp [hshifted])

theorem AddSubShifted.isRegular_form (e : AddSubShifted) : e.form.IsRegular := by
  have hshifted : e.shifted.isCondition = false := Operand.isCondition_ofShift _ _ _
  simp only [form, spelling]
  split
  · next h =>
    have hset : e.setFlags = true := by simp_all
    rw [hset]
    exact isRegular_of_setFlags e.tellsFlags_compareName (by decide) (by simp [hshifted])
  split
  · exact isRegular_of_setFlags e.tellsFlags_negateName (by decide) (by simp [hshifted])
  · exact isRegular_of_setFlags e.tellsFlags_name e.operation_straight (by simp [hshifted])

theorem AddSubExtended.isRegular_form (e : AddSubExtended) : e.form.IsRegular := by
  have hextended : e.extended.isCondition = false := by
    unfold extended
    split <;> rfl
  simp only [form, spelling]
  split
  · next h =>
    have hset : e.setFlags = true := by simp_all
    rw [hset]
    exact isRegular_of_setFlags e.tellsFlags_compareName (by decide) (by simp [hextended])
  · exact isRegular_of_setFlags e.tellsFlags_name e.operation_straight (by simp [hextended])

theorem AddSubCarry.isRegular_form (e : AddSubCarry) : e.form.IsRegular := by
  have hcarry {name : String} {operation : Operation} {operands : List Operand}
      (h : TellsFlagsOnly name true e.setFlags) (ho : operation ∉ leavingOperations) :
      Form.IsRegular { e.form with toSpelling := spelled name operation operands } :=
    isRegular_of_tellsFlags (by simpa [form] using h) ho (by simp [form]) (by simp [form])
      (by simp [form])
  simp only [form, spelling]
  split
  · exact hcarry e.tellsFlags_negateCarryName (by decide)
  · exact hcarry e.tellsFlags_carryName e.operation_straight

theorem ConditionalCompare.isRegular_form (e : ConditionalCompare) : e.form.IsRegular := by
  have hname : TellsFlagsOnly (if e.negative then "ccmn" else "ccmp") true true := by
    split <;> decide
  exact isRegular_of_tellsFlags (by simpa using hname) (by decide) (by simp) (by simp) rfl

theorem ConditionalSelect.alias?_mem {e : ConditionalSelect} {name : String} {zero : Bool}
    (h : e.alias? = some (name, zero)) : name ∈ ["cset", "csetm", "cinc", "cinv", "cneg"] := by
  unfold alias? at h
  grind

theorem ConditionalSelect.isRegular_form (e : ConditionalSelect) : e.form.IsRegular := by
  have hname : TellsFlagsOnly ((e.alias?.map Prod.fst).getD e.op.name) true false := by
    cases h : e.alias? with
    | none => cases e.op <;> decide
    | some p =>
      have hquiet : ∀ name ∈ ["cset", "csetm", "cinc", "cinv", "cneg"],
          TellsFlagsOnly name true false := by decide
      exact hquiet _ (alias?_mem h)
  exact isRegular_of_tellsFlags (by simpa using hname) (by decide) (by simp) (by simp) (by simp)

theorem OneSource.isRegular_form {e : OneSource} (h : ofWord w = .ok e) : e.form.IsRegular := by
  have hname : e.mnemonic ∉ tellingNames := by
    simp only [ofWord] at h
    split at h
    · simp at h
    split at h
    · simp at h
    · obtain ⟨name, hn, rfl⟩ := map_eq_ok.mp h
      unfold OneSource.name at hn
      split at hn <;> simp_all
      all_goals
        subst hn
        decide
  exact isRegular_of_registers _ _ hname (by decide) rfl

theorem TwoSourceEncoding.isRegular (h : TwoSourceEncoding w f) : f.IsRegular := by
  cases h with
  | checksum =>
    simp only [Checksum.form, String.append_assoc]
    exact isRegular_of_registers _ _ (not_mem_tellingNames_of_stem (by decide) _) (by decide) rfl
  | @arithmetic op =>
    have hop : op.name ∉ tellingNames ∧ op.operation ∉ leavingOperations := by cases op <;> decide
    exact isRegular_of_registers _ _ hop.1 hop.2 rfl

theorem ThreeSource.isRegular_form (e : ThreeSource) : e.form.IsRegular := by
  have hquiet : e.names.1 ∉ tellingNames ∧ ∀ short ∈ e.names.2, short ∉ tellingNames := by
    unfold names
    split <;> decide
  simp only [form, spelling]
  split
  · next hnames =>
    rw [hnames] at hquiet
    exact isRegular_of_registers _ _ hquiet.1 (by decide) rfl
  · next short hnames =>
    rw [hnames] at hquiet
    split
    · exact isRegular_of_registers _ _ (hquiet.2 short rfl) (by decide) rfl
    · exact isRegular_of_registers _ _ hquiet.1 (by decide) rfl

theorem RegisterEncoding.isRegular (h : RegisterEncoding w f) : f.IsRegular := by
  cases h with
  | threeSource => exact ThreeSource.isRegular_form _
  | carry => exact AddSubCarry.isRegular_form _
  | conditionalCompare => exact ConditionalCompare.isRegular_form _
  | conditionalSelect => exact ConditionalSelect.isRegular_form _
  | oneSource _ _ _ he => exact OneSource.isRegular_form he
  | twoSource _ _ _ _ hf => exact hf.isRegular
  | logical => exact LogicalRegister.isRegular_form _
  | extended => exact AddSubExtended.isRegular_form _
  | shifted => exact AddSubShifted.isRegular_form _

end A64.Encoding
