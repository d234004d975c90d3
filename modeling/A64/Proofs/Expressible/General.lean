import A64.Proofs.Expressible

/-! The forms of general registers, memory, branches and the system have a mnemonic, and only operands
that assembly can write wherever they stand. -/

namespace A64.Encoding

/-! Data processing with an immediate. -/

theorem AddressGeneration.isWritable_form (e : AddressGeneration) : e.form.IsWritable := by
  simp [Form.IsWritable, Form.IsFixed, form, spelled]

theorem AddSubImmediate.isWritable_form (e : AddSubImmediate) : e.form.IsWritable := by
  have hr : e.result.isValid = true := by
    unfold result
    split <;> simp
  have hi : e.immediate.IsFixed := by
    unfold immediate
    split <;> simp
  simp only [Form.IsWritable, Form.IsFixed, form, spelling]
  split
  · simp [spelled, source, hi]
  · split <;> simp [spelled, source, hr, hi]

theorem LogicalImmediate.isWritable_form (e : LogicalImmediate) : e.form.IsWritable := by
  have hr : e.result.isValid = true := by
    unfold result
    split <;> simp
  simp only [Form.IsWritable, Form.IsFixed, form, spelling]
  split
  · simp [spelled, source]
  · split <;> simp [spelled, source, hr]

theorem MoveWide.isWritable_form (e : MoveWide) : e.form.IsWritable := by
  simp only [Form.IsWritable, Form.IsFixed, form, spelling]
  split
  · split <;> simp [spelled]
  · simp [spelled]

theorem Bitfield.isWritable_form (e : Bitfield) : e.form.IsWritable := by
  simp only [Form.IsWritable, Form.IsFixed, form, spelling]
  split
  · unfold signedSpelling
    repeat' split
    all_goals simp [spelled, source, result, inserted, extracted]
  · unfold mergeSpelling
    repeat' split
    all_goals simp [spelled, source, result, inserted, extracted]
  · unfold unsignedSpelling
    repeat' split
    all_goals simp [spelled, source, result, inserted, extracted]

theorem Extract.isWritable_form (e : Extract) : e.form.IsWritable := by
  simp only [Form.IsWritable, Form.IsFixed, form, spelling]
  split <;> simp [spelled]

theorem ImmediateEncoding.isWritable {w : Word} {f : Form} (h : ImmediateEncoding w f) :
    f.IsWritable := by
  cases h with
  | addressGeneration => exact AddressGeneration.isWritable_form _
  | addSub => exact AddSubImmediate.isWritable_form _
  | logical => exact LogicalImmediate.isWritable_form _
  | moveWide => exact MoveWide.isWritable_form _
  | bitfield => exact Bitfield.isWritable_form _
  | extract => exact Extract.isWritable_form _

/-! Branches, exceptions and system instructions. -/

theorem BranchImmediate.isWritable_form (e : BranchImmediate) : e.form.IsWritable := by
  simp only [Form.IsWritable, Form.IsFixed, form]
  split <;> simp [spelled]

theorem CompareBranch.isWritable_form (e : CompareBranch) : e.form.IsWritable := by
  simp [Form.IsWritable, Form.IsFixed, form, spelled]

theorem TestBranch.isWritable_form (e : TestBranch) : e.form.IsWritable := by
  simp [Form.IsWritable, Form.IsFixed, form, spelled, tested]

theorem ConditionalBranch.isWritable_form (e : ConditionalBranch) : e.form.IsWritable := by
  simp [Form.IsWritable, Form.IsFixed, form, spelled]

theorem BranchRegister.isWritable_jump (link : Bool) (mnemonic : String) {sources : List Register}
    (h : ∀ r ∈ sources, r.isValid = true) : (jump link mnemonic sources).IsWritable := by
  simpa [Form.IsWritable, Form.IsFixed, jump, spelled] using h

theorem BranchRegister.isWritable_form (e : BranchRegister) : e.form.IsWritable := by
  cases e with
  | plain | authZero | auth => exact isWritable_jump _ _ (by simp)
  | ret rn =>
    simp only [Form.IsWritable, Form.IsFixed, form, spelled]
    split <;> simp
  | retAuth key | debugReturn => simp [Form.IsWritable, Form.IsFixed, form, unwind, spelled]
  | exceptionReturn key => cases key <;> simp [Form.IsWritable, Form.IsFixed, form, unwind, spelled]

theorem ExceptionCall.isWritable_form (e : ExceptionCall) : e.form.IsWritable := by
  simp only [Form.IsWritable, Form.IsFixed, form, spelled]
  split <;> simp

theorem Hint.isWritable_quiet {n : Nat} {s : Spelling} (h : quiet? n = some s) :
    (Form.plain s).IsWritable := by
  unfold quiet? at h
  split at h <;> cases h <;> simp [Form.IsWritable, Form.IsFixed, Form.plain, spelled]

theorem Hint.isWritable_form (e : Hint) : e.form.IsWritable := by
  unfold form
  split
  · simp [Form.IsWritable, Form.IsFixed, spelled]
  · cases h : quiet? e.number.toNat with
    | none => simp [Form.IsWritable, Form.IsFixed, Form.plain, spelled]
    | some s => exact isWritable_quiet h

theorem Barrier.isFixed_domainOperand (domain : BitVec 4) :
    (domainOperand domain).IsFixed := by
  unfold domainOperand
  split <;> simp

theorem Barrier.isWritable_spelling {e : Barrier} {s : Spelling} (h : e.spelling = .ok s) :
    (Form.plain s).IsWritable := by
  have hn (op : Operand) (hop : op ∈ numberUnlessSystem e.domain) : op.IsFixed := by
    unfold numberUnlessSystem at hop
    split at hop <;> simp_all
  have hd := isFixed_domainOperand e.domain
  have hw (mnemonic : String) (ops : List Operand) (hops : ∀ op ∈ ops, op.IsFixed) :
      (Form.plain (spelled mnemonic .barrier ops)).IsWritable := ⟨rfl, hops⟩
  unfold spelling at h
  split at h
  case h_1 | h_2 | h_8 => simp at h
  case h_3 | h_6 =>
    cases h
    exact hw _ _ hn
  case h_4 =>
    cases h
    split
    · exact hw _ _ (by simp)
    · split
      · exact hw _ _ (by simp)
      · exact hw _ _ (by simpa using hd)
  case h_5 =>
    cases h
    exact hw _ _ (by simpa using hd)
  case h_7 =>
    split at h
    · cases h
      exact hw _ _ (by simp)
    · simp at h

theorem ProcessorState.isWritable_form {e : ProcessorState} {f : Form} (h : e.form = .ok f) :
    f.IsWritable := by
  unfold form at h
  split at h
  case h_1 =>
    cases h
    simp [Form.IsWritable, Form.IsFixed, spelled]
  case h_2 field _ hfield =>
    cases h
    have hne : field ≠ "" := by
      unfold fieldName? at hfield
      split at hfield <;> cases hfield <;> simp
    simp [Form.IsWritable, Form.IsFixed, Form.plain, spelled, hne]
  case h_3 => simp at h

theorem SystemOperation.isWritable_form (e : SystemOperation) : e.form.IsWritable := by
  have hops : ∀ op ∈ e.operands, op.IsFixed := by
    simp [operands, e.crn.isLt, e.crm.isLt]
  simp only [Form.IsWritable, Form.IsFixed, form]
  split
  · simpa [spelled] using hops
  · refine ⟨rfl, fun op hop => ?_⟩
    rcases List.mem_append.mp hop with hop | hop
    · exact hops op hop
    · split at hop <;> simp_all

theorem SystemMove.isWritable_form (e : SystemMove) : e.form.IsWritable := by
  simp only [Form.IsWritable, Form.IsFixed, form]
  split <;> simp [spelled]

theorem SystemEncoding.isWritable {w : Word} {f : Form} (h : SystemEncoding w f) : f.IsWritable := by
  cases h with
  | hint => exact Hint.isWritable_form _
  | barrier _ _ _ hs => exact Barrier.isWritable_spelling hs
  | processorState _ _ hf => exact ProcessorState.isWritable_form hf
  | operation => exact SystemOperation.isWritable_form _
  | move => exact SystemMove.isWritable_form _

theorem BranchEncoding.isWritable {w : Word} {f : Form} (h : BranchEncoding w f) : f.IsWritable := by
  cases h with
  | immediate => exact BranchImmediate.isWritable_form _
  | test => exact TestBranch.isWritable_form _
  | compare => exact CompareBranch.isWritable_form _
  | conditional => exact ConditionalBranch.isWritable_form _
  | register => exact BranchRegister.isWritable_form _
  | exception => exact ExceptionCall.isWritable_form _
  | system _ _ _ _ hf => exact hf.isWritable

/-! Loads and stores. -/

theorem ExclusiveAccess.isWritable_access (mnemonic : String) (operation : Operation)
    {operands : List Register} {base : Register} (reads writes : List Register)
    (hops : ∀ r ∈ operands, r.isValid = true) (hbase : base.isValid = true) :
    (access mnemonic operation operands base reads writes).IsWritable := by
  refine ⟨rfl, fun op hop => ?_⟩
  rcases List.mem_append.mp hop with hop | hop
  · obtain ⟨r, hr, rfl⟩ := List.mem_map.mp hop
    exact Operand.isFixed_register.mpr (hops r hr)
  · simp_all

theorem ExclusiveAccess.isWritable_form (e : ExclusiveAccess) : e.form.IsWritable := by
  cases e with
  | single load | pair load | ordered load =>
    simp only [form]
    split <;> exact isWritable_access _ _ _ _ (by simp) (by simp)
  | swap => exact isWritable_access _ _ _ _ (by simp) (by simp)
  | swapPair => exact isWritable_access _ _ _ _ (by simp [successor]) (by simp)

theorem AtomicAccess.isWritable_form (e : AtomicAccess) : e.form.IsWritable := by
  cases e with
  | modify =>
    simp only [form]
    split <;> simp [Form.IsWritable, Form.IsFixed, spelled]
  | swap | loadAcquire => simp [Form.IsWritable, Form.IsFixed, form, spelled]

theorem isFixed_prefetchOperand (n : RegisterField) : (prefetchOperand n).IsFixed := by
  simp only [prefetchOperand]
  split
  · split <;> simp
  · simp

def DataView.IsStandard : DataView → Prop
  | general _ => True
  | float bits => Register.IsScalarWidth bits

theorem DataView.isValid_register {view : DataView} (h : view.IsStandard) (n : RegisterField) :
    (view.register n).isValid = true := by
  cases view with
  | general wide => exact n.isValid_gp wide
  | float bits => exact Register.isValid_float h n.toNat

theorem LiteralLoad.isStandard_view {w : Word} {e : LiteralLoad} (h : ofWord w = .ok e) :
    e.view.IsStandard := by
  unfold ofWord at h
  split at h
  · next hk =>
    cases h
    unfold kind? at hk
    split at hk <;> cases hk <;> simp [DataView.IsStandard, Register.IsScalarWidth]
  · simp at h

theorem LiteralLoad.isWritable_form {e : LiteralLoad} (h : e.view.IsStandard) : e.form.IsWritable := by
  have hd := DataView.isValid_register h e.rt
  simp only [Form.IsWritable, Form.IsFixed, form]
  split
  · simp [spelled, isFixed_prefetchOperand]
  · simp [spelled, hd]

theorem PairTransfer.isStandard_view {w : Word} {e : PairTransfer} (h : ofWord w = .ok e) :
    e.view.IsStandard := by
  obtain ⟨⟨view, scale, signed⟩, hk, rfl⟩ := map_eq_ok.mp h
  unfold kind at hk
  split at hk
  case h_5 =>
    split at hk
    · simp at hk
    · split at hk
      · cases hk
        trivial
      · simp at hk
  case h_7 => simp at hk
  all_goals cases hk; simp [DataView.IsStandard, Register.IsScalarWidth]

theorem PairTransfer.isWritable_form {e : PairTransfer} (h : e.view.IsStandard) :
    e.form.IsWritable := by
  have hd := DataView.isValid_register h
  simp [Form.IsWritable, Form.IsFixed, form, spelled, hd]

theorem Transfer.isStandard_view {w : Word} {t : Transfer} (h : ofWord w = .ok t) :
    t.view.IsStandard := by
  simp only [ofWord] at h
  split at h
  · next ht =>
    cases h
    split at ht
    · simp only [float?] at ht
      split at ht
      · split at ht <;> cases ht
        simp [DataView.IsStandard, Register.IsScalarWidth]
      · cases ht
        have hlt := (w.field 30 2).isLt
        exact Register.isScalarWidth_bytes (by omega)
    · unfold general? at ht
      split at ht <;> cases ht <;> trivial
  · simp at h

theorem SingleTransfer.isWritable_form {e : SingleTransfer} (hv : e.view.IsStandard)
    (hm : e.memory.IsExpressible) : e.form.IsWritable := by
  have hd : e.dataOperand.IsFixed := by
    unfold dataOperand
    split
    · exact isFixed_prefetchOperand e.rt
    · exact Operand.isFixed_register.mpr (DataView.isValid_register hv e.rt)
  simp [Form.IsWritable, Form.IsFixed, form, spelled, hd, hm]

theorem SingleTransfer.isExpressible_memory {e : SingleTransfer} (h : e.index = none) :
    e.memory.IsExpressible := by
  simp [MemoryRef.IsExpressible, memory, base, h]

theorem isWritable_unsignedOffset {w : Word} {e : SingleTransfer} (h : unsignedOffset w = .ok e) :
    e.form.IsWritable := by
  obtain ⟨t, ht, rfl⟩ := map_eq_ok.mp h
  exact SingleTransfer.isWritable_form (Transfer.isStandard_view ht)
    (SingleTransfer.isExpressible_memory rfl)

theorem isWritable_signedOffset {w : Word} {family : TransferFamily} {mode : IndexMode}
    {e : SingleTransfer} (h : signedOffset w family mode = .ok e) : e.form.IsWritable := by
  obtain ⟨t, ht, h⟩ := bind_eq_ok.mp h
  split at h
  · simp at h
  · split at h
    · simp at h
    · cases h
      exact SingleTransfer.isWritable_form (Transfer.isStandard_view ht)
        (SingleTransfer.isExpressible_memory rfl)

theorem isWritable_registerOffset {w : Word} {e : SingleTransfer} (h : registerOffset w = .ok e) :
    e.form.IsWritable := by
  obtain ⟨t, ht, h⟩ := bind_eq_ok.mp h
  simp only at h
  split at h
  · cases h
    refine SingleTransfer.isWritable_form (Transfer.isStandard_view ht) ?_
    simp [MemoryRef.IsExpressible, SingleTransfer.memory, SingleTransfer.base]
  · simp at h

theorem MemoryEncoding.isWritable {w : Word} {f : Form} (h : MemoryEncoding w f) : f.IsWritable := by
  cases h with
  | exclusive => exact ExclusiveAccess.isWritable_form _
  | literal _ _ he => exact LiteralLoad.isWritable_form (LiteralLoad.isStandard_view he)
  | pair _ he => exact PairTransfer.isWritable_form (PairTransfer.isStandard_view he)
  | unsignedOffset _ _ he => exact isWritable_unsignedOffset he
  | signedOffset _ _ _ he => exact isWritable_signedOffset he
  | registerOffset _ _ _ _ he => exact isWritable_registerOffset he
  | atomic => exact AtomicAccess.isWritable_form _

/-! Data processing on registers. -/

theorem ThreeSource.isWritable_form (e : ThreeSource) : e.form.IsWritable := by
  simp only [Form.IsWritable, Form.IsFixed, form, spelling]
  split
  · simp [spelled, result, first, second]
  · split <;> simp [spelled, result, first, second, summand]

theorem AddSubCarry.isWritable_form (e : AddSubCarry) : e.form.IsWritable := by
  simp only [Form.IsWritable, Form.IsFixed, form, spelling]
  split <;> simp [spelled, result, first, second]

theorem ConditionalCompare.isWritable_form (e : ConditionalCompare) : e.form.IsWritable := by
  cases hi : e.immediate <;> simp [Form.IsWritable, Form.IsFixed, form, spelled, first, second, hi]

theorem ConditionalSelect.isWritable_form (e : ConditionalSelect) : e.form.IsWritable := by
  simp only [Form.IsWritable, Form.IsFixed, form, spelled, operands]
  split <;> simp [result, first, second]

theorem OneSource.isWritable_form (e : OneSource) : e.form.IsWritable := by
  simp [Form.IsWritable, Form.IsFixed, form, spelled]

theorem TwoSourceEncoding.isWritable {w : Word} {f : Form} (h : TwoSourceEncoding w f) :
    f.IsWritable := by
  cases h with
  | checksum => simp [Form.IsWritable, Form.IsFixed, Checksum.form, Checksum.data, spelled]
  | arithmetic => simp [Form.IsWritable, Form.IsFixed, TwoSource.form, spelled]

theorem LogicalRegister.isWritable_form (e : LogicalRegister) : e.form.IsWritable := by
  simp only [Form.IsWritable, Form.IsFixed, form, spelling]
  repeat' split
  all_goals simp [spelled, result, first, second, shifted]

theorem AddSubExtended.isWritable_form (e : AddSubExtended) : e.form.IsWritable := by
  have hr : e.result.isValid = true := by
    unfold result
    split <;> simp
  have hx : e.extended.IsFixed := by
    unfold extended
    split <;> simp [second]
  simp only [Form.IsWritable, Form.IsFixed, form, spelling]
  split <;> simp [spelled, hr, first, hx]

theorem AddSubShifted.isWritable_form (e : AddSubShifted) : e.form.IsWritable := by
  simp only [Form.IsWritable, Form.IsFixed, form, spelling]
  repeat' split
  all_goals simp [spelled, result, first, second, shifted]

theorem RegisterEncoding.isWritable {w : Word} {f : Form} (h : RegisterEncoding w f) :
    f.IsWritable := by
  cases h with
  | threeSource => exact ThreeSource.isWritable_form _
  | carry => exact AddSubCarry.isWritable_form _
  | conditionalCompare => exact ConditionalCompare.isWritable_form _
  | conditionalSelect => exact ConditionalSelect.isWritable_form _
  | oneSource => exact OneSource.isWritable_form _
  | twoSource _ _ _ _ hf => exact hf.isWritable
  | logical => exact LogicalRegister.isWritable_form _
  | extended => exact AddSubExtended.isWritable_form _
  | shifted => exact AddSubShifted.isWritable_form _

end A64.Encoding
