import A64.Proofs.Effects

/-! The forms of general registers, branches and the system account for their operands. An alias leaves out
the zero register, which no set tracks, or a register that another operand names. -/

namespace A64.Encoding

open Form

variable {w : Word} {f : Form}

/-! Data processing with an immediate. -/

theorem AddressGeneration.accounts_form (e : AddressGeneration) : e.form.Accounts [] :=
  accounts_of_data [e.rd.gp true] rfl fun n => by simp [Touches, form]

theorem AddSubImmediate.accounts_form (e : AddSubImmediate) : e.form.Accounts [] := by
  have himm : e.immediate.roles = [] := by
    unfold immediate
    split <;> rfl
  simp only [form, spelling]
  split
  · next h =>
    have hresult : ∀ n, e.result.tracked? ≠ some n := by
      simp only [Bool.and_eq_true, beq_iff_eq] at h
      simp [result, h]
    exact accounts_of_data [e.source] (by simp [roles, spelled, himm]) fun n => by
      simp [Touches, hresult]
  split
  · exact accounts_of_data [e.result, e.source] rfl fun n => by simp [Touches, or_comm]
  · exact accounts_of_data [e.result, e.source] (by simp [roles, spelled, himm]) fun n => by
      simp [Touches, or_comm]

theorem LogicalImmediate.accounts_form (e : LogicalImmediate) : e.form.Accounts [] := by
  simp only [form, spelling]
  split
  · next h =>
    have hresult : ∀ n, e.result.tracked? ≠ some n := by simp [result, h, LogicalOp.setsFlags]
    exact accounts_of_data [e.source] rfl fun n => by simp [Touches, hresult]
  split
  · next h =>
    have hsource : ∀ n, e.source.tracked? ≠ some n := by simp [source, h]
    exact accounts_of_data [e.result] rfl fun n => by simp [Touches, hsource]
  · exact accounts_of_data [e.result, e.source] rfl fun n => by simp [Touches, or_comm]

theorem MoveWide.accounts_form (e : MoveWide) : e.form.Accounts [] := by
  refine accounts_of_data [e.rd.gp e.wide] ?_ fun n => ?_
  · simp only [roles, form, spelling]
    repeat' split
    all_goals rfl
  · simp only [Touches, form]
    split <;> simp

/-- Only a merge of the zero register leaves out its source, and an extension may narrow it. -/
theorem Bitfield.roles_form (e : Bitfield) :
    (e.rn = 31 ∧ e.form.roles = [(e.result, .data)]) ∨
      ∃ wide, e.form.roles = [(e.result, .data), (e.rn.gp wide, .data)] := by
  simp only [form, spelling]
  split
  · refine .inr ?_
    simp only [signedSpelling]
    repeat' split
    all_goals exact ⟨_, rfl⟩
  · simp only [mergeSpelling]
    split
    · split
      · next hrn => exact .inl ⟨hrn, rfl⟩
      · exact .inr ⟨_, rfl⟩
    · exact .inr ⟨_, rfl⟩
  · refine .inr ?_
    simp only [unsignedSpelling]
    repeat' split
    all_goals exact ⟨_, rfl⟩

theorem Bitfield.accounts_form (e : Bitfield) : e.form.Accounts [] := by
  -- Whether or not the result is read besides, the same registers are touched.
  have htouches (n : Nat) :
      e.form.Touches n ↔ e.result.tracked? = some n ∨ e.source.tracked? = some n := by
    simp only [Touches, form]
    split <;> simp [or_comm]
  rcases e.roles_form with ⟨hrn, hroles⟩ | ⟨wide, hroles⟩
  · exact accounts_of_data [e.result] hroles fun n => by simp [htouches, source, hrn]
  · exact accounts_of_data [e.result, e.rn.gp wide] hroles fun n => by simp [htouches, source]

theorem Extract.accounts_form (e : Extract) : e.form.Accounts [] := by
  simp only [form, spelling]
  split
  · next heq =>
    exact accounts_of_data [e.rd.gp e.wide, e.rn.gp e.wide] rfl fun n => by
      simp [Touches, heq, or_comm]
  · exact accounts_of_data [e.rd.gp e.wide, e.rn.gp e.wide, e.rm.gp e.wide] rfl fun n => by
      simp [Touches, or_comm, or_left_comm]

theorem ImmediateEncoding.accounts (h : ImmediateEncoding w f) : f.Accounts [] := by
  cases h with
  | addressGeneration => exact AddressGeneration.accounts_form _
  | addSub => exact AddSubImmediate.accounts_form _
  | logical => exact LogicalImmediate.accounts_form _
  | moveWide => exact MoveWide.accounts_form _
  | bitfield => exact Bitfield.accounts_form _
  | extract => exact Extract.accounts_form _

/-! Branches and system instructions. -/

theorem BranchImmediate.isAccounted_form (e : BranchImmediate) : e.form.IsAccounted w := by
  simp only [form]
  split
  · refine ⟨[30], accounts_of_data [] rfl fun n => ?_, .byName rfl⟩
    simp [Touches]
  · refine ⟨[], accounts_of_data [] rfl fun n => ?_, .nothing⟩
    simp [Touches]

theorem CompareBranch.accounts_form (e : CompareBranch) : e.form.Accounts [] :=
  accounts_of_data [e.rt.gp e.wide] rfl fun n => by simp [Touches, form]

theorem TestBranch.accounts_form (e : TestBranch) : e.form.Accounts [] :=
  accounts_of_data [e.tested] rfl fun n => by simp [Touches, form]

theorem ConditionalBranch.accounts_form (e : ConditionalBranch) : e.form.Accounts [] :=
  accounts_of_data [] rfl fun n => by simp [Touches, form]

namespace BranchRegister

theorem isAccounted_jump {link : Bool} {mnemonic : String}
    (h : link = true → implicitRegisters mnemonic = [30]) (sources : List Register) :
    (jump link mnemonic sources).IsAccounted w := by
  have hroles : (jump link mnemonic sources).roles = sources.map (·, .data) :=
    Operand.flatMap_roles_register sources
  cases link with
  | false =>
    refine ⟨[], accounts_of_data sources hroles fun n => ?_, .nothing⟩
    simp [Touches, jump]
  | true =>
    refine ⟨[30], accounts_of_data sources hroles fun n => ?_, .byName (h rfl)⟩
    simp [Touches, jump]

theorem isAccounted_unwind (mnemonic : String) : (unwind mnemonic).IsAccounted w := by
  refine ⟨List.range 32, accounts_of_data [] rfl fun n => ?_, .everything rfl⟩
  simp [Touches, unwind, Nat.lt_succ_iff]

theorem isAccounted_form (e : BranchRegister) : e.form.IsAccounted w := by
  cases e with
  | plain link => exact isAccounted_jump (by rintro rfl; rfl) _
  | authZero link key | auth link key => exact isAccounted_jump (by rintro rfl; cases key <;> rfl) _
  | ret rn =>
    simp only [form]
    split
    · next hrn =>
      refine ⟨[30], accounts_of_data [] rfl fun n => ?_, .byName rfl⟩
      simpa [Touches, hrn] using eq_comm
    · exact ⟨[], accounts_of_data [rn.gp true] rfl fun n => by simp [Touches], .nothing⟩
  | retAuth key =>
    refine ⟨[30, 31], accounts_of_data [] rfl fun n => ?_, .byName (by cases key <;> rfl)⟩
    simp [Touches, form]
  | exceptionReturn key => cases key <;> exact isAccounted_unwind _
  | debugReturn => exact isAccounted_unwind _

end BranchRegister

/-- Only an exception that is taken by code of another level touches registers. -/
theorem ExceptionCall.isAccounted_form (e : ExceptionCall) : e.form.IsAccounted w := by
  have hroles : e.form.roles = [] := by
    simp only [roles, form, spelled]
    split <;> rfl
  cases htraps : e.op.traps with
  | false =>
    refine ⟨[], accounts_of_data [] hroles fun n => ?_, .nothing⟩
    simp [Touches, form, htraps]
  | true =>
    refine ⟨List.range 32, accounts_of_data [] hroles fun n => ?_, .everything (by simp [form, htraps])⟩
    simp [Touches, form, htraps, Nat.lt_succ_iff]

theorem Hint.implicitRegisters_of_pointer? {n : Nat} {name : String} {withSp : Bool}
    (h : pointer? n = some (name, withSp)) :
    implicitRegisters name = if withSp then [30, 31] else [30] := by
  unfold pointer? at h
  split at h <;> cases h <;> rfl

theorem Hint.isAccounted_form (e : Hint) : e.form.IsAccounted w := by
  unfold form
  split
  · next name withSp hp =>
    refine ⟨_, accounts_of_data [] rfl fun n => ?_, .byName (implicitRegisters_of_pointer? hp)⟩
    cases withSp with
    | false => simp [Touches]
    | true => simpa [Touches] using Or.inl
  · have hquiet : ∀ op ∈ ((quiet? e.number.toNat).getD
        (spelled "hint" .hint [.count e.number.toNat])).operands, op.IsUntracked := by
      unfold quiet?
      split <;> simp [spelled, Operand.IsUntracked]
    exact (accounts_plain hquiet).isAccounted w

theorem Barrier.accounts_spelling {e : Barrier} {s : Spelling} (h : e.spelling = .ok s) :
    (plain s).Accounts [] := by
  have hdomain : (domainOperand e.domain).roles = [] := by
    unfold domainOperand
    split <;> rfl
  have hnumber : ∀ op ∈ numberUnlessSystem e.domain, op.roles = [] := by
    unfold numberUnlessSystem
    split <;> simp
  have hspelled (name : String) {operands : List Operand} (h : ∀ op ∈ operands, op.roles = []) :
      (plain (spelled name .barrier operands)).Accounts [] :=
    accounts_plain fun op hop => by simp [Operand.IsUntracked, h op hop]
  unfold spelling at h
  split at h
  case h_1 | h_2 | h_8 => simp at h
  case h_3 | h_6 =>
    cases h
    exact hspelled _ hnumber
  case h_4 =>
    cases h
    split
    · exact hspelled _ (by simp)
    · split
      · exact hspelled _ (by simp)
      · exact hspelled _ (by simp [hdomain])
  case h_5 =>
    cases h
    exact hspelled _ (by simp [hdomain])
  case h_7 =>
    split at h
    · cases h
      exact hspelled _ (by simp)
    · simp at h

theorem ProcessorState.accounts_form {e : ProcessorState} (h : e.form = .ok f) : f.Accounts [] := by
  unfold form at h
  split at h
  · cases h
    exact accounts_of_data [] rfl fun n => by simp [Touches]
  · cases h
    exact accounts_plain (by simp [spelled, Operand.IsUntracked])
  · simp at h

theorem SystemOperation.accounts_form (e : SystemOperation) : e.form.Accounts [] := by
  simp only [form]
  split
  · exact accounts_of_data [e.rt.gp true] rfl fun n => by simp [Touches]
  · split
    · next hrt => exact accounts_of_data [] rfl fun n => by simp [Touches, hrt]
    · exact accounts_of_data [e.rt.gp true] rfl fun n => by simp [Touches]

theorem SystemMove.accounts_form (e : SystemMove) : e.form.Accounts [] := by
  simp only [form]
  split <;> exact accounts_of_data [e.rt.gp true] rfl fun n => by simp [Touches]

theorem SystemEncoding.isAccounted (h : SystemEncoding w f) : f.IsAccounted w := by
  cases h with
  | hint => exact Hint.isAccounted_form _
  | barrier _ _ _ hs => exact (Barrier.accounts_spelling hs).isAccounted w
  | processorState _ _ hf => exact (ProcessorState.accounts_form hf).isAccounted w
  | operation => exact (SystemOperation.accounts_form _).isAccounted w
  | move => exact (SystemMove.accounts_form _).isAccounted w

theorem BranchEncoding.isAccounted (h : BranchEncoding w f) : f.IsAccounted w := by
  cases h with
  | immediate => exact BranchImmediate.isAccounted_form _
  | test => exact (TestBranch.accounts_form _).isAccounted w
  | compare => exact (CompareBranch.accounts_form _).isAccounted w
  | conditional => exact (ConditionalBranch.accounts_form _).isAccounted w
  | register => exact BranchRegister.isAccounted_form _
  | exception => exact ExceptionCall.isAccounted_form _
  | system _ _ _ _ hf => exact hf.isAccounted

/-! Loads and stores. -/

theorem ExclusiveAccess.accounts_access {mnemonic : String} {operation : Operation}
    {operands reads writes : List Register} (rn : RegisterField)
    (h : ∀ r, r ∈ operands ↔ r ∈ reads ∨ r ∈ writes) :
    (access mnemonic operation operands rn.base reads writes).Accounts [] := by
  refine accounts_of_base operands rn ?_ (by simp [access]) fun n => ?_
  · simp [roles, access, spelled, Operand.flatMap_roles_register]
  · simp only [Touches, access, RegisterSet.contains_of, h, or_and_right, exists_or]
    simp [or_comm, or_assoc]

theorem ExclusiveAccess.accounts_form (e : ExclusiveAccess) : e.form.Accounts [] := by
  cases e with
  | single load | pair load | ordered load => cases load <;> exact accounts_access _ (by simp [or_comm])
  | swap | swapPair => exact accounts_access _ (by simp)

theorem AtomicAccess.accounts_form (e : AtomicAccess) : e.form.Accounts [] := by
  cases e with
  | modify op acquire release size rs rt rn =>
    simp only [form]
    split
    · exact accounts_of_base [rs.gp (size = 3)] rn rfl (by simp) fun n => by simp [Touches]
    · exact accounts_of_base [rs.gp (size = 3), rt.gp (size = 3)] rn rfl (by simp) fun n => by
        simp [Touches, or_comm, or_left_comm]
  | swap acquire release size rs rt rn =>
    exact accounts_of_base [rs.gp (size = 3), rt.gp (size = 3)] rn rfl (by simp [form]) fun n => by
      simp [Touches, form, or_comm, or_left_comm]
  | loadAcquire size rt rn =>
    exact accounts_of_base [rt.gp (size = 3)] rn rfl (by simp [form]) fun n => by
      simp [Touches, form, or_comm]

theorem roles_prefetchOperand (n : RegisterField) : (prefetchOperand n).roles = [] := by
  simp only [prefetchOperand]
  split <;> rfl

theorem LiteralLoad.accounts_form (e : LiteralLoad) : e.form.Accounts [] := by
  simp only [form]
  split
  · exact accounts_of_data [] (by simp [roles, spelled, roles_prefetchOperand]) fun n => by
      simp [Touches]
  · exact accounts_of_data [e.view.register e.rt] rfl fun n => by simp [Touches]

theorem PairTransfer.accounts_form (e : PairTransfer) : e.form.Accounts [] := by
  refine accounts_of_base [e.view.register e.rt, e.view.register e.rt2] e.rn rfl (by simp [form]) ?_
  intro n
  simp only [Touches, form]
  cases e.load <;> cases e.mode.writesBack <;> simp [or_comm, or_left_comm]

namespace SingleTransfer

def dataRegisters (e : SingleTransfer) : List Register := if e.access = .prefetch then [] else [e.data]

theorem roles_dataOperand (e : SingleTransfer) :
    e.dataOperand.roles = e.dataRegisters.map (·, .data) := by
  unfold dataOperand dataRegisters
  split
  · exact roles_prefetchOperand e.rt
  · rfl

theorem touches_form (e : SingleTransfer) (n : Nat) :
    e.form.Touches n ↔ ((∃ r ∈ e.dataRegisters, r.tracked? = some n) ∨ e.rn.toNat = n) ∨
      ∃ x ∈ e.index, x.reg.tracked? = some n := by
  simp only [Touches, form, base, dataRegisters]
  cases e.access <;> cases e.mode.writesBack <;> simp [or_comm, or_left_comm, or_assoc]

theorem accounts_form (e : SingleTransfer) : e.form.Accounts [] := by
  cases hindex : e.index with
  | none =>
    refine accounts_of_base e.dataRegisters e.rn ?_ (by simp [form, base]) fun n => ?_
    · simp [roles, form, spelled, roles_dataOperand, MemoryRef.roles, memory, hindex, base]
    · simp [touches_form, hindex]
  | some x =>
    refine accounts_of_roles e.dataRegisters [(e.base, .base), (x.reg, .source)] ?_ ?_ ?_ fun n => ?_
    · simp [roles, form, spelled, roles_dataOperand, MemoryRef.roles, memory, hindex]
    · simp +contextual [form, hindex]
    · simpa [base] using e.rn.isGeneral_base
    · simp [touches_form, hindex, base, or_assoc]

end SingleTransfer

theorem MemoryEncoding.accounts (h : MemoryEncoding w f) : f.Accounts [] := by
  cases h with
  | exclusive => exact ExclusiveAccess.accounts_form _
  | literal => exact LiteralLoad.accounts_form _
  | pair => exact PairTransfer.accounts_form _
  | unsignedOffset | signedOffset | registerOffset => exact SingleTransfer.accounts_form _
  | atomic => exact AtomicAccess.accounts_form _

/-! Data processing on registers. -/

/-- An operation on two sources, of which the second may be shifted or extended. An alias shows only some
of the other registers, but all that sets track. -/
theorem accounts_of_sources {s : Spelling} {result first second : Register} {flags : Bool}
    {role : RegisterRole} (shown : List Register) (hrole : role ≠ .base)
    (hroles : s.operands.flatMap Operand.roles = shown.map (·, .data) ++ [(second, role)])
    (hshown : ∀ n, (∃ r ∈ shown, r.tracked? = some n) ↔
      result.tracked? = some n ∨ first.tracked? = some n) :
    Accounts ⟨s, .of [first, second], (RegisterSet.of [result]).withFlags flags, .none, none⟩ [] := by
  refine accounts_of_roles shown [(second, role)] hroles ?_ ?_ fun n => ?_
  · simp +contextual
  · simp [hrole]
  · simp [Touches, hshown, or_comm, or_assoc]

theorem LogicalRegister.accounts_form (e : LogicalRegister) : e.form.Accounts [] := by
  obtain ⟨role, hshifted, hrole⟩ := Operand.roles_ofShift e.second e.shift e.amount.toNat
  simp only [form, spelling]
  split
  · next h => exact accounts_of_sources [e.result] RegisterRole.noConfusion rfl (by simp [first, h])
  split
  · next h =>
    exact accounts_of_sources [e.result] hrole (by simp [spelled, shifted, hshifted]) (by simp [first, h])
  split
  · next h =>
    exact accounts_of_sources [e.first] hrole (by simp [spelled, shifted, hshifted]) (by simp [result, h])
  · exact accounts_of_sources [e.result, e.first] hrole (by simp [spelled, shifted, hshifted]) (by simp)

theorem AddSubShifted.accounts_form (e : AddSubShifted) : e.form.Accounts [] := by
  obtain ⟨role, hshifted, hrole⟩ := Operand.roles_ofShift e.second e.shift e.amount.toNat
  simp only [form, spelling, Bool.and_eq_true, beq_iff_eq]
  split
  · next h =>
    exact accounts_of_sources [e.first] hrole (by simp [spelled, shifted, hshifted]) (by simp [result, h])
  split
  · next h =>
    exact accounts_of_sources [e.result] hrole (by simp [spelled, shifted, hshifted]) (by simp [first, h])
  · exact accounts_of_sources [e.result, e.first] hrole (by simp [spelled, shifted, hshifted]) (by simp)

theorem AddSubExtended.accounts_form (e : AddSubExtended) : e.form.Accounts [] := by
  obtain ⟨role, hextended, hrole⟩ : ∃ role, e.extended.roles = [(e.second, role)] ∧ role ≠ .base := by
    unfold extended
    split
    · exact ⟨.data, rfl, by simp⟩
    · exact ⟨.source, rfl, by simp⟩
  simp only [form, spelling, Bool.and_eq_true, beq_iff_eq]
  split
  · next h =>
    exact accounts_of_sources [e.first] hrole (by simp [spelled, hextended]) (by simp [result, h])
  · exact accounts_of_sources [e.result, e.first] hrole (by simp [spelled, hextended]) (by simp)

theorem AddSubCarry.accounts_form (e : AddSubCarry) : e.form.Accounts [] := by
  simp only [form, spelling]
  split
  · next h =>
    simp only [Bool.and_eq_true, beq_iff_eq] at h
    exact accounts_of_data [e.result, e.second] rfl fun n => by simp [Touches, first, h, or_comm]
  · exact accounts_of_data [e.result, e.first, e.second] rfl fun n => by
      simp [Touches, or_comm, or_left_comm]

theorem ConditionalCompare.accounts_form (e : ConditionalCompare) : e.form.Accounts [] := by
  cases himm : e.immediate with
  | true =>
    exact accounts_of_data [e.first] (by simp [roles, form, spelled, himm]) fun n => by
      simp [Touches, form, himm]
  | false =>
    exact accounts_of_data [e.first, e.second] (by simp [roles, form, spelled, himm]) fun n => by
      simp [Touches, form, himm]

theorem ConditionalSelect.accounts_form (e : ConditionalSelect) : e.form.Accounts [] := by
  have hsource (name : String) (zero : Bool) (h : e.alias? = some (name, zero)) :
      e.rm = e.rn ∧ (zero = true → e.rn = 31) := by
    unfold alias? isAlias at h
    grind
  simp only [form, operands]
  split
  · next name h =>
    obtain ⟨hrm, hrn⟩ := hsource name true h
    exact accounts_of_data [e.result] rfl fun n => by simp [Touches, first, second, hrm, hrn rfl]
  · next name h =>
    obtain ⟨hrm, -⟩ := hsource name false h
    exact accounts_of_data [e.result, e.first] rfl fun n => by
      simp [Touches, first, second, hrm, or_comm]
  · exact accounts_of_data [e.result, e.first, e.second] rfl fun n => by
      simp [Touches, or_comm, or_left_comm]

theorem OneSource.accounts_form (e : OneSource) : e.form.Accounts [] :=
  accounts_of_data [e.rd.gp e.wide, e.rn.gp e.wide] rfl fun n => by simp [Touches, form, or_comm]

theorem TwoSourceEncoding.accounts (h : TwoSourceEncoding w f) : f.Accounts [] := by
  cases h with
  | checksum =>
    exact accounts_of_data [w.rd.gp false, w.rn.gp false, w.rm.gp (w.field 10 2 = 3)] rfl fun n => by
      simp [Touches, Checksum.form, Checksum.data, or_comm]
  | arithmetic =>
    exact accounts_of_data [w.rd.gp (w.bit 31), w.rn.gp (w.bit 31), w.rm.gp (w.bit 31)] rfl fun n => by
      simp [Touches, TwoSource.form, or_comm]

namespace ThreeSource

theorem touches_form (e : ThreeSource) (n : Nat) :
    e.form.Touches n ↔ (e.result.tracked? = some n ∨ e.first.tracked? = some n ∨
      e.second.tracked? = some n) ∨ e.summand.tracked? = some n := by
  simp [Touches, form, or_comm, or_left_comm, or_assoc]

/-- The summand is named unless it is the zero register or the product has none. -/
theorem roles_form (e : ThreeSource) :
    e.form.roles = ([e.result, e.first, e.second] ++
      if e.names.2 = none ∨ e.ra = 31 then [] else [e.summand]).map (·, .data) := by
  simp only [roles, form, spelling]
  rcases e.names with ⟨name, _ | short⟩
  · rfl
  · by_cases hra : e.ra = 31#5 <;> simp [spelled, hra]

theorem of_ofWord {e : ThreeSource} (h : ofWord w = .ok e) :
    w.field 29 2 = 0 ∧ ∃ kind, kind? (w.field 21 3) (w.bit 15) (w.bit 31) = some kind ∧
      e = ⟨w.bit 31, kind, w.bit 15, w.rm, w.ra, w.rn, w.rd⟩ := by
  simp only [ofWord, ne_eq, ite_not] at h
  split at h
  · next hz =>
    split at h
    · next kind hkind => exact ⟨hz, kind, hkind, (Except.ok.inj h).symm⟩
    · simp at h
  · simp at h

theorem isHighProduct_of_ofWord {e : ThreeSource} (hc : (w.field 25 3).toNat = 0b101)
    (hb : w.bit 28 = true) (ho : 8 ≤ (w.field 21 4).toNat) (h : ofWord w = .ok e)
    (hn : e.names.2 = none) : w.IsHighProduct := by
  obtain ⟨hz, kind, hkind, rfl⟩ := of_ofWord h
  have hhigh : (w.field 21 2).toNat = 0b10 ∧ w.bit 15 = false ∧ w.bit 31 = true := by
    unfold kind? at hkind
    unfold names at hn
    simp only [Word.toNat_field] at hkind ⊢
    grind
  have hzero : (w.field 29 2).toNat = 0 := by simp [hz]
  refine ⟨?_, hhigh.1, hhigh.2.1⟩
  simp only [Word.toNat_field, Word.bit_eq_true] at *
  omega

/-- Only the high half of a product reads its summand without naming it. -/
theorem isAccounted_form {e : ThreeSource} (hc : (w.field 25 3).toNat = 0b101)
    (hb : w.bit 28 = true) (ho : 8 ≤ (w.field 21 4).toNat) (h : ofWord w = .ok e) :
    e.form.IsAccounted w := by
  by_cases hra : e.ra = 31#5
  · refine ⟨[], accounts_of_data _ e.roles_form fun n => ?_, .nothing⟩
    simp [touches_form, summand, hra]
  by_cases hn : e.names.2 = none
  · have hw : w.IsHighProduct := isHighProduct_of_ofWord hc hb ho h hn
    have hword : e.ra = w.ra := by
      obtain ⟨-, kind, -, rfl⟩ := of_ofWord h
      rfl
    refine ⟨[w.ra.toNat], accounts_of_data _ e.roles_form fun n => ?_, .summand hw⟩
    simp [touches_form, summand, hra, hn, ← hword, eq_comm (a := n)]
  · refine ⟨[], accounts_of_data _ e.roles_form fun n => ?_, .nothing⟩
    simp [touches_form, hra, hn, or_assoc]

end ThreeSource

theorem RegisterEncoding.isAccounted (h : RegisterEncoding w f)
    (hc : EncodingClass.ofWord w = .dataRegister) : f.IsAccounted w := by
  cases h with
  | threeSource hb ho he =>
    exact ThreeSource.isAccounted_form (EncodingClass.field_of_dataRegister hc) hb ho he
  | carry => exact (AddSubCarry.accounts_form _).isAccounted w
  | conditionalCompare => exact (ConditionalCompare.accounts_form _).isAccounted w
  | conditionalSelect => exact (ConditionalSelect.accounts_form _).isAccounted w
  | oneSource => exact (OneSource.accounts_form _).isAccounted w
  | twoSource _ _ _ _ hf => exact hf.accounts.isAccounted w
  | logical => exact (LogicalRegister.accounts_form _).isAccounted w
  | extended => exact (AddSubExtended.accounts_form _).isAccounted w
  | shifted => exact (AddSubShifted.accounts_form _).isAccounted w

end A64.Encoding
