import A64.Proofs.Regular

/-! The forms of floating point and vectors are regular. Vectors borrow many names from general registers,
but none of those that tell of the flags; only comparisons and selections of scalars touch them. -/

namespace A64.Encoding

open Form

variable {w : Word} {f : Form}

@[simp] theorem isCondition_scalar (n : RegisterField) (width : Nat) :
    (n.scalar width).isCondition = false := rfl

/-! Names from tables. -/

theorem cipherName?_quiet : ∀ opcode, ∀ name ∈ cipherName? opcode, name ∉ tellingNames := by decide

theorem hashThree?_quiet : ∀ opcode, ∀ p ∈ hashThree? opcode, p.1 ∉ tellingNames := by decide

theorem hashTwo?_quiet : ∀ opcode, ∀ p ∈ hashTwo? opcode, p.1 ∉ tellingNames := by decide

theorem floatBinary?_quiet : ∀ opcode, ∀ name ∈ floatBinary? opcode, name ∉ tellingNames := by decide

theorem fusedName_quiet : ∀ negate subtract, fusedName negate subtract ∉ tellingNames := by decide

theorem bitwiseName_quiet : ∀ unsigned size, bitwiseName unsigned size ∉ tellingNames := by decide

theorem floatThreeSameName?_quiet :
    ∀ u a opcode, ∀ name ∈ floatThreeSameName? u a opcode, name ∉ tellingNames := by
  decide +kernel

theorem integerThreeSameName?_quiet :
    ∀ opcode unsigned, ∀ name ∈ integerThreeSameName? opcode unsigned, name ∉ tellingNames := by
  decide +kernel

theorem floatReductionName?_quiet :
    ∀ u minimum opcode, ∀ name ∈ floatReductionName? u minimum opcode, name ∉ tellingNames := by
  decide +kernel

theorem integerReduction?_quiet :
    ∀ u opcode, ∀ p ∈ integerReduction? u opcode, p.1 ∉ tellingNames := by decide +kernel

theorem VectorUnary.table_quiet : ∀ e ∈ table, e.mnemonic ∉ tellingNames := by decide +kernel

theorem laneMoveName?_quiet {signed full : Bool} {sizeLog : Nat} {name : String}
    (h : laneMoveName? signed full sizeLog = some name) : name ∉ tellingNames := by
  unfold laneMoveName? at h
  split at h <;> cases h <;> decide

theorem floatUnary?_quiet {opcode : BitVec 6} {name : String} {operation : Operation}
    (h : floatUnary? opcode = some (.keep name operation)) :
    name ∉ tellingNames ∧ operation ∉ leavingOperations := by
  unfold floatUnary? at h
  split at h <;> cases h <;> decide

theorem fixedConversion_quiet {mode : BitVec 2} {opcode : BitVec 3} {op : ConversionOp}
    (h : fixedConversion mode opcode = .ok op) : op.mnemonic ∉ tellingNames := by
  unfold fixedConversion at h
  split at h
  case h_5 => simp at h
  all_goals
    cases h
    decide

theorem integerConversion_quiet {mode : BitVec 2} {opcode : BitVec 3} {wide : Bool} {width : Nat}
    {op : ConversionOp} (h : integerConversion mode opcode wide width = .ok op) :
    op.mnemonic = "fjcvtzs" ∨ op.mnemonic ∉ tellingNames := by
  unfold integerConversion at h
  split at h
  case h_13 =>
    split at h
    · simp at h
    · cases h
      exact .inr (show "fmov" ∉ tellingNames by decide)
  case h_14 =>
    split at h
    · cases h
      exact .inl rfl
    · simp at h
  case h_15 => simp at h
  all_goals
    cases h
    exact .inr (by decide)

theorem HashView.isCondition_operand (view : HashView) (n : RegisterField) :
    (view.operand n).isCondition = false := by
  cases view <;> rfl

theorem CryptoEncoding.isRegular (h : CryptoEncoding w f) : f.IsRegular := by
  cases h with
  | cipher hn => exact isRegular_plain (cipherName?_quiet _ _ hn) (by decide) rfl
  | hashThree hn =>
    refine isRegular_plain (hashThree?_quiet _ _ hn) (by decide) ?_
    rw [List.any_cons, List.any_cons, HashView.isCondition_operand, HashView.isCondition_operand]
    rfl
  | hashTwo hn =>
    refine isRegular_plain (hashTwo?_quiet _ _ hn) (by decide) ?_
    rw [List.any_cons, List.any_cons, HashView.isCondition_operand, HashView.isCondition_operand]
    rfl

theorem UpperHalfMove.isRegular_form (e : UpperHalfMove) : e.form.IsRegular := by
  unfold form
  split <;> exact isRegular_of_quiet (by decide) (by decide) rfl (by simp) (by simp)

/-- A conversion never writes the flags, so that of the name `fjcvtzs` sets them unsaid. -/
theorem Conversion.isRegular_form (e : Conversion)
    (hn : e.mnemonic = "fjcvtzs" ∨ e.mnemonic ∉ tellingNames) : e.form.IsRegular := by
  have hname : TellsFlagsOnly e.mnemonic false false := by
    rcases hn with hn | hn
    · rw [hn]
      decide
    · exact tellsFlagsOnly_of_quiet hn
  have hcount : (e.fraction.map Operand.count).toList.any Operand.isCondition = false := by
    cases e.fraction <;> rfl
  have hoperation : (if e.move then Operation.move else .convert) ∉ leavingOperations := by
    split <;> decide
  simp only [form]
  split
  · exact isRegular_of_tellsFlags (by simpa using hname) hoperation (by simp [hcount]) (by simp) (by simp)
  · exact isRegular_of_tellsFlags (by simpa using hname) hoperation (by simp [hcount]) (by simp) (by simp)

theorem FloatEncoding.isRegular (h : FloatEncoding w f) : f.IsRegular := by
  cases h with
  | upperHalfMove => exact UpperHalfMove.isRegular_form _
  | conversion _ _ ho => exact Conversion.isRegular_form _ (integerConversion_quiet ho)
  | conditionalCompare =>
    have hname : TellsFlagsOnly (if w.bit 4 then "fccmpe" else "fccmp") true true := by
      split <;> decide
    exact isRegular_of_tellsFlags (by simpa using hname) (by decide) (by simp) rfl rfl
  | select => exact isRegular_of_tellsFlags (by decide) (by decide) (by simp) rfl rfl
  | twoSource _ _ hn => exact isRegular_plain (floatBinary?_quiet _ _ hn) (by decide) rfl
  | oneSource _ _ hn =>
    exact isRegular_plain (floatUnary?_quiet hn).1 (floatUnary?_quiet hn).2 rfl
  | precision => exact isRegular_plain (by decide) (by decide) rfl
  | unknownOneSource => exact isRegular_unnamed (by decide)
  | @compare width =>
    have hname : TellsFlagsOnly (if w.bit 4 then "fcmpe" else "fcmp") false true := by
      split <;> decide
    have hsecond : (if w.bit 3 then .float .zero else w.rm.scalar width : Operand).isCondition = false := by
      split <;> rfl
    exact isRegular_of_tellsFlags (by simpa using hname) (by decide) (by simp [hsecond]) rfl rfl
  | immediate => exact isRegular_plain (by decide) (by decide) rfl

theorem CopyEncoding.isRegular {l : LaneSelect} (h : CopyEncoding w l f) : f.IsRegular := by
  cases h with
  | insert | duplicateLane => exact isRegular_plain (by decide) (by decide) rfl
  | duplicateGeneral | fromGeneral =>
    exact isRegular_of_quiet (by decide) (by decide) rfl (by simp) (by simp)
  | toGeneral hn =>
    exact isRegular_of_quiet (laneMoveName?_quiet hn) (by decide) rfl (by simp) (by simp)

theorem LanewiseEncoding.isRegular (h : LanewiseEncoding w f) : f.IsRegular := by
  cases h with
  | bitwise =>
    simp only [bitwiseForm]
    split
    · exact isRegular_plain (by decide) (by decide) rfl
    · exact isRegular_plain (bitwiseName_quiet _ _) (by decide) rfl
  | floatThreeSame hn => exact isRegular_plain (floatThreeSameName?_quiet _ _ _ _ hn) (by decide) rfl
  | integerThreeSame hn => exact isRegular_plain (integerThreeSameName?_quiet _ _ _ hn) (by decide) rfl
  | @twoRegister e _ he =>
    have hoperation : e.operation ∉ leavingOperations := by
      unfold VectorUnary.operation
      split <;> decide
    refine isRegular_plain (VectorUnary.table_quiet e (List.mem_of_find?_eq_some he)) hoperation ?_
    cases e.compareZero <;> rfl
  | floatReduction hn => exact isRegular_plain (floatReductionName?_quiet _ _ _ _ hn) (by decide) rfl
  | integerReduction hn => exact isRegular_plain (integerReduction?_quiet _ _ _ hn) (by decide) rfl
  | unknown => exact isRegular_unnamed (by decide)

theorem VectorEncoding.isRegular (h : VectorEncoding w f) : f.IsRegular := by
  cases h with
  | crypto hf => exact hf.isRegular
  | float hf => exact hf.isRegular
  | fixedConversion _ _ ho => exact Conversion.isRegular_form _ (.inr (fixedConversion_quiet ho))
  | floatThreeSource => exact isRegular_plain (fusedName_quiet _ _) (by decide) rfl
  | copy _ hf => exact hf.isRegular
  | lanewise hf => exact hf.isRegular

end A64.Encoding
