import A64.Proofs.Expressible.General

/-! The forms of vectors and floating point have only operands that assembly can write wherever they
stand. Some are recognised without a mnemonic, and these have no operands. -/

namespace A64.Encoding

theorem isFixed_plain {mnemonic : String} {operation : Operation} {ops : List Operand}
    (h : ∀ op ∈ ops, op.IsFixed) : (Form.plain (spelled mnemonic operation ops)).IsFixed := h

theorem isFixed_unnamed (operation : Operation) : (Form.unnamed operation).IsFixed := by
  simp [Form.IsFixed, Form.unnamed, Form.plain]

def HashView.IsStandard : HashView → Prop
  | scalar width => Register.IsScalarWidth width
  | words => True

theorem HashView.isFixed_operand {view : HashView} (h : view.IsStandard) (n : RegisterField) :
    (view.operand n).IsFixed := by
  cases view with
  | scalar width => exact n.isFixed_scalar h
  | words => exact n.isFixed_lanes .s4

theorem isStandard_hashThree {opcode : BitVec 3} {mnemonic : String} {first second : HashView}
    (h : hashThree? opcode = some (mnemonic, first, second)) :
    first.IsStandard ∧ second.IsStandard := by
  unfold hashThree? at h
  split at h <;> cases h <;> simp [HashView.IsStandard, Register.IsScalarWidth]

theorem isStandard_hashTwo {opcode : BitVec 5} {mnemonic : String} {view : HashView}
    (h : hashTwo? opcode = some (mnemonic, view)) : view.IsStandard := by
  unfold hashTwo? at h
  split at h <;> cases h <;> simp [HashView.IsStandard, Register.IsScalarWidth]

theorem CryptoEncoding.isFixed {w : Word} {f : Form} (h : CryptoEncoding w f) : f.IsFixed := by
  cases h with
  | cipher => exact isFixed_plain (by simp)
  | hashThree hn =>
    obtain ⟨hfirst, hsecond⟩ := isStandard_hashThree hn
    exact isFixed_plain (by simp [HashView.isFixed_operand hfirst,
      HashView.isFixed_operand hsecond])
  | hashTwo hn =>
    have hview := isStandard_hashTwo hn
    exact isFixed_plain (by simp [HashView.isFixed_operand hview])

theorem isScalarWidth_floatWidth {w : Word} {width : Nat} (h : floatWidth w = .ok width) :
    Register.IsScalarWidth width := by
  unfold floatWidth at h
  split at h
  · next hw =>
    cases h
    unfold floatWidth? at hw
    split at hw <;> cases hw <;> simp [Register.IsScalarWidth]
  · simp at h

theorem UpperHalfMove.isFixed_form (e : UpperHalfMove) : e.form.IsFixed := by
  unfold form
  split <;> simp [Form.IsFixed, spelled]

theorem Conversion.isFixed_form {e : Conversion} (h : Register.IsScalarWidth e.width) :
    e.form.IsFixed := by
  have hn := e.rn.isFixed_scalar h
  have hd := e.rd.isFixed_scalar h
  simp only [form]
  split <;> cases e.fraction <;> simp [Form.IsFixed, spelled, hn, hd]

theorem isScalarWidth_convert {opcode : BitVec 6} {target : Nat}
    (h : floatUnary? opcode = some (.convert target)) : Register.IsScalarWidth target := by
  unfold floatUnary? at h
  split at h <;> cases h <;> simp [Register.IsScalarWidth]

/-- An immediate has no exponent of ones: its two highest bits differ. -/
theorem isFinite_ofImmediate (imm : BitVec 8) : (Binary64.ofImmediate imm).isFinite = true := by
  have htop : (Binary64.ofImmediate imm).bits.getLsbD 62 = !imm.getLsbD 6 := by
    simp only [Binary64.ofImmediate, BitVec.getLsbD_append, BitVec.getLsbD_not,
      BitVec.getLsbD_extractLsb']
    simp
  have hnext : (Binary64.ofImmediate imm).bits.getLsbD 61 = imm.getLsbD 6 := by
    simp only [Binary64.ofImmediate, BitVec.getLsbD_append, BitVec.getLsbD_replicate,
      BitVec.getLsbD_extractLsb']
    simp
  have hne : ((Binary64.ofImmediate imm).bits.extractLsb' 52 11).toNat ≠ 2047 := by
    intro h
    have hones : (Binary64.ofImmediate imm).bits.extractLsb' 52 11 = BitVec.allOnes 11 :=
      BitVec.eq_of_toNat_eq h
    have hbit (k : Nat) (hk : k < 11) : (Binary64.ofImmediate imm).bits.getLsbD (52 + k) = true := by
      have hk' := congrArg (·.getLsbD k) hones
      simpa only [BitVec.getLsbD_extractLsb', BitVec.getLsbD_allOnes, hk, decide_true,
        Bool.true_and] using hk'
    rw [hbit 9 (by decide)] at hnext
    rw [hbit 10 (by decide), ← hnext] at htop
    exact absurd htop (by decide)
  exact bne_iff_ne.mpr hne

theorem FloatEncoding.isFixed {w : Word} {f : Form} (h : FloatEncoding w f) : f.IsFixed := by
  -- Every case but the first and the unknown ones has scalars of the width that the word gives.
  have scalar {width : Nat} (hw : floatWidth w = .ok width) (n : RegisterField) :=
    n.isFixed_scalar (isScalarWidth_floatWidth hw)
  cases h with
  | upperHalfMove => exact UpperHalfMove.isFixed_form _
  | conversion _ hw => exact Conversion.isFixed_form (isScalarWidth_floatWidth hw)
  | conditionalCompare hw | select hw =>
    simp [Form.IsFixed, floatConditionalCompare, floatSelect, spelled, scalar hw]
  | twoSource hw => exact isFixed_plain (by simp [scalar hw])
  | oneSource hw => exact isFixed_plain (by simp [scalar hw])
  | precision hw _ hn =>
    have ht := w.rd.isFixed_scalar (isScalarWidth_convert hn)
    exact isFixed_plain (by simp [scalar hw, ht])
  | unknownOneSource => exact isFixed_unnamed .floatArith
  | compare hw =>
    have hzero : Binary64.zero.isFinite = true := by decide
    cases w.bit 3 <;> simp [Form.IsFixed, spelled, scalar hw, hzero]
  | immediate hw => exact isFixed_plain (by simp [scalar hw, isFinite_ofImmediate])

theorem LaneSelect.isFixed_operand (l : LaneSelect) (n : RegisterField) :
    (l.operand n).IsFixed := n.isFixed_lane l.size l.index

theorem CopyEncoding.isFixed {w : Word} {l : LaneSelect} {f : Form} (h : CopyEncoding w l f) :
    f.IsFixed := by
  cases h with
  | insert => exact isFixed_plain (by simp [LaneSelect.isFixed_operand])
  | duplicateLane => exact isFixed_plain (by simp [LaneSelect.isFixed_operand])
  | duplicateGeneral => simp [Form.IsFixed, spelled]
  | fromGeneral => simp [Form.IsFixed, generalToLane, spelled, LaneSelect.isFixed_operand]
  | toGeneral => simp [Form.IsFixed, spelled, LaneSelect.isFixed_operand]

theorem isFixed_threeVectors (w : Word) (mnemonic : String) (arrangement : Arrangement) :
    (threeVectors w mnemonic arrangement).IsFixed := by
  simp [Form.IsFixed, threeVectors, Form.plain, spelled]

/-- A reduction has no lanes of 64 bits, so twice their width is still that of a register. -/
theorem isScalarWidth_reduction (widening : Bool) {size : BitVec 2} {full : Bool}
    (h : ¬(size == 3 || (size == 2 && !full)) = true) :
    Register.IsScalarWidth ((if widening then 16 else 8) <<< size.toNat) := by
  have hne : size ≠ 3 := by
    rintro rfl
    simp at h
  have hle : size.toNat ≤ 2 := by
    have hlt := size.isLt
    have := BitVec.toNat_ne.mp hne
    simp at this
    omega
  cases widening with
  | false => exact Register.isScalarWidth_bytes (by omega)
  | true =>
    have hdouble : 16 <<< size.toNat = 8 <<< (size.toNat + 1) :=
      (Nat.shiftLeft_succ_inside 8 size.toNat).symm
    rw [if_pos rfl, hdouble]
    exact Register.isScalarWidth_bytes (by omega)

theorem LanewiseEncoding.isFixed {w : Word} {f : Form} (h : LanewiseEncoding w f) : f.IsFixed := by
  cases h with
  | bitwise =>
    simp only [bitwiseForm]
    split
    · exact isFixed_plain (by simp)
    · exact isFixed_threeVectors w _ _
  | floatThreeSame | integerThreeSame => exact isFixed_threeVectors w _ _
  | @twoRegister e => exact isFixed_plain (by cases e.compareZero <;> simp)
  | floatReduction =>
    have hs := w.rd.isFixed_scalar (by simp [Register.IsScalarWidth] : Register.IsScalarWidth 32)
    exact isFixed_plain (by simp [hs])
  | @integerReduction _ widening _ hsize =>
    have hs := w.rd.isFixed_scalar (isScalarWidth_reduction widening hsize)
    have hn := w.rn.isFixed_lanes (.ofSize (w.field 22 2) (w.bit 30))
    exact isFixed_plain (List.forall_mem_cons.mpr ⟨hs, List.forall_mem_singleton.mpr hn⟩)
  | unknown => exact isFixed_unnamed .vector

theorem VectorEncoding.isFixed {w : Word} {f : Form} (h : VectorEncoding w f) : f.IsFixed := by
  cases h with
  | crypto hf => exact hf.isFixed
  | float hf => exact hf.isFixed
  | fixedConversion _ hw => exact Conversion.isFixed_form (isScalarWidth_floatWidth hw)
  | floatThreeSource hw =>
    have scalar (n : RegisterField) := n.isFixed_scalar (isScalarWidth_floatWidth hw)
    exact isFixed_plain (by simp [scalar])
  | copy _ hf => exact hf.isFixed
  | lanewise hf => exact hf.isFixed

theorem Encoded.isFixed {w : Word} {c : EncodingClass} {f : Form} (h : Encoded w c f) : f.IsFixed := by
  cases h with
  | immediate h => exact h.isWritable.2
  | branch h => exact h.isWritable.2
  | memory h => exact h.isWritable.2
  | register h => exact h.isWritable.2
  | vector h => exact h.isFixed

end A64.Encoding
