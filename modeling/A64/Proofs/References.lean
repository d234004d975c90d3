import Mathlib.Algebra.Group.Nat.Defs
import A64.Proofs.Encodings

/-! Which words refer to an address by its distance from their own. The fixed bits of a word tell
whether it is an `adrp` or an immediate branch; main statement: a decoded form refers to a page exactly
for the former, and branches to where it refers exactly for the latter. -/

namespace A64

namespace Word

theorem toNat_field (w : Word) (lo len : Nat) :
    (w.field lo len).toNat = w.toNat / 2 ^ lo % 2 ^ len := by
  rw [field, BitVec.extractLsb'_toNat, Nat.shiftRight_eq_div_pow]

theorem bit_eq_true {w : Word} {i : Nat} : w.bit i = true ↔ w.toNat / 2 ^ i % 2 = 1 := by
  rw [bit, BitVec.getLsbD, Nat.testBit_eq_decide_div_mod_eq, decide_eq_true_iff]

theorem bit_eq_false {w : Word} {i : Nat} : w.bit i = false ↔ w.toNat / 2 ^ i % 2 = 0 := by
  rw [← Bool.not_eq_true, bit_eq_true]
  omega

/-- The word is an `adrp`: bit 31 is set and bits 28 to 24 are `10000`. -/
def IsAdrp (w : Word) : Prop := w.bit 31 = true ∧ (w.field 24 5).toNat = 0b10000

/-- The word is a branch to a displacement that it holds: `b` and `bl` have the bits `00101` from bit 30
down to bit 26, `cbz`, `cbnz`, `tbz` and `tbnz` have `01101` there, and a conditional `b` has the high
byte `01010100` with bit 4 clear. -/
def IsImmediateBranch (w : Word) : Prop :=
  (w.field 26 5).toNat = 0b00101 ∨ (w.field 26 5).toNat = 0b01101 ∨
    ((w.field 24 8).toNat = 0b01010100 ∧ w.bit 4 = false)

instance (w : Word) : Decidable w.IsAdrp := inferInstanceAs (Decidable (_ ∧ _))

instance (w : Word) : Decidable w.IsImmediateBranch := inferInstanceAs (Decidable (_ ∨ _))

theorem IsAdrp.ofWord {w : Word} (h : w.IsAdrp) : EncodingClass.ofWord w = .dataImmediate := by
  have hfield := h.2
  have hclass : (w.field 25 4).toNat = 8 := by
    rw [toNat_field] at hfield ⊢
    omega
  simp [EncodingClass.ofWord, hclass]

theorem IsImmediateBranch.ofWord {w : Word} (h : w.IsImmediateBranch) :
    EncodingClass.ofWord w = .branchSystem := by
  have hclass : (w.field 25 4).toNat = 10 ∨ (w.field 25 4).toNat = 11 := by
    simp only [IsImmediateBranch, toNat_field] at h ⊢
    omega
  rcases hclass with hclass | hclass <;> simp [EncodingClass.ofWord, hclass]

end Word

namespace EncodingClass

theorem field_of_dataImmediate {w : Word} (h : ofWord w = .dataImmediate) :
    (w.field 26 3).toNat = 0b100 := by
  have hclass : (w.field 25 4).toNat = 8 ∨ (w.field 25 4).toNat = 9 := by
    unfold ofWord at h
    grind
  rw [Word.toNat_field] at hclass ⊢
  omega

theorem field_of_branchSystem {w : Word} (h : ofWord w = .branchSystem) :
    (w.field 26 3).toNat = 0b101 := by
  have hclass : (w.field 25 4).toNat = 10 ∨ (w.field 25 4).toNat = 11 := by
    unfold ofWord at h
    grind
  rw [Word.toNat_field] at hclass ⊢
  omega

theorem field_of_dataRegister {w : Word} (h : ofWord w = .dataRegister) :
    (w.field 25 3).toNat = 0b101 := by
  have hclass : (w.field 25 4).toNat = 5 ∨ (w.field 25 4).toNat = 13 := by
    unfold ofWord at h
    grind
  rw [Word.toNat_field] at hclass ⊢
  omega

theorem field_of_loadStore {w : Word} (h : ofWord w = .loadStore) :
    w.toNat / 2 ^ 27 % 2 = 1 ∧ w.toNat / 2 ^ 25 % 2 = 0 := by
  have hclass : (w.field 25 4).toNat = 4 ∨ (w.field 25 4).toNat = 6 ∨ (w.field 25 4).toNat = 12 ∨
      (w.field 25 4).toNat = 14 := by
    have hlt := (w.field 25 4).isLt
    unfold ofWord at h
    grind
  rw [Word.toNat_field] at hclass
  omega

end EncodingClass

/-- What a form has to do with the address of its word, by the fixed bits of the word. -/
inductive Form.Refers (w : Word) (f : Form) : Prop where
  | nowhere (ha : ¬w.IsAdrp) (hb : ¬w.IsImmediateBranch) (hr : f.reference = none)
  | page {pages : Int} (ha : w.IsAdrp) (hb : ¬w.IsImmediateBranch) (hf : f.branch = .none)
      (hr : f.reference = some (.page pages))
  | data {bytes : Int} (ha : ¬w.IsAdrp) (hb : ¬w.IsImmediateBranch) (hf : f.branch = .none)
      (hr : f.reference = some (.displaced .addressIndex bytes))
  | jump {kind : PcRelative} {bytes : Int} (ha : ¬w.IsAdrp) (hb : w.IsImmediateBranch)
      (hf : f.branch ≠ .none) (hk : kind ≠ .none) (hr : f.reference = some (.displaced kind bytes))

theorem Form.Refers.kind_ne_none {w : Word} {f : Form} (h : f.Refers w) {r : Reference}
    (hr : f.reference = some r) : r.kind ≠ .none := by
  cases h with
  | nowhere _ _ hn => simp [hn] at hr
  | page _ _ _ hp | data _ _ _ hp =>
    cases hp.symm.trans hr
    simp [Reference.kind]
  | jump _ _ _ hk hj =>
    cases hj.symm.trans hr
    exact hk

theorem Form.Refers.pcRelativeTarget_eq_zero {w : Word} {f : Form} (h : f.Refers w) (a : Address)
    (hn : (f.place w a).pcRelative = .none) : (f.place w a).pcRelativeTarget = 0 := by
  cases hr : f.reference with
  | none => simp [place, hr]
  | some r =>
    have hk : r.kind = .none := by simpa [place, hr] using hn
    exact absurd hk (h.kind_ne_none hr)

namespace Encoding

variable {w : Word} {f : Form}

theorem ImmediateEncoding.refers (h : ImmediateEncoding w f)
    (hc : EncodingClass.ofWord w = .dataImmediate) : f.Refers w := by
  have hclass := EncodingClass.field_of_dataImmediate hc
  have hb : ¬w.IsImmediateBranch := fun hb => by simp [hb.ofWord] at hc
  -- Outside address generation bits 25 to 23 are not below two, so bits 25 and 24 are not both clear.
  have other (hg : 2 ≤ (w.field 23 3).toNat) (hr : f.reference = none) : f.Refers w := by
    refine .nowhere (fun ha => ?_) hb hr
    have hfield := ha.2
    rw [Word.toNat_field] at hg hfield
    omega
  cases h with
  | addressGeneration hg =>
    have hfield : (w.field 24 5).toNat = 0b10000 := by
      rw [Word.toNat_field] at hclass hg ⊢
      omega
    cases hbit : w.bit 31 with
    | true => exact .page ⟨hbit, hfield⟩ hb rfl (congrArg some (if_pos hbit))
    | false =>
      have hnot : ¬w.bit 31 = true := by simp [hbit]
      exact .data (fun ha => hnot ha.1) hb rfl (congrArg some (if_neg hnot))
  | addSub hg => exact other (by omega) rfl
  | logical hg => exact other (by omega) rfl
  | moveWide hg => exact other (by omega) rfl
  | bitfield hg => exact other (by omega) rfl
  | extract hg => exact other (by omega) rfl

theorem SystemEncoding.reference_eq_none (h : SystemEncoding w f) : f.reference = none := by
  cases h with
  | hint =>
    unfold Hint.form
    split <;> rfl
  | barrier => rfl
  | processorState _ _ hf =>
    unfold ProcessorState.form at hf
    split at hf <;> cases hf <;> rfl
  | operation =>
    simp only [SystemOperation.form]
    split <;> rfl
  | move =>
    simp only [SystemMove.form]
    split <;> rfl

theorem BranchRegister.reference_form (e : BranchRegister) : e.form.reference = none := by
  cases e with
  | exceptionReturn key => cases key <;> rfl
  | plain | authZero | auth | ret | retAuth | debugReturn => rfl

theorem ConditionalBranch.bits_of_ok {e : ConditionalBranch} (h : ofWord w = .ok e) :
    w.bit 25 = false ∧ w.bit 24 = false ∧ w.bit 4 = false := by
  unfold ofWord at h
  split at h
  · simp at h
  · split at h
    · simp at h
    · simp_all

theorem BranchEncoding.refers (h : BranchEncoding w f)
    (hc : EncodingClass.ofWord w = .branchSystem) : f.Refers w := by
  have hclass := EncodingClass.field_of_branchSystem hc
  have ha : ¬w.IsAdrp := fun ha => by simp [ha.ofWord] at hc
  -- Bits 31 to 29 are `110` for every branch that does not hold a displacement.
  have other (hg : (w.field 29 3).toNat = 6) (hr : f.reference = none) : f.Refers w := by
    refine .nowhere ha (fun hb => ?_) hr
    simp only [Word.IsImmediateBranch, Word.toNat_field] at hg hb
    omega
  cases h with
  | immediate hg =>
    have hb : w.IsImmediateBranch := .inl (by rw [Word.toNat_field] at *; omega)
    refine .jump ha hb ?_ (by decide) rfl
    simp only [BranchImmediate.form]
    split <;> simp
  | test hg | compare hg =>
    have hb : w.IsImmediateBranch := .inr (.inl (by rw [Word.toNat_field] at *; omega))
    exact .jump ha hb (by simp [TestBranch.form, CompareBranch.form]) (by decide) rfl
  | conditional hg he =>
    obtain ⟨h25, h24, h4⟩ := ConditionalBranch.bits_of_ok he
    rw [Word.bit_eq_false] at h25 h24
    have hb : w.IsImmediateBranch := .inr (.inr ⟨by rw [Word.toNat_field] at *; omega, h4⟩)
    refine .jump ha hb ?_ (by decide) rfl
    simp only [ConditionalBranch.form]
    split <;> simp
  | register hg => exact other hg (BranchRegister.reference_form _)
  | exception hg => exact other hg rfl
  | system hg _ _ _ hf => exact other hg hf.reference_eq_none

theorem ExclusiveAccess.reference_form (e : ExclusiveAccess) : e.form.reference = none := by
  cases e with
  | single load | pair load | ordered load => cases load <;> rfl
  | swap | swapPair => rfl

theorem AtomicAccess.reference_form (e : AtomicAccess) : e.form.reference = none := by
  cases e with
  | modify =>
    simp only [form]
    split <;> rfl
  | swap | loadAcquire => rfl

theorem MemoryEncoding.refers (h : MemoryEncoding w f) (ha : ¬w.IsAdrp)
    (hb : ¬w.IsImmediateBranch) : f.Refers w := by
  cases h with
  | literal =>
    simp only [LiteralLoad.form]
    split <;> exact .data ha hb rfl rfl
  | exclusive => exact .nowhere ha hb (ExclusiveAccess.reference_form _)
  | atomic => exact .nowhere ha hb (AtomicAccess.reference_form _)
  | pair | unsignedOffset | signedOffset | registerOffset => exact .nowhere ha hb rfl

theorem RegisterEncoding.reference_eq_none (h : RegisterEncoding w f) : f.reference = none := by
  cases h with
  | twoSource _ _ _ _ hf => cases hf <;> rfl
  | threeSource | carry | conditionalCompare | conditionalSelect | oneSource | logical | extended
  | shifted => rfl

theorem Conversion.reference_form (e : Conversion) : e.form.reference = none := by
  simp only [form]
  split <;> rfl

theorem FloatEncoding.reference_eq_none (h : FloatEncoding w f) : f.reference = none := by
  cases h with
  | upperHalfMove =>
    unfold UpperHalfMove.form
    split <;> rfl
  | conversion => exact Conversion.reference_form _
  | conditionalCompare | select | twoSource | oneSource | precision | unknownOneSource | compare
  | immediate => rfl

theorem LanewiseEncoding.reference_eq_none (h : LanewiseEncoding w f) : f.reference = none := by
  cases h with
  | bitwise =>
    simp only [bitwiseForm]
    split <;> rfl
  | floatThreeSame | integerThreeSame | twoRegister | floatReduction | integerReduction | unknown => rfl

theorem VectorEncoding.reference_eq_none (h : VectorEncoding w f) : f.reference = none := by
  cases h with
  | crypto hf => cases hf <;> rfl
  | float hf => exact hf.reference_eq_none
  | fixedConversion => exact Conversion.reference_form _
  | floatThreeSource => rfl
  | copy _ hf => cases hf <;> rfl
  | lanewise hf => exact hf.reference_eq_none

theorem Encoded.refers (h : Encoded w (.ofWord w) f) : f.Refers w := by
  generalize hc : EncodingClass.ofWord w = c at h
  have ha (hne : c ≠ .dataImmediate) : ¬w.IsAdrp := fun ha => hne (hc.symm.trans ha.ofWord)
  have hb (hne : c ≠ .branchSystem) : ¬w.IsImmediateBranch := fun hb => hne (hc.symm.trans hb.ofWord)
  cases h with
  | immediate h => exact h.refers hc
  | branch h => exact h.refers hc
  | memory h => exact h.refers (ha (by decide)) (hb (by decide))
  | register h => exact .nowhere (ha (by decide)) (hb (by decide)) h.reference_eq_none
  | vector h => exact .nowhere (ha (by decide)) (hb (by decide)) h.reference_eq_none

end Encoding

end A64
