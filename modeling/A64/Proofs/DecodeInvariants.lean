import A64.Proofs.References

/-! What holds of every decoded instruction and of every refusal. Main statement: an instruction keeps its
word, address and class, its register sets have no bits beyond the flags, and its targets are zero where
it reaches nothing; a refusal names its word, address and class, and the classes without a decoder are
always refused in the same way. -/

namespace A64

namespace RegisterSet

def IsBounded : RegisterSet → Prop
  | .all => True
  | .subset m => m.toNat < 2 ^ 33

@[simp] theorem isBounded_all : RegisterSet.all.IsBounded := trivial

@[simp] theorem isBounded_empty : empty.IsBounded := by simp [empty, IsBounded]

theorem isBounded_or_twoPow {m : BitVec 64} {i : Nat} (hm : m.toNat < 2 ^ 33) (hi : i ≤ flagsBit) :
    (m ||| BitVec.twoPow 64 i).toNat < 2 ^ 33 := by
  rw [BitVec.toNat_or, BitVec.toNat_twoPow]
  apply Nat.or_lt_two_pow hm
  calc 2 ^ i % 2 ^ 64 ≤ 2 ^ i := Nat.mod_le _ _
    _ < 2 ^ 33 := Nat.pow_lt_pow_right (by decide) (Nat.lt_succ_of_le hi)

theorem IsBounded.insert {s : RegisterSet} (h : s.IsBounded) (r : Register) :
    (s.insert r).IsBounded := by
  unfold RegisterSet.insert
  split
  · next i _ =>
    cases s with
    | all => trivial
    | subset m =>
      simp only [insertIndex]
      split
      · next hi => exact isBounded_or_twoPow h (by simp only [flagsBit]; omega)
      · exact h
  · exact h

theorem IsBounded.insertAll {s : RegisterSet} (h : s.IsBounded) (rs : List Register) :
    (s.insertAll rs).IsBounded := by
  induction rs generalizing s with
  | nil => exact h
  | cons r rs ih => exact ih (h.insert r)

@[simp] theorem IsBounded.insertFlags {s : RegisterSet} (h : s.IsBounded) :
    s.insertFlags.IsBounded := by
  cases s with
  | all => trivial
  | subset m => exact isBounded_or_twoPow h (Nat.le_refl flagsBit)

@[simp] theorem isBounded_of (rs : List Register) : (of rs).IsBounded := isBounded_empty.insertAll rs

@[simp] theorem isBounded_flags : flags.IsBounded := isBounded_empty.insertFlags

@[simp] theorem IsBounded.withFlags {s : RegisterSet} (h : s.IsBounded) (flags : Bool) :
    (s.withFlags flags).IsBounded := by
  cases flags with
  | false => exact h
  | true => exact h.insertFlags

end RegisterSet

def Form.IsBounded (f : Form) : Prop := f.reads.IsBounded ∧ f.writes.IsBounded

theorem Form.isBounded_mk {s : Spelling} {reads writes : RegisterSet} {branch : Branch}
    {reference : Option Reference} (hr : reads.IsBounded) (hw : writes.IsBounded) :
    (Form.mk s reads writes branch reference).IsBounded := ⟨hr, hw⟩

@[simp] theorem Form.isBounded_plain (s : Spelling) : (plain s).IsBounded :=
  isBounded_mk RegisterSet.isBounded_empty RegisterSet.isBounded_empty

namespace Encoding

variable {w : Word} {f : Form}

theorem ImmediateEncoding.isBounded (h : ImmediateEncoding w f) : f.IsBounded := by
  cases h with
  | moveWide => exact Form.isBounded_mk (by split <;> simp) (by simp)
  | addressGeneration | addSub | logical | bitfield | extract =>
    exact Form.isBounded_mk (by simp) (by simp)

theorem SystemEncoding.isBounded (h : SystemEncoding w f) : f.IsBounded := by
  cases h with
  | hint =>
    unfold Hint.form
    split
    · exact Form.isBounded_mk (by simp) (by simp)
    · exact Form.isBounded_plain _
  | barrier => exact Form.isBounded_plain _
  | processorState _ _ hf =>
    unfold ProcessorState.form at hf
    split at hf
    · cases hf
      exact Form.isBounded_mk (by simp) (by simp)
    · cases hf
      exact Form.isBounded_plain _
    · simp at hf
  | operation =>
    simp only [SystemOperation.form]
    split <;> exact Form.isBounded_mk (by simp) (by simp)
  | move =>
    simp only [SystemMove.form]
    split <;> exact Form.isBounded_mk (by simp) (by simp)

theorem BranchRegister.isBounded_form (e : BranchRegister) : e.form.IsBounded := by
  have hjump (link : Bool) (mnemonic : String) (sources : List Register) :
      (jump link mnemonic sources).IsBounded :=
    Form.isBounded_mk (by simp) (by split <;> simp)
  have hunwind (mnemonic : String) : (unwind mnemonic).IsBounded :=
    Form.isBounded_mk (by simp) (by simp)
  cases e with
  | plain | authZero | auth => exact hjump _ _ _
  | ret | retAuth => exact Form.isBounded_mk (by simp) (by simp)
  | exceptionReturn key => cases key <;> exact hunwind _
  | debugReturn => exact hunwind _

theorem BranchEncoding.isBounded (h : BranchEncoding w f) : f.IsBounded := by
  cases h with
  | immediate => exact Form.isBounded_mk (by simp) (by split <;> simp)
  | test | compare | conditional => exact Form.isBounded_mk (by simp) (by simp)
  | register => exact BranchRegister.isBounded_form _
  | exception => exact Form.isBounded_mk (by split <;> simp) (by split <;> simp)
  | system _ _ _ _ hf => exact hf.isBounded

theorem ExclusiveAccess.isBounded_form (e : ExclusiveAccess) : e.form.IsBounded := by
  have haccess (mnemonic : String) (operation : Operation) (operands : List Register)
      (base : Register) (reads writes : List Register) :
      (access mnemonic operation operands base reads writes).IsBounded :=
    Form.isBounded_mk (by simp) (by simp)
  cases e with
  | single load | pair load | ordered load => cases load <;> exact haccess _ _ _ _ _ _
  | swap | swapPair => exact haccess _ _ _ _ _ _

theorem AtomicAccess.isBounded_form (e : AtomicAccess) : e.form.IsBounded := by
  cases e with
  | modify =>
    simp only [form]
    split <;> exact Form.isBounded_mk (by simp) (by simp)
  | swap | loadAcquire => exact Form.isBounded_mk (by simp) (by simp)

theorem MemoryEncoding.isBounded (h : MemoryEncoding w f) : f.IsBounded := by
  cases h with
  | exclusive => exact ExclusiveAccess.isBounded_form _
  | literal =>
    simp only [LiteralLoad.form]
    split <;> exact Form.isBounded_mk (by simp) (by simp)
  | pair | unsignedOffset | signedOffset | registerOffset => exact Form.isBounded_mk (by simp) (by simp)
  | atomic => exact AtomicAccess.isBounded_form _

theorem RegisterEncoding.isBounded (h : RegisterEncoding w f) : f.IsBounded := by
  cases h with
  | twoSource _ _ _ _ hf => cases hf <;> exact Form.isBounded_mk (by simp) (by simp)
  | threeSource | carry | conditionalCompare | conditionalSelect | oneSource | logical | extended
  | shifted => exact Form.isBounded_mk (by simp) (by simp)

theorem Conversion.isBounded_form (e : Conversion) : e.form.IsBounded := by
  simp only [form]
  split <;> exact Form.isBounded_mk (by simp) (by simp)

theorem FloatEncoding.isBounded (h : FloatEncoding w f) : f.IsBounded := by
  cases h with
  | upperHalfMove =>
    unfold UpperHalfMove.form
    split <;> exact Form.isBounded_mk (by simp) (by simp)
  | conversion => exact Conversion.isBounded_form _
  | conditionalCompare | select | compare => exact Form.isBounded_mk (by simp) (by simp)
  | twoSource | oneSource | precision | unknownOneSource | immediate => exact Form.isBounded_plain _

theorem CopyEncoding.isBounded {l : LaneSelect} (h : CopyEncoding w l f) : f.IsBounded := by
  cases h with
  | insert | duplicateLane => exact Form.isBounded_plain _
  | duplicateGeneral | fromGeneral | toGeneral => exact Form.isBounded_mk (by simp) (by simp)

theorem LanewiseEncoding.isBounded (h : LanewiseEncoding w f) : f.IsBounded := by
  cases h with
  | bitwise =>
    simp only [bitwiseForm]
    split <;> exact Form.isBounded_plain _
  | floatThreeSame | integerThreeSame | twoRegister | floatReduction | integerReduction | unknown =>
    exact Form.isBounded_plain _

theorem VectorEncoding.isBounded (h : VectorEncoding w f) : f.IsBounded := by
  cases h with
  | crypto hf => cases hf <;> exact Form.isBounded_plain _
  | float hf => exact hf.isBounded
  | fixedConversion => exact Conversion.isBounded_form _
  | floatThreeSource => exact Form.isBounded_plain _
  | copy _ hf => exact hf.isBounded
  | lanewise hf => exact hf.isBounded

theorem Encoded.isBounded {c : EncodingClass} (h : Encoded w c f) : f.IsBounded := by
  cases h with
  | immediate h => exact h.isBounded
  | branch h => exact h.isBounded
  | memory h => exact h.isBounded
  | register h => exact h.isBounded
  | vector h => exact h.isBounded

end Encoding

/-- The instruction stands for the word `w` at the address `a`. -/
structure Instruction.Describes (i : Instruction) (w : Word) (a : Address) : Prop where
  raw : i.raw = w
  address : i.address = a
  encodingClass : i.encodingClass = .ofWord w
  reads : i.reads.IsBounded
  writes : i.writes.IsBounded
  branchTarget : i.branch = .none → i.branchTarget = 0
  pcRelativeTarget : i.pcRelative = .none → i.pcRelativeTarget = 0

/-- The error refuses the word `w` at the address `a`, and the class that it names is that of `w`. -/
structure DecodeError.Refuses (e : DecodeError) (w : Word) (a : Address) : Prop where
  word : e.word = w
  address : e.address = a
  encodingClass : ∀ a' w' c, e = .unsupported a' w' c → c = .ofWord w

theorem Form.describes_place {w : Word} {f : Form} (hb : f.IsBounded) (hr : f.Refers w)
    (a : Address) : (f.place w a).Describes w a where
  raw := rfl
  address := rfl
  encodingClass := rfl
  reads := hb.1
  writes := hb.2
  branchTarget := by
    intro h
    have hf : f.branch = .none := h
    simp [place, branchTarget, hf]
  pcRelativeTarget := hr.pcRelativeTarget_eq_zero a

theorem Refusal.refuses_error (r : Refusal) (w : Word) (a : Address) : (r.error w a).Refuses w a := by
  cases r with
  | malformed reason => exact ⟨rfl, rfl, by simp [error]⟩
  | unsupported =>
    refine ⟨rfl, rfl, fun a' w' c h => ?_⟩
    cases h
    rfl

/-- Decoding describes the word at its address, or refuses it by name. The classes that hold no
instructions are malformed, and the vector and matrix extensions are unsupported. -/
theorem decode_describes_or_refuses (w : Word) (a : Address) :
    (∀ i, decode w a = .ok i → i.Describes w a) ∧
      (∀ e, decode w a = .error e → e.Refuses w a) ∧
      (EncodingClass.ofWord w ∈ [.reserved, .unallocated] →
        ∃ reason, decode w a = .error (.malformed a w reason)) ∧
      (EncodingClass.ofWord w ∈ [.sve, .sme] →
        decode w a = .error (.unsupported a w (.ofWord w))) := by
  refine ⟨fun i h => ?_, fun e h => ?_, fun h => ?_, fun h => ?_⟩
  · obtain ⟨f, _, he, rfl⟩ := Encoding.decode_eq_ok h
    exact Form.describes_place he.isBounded he.refers a
  · obtain ⟨r, _, rfl⟩ := Encoding.decode_eq_error h
    exact r.refuses_error w a
  · simp only [List.mem_cons, List.not_mem_nil, or_false] at h
    rcases h with h | h <;> exact ⟨_, by simp only [decode, formOf, h]; rfl⟩
  · simp only [List.mem_cons, List.not_mem_nil, or_false] at h
    rcases h with h | h <;> simp [decode, formOf, h, unsupported, Refusal.error]

/-- A call that wraps below address zero, and a word of the scalable vector extension. -/
theorem decode_describes_or_refuses_wrapping :
    (∃ i, decode 0x97FFFFFF 0 = .ok i ∧ i.branchTarget = 0xFFFFFFFFFFFFFFFC ∧
      i.Describes 0x97FFFFFF 0) ∧
      decode 0x04000000 8 = .error (.unsupported 8 0x04000000 .sve) := by
  refine ⟨⟨_, rfl, by decide, (decode_describes_or_refuses _ _).1 _ rfl⟩, ?_⟩
  exact (decode_describes_or_refuses 0x04000000 8).2.2.2 (by decide)

end A64
