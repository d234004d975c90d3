import A64.Proofs.Encodings.Vector

/-! The encodings that decode, listed once. Main statement: a decoded instruction is a listed form that
was placed at its address, so a law of decoded words is a law of each case. -/

namespace A64.Encoding

variable {w : Word} {f : Form}

/-- The encodings of each class that decodes. -/
inductive Encoded (w : Word) : EncodingClass → Form → Prop where
  | immediate {f : Form} (h : ImmediateEncoding w f) : Encoded w .dataImmediate f
  | branch {f : Form} (h : BranchEncoding w f) : Encoded w .branchSystem f
  | memory {f : Form} (h : MemoryEncoding w f) : Encoded w .loadStore f
  | register {f : Form} (h : RegisterEncoding w f) : Encoded w .dataRegister f
  | vector {f : Form} (h : VectorEncoding w f) : Encoded w .simdFloat f

theorem encoded_of_formOf (h : formOf w = .ok f) : Encoded w (.ofWord w) f := by
  unfold formOf at h
  cases hc : EncodingClass.ofWord w <;> simp only [hc, malformed_ne_ok, unsupported_ne_ok] at h
  case dataImmediate => exact .immediate (immediateEncoding_of_ok h)
  case branchSystem => exact .branch (branchEncoding_of_ok h)
  case loadStore => exact .memory (memoryEncoding_of_ok h)
  case dataRegister => exact .register (registerEncoding_of_ok h)
  case simdFloat => exact .vector (vectorEncoding_of_ok h)

/-- A decoded instruction is a listed form that was placed at the address. -/
theorem decode_eq_ok {w : Word} {a : Address} {i : Instruction} (h : decode w a = .ok i) :
    ∃ f, formOf w = .ok f ∧ Encoded w (.ofWord w) f ∧ i = f.place w a := by
  unfold decode at h
  split at h
  · next f hf =>
    cases h
    exact ⟨f, hf, encoded_of_formOf hf, rfl⟩
  · simp at h

theorem decode_eq_error {w : Word} {a : Address} {e : DecodeError} (h : decode w a = .error e) :
    ∃ r, formOf w = .error r ∧ e = r.error w a := by
  unfold decode at h
  split at h
  · simp at h
  · next r hr => exact ⟨r, hr, (Except.error.inj h).symm⟩

end A64.Encoding
