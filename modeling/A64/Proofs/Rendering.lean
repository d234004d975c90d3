import A64.Proofs.Expressible.Vector

/-! Rendering of decoded instructions. Main statement: an instruction lacks a text only where it lacks a
mnemonic, which happens only among vectors and floating point. -/

namespace A64

namespace Encoding

theorem Encoded.class_of_unnamed {w : Word} {c : EncodingClass} {f : Form} (h : Encoded w c f)
    (hm : f.mnemonic = none) : c = .simdFloat := by
  have named (hw : f.IsWritable) : c = .simdFloat := by
    have := hw.1
    simp [hm] at this
  cases h with
  | immediate h => exact named h.isWritable
  | branch h => exact named h.isWritable
  | memory h => exact named h.isWritable
  | register h => exact named h.isWritable
  | vector => rfl

end Encoding

theorem isExpressible_of_decode {w : Word} {a : Address} {i : Instruction} (h : decode w a = .ok i) :
    ∀ op ∈ i.operands, op.IsExpressible := by
  obtain ⟨f, _, he, rfl⟩ := Encoding.decode_eq_ok h
  intro op hop
  rcases List.mem_append.mp hop with hop | hop
  · exact (he.isFixed op hop).1
  · rw [Option.mem_toList, Option.map_eq_some_iff] at hop
    obtain ⟨r, _, rfl⟩ := hop
    trivial

/-- A decoded instruction has a text exactly if it has a mnemonic. Without one it is of vectors and
floating point, and is reported as unnamed; every operand of a decoded instruction has a text. -/
theorem render_of_decode {w : Word} {a : Address} {i : Instruction} (format : ImmediateFormat)
    (h : decode w a = .ok i) :
    ((∃ text, i.render format = .ok text) ↔ i.mnemonic.isSome = true) ∧
      (∀ error, i.render format = .error error → error = .unnamed a w .simdFloat) ∧
      ∀ op ∈ i.operands, ∃ text, op.render format = .ok text := by
  have hops := isExpressible_of_decode h
  have hnamed (hm : i.mnemonic.isSome = true) := Instruction.exists_render hm hops format
  have hunnamed (hm : i.mnemonic = none) :
      i.render format = .error (.unnamed a w .simdFloat) := by
    obtain ⟨f, _, he, rfl⟩ := Encoding.decode_eq_ok h
    have hclass : EncodingClass.ofWord w = .simdFloat := he.class_of_unnamed hm
    have hf : f.mnemonic = none := hm
    simp [Instruction.render, Form.place, hf, hclass]
  refine ⟨⟨?_, hnamed⟩, ?_, fun op hop => Operand.exists_render (hops op hop) format⟩
  · rintro ⟨text, ht⟩
    cases hm : i.mnemonic with
    | none => simp [hunnamed hm] at ht
    | some mnemonic => rfl
  · intro error herror
    cases hm : i.mnemonic with
    | none =>
      rw [hunnamed hm] at herror
      exact (Except.error.inj herror).symm
    | some mnemonic =>
      obtain ⟨text, ht⟩ := hnamed (by simp [hm])
      simp [ht] at herror

/-- A compare and swap of the pair that ends in the zero register. -/
theorem render_of_decode_casp :
    ∃ i, decode 0x483E7C3E 0x1000 = .ok i ∧ ∃ text, i.render .decimal = .ok text := by
  obtain ⟨i, h, hm⟩ : ∃ i, decode 0x483E7C3E 0x1000 = .ok i ∧ i.mnemonic = some "casp" :=
    ⟨_, rfl, rfl⟩
  exact ⟨i, h, (render_of_decode .decimal h).1.mpr (by rw [hm]; rfl)⟩

end A64
