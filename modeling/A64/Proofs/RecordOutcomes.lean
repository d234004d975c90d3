import A64.Proofs.ListingRecords
import A64.Proofs.References
import A64.Proofs.Rendering

/-! What the record of a word tells. A word fares in one of four ways: it is low, it is refused, it has no
mnemonic, or it is written. Main statement: each of the four has its own error, or none, and the record
tells it of exactly the words that fare so. -/

namespace A64

theorem decode_of_low {w : Word} (h : w.toNat < 0x10000) (a : Address) :
    decode w a = .error (.malformed a w "reserved encoding space") := by
  have hfield : (w.field 25 4).toNat = 0 := by
    rw [Word.toNat_field]
    omega
  have hbit : w.bit 31 = false := by
    rw [Word.bit, BitVec.getLsbD, Nat.testBit_lt_two_pow (by omega)]
  have hclass : EncodingClass.ofWord w = .reserved := by simp [EncodingClass.ofWord, hfield, hbit]
  simp [decode, formOf, hclass, malformed, Refusal.error]

theorem high_of_decode {w : Word} {a : Address} {i : Instruction} (h : decode w a = .ok i) :
    0x10000 ≤ w.toNat := by
  by_contra hlow
  simp [decode_of_low (Nat.not_le.mp hlow) a] at h

theorem word_of_decode_error {w : Word} {a : Address} {e : DecodeError} (h : decode w a = .error e) :
    e.word = w := by
  obtain ⟨r, -, rfl⟩ := Encoding.decode_eq_error h
  cases r <;> rfl

theorem render_of_unnamed {w : Word} {a : Address} {i : Instruction} (format : ImmediateFormat)
    (h : decode w a = .ok i) (hm : i.mnemonic = none) :
    i.render format = .error (.unnamed a w (.ofWord w)) := by
  obtain ⟨f, -, -, rfl⟩ := Encoding.decode_eq_ok h
  exact Instruction.render_unnamed hm format

namespace DisassemblyError

theorem lt_undefinedBelow {w : Word} : w < undefinedBelow ↔ w.toNat < 0x10000 := BitVec.lt_def

theorem ofDecode_of_low {w : Word} {a : Address} {e : DecodeError} (he : e.word = w)
    (h : w.toNat < 0x10000) : ofDecode a e = undefined a w := by
  rw [ofDecode, he, if_pos (lt_undefinedBelow.mpr h)]

theorem ofDecode_of_high {w : Word} {a : Address} {e : DecodeError} (he : e.word = w)
    (h : 0x10000 ≤ w.toNat) : ofDecode a e = decode a w e := by
  rw [ofDecode, he, if_neg (by rw [lt_undefinedBelow]; omega)]

theorem ofRender_of_high {w : Word} {a : Address} {e : RenderError} (h : 0x10000 ≤ w.toNat) :
    ofRender a w e = render a w e := by
  rw [ofRender, if_neg (by rw [lt_undefinedBelow]; omega)]

end DisassemblyError

namespace Record

variable (format : ImmediateFormat) (a : Address) (w : Word)

/-- The four ways in which a word fares, with the record of each. -/
inductive Tells : Record → Prop where
  | undefined {e : DecodeError} (hw : w.toNat < 0x10000) (hd : decode w a = .error e) :
      Tells (unknown a w none (.undefined a w))
  | refused {e : DecodeError} (hw : 0x10000 ≤ w.toNat) (hd : decode w a = .error e) :
      Tells (unknown a w none (.decode a w e))
  | unnamed {i : Instruction} (hw : 0x10000 ≤ w.toNat) (hd : decode w a = .ok i)
      (hm : i.mnemonic = none) :
      Tells (unknown a w (some i) (.render a w (.unnamed a w (.ofWord w))))
  | written {i : Instruction} {assembly : String} (hw : 0x10000 ≤ w.toNat) (hd : decode w a = .ok i)
      (hm : i.mnemonic.isSome = true) (hr : i.render format = .ok assembly) :
      Tells ⟨listingLine a w assembly, i.annotation, some i, none⟩

theorem tells_ofWord : Tells format a w (ofWord format a w) := by
  unfold ofWord
  cases hd : decode w a with
  | error e =>
    have he := word_of_decode_error hd
    by_cases hw : w.toNat < 0x10000
    · simp only [DisassemblyError.ofDecode_of_low he hw]
      exact .undefined hw hd
    · simp only [DisassemblyError.ofDecode_of_high he (Nat.not_lt.mp hw)]
      exact .refused (Nat.not_lt.mp hw) hd
  | ok i =>
    have hw := high_of_decode hd
    cases hm : i.mnemonic with
    | none =>
      simp only [render_of_unnamed format hd hm, DisassemblyError.ofRender_of_high hw]
      exact .unnamed hw hd hm
    | some mnemonic =>
      have hm : i.mnemonic.isSome = true := by rw [hm]; rfl
      obtain ⟨assembly, hr⟩ := Instruction.exists_render hm (isExpressible_of_decode hd) format
      simp only [hr]
      exact .written hw hd hm hr

/-- The error of a record tells how its word fared, and is never fatal. The instruction is there if the word
decodes; the annotation and the assembly are there if it is written, and are empty and unknown otherwise. -/
theorem ofWord_classified :
    ((ofWord format a w).error = some (.undefined a w) ↔ w.toNat < 0x10000) ∧
    (∀ e, (ofWord format a w).error = some (.decode a w e) ↔
      0x10000 ≤ w.toNat ∧ decode w a = .error e) ∧
    ((ofWord format a w).error = some (.render a w (.unnamed a w (.ofWord w))) ↔
      ∃ i, decode w a = .ok i ∧ i.mnemonic = none) ∧
    ((ofWord format a w).error = none ↔ ∃ i, decode w a = .ok i ∧ i.mnemonic.isSome = true) ∧
    (ofWord format a w).isFatal = false ∧
    (∀ i, (ofWord format a w).instruction = some i ↔ decode w a = .ok i) ∧
    ((ofWord format a w).error ≠ none →
      Record.annotation (ofWord format a w) = "" ∧
      (ofWord format a w).text = listingLine a w "<unknown>") ∧
    ((ofWord format a w).error = none →
      ∃ i assembly, (ofWord format a w).instruction = some i ∧ i.render format = .ok assembly ∧
        Record.annotation (ofWord format a w) = i.annotation ∧
        (ofWord format a w).text = listingLine a w assembly) := by
  have hfatal := isFatal_ofWord format a w
  have htells := tells_ofWord format a w
  generalize ofWord format a w = r at hfatal htells ⊢
  cases htells with
  | undefined hw hd => simp_all [unknown]
  | refused hw hd => simp_all [unknown]
  | unnamed hw hd hm => simp_all [unknown]
  | written hw hd hm hr =>
    obtain ⟨mnemonic, hm⟩ := Option.isSome_iff_exists.mp hm
    simp_all

end Record

end A64
