import A64.Assembly
import A64.Proofs.Numerals

/-! Reading the texts of operands back. An immediate is read in the format that it was written in, and the name
of a register leads back to the register. Main statement: immediates are read back whatever their value is, and
the text of an address without an index tells its base, displacement and mode. -/

namespace A64

namespace ImmediateFormat

def digits (n : Nat) : ImmediateFormat → List Char
  | hex => '0' :: 'x' :: Hex.digits 1 n
  | decimal => n.repr.toList

/-- A number without a sign: hexadecimal digits behind the mark, or decimal ones, but at least one. -/
def readDigits? : ImmediateFormat → List Char → Option Nat
  | hex, '0' :: 'x' :: c :: cs => Hex.accumulate? 0 (c :: cs)
  | decimal, c :: cs => Numeral.accumulate? 0 (c :: cs)
  | _, _ => none

def read? (format : ImmediateFormat) : List Char → Option Int
  | '-' :: cs => (format.readDigits? cs).map fun n : Nat => -(n : Int)
  | cs => (format.readDigits? cs).map fun n : Nat => (n : Int)

theorem readDigits?_digits (format : ImmediateFormat) (n : Nat) :
    format.readDigits? (format.digits n) = some n := by
  cases format with
  | hex =>
    obtain ⟨c, cs, hcons⟩ := List.exists_cons_of_ne_nil (Hex.digits_ne_nil 1 n)
    rw [digits, hcons, readDigits?, ← hcons, Hex.accumulate?_digits]
  | decimal =>
    obtain ⟨c, cs, hcons⟩ := List.exists_cons_of_ne_nil (Nat.toList_repr ▸ Nat.toDigits_ne_nil)
    rw [digits, hcons, readDigits?, ← hcons, Numeral.accumulate?_repr]

theorem not_mem_digits (format : ImmediateFormat) (n : Nat) : '-' ∉ format.digits n := by
  cases format with
  | hex => simp [digits, Hex.not_mem_digits (c := '-') (by decide)]
  | decimal =>
    intro hmem
    exact absurd (Numeral.isDigit_of_mem_repr hmem) (by decide)

theorem read?_hex_of_not_mem {cs : List Char} (h : 'x' ∉ cs) : hex.read? cs = none := by
  have hdigits {ds : List Char} (hds : 'x' ∉ ds) : hex.readDigits? ds = none := by
    unfold readDigits?
    split
    · simp at hds
    · contradiction
    · rfl
  unfold read?
  split
  · rw [hdigits (List.not_mem_of_not_mem_cons h), Option.map_none]
  · rw [hdigits h, Option.map_none]

theorem read?_digits (format : ImmediateFormat) (n : Nat) :
    format.read? (format.digits n) = some (n : Int) := by
  unfold read?
  split
  · next cs hcs => exact absurd (hcs ▸ List.mem_cons_self) (format.not_mem_digits n)
  · rw [readDigits?_digits, Option.map_some]

end ImmediateFormat

def readImmediate? (format : ImmediateFormat) : List Char → Option Int
  | '#' :: cs => format.read? cs
  | _ => none

def readAnyImmediate? (cs : List Char) : Option Int :=
  (readImmediate? .hex cs).or (readImmediate? .decimal cs)

theorem toList_immediateText (format : ImmediateFormat) (v : Int) :
    (immediateText format v).toList =
      '#' :: ((if v < 0 then ['-'] else []) ++ format.digits v.natAbs) := by
  cases format with
  | hex =>
    simp only [immediateText, ImmediateFormat.digits]
    split <;> simp [Hex.toList_text]
  | decimal =>
    simp only [immediateText, ImmediateFormat.digits]
    cases v with
    | ofNat n => simp [Numeral.text]
    | negSucc n => simp [Numeral.text, Int.negSucc_lt_zero]

theorem readImmediate?_immediateText (format : ImmediateFormat) (v : Int) :
    readImmediate? format (immediateText format v).toList = some v := by
  rw [toList_immediateText, readImmediate?]
  by_cases hv : v < 0
  · have habs : -(v.natAbs : Int) = v := by omega
    rw [if_pos hv, List.singleton_append, ImmediateFormat.read?, ImmediateFormat.readDigits?_digits,
      Option.map_some, habs]
  · have habs : (v.natAbs : Int) = v := by omega
    rw [if_neg hv, List.nil_append, ImmediateFormat.read?_digits, habs]

theorem readAnyImmediate?_immediateText (format : ImmediateFormat) (v : Int) :
    readAnyImmediate? (immediateText format v).toList = some v := by
  cases format with
  | hex => rw [readAnyImmediate?, readImmediate?_immediateText, Option.some_or]
  | decimal =>
    have hmark : 'x' ∉ v.natAbs.repr.toList := fun hmem =>
      absurd (Numeral.isDigit_of_mem_repr hmem) (by decide)
    have hhex : readImmediate? .hex (immediateText .decimal v).toList = none := by
      rw [toList_immediateText, readImmediate?, ImmediateFormat.digits]
      apply ImmediateFormat.read?_hex_of_not_mem
      rw [List.mem_append, not_or]
      exact ⟨by split <;> decide, hmark⟩
    rw [readAnyImmediate?, hhex, Option.none_or, readImmediate?_immediateText]

namespace Register

def words : List (List Char × Register) :=
  [(['s', 'p'], ⟨.stackPointer, 31, 64⟩), (['w', 's', 'p'], ⟨.stackPointer, 31, 32⟩),
   (['x', 'z', 'r'], ⟨.zero, 31, 64⟩), (['w', 'z', 'r'], ⟨.zero, 31, 32⟩)]

/-- The letters in front of a number, with the kind and width that they stand for. -/
def letters : List (Char × RegisterKind × Nat) :=
  [('x', .general, 64), ('w', .general, 32), ('b', .scalar, 8), ('h', .scalar, 16), ('s', .scalar, 32),
   ('d', .scalar, 64), ('q', .scalar, 128)]

/-- The register of a name, whole vector registers aside. -/
def ofName? (name : List Char) : Option Register :=
  match words.lookup name, name with
  | some r, _ => some r
  | none, c :: ds =>
    (letters.lookup c).bind fun p => (Numeral.accumulate? 0 ds).map fun n => ⟨p.1, n, p.2⟩
  | none, [] => none

theorem lookup_words_of_number (c : Char) (n : Nat) : words.lookup (c :: n.repr.toList) = none := by
  have hword : ∀ p ∈ words, p.1.tail.all Char.isDigit = false := by decide
  rw [List.lookup_eq_none_iff]
  intro p hp
  have hne : c :: n.repr.toList ≠ p.1 := by
    intro h
    have hdigits : p.1.tail.all Char.isDigit = true := by
      rw [← h, List.tail_cons, List.all_eq_true]
      exact fun d hd => Numeral.isDigit_of_mem_repr hd
    rw [hword p hp] at hdigits
    cases hdigits
  simpa using hne

theorem ofName?_number {c : Char} {kind : RegisterKind} {size : Nat} (h : letters.lookup c = some (kind, size))
    (n : Nat) : ofName? (c :: n.repr.toList) = some ⟨kind, n, size⟩ := by
  simp only [ofName?, lookup_words_of_number, h, Numeral.accumulate?_repr, Option.bind_some, Option.map_some]

theorem ofName?_text {r : Register} (hv : r.isValid = true) (hk : r.kind ≠ .vector) :
    ofName? r.text.toList = some r := by
  obtain ⟨kind, index, size⟩ := r
  cases kind with
  | general =>
    simp only [isValid, Bool.and_eq_true, Bool.or_eq_true, beq_iff_eq] at hv
    rcases hv.2.2 with rfl | rfl
    · simpa [text] using ofName?_number (c := 'w') (by decide) index
    · simpa [text] using ofName?_number (c := 'x') (by decide) index
  | stackPointer | zero =>
    simp only [isValid, Bool.and_eq_true, Bool.or_eq_true, beq_iff_eq] at hv
    obtain ⟨-, rfl, rfl | rfl⟩ := hv <;> rfl
  | scalar =>
    simp only [isValid, Bool.and_eq_true, Bool.or_eq_true, beq_iff_eq] at hv
    rcases hv.2 with (((rfl | rfl) | rfl) | rfl) | rfl
    · simpa [text, scalarLetter] using ofName?_number (c := 'b') (by decide) index
    · simpa [text, scalarLetter] using ofName?_number (c := 'h') (by decide) index
    · simpa [text, scalarLetter] using ofName?_number (c := 's') (by decide) index
    · simpa [text, scalarLetter] using ofName?_number (c := 'd') (by decide) index
    · simpa [text, scalarLetter] using ofName?_number (c := 'q') (by decide) index
  | vector => exact absurd rfl hk

theorem isAlphanum_of_mem_text {r : Register} {c : Char} (h : c ∈ r.text.toList) : c.isAlphanum = true := by
  obtain ⟨kind, index, size⟩ := r
  have hword (word : String) (hall : word.toList.all Char.isAlphanum = true) (hmem : c ∈ word.toList) :
      c.isAlphanum = true := List.all_eq_true.mp hall c hmem
  have hnumber (letter : String) (hall : letter.toList.all Char.isAlphanum = true)
      (hmem : c ∈ (letter ++ index.repr).toList) : c.isAlphanum = true := by
    rw [String.toList_append, List.mem_append] at hmem
    rcases hmem with hmem | hmem
    · exact hword letter hall hmem
    · simp [Char.isAlphanum, Numeral.isDigit_of_mem_repr hmem]
  cases kind with
  | general => exact hnumber _ (by split <;> decide) h
  | stackPointer | zero =>
    simp only [text] at h
    split at h <;> exact hword _ (by decide) h
  | scalar => exact hnumber _ (by unfold scalarLetter; split <;> decide) h
  | vector => exact hnumber _ (by decide) h

end Register

namespace MemoryRef

def tail (format : ImmediateFormat) (displacement : Int) : IndexMode → List Char
  | .offset =>
    if displacement = 0 then [']'] else ',' :: ' ' :: ((immediateText format displacement).toList ++ [']'])
  | .preIndex => ',' :: ' ' :: ((immediateText format displacement).toList ++ [']', '!'])
  | .postIndex => ']' :: ',' :: ' ' :: (immediateText format displacement).toList

/-- The displacement and mode of what stands behind a base. They are told by the closing bracket, which stands
before the displacement, behind it or before an exclamation mark. -/
def readTail? : List Char → Option (Int × IndexMode)
  | [']'] => some (0, .offset)
  | ']' :: ',' :: ' ' :: cs => (readAnyImmediate? cs).map (·, .postIndex)
  | ',' :: ' ' :: cs =>
    match cs.reverse with
    | '!' :: ']' :: ds => (readAnyImmediate? ds.reverse).map (·, .preIndex)
    | ']' :: ds => (readAnyImmediate? ds.reverse).map (·, .offset)
    | _ => none
  | _ => none

def ofText? : List Char → Option MemoryRef
  | '[' :: cs =>
    (Register.ofName? (cs.takeWhile Char.isAlphanum)).bind fun base =>
      (readTail? (cs.dropWhile Char.isAlphanum)).map fun p => withMode base p.1 p.2
  | _ => none

theorem toList_displacementText (format : ImmediateFormat) (base : String) (displacement : Int)
    (mode : IndexMode) : (displacementText format base displacement mode).toList =
      '[' :: (base.toList ++ tail format displacement mode) := by
  cases mode with
  | offset => by_cases hd : displacement = 0 <;> simp [displacementText, tail, hd]
  | preIndex | postIndex => simp [displacementText, tail]

theorem readTail?_tail (format : ImmediateFormat) (displacement : Int) (mode : IndexMode) :
    readTail? (tail format displacement mode) = some (displacement, mode) := by
  have hread := readAnyImmediate?_immediateText format displacement
  cases mode with
  | offset =>
    by_cases hd : displacement = 0
    · simp [tail, readTail?, hd]
    · simp [tail, readTail?, hd, hread]
  | preIndex | postIndex => simp [tail, readTail?, hread]

theorem exists_tail_cons (format : ImmediateFormat) (displacement : Int) (mode : IndexMode) :
    ∃ c cs, tail format displacement mode = c :: cs ∧ c.isAlphanum = false := by
  cases mode with
  | offset =>
    by_cases hd : displacement = 0
    · exact ⟨_, _, if_pos hd, by decide⟩
    · exact ⟨_, _, if_neg hd, by decide⟩
  | preIndex | postIndex => exact ⟨_, _, rfl, by decide⟩

theorem ofText?_displacementText {r : Register} (hv : r.isValid = true) (hk : r.kind ≠ .vector)
    (format : ImmediateFormat) (displacement : Int) (mode : IndexMode) :
    ofText? (displacementText format r.text displacement mode).toList =
      some (withMode r displacement mode) := by
  obtain ⟨c, cs, hcons, hc⟩ := exists_tail_cons format displacement mode
  have hname : ∀ d ∈ r.text.toList, d.isAlphanum = true := fun _ => Register.isAlphanum_of_mem_text
  have htake : (r.text.toList ++ tail format displacement mode).takeWhile Char.isAlphanum = r.text.toList := by
    rw [List.takeWhile_append_of_pos hname, hcons, List.takeWhile_cons_of_neg (by simp [hc]), List.append_nil]
  have hdrop : (r.text.toList ++ tail format displacement mode).dropWhile Char.isAlphanum =
      tail format displacement mode := by
    rw [List.dropWhile_append_of_pos hname, hcons, List.dropWhile_cons_of_neg (by simp [hc])]
  rw [toList_displacementText, ofText?, htake, hdrop, Register.ofName?_text hv hk, readTail?_tail]
  rfl

/-- There is no index, and the base has a name that tells its width. -/
structure IsDirect (m : MemoryRef) : Prop where
  index : m.index = none
  base : ∃ r, m.base = some r ∧ r.isValid = true ∧ r.kind ≠ .vector

theorem IsDirect.ofText?_render {m : MemoryRef} (h : m.IsDirect) (format : ImmediateFormat) :
    ∃ t, m.render format = .ok t ∧ ofText? t.toList = some m := by
  obtain ⟨base, index, displacement, mode⟩ := m
  obtain ⟨rfl, r, rfl, hv, hk⟩ := h
  refine ⟨displacementText format r.text displacement mode, ?_,
    ofText?_displacementText hv hk format displacement mode⟩
  simp [render, Register.render, hv, Except.bind]

end MemoryRef

/-- Immediates are read back in their format, and no two addresses without an index have the same text, be it
in one format or in both. -/
theorem texts_tell_operands (format : ImmediateFormat) :
    (∀ v, readImmediate? format (immediateText format v).toList = some v) ∧
    (∀ v v', immediateText format v = immediateText format v' → v = v') ∧
    ∀ m : MemoryRef, m.IsDirect → ∃ t, m.render format = .ok t ∧
      ∀ (format' : ImmediateFormat) (m' : MemoryRef), m'.IsDirect → m'.render format' = .ok t →
        m.base = m'.base ∧ m.displacement = m'.displacement ∧ m.mode = m'.mode := by
  refine ⟨readImmediate?_immediateText format, fun v v' h => ?_, fun m hm => ?_⟩
  · have hread := readImmediate?_immediateText format v
    rw [h, readImmediate?_immediateText] at hread
    exact (Option.some.inj hread).symm
  · obtain ⟨t, ht, hread⟩ := hm.ofText?_render format
    refine ⟨t, ht, fun format' m' hm' ht' => ?_⟩
    obtain ⟨t', hrender, hread'⟩ := hm'.ofText?_render format'
    obtain rfl : t' = t := Except.ok.inj (hrender.symm.trans ht')
    obtain rfl : m = m' := Option.some.inj (hread.symm.trans hread')
    exact ⟨rfl, rfl, rfl⟩

/-- The least number of 128 bits in both formats, and a push onto the stack. -/
theorem texts_tell_operands_push :
    immediateText .hex (-170141183460469231731687303715884105728) =
      "#-0x80000000000000000000000000000000" ∧
    readImmediate? .hex "#-0x80000000000000000000000000000000".toList =
      some (-170141183460469231731687303715884105728) ∧
    immediateText .decimal (-170141183460469231731687303715884105728) =
      "#-170141183460469231731687303715884105728" ∧
    readImmediate? .decimal "#-170141183460469231731687303715884105728".toList =
      some (-170141183460469231731687303715884105728) ∧
    (MemoryRef.preIndex .sp (-16)).render .hex = .ok "[sp, #-0x10]!" ∧
    ∀ (format : ImmediateFormat) (m : MemoryRef), m.IsDirect → m.render format = .ok "[sp, #-0x10]!" →
      m.base = some .sp ∧ m.displacement = -16 ∧ m.mode = .preIndex := by
  have hhex : immediateText .hex (-170141183460469231731687303715884105728) =
      "#-0x80000000000000000000000000000000" := by decide +kernel
  have hdecimal : immediateText .decimal (-170141183460469231731687303715884105728) =
      "#-170141183460469231731687303715884105728" := by decide +kernel
  have hpush : (MemoryRef.preIndex .sp (-16)).IsDirect := ⟨rfl, .sp, rfl, by decide, by decide⟩
  obtain ⟨t, ht, htells⟩ := (texts_tell_operands .hex).2.2 _ hpush
  obtain rfl : "[sp, #-0x10]!" = t := Except.ok.inj ht
  refine ⟨hhex, hhex ▸ (texts_tell_operands .hex).1 _, hdecimal,
    hdecimal ▸ (texts_tell_operands .decimal).1 _, ht, fun format m hm hrender => ?_⟩
  obtain ⟨hbase, hdisplacement, hmode⟩ := htells format m hm hrender
  exact ⟨hbase.symm, hdisplacement.symm, hmode.symm⟩

end A64
