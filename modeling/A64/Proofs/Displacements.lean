import A64.Proofs.Assembler.Fields
import A64.Proofs.ControlFlow

/-! Distances that words hold. Which field of a word is the distance, and how far it can reach, is told by
the name of its instruction. Main statement: an instruction refers to an address exactly if its name tells
so or its word is a load of a literal, and then all copies of the address are one, at the distance that the
word holds. -/

namespace A64

/-- The distance is a signed number of `n + 1` bits. -/
def Within (n : Nat) (d : Int) : Prop := -2 ^ n ≤ d ∧ d < 2 ^ n

theorem within_toInt {n : Nat} (x : BitVec (n + 1)) : Within n x.toInt := by
  have hlow : -2 ^ (n + 1) ≤ 2 * x.toInt := BitVec.le_two_mul_toInt
  have hhigh : 2 * x.toInt < 2 ^ (n + 1) := BitVec.two_mul_toInt_lt
  rw [pow_succ] at hlow hhigh
  constructor <;> omega

theorem within_words {n : Nat} (x : BitVec n) : Within (n + 1) (4 * x.toInt) := by
  have hlow : -2 ^ n ≤ 2 * x.toInt := BitVec.le_two_mul_toInt
  have hhigh : 2 * x.toInt < 2 ^ n := BitVec.two_mul_toInt_lt
  constructor <;> rw [pow_succ] <;> omega

namespace Word

/-- The word is a load of a literal: bits 29 to 27 are `011`, and bits 25 and 24 are clear. -/
def IsLiteralLoad (w : Word) : Prop := (w.field 27 3).toNat = 0b011 ∧ (w.field 24 2).toNat = 0

instance (w : Word) : Decidable w.IsLiteralLoad := inferInstanceAs (Decidable (_ ∧ _))

theorem IsLiteralLoad.ofWord {w : Word} (h : w.IsLiteralLoad) : EncodingClass.ofWord w = .loadStore := by
  have hclass : (w.field 25 4).toNat = 12 ∨ (w.field 25 4).toNat = 14 := by
    simp only [IsLiteralLoad, toNat_field] at h ⊢
    omega
  rcases hclass with hclass | hclass <;> simp [EncodingClass.ofWord, hclass]

/-- The field of `adr` and `adrp`, whose two low bits stand apart. -/
def distance (w : Word) : BitVec 21 := w.field 5 19 ++ w.field 29 2

end Word

/-- An instruction of this name in the word `w` refers to what is `d` bytes away, and can reach `2 ^ reach`
bytes. All but an `adr` count in words of four bytes. -/
inductive Displacement (w : Word) (mnemonic : Option String) : PcRelative → Nat → Int → Prop where
  | long (hn : Named ["b", "bl"] mnemonic) :
      Displacement w mnemonic .longBranch 27 (4 * (w.field 0 26).toInt)
  | short (hn : Named (["cbz", "cbnz"] ++ conditionalNames) mnemonic) :
      Displacement w mnemonic .shortBranch 20 (4 * (w.field 5 19).toInt)
  | test (hn : Named ["tbz", "tbnz"] mnemonic) :
      Displacement w mnemonic .shortBranch 15 (4 * (w.field 5 14).toInt)
  | literal (hn : Named ["ldr", "ldrsw", "prfm"] mnemonic) (hl : w.IsLiteralLoad) :
      Displacement w mnemonic .addressIndex 20 (4 * (w.field 5 19).toInt)
  | address (hn : mnemonic = some "adr") : Displacement w mnemonic .addressIndex 20 w.distance.toInt

namespace Displacement

variable {w : Word} {mnemonic : Option String} {kind : PcRelative} {reach : Nat} {d : Int}

theorem within (h : Displacement w mnemonic kind reach d) : Within reach d := by
  cases h with
  | long | short | test | literal => exact within_words _
  | address => exact within_toInt _

theorem named (h : Displacement w mnemonic kind reach d) :
    Named relativeNames mnemonic ∨ w.IsLiteralLoad := by
  cases h with
  | long hn | short hn | test hn => exact .inl (hn.mono (by decide))
  | literal _ hl => exact .inr hl
  | address hn => exact .inl ⟨"adr", by decide, hn⟩

/-- No distance wraps, so that it is shown as it is. -/
theorem operand (h : Displacement w mnemonic kind reach d) (a : Address) :
    Reference.operand a (.displaced kind d) = .pcRelative d (a.advance d) := by
  have hw := h.within
  apply Reference.operand_displaced_of_lt <;> cases h <;> simp only [Within] at hw <;> omega

end Displacement

/-- How far away what a form refers to is, by its name and by the fixed bits of its word. -/
inductive Form.Reaches (w : Word) (f : Form) : Prop where
  | nowhere (hn : ¬Named relativeNames f.mnemonic) (hl : ¬w.IsLiteralLoad) (hr : f.reference = none)
  | displaced {kind : PcRelative} {reach : Nat} {d : Int} (hd : Displacement w f.mnemonic kind reach d)
      (hr : f.reference = some (.displaced kind d))
  | page (hn : f.mnemonic = some "adrp") (hr : f.reference = some (.page w.distance.toInt))

theorem Form.IsRegular.reaches {w : Word} {f : Form} (h : f.IsRegular) (hl : ¬w.IsLiteralLoad)
    (hr : f.reference = none) : f.Reaches w :=
  .nowhere (h.relative hr) hl hr

namespace Encoding

variable {w : Word} {f : Form}

theorem AddressGeneration.reaches_form : (ofWord w).form.Reaches w := by
  cases hp : w.bit 31 with
  | true => exact .page (by simp [form, ofWord, spelled, hp]) (by simp [form, ofWord, hp, Word.distance])
  | false =>
    have hname : (ofWord w).form.mnemonic = some "adr" := by simp [form, ofWord, spelled, hp]
    exact .displaced (.address hname) (by simp [form, ofWord, hp, Word.distance])

theorem ImmediateEncoding.reaches (h : ImmediateEncoding w f) (hl : ¬w.IsLiteralLoad) : f.Reaches w := by
  have hregular := h.isRegular
  cases h with
  | addressGeneration => exact AddressGeneration.reaches_form
  | addSub | logical | moveWide | bitfield | extract => exact hregular.reaches hl rfl

theorem BranchRegister.not_named_form (e : BranchRegister) : ¬Named relativeNames e.form.mnemonic := by
  cases e with
  | plain link => exact named_some.not.mpr (by cases link <;> decide)
  | authZero link key | auth link key => exact named_some.not.mpr (by cases link <;> cases key <;> decide)
  | ret => exact named_some.not.mpr (by decide)
  | retAuth key => exact named_some.not.mpr (by cases key <;> decide)
  | exceptionReturn key =>
    cases key with
    | none => exact named_some.not.mpr (by decide)
    | some key => exact named_some.not.mpr (by cases key <;> decide)
  | debugReturn => exact named_some.not.mpr (by decide)

theorem ConditionalBranch.words_of_ok {e : ConditionalBranch} (h : ofWord w = .ok e) :
    e.words = w.field 5 19 := by
  unfold ofWord at h
  split at h
  · simp at h
  split at h
  · simp at h
  · cases h
    rfl

theorem BranchEncoding.reaches (h : BranchEncoding w f) (hl : ¬w.IsLiteralLoad) : f.Reaches w := by
  cases h with
  | immediate =>
    refine .displaced (.long ?_) rfl
    simp only [BranchImmediate.form]
    split <;> exact named_some.mpr (by decide)
  | test =>
    refine .displaced (.test (named_some.mpr ?_)) rfl
    split <;> decide
  | compare =>
    refine .displaced (.short (named_some.mpr ?_)) rfl
    split <;> decide
  | @conditional e _ he =>
    have hname : Named (["cbz", "cbnz"] ++ conditionalNames) e.form.mnemonic :=
      named_some.mpr (List.mem_append_right _ (List.mem_map_of_mem e.condition.mem_all))
    have hwords := ConditionalBranch.words_of_ok he
    exact .displaced (.short hname) (by simp only [ConditionalBranch.form, hwords])
  | register => exact .nowhere (BranchRegister.not_named_form _) hl (BranchRegister.reference_form _)
  | @exception e =>
    have hname : e.op.name ∉ relativeNames := by cases e.op <;> decide
    exact .nowhere (named_some.not.mpr hname) hl rfl
  | system _ _ _ _ hf => exact hf.isRegular.reaches hl hf.reference_eq_none

theorem LiteralLoad.words_of_ok {e : LiteralLoad} (h : ofWord w = .ok e) : e.words = w.field 5 19 := by
  unfold ofWord at h
  split at h
  · cases h
    rfl
  · simp at h

theorem LiteralLoad.reaches_form {e : LiteralLoad} (h : ofWord w = .ok e) (hl : w.IsLiteralLoad) :
    e.form.Reaches w := by
  have hname := mnemonic_mem h
  simp only [form, words_of_ok h]
  split <;> exact .displaced (.literal (named_some.mpr hname) hl) rfl

theorem MemoryEncoding.reaches (h : MemoryEncoding w f) (hc : EncodingClass.ofWord w = .loadStore) :
    f.Reaches w := by
  have hregular := h.isRegular
  -- Bits 29 and 28 tell the groups of loads and stores apart, and bit 27 is set in all of them.
  have other (hg : (w.field 28 2).toNat ≠ 1) (hr : f.reference = none) : f.Reaches w := by
    refine hregular.reaches (fun hl => ?_) hr
    simp only [Word.IsLiteralLoad, Word.toNat_field] at hg hl
    omega
  cases h with
  | literal hg hb he =>
    have hclass := EncodingClass.field_of_loadStore hc
    rw [Word.bit_eq_false] at hb
    refine LiteralLoad.reaches_form he ?_
    simp only [Word.IsLiteralLoad, Word.toNat_field] at hg ⊢
    omega
  | exclusive hg => exact other (by omega) (ExclusiveAccess.reference_form _)
  | atomic hg => exact other (by omega) (AtomicAccess.reference_form _)
  | pair hg | unsignedOffset hg | signedOffset hg | registerOffset hg => exact other (by omega) rfl

theorem Encoded.reaches (h : Encoded w (.ofWord w) f) : f.Reaches w := by
  generalize hc : EncodingClass.ofWord w = c at h
  have hl (hne : c ≠ .loadStore) : ¬w.IsLiteralLoad := fun hl => hne (hc.symm.trans hl.ofWord)
  cases h with
  | immediate h => exact h.reaches (hl (by decide))
  | branch h => exact h.reaches (hl (by decide))
  | memory h => exact h.reaches hc
  | register h => exact h.isRegular.reaches (hl (by decide)) h.reference_eq_none
  | vector h => exact h.isRegular.reaches (hl (by decide)) h.reference_eq_none

end Encoding

theorem Encoding.Encoded.branch_ne_none_iff {w : Word} {f : Form} {r : Reference}
    (h : Encoded w (.ofWord w) f) (hr : f.reference = some r) :
    f.branch ≠ .none ↔ r.kind = .shortBranch ∨ r.kind = .longBranch := by
  refine ⟨fun hb => (h.branchEncoding hb).2.kind_of_reference hr, fun hk hb => ?_⟩
  cases h.refers with
  | nowhere _ _ hn => simp [hn] at hr
  | page _ _ _ hp | data _ _ _ hp =>
    cases hp.symm.trans hr
    simp [Reference.kind] at hk
  | jump _ _ hf => exact hf hb

namespace Address

theorem toNat_advance (a : Address) (d : Int) : ((a.advance d).toNat : Int) = (a.toNat + d) % 2 ^ 64 := by
  rw [advance, BitVec.toNat_add, BitVec.toNat_ofInt]
  omega

theorem advance_toInt_sub (a t : Address) : a.advance (t - a).toInt = t := by
  rw [advance, BitVec.ofInt_toInt]
  grind

theorem toNat_page (a : Address) : a.page.toNat = a.toNat / 4096 * 4096 := by
  rw [page_eq_shift, BitVec.toNat_shiftLeft, BitVec.toNat_ushiftRight, Nat.shiftRight_eq_div_pow,
    Nat.shiftLeft_eq]
  omega

end Address

/-- All that an instruction tells of what it refers to is about the one address `target`, which is `offset`
bytes away from its own address `a`. -/
structure Instruction.PointsTo (i : Instruction) (w : Word) (a : Address) (offset : Int)
    (target : Address) : Prop where
  last : ∃ rest, i.operands = rest ++ [.pcRelative offset target] ∧ ∀ d t, .pcRelative d t ∉ rest
  pcRelativeTarget : i.pcRelativeTarget = target
  address : (target.toNat : Int) = (a.toNat + offset) % 2 ^ 64
  branchTarget : i.pcRelative = .shortBranch ∨ i.pcRelative = .longBranch → i.branchTarget = target
  branch : i.pcRelative = .addressPage ∨ i.pcRelative = .addressIndex → i.branch = .none
  displacement : i.pcRelative ≠ .addressPage →
    ∃ reach, Displacement w i.mnemonic i.pcRelative reach offset ∧ Within reach offset
  page : i.pcRelative = .addressPage → i.mnemonic = some "adrp" ∧ Within 20 w.distance.toInt ∧
    (target.toNat : Int) = (a.toNat / 4096 * 4096 + 4096 * w.distance.toInt) % 2 ^ 64 ∧
    target.toNat % 4096 = 0

theorem Instruction.PointsTo.getLast?_operands {i : Instruction} {w : Word} {a : Address} {offset : Int}
    {target : Address} (h : i.PointsTo w a offset target) :
    i.operands.getLast? = some (.pcRelative offset target) := by
  obtain ⟨rest, hrest, -⟩ := h.last
  rw [hrest, List.getLast?_concat]

namespace Form

variable {w : Word} {f : Form} {r : Reference}

theorem mem_pcRelative_place (hf : f.IsFixed) (hr : f.Refers w) (a : Address) :
    (f.place w a).pcRelative ≠ .none ↔ ∃ d t, .pcRelative d t ∈ (f.place w a).operands := by
  have hfixed (d : Int) (t : Address) : .pcRelative d t ∉ f.operands :=
    fun hop => (hf _ hop).2 d t rfl
  cases h : f.reference with
  | none => simp [place, h, hfixed]
  | some r => simpa [place, h, hfixed, Reference.operand] using hr.kind_ne_none h

theorem Reaches.relative (h : f.Reaches w) (hr : f.Refers w) (a : Address) :
    (f.place w a).pcRelative ≠ .none ↔ Named relativeNames (f.place w a).mnemonic ∨ w.IsLiteralLoad := by
  cases h with
  | nowhere hn hl href => simp [place, href, hn, hl]
  | displaced hd href =>
    have hk := hr.kind_ne_none href
    simpa [place, href, hd.named] using hk
  | page hn href =>
    have hadrp : "adrp" ∈ relativeNames := by decide
    simp [place, href, Reference.kind, hn, hadrp]

theorem Reaches.displacement_place (h : f.Reaches w) (a : Address) (hr : f.reference = some r)
    (hk : r.kind ≠ .addressPage) :
    ∃ reach, Displacement w f.mnemonic r.kind reach (r.target a - a).toInt ∧
      Within reach (r.target a - a).toInt := by
  cases h with
  | nowhere _ _ href => simp [href] at hr
  | displaced hd href =>
    cases href.symm.trans hr
    obtain ⟨hoffset, -⟩ := Operand.pcRelative.inj (hd.operand a)
    rw [hoffset]
    exact ⟨_, hd, hd.within⟩
  | page _ href =>
    cases href.symm.trans hr
    exact absurd rfl hk

theorem Reaches.page_place (h : f.Reaches w) (a : Address) (hr : f.reference = some r)
    (hk : r.kind = .addressPage) :
    f.mnemonic = some "adrp" ∧ Within 20 w.distance.toInt ∧
      ((r.target a).toNat : Int) = (a.toNat / 4096 * 4096 + 4096 * w.distance.toInt) % 2 ^ 64 ∧
      (r.target a).toNat % 4096 = 0 := by
  cases h with
  | nowhere _ _ href => simp [href] at hr
  | displaced hd href =>
    cases href.symm.trans hr
    cases hk
    cases hd
  | page hn href =>
    cases href.symm.trans hr
    have htarget := a.page.toNat_advance (4096 * w.distance.toInt)
    rw [Address.toNat_page] at htarget
    refine ⟨hn, within_toInt _, ?_, ?_⟩
    · simpa [Reference.target] using htarget
    · simp only [Reference.target]
      omega

theorem pcRelative_place (hr : f.reference = some r) (a : Address) :
    (f.place w a).pcRelative = r.kind := by
  simp [place, hr]

theorem pointsTo_place (he : Encoding.Encoded w (.ofWord w) f) (hr : f.reference = some r)
    (a : Address) : (f.place w a).PointsTo w a (r.target a - a).toInt (r.target a) := by
  have hbranch := he.branch_ne_none_iff hr
  rw [← pcRelative_place hr a] at hbranch
  constructor
  case last =>
    refine ⟨f.operands, by simp [place, hr, Reference.operand], fun d t hop => ?_⟩
    exact (he.isFixed _ hop).2 d t rfl
  case pcRelativeTarget => simp [place, hr]
  case address => rw [← Address.toNat_advance, Address.advance_toInt_sub]
  case branchTarget => exact fun hk => branchTarget_of_reference (hbranch.mpr hk) hr a
  case branch =>
    intro hk
    by_contra hb
    rcases hbranch.mp hb with hj | hj <;> simp [hj] at hk
  case displacement =>
    rw [pcRelative_place hr]
    exact he.reaches.displacement_place a hr
  case page =>
    rw [pcRelative_place hr]
    exact he.reaches.page_place a hr

end Form

/-- A decoded instruction refers to an address exactly if it has an operand that does, and if its name or
its word tells so. Then all that it tells of the address is about one, at the distance its word holds. -/
theorem decode_pointsTo {w : Word} {a : Address} {i : Instruction} (hd : decode w a = .ok i) :
    (i.pcRelative ≠ .none ↔ ∃ d t, .pcRelative d t ∈ i.operands) ∧
      (i.pcRelative ≠ .none ↔ Named relativeNames i.mnemonic ∨ w.IsLiteralLoad) ∧
      (i.pcRelative ≠ .none → ∃ offset target, i.PointsTo w a offset target) := by
  obtain ⟨f, -, he, rfl⟩ := Encoding.decode_eq_ok hd
  refine ⟨Form.mem_pcRelative_place he.isFixed he.refers a, he.reaches.relative he.refers a, ?_⟩
  intro hrelative
  cases hr : f.reference with
  | none => simp [Form.place, hr] at hrelative
  | some r => exact ⟨_, _, Form.pointsTo_place he hr a⟩

/-- An `adrp` of the last page but one from within the first page, and a `tbz` from the first address that
reaches back as far as it can. -/
theorem decode_pointsTo_wrapping :
    (∃ i, decode 0xD0FFFFE0 0x123 = .ok i ∧ i.pcRelative ≠ .none ∧
      i.PointsTo 0xD0FFFFE0 0x123 (-0x2123) 0xFFFFFFFFFFFFE000) ∧
    ∃ i, decode 0x36040000 0 = .ok i ∧ i.pcRelative ≠ .none ∧
      i.PointsTo 0x36040000 0 (-2 ^ 15) 0xFFFFFFFFFFFF8000 := by
  refine ⟨⟨_, rfl, by decide, ?_⟩, ⟨_, rfl, by decide, ?_⟩⟩
  · obtain ⟨offset, target, h⟩ := (decode_pointsTo (w := 0xD0FFFFE0) (a := 0x123) rfl).2.2 (by decide)
    obtain ⟨rfl, rfl⟩ := Operand.pcRelative.inj (Option.some.inj h.getLast?_operands)
    exact h
  · obtain ⟨offset, target, h⟩ := (decode_pointsTo (w := 0x36040000) (a := 0) rfl).2.2 (by decide)
    obtain ⟨rfl, rfl⟩ := Operand.pcRelative.inj (Option.some.inj h.getLast?_operands)
    exact h

end A64
