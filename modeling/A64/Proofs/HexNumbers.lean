import Mathlib.Data.List.Forall2
import Mathlib.Data.Nat.Digits.Defs
import A64.Proofs.Numerals

/-! The texts of hexadecimal numbers. A number has any number of digits, each of which counts by its place, and
the reader takes them one after the other. Main statement: a text is read exactly if it writes a number of 64
bits, and it makes no difference whether a number that is too high is refused at a digit or at its end. -/

namespace A64

namespace IsReader

variable {b : Nat} {value? : Char → Option Nat} {read? : Nat → List Char → Option Nat}

/-- The digits that are read on from a number stand in the places below it. -/
theorem eq_some_iff (h : IsReader b value? read?) {n m : Nat} {cs : List Char} :
    read? n cs = some m ↔ ∃ ds, List.Forall₂ (fun c d => value? c = some d) cs ds ∧
      m = n * b ^ ds.length + Nat.ofDigits b ds.reverse := by
  induction cs generalizing n with
  | nil => simp [h.nil, eq_comm]
  | cons c cs ih =>
    have hplace (d : Nat) (ds : List Nat) : (b * n + d) * b ^ ds.length + Nat.ofDigits b ds.reverse =
        n * b ^ (d :: ds).length + Nat.ofDigits b (d :: ds).reverse := by
      rw [Nat.ofDigits_reverse_cons, List.length_cons]
      ring
    rw [h.cons, Option.bind_eq_some_iff]
    constructor
    · rintro ⟨d, hd, hread⟩
      obtain ⟨ds, hds, rfl⟩ := ih.mp hread
      exact ⟨d :: ds, .cons hd hds, hplace d ds⟩
    · rintro ⟨_, hds, rfl⟩
      cases hds with
      | @cons _ d _ ds hd hds => exact ⟨d, hd, ih.mpr ⟨ds, hds, (hplace d ds).symm⟩⟩

theorem le_of_eq_some (h : IsReader b value? read?) (hb : 0 < b) {n m : Nat} {cs : List Char}
    (hread : read? n cs = some m) : n ≤ m := by
  obtain ⟨ds, -, rfl⟩ := h.eq_some_iff.mp hread
  exact Nat.le_add_right_of_le (Nat.le_mul_of_pos_right n (Nat.pow_pos hb))

end IsReader

namespace Hex

def lowerDigits : List Char := "0123456789abcdef".toList

def upperDigits : List Char := "0123456789ABCDEF".toList

/-- The character is the digit of the value `d` in either case. -/
def IsDigit (c : Char) (d : Nat) : Prop := lowerDigits[d]? = some c ∨ upperDigits[d]? = some c

/-- At least one digit, the highest place first, and the number that they write. -/
structure IsNumeral (cs : List Char) (n : Nat) : Prop where
  ne_nil : cs ≠ []
  places : ∃ ds, List.Forall₂ IsDigit cs ds ∧ n = Nat.ofDigits 16 ds.reverse

/-- The text writes the number `n`: the mark may stand in front, then a plus sign, then the digits. -/
def Writes (s : String) (n : Nat) : Prop :=
  ∃ mark ∈ ["", "0x"], ∃ sign ∈ ["", "+"], ∃ cs, s = mark ++ sign ++ String.ofList cs ∧ IsNumeral cs n

theorem isDigit_of_value? {c : Char} {d : Nat} (h : value? c = some d) : IsDigit c d := by
  have hall : ∀ k < 128, ∀ d ∈ value? (Char.ofNat k),
      lowerDigits[d]? = some (Char.ofNat k) ∨ upperDigits[d]? = some (Char.ofNat k) := by decide
  have hle {e : Char} (hc : c ≤ e) : c.toNat ≤ e.toNat := UInt32.le_iff_toNat_le.mp hc
  have hlt : c.toNat < 128 := by
    unfold value? at h
    split at h
    · next hc => exact Nat.lt_of_le_of_lt (hle hc.2) (by decide)
    · split at h
      · next hc => exact Nat.lt_of_le_of_lt (hle hc.2) (by decide)
      · split at h
        · next hc => exact Nat.lt_of_le_of_lt (hle hc.2) (by decide)
        · cases h
  have hc := hall c.toNat hlt d
  rw [Char.ofNat_toNat] at hc
  exact hc h

theorem value?_of_getElem? {ds : List Char} (hds : ds.map value? = (List.range 16).map some)
    {c : Char} {d : Nat} (h : ds[d]? = some c) : value? c = some d := by
  have hget : (ds.map value?)[d]? = some (value? c) := by rw [List.getElem?_map, h, Option.map_some]
  rw [hds, List.getElem?_map, Option.map_eq_some_iff] at hget
  obtain ⟨e, he, hc⟩ := hget
  obtain ⟨hlt, rfl⟩ := List.getElem?_eq_some_iff.mp he
  rw [← hc, List.getElem_range]

theorem value?_of_isDigit {c : Char} {d : Nat} (h : IsDigit c d) : value? c = some d := by
  rcases h with h | h
  · exact value?_of_getElem? (by decide) h
  · exact value?_of_getElem? (by decide) h

theorem value?_eq_some_iff {c : Char} {d : Nat} : value? c = some d ↔ IsDigit c d :=
  ⟨isDigit_of_value?, value?_of_isDigit⟩

theorem isNumeral_iff {cs : List Char} {n : Nat} : IsNumeral cs n ↔ cs ≠ [] ∧ accumulate? 0 cs = some n := by
  have hplaces : (∃ ds, List.Forall₂ IsDigit cs ds ∧ n = Nat.ofDigits 16 ds.reverse) ↔
      accumulate? 0 cs = some n := by
    simp only [isReader.eq_some_iff, value?_eq_some_iff, Nat.zero_mul, Nat.zero_add]
  exact ⟨fun h => ⟨h.ne_nil, hplaces.mp h.places⟩, fun h => ⟨h.1, hplaces.mpr h.2⟩⟩

theorem IsNumeral.not_mem {cs : List Char} {n : Nat} (h : IsNumeral cs n) {c : Char} (hc : value? c = none) :
    c ∉ cs := by
  intro hmem
  have hsome := isReader.isSome_of_mem (isNumeral_iff.mp h).2 hmem
  simp [hc] at hsome

theorem isNumeral_digits (width n : Nat) : IsNumeral (digits width n) n :=
  isNumeral_iff.mpr ⟨digits_ne_nil width n, accumulate?_digits width n⟩

theorem exists_mark (cs : List Char) : ∃ mark ∈ ["", "0x"], cs = mark.toList ++ dropMark cs := by
  unfold dropMark
  split
  · exact ⟨"0x", by simp, by simp⟩
  · exact ⟨"", by simp, by simp⟩

theorem exists_plus (cs : List Char) : ∃ sign ∈ ["", "+"], cs = sign.toList ++ dropPlus cs := by
  unfold dropPlus
  split
  · exact ⟨"+", by simp, by simp⟩
  · exact ⟨"", by simp, by simp⟩

theorem dropMark_of_not_mem {cs : List Char} (h : 'x' ∉ cs) : dropMark cs = cs := by
  unfold dropMark
  split
  · simp at h
  · rfl

theorem dropMark_append {mark : String} (hmark : mark ∈ ["", "0x"]) {cs : List Char} (h : 'x' ∉ cs) :
    dropMark (mark.toList ++ cs) = cs := by
  simp only [List.mem_cons, List.not_mem_nil, or_false] at hmark
  rcases hmark with rfl | rfl
  · exact dropMark_of_not_mem h
  · rfl

theorem dropPlus_append {sign : String} (hsign : sign ∈ ["", "+"]) {cs : List Char} (h : '+' ∉ cs) :
    dropPlus (sign.toList ++ cs) = cs := by
  simp only [List.mem_cons, List.not_mem_nil, or_false] at hsign
  rcases hsign with rfl | rfl
  · exact dropPlus_of_not_mem h
  · rfl

theorem dropPlus_dropMark {mark sign : String} (hmark : mark ∈ ["", "0x"]) (hsign : sign ∈ ["", "+"])
    {cs : List Char} {n : Nat} (h : IsNumeral cs n) :
    dropPlus (dropMark (mark ++ sign ++ String.ofList cs).toList) = cs := by
  have hsigns : ∀ sign ∈ ["", "+"], 'x' ∉ sign.toList := by decide
  have hx : 'x' ∉ sign.toList ++ cs := by
    rw [List.mem_append, not_or]
    exact ⟨hsigns sign hsign, h.not_mem (by decide)⟩
  rw [String.toList_append, String.toList_append, String.toList_ofList, List.append_assoc,
    dropMark_append hmark hx, dropPlus_append hsign (h.not_mem (by decide))]

theorem writes_iff {s : String} {n : Nat} : Writes s n ↔ IsNumeral (dropPlus (dropMark s.toList)) n := by
  constructor
  · rintro ⟨mark, hmark, sign, hsign, cs, rfl, h⟩
    rwa [dropPlus_dropMark hmark hsign h]
  · intro h
    obtain ⟨mark, hmark, hfront⟩ := exists_mark s.toList
    obtain ⟨sign, hsign, hrest⟩ := exists_plus (dropMark s.toList)
    refine ⟨mark, hmark, sign, hsign, _, ?_, h⟩
    apply String.toList_inj.mp
    rw [String.toList_append, String.toList_append, String.toList_ofList, List.append_assoc, ← hrest, ← hfront]

theorem toNat_ofNat {n : Nat} (h : n < 2 ^ 64) : (BitVec.ofNat 64 n).toNat = n := by
  rw [BitVec.toNat_ofNat, Nat.mod_eq_of_lt h]

theorem read?_eq_some_iff {s : String} {v : Address} : read? s = some v ↔ Writes s v.toNat := by
  have hbound : 1 <<< 64 = 2 ^ 64 := rfl
  rw [writes_iff, isNumeral_iff, read?, hbound]
  cases dropPlus (dropMark s.toList) with
  | nil => simp
  | cons c cs =>
    rw [Option.bind_eq_some_iff]
    constructor
    · rintro ⟨n, hn, h⟩
      split at h
      · next hlt =>
        cases h
        exact ⟨List.cons_ne_nil c cs, (toNat_ofNat hlt).symm ▸ hn⟩
      · cases h
    · rintro ⟨-, h⟩
      exact ⟨v.toNat, h, by rw [if_pos v.isLt, BitVec.ofNat_toNat, BitVec.setWidth_eq]⟩

def accumulateBelow? (bound n : Nat) : List Char → Option Nat
  | [] => some n
  | c :: cs =>
    (value? c).bind fun d => if 16 * n + d < bound then accumulateBelow? bound (16 * n + d) cs else none

/-- A number that is too high at one of its digits is too high at its end. -/
theorem accumulateBelow?_eq_filter {bound n : Nat} (hn : n < bound) (cs : List Char) :
    accumulateBelow? bound n cs = (accumulate? n cs).filter (· < bound) := by
  induction cs generalizing n with
  | nil => rw [accumulateBelow?, accumulate?, Option.filter_some, if_pos (decide_eq_true hn)]
  | cons c cs ih =>
    rw [accumulateBelow?, accumulate?]
    cases value? c with
    | none => rfl
    | some d =>
      simp only [Option.bind_some]
      split
      · next hlt => exact ih hlt
      · next hge =>
        symm
        rw [Option.filter_eq_none_iff]
        intro m hm
        have hle := isReader.le_of_eq_some (by decide) hm
        rw [decide_eq_true_eq]
        omega

/-- The reader that refuses a number at the first digit with which it is too high. -/
def readChecked? (s : String) : Option Address :=
  match dropPlus (dropMark s.toList) with
  | [] => none
  | cs => (accumulateBelow? (1 <<< 64) 0 cs).map (BitVec.ofNat 64)

theorem read?_eq_readChecked? (s : String) : read? s = readChecked? s := by
  rw [read?, readChecked?]
  cases dropPlus (dropMark s.toList) with
  | nil => rfl
  | cons c cs =>
    simp only [accumulateBelow?_eq_filter (by decide : 0 < 1 <<< 64)]
    cases accumulate? 0 (c :: cs) with
    | none => rfl
    | some n =>
      rw [Option.bind_some, Option.filter_some]
      by_cases hn : n < 1 <<< 64
      · rw [if_pos hn, if_pos (decide_eq_true hn), Option.map_some]
      · rw [if_neg hn, if_neg (by simpa using hn), Option.map_none]

/-- Exactly the texts of 64-bit numbers are read, each as the number that it writes, and all others are refused:
those that write no number and those whose number is too high. -/
theorem read?_exact :
    (∀ s (v : Address), read? s = some v ↔ Writes s v.toNat) ∧
    (∀ s, read? s = none ↔ ∀ n, Writes s n → 2 ^ 64 ≤ n) ∧
    (∀ s, read? s = readChecked? s) ∧
    ∀ v : Address, read? (String.ofList (digits 1 v.toNat)) = some v ∧ read? (text v.toNat) = some v := by
  refine ⟨fun s v => read?_eq_some_iff, fun s => ⟨fun h n hn => ?_, fun h => ?_⟩, read?_eq_readChecked?,
    fun v => ⟨?_, ?_⟩⟩
  · by_contra hlt
    have hvalue := toNat_ofNat (Nat.lt_of_not_le hlt)
    have hread : read? s = some (BitVec.ofNat 64 n) := read?_eq_some_iff.mpr (hvalue.symm ▸ hn)
    rw [h] at hread
    cases hread
  · rw [Option.eq_none_iff_forall_ne_some]
    intro v hread
    exact absurd v.isLt (Nat.not_lt.mpr (h v.toNat (read?_eq_some_iff.mp hread)))
  · refine read?_eq_some_iff.mpr ⟨"", by simp, "", by simp, _, by simp, isNumeral_digits 1 v.toNat⟩
  · refine read?_eq_some_iff.mpr ⟨"0x", by simp, "", by simp, _, by simp [text], isNumeral_digits 1 v.toNat⟩

/-- A second mark, a mark in upper case, a sign before the mark or another sign are no part of a number. -/
example : ["0x+00Ff", "ffffffffffffffff", "", "0x", "+", "0x0x1", "0X1", "+0x1", "++1", "-1", "0x 1",
      "10000000000000000"].map read? =
    [some 255, some 0xFFFFFFFFFFFFFFFF, none, none, none, none, none, none, none, none, none, none] := by
  decide

end Hex

end A64
