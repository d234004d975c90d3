import Mathlib.Logic.Basic
import A64.Text.Hex
import A64.Text.Numeral

/-! Numbers that are read from digits. The readers of both bases take one digit after the other. Main
statement: a number is read back from the digits that write it, so no two numbers have the same text. -/

namespace A64

/-- A reader of digits to the base `b`, which goes on from the number that was read so far. -/
structure IsReader (b : Nat) (value? : Char → Option Nat) (read? : Nat → List Char → Option Nat) :
    Prop where
  nil : ∀ n, read? n [] = some n
  cons : ∀ n c cs, read? n (c :: cs) = (value? c).bind fun d => read? (b * n + d) cs
  digit : ∀ d < b, value? d.digitChar = some d

namespace IsReader

variable {b : Nat} {value? : Char → Option Nat} {read? : Nat → List Char → Option Nat}

theorem append (h : IsReader b value? read?) (n : Nat) (cs ds : List Char) :
    read? n (cs ++ ds) = (read? n cs).bind (read? · ds) := by
  induction cs generalizing n with
  | nil => rw [List.nil_append, h.nil, Option.bind_some]
  | cons c cs ih =>
    rw [List.cons_append, h.cons, h.cons, Option.bind_assoc]
    congr 1
    funext d
    exact ih _

theorem toDigits (h : IsReader b value? read?) (hb : 1 < b) (n : Nat) :
    read? 0 (Nat.toDigits b n) = some n := by
  have hone {m d : Nat} (hd : d < b) : read? m [d.digitChar] = some (b * m + d) := by
    rw [h.cons, h.digit d hd, Option.bind_some, h.nil]
  induction n using Nat.strongRecOn with
  | ind n ih =>
    by_cases hn : n < b
    · rw [Nat.toDigits_of_lt_base hn, hone hn, Nat.mul_zero, Nat.zero_add]
    · have hn := Nat.not_lt.mp hn
      have hpos : 0 < n := by omega
      rw [Nat.toDigits_of_base_le hb hn, h.append, ih (n / b) (Nat.div_lt_self hpos hb),
        Option.bind_some, hone (Nat.mod_lt n (by omega)), Nat.div_add_mod]

theorem isSome_of_mem (h : IsReader b value? read?) {n k : Nat} {cs : List Char}
    (hread : read? n cs = some k) {c : Char} (hc : c ∈ cs) : (value? c).isSome = true := by
  induction cs generalizing n with
  | nil => simp at hc
  | cons d cs ih =>
    rw [h.cons, Option.bind_eq_some_iff] at hread
    obtain ⟨v, hv, hrest⟩ := hread
    rcases List.mem_cons.mp hc with rfl | hc
    · rw [hv]
      rfl
    · exact ih hrest hc

end IsReader

namespace Hex

theorem isReader : IsReader 16 value? accumulate? where
  nil _ := rfl
  cons _ _ _ := rfl
  digit := by decide

/-- Zeros in front of a number change nothing. -/
theorem accumulate?_digits (width n : Nat) : accumulate? 0 (digits width n) = some n := by
  have hzeros (k : Nat) : accumulate? 0 (List.replicate k '0') = some 0 := by
    induction k with
    | zero => rfl
    | succ k ih => exact ih
  rw [digits, List.leftpad, isReader.append, hzeros, Option.bind_some, isReader.toDigits (by decide)]

theorem not_mem_digits {c : Char} (hc : value? c = none) (width n : Nat) : c ∉ digits width n := by
  intro hmem
  have hsome := isReader.isSome_of_mem (accumulate?_digits width n) hmem
  simp [hc] at hsome

theorem toList_text (n : Nat) : (text n).toList = '0' :: 'x' :: digits 1 n := by simp [text]

theorem text_inj {n m : Nat} (h : text n = text m) : n = m := by
  have hlist := congrArg String.toList h
  rw [toList_text, toList_text] at hlist
  have hread := congrArg (accumulate? 0) (List.cons.inj (List.cons.inj hlist).2).2
  rw [accumulate?_digits, accumulate?_digits] at hread
  exact Option.some.inj hread

theorem not_mem_text {c : Char} (hc : value? c = none) (hx : c ≠ 'x') (n : Nat) :
    c ∉ (text n).toList := by
  have hdigits := not_mem_digits hc 1 n
  have hzero : c ≠ '0' := by
    rintro rfl
    exact absurd hc (by decide)
  simp [toList_text, hdigits, hzero, hx]

theorem digits_ne_nil (width n : Nat) : digits width n ≠ [] := by
  have hpos := Nat.length_toDigits_pos (b := 16) (n := n)
  have hlength : (digits width n).length = max width (Nat.toDigits 16 n).length := List.length_leftpad
  intro hnil
  rw [hnil, List.length_nil] at hlength
  omega

theorem dropPlus_of_not_mem {cs : List Char} (h : '+' ∉ cs) : dropPlus cs = cs := by
  unfold dropPlus
  split
  · simp at h
  · rfl

theorem read?_digits (width : Nat) {n : Nat} (h : n < 1 <<< 64) :
    read? ("0x" ++ String.ofList (digits width n)) = some (BitVec.ofNat 64 n) := by
  have hlist : ("0x" ++ String.ofList (digits width n)).toList = '0' :: 'x' :: digits width n := by simp
  have hplus := not_mem_digits (c := '+') (by decide) width n
  have hne := digits_ne_nil width n
  rw [read?, hlist, dropMark, dropPlus_of_not_mem hplus]
  split
  · contradiction
  · rw [accumulate?_digits, Option.bind_some, if_pos h]

end Hex

namespace Numeral

theorem isReader :
    IsReader 10 (fun c => if c.isDigit then some (c.toNat - '0'.toNat) else none) accumulate? where
  nil _ := rfl
  cons _ c _ := by cases h : c.isDigit <;> simp [accumulate?, h]
  digit := by decide

theorem isDigit_of_mem_repr {n : Nat} {c : Char} (h : c ∈ n.repr.toList) : c.isDigit = true :=
  Nat.isDigit_of_mem_toDigits (by decide) (by decide) (Nat.toList_repr ▸ h)

theorem accumulate?_repr (n : Nat) : accumulate? 0 n.repr.toList = some n := by
  rw [Nat.toList_repr]
  exact isReader.toDigits (by decide) n

theorem dropPlus_of_not_mem {cs : List Char} (h : '+' ∉ cs) : dropPlus cs = cs := by
  unfold dropPlus
  split
  · simp at h
  · rfl

theorem readBelow?_repr {bound n : Nat} (h : n < bound) : readBelow? bound n.repr = some n := by
  have hread := accumulate?_repr n
  have hplus : '+' ∉ n.repr.toList := fun hmem => by
    have hsome := isReader.isSome_of_mem hread hmem
    simp at hsome
  have hne : n.repr.toList ≠ [] := Nat.toList_repr ▸ Nat.toDigits_ne_nil
  rw [readBelow?, dropPlus_of_not_mem hplus]
  split
  · contradiction
  · rw [hread, Option.filter_some, if_pos (decide_eq_true h)]

end Numeral

end A64
