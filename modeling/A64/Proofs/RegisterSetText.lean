import Mathlib.Algebra.Group.Nat.Defs
import A64.Proofs.JoinedTexts
import A64.Proofs.Numerals
import A64.Proofs.RegisterSets

/-! The texts of register sets. A set is written as the names of the bits that are set, joined by commas.
Main statement: the texts of two sets are equal exactly if the sets differ in nothing but bits that mean
nothing. -/

namespace A64.RegisterSet

/-- Both are every register, or their masks are the same up to the flags. -/
def Agrees : RegisterSet → RegisterSet → Prop
  | .all, .all => True
  | .subset m, .subset m' => m.toNat % 2 ^ 33 = m'.toNat % 2 ^ 33
  | _, _ => False

def marks (m : BitVec 64) : List Nat := (List.range 33).filter m.getLsbD

theorem mem_marks {m : BitVec 64} {i : Nat} : i ∈ marks m ↔ i < 33 ∧ m.getLsbD i = true := by
  rw [marks, List.mem_filter, List.mem_range]

theorem marks_eq_iff {m m' : BitVec 64} :
    marks m = marks m' ↔ ∀ i < 33, m.getLsbD i = m'.getLsbD i := by
  constructor
  · intro h i hi
    have hmem : i ∈ marks m ↔ i ∈ marks m' := by rw [h]
    rw [mem_marks, mem_marks, and_iff_right hi, and_iff_right hi] at hmem
    exact Bool.eq_iff_iff.mpr hmem
  · intro h
    exact List.filter_congr fun i hi => h i (List.mem_range.mp hi)

theorem agrees_subset_iff {m m' : BitVec 64} :
    (subset m).Agrees (subset m') ↔ marks m = marks m' := by
  rw [marks_eq_iff]
  constructor
  · intro h i hi
    have hbit := congrArg (Nat.testBit · i) (show m.toNat % 2 ^ 33 = m'.toNat % 2 ^ 33 from h)
    simp only [Nat.testBit_mod_two_pow, decide_eq_true hi, Bool.true_and] at hbit
    exact hbit
  · intro h
    apply Nat.eq_of_testBit_eq
    intro i
    rw [Nat.testBit_mod_two_pow, Nat.testBit_mod_two_pow]
    by_cases hi : i < 33
    · rw [decide_eq_true hi, Bool.true_and, Bool.true_and]
      exact h i hi
    · rw [decide_eq_false hi, Bool.false_and, Bool.false_and]

theorem isEmpty_subset_iff {m : BitVec 64} : (subset m).isEmpty = true ↔ marks m = [] := by
  rw [isEmpty, beq_iff_eq, BitVec.eq_of_getLsbD_eq_iff, marks, List.filter_eq_nil_iff]
  constructor
  · intro h i hi
    have hlow := List.mem_range.mp hi
    have hbit := h i (by omega)
    rw [getLsbD_and_usable, decide_eq_true hlow, Bool.true_and] at hbit
    simp [hbit]
  · intro h i _
    rw [getLsbD_and_usable]
    by_cases hlow : i < 33
    · simpa [hlow] using h i (List.mem_range.mpr hlow)
    · simp [hlow]

def bitName (i : Nat) : String := if i = flagsBit then "nzcv" else i.repr

def names : RegisterSet → List String
  | .all => ["all"]
  | .subset m => if marks m = [] then ["none"] else (marks m).map bitName

theorem marks_eq_indices (m : BitVec 64) :
    marks m = (subset m).indices ++ if m.getLsbD flagsBit then [flagsBit] else [] := by
  have hindices : (subset m).indices = (List.range 32).filter m.getLsbD := by
    refine List.filter_congr fun i hi => ?_
    have hle := Nat.le_of_lt_succ (List.mem_range.mp hi)
    simp [contains, hle]
  rw [hindices, marks, List.range_succ, List.filter_append, List.filter_cons, List.filter_nil]
  rfl

theorem map_bitName_marks (m : BitVec 64) :
    (marks m).map bitName =
      (subset m).indices.map Nat.repr ++ if (subset m).hasFlags then ["nzcv"] else [] := by
  have hindex : (subset m).indices.map bitName = (subset m).indices.map Nat.repr := by
    refine List.map_congr_left fun i hi => ?_
    have hlt : i < flagsBit := List.mem_range.mp (List.mem_filter.mp hi).1
    rw [bitName, if_neg (Nat.ne_of_lt hlt)]
  rw [marks_eq_indices, List.map_append, hindex]
  cases h : m.getLsbD flagsBit <;> simp [hasFlags, h, bitName]

theorem text_eq_intercalate (s : RegisterSet) : s.text = ",".intercalate s.names := by
  cases s with
  | all => simp [text, isAll, names]
  | subset m =>
    by_cases h : marks m = []
    · simp [text, isAll, isEmpty_subset_iff.mpr h, names, h]
    · have hempty : (subset m).isEmpty = false := by
        rwa [← Bool.not_eq_true, isEmpty_subset_iff]
      rw [text, isAll, if_neg Bool.false_ne_true, hempty, if_neg Bool.false_ne_true, names, if_neg h,
        map_bitName_marks]

/-! The names are told apart. -/

theorem repr_ne {t : String} (h : t.toList.all Char.isDigit = false) (n : Nat) : n.repr ≠ t := by
  rintro rfl
  have hdigits : n.repr.toList.all Char.isDigit = true :=
    List.all_eq_true.mpr fun _ => Numeral.isDigit_of_mem_repr
  rw [hdigits] at h
  contradiction

theorem bitName_inj {i j : Nat} (h : bitName i = bitName j) : i = j := by
  unfold bitName at h
  split at h <;> split at h
  · next hi hj => rw [hi, hj]
  · exact absurd h.symm (repr_ne (by decide) j)
  · exact absurd h (repr_ne (by decide) i)
  · have hread := congrArg (fun t => Numeral.accumulate? 0 t.toList) h
    simp only [Numeral.accumulate?_repr] at hread
    exact Option.some.inj hread

theorem not_mem_map_bitName {t : String} (hdigit : t.toList.all Char.isDigit = false)
    (hflags : "nzcv" ≠ t) (is : List Nat) : t ∉ is.map bitName := by
  intro h
  obtain ⟨i, -, hi⟩ := List.mem_map.mp h
  unfold bitName at hi
  split at hi
  · exact hflags hi
  · exact repr_ne hdigit i hi

theorem names_subset_inj {m m' : BitVec 64} (h : (subset m).names = (subset m').names) :
    marks m = marks m' := by
  have hnone (is : List Nat) : is.map bitName ≠ ["none"] := fun heq =>
    not_mem_map_bitName (by decide) (by decide) is (heq ▸ List.mem_singleton_self "none")
  simp only [names] at h
  split at h <;> split at h
  · next hm hm' => rw [hm, hm']
  · exact absurd h.symm (hnone _)
  · exact absurd h (hnone _)
  · exact (List.map_inj_right fun _ _ => bitName_inj).mp h

theorem names_subset_ne_all (m : BitVec 64) : (subset m).names ≠ ["all"] := by
  intro h
  simp only [names] at h
  split at h
  · exact absurd h (by decide)
  · have hall : "all" ∈ (marks m).map bitName := h ▸ List.mem_singleton_self "all"
    exact not_mem_map_bitName (by decide) (by decide) _ hall

theorem names_inj {s t : RegisterSet} (h : s.names = t.names) : s.Agrees t := by
  cases s <;> cases t
  case all.all => trivial
  case all.subset m => exact absurd h.symm (names_subset_ne_all m)
  case subset.all m => exact absurd h (names_subset_ne_all m)
  case subset.subset m m' => exact agrees_subset_iff.mpr (names_subset_inj h)

theorem names_congr {s t : RegisterSet} (h : s.Agrees t) : s.names = t.names := by
  cases s <;> cases t
  case all.all => rfl
  case subset.subset m m' => rw [names, names, agrees_subset_iff.mp h]
  all_goals exact h.elim

theorem isPiece_bitName (i : Nat) :
    Text.IsPiece ',' (bitName i).toList ∧ ' ' ∉ (bitName i).toList := by
  have hdigit {c : Char} (hc : c.isDigit = false) : c ∉ i.repr.toList := fun hmem => by
    simp [Numeral.isDigit_of_mem_repr hmem] at hc
  unfold bitName
  split
  · exact ⟨⟨by decide, by decide⟩, by decide⟩
  · exact ⟨⟨Nat.toList_repr ▸ Nat.toDigits_ne_nil, hdigit (by decide)⟩, hdigit (by decide)⟩

theorem isPiece_of_mem_names {s : RegisterSet} {t : String} (h : t ∈ s.names) :
    Text.IsPiece ',' t.toList ∧ ' ' ∉ t.toList := by
  cases s with
  | all =>
    rw [List.mem_singleton.mp h]
    exact ⟨⟨by decide, by decide⟩, by decide⟩
  | subset m =>
    simp only [names] at h
    split at h
    · rw [List.mem_singleton.mp h]
      exact ⟨⟨by decide, by decide⟩, by decide⟩
    · obtain ⟨i, -, rfl⟩ := List.mem_map.mp h
      exact isPiece_bitName i

theorem text_eq_iff (s t : RegisterSet) : s.text = t.text ↔ s.Agrees t := by
  rw [text_eq_intercalate, text_eq_intercalate]
  constructor
  · intro h
    exact names_inj (Text.join_inj (c := ',') (by decide) (fun _ hp => (isPiece_of_mem_names hp).1)
      (fun _ hq => (isPiece_of_mem_names hq).1) h)
  · intro h
    rw [names_congr h]

theorem not_mem_text (s : RegisterSet) : ' ' ∉ s.text.toList := by
  rw [text_eq_intercalate, String.toList_intercalate]
  refine Text.not_mem_intercalate (by decide) fun p hp => ?_
  obtain ⟨t, ht, rfl⟩ := List.mem_map.mp hp
  exact (isPiece_of_mem_names ht).2

end A64.RegisterSet
