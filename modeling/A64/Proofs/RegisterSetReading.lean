import A64.Proofs.RegisterSetText

/-! Register sets that are read from their texts. Every name in a text stands for a bit, and a set is the union
of the bits that are named. Main statement: reading the text of a set gives the set again, without the bits
that mean nothing. -/

namespace A64.RegisterSet

def bit? (name : String) : Option Nat :=
  if name = "nzcv" then some flagsBit else Numeral.readBelow? 64 name

def ofBits (is : List Nat) : RegisterSet :=
  is.foldl (fun s i => s.union (ofMask (BitVec.twoPow 64 i))) empty

def namesIn (t : String) : List String := (Text.pieces ',' t.toList).map String.ofList

def ofText? (t : String) : Option RegisterSet :=
  if t = "all" then some .all
  else if t = "none" then some .empty
  else ((namesIn t).mapM bit?).map ofBits

def restrict : RegisterSet → RegisterSet
  | .all => .all
  | .subset m => .subset (BitVec.ofNat 64 (m.toNat % 2 ^ 33))

/-! Names. -/

theorem bit?_bitName {i : Nat} (hi : i < 33) : bit? (bitName i) = some i := by
  unfold bitName
  split
  · next h =>
    rw [h]
    rfl
  · have hname : i.repr ≠ "nzcv" := repr_ne (by decide) i
    have hbound : i < 64 := by omega
    rw [bit?, if_neg hname, Numeral.readBelow?_repr hbound]

theorem mapM_bit? {is : List Nat} (h : ∀ i ∈ is, i < 33) : (is.map bitName).mapM bit? = some is := by
  rw [Text.mapM_map_eq_some (g := bitName) (k := id) fun i hi => bit?_bitName (h i hi), List.map_id]

theorem namesIn_text (s : RegisterSet) : namesIn s.text = s.names := by
  have hne : s.names.map String.toList ≠ [] := by
    cases s with
    | all => simp [names]
    | subset m =>
      simp only [names]
      split <;> simp_all
  have hcomma : ∀ p ∈ s.names.map String.toList, ',' ∉ p := by
    intro p hp
    obtain ⟨t, ht, rfl⟩ := List.mem_map.mp hp
    exact (isPiece_of_mem_names ht).1.2
  have hsep : ",".toList = [','] := rfl
  rw [namesIn, text_eq_intercalate, String.toList_intercalate, hsep,
    Text.pieces_intercalate hne hcomma, List.map_map]
  simp [Function.comp_def]

/-! Bits. -/

theorem union_bit {m : BitVec 64} (hm : ∀ j, m.getLsbD j = true → j < 33) {i : Nat} (hi : i < 33) :
    (subset m).union (ofMask (BitVec.twoPow 64 i)) = subset (m ||| BitVec.twoPow 64 i) := by
  refine congrArg subset (BitVec.eq_of_getLsbD_eq fun j _ => ?_)
  rw [getLsbD_and_usable, BitVec.getLsbD_or, getLsbD_and_usable, BitVec.getLsbD_or,
    BitVec.getLsbD_twoPow]
  by_cases hj : j < 33
  · simp [hj]
  · have hbit : m.getLsbD j = false := by simpa using mt (hm j) hj
    have hne : i ≠ j := by omega
    simp [hj, hbit, hne]

/-- What is read bit after bit are the bits that were there and the bits in the list. -/
theorem foldl_union_bit {is : List Nat} (his : ∀ i ∈ is, i < 33) {m : BitVec 64}
    (hm : ∀ j, m.getLsbD j = true → j < 33) :
    ∃ m', is.foldl (fun s i => s.union (ofMask (BitVec.twoPow 64 i))) (subset m) = subset m' ∧
      ∀ j, m'.getLsbD j = true ↔ m.getLsbD j = true ∨ j ∈ is := by
  induction is generalizing m with
  | nil => exact ⟨m, rfl, by simp⟩
  | cons i is ih =>
    obtain ⟨hi, his⟩ := List.forall_mem_cons.mp his
    have hbit (j : Nat) :
        (m ||| BitVec.twoPow 64 i).getLsbD j = true ↔ m.getLsbD j = true ∨ j = i := by
      have hi64 : i < 64 := by omega
      rw [BitVec.getLsbD_or, BitVec.getLsbD_twoPow, Bool.or_eq_true, Bool.and_eq_true,
        decide_eq_true_eq, decide_eq_true_eq, and_iff_right hi64, eq_comm (a := i)]
    have hm' (j : Nat) (hj : (m ||| BitVec.twoPow 64 i).getLsbD j = true) : j < 33 := by
      rcases (hbit j).mp hj with hj | rfl
      · exact hm j hj
      · exact hi
    obtain ⟨m', hfold, hbits⟩ := ih his hm'
    refine ⟨m', ?_, fun j => ?_⟩
    · rw [List.foldl_cons, union_bit hm hi, hfold]
    · rw [hbits, hbit, List.mem_cons, or_assoc]

theorem getLsbD_restrict (m : BitVec 64) (j : Nat) :
    (BitVec.ofNat 64 (m.toNat % 2 ^ 33)).getLsbD j = (decide (j < 33) && m.getLsbD j) := by
  rw [BitVec.getLsbD_ofNat, Nat.testBit_mod_two_pow]
  by_cases hj : j < 33
  · have hj64 : j < 64 := by omega
    simp [-BitVec.getLsbD_eq_getElem, hj, hj64, BitVec.getLsbD]
  · simp [hj]

theorem ofBits_marks (m : BitVec 64) : ofBits (marks m) = (subset m).restrict := by
  obtain ⟨m', hfold, hbits⟩ :=
    foldl_union_bit (m := 0) (fun i hi => (mem_marks.mp hi).1) (fun j hj => by simp at hj)
  rw [ofBits, empty, hfold, restrict]
  refine congrArg subset (BitVec.eq_of_getLsbD_eq fun j _ => ?_)
  rw [Bool.eq_iff_iff, hbits, mem_marks, getLsbD_restrict]
  simp

/-! Texts. -/

theorem restrict_of_marks_eq_nil {m : BitVec 64} (h : marks m = []) : (subset m).restrict = empty := by
  rw [← ofBits_marks, h]
  rfl

theorem marks_eq_nil_iff {m : BitVec 64} : marks m = [] ↔ m.toNat % 2 ^ 33 = 0 := by
  have hzero : marks 0 = [] := by decide
  rw [← hzero, ← agrees_subset_iff]
  exact Iff.rfl

theorem ofText?_text (s : RegisterSet) : ofText? s.text = some s.restrict := by
  cases s with
  | all => rfl
  | subset m =>
    by_cases hm : marks m = []
    · have htext : (subset m).text = "none" := by
        rw [text_eq_intercalate, names, if_pos hm]
        rfl
      rw [htext, restrict_of_marks_eq_nil hm]
      rfl
    · have hall : (subset m).text ≠ "all" := fun h => (text_eq_iff (subset m) .all).mp h
      have hnone : (subset m).text ≠ "none" := fun h =>
        hm (marks_eq_nil_iff.mpr ((text_eq_iff (subset m) .empty).mp h))
      rw [ofText?, if_neg hall, if_neg hnone, namesIn_text, names, if_neg hm,
        mapM_bit? fun i hi => (mem_marks.mp hi).1, Option.map_some, ofBits_marks]

/-- Reading the text of a set gives the set again, up to bits that mean nothing. A text that lists registers
lists them in ascending order, and the flags once and behind them. -/
theorem text_faithful (s : RegisterSet) :
    ofText? s.text = some s.restrict ∧
    (∀ m, s = subset m → m.toNat % 2 ^ 33 ≠ 0 →
      ∃ (is : List Nat) (flags : Bool),
        namesIn s.text = is.map Nat.repr ++ (if flags then ["nzcv"] else []) ∧
        is.Pairwise (· < ·) ∧ ∀ i ∈ is, i ≤ 31) ∧
    ∀ t, s.text = t.text ↔ s.Agrees t := by
  refine ⟨ofText?_text s, ?_, text_eq_iff s⟩
  rintro m rfl hm
  refine ⟨(subset m).indices, (subset m).hasFlags, ?_, pairwise_indices _, fun i hi => ?_⟩
  · rw [namesIn_text, names, if_neg (mt marks_eq_nil_iff.mp hm), map_bitName_marks]
  · exact le_of_contains (mem_indices.mp hi)

end A64.RegisterSet
