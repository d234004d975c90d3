import A64.Register.Set

/-! What can be asked of a register set after registers or flags were added or sets were joined: whether it holds
a register, whether it holds the flags, and whether it is the set of all registers. -/

namespace A64

namespace Register

def IsGeneral (r : Register) : Prop := r.kind = .general ∨ r.kind = .stackPointer

instance (r : Register) : Decidable r.IsGeneral := inferInstanceAs (Decidable (_ ∨ _))

theorem tracked?_eq_some {r : Register} {n : Nat} :
    r.tracked? = some n ↔ r.IsGeneral ∧ r.index = n ∧ n ≤ 31 := by
  obtain ⟨kind, index, size⟩ := r
  cases kind <;> simp [tracked?, IsGeneral] <;> omega

end Register

namespace RegisterSet

variable {s : RegisterSet} {n : Nat}

theorem getLsbD_usable {i : Nat} (hi : i < 64) : usable.getLsbD i = decide (i < 33) := by
  have hall : ∀ i < 64, usable.getLsbD i = decide (i < 33) := by decide
  exact hall i hi

theorem getLsbD_and_usable (m : BitVec 64) (j : Nat) :
    (m &&& usable).getLsbD j = (decide (j < 33) && m.getLsbD j) := by
  by_cases hj : j < 64
  · rw [BitVec.getLsbD_and, getLsbD_usable hj, Bool.and_comm]
  · rw [BitVec.getLsbD_of_ge _ _ (by omega), BitVec.getLsbD_of_ge _ _ (by omega), Bool.and_false]

@[simp] theorem contains_all : RegisterSet.all.contains n = true ↔ n ≤ 31 := by simp [contains]

@[simp] theorem contains_empty : empty.contains n = false := by simp [empty, contains]

theorem contains_insert (r : Register) :
    (s.insert r).contains n = true ↔ s.contains n = true ∨ r.tracked? = some n := by
  cases h : r.tracked? with
  | none => simp [insert, h]
  | some k =>
    have hk : k ≤ 31 := (Register.tracked?_eq_some.mp h).2.2
    cases s with
    | all =>
      simp only [insert, h, insertIndex, contains_all, Option.some.injEq]
      omega
    | subset m =>
      simp only [insert, h, insertIndex, hk, if_true, contains, BitVec.getLsbD_or, BitVec.getLsbD_twoPow,
        Bool.and_eq_true, Bool.or_eq_true, decide_eq_true_eq, Option.some.injEq]
      constructor
      · rintro ⟨hn, hm | ⟨_, hkn⟩⟩
        · exact .inl ⟨hn, hm⟩
        · exact .inr hkn
      · rintro (⟨hn, hm⟩ | rfl)
        · exact ⟨hn, .inl hm⟩
        · exact ⟨hk, .inr ⟨by omega, rfl⟩⟩

theorem le_of_contains (h : s.contains n = true) : n ≤ 31 := by
  cases s with
  | all => exact contains_all.mp h
  | subset m =>
    rw [contains, Bool.and_eq_true, decide_eq_true_eq] at h
    exact h.1

theorem mem_indices : n ∈ s.indices ↔ s.contains n = true := by
  rw [indices, List.mem_filter, List.mem_range]
  exact and_iff_right_of_imp fun h => Nat.lt_succ_of_le (le_of_contains h)

theorem pairwise_indices (s : RegisterSet) : s.indices.Pairwise (· < ·) :=
  List.pairwise_lt_range.filter _

/-- A set holds what it held before and the tracked registers that were added, one after another. -/
theorem contains_insertAll (rs : List Register) :
    (s.insertAll rs).contains n = true ↔ s.contains n = true ∨ ∃ r ∈ rs, r.tracked? = some n := by
  induction rs generalizing s with
  | nil => simp [insertAll]
  | cons r rs ih =>
    have hstep : s.insertAll (r :: rs) = (s.insert r).insertAll rs := rfl
    rw [hstep, ih, contains_insert, or_assoc]
    simp only [List.mem_cons, exists_eq_or_imp]

@[simp] theorem contains_of (rs : List Register) :
    (of rs).contains n = true ↔ ∃ r ∈ rs, r.tracked? = some n := by
  simp [of, contains_insertAll]

@[simp] theorem contains_insertFlags : s.insertFlags.contains n = s.contains n := by
  cases s with
  | all => rfl
  | subset m =>
    by_cases hn : n ≤ 31
    · have hne : ¬flagsBit = n := by simp only [flagsBit]; omega
      simp [insertFlags, contains, hn, hne]
    · simp [insertFlags, contains, hn]

@[simp] theorem contains_withFlags (flags : Bool) : (s.withFlags flags).contains n = s.contains n := by
  cases flags with
  | false => rfl
  | true => exact contains_insertFlags

@[simp] theorem contains_flags : flags.contains n = false := by simp [flags]

@[simp] theorem isAll_empty : empty.isAll = false := rfl

@[simp] theorem hasFlags_empty : empty.hasFlags = false := by simp [empty, hasFlags]

theorem isAll_of_hasFlags (h : s.hasFlags = false) : s.isAll = false := by
  cases s with
  | all => cases h
  | subset m => rfl

theorem isAll_insert (r : Register) : (s.insert r).isAll = s.isAll := by
  cases h : r.tracked? with
  | none => simp [insert, h]
  | some i =>
    cases s with
    | all => simp [insert, h, insertIndex]
    | subset m =>
      simp only [insert, h, insertIndex]
      split <;> rfl

theorem hasFlags_insert (r : Register) : (s.insert r).hasFlags = s.hasFlags := by
  cases h : r.tracked? with
  | none => simp [insert, h]
  | some i =>
    cases s with
    | all => simp [insert, h, insertIndex]
    | subset m =>
      by_cases hi : i ≤ 31
      · have hne : ¬i = flagsBit := by simp only [flagsBit]; omega
        simp [insert, h, insertIndex, hi, hasFlags, hne]
      · simp [insert, h, insertIndex, hi]

@[simp] theorem isAll_insertAll (rs : List Register) : (s.insertAll rs).isAll = s.isAll := by
  induction rs generalizing s with
  | nil => rfl
  | cons r rs ih =>
    have hstep : s.insertAll (r :: rs) = (s.insert r).insertAll rs := rfl
    rw [hstep, ih, isAll_insert]

@[simp] theorem hasFlags_insertAll (rs : List Register) : (s.insertAll rs).hasFlags = s.hasFlags := by
  induction rs generalizing s with
  | nil => rfl
  | cons r rs ih =>
    have hstep : s.insertAll (r :: rs) = (s.insert r).insertAll rs := rfl
    rw [hstep, ih, hasFlags_insert]

@[simp] theorem isAll_of (rs : List Register) : (of rs).isAll = false := isAll_insertAll rs

@[simp] theorem hasFlags_of (rs : List Register) : (of rs).hasFlags = false := by simp [of]

@[simp] theorem isAll_insertFlags : s.insertFlags.isAll = s.isAll := by cases s <;> rfl

@[simp] theorem hasFlags_insertFlags : s.insertFlags.hasFlags = true := by
  cases s with
  | all => rfl
  | subset m => simp [insertFlags, hasFlags, flagsBit]

@[simp] theorem isAll_withFlags (flags : Bool) : (s.withFlags flags).isAll = s.isAll := by
  cases flags with
  | false => rfl
  | true => exact isAll_insertFlags

@[simp] theorem hasFlags_withFlags (flags : Bool) :
    (s.withFlags flags).hasFlags = (s.hasFlags || flags) := by
  cases flags with
  | false => simp [withFlags]
  | true => simp [withFlags]

@[simp] theorem hasFlags_flags : flags.hasFlags = true := hasFlags_insertFlags

theorem contains_union (t : RegisterSet) : (s.union t).contains n = (s.contains n || t.contains n) := by
  by_cases hn : n ≤ 31
  · have hlow : n < 33 := by omega
    cases s <;> cases t
    case subset.subset m m' =>
      simp only [union, ofMask, contains, getLsbD_and_usable, BitVec.getLsbD_or, hn, hlow, decide_true,
        Bool.true_and]
    all_goals simp [union, contains, hn]
  · cases s <;> cases t <;> simp [union, ofMask, contains, hn]

theorem hasFlags_union (t : RegisterSet) : (s.union t).hasFlags = (s.hasFlags || t.hasFlags) := by
  cases s <;> cases t
  case subset.subset m m' =>
    simp only [union, ofMask, hasFlags, getLsbD_and_usable, BitVec.getLsbD_or]
    rfl
  all_goals simp [union, hasFlags]

theorem isAll_union (t : RegisterSet) : (s.union t).isAll = (s.isAll || t.isAll) := by
  cases s <;> cases t <;> rfl

end RegisterSet

end A64
