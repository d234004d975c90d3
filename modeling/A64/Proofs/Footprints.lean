import Mathlib.Combinatorics.Colex
import Mathlib.Data.Finset.Sort
import A64.Proofs.RegisterSetText

/-! The sets that register sets stand for. A footprint is a finite set of register numbers, with or without the
flags, and may be marked as everything. Main statement: whatever is done to a register set, all that can be
asked of it is told by the footprint to which the same is done. -/

namespace A64

/-- The registers that a set stands for. `universal` marks the set of all registers. -/
@[ext] structure Footprint where
  universal : Bool
  general : Finset Nat
  flags : Bool
  general_subset : general ⊆ Finset.range 32
  all_of_universal : universal = true → general = Finset.range 32 ∧ flags = true
  deriving DecidableEq

namespace RegisterSet

structure Answers where
  contains : Nat → Bool
  hasFlags : Bool
  isEmpty : Bool
  isAll : Bool
  mask? : Option (BitVec 64)
  indices : List Nat
  text : String

def answers (s : RegisterSet) : Answers where
  contains := s.contains
  hasFlags := s.hasFlags
  isEmpty := s.isEmpty
  isAll := s.isAll
  mask? := s.mask?
  indices := s.indices
  text := s.text

inductive Step where
  | empty
  | all
  | subset (mask : BitVec 64)
  | ofMask (mask : BitVec 64)
  | insert (r : Register)
  | insertIndex (i : Nat)
  | insertFlags
  | union (t : RegisterSet)

def step (s : RegisterSet) : Step → RegisterSet
  | .empty => empty
  | .all => all
  | .subset m => subset m
  | .ofMask m => ofMask m
  | .insert r => s.insert r
  | .insertIndex i => s.insertIndex i
  | .insertFlags => s.insertFlags
  | .union t => s.union t

def run (s : RegisterSet) (steps : List Step) : RegisterSet := steps.foldl step s

end RegisterSet

namespace Footprint

def none : Footprint := ⟨false, ∅, false, by simp, by simp⟩

def everything : Footprint := ⟨true, Finset.range 32, true, subset_rfl, by simp⟩

def ofMask (m : BitVec 64) : Footprint where
  universal := false
  general := {i ∈ Finset.range 32 | m.getLsbD i = true}
  flags := m.getLsbD 32
  general_subset := Finset.filter_subset _ _
  all_of_universal := by simp

def insertIndex (f : Footprint) (i : Nat) : Footprint :=
  if h : i ∈ Finset.range 32 then
    { f with
      general := insert i f.general
      general_subset := Finset.insert_subset h f.general_subset
      all_of_universal := fun hall => by
        obtain ⟨hgeneral, hflags⟩ := f.all_of_universal hall
        rw [hgeneral, Finset.insert_eq_of_mem h]
        exact ⟨rfl, hflags⟩ }
  else f

def insertRegister (f : Footprint) (r : Register) : Footprint :=
  if r.IsGeneral then f.insertIndex r.index else f

def insertFlags (f : Footprint) : Footprint :=
  { f with
    flags := true
    all_of_universal := fun hall => ⟨(f.all_of_universal hall).1, rfl⟩ }

/-- The members of both. What is joined with everything is everything. -/
def union (f g : Footprint) : Footprint where
  universal := f.universal || g.universal
  general := f.general ∪ g.general
  flags := f.flags || g.flags
  general_subset := Finset.union_subset f.general_subset g.general_subset
  all_of_universal hall := by
    rcases (Bool.or_eq_true _ _).mp hall with hall | hall
    · obtain ⟨hgeneral, hflags⟩ := f.all_of_universal hall
      rw [hgeneral, hflags, Finset.union_eq_left.mpr g.general_subset]
      exact ⟨rfl, rfl⟩
    · obtain ⟨hgeneral, hflags⟩ := g.all_of_universal hall
      rw [hgeneral, hflags, Finset.union_eq_right.mpr f.general_subset, Bool.or_true]
      exact ⟨rfl, rfl⟩

theorem mem_insertRegister {f : Footprint} {r : Register} {i : Nat} :
    i ∈ (f.insertRegister r).general ↔ i ∈ f.general ∨ r.IsGeneral ∧ r.index = i ∧ i ≤ 31 := by
  unfold insertRegister insertIndex
  split
  · split
    · next hr hi =>
      have hle := Nat.le_of_lt_succ (Finset.mem_range.mp hi)
      simp only [Finset.mem_insert]
      grind
    · next hr hi =>
      rw [Finset.mem_range] at hi
      grind
  · simp [*]

theorem universal_insertRegister (f : Footprint) (r : Register) :
    (f.insertRegister r).universal = f.universal := by
  unfold insertRegister insertIndex
  repeat' split
  all_goals rfl

theorem flags_insertRegister (f : Footprint) (r : Register) :
    (f.insertRegister r).flags = f.flags := by
  unfold insertRegister insertIndex
  repeat' split
  all_goals rfl

def isEmpty (f : Footprint) : Bool := decide (f.general = ∅) && !f.flags

/-- The bits of the members, the flags being bit 32. -/
def bits (f : Footprint) : Finset Nat := if f.flags then insert 32 f.general else f.general

def mask (f : Footprint) : Nat := ∑ i ∈ f.bits, 2 ^ i

theorem mem_bits_ofMask {m : BitVec 64} {i : Nat} :
    i ∈ (ofMask m).bits ↔ i < 33 ∧ m.getLsbD i = true := by
  have hgeneral : i ∈ (ofMask m).general ↔ i < 32 ∧ m.getLsbD i = true := by
    rw [ofMask, Finset.mem_filter, Finset.mem_range]
  have hbits : (ofMask m).bits =
      if m.getLsbD 32 then insert 32 (ofMask m).general else (ofMask m).general := rfl
  rw [hbits]
  by_cases hi : i = 32
  · subst hi
    cases h : m.getLsbD 32 <;> simp [hgeneral, h]
  · have hlt : i < 33 ↔ i < 32 := by omega
    rw [hlt, ← hgeneral]
    split
    · rw [Finset.mem_insert, or_iff_right hi]
    · rfl

def text (f : Footprint) : String :=
  if f.universal then "all"
  else if f.isEmpty then "none"
  else ",".intercalate (f.general.sort.map Nat.repr ++ if f.flags then ["nzcv"] else [])

def answers (f : Footprint) : RegisterSet.Answers where
  contains i := decide (i ∈ f.general)
  hasFlags := f.flags
  isEmpty := f.isEmpty
  isAll := f.universal
  mask? := if f.universal then .none else some (BitVec.ofNat 64 f.mask)
  indices := f.general.sort
  text := f.text

end Footprint

namespace RegisterSet

def footprint : RegisterSet → Footprint
  | .all => .everything
  | .subset m => .ofMask m

end RegisterSet

namespace Footprint

def step (f : Footprint) : RegisterSet.Step → Footprint
  | .empty => none
  | .all => everything
  | .subset m | .ofMask m => ofMask m
  | .insert r => f.insertRegister r
  | .insertIndex i => f.insertIndex i
  | .insertFlags => f.insertFlags
  | .union t => f.union t.footprint

def run (f : Footprint) (steps : List RegisterSet.Step) : Footprint := steps.foldl step f

end Footprint

namespace RegisterSet

variable {s t : RegisterSet}

/-! A footprint tells what its set holds. -/

theorem universal_footprint (s : RegisterSet) : s.footprint.universal = s.isAll := by cases s <;> rfl

theorem flags_footprint (s : RegisterSet) : s.footprint.flags = s.hasFlags := by cases s <;> rfl

theorem mem_general {i : Nat} : i ∈ s.footprint.general ↔ s.contains i = true := by
  cases s with
  | all =>
    rw [footprint, Footprint.everything, Finset.mem_range, contains_all]
    exact Nat.lt_succ_iff
  | subset m =>
    rw [footprint, Footprint.ofMask, Finset.mem_filter, Finset.mem_range, contains, Bool.and_eq_true,
      decide_eq_true_eq, Nat.lt_succ_iff]

theorem footprint_congr (h : s.Agrees t) : s.footprint = t.footprint := by
  cases s <;> cases t
  case all.all => rfl
  case subset.subset m m' =>
    have hbits := marks_eq_iff.mp (agrees_subset_iff.mp h)
    have hgeneral : {i ∈ Finset.range 32 | m.getLsbD i = true} =
        {i ∈ Finset.range 32 | m'.getLsbD i = true} := by
      refine Finset.filter_congr fun i hi => ?_
      have hlt := Finset.mem_range.mp hi
      rw [hbits i (by omega)]
    exact Footprint.ext rfl hgeneral (hbits 32 (by omega))
  all_goals exact h.elim

/-! One step, seen from the footprint. -/

theorem footprint_empty : empty.footprint = .none := by decide

theorem footprint_ofMask (m : BitVec 64) : (ofMask m).footprint = .ofMask m := by
  refine footprint_congr (agrees_subset_iff.mpr (marks_eq_iff.mpr fun i hi => ?_))
  rw [getLsbD_and_usable, decide_eq_true hi, Bool.true_and]

theorem footprint_insert (r : Register) : (s.insert r).footprint = s.footprint.insertRegister r := by
  apply Footprint.ext
  · rw [universal_footprint, isAll_insert, Footprint.universal_insertRegister, universal_footprint]
  · ext i
    rw [mem_general, contains_insert, Register.tracked?_eq_some, Footprint.mem_insertRegister,
      mem_general]
  · rw [flags_footprint, hasFlags_insert, Footprint.flags_insertRegister, flags_footprint]

theorem insertIndex_eq_insert (s : RegisterSet) (i : Nat) :
    s.insertIndex i = s.insert ⟨.general, i, 64⟩ := by
  by_cases hi : i ≤ 31
  · simp [insert, Register.tracked?, hi]
  · cases s <;> simp [insert, Register.tracked?, hi, insertIndex]

theorem footprint_insertFlags : s.insertFlags.footprint = s.footprint.insertFlags := by
  apply Footprint.ext
  · rw [universal_footprint, isAll_insertFlags]
    exact (universal_footprint s).symm
  · ext i
    rw [mem_general, contains_insertFlags]
    exact mem_general.symm
  · rw [flags_footprint, hasFlags_insertFlags]
    rfl

theorem footprint_union (t : RegisterSet) : (s.union t).footprint = s.footprint.union t.footprint := by
  apply Footprint.ext
  · rw [universal_footprint, isAll_union, ← universal_footprint, ← universal_footprint]
    rfl
  · ext i
    rw [mem_general, contains_union, Bool.or_eq_true, ← mem_general, ← mem_general]
    exact Finset.mem_union.symm
  · rw [flags_footprint, hasFlags_union, ← flags_footprint, ← flags_footprint]
    rfl

theorem footprint_step (s : RegisterSet) (op : Step) : (s.step op).footprint = s.footprint.step op := by
  cases op with
  | empty => exact footprint_empty
  | all | subset m => rfl
  | ofMask m => exact footprint_ofMask m
  | insert r => exact footprint_insert r
  | insertIndex i =>
    rw [step, insertIndex_eq_insert, footprint_insert, Footprint.insertRegister, if_pos (.inl rfl)]
    rfl
  | insertFlags => exact footprint_insertFlags
  | union t => exact footprint_union t

/-- Doing the same to a set and to its footprint keeps them together. -/
theorem footprint_run (s : RegisterSet) (steps : List Step) :
    (s.run steps).footprint = s.footprint.run steps := by
  induction steps generalizing s with
  | nil => rfl
  | cons op steps ih =>
    have hstep := ih (s.step op)
    rw [footprint_step] at hstep
    exact hstep

/-! What a set answers, its footprint answers. -/

theorem general_eq_toFinset (s : RegisterSet) : s.footprint.general = s.indices.toFinset := by
  ext i
  rw [mem_general, List.mem_toFinset, mem_indices]

theorem sort_general (s : RegisterSet) : s.footprint.general.sort = s.indices := by
  have hlt := pairwise_indices s
  have hnodup : s.indices.Nodup := hlt.imp Nat.ne_of_lt
  rw [general_eq_toFinset, List.toFinset_sort (· ≤ ·) hnodup]
  exact hlt.imp Nat.le_of_lt

theorem isEmpty_footprint (s : RegisterSet) : s.footprint.isEmpty = s.isEmpty := by
  cases s with
  | all => decide
  | subset m =>
    have hflags : (subset m).footprint.flags = m.getLsbD flagsBit := rfl
    rw [Bool.eq_iff_iff, isEmpty_subset_iff, marks_eq_indices, Footprint.isEmpty, general_eq_toFinset,
      hflags]
    cases m.getLsbD flagsBit <;> simp

theorem toNat_and_usable (m : BitVec 64) : (m &&& usable).toNat = (Footprint.ofMask m).mask := by
  have hbits : (m &&& usable).toNat.bitIndices.toFinset = (Footprint.ofMask m).bits := by
    ext i
    have hbit : (m &&& usable).toNat.testBit i = (decide (i < 33) && m.getLsbD i) :=
      getLsbD_and_usable m i
    rw [List.mem_toFinset, Nat.mem_bitIndices, hbit, Footprint.mem_bits_ofMask, Bool.and_eq_true,
      decide_eq_true_eq]
  rw [Footprint.mask, ← hbits, Finset.sum_toFinset_bitIndices_two_pow]

theorem mask?_footprint (s : RegisterSet) : s.footprint.answers.mask? = s.mask? := by
  cases s with
  | all => rfl
  | subset m =>
    have hmask : BitVec.ofNat 64 (subset m).footprint.mask = m &&& usable := by
      rw [footprint, ← toNat_and_usable, BitVec.ofNat_toNat, BitVec.setWidth_eq]
    exact congrArg some hmask

theorem text_footprint (s : RegisterSet) : s.footprint.text = s.text := by
  rw [Footprint.text, universal_footprint, isEmpty_footprint, sort_general, flags_footprint, text]

theorem answers_footprint (s : RegisterSet) : s.footprint.answers = s.answers := by
  have hcontains : s.footprint.answers.contains = s.contains := by
    funext i
    rw [Bool.eq_iff_iff, Footprint.answers, decide_eq_true_eq, mem_general]
  simp only [answers, ← hcontains, ← isEmpty_footprint, ← mask?_footprint, ← sort_general,
    ← text_footprint, ← flags_footprint, ← universal_footprint]
  rfl

/-- A register set refines the set that it stands for: after any steps it answers what the footprint answers
after the same steps. So two sets that differ in bits that mean nothing are not told apart by anything that is
done to both, and no other sets are like that. -/
theorem run_refines (s : RegisterSet) (steps : List Step) :
    (s.run steps).footprint = s.footprint.run steps ∧
    (s.run steps).answers = (s.footprint.run steps).answers ∧
    ∀ (t : RegisterSet) (steps' : List Step),
      (s.run steps).Agrees (t.run steps') ↔
        ∀ more, ((s.run steps).run more).answers = ((t.run steps').run more).answers := by
  refine ⟨footprint_run s steps, ?_, fun t steps' => ⟨fun h more => ?_, fun h => ?_⟩⟩
  · rw [← footprint_run, answers_footprint]
  · rw [← answers_footprint, ← answers_footprint, footprint_run _ more, footprint_run _ more,
      footprint_congr h]
  · exact (text_eq_iff _ _).mp (congrArg Answers.text (h []))

end RegisterSet

end A64
