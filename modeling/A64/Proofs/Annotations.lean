import Mathlib.Data.List.Basic
import A64.Annotation
import A64.Proofs.RegisterSetText

/-! What an annotation tells. It joins up to five segments, each behind a mark of its own, and leaves out
the segments with nothing to tell. Main statement: two instructions have the same annotation exactly if
they have the same effects, the same relative address and the same kind of branch. -/

namespace A64

/-! Texts behind marks. -/

namespace Text

/-- Texts behind their marks, without the marks that have no text. -/
def marked : List String → List (Option String) → List String
  | m :: ms, t :: ts => (t.map (m ++ ·)).toList ++ marked ms ts
  | _, _ => []

theorem marked_cons_none (m : String) (ms : List String) (ts : List (Option String)) :
    marked (m :: ms) (none :: ts) = marked ms ts := rfl

theorem marked_cons_some (m t : String) (ms : List String) (ts : List (Option String)) :
    marked (m :: ms) (some t :: ts) = (m ++ t) :: marked ms ts := rfl

theorem mem_marked {ms : List String} {ts : List (Option String)} {s : String} (h : s ∈ marked ms ts) :
    ∃ m ∈ ms, ∃ t, some t ∈ ts ∧ s = m ++ t := by
  fun_induction marked ms ts with
  | case1 m ms t ts ih =>
    rcases List.mem_append.mp h with h | h
    · obtain ⟨t', rfl, rfl⟩ := Option.map_eq_some_iff.mp (Option.mem_toList.mp h)
      exact ⟨m, List.mem_cons_self, t', List.mem_cons_self, rfl⟩
    · obtain ⟨m', hm', t', ht', rfl⟩ := ih h
      exact ⟨m', List.mem_cons_of_mem m hm', t', List.mem_cons_of_mem t ht', rfl⟩
  | case2 => exact absurd h List.not_mem_nil

def Distinct (m m' : String) : Prop := ∀ t t' : String, m ++ t ≠ m' ++ t'

theorem distinct_of_head? {m m' : String}
    (h : m ≠ "" ∧ m' ≠ "" ∧ m.toList.head? ≠ m'.toList.head?) : Distinct m m' := by
  obtain ⟨hm, hm', hne⟩ := h
  intro t t' heq
  have hheads := congrArg (·.toList.head?) heq
  simp only [String.toList_append] at hheads
  rw [List.head?_append_of_ne_nil _ (mt String.toList_eq_nil_iff.mp hm),
    List.head?_append_of_ne_nil _ (mt String.toList_eq_nil_iff.mp hm')] at hheads
  exact hne hheads

theorem not_mem_marked {m t : String} {ms : List String} (hm : ∀ m' ∈ ms, Distinct m m')
    (ts : List (Option String)) : m ++ t ∉ marked ms ts := by
  intro hmem
  obtain ⟨m', hm', t', -, heq⟩ := mem_marked hmem
  exact hm m' hm' t t' heq

/-- Marks that are told apart tell which texts were left out. -/
theorem marked_inj {ms : List String} (hms : ms.Pairwise Distinct) {ts us : List (Option String)}
    (hts : ts.length = ms.length) (hus : us.length = ms.length) (h : marked ms ts = marked ms us) :
    ts = us := by
  induction ms generalizing ts us with
  | nil => rw [List.length_eq_zero_iff.mp hts, List.length_eq_zero_iff.mp hus]
  | cons m ms ih =>
    obtain ⟨t, ts, rfl⟩ := List.exists_of_length_succ ts hts
    obtain ⟨u, us, rfl⟩ := List.exists_of_length_succ us hus
    obtain ⟨hm, hms⟩ := List.pairwise_cons.mp hms
    have ih := ih hms (Nat.succ.inj hts) (Nat.succ.inj hus)
    cases t <;> cases u
    case none.none =>
      rw [marked_cons_none, marked_cons_none] at h
      rw [ih h]
    case some.some t u =>
      rw [marked_cons_some, marked_cons_some] at h
      obtain ⟨hfirst, hrest⟩ := List.cons.inj h
      rw [(String.append_right_inj m).mp hfirst, ih hrest]
    -- A text on one side only would stand behind a later mark on the other side.
    case none.some u =>
      rw [marked_cons_none, marked_cons_some] at h
      exact absurd (h ▸ List.mem_cons_self) (not_mem_marked hm ts)
    case some.none t =>
      rw [marked_cons_some, marked_cons_none] at h
      exact absurd (h ▸ List.mem_cons_self) (not_mem_marked hm us)

end Text

/-! What the segments tell. -/

theorem Branch.label?_inj {b b' : Branch} : b.label? = b'.label? ↔ b = b' := by
  cases b <;> cases b' <;> decide

theorem Branch.not_mem_label? (b : Branch) : ∀ t ∈ b.label?, ' ' ∉ t.toList := by
  cases b <;> decide

theorem PcRelative.label?_inj {p p' : PcRelative} : p.label? = p'.label? ↔ p = p' := by
  cases p <;> cases p' <;> decide

theorem PcRelative.not_mem_label? (p : PcRelative) : ∀ t ∈ p.label?, ' ' ∉ t.toList := by
  cases p <;> decide

namespace RegisterSet

def text? (s : RegisterSet) : Option String := if s.isEmpty then none else some s.text

theorem isEmpty_congr {s t : RegisterSet} (h : s.Agrees t) : s.isEmpty = t.isEmpty := by
  cases s <;> cases t
  case all.all => rfl
  case subset.subset m m' =>
    rw [Bool.eq_iff_iff, isEmpty_subset_iff, isEmpty_subset_iff, agrees_subset_iff.mp h]
  all_goals exact h.elim

theorem agrees_of_isEmpty {s t : RegisterSet} (hs : s.isEmpty = true) (ht : t.isEmpty = true) :
    s.Agrees t := by
  cases s <;> cases t
  case subset.subset m m' =>
    rw [agrees_subset_iff, isEmpty_subset_iff.mp hs, isEmpty_subset_iff.mp ht]
  all_goals contradiction

theorem text?_eq_iff {s t : RegisterSet} : s.text? = t.text? ↔ s.Agrees t := by
  constructor
  · intro h
    unfold text? at h
    split at h <;> split at h
    · next hs ht => exact agrees_of_isEmpty hs ht
    · contradiction
    · contradiction
    · exact (text_eq_iff s t).mp (Option.some.inj h)
  · intro h
    rw [text?, text?, isEmpty_congr h, (text_eq_iff s t).mpr h]

theorem not_mem_text? (s : RegisterSet) : ∀ t ∈ s.text?, ' ' ∉ t.toList := by
  intro t ht
  unfold text? at ht
  split at ht
  · contradiction
  · exact Option.some.inj ht ▸ not_mem_text s

end RegisterSet

namespace Address

def text? (a : Address) : Option String := if a = 0 then none else some (Hex.text a.toNat)

theorem text?_inj {a b : Address} : a.text? = b.text? ↔ a = b := by
  refine ⟨fun h => ?_, fun h => h ▸ rfl⟩
  unfold text? at h
  split at h <;> split at h
  · next ha hb => rw [ha, hb]
  · contradiction
  · contradiction
  · exact BitVec.eq_of_toNat_eq (Hex.text_inj (Option.some.inj h))

theorem not_mem_text? (a : Address) : ∀ t ∈ a.text?, ' ' ∉ t.toList := by
  intro t ht
  unfold text? at ht
  split at ht
  · contradiction
  · exact Option.some.inj ht ▸ Hex.not_mem_text (by decide) (by decide) a.toNat

end Address

namespace Instruction

def segmentMarks : List String := ["r:", "w:", "pcrel:", "t:", "br:"]

def told (i : Instruction) : List (Option String) :=
  [i.reads.text?, i.writes.text?, i.pcRelative.label?, i.pcRelativeTarget.text?, i.branch.label?]

theorem segments_eq_marked (i : Instruction) : i.segments = Text.marked segmentMarks i.told := by
  have hset (m : String) (s : RegisterSet) :
      (s.text?.map (m ++ ·)).toList = if s.isEmpty then [] else [m ++ s.text] := by
    unfold RegisterSet.text?
    split <;> rfl
  have htarget (m : String) (a : Address) :
      (a.text?.map (m ++ ·)).toList = if a = 0 then [] else [m ++ Hex.text a.toNat] := by
    unfold Address.text?
    split <;> rfl
  simp only [segments, segmentMarks, told, Text.marked, hset, htarget, List.append_assoc,
    List.append_nil]

theorem pairwise_segmentMarks : segmentMarks.Pairwise Text.Distinct := by
  have hheads : segmentMarks.Pairwise
      fun m m' => m ≠ "" ∧ m' ≠ "" ∧ m.toList.head? ≠ m'.toList.head? := by decide
  exact hheads.imp Text.distinct_of_head?

theorem not_mem_of_told {i : Instruction} {t : String} (h : some t ∈ i.told) : ' ' ∉ t.toList := by
  simp only [told, List.mem_cons, List.not_mem_nil, or_false] at h
  rcases h with h | h | h | h | h
  · exact i.reads.not_mem_text? t h.symm
  · exact i.writes.not_mem_text? t h.symm
  · exact i.pcRelative.not_mem_label? t h.symm
  · exact i.pcRelativeTarget.not_mem_text? t h.symm
  · exact i.branch.not_mem_label? t h.symm

theorem isPiece_of_mem_segments {i : Instruction} {s : String} (h : s ∈ i.segments) :
    Text.IsPiece ' ' s.toList := by
  rw [segments_eq_marked] at h
  obtain ⟨m, hm, t, ht, rfl⟩ := Text.mem_marked h
  have hmarks : ∀ m ∈ segmentMarks, m.toList ≠ [] ∧ ' ' ∉ m.toList := by decide
  obtain ⟨hne, hspace⟩ := hmarks m hm
  rw [String.toList_append]
  refine ⟨List.append_ne_nil_of_left_ne_nil hne t.toList, ?_⟩
  rw [List.mem_append, not_or]
  exact ⟨hspace, not_mem_of_told ht⟩

theorem told_eq_iff {i j : Instruction} :
    i.told = j.told ↔
      i.reads.Agrees j.reads ∧ i.writes.Agrees j.writes ∧ i.pcRelative = j.pcRelative ∧
      i.pcRelativeTarget = j.pcRelativeTarget ∧ i.branch = j.branch := by
  simp only [told, List.cons.injEq, and_true, RegisterSet.text?_eq_iff, PcRelative.label?_inj,
    Address.text?_inj, Branch.label?_inj]

/-- An annotation tells the effects, the relative address and the kind of branch, and nothing more. -/
theorem annotation_eq_iff (i j : Instruction) :
    i.annotation = j.annotation ↔
      i.reads.Agrees j.reads ∧ i.writes.Agrees j.writes ∧ i.pcRelative = j.pcRelative ∧
      i.pcRelativeTarget = j.pcRelativeTarget ∧ i.branch = j.branch := by
  rw [← told_eq_iff, annotation, annotation]
  constructor
  · intro h
    have hsegments := Text.join_inj (c := ' ') (by decide) (fun _ => isPiece_of_mem_segments)
      (fun _ => isPiece_of_mem_segments) h
    rw [segments_eq_marked, segments_eq_marked] at hsegments
    exact Text.marked_inj pairwise_segmentMarks rfl rfl hsegments
  · intro h
    rw [segments_eq_marked, segments_eq_marked, h]

end Instruction

end A64
