import Mathlib.Algebra.Group.Nat.Defs
import A64.Instruction
import A64.Proofs.RegisterSets

/-! Instructions that are put together edit by edit. An edit leaves notes for the registers that are read and for
those that are written. Main statement: after any run of edits each register set holds exactly what was noted
for it, so that the order of the notes does not matter, and what is not there has no target. -/

namespace A64

inductive Note where
  | register (r : Register)
  | flags
  | everything
  deriving DecidableEq, Repr

/-- The note asks for the bit `j`, the flags being bit 32. -/
def Note.Marks (j : Nat) : Note → Prop
  | register r => r.tracked? = some j
  | flags => j = 32
  | everything => True

namespace RegisterSet

variable {s t : RegisterSet} {j : Nat}

/-- The bit `j` is set. The set of all registers has every bit. -/
def HasBit (j : Nat) : RegisterSet → Prop
  | .all => True
  | .subset m => m.getLsbD j = true

theorem not_hasBit_empty (j : Nat) : ¬empty.HasBit j := by simp [empty, HasBit]

theorem hasBit_insert (r : Register) : (s.insert r).HasBit j ↔ s.HasBit j ∨ r.tracked? = some j := by
  cases htracked : r.tracked? with
  | none => simp [insert, htracked]
  | some i =>
    have hi : i ≤ 31 := (Register.tracked?_eq_some.mp htracked).2.2
    have hi64 : i < 64 := by omega
    cases s with
    | all => simp [insert, htracked, insertIndex, HasBit]
    | subset m =>
      simp only [insert, htracked, insertIndex, hi, if_true, HasBit, BitVec.getLsbD_or,
        BitVec.getLsbD_twoPow, Bool.or_eq_true, Bool.and_eq_true, decide_eq_true_eq, hi64, true_and,
        Option.some.injEq]

theorem hasBit_insertFlags : s.insertFlags.HasBit j ↔ s.HasBit j ∨ j = 32 := by
  cases s with
  | all => simp [insertFlags, HasBit]
  | subset m =>
    simp only [insertFlags, flagsBit, HasBit, BitVec.getLsbD_or, BitVec.getLsbD_twoPow, Bool.or_eq_true,
      Bool.and_eq_true, decide_eq_true_eq, Nat.reduceLT, true_and, eq_comm (a := 32)]

theorem eq_of_hasBit (hall : s.isAll = true ↔ t.isAll = true) (h : ∀ j, s.HasBit j ↔ t.HasBit j) :
    s = t := by
  cases s with
  | all =>
    cases t with
    | all => rfl
    | subset m => simp [isAll] at hall
  | subset m =>
    cases t with
    | all => simp [isAll] at hall
    | subset m' => exact congrArg subset (BitVec.eq_of_getLsbD_eq fun j _ => Bool.eq_iff_iff.mpr (h j))

/-! One note, and from it a run of notes. -/

def add (s : RegisterSet) : Note → RegisterSet
  | .register r => s.insert r
  | .flags => s.insertFlags
  | .everything => .all

def addAll (s : RegisterSet) (notes : List Note) : RegisterSet := notes.foldl add s

theorem addAll_cons (s : RegisterSet) (note : Note) (notes : List Note) :
    s.addAll (note :: notes) = (s.add note).addAll notes := rfl

theorem isAll_add (note : Note) : (s.add note).isAll = true ↔ s.isAll = true ∨ .everything = note := by
  cases note with
  | register r => simp [add, isAll_insert]
  | flags => simp [add]
  | everything => simp [add, isAll]

theorem hasBit_add (note : Note) : (s.add note).HasBit j ↔ s.HasBit j ∨ note.Marks j := by
  cases note with
  | register r => exact hasBit_insert r
  | flags => exact hasBit_insertFlags
  | everything => exact (or_true _).symm.to_iff

theorem isAll_addAll (notes : List Note) :
    (s.addAll notes).isAll = true ↔ s.isAll = true ∨ .everything ∈ notes := by
  induction notes generalizing s with
  | nil => simp [addAll]
  | cons note notes ih => rw [addAll_cons, ih, isAll_add, or_assoc, List.mem_cons]

theorem hasBit_addAll (notes : List Note) :
    (s.addAll notes).HasBit j ↔ s.HasBit j ∨ ∃ note ∈ notes, note.Marks j := by
  induction notes generalizing s with
  | nil => simp [addAll]
  | cons note notes ih =>
    rw [addAll_cons, ih, hasBit_add, or_assoc]
    simp only [List.mem_cons, exists_eq_or_imp]

/-- It matters which notes there are, and neither their order nor their number. -/
theorem addAll_congr {notes notes' : List Note} (h : ∀ note, note ∈ notes ↔ note ∈ notes') :
    s.addAll notes = s.addAll notes' := by
  apply eq_of_hasBit
  · rw [isAll_addAll, isAll_addAll, h]
  · intro j
    simp only [hasBit_addAll, h]

/-- The set is that of all registers if `everything` holds. Otherwise it has the bits of those `named`
registers that are tracked, and that of the flags if `flags` holds. -/
structure Gathers (everything : Prop) (named : Register → Prop) (flags : Prop) (s : RegisterSet) :
    Prop where
  all_iff : s = .all ↔ everything
  exact_mask : ¬everything → ∃ m, s = .subset m ∧ m.toNat < 2 ^ 33 ∧
    ∀ j, m.getLsbD j = true ↔
      (∃ r, named r ∧ (r.kind = .general ∨ r.kind = .stackPointer) ∧ r.index = j ∧ j ≤ 31) ∨
        j = 32 ∧ flags

theorem gathers_addAll (notes : List Note) :
    (empty.addAll notes).Gathers (.everything ∈ notes) (fun r => .register r ∈ notes) (.flags ∈ notes) := by
  have hall : (empty.addAll notes).isAll = true ↔ .everything ∈ notes := by
    rw [isAll_addAll, isAll_empty]
    simp
  have hbits (j : Nat) : (empty.addAll notes).HasBit j ↔ ∃ note ∈ notes, note.Marks j := by
    rw [hasBit_addAll, or_iff_right (not_hasBit_empty j)]
  generalize empty.addAll notes = s at hall hbits
  cases s with
  | all => exact ⟨iff_of_true rfl (hall.mp rfl), fun h => absurd (hall.mp rfl) h⟩
  | subset m =>
    have hne : .everything ∉ notes := fun h => by simpa [isAll] using hall.mpr h
    have hmask (j : Nat) : m.getLsbD j = true ↔
        (∃ r, .register r ∈ notes ∧ r.IsGeneral ∧ r.index = j ∧ j ≤ 31) ∨ j = 32 ∧ .flags ∈ notes := by
      refine (hbits j).trans ⟨?_, ?_⟩
      · rintro ⟨note, hmem, hmarks⟩
        cases note with
        | register r => exact .inl ⟨r, hmem, Register.tracked?_eq_some.mp hmarks⟩
        | flags => exact .inr ⟨hmarks, hmem⟩
        | everything => exact absurd hmem hne
      · rintro (⟨r, hmem, hr⟩ | ⟨hj, hmem⟩)
        · exact ⟨_, hmem, Register.tracked?_eq_some.mpr hr⟩
        · exact ⟨_, hmem, hj⟩
    refine ⟨iff_of_false (by simp) hne, fun _ => ⟨m, rfl, ?_, hmask⟩⟩
    apply Nat.lt_pow_two_of_testBit
    intro j hj
    rw [← Bool.not_eq_true]
    intro hbit
    rcases (hmask j).mp hbit with ⟨r, _, _, _, hle⟩ | ⟨hle, _⟩ <;> omega

end RegisterSet

namespace Instruction

inductive Access where
  | read
  | written
  deriving DecidableEq, Repr

def touched (i : Instruction) : Access → RegisterSet
  | .read => i.reads
  | .written => i.writes

namespace Edit

def ofRegisters (rs : List Register) : Access → Edit
  | .read => .reads rs
  | .written => .writes rs

def ofFlags : Access → Edit
  | .read => .flagsRead
  | .written => .flagsWritten

def notes : Access → Edit → List Note
  | .read, .reads rs | .written, .writes rs => rs.map .register
  | .read, .flagsRead | .written, .flagsWritten => [.flags]
  | _, .allRegisters => [.everything]
  | _, _ => []

def recordsEffect : Edit → Bool
  | .reads _ | .writes _ | .flagsRead | .flagsWritten | .allRegisters => true
  | .operation _ | .operand _ | .operands _ | .branch _ _ | .pcRelative _ _ => false

theorem recordsEffect_of_mem_notes {a : Access} {e : Edit} {note : Note} (h : note ∈ e.notes a) :
    e.recordsEffect = true := by
  cases a <;> cases e <;> simp_all [notes, recordsEffect]

theorem register_mem_notes {a : Access} {e : Edit} {r : Register} :
    .register r ∈ e.notes a ↔ ∃ rs, e = ofRegisters rs a ∧ r ∈ rs := by
  cases a <;> cases e <;> simp [notes, ofRegisters]

theorem flags_mem_notes {a : Access} {e : Edit} : .flags ∈ e.notes a ↔ e = ofFlags a := by
  cases a <;> cases e <;> simp [notes, ofFlags]

theorem everything_mem_notes {a : Access} {e : Edit} : .everything ∈ e.notes a ↔ e = .allRegisters := by
  cases a <;> cases e <;> simp [notes]

end Edit

def editAll (i : Instruction) (edits : List Edit) : Instruction := edits.foldl edit i

theorem editAll_cons (i : Instruction) (e : Edit) (edits : List Edit) :
    i.editAll (e :: edits) = (i.edit e).editAll edits := rfl

theorem touched_edit (i : Instruction) (e : Edit) (a : Access) :
    (i.edit e).touched a = (i.touched a).addAll (e.notes a) := by
  have hregisters (s : RegisterSet) (rs : List Register) :
      s.insertAll rs = s.addAll (rs.map .register) := by
    rw [RegisterSet.addAll, List.foldl_map]
    rfl
  cases a <;> cases e
  case read.reads rs => exact hregisters i.reads rs
  case written.writes rs => exact hregisters i.writes rs
  all_goals rfl

theorem touched_editAll (i : Instruction) (edits : List Edit) (a : Access) :
    (i.editAll edits).touched a = (i.touched a).addAll (edits.flatMap (Edit.notes a)) := by
  induction edits generalizing i with
  | nil => rfl
  | cons e edits ih =>
    rw [editAll_cons, ih, touched_edit, List.flatMap_cons]
    exact List.foldl_append.symm

/-- The instruction `i` can have been edited from `start`: it stands for the same word, and what it does not do
has no target. -/
structure EditedFrom (start i : Instruction) : Prop where
  raw : i.raw = start.raw
  address : i.address = start.address
  encodingClass : i.encodingClass = start.encodingClass
  mnemonic : i.mnemonic = start.mnemonic
  branchTarget : i.branch = .none → i.branchTarget = 0
  pcRelativeTarget : i.pcRelative = .none → i.pcRelativeTarget = 0

theorem EditedFrom.edit {start i : Instruction} (h : EditedFrom start i) (e : Edit) :
    EditedFrom start (i.edit e) := by
  obtain ⟨hraw, haddress, hclass, hmnemonic, hbranch, hpc⟩ := h
  cases e with
  | branch b target => exact ⟨hraw, haddress, hclass, hmnemonic, fun hb => if_pos hb, hpc⟩
  | pcRelative p target => exact ⟨hraw, haddress, hclass, hmnemonic, hbranch, fun hp => if_pos hp⟩
  | _ => exact ⟨hraw, haddress, hclass, hmnemonic, hbranch, hpc⟩

theorem EditedFrom.editAll {start i : Instruction} (h : EditedFrom start i) (edits : List Edit) :
    EditedFrom start (i.editAll edits) := by
  induction edits generalizing i with
  | nil => exact h
  | cons e edits ih => exact ih (h.edit e)

section

variable (address : Address) (raw : Word) (c : EncodingClass) (mnemonic : Option String)

theorem editedFrom_blank : EditedFrom (blank address raw c mnemonic) (blank address raw c mnemonic) :=
  ⟨rfl, rfl, rfl, rfl, fun _ => rfl, fun _ => rfl⟩

theorem touched_editAll_blank (edits : List Edit) (a : Access) :
    ((blank address raw c mnemonic).editAll edits).touched a =
      RegisterSet.empty.addAll (edits.flatMap (Edit.notes a)) := by
  rw [touched_editAll]
  cases a <;> rfl

theorem gathers_editAll (edits : List Edit) (a : Access) :
    (((blank address raw c mnemonic).editAll edits).touched a).Gathers (.allRegisters ∈ edits)
      (fun r => ∃ rs, Edit.ofRegisters rs a ∈ edits ∧ r ∈ rs) (Edit.ofFlags a ∈ edits) := by
  have hregister (r : Register) : .register r ∈ edits.flatMap (Edit.notes a) ↔
      ∃ rs, Edit.ofRegisters rs a ∈ edits ∧ r ∈ rs := by
    simp only [List.mem_flatMap, Edit.register_mem_notes]
    constructor
    · rintro ⟨_, he, rs, rfl, hr⟩
      exact ⟨rs, he, hr⟩
    · rintro ⟨rs, he, hr⟩
      exact ⟨_, he, rs, rfl, hr⟩
  have h := RegisterSet.gathers_addAll (edits.flatMap (Edit.notes a))
  simp only [hregister] at h
  rw [touched_editAll_blank]
  simpa only [List.mem_flatMap, Edit.flags_mem_notes, Edit.everything_mem_notes, exists_eq_right] using h

/-- Edits that record no effect may stand anywhere between the others, and these in any order. -/
theorem touched_editAll_perm {edits edits' : List Edit}
    (h : (edits.filter Edit.recordsEffect).Perm (edits'.filter Edit.recordsEffect)) (a : Access) :
    RegisterSet.empty.addAll (edits.flatMap (Edit.notes a)) =
      RegisterSet.empty.addAll (edits'.flatMap (Edit.notes a)) := by
  have hmem (edits : List Edit) (note : Note) : note ∈ edits.flatMap (Edit.notes a) ↔
      ∃ e ∈ edits.filter Edit.recordsEffect, note ∈ e.notes a := by
    simp only [List.mem_flatMap, List.mem_filter]
    constructor
    · rintro ⟨e, he, hnote⟩
      exact ⟨e, ⟨he, Edit.recordsEffect_of_mem_notes hnote⟩, hnote⟩
    · rintro ⟨e, ⟨he, -⟩, hnote⟩
      exact ⟨e, he, hnote⟩
  apply RegisterSet.addAll_congr
  intro note
  simp only [hmem, h.mem_iff]

/-- Whatever edits a new instruction goes through, it stands for the same word, what it does not do has no
target, and its register sets hold what was recorded for them. So the order of the edits that record effects
does not matter, nor do the edits between them. -/
theorem editAll_blank_gathers (edits : List Edit) :
    let i := (blank address raw c mnemonic).editAll edits
    (i.branch = .none → i.branchTarget = 0) ∧
    (i.pcRelative = .none → i.pcRelativeTarget = 0) ∧
    i.reads.Gathers (.allRegisters ∈ edits) (fun r => ∃ rs, .reads rs ∈ edits ∧ r ∈ rs)
      (.flagsRead ∈ edits) ∧
    i.writes.Gathers (.allRegisters ∈ edits) (fun r => ∃ rs, .writes rs ∈ edits ∧ r ∈ rs)
      (.flagsWritten ∈ edits) ∧
    (∀ address' raw' c' mnemonic' edits',
      (edits.filter Edit.recordsEffect).Perm (edits'.filter Edit.recordsEffect) →
      let i' := (blank address' raw' c' mnemonic').editAll edits'
      i'.reads = i.reads ∧ i'.writes = i.writes) ∧
    i.raw = raw ∧ i.address = address ∧ i.encodingClass = c ∧ i.mnemonic = mnemonic := by
  have hedited := (editedFrom_blank address raw c mnemonic).editAll edits
  refine ⟨hedited.branchTarget, hedited.pcRelativeTarget,
    gathers_editAll address raw c mnemonic edits .read,
    gathers_editAll address raw c mnemonic edits .written, ?_,
    hedited.raw, hedited.address, hedited.encodingClass, hedited.mnemonic⟩
  intro address' raw' c' mnemonic' edits' hperm
  have htouched (a : Access) : ((blank address' raw' c' mnemonic').editAll edits').touched a =
      ((blank address raw c mnemonic).editAll edits).touched a := by
    rw [touched_editAll_blank, touched_editAll_blank, touched_editAll_perm hperm]
  exact ⟨htouched .read, htouched .written⟩

end

/-- A jump is taken back, and only the first of three registers that are read is tracked. -/
def mixedEdits : List Edit :=
  [.reads [.x 1, .x 31, ⟨.general, 40, 64⟩], .branch .unconditional 0x40, .flagsWritten, .reads [.sp],
   .branch .none 0x80]

/-- The effects of the same edits in another order, with other edits between them. -/
def shuffledEdits : List Edit :=
  [.reads [.sp], .operation .add, .flagsWritten, .pcRelative .addressPage 0x1000,
   .reads [.x 1, .x 31, ⟨.general, 40, 64⟩]]

theorem editAll_mixedEdits :
    let i := (blank 0x1000 0x8B020020 .dataRegister (some "add")).editAll mixedEdits
    let i' := (blank 0 0 .reserved none).editAll shuffledEdits
    i.branch = .none ∧ i.branchTarget = 0 ∧ i.reads = .subset 0x80000002 ∧ i.writes = .subset 0x100000000 ∧
      i'.reads = i.reads ∧ i'.writes = i.writes := by
  intro i i'
  have hperm : (mixedEdits.filter Edit.recordsEffect).Perm (shuffledEdits.filter Edit.recordsEffect) := by
    decide
  have h := editAll_blank_gathers 0x1000 0x8B020020 .dataRegister (some "add") mixedEdits
  obtain ⟨hbranch, -, -, -, horder, -⟩ := h
  exact ⟨rfl, hbranch rfl, by decide, by decide, horder 0 0 .reserved none shuffledEdits hperm⟩

end Instruction

end A64
