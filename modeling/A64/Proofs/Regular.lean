import A64.Proofs.Encodings
import A64.Proofs.RegisterSets

/-! What the name of an instruction tells of the flags, of control flow and of a reference to an address. A
form is regular if it goes on to the next instruction, tests and sets the flags as its name and operands
tell, and refers to an address if its name tells so. Most names tell of nothing; those that do are listed
here, so that it can be decided of any other name that it is quiet. -/

namespace A64

/-- Instructions that set the flags whatever their operands are. -/
def flagSetters : List String :=
  ["adds", "subs", "cmp", "cmn", "negs", "ands", "tst", "bics", "adcs", "sbcs", "ngcs", "ccmp", "ccmn",
   "fcmp", "fcmpe", "fccmp", "fccmpe", "cfinv", "xaflag", "axflag", "fjcvtzs"]

/-- Instructions that test the flags whatever their operands are, conditional branches aside. -/
def flagTesters : List String :=
  ["adc", "adcs", "sbc", "sbcs", "ngc", "ngcs", "ccmp", "ccmn", "csel", "csinc", "csinv", "csneg", "cset",
   "csetm", "cinc", "cinv", "cneg", "fccmp", "fccmpe", "fcsel", "cfinv", "xaflag", "axflag"]

def returnNames : List String := ["ret", "retaa", "retab"]

def exceptionReturnNames : List String := ["eret", "eretaa", "eretab", "drps"]

def haltNames : List String := ["brk", "hlt"]

def Named (names : List String) (mnemonic : Option String) : Prop :=
  ∃ name ∈ names, mnemonic = some name

def SetsFlags (mnemonic : Option String) (operands : List Operand) : Prop :=
  Named flagSetters mnemonic ∨ (mnemonic = some "msr" ∧ .systemRegister .nzcv ∈ operands)

/-- By its name and operands the instruction tests the flags. A branch does so unless it is always
taken. -/
def TestsFlags (mnemonic : Option String) (operands : List Operand) : Prop :=
  (∃ c : Condition, c ∉ [.al, .nv] ∧ mnemonic = some ("b." ++ c.suffix)) ∨
    Named flagTesters mnemonic ∨ (mnemonic = some "mrs" ∧ .systemRegister .nzcv ∈ operands)

def conditionalNames : List String := Condition.all.map fun c => "b." ++ c.suffix

def moveNames : List String := ["mrs", "msr"]

/-- Names that need their operands or their condition to tell of the flags. -/
def openNames : List String := moveNames ++ conditionalNames

def leavingNames : List String := returnNames ++ exceptionReturnNames ++ haltNames

def relativeNames : List String :=
  ["b", "bl", "cbz", "cbnz", "tbz", "tbnz", "adr", "adrp"] ++ conditionalNames

def tellingNames : List String :=
  flagSetters ++ flagTesters ++ moveNames ++ leavingNames ++ relativeNames

def leavingOperations : List Operation :=
  [.jump, .conditionalJump, .call, .return, .syscall, .interrupt]

@[simp] theorem named_some {names : List String} {name : String} :
    Named names (some name) ↔ name ∈ names := by
  simp [Named]

@[simp] theorem not_named_none (names : List String) : ¬Named names none := by simp [Named]

theorem named_append {names others : List String} {mnemonic : Option String} :
    Named (names ++ others) mnemonic ↔ Named names mnemonic ∨ Named others mnemonic := by
  simp only [Named, List.mem_append, or_and_right, exists_or]

theorem Named.mono {names others : List String} {mnemonic : Option String} (h : Named names mnemonic)
    (hs : ∀ name ∈ names, name ∈ others) : Named others mnemonic := by
  obtain ⟨name, hn, rfl⟩ := h
  exact named_some.mpr (hs name hn)

theorem Named.not_named {names others : List String} {mnemonic : Option String}
    (h : Named names mnemonic) (hd : ∀ name ∈ names, name ∉ others) : ¬Named others mnemonic := by
  obtain ⟨name, hn, rfl⟩ := h
  exact named_some.not.mpr (hd name hn)

theorem Condition.mem_all (c : Condition) : c ∈ all := by cases c <;> decide

theorem setsFlags_some {name : String} {operands : List Operand} :
    SetsFlags (some name) operands ↔
      name ∈ flagSetters ∨ (name = "msr" ∧ .systemRegister .nzcv ∈ operands) := by
  simp [SetsFlags]

theorem testsFlags_some {name : String} {operands : List Operand} (h : name ∉ conditionalNames) :
    TestsFlags (some name) operands ↔
      name ∈ flagTesters ∨ (name = "mrs" ∧ .systemRegister .nzcv ∈ operands) := by
  have hbranch (c : Condition) : name ≠ "b." ++ c.suffix := by
    rintro rfl
    exact h (List.mem_map_of_mem c.mem_all)
  simp [TestsFlags, hbranch]

/-- A name that begins with a stem no telling name begins with is quiet. -/
theorem not_mem_tellingNames_of_stem {stem : String}
    (h : ∀ name ∈ tellingNames, ¬stem.toList <+: name.toList) (rest : String) :
    stem ++ rest ∉ tellingNames := by
  intro hmem
  apply h _ hmem
  rw [String.toList_append]
  exact List.prefix_append _ _

/-- An instruction of this name tests the flags if `tests` is set and sets them if `sets` is, but for
`fjcvtzs`, which sets them unsaid. -/
structure TellsFlags (name : String) (tests sets : Bool) : Prop where
  closed : name ∉ openNames
  tests : tests = decide (name ∈ flagTesters)
  sets : sets = decide (name ∈ flagSetters ∧ name ≠ "fjcvtzs")

instance (name : String) (tests sets : Bool) : Decidable (TellsFlags name tests sets) :=
  decidable_of_iff (name ∉ openNames ∧ tests = decide (name ∈ flagTesters) ∧
    sets = decide (name ∈ flagSetters ∧ name ≠ "fjcvtzs"))
    ⟨fun h => ⟨h.1, h.2.1, h.2.2⟩, fun h => ⟨h.closed, h.tests, h.sets⟩⟩

structure TellsFlagsOnly (name : String) (tests sets : Bool) : Prop
    extends TellsFlags name tests sets where
  leaving : name ∉ leavingNames
  relative : name ∉ relativeNames

instance (name : String) (tests sets : Bool) : Decidable (TellsFlagsOnly name tests sets) :=
  decidable_of_iff (TellsFlags name tests sets ∧ name ∉ leavingNames ∧ name ∉ relativeNames)
    ⟨fun h => ⟨h.1, h.2.1, h.2.2⟩, fun h => ⟨h.toTellsFlags, h.leaving, h.relative⟩⟩

theorem tellsFlagsOnly_of_quiet {name : String} (h : name ∉ tellingNames) :
    TellsFlagsOnly name false false := by
  simp only [tellingNames, List.mem_append, not_or] at h
  obtain ⟨⟨⟨⟨hset, htest⟩, hmove⟩, hleaving⟩, hrelative⟩ := h
  have hconditional : name ∉ conditionalNames := fun hc => hrelative (List.mem_append_right _ hc)
  exact
    { closed := by simp [openNames, hmove, hconditional]
      tests := by simp [htest]
      sets := by simp [hset]
      leaving := hleaving
      relative := hrelative }

def Operand.isCondition : Operand → Bool
  | condition _ => true
  | _ => false

@[simp] theorem Operand.isCondition_register (r : Register) : (register r).isCondition = false := rfl

@[simp] theorem Operand.isCondition_memory (m : MemoryRef) : (memory m).isCondition = false := rfl

theorem Operand.any_isCondition_register (rs : List Register) :
    (rs.map register).any isCondition = false := by
  induction rs with
  | nil => rfl
  | cons r rs ih => exact ih

namespace Form

structure IsStraight (f : Form) : Prop where
  name : ¬Named leavingNames f.mnemonic
  operation : f.operation ∉ leavingOperations
  branch : f.branch = .none
  reads : f.reads.isAll = false
  writes : f.writes.isAll = false

/-- The form tests and sets the flags as its name and operands tell, but for `fjcvtzs`, which sets them
unsaid. Whatever has a condition tests them. -/
structure FlagsAgree (f : Form) : Prop where
  reads : f.reads.isAll = false → (f.reads.hasFlags = true ↔ TestsFlags f.mnemonic f.operands)
  writes : f.writes.isAll = false →
    (f.writes.hasFlags = true ↔ SetsFlags f.mnemonic f.operands ∧ f.mnemonic ≠ some "fjcvtzs")
  condition : f.operands.any Operand.isCondition = true → f.reads.hasFlags = true

structure IsRegular (f : Form) : Prop where
  straight : f.IsStraight
  flags : f.FlagsAgree
  relative : f.reference = none → ¬Named relativeNames f.mnemonic

variable {f : Form} {name : String} {operation : Operation} {operands : List Operand}
  {reads writes : RegisterSet} {reference : Option Reference}

theorem flagsAgree_of_tellsFlags (hm : f.mnemonic = some name)
    (h : TellsFlags name f.reads.hasFlags f.writes.hasFlags)
    (hc : f.operands.any Operand.isCondition = true → f.reads.hasFlags = true) : f.FlagsAgree := by
  have hclosed := h.closed
  simp only [openNames, moveNames, List.mem_append, List.mem_cons, List.not_mem_nil, or_false, not_or]
    at hclosed
  obtain ⟨⟨hmrs, hmsr⟩, hbranch⟩ := hclosed
  refine ⟨fun _ => ?_, fun _ => ?_, hc⟩
  · simp [hm, testsFlags_some hbranch, hmrs, h.tests]
  · simp [hm, setsFlags_some, hmsr, h.sets]

theorem isRegular_of_tellsFlags (h : TellsFlagsOnly name reads.hasFlags writes.hasFlags)
    (ho : operation ∉ leavingOperations)
    (hc : operands.any Operand.isCondition = true → reads.hasFlags = true)
    (hr : reads.isAll = false) (hw : writes.isAll = false) :
    (Form.mk (spelled name operation operands) reads writes .none reference).IsRegular where
  straight :=
    { name := named_some.not.mpr h.leaving
      operation := ho
      branch := rfl
      reads := hr
      writes := hw }
  flags := flagsAgree_of_tellsFlags rfl h.toTellsFlags hc
  relative := fun _ => named_some.not.mpr h.relative

theorem isRegular_of_quiet (hn : name ∉ tellingNames) (ho : operation ∉ leavingOperations)
    (hc : operands.any Operand.isCondition = false) (hr : reads.hasFlags = false)
    (hw : writes.hasFlags = false) :
    (Form.mk (spelled name operation operands) reads writes .none reference).IsRegular := by
  have hflags : TellsFlagsOnly name reads.hasFlags writes.hasFlags := by
    rw [hr, hw]
    exact tellsFlagsOnly_of_quiet hn
  exact isRegular_of_tellsFlags hflags ho (by simp [hc]) (RegisterSet.isAll_of_hasFlags hr)
    (RegisterSet.isAll_of_hasFlags hw)

theorem isRegular_of_registers (sources results : List Register) (hn : name ∉ tellingNames)
    (ho : operation ∉ leavingOperations) (hc : operands.any Operand.isCondition = false) :
    (Form.mk (spelled name operation operands) (.of sources) (.of results) .none reference).IsRegular :=
  isRegular_of_quiet hn ho hc (RegisterSet.hasFlags_of sources) (RegisterSet.hasFlags_of results)

theorem isRegular_plain (hn : name ∉ tellingNames) (ho : operation ∉ leavingOperations)
    (hc : operands.any Operand.isCondition = false) :
    (plain (spelled name operation operands)).IsRegular :=
  isRegular_of_quiet hn ho hc RegisterSet.hasFlags_empty RegisterSet.hasFlags_empty

theorem isRegular_of_move (hn : name ∈ moveNames) (ho : operation ∉ leavingOperations)
    (hc : operands.any Operand.isCondition = false)
    (hr : reads.hasFlags = true ↔ name = "mrs" ∧ .systemRegister .nzcv ∈ operands)
    (hw : writes.hasFlags = true ↔ name = "msr" ∧ .systemRegister .nzcv ∈ operands)
    (har : reads.isAll = false) (haw : writes.isAll = false) :
    (Form.mk (spelled name operation operands) reads writes .none reference).IsRegular := by
  have hnames : ∀ name ∈ moveNames, name ∉ relativeNames ∧ name ∉ flagTesters ∧ name ∉ flagSetters ∧
      name ∉ leavingNames ∧ name ≠ "fjcvtzs" := by decide
  obtain ⟨hrelative, htests, hsets, hleaves, hconvert⟩ := hnames name hn
  have hbranch : name ∉ conditionalNames := fun h => hrelative (List.mem_append_right _ h)
  constructor
  case straight => exact ⟨named_some.not.mpr hleaves, ho, rfl, har, haw⟩
  case flags =>
    refine ⟨fun _ => ?_, fun _ => ?_, by simp [spelled, hc]⟩
    · simp [spelled, hr, testsFlags_some hbranch, htests]
    · simp [spelled, hw, setsFlags_some, hsets, hconvert]
  case relative => exact fun _ => named_some.not.mpr hrelative

theorem isRegular_unnamed (ho : operation ∉ leavingOperations) : (unnamed operation).IsRegular where
  straight := ⟨by simp [unnamed, plain], ho, rfl, rfl, rfl⟩
  flags := by constructor <;> simp [unnamed, plain, TestsFlags, SetsFlags]
  relative := fun _ => not_named_none _

end Form

end A64
