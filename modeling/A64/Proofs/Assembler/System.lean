import A64.Proofs.Assembler.Fields

/-! The assembler of system instructions. All of them share one layout of fields, and the name and the
operands of an instruction tell the fields. Main statement: the text of a decoded system instruction is
assembled to the word that it was decoded from. -/

namespace A64.Encoding

variable {w : Word} {f : Form}

def systemWord (result : Bool) (op0 : BitVec 2) (op1 : BitVec 3) (crn crm : BitVec 4)
    (op2 : BitVec 3) (rt : RegisterField) : Word :=
  0b1101010100#10 ++ BitVec.ofBool result ++ op0 ++ op1 ++ crn ++ crm ++ op2 ++ rt

theorem systemWord_fields (h : w.field 22 10 = 0b1101010100#10) :
    systemWord (w.bit 21) (w.field 19 2) (w.field 16 3) (w.field 12 4) (w.field 8 4) (w.field 5 3)
      w.rd = w := by
  simp only [systemWord, Word.ofBool_bit, Word.rd, ← h, Word.field_append]
  exact w.field_all

namespace Hint

def word (e : Hint) : Word :=
  systemWord false 0 3 2 (e.number.extractLsb' 3 4) (e.number.extractLsb' 0 3) 31

def ofText? (m : String) : List Operand → Option Hint
  | [] =>
    [("nop", ⟨0⟩), ("yield", ⟨1⟩), ("wfe", ⟨2⟩), ("wfi", ⟨3⟩), ("sev", ⟨4⟩), ("sevl", ⟨5⟩),
     ("esb", ⟨16⟩), ("csdb", ⟨20⟩), ("paciaz", ⟨24⟩), ("paciasp", ⟨25⟩), ("pacibz", ⟨26⟩),
     ("pacibsp", ⟨27⟩), ("autiaz", ⟨28⟩), ("autiasp", ⟨29⟩), ("autibz", ⟨30⟩), ("autibsp", ⟨31⟩),
     ("bti", ⟨32⟩)].lookup m
  | [.named target] =>
    if m = "bti" then [("c", ⟨34⟩), ("j", ⟨36⟩), ("jc", ⟨38⟩)].lookup target else none
  | [.count n] => if m = "hint" then some ⟨.ofNat 7 n⟩ else none
  | _ => none

end Hint

namespace Barrier

def word (e : Barrier) : Word := systemWord false 0 3 3 e.domain e.op 31

def domain? : Operand → Option (BitVec 4)
  | .count n => some (.ofNat 4 n)
  | .named name =>
    [("oshld", 1), ("oshst", 2), ("osh", 3), ("nshld", 5), ("nshst", 6), ("nsh", 7), ("ishld", 9),
     ("ishst", 10), ("ish", 11), ("ld", 13), ("st", 14), ("sy", 15)].lookup name
  | _ => none

def ofText? (m : String) : List Operand → Option Barrier
  | [] =>
    [("clrex", ⟨15, 2⟩), ("ssbb", ⟨0, 4⟩), ("pssbb", ⟨4, 4⟩), ("isb", ⟨15, 6⟩), ("sb", ⟨0, 7⟩)].lookup m
  | [operand] =>
    (domain? operand).bind fun domain =>
      ([("clrex", 2), ("dsb", 4), ("dmb", 5), ("isb", 6)].lookup m).map (⟨domain, ·⟩)
  | _ => none

end Barrier

namespace ProcessorState

def word (e : ProcessorState) : Word := systemWord false 0 e.op1 4 e.imm e.op2 31

def field? (name : String) : Option (BitVec 3 × BitVec 3) :=
  [("uao", (0, 3)), ("pan", (0, 4)), ("spsel", (0, 5)), ("ssbs", (3, 1)), ("dit", (3, 2)),
   ("tco", (3, 4)), ("daifset", (3, 6)), ("daifclr", (3, 7))].lookup name

def ofText? (m : String) : List Operand → Option ProcessorState
  | [] => [("cfinv", ⟨0, 0, 0⟩), ("xaflag", ⟨0, 0, 1⟩), ("axflag", ⟨0, 0, 2⟩)].lookup m
  | [.named field, .count imm] =>
    if m = "msr" then (field? field).map fun (op1, op2) => ⟨op1, .ofNat 4 imm, op2⟩ else none
  | _ => none

end ProcessorState

namespace SystemOperation

def word (e : SystemOperation) : Word := systemWord e.result 1 e.op1 e.crn e.crm e.op2 e.rt

def ofText? (m : String) : List Operand → Option SystemOperation
  | [.register reg, .count op1, .controlRegister crn, .controlRegister crm, .count op2] =>
    if m = "sysl" then some ⟨true, .ofNat 3 op1, .ofNat 4 crn, .ofNat 4 crm, .ofNat 3 op2, reg.field⟩
    else none
  | [.count op1, .controlRegister crn, .controlRegister crm, .count op2, .register reg] =>
    if m = "sys" then some ⟨false, .ofNat 3 op1, .ofNat 4 crn, .ofNat 4 crm, .ofNat 3 op2, reg.field⟩
    else none
  | [.count op1, .controlRegister crn, .controlRegister crm, .count op2] =>
    if m = "sys" then some ⟨false, .ofNat 3 op1, .ofNat 4 crn, .ofNat 4 crm, .ofNat 3 op2, 31⟩
    else none
  | _ => none

end SystemOperation

namespace SystemMove

def word (e : SystemMove) : Word :=
  systemWord e.fromSystem (.ofNat 2 e.system.op0) (.ofNat 3 e.system.op1) (.ofNat 4 e.system.crn)
    (.ofNat 4 e.system.crm) (.ofNat 3 e.system.op2) e.rt

def ofText? (m : String) : List Operand → Option SystemMove
  | [.register reg, .systemRegister system] =>
    if m = "mrs" then some ⟨true, system, reg.field⟩ else none
  | [.systemRegister system, .register reg] =>
    if m = "msr" then some ⟨false, system, reg.field⟩ else none
  | _ => none

end SystemMove

def systemWord? (m : String) (operands : List Operand) : Option Word :=
  ((SystemOperation.ofText? m operands).map (·.word)).or <|
  ((SystemMove.ofText? m operands).map (·.word)).or <|
  ((ProcessorState.ofText? m operands).map (·.word)).or <|
  ((Barrier.ofText? m operands).map (·.word)).or <|
  (Hint.ofText? m operands).map (·.word)

theorem SystemOperation.systemWord?_form (e : SystemOperation) :
    e.form.mnemonic.bind (systemWord? · e.form.operands) = some e.word := by
  obtain ⟨result, op1, crn, crm, op2, rt⟩ := e
  cases result with
  | true => simp [form, spelled, operands, systemWord?, ofText?]
  | false =>
    by_cases hrt : rt = 31#5
    · simp [form, spelled, operands, systemWord?, ofText?, hrt]
    · simp [form, spelled, operands, systemWord?, ofText?, hrt]

theorem SystemMove.systemWord?_form (e : SystemMove) :
    e.form.mnemonic.bind (systemWord? · e.form.operands) = some e.word := by
  obtain ⟨fromSystem, system, rt⟩ := e
  cases fromSystem <;>
    simp [form, spelled, systemWord?, SystemOperation.ofText?, ofText?]

namespace ProcessorState

theorem field?_of_fieldName? {e : ProcessorState} {name : String} (h : e.fieldName? = some name) :
    field? name = some (e.op1, e.op2) := by
  have hall : ∀ op1 op2 : BitVec 3, ∀ name ∈ fieldName? ⟨op1, 0, op2⟩,
      field? name = some (op1, op2) := by decide +kernel
  exact hall e.op1 e.op2 name h

theorem ofText?_of_flagName? {e : ProcessorState} {name : String} (h : e.flagName? = some name) :
    ofText? name [] = some e := by
  have hall : ∀ (op1 : BitVec 3) (imm : BitVec 4) (op2 : BitVec 3),
      ∀ name ∈ flagName? ⟨op1, imm, op2⟩, ofText? name [] = some ⟨op1, imm, op2⟩ := by decide +kernel
  exact hall e.op1 e.imm e.op2 name h

theorem systemWord?_form {e : ProcessorState} (hf : e.form = .ok f) :
    f.mnemonic.bind (systemWord? · f.operands) = some e.word := by
  unfold form at hf
  split at hf
  · next name _ hname =>
    cases hf
    simp [spelled, systemWord?, SystemOperation.ofText?, SystemMove.ofText?,
      ofText?_of_flagName? hname]
  · next field hflag hfield =>
    cases hf
    simp [Form.plain, spelled, systemWord?, SystemOperation.ofText?, SystemMove.ofText?, ofText?,
      field?_of_fieldName? hfield]
  · simp at hf

end ProcessorState

theorem Barrier.systemWord?_spelling {e : Barrier} {s : Spelling} (hs : e.spelling = .ok s) :
    s.mnemonic.bind (systemWord? · s.operands) = some e.word := by
  have hall : ∀ (domain : BitVec 4) (op : BitVec 3), ∀ s ∈ (spelling ⟨domain, op⟩).toOption,
      s.mnemonic.bind (systemWord? · s.operands) = some (word ⟨domain, op⟩) := by decide +kernel
  exact hall e.domain e.op s (by rw [hs]; rfl)

theorem Hint.systemWord?_form (e : Hint) :
    e.form.mnemonic.bind (systemWord? · e.form.operands) = some e.word := by
  have hall : ∀ n : BitVec 7, (form ⟨n⟩).mnemonic.bind (systemWord? · (form ⟨n⟩).operands) =
      some (word ⟨n⟩) := by decide +kernel
  exact hall e.number

/-- The five numbers of a system register are the bits of its field. -/
theorem SystemMove.word_ofField (h : w.field 22 10 = 0b1101010100#10)
    (hg : 2 ≤ (w.field 19 2).toNat) :
    word ⟨w.bit 21, .ofField (w.field 5 15), w.rd⟩ = w := by
  have hop0 : (w.field 19 2).toNat = 2 + (w.field 19 1).toNat := by
    rw [Word.toNat_field] at hg
    rw [Word.toNat_field, Word.toNat_field]
    omega
  simp (disch := decide) only [word, SystemRegister.ofField, Word.extractLsb'_field,
    ofNat_of_toNat_eq hop0, BitVec.ofNat_toNat, BitVec.setWidth_eq]
  exact systemWord_fields h

theorem IsQuietSystem.systemWord_eq (hq : IsQuietSystem w) (h : w.field 22 10 = 0b1101010100#10)
    {crn : BitVec 4} (hn : w.field 12 4 = crn) :
    systemWord false 0 (w.field 16 3) crn (w.field 8 4) (w.field 5 3) 31 = w := by
  have hgroup : w.field 19 2 = 0 := BitVec.eq_of_toNat_eq hq.group
  have hw := systemWord_fields h
  rwa [hq.direction, hgroup, hn, hq.rd] at hw

theorem SystemEncoding.systemWord?_eq (hf : SystemEncoding w f)
    (h : w.field 22 10 = 0b1101010100#10) :
    f.mnemonic.bind (systemWord? · f.operands) = some w := by
  cases hf with
  | hint hq hn ho =>
    rw [Hint.systemWord?_form, Hint.word, Word.field_append w (by decide),
      Word.extractLsb'_field w (by decide), Word.extractLsb'_field w (by decide), ← ho]
    exact congrArg some (hq.systemWord_eq h (BitVec.eq_of_toNat_eq hn))
  | barrier hq hn ho hs =>
    refine (Barrier.systemWord?_spelling hs).trans (congrArg some ?_)
    rw [Barrier.word, ← ho]
    exact hq.systemWord_eq h (BitVec.eq_of_toNat_eq hn)
  | processorState hq hn hf =>
    rw [ProcessorState.systemWord?_form hf, ProcessorState.word]
    exact congrArg some (hq.systemWord_eq h (BitVec.eq_of_toNat_eq hn))
  | operation hg =>
    have hone : w.field 19 2 = 1 := BitVec.eq_of_toNat_eq hg
    rw [SystemOperation.systemWord?_form, SystemOperation.word, ← hone, systemWord_fields h]
  | move hg => rw [SystemMove.systemWord?_form, SystemMove.word_ofField h hg]

end A64.Encoding
