import A64.Proofs.Assembler.Fields
import A64.Proofs.RegisterFile

/-! What conditional selections do, and what their aliases say. The base instructions choose between two
registers; with equal registers they are written with the opposite condition, and the zero register is left
out. Main statement: the alias of a word, read by its usual meaning, gives the value that the base
instruction gives, whatever the flags and the registers hold. -/

namespace A64

structure Flags where
  n : Bool
  z : Bool
  c : Bool
  v : Bool
  deriving DecidableEq, Repr

namespace Condition

def holds (c : Condition) (f : Flags) : Bool :=
  match c with
  | eq => f.z
  | ne => !f.z
  | cs => f.c
  | cc => !f.c
  | mi => f.n
  | pl => !f.n
  | vs => f.v
  | vc => !f.v
  | hi => f.c && !f.z
  | ls => !f.c || f.z
  | ge => f.n == f.v
  | lt => f.n != f.v
  | gt => !f.z && f.n == f.v
  | le => f.z || f.n != f.v
  | al | nv => true

/-- Whether the condition with a code holds. The upper bits of the code choose a test, and the lowest bit
turns its answer round, but not that of the test that always succeeds. -/
def codeHolds (b : BitVec 4) (f : Flags) : Bool :=
  let test :=
    match (b.extractLsb' 1 3).toNat with
    | 0 => f.z
    | 1 => f.c
    | 2 => f.n
    | 3 => f.v
    | 4 => f.c && !f.z
    | 5 => f.n == f.v
    | 6 => f.n == f.v && !f.z
    | _ => true
  if b.getLsbD 0 && b != 15 then !test else test

theorem holds_ofCode (b : BitVec 4) (f : Flags) : (ofCode b).holds f = codeHolds b f := by
  obtain ⟨n, z, c, v⟩ := f
  revert b n z c v
  decide

/-- The opposite of a condition that can fail holds where the condition does not. -/
theorem holds_inverse {c : Condition} (h : c.isAlways = false) (f : Flags) :
    c.inverse.holds f = !c.holds f := by
  obtain ⟨n, z, c', v⟩ := f
  revert h n z c' v
  cases c <;> decide

end Condition

namespace Encoding

/-- What a selection gives: the first source if the condition holds, and otherwise the second one, which is
inverted before it is incremented. -/
def selected {width : Nat} (invert increment holds : Bool) (first second : BitVec width) :
    BitVec width :=
  if holds then first
  else
    let inverted := if invert then ~~~second else second
    if increment then inverted + 1 else inverted

/-! The text of a selection. -/

inductive Change where
  | keep
  | increment
  | invert
  | negate
  deriving DecidableEq, Repr

def Change.apply {width : Nat} (x : BitVec width) : Change → BitVec width
  | keep => x
  | increment => x + 1
  | invert => ~~~x
  | negate => -x

inductive Choice where
  | number (v : Int)
  | source (change : Change) (r : Register)
  deriving DecidableEq, Repr

def Choice.value (regs : RegisterFile) (width : Nat) : Choice → BitVec width
  | number v => .ofInt width v
  | source change r => change.apply ((regs.read r).setWidth width)

structure WrittenSelect where
  result : Register
  condition : Condition
  held : Choice
  failed : Choice
  deriving DecidableEq, Repr

namespace WrittenSelect

/-- Two sources, of which the second one is changed if the condition fails. -/
def two? (change : Change) : List Operand → Option WrittenSelect
  | [.register result, .register first, .register second, .condition c] =>
    some ⟨result, c, .source .keep first, .source change second⟩
  | _ => none

/-- One source, which is changed if the condition holds. -/
def one? (change : Change) : List Operand → Option WrittenSelect
  | [.register result, .register source, .condition c] =>
    some ⟨result, c, .source change source, .source .keep source⟩
  | _ => none

def number? (v : Int) : List Operand → Option WrittenSelect
  | [.register result, .condition c] => some ⟨result, c, .number v, .number 0⟩
  | _ => none

def ofText? : String → List Operand → Option WrittenSelect
  | "csel" => two? .keep
  | "csinc" => two? .increment
  | "csinv" => two? .invert
  | "csneg" => two? .negate
  | "cinc" => one? .increment
  | "cinv" => one? .invert
  | "cneg" => one? .negate
  | "cset" => number? 1
  | "csetm" => number? (-1)
  | _ => fun _ => none

def value (s : WrittenSelect) (regs : RegisterFile) (flags : Flags) (width : Nat) : BitVec width :=
  (if s.condition.holds flags then s.held else s.failed).value regs width

end WrittenSelect

def SelectOp.change : SelectOp → Change
  | csel => .keep
  | csinc => .increment
  | csinv => .invert
  | csneg => .negate

theorem selected_eq {width : Nat} (invert increment holds : Bool) (first second : BitVec width) :
    selected invert increment holds first second =
      if holds then first else (SelectOp.ofBits invert increment).change.apply second := by
  have hneg : -second = ~~~second + 1 := BitVec.neg_eq_not_add second
  cases invert <;> cases increment <;> simp [selected, SelectOp.ofBits, SelectOp.change, Change.apply, hneg]

namespace ConditionalSelect

variable {w : Word} {e : ConditionalSelect}

/-- A selection that gives the result of `e` the value of the base instruction. -/
def Agrees (e : ConditionalSelect) (s : WrittenSelect) : Prop :=
  s.result = e.result ∧ ∀ regs flags, s.value regs flags (Register.width e.wide) =
    if e.condition.holds flags then (regs.read e.first).setWidth _
    else e.op.change.apply ((regs.read e.second).setWidth _)

theorem agrees_two (e : ConditionalSelect) :
    e.Agrees ⟨e.result, e.condition, .source .keep e.first, .source e.op.change e.second⟩ := by
  refine ⟨rfl, fun regs flags => ?_⟩
  cases h : e.condition.holds flags <;> simp [WrittenSelect.value, h, Choice.value, Change.apply]

/-- With the opposite condition, the choices change places. -/
theorem agrees_of_isAlias (h : e.isAlias = true) {held failed : Choice}
    (hheld : ∀ regs, held.value regs (Register.width e.wide) =
      e.op.change.apply ((regs.read e.first).setWidth _))
    (hfailed : ∀ regs, failed.value regs (Register.width e.wide) = (regs.read e.first).setWidth _) :
    e.Agrees ⟨e.result, e.condition.inverse, held, failed⟩ := by
  simp only [isAlias, Bool.and_eq_true, beq_iff_eq, Bool.not_eq_true'] at h
  obtain ⟨hsame, hcan⟩ := h
  have hsecond : e.second = e.first := by rw [second, first, hsame]
  refine ⟨rfl, fun regs flags => ?_⟩
  simp only [WrittenSelect.value, Condition.holds_inverse hcan, hsecond]
  cases e.condition.holds flags with
  | false => exact hheld regs
  | true => exact hfailed regs

theorem agrees_one (h : e.isAlias = true) :
    e.Agrees ⟨e.result, e.condition.inverse, .source e.op.change e.first, .source .keep e.first⟩ :=
  agrees_of_isAlias h (fun _ => rfl) fun _ => rfl

theorem agrees_number (h : e.isAlias = true) (hn : e.rn = 31) {v : Int}
    (hv : ∀ width, BitVec.ofInt width v = e.op.change.apply 0) :
    e.Agrees ⟨e.result, e.condition.inverse, .number v, .number 0⟩ := by
  have hzero (regs : RegisterFile) : (regs.read e.first).setWidth (Register.width e.wide) = 0 := by
    rw [first, RegisterFile.read_gp, if_pos hn]
    exact BitVec.setWidth_zero _ _
  refine agrees_of_isAlias h (fun regs => ?_) fun regs => ?_
  · rw [hzero]
    exact hv _
  · rw [hzero]
    exact BitVec.ofInt_ofNat _ 0

/-- The form can be read as a selection, and that selection has the value of the base instruction. -/
def SpelledBy (e : ConditionalSelect) (f : Form) : Prop :=
  ∃ s, f.mnemonic.bind (WrittenSelect.ofText? · f.operands) = some s ∧ e.Agrees s

theorem spelledBy_of_plain (halias : e.alias? = none) : e.SpelledBy e.form := by
  refine ⟨_, ?_, e.agrees_two⟩
  simp only [form, spelled, operands, halias]
  cases e.op <;> rfl

theorem spelledBy_form (e : ConditionalSelect) : e.SpelledBy e.form := by
  by_cases h : e.isAlias = true
  case neg => exact spelledBy_of_plain (by simp [alias?, h])
  cases hop : e.op with
  | csel => exact spelledBy_of_plain (by simp [alias?, hop])
  | csinc =>
    by_cases hn : e.rn = 31
    · refine ⟨_, ?_, agrees_number h hn (v := 1) fun width => ?_⟩
      · simp only [form, spelled, operands, alias?, h, hop, hn, if_true]
        rfl
      · rw [hop]
        exact (BitVec.zero_add 1).symm
    · refine ⟨_, ?_, agrees_one h⟩
      simp only [form, spelled, operands, alias?, h, hop, hn, if_true, if_false]
      rfl
  | csinv =>
    by_cases hn : e.rn = 31
    · refine ⟨_, ?_, agrees_number h hn (v := -1) fun width => ?_⟩
      · simp only [form, spelled, operands, alias?, h, hop, hn, if_true]
        rfl
      · rw [hop]
        calc BitVec.ofInt width (-1) = -BitVec.ofNat width 1 := BitVec.ofInt_neg
          _ = BitVec.allOnes width := BitVec.neg_one_eq_allOnes
          _ = ~~~BitVec.ofNat width 0 := BitVec.not_zero.symm
    · refine ⟨_, ?_, agrees_one h⟩
      simp only [form, spelled, operands, alias?, h, hop, hn, if_true, if_false]
      rfl
  | csneg =>
    refine ⟨_, ?_, agrees_one h⟩
    simp only [form, spelled, operands, alias?, h, hop, if_true]
    rfl

theorem eq_of_ofWord (he : ofWord w = .ok e) :
    e = ⟨w.bit 31, .ofBits (w.bit 30) (w.bit 10), .ofCode (w.field 12 4), w.rm, w.rn, w.rd⟩ := by
  unfold ofWord at he
  split at he
  · simp at he
  · exact (Except.ok.inj he).symm

end ConditionalSelect

theorem exists_select_of_decode {w : Word} {a : Address} {i : Instruction}
    (hg : w.field 21 8 = 0b11010100) (hd : decode w a = .ok i) :
    ∃ e, ConditionalSelect.ofWord w = .ok e ∧ i = e.form.place w a := by
  have hclass : EncodingClass.ofWord w = .dataRegister := by
    have hfield : w.field 25 4 = 13 := by
      rw [← @Word.extractLsb'_field w 21 8 4 4 (by decide), hg]
      rfl
    simp [EncodingClass.ofWord, hfield]
  have hop : w.field 21 4 = 4 := by
    rw [← @Word.extractLsb'_field w 21 8 0 4 (by decide), hg]
    rfl
  have hbit : w.bit 28 = true := by
    have h := congrArg (·.getLsbD 7) hg
    simpa [Word.field, Word.bit] using h
  obtain ⟨f, -, hf, rfl⟩ := decode_eq_ok hd
  rw [hclass] at hf
  cases hf with
  | register h =>
    cases h with
    | conditionalSelect _ _ he => exact ⟨_, he, rfl⟩
    | _ => simp_all

/-- A conditional selection that decodes is written so that its text, whatever the flags and the registers
hold, gives the result the value that the base instruction gives for the condition and the sources that are
encoded. -/
theorem value_of_select_alias {w : Word} {a : Address} {i : Instruction}
    (hg : w.field 21 8 = 0b11010100) (hd : decode w a = .ok i) :
    let width := Register.width (w.bit 31)
    ∃ s, i.mnemonic.bind (WrittenSelect.ofText? · i.operands) = some s ∧
      s.result = w.rd.gp (w.bit 31) ∧
      ∀ regs flags, s.value regs flags width =
        selected (w.bit 30) (w.bit 10) (Condition.codeHolds (w.field 12 4) flags)
          ((regs.read (w.rn.gp (w.bit 31))).setWidth width)
          ((regs.read (w.rm.gp (w.bit 31))).setWidth width) := by
  intro width
  obtain ⟨e, he, rfl⟩ := exists_select_of_decode hg hd
  obtain ⟨s, htext, hresult, hvalue⟩ := e.spelledBy_form
  have hops : (e.form.place w a).operands = e.form.operands := List.append_nil _
  obtain rfl := ConditionalSelect.eq_of_ofWord he
  refine ⟨s, by rwa [hops], hresult, fun regs flags => ?_⟩
  rw [selected_eq, ← Condition.holds_ofCode]
  exact hvalue regs flags

/-- `csetm x3, ge` writes ones where the encoded condition, `lt`, does not hold. -/
theorem value_of_csetm :
    ∃ i, decode 0xDA9FB3E3 0 = .ok i ∧ i.mnemonic = some "csetm" ∧
      i.operands = [.register (.x 3), .condition .ge] ∧
      ∀ (regs : RegisterFile) (flags : Flags),
        WrittenSelect.value ⟨.x 3, .ge, .number (-1), .number 0⟩ regs flags 64 =
          selected true false (Condition.codeHolds 11 flags) (regs.read (.x 31)) (regs.read (.x 31)) := by
  refine ⟨_, rfl, rfl, rfl, fun regs flags => ?_⟩
  obtain ⟨s, htext, -, hvalue⟩ := value_of_select_alias (w := 0xDA9FB3E3) (a := 0) rfl rfl
  obtain rfl : ⟨.x 3, .ge, .number (-1), .number 0⟩ = s := Option.some.inj htext
  exact hvalue regs flags

end Encoding

end A64
