import A64.Proofs.Assembler.System

/-! The assembler of branches, exceptions and system instructions. Each group of encodings has the word
of its fields and a reader of its text; the readers one after the other make the assembler. Main
statement: the assembler takes the text of a decoded instruction back to its word, so two words of this
class that are written alike are one word. -/

namespace A64

namespace Encoding

variable {w : Word} {f : Form}

namespace BranchImmediate

def word (e : BranchImmediate) : Word := BitVec.ofBool e.link ++ 0b00101#5 ++ e.words

theorem word_ofWord (h : w.field 26 5 = 0b00101#5) : (ofWord w).word = w := by
  simp only [word, ofWord, Word.ofBool_bit, ← h, Word.field_append]
  exact w.field_all

def ofText? (m : String) : List Operand → Option BranchImmediate
  | [.pcRelative offset _] =>
    ([("b", false), ("bl", true)].lookup m).map (⟨·, .ofInt 26 (offset / 4)⟩)
  | _ => none

end BranchImmediate

namespace ConditionalBranch

def word (e : ConditionalBranch) : Word := 0b01010100#8 ++ e.words ++ 0#1 ++ e.condition.code

theorem word_of_ofWord {e : ConditionalBranch} (h : w.field 24 8 = 0b01010100#8)
    (he : ofWord w = .ok e) : e.word = w := by
  obtain ⟨h25, h24, h4⟩ := bits_of_ok he
  have hzero : w.field 4 1 = 0#1 := Word.field_of_bit h4
  simp only [ofWord, h25, h24, h4, Bool.or_self, Bool.false_eq_true, if_false, Except.ok.injEq] at he
  subst he
  simp only [word, Condition.code_ofCode, ← h, ← hzero, Word.field_append]
  exact w.field_all

def ofText? (m : String) : List Operand → Option ConditionalBranch
  | [.pcRelative offset _] =>
    (Condition.all.find? (fun c => "b." ++ c.suffix = m)).map (⟨·, .ofInt 19 (offset / 4)⟩)
  | _ => none

end ConditionalBranch

namespace CompareBranch

def word (e : CompareBranch) : Word :=
  BitVec.ofBool e.wide ++ 0b011010#6 ++ BitVec.ofBool e.nonzero ++ e.words ++ e.rt

theorem word_ofWord (h : w.field 25 6 = 0b011010#6) : (ofWord w).word = w := by
  simp only [word, ofWord, Word.ofBool_bit, Word.rd, ← h, Word.field_append]
  exact w.field_all

def ofText? (m : String) : List Operand → Option CompareBranch
  | [.register reg, .pcRelative offset _] =>
    ([("cbz", false), ("cbnz", true)].lookup m).map
      (⟨reg.isWide, ·, .ofInt 19 (offset / 4), reg.field⟩)
  | _ => none

end CompareBranch

namespace TestBranch

def word (e : TestBranch) : Word :=
  e.position.extractLsb' 5 1 ++ 0b011011#6 ++ BitVec.ofBool e.nonzero ++
    e.position.extractLsb' 0 5 ++ e.words ++ e.rt

theorem word_ofWord (h : w.field 25 6 = 0b011011#6) : (ofWord w).word = w := by
  have hhigh : (w.field 31 1 ++ w.field 19 5).extractLsb' 5 1 = w.field 31 1 := by
    rw [BitVec.extractLsb'_append_eq_of_le (by decide), BitVec.extractLsb'_eq_self]
  have hlow : (w.field 31 1 ++ w.field 19 5).extractLsb' 0 5 = w.field 19 5 := by
    rw [BitVec.extractLsb'_append_eq_of_add_le (by decide), BitVec.extractLsb'_eq_self]
  simp only [word, ofWord, hhigh, hlow, Word.ofBool_bit, Word.rd, ← h, Word.field_append]
  exact w.field_all

def ofText? (m : String) : List Operand → Option TestBranch
  | [.register reg, .count position, .pcRelative offset _] =>
    ([("tbz", false), ("tbnz", true)].lookup m).map
      (⟨·, .ofNat 6 position, .ofInt 14 (offset / 4), reg.field⟩)
  | _ => none

end TestBranch

namespace BranchRegister

def keyCode : Option AuthKey → BitVec 6
  | none => 0
  | some .a => 2
  | some .b => 3

theorem keyCode_of_key? : ∀ b : BitVec 6, ∀ key ∈ key? b, keyCode key = b := by decide

def fields : BranchRegister → BitVec 4 × Option AuthKey × RegisterField × RegisterField
  | plain link rn => (if link then 1 else 0, none, rn, 0)
  | authZero link key rn => (if link then 1 else 0, some key, rn, 31)
  | auth link key rn rm => (if link then 9 else 8, some key, rn, rm)
  | ret rn => (2, none, rn, 0)
  | retAuth key => (2, some key, 31, 31)
  | exceptionReturn none => (4, none, 31, 0)
  | exceptionReturn (some key) => (4, some key, 31, 31)
  | debugReturn => (5, none, 31, 0)

theorem fields_of? {opc : BitVec 4} {key : Option AuthKey} {rn last : RegisterField}
    {e : BranchRegister} (h : of? opc key rn last = some e) : e.fields = (opc, key, rn, last) := by
  have hopc (n : Nat) (hn : opc.toNat = n) : opc = BitVec.ofNat 4 n := (ofNat_of_toNat_eq hn).symm
  unfold of? at h
  split at h
  case h_10 | h_11 => grind [fields]
  case h_12 => simp at h
  -- The other branches fix their last field, and some of them the register too.
  all_goals
    split at h
    · grind [fields]
    · simp at h

def word (e : BranchRegister) : Word :=
  let (opc, key, rn, last) := e.fields
  0b1101011#7 ++ opc ++ 31#5 ++ keyCode key ++ rn ++ last

theorem word_of_ofWord {e : BranchRegister} (h : w.field 25 7 = 0b1101011#7)
    (he : ofWord w = .ok e) : e.word = w := by
  have he : ofWord? w = some e := by
    unfold ofWord at he
    split at he
    · next hw => rw [hw, Except.ok.inj he]
    · simp at he
  unfold ofWord? at he
  split at he
  case isFalse => simp at he
  case isTrue h16 =>
    obtain ⟨key, hkey, he⟩ := Option.bind_eq_some_iff.mp he
    have hcode := keyCode_of_key? _ _ hkey
    simp only [word, fields_of? he, hcode, ← h]
    rw [show (31#5) = w.field 16 5 from h16.symm]
    simp only [Word.rn, Word.rd, Word.field_append]
    exact w.field_all

def ofText? (m : String) : List Operand → Option BranchRegister
  | [] =>
    [("ret", ret 30), ("retaa", retAuth .a), ("retab", retAuth .b), ("eret", exceptionReturn none),
     ("eretaa", exceptionReturn (some .a)), ("eretab", exceptionReturn (some .b)),
     ("drps", debugReturn)].lookup m
  | [.register rn] =>
    ([("br", plain false), ("blr", plain true), ("braaz", authZero false .a),
      ("brabz", authZero false .b), ("blraaz", authZero true .a), ("blrabz", authZero true .b),
      ("ret", ret)].lookup m).map (· rn.field)
  | [.register rn, .register rm] =>
    ([("braa", auth false .a), ("brab", auth false .b), ("blraa", auth true .a),
      ("blrab", auth true .b)].lookup m).map (· rn.field rm.field)
  | _ => none

end BranchRegister

namespace ExceptionCall

def codes : ExceptionOp → BitVec 3 × BitVec 2
  | .svc => (0, 1)
  | .hvc => (0, 2)
  | .smc => (0, 3)
  | .brk => (1, 0)
  | .hlt => (2, 0)
  | .dcps1 => (5, 1)
  | .dcps2 => (5, 2)
  | .dcps3 => (5, 3)

theorem codes_of_opOf : ∀ (opc : BitVec 3) (level : BitVec 2), ∀ op ∈ (opOf opc level).toOption,
    codes op = (opc, level) := by decide

def word (e : ExceptionCall) : Word :=
  0b11010100#8 ++ (codes e.op).1 ++ e.imm ++ 0#3 ++ (codes e.op).2

theorem word_of_ofWord {e : ExceptionCall} (h : w.field 24 8 = 0b11010100#8)
    (he : ofWord w = .ok e) : e.word = w := by
  unfold ofWord at he
  split at he
  case isFalse => simp at he
  case isTrue hz =>
    obtain ⟨op, hop, rfl⟩ := map_eq_ok.mp he
    have hcodes := codes_of_opOf (w.field 21 3) (w.field 0 2) op (by simp [hop, Except.toOption])
    simp only [word, hcodes, ← h]
    rw [show (0#3) = w.field 2 3 from hz.symm]
    simp only [Word.field_append]
    exact w.field_all

def named : List (String × ExceptionOp) :=
  [("svc", .svc), ("hvc", .hvc), ("smc", .smc), ("brk", .brk), ("hlt", .hlt), ("dcps1", .dcps1),
   ("dcps2", .dcps2), ("dcps3", .dcps3)]

def ofText? (m : String) : List Operand → Option ExceptionCall
  | [] => ((named.lookup m).filter (·.omitsZero)).map (⟨·, 0⟩)
  | [.immediate imm] => (named.lookup m).map (⟨·, .ofInt 16 imm.value⟩)
  | _ => none

end ExceptionCall

def branchWord? (m : String) (operands : List Operand) : Option Word :=
  (systemWord? m operands).or <|
  ((BranchImmediate.ofText? m operands).map (·.word)).or <|
  ((ConditionalBranch.ofText? m operands).map (·.word)).or <|
  ((CompareBranch.ofText? m operands).map (·.word)).or <|
  ((TestBranch.ofText? m operands).map (·.word)).or <|
  ((BranchRegister.ofText? m operands).map (·.word)).or <|
  (ExceptionCall.ofText? m operands).map (·.word)

/-! The operands alone leave one or two readers. -/

theorem branchWord?_pcRelative (m : String) (offset : Int) (target : Address) :
    branchWord? m [.pcRelative offset target] =
      ((BranchImmediate.ofText? m [.pcRelative offset target]).map (·.word)).or
        ((ConditionalBranch.ofText? m [.pcRelative offset target]).map (·.word)) := by
  have hsystem : systemWord? m [.pcRelative offset target] = none := rfl
  simp only [branchWord?, hsystem, CompareBranch.ofText?, TestBranch.ofText?, BranchRegister.ofText?,
    ExceptionCall.ofText?, Option.map_none, Option.or_none, Option.none_or]

theorem branchWord?_compared (m : String) (reg : Register) (offset : Int) (target : Address) :
    branchWord? m [.register reg, .pcRelative offset target] =
      (CompareBranch.ofText? m [.register reg, .pcRelative offset target]).map (·.word) :=
  Option.or_none

theorem branchWord?_tested (m : String) (reg : Register) (n : Nat) (offset : Int)
    (target : Address) :
    branchWord? m [.register reg, .count n, .pcRelative offset target] =
      (TestBranch.ofText? m [.register reg, .count n, .pcRelative offset target]).map (·.word) :=
  Option.or_none

theorem branchWord?_register (m : String) (rn : Register) :
    branchWord? m [.register rn] = (BranchRegister.ofText? m [.register rn]).map (·.word) :=
  Option.or_none

theorem branchWord?_registers (m : String) (rn rm : Register) :
    branchWord? m [.register rn, .register rm] =
      (BranchRegister.ofText? m [.register rn, .register rm]).map (·.word) :=
  Option.or_none

theorem BranchImmediate.assemblesTo_form (e : BranchImmediate) :
    e.form.AssemblesTo branchWord? e.word := by
  intro a
  obtain ⟨link, words⟩ := e
  cases link <;>
    simp [form, spelled, Form.operandsAt, Reference.operand_displaced, branchWord?_pcRelative, ofText?,
      List.lookup_cons]

theorem ConditionalBranch.assemblesTo_form (e : ConditionalBranch) :
    e.form.AssemblesTo branchWord? e.word := by
  intro a
  obtain ⟨c, words⟩ := e
  have hplain (offset : Int) (target : Address) :
      BranchImmediate.ofText? ("b." ++ c.suffix) [.pcRelative offset target] = none := by
    cases c <;> rfl
  have hfind : Condition.all.find? (fun d => "b." ++ d.suffix = "b." ++ c.suffix) = some c := by
    cases c <;> decide +kernel
  have hoperands : (form ⟨c, words⟩).operandsAt a =
      [.pcRelative (4 * words.toInt) (a.advance (4 * words.toInt))] := by
    simp [form, spelled, Form.operandsAt, Reference.operand_displaced]
  change branchWord? ("b." ++ c.suffix) _ = _
  rw [hoperands, branchWord?_pcRelative, hplain, ofText?, hfind, Option.map_some,
    ofInt_mul_toInt_div]
  rfl

theorem CompareBranch.assemblesTo_form (e : CompareBranch) :
    e.form.AssemblesTo branchWord? e.word := by
  intro a
  obtain ⟨wide, nonzero, words, rt⟩ := e
  cases nonzero <;>
    simp [form, spelled, Form.operandsAt, Reference.operand_displaced, branchWord?_compared, ofText?,
      List.lookup_cons]

theorem TestBranch.assemblesTo_form (e : TestBranch) :
    e.form.AssemblesTo branchWord? e.word := by
  intro a
  obtain ⟨nonzero, position, words, rt⟩ := e
  cases nonzero <;>
    simp [form, spelled, tested, Form.operandsAt, Reference.operand_displaced, branchWord?_tested,
      ofText?, List.lookup_cons]

theorem BranchRegister.assemblesTo_form (e : BranchRegister) :
    e.form.AssemblesTo branchWord? e.word := by
  intro a
  rw [Form.operandsAt_of_none e.reference_form]
  cases e with
  | plain link rn =>
    cases link <;>
      simp [form, jump, spelled, stem, branchWord?_register, ofText?, List.lookup_cons]
  | authZero link key rn =>
    cases link <;> cases key <;>
      simp [form, jump, spelled, stem, AuthKey.letter, branchWord?_register, ofText?, List.lookup_cons]
  | auth link key rn rm =>
    cases link <;> cases key <;>
      simp [form, jump, spelled, stem, AuthKey.letter, branchWord?_registers, ofText?, List.lookup_cons]
  | ret rn =>
    by_cases hrn : rn = 30
    · subst hrn
      rfl
    · simp only [form, spelled, if_neg hrn, Option.bind_some, branchWord?_register, ofText?]
      simp [List.lookup_cons]
  | retAuth key => cases key <;> rfl
  | exceptionReturn key => rcases key with _ | _ | _ <;> rfl
  | debugReturn => rfl

theorem ExceptionCall.assemblesTo_form (e : ExceptionCall) :
    e.form.AssemblesTo branchWord? e.word := by
  intro a
  rw [Form.operandsAt_of_none rfl]
  obtain ⟨op, imm⟩ := e
  have hname : named.lookup op.name = some op := by cases op <;> decide +kernel
  by_cases homit : op.omitsZero = true ∧ imm = 0
  · obtain ⟨-, rfl⟩ := homit
    cases op <;> rfl
  · have hoperands : (form ⟨op, imm⟩).operands = [.ofNat imm.toNat] := by
      simpa [form, spelled] using homit
    -- An immediate alone leaves this reader.
    have hword : branchWord? op.name [.ofNat imm.toNat] = (ofText? op.name [.ofNat imm.toNat]).map (·.word) := rfl
    have hread : ofText? op.name [.ofNat imm.toNat] = some ⟨op, imm⟩ := by simp [Operand.ofNat, ofText?, hname]
    have hmnemonic : (form ⟨op, imm⟩).mnemonic = some op.name := rfl
    rw [hoperands, hmnemonic, Option.bind_some, hword, hread, Option.map_some]

theorem BranchEncoding.assemblesTo (h : BranchEncoding w f)
    (hc : EncodingClass.ofWord w = .branchSystem) : f.AssemblesTo branchWord? w := by
  have hclass := EncodingClass.field_of_branchSystem hc
  rw [Word.toNat_field] at hclass
  cases h with
  | immediate hg =>
    rw [Word.toNat_field] at hg
    have hw : (BranchImmediate.ofWord w).word = w :=
      BranchImmediate.word_ofWord (w.field_eq_ofNat (by omega))
    simpa only [hw] using (BranchImmediate.ofWord w).assemblesTo_form
  | test hg hb =>
    rw [Word.toNat_field] at hg
    rw [Word.bit_eq_true] at hb
    have hw : (TestBranch.ofWord w).word = w :=
      TestBranch.word_ofWord (w.field_eq_ofNat (by omega))
    simpa only [hw] using (TestBranch.ofWord w).assemblesTo_form
  | compare hg hb =>
    rw [Word.toNat_field] at hg
    rw [Word.bit_eq_false] at hb
    have hw : (CompareBranch.ofWord w).word = w :=
      CompareBranch.word_ofWord (w.field_eq_ofNat (by omega))
    simpa only [hw] using (CompareBranch.ofWord w).assemblesTo_form
  | @conditional e hg he =>
    obtain ⟨h25, h24, -⟩ := ConditionalBranch.bits_of_ok he
    rw [Word.toNat_field] at hg
    rw [Word.bit_eq_false] at h25 h24
    have hw : e.word = w :=
      e.word_of_ofWord (w.field_eq_ofNat (by omega)) he
    simpa only [hw] using e.assemblesTo_form
  | @register e hg hb he =>
    rw [Word.toNat_field] at hg
    rw [Word.bit_eq_true] at hb
    have hw : e.word = w :=
      e.word_of_ofWord (w.field_eq_ofNat (by omega)) he
    simpa only [hw] using e.assemblesTo_form
  | @exception e hg hb hs he =>
    rw [Word.toNat_field] at hg
    rw [Word.bit_eq_false] at hb hs
    have hw : e.word = w :=
      e.word_of_ofWord (w.field_eq_ofNat (by omega)) he
    simpa only [hw] using e.assemblesTo_form
  | system hg hb hs hz hf =>
    have hz : (w.field 22 2).toNat = 0 := by rw [hz]; rfl
    rw [Word.toNat_field] at hg hz
    rw [Word.bit_eq_false] at hb
    rw [Word.bit_eq_true] at hs
    have hw := hf.systemWord?_eq (w.field_eq_ofNat (by omega))
    obtain ⟨m, hm, hw⟩ := Option.bind_eq_some_iff.mp hw
    intro a
    rw [Form.operandsAt_of_none hf.reference_eq_none, hm, Option.bind_some, branchWord?, hw,
      Option.some_or]

theorem branchWord?_of_decode {a : Address} {i : Instruction}
    (hc : EncodingClass.ofWord w = .branchSystem) (hd : decode w a = .ok i) :
    i.mnemonic.bind (branchWord? · i.operands) = some w := by
  obtain ⟨f, -, hf, rfl⟩ := decode_eq_ok hd
  rw [hc] at hf
  cases hf with
  | branch h => exact h.assemblesTo hc a

end Encoding

open Encoding

/-- Words of branches, exceptions and system instructions are told apart by their text: at any address,
two that decode and are written with one mnemonic and one list of operands are the same word, and the
assembler finds the word of a decoded instruction from its mnemonic and operands. -/
theorem branch_word_of_text (a : Address) :
    (∀ (v w : Word) (i j : Instruction), EncodingClass.ofWord v = .branchSystem →
      EncodingClass.ofWord w = .branchSystem → decode v a = .ok i → decode w a = .ok j →
      i.mnemonic = j.mnemonic → i.operands = j.operands → v = w) ∧
    (∀ (w : Word) (i : Instruction), EncodingClass.ofWord w = .branchSystem → decode w a = .ok i →
      i.mnemonic.bind (branchWord? · i.operands) = some w) := by
  constructor
  · intro v w i j hv hw hi hj hm ho
    exact Instruction.word_eq_of_text (branchWord?_of_decode hv hi) (branchWord?_of_decode hw hj) hm ho
  · intro w i hw hi
    exact branchWord?_of_decode hw hi

/-- A `ret` through the link register and a `clrex` of the whole system are written without operands. -/
theorem branch_word_of_bare_text :
    branchWord? "ret" [] = some 0xd65f03c0 ∧ branchWord? "clrex" [] = some 0xd5033f5f ∧
      ∀ w : Word, EncodingClass.ofWord w = .branchSystem →
        ∀ i, decode w 0x1000 = .ok i → i.mnemonic = some "ret" → i.operands = [] → w = 0xd65f03c0 := by
  have hret : decode 0xd65f03c0 0x1000 = .ok ((BranchRegister.ret 30).form.place 0xd65f03c0 0x1000) :=
    rfl
  have hclrex : decode 0xd5033f5f 0x1000 =
      .ok ((Form.plain (spelled "clrex" .barrier [])).place 0xd5033f5f 0x1000) := rfl
  refine ⟨?_, ?_, ?_⟩
  · exact (branch_word_of_text 0x1000).2 _ _ rfl hret
  · exact (branch_word_of_text 0x1000).2 _ _ rfl hclrex
  · intro w hw i hi hm ho
    exact (branch_word_of_text 0x1000).1 w 0xd65f03c0 i _ hw rfl hi hret hm ho

end A64
