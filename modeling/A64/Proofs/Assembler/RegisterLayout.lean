import A64.Proofs.Assembler.Fields

/-! The layout of data processing on registers, which all its groups share: a group is told by its opcodes,
and its fields, put into the layout, are the word again. A sum of registers is written alike whether its
second source is shifted or extended, and then the stack pointer tells the two apart. -/

namespace A64

namespace Shift

def code : Shift → BitVec 2
  | lsl => 0
  | lsr => 1
  | asr => 2
  | ror => 3

theorem code_ofCode : ∀ b : BitVec 2, (ofCode b).code = b := by decide

end Shift

namespace Extend

/-- The code of an extension in a register of the given width, in which `lsl` changes nothing. -/
def code (wide : Bool) : Extend → BitVec 3
  | uxtb => 0
  | uxth => 1
  | uxtw => 2
  | uxtx => 3
  | sxtb => 4
  | sxth => 5
  | sxtw => 6
  | sxtx => 7
  | lsl => if wide then 3 else 2

theorem ofCode_ne_lsl : ∀ b : BitVec 3, ofCode b ≠ lsl := by decide

end Extend

theorem Condition.inverse_inverse (c : Condition) : c.inverse.inverse = c := by cases c <;> rfl

namespace Register

def isSp (r : Register) : Bool := r.kind = .stackPointer

@[simp] theorem isSp_gp (n : RegisterField) (wide : Bool) : (n.gp wide).isSp = false := by
  simp only [RegisterField.gp, gp]
  split <;> rfl

@[simp] theorem isSp_gpOrSp (n : RegisterField) (wide : Bool) :
    (n.gpOrSp wide).isSp = (n == 31) := by
  have hall : ∀ n : RegisterField, ∀ wide, (n.gpOrSp wide).isSp = (n == 31) := by decide
  exact hall n wide

end Register

namespace Encoding

variable {w : Word} {f : Form}

def registerWord (wide : Bool) (opc : BitVec 2) (group : BitVec 8) (rm : RegisterField) (low : BitVec 6)
    (rn rd : RegisterField) : Word :=
  BitVec.ofBool wide ++ opc ++ group ++ rm ++ low ++ rn ++ rd

theorem registerWord_fields (w : Word) :
    registerWord (w.bit 31) (w.field 29 2) (w.field 21 8) w.rm (w.field 10 6) w.rn w.rd = w := by
  simp only [registerWord, Word.ofBool_bit, Word.rm, Word.rn, Word.rd, Word.field_append]
  exact w.field_all

namespace Arithmetic

def code (e : Arithmetic) : BitVec 2 := BitVec.ofBool e.subtract ++ BitVec.ofBool e.setFlags

theorem code_ofWord (w : Word) : (ofWord w).code = w.field 29 2 := by
  simp only [code, ofWord, Word.ofBool_bit, Word.field_append]

end Arithmetic

def shift? : Operand → Option (RegisterField × Shift × BitVec 6)
  | .register r => some (r.field, .lsl, 0)
  | .shifted r shift amount => some (r.field, shift, .ofNat 6 amount)
  | _ => none

theorem shift?_ofShift (r : Register) (shift : Shift) (amount : BitVec 6) :
    shift? (.ofShift r shift amount.toNat) = some (r.field, shift, amount) := by
  unfold Operand.ofShift
  split
  · next h =>
    have hzero : amount = 0 := BitVec.eq_of_toNat_eq h.2
    simp [shift?, h.1, hzero]
  · simp [shift?]

namespace LogicalRegister

def opCode : LogicalOp → BitVec 2
  | .and => 0
  | .orr => 1
  | .eor => 2
  | .ands => 3

theorem opCode_ofCode : ∀ b : BitVec 2, opCode (.ofCode b) = b := by decide

def word (e : LogicalRegister) : Word :=
  registerWord e.wide (opCode e.op) (0b01010#5 ++ e.shift.code ++ BitVec.ofBool e.invert) e.rm e.amount
    e.rn e.rd

theorem word_of_ofWord {e : LogicalRegister} (h : w.field 24 5 = 0b01010#5) (he : ofWord w = .ok e) :
    e.word = w := by
  unfold ofWord at he
  split at he
  · simp at he
  · cases he
    have hgroup : 0b01010#5 ++ w.field 22 2 ++ BitVec.ofBool (w.bit 21) = w.field 21 8 := by
      simp only [Word.ofBool_bit, ← h, Word.field_append]
    simp only [word, opCode_ofCode, Shift.code_ofCode, hgroup, registerWord_fields]

end LogicalRegister

namespace AddSubShifted

def word (e : AddSubShifted) : Word :=
  registerWord e.wide e.code (0b01011#5 ++ e.shift.code ++ 0#1) e.rm e.amount e.rn e.rd

theorem word_of_ofWord {e : AddSubShifted} (h : w.field 24 5 = 0b01011#5) (hx : w.bit 21 = false)
    (he : ofWord w = .ok e) : e.word = w := by
  unfold ofWord at he
  split at he
  · simp at he
  · split at he
    · simp at he
    · cases he
      have hzero : w.field 21 1 = 0#1 := Word.field_of_bit hx
      have hgroup : 0b01011#5 ++ w.field 22 2 ++ 0#1 = w.field 21 8 := by
        simp only [← h, ← hzero, Word.field_append]
      simp only [word, Arithmetic.code_ofWord, Shift.code_ofCode, hgroup]
      exact registerWord_fields w

end AddSubShifted

namespace AddSubExtended

def word (e : AddSubExtended) : Word :=
  registerWord e.wide e.code 0b01011001#8 e.rm (e.option ++ e.amount) e.rn e.rd

theorem word_of_ofWord {e : AddSubExtended} (h : w.field 24 5 = 0b01011#5) (hx : w.bit 21 = true)
    (he : ofWord w = .ok e) : e.word = w := by
  simp only [ofWord, ne_eq, ite_not] at he
  split at he
  · next hz =>
    split at he
    · simp at he
    · cases he
      have hone : w.field 21 1 = 1#1 := Word.field_of_bit hx
      have hgroup : w.field 21 8 = 0b01011001#8 := by
        have hparts : w.field 24 5 ++ w.field 22 2 ++ w.field 21 1 = w.field 21 8 := by
          simp only [Word.field_append]
        rw [← hparts, h, hz, hone]
        rfl
      simp only [word, Arithmetic.code_ofWord, Word.field_append, ← hgroup]
      exact registerWord_fields w
  · simp at he

/-- The register, the extension and the amount of an extended operand. Without an extension it is
written so only beside the stack pointer. -/
def extension? (wide usesSp : Bool) : Operand → Option (RegisterField × BitVec 3 × BitVec 3)
  | .extended x => some (x.reg.field, x.extend.code wide, .ofNat 3 (x.amount.getD 0))
  | .register r => if usesSp then some (r.field, Extend.lsl.code wide, 0) else none
  | _ => none

theorem code_extend (e : AddSubExtended) : e.extend.code e.wide = e.option := by
  have hall : ∀ (option : BitVec 3) (wide usesSp : Bool),
      (if usesSp && option == (if wide then 3 else 2) then Extend.lsl else .ofCode option).code wide =
        option := by decide
  exact hall e.option e.wide e.usesSp

theorem usesSp_of_extend {e : AddSubExtended} (h : e.extend = .lsl) : e.usesSp = true := by
  cases hs : e.usesSp with
  | true => rfl
  | false =>
    simp only [extend, hs, Bool.false_and, Bool.false_eq_true, if_false] at h
    exact absurd h (Extend.ofCode_ne_lsl _)

theorem extension?_extended (e : AddSubExtended) :
    extension? e.wide e.usesSp e.extended = some (e.rm, e.option, e.amount) := by
  unfold extended
  split
  · next h =>
    have hoption : Extend.lsl.code e.wide = e.option := by rw [← e.code_extend, h.1]
    simp only [extension?, usesSp_of_extend h.1, if_true, hoption, second, RegisterField.field_gp, h.2]
  · have hamount : BitVec.ofNat 3 (e.amount?.getD 0) = e.amount := by
      unfold amount?
      split
      · next hz => simp [hz]
      · simp
    simp only [extension?, code_extend, hamount, second, RegisterField.field_gp]

theorem extension?_ofShift (wide : Bool) (r : Register) (shift : Shift) (amount : Nat) :
    extension? wide false (.ofShift r shift amount) = none := by
  unfold Operand.ofShift
  split <;> rfl

end AddSubExtended

def sumWord? (e : Arithmetic) (usesSp : Bool) (rd rn : RegisterField) (last : Operand) : Option Word :=
  ((AddSubExtended.extension? e.wide usesSp last).map fun (rm, option, amount) =>
    AddSubExtended.word ⟨e, option, amount, rm, rn, rd⟩).or <|
  (shift? last).map fun (rm, shift, amount) => AddSubShifted.word ⟨e, shift, amount, rm, rn, rd⟩

theorem sumWord?_shifted (e : AddSubShifted) :
    sumWord? e.toArithmetic false e.rd e.rn e.shifted = some e.word := by
  simp only [sumWord?, AddSubShifted.shifted, AddSubExtended.extension?_ofShift, shift?_ofShift,
    AddSubShifted.second, RegisterField.field_gp, Option.map_none, Option.map_some, Option.none_or]

theorem sumWord?_extended (e : AddSubExtended) :
    sumWord? e.toArithmetic e.usesSp e.rd e.rn e.extended = some e.word := by
  simp only [sumWord?, AddSubExtended.extension?_extended, Option.map_some, Option.some_or]

namespace AddSubCarry

def word (e : AddSubCarry) : Word := registerWord e.wide e.code 0b11010000#8 e.rm 0 e.rn e.rd

theorem word_ofWord (h : w.field 21 8 = 0b11010000#8) (hz : w.field 10 6 = 0) : (ofWord w).word = w := by
  simp only [word, ofWord, Arithmetic.code_ofWord, ← h, ← hz]
  exact registerWord_fields w

end AddSubCarry

namespace ConditionalCompare

def word (e : ConditionalCompare) : Word :=
  registerWord e.wide (BitVec.ofBool (!e.negative) ++ 1#1) 0b11010010#8 e.rm
    (e.condition.code ++ BitVec.ofBool e.immediate ++ 0#1) e.rn (0#1 ++ e.nzcv)

theorem word_of_ofWord {e : ConditionalCompare} (h : w.field 21 8 = 0b11010010#8)
    (he : ofWord w = .ok e) : e.word = w := by
  unfold ofWord at he
  split at he
  · simp at he
  · next hfixed =>
    cases he
    obtain ⟨⟨h29, h10⟩, h4⟩ : (w.bit 29 = true ∧ w.bit 10 = false) ∧ w.bit 4 = false := by
      simpa using hfixed
    have h29 : w.field 29 1 = 1#1 := Word.field_of_bit h29
    have h10 : w.field 10 1 = 0#1 := Word.field_of_bit h10
    have h4 : w.field 4 1 = 0#1 := Word.field_of_bit h4
    have hopc : BitVec.ofBool (w.bit 30) ++ 1#1 = w.field 29 2 := by
      rw [Word.ofBool_bit, ← h29, Word.field_append w (by decide)]
    have hlow : w.field 12 4 ++ BitVec.ofBool (w.bit 11) ++ 0#1 = w.field 10 6 := by
      simp only [Word.ofBool_bit, ← h10, Word.field_append]
    have hrd : 0#1 ++ w.field 0 4 = w.rd := by
      rw [← h4, Word.field_append w (by decide), Word.rd]
    simp only [word, Bool.not_not, Condition.code_ofCode, hopc, hlow, hrd, ← h, registerWord_fields]

end ConditionalCompare

namespace SelectOp

def inverts : SelectOp → Bool
  | csel | csinc => false
  | csinv | csneg => true

def increments : SelectOp → Bool
  | csel | csinv => false
  | csinc | csneg => true

@[simp] theorem inverts_ofBits (invert increment : Bool) :
    (ofBits invert increment).inverts = invert := by
  cases invert <;> cases increment <;> rfl

@[simp] theorem increments_ofBits (invert increment : Bool) :
    (ofBits invert increment).increments = increment := by
  cases invert <;> cases increment <;> rfl

end SelectOp

namespace ConditionalSelect

def word (e : ConditionalSelect) : Word :=
  registerWord e.wide (BitVec.ofBool e.op.inverts ++ 0#1) 0b11010100#8 e.rm
    (e.condition.code ++ 0#1 ++ BitVec.ofBool e.op.increments) e.rn e.rd

theorem word_of_ofWord {e : ConditionalSelect} (h : w.field 21 8 = 0b11010100#8)
    (he : ofWord w = .ok e) : e.word = w := by
  unfold ofWord at he
  split at he
  · simp at he
  · next hfixed =>
    cases he
    obtain ⟨h29, h11⟩ : w.bit 29 = false ∧ w.bit 11 = false := by simpa using hfixed
    have h29 : w.field 29 1 = 0#1 := Word.field_of_bit h29
    have h11 : w.field 11 1 = 0#1 := Word.field_of_bit h11
    have hopc : BitVec.ofBool (w.bit 30) ++ 0#1 = w.field 29 2 := by
      rw [Word.ofBool_bit, ← h29, Word.field_append w (by decide)]
    have hlow : w.field 12 4 ++ 0#1 ++ BitVec.ofBool (w.bit 10) = w.field 10 6 := by
      simp only [Word.ofBool_bit, ← h11, Word.field_append]
    simp only [word, SelectOp.inverts_ofBits, SelectOp.increments_ofBits, Condition.code_ofCode, hopc,
      hlow, ← h, registerWord_fields]

end ConditionalSelect

namespace OneSource

def wordOf (wide : Bool) (opcode : BitVec 6) (rn rd : RegisterField) : Word :=
  registerWord wide 0b10#2 0b11010110#8 0 opcode rn rd

theorem wordOf_fields (h : w.field 21 8 = 0b11010110#8) (hopc : w.field 29 2 = 0b10#2)
    (hz : w.field 16 5 = 0) : wordOf (w.bit 31) (w.field 10 6) w.rn w.rd = w := by
  have hw := registerWord_fields w
  rwa [Word.rm, hz, h, hopc] at hw

end OneSource

namespace TwoSource

def opCode : TwoSourceOp → BitVec 6
  | .udiv => 2
  | .sdiv => 3
  | .lsl => 8
  | .lsr => 9
  | .asr => 10
  | .ror => 11

theorem opCode_of_ofCode? : ∀ b : BitVec 6, ∀ op ∈ TwoSourceOp.ofCode? b, opCode op = b := by decide

def word (e : TwoSource) : Word :=
  registerWord e.wide 0b00#2 0b11010110#8 e.rm (opCode e.op) e.rn e.rd

end TwoSource

def Checksum.word (e : Checksum) : Word :=
  registerWord (e.size = 3) 0b00#2 0b11010110#8 e.rm (0b010#3 ++ BitVec.ofBool e.castagnoli ++ e.size)
    e.rn e.rd

namespace ThreeSource

def kindCode : ProductKind → BitVec 3
  | .same => 0
  | .signedLong => 1
  | .unsignedLong => 5
  | .signedHigh => 2
  | .unsignedHigh => 6

theorem kindCode_of_kind? : ∀ (b : BitVec 3) (subtract wide : Bool), ∀ kind ∈ kind? b subtract wide,
    kindCode kind = b := by decide

def word (e : ThreeSource) : Word :=
  registerWord e.wide 0b00#2 (0b11011#5 ++ kindCode e.kind) e.rm (BitVec.ofBool e.subtract ++ e.ra) e.rn
    e.rd

theorem word_of_ofWord {e : ThreeSource} (h : w.field 24 5 = 0b11011#5) (he : ofWord w = .ok e) :
    e.word = w := by
  simp only [ofWord, ne_eq, ite_not] at he
  split at he
  · next hopc =>
    split at he
    · next kind hkind =>
      cases he
      have hgroup : 0b11011#5 ++ w.field 21 3 = w.field 21 8 := by
        rw [← h, Word.field_append w (by decide)]
      have hlow : BitVec.ofBool (w.bit 15) ++ w.ra = w.field 10 6 := by
        rw [Word.ofBool_bit, Word.ra, Word.field_append w (by decide)]
      have hw := registerWord_fields w
      simp only [word, kindCode_of_kind? _ _ _ _ hkind, hgroup, hlow]
      rwa [hopc] at hw
    · simp at he
  · simp at he

end ThreeSource

end Encoding

end A64
