import A64.Proofs.Assembler.Immediate
import A64.Proofs.Assembler.RegisterLayout

/-! The assembler of data processing on registers, and the laws of data processing as a whole. Main
statement: the assembler takes the text of a decoded instruction back to its word, so two words of one
class that are written alike are one word, however many aliases share its mnemonics. -/

namespace A64

namespace Encoding

variable {w : Word} {f : Form}

inductive RegisterName where
  | sum (subtract setFlags : Bool)
  | compare (subtract : Bool)
  | negate (setFlags : Bool)
  | carrySum (subtract setFlags : Bool)
  | carryNegate (setFlags : Bool)
  | logical (op : LogicalOp) (invert : Bool)
  | move
  | moveInverted
  | test
  | conditionalCompare (negative : Bool)
  | select (op : SelectOp)
  /-- A selection from one register, under the opposite condition. -/
  | selectOne (op : SelectOp)
  /-- A selection from the zero register, under the opposite condition. -/
  | selectZero (op : SelectOp)
  /-- The opcode may depend on the width. -/
  | oneSource (narrow wide : BitVec 6)
  | twoSource (op : TwoSourceOp)
  | checksum (castagnoli : Bool) (size : BitVec 2)
  | product (kind : ProductKind) (subtract : Bool)
  | productSum (kind : ProductKind) (subtract : Bool)
  deriving DecidableEq

namespace RegisterName

def ofText? (m : String) : Option RegisterName :=
  [("add", sum false false), ("adds", sum false true), ("sub", sum true false), ("subs", sum true true),
   ("cmn", compare false), ("cmp", compare true), ("neg", negate false), ("negs", negate true),
   ("adc", carrySum false false), ("adcs", carrySum false true), ("sbc", carrySum true false),
   ("sbcs", carrySum true true), ("ngc", carryNegate false), ("ngcs", carryNegate true),
   ("and", logical .and false), ("orr", logical .orr false), ("eor", logical .eor false),
   ("ands", logical .ands false), ("bic", logical .and true), ("orn", logical .orr true),
   ("eon", logical .eor true), ("bics", logical .ands true), ("mov", move), ("mvn", moveInverted),
   ("tst", test), ("ccmn", conditionalCompare true), ("ccmp", conditionalCompare false),
   ("csel", select .csel), ("csinc", select .csinc), ("csinv", select .csinv), ("csneg", select .csneg),
   ("cinc", selectOne .csinc), ("cinv", selectOne .csinv), ("cneg", selectOne .csneg),
   ("cset", selectZero .csinc), ("csetm", selectZero .csinv), ("rbit", oneSource 0 0),
   ("rev16", oneSource 1 1), ("rev", oneSource 2 3), ("rev32", oneSource 2 2), ("clz", oneSource 4 4),
   ("cls", oneSource 5 5), ("udiv", twoSource .udiv), ("sdiv", twoSource .sdiv),
   ("lsl", twoSource .lsl), ("lsr", twoSource .lsr), ("asr", twoSource .asr), ("ror", twoSource .ror),
   ("crc32b", checksum false 0), ("crc32h", checksum false 1), ("crc32w", checksum false 2),
   ("crc32x", checksum false 3), ("crc32cb", checksum true 0), ("crc32ch", checksum true 1),
   ("crc32cw", checksum true 2), ("crc32cx", checksum true 3), ("mul", product .same false),
   ("mneg", product .same true), ("smull", product .signedLong false),
   ("smnegl", product .signedLong true), ("umull", product .unsignedLong false),
   ("umnegl", product .unsignedLong true), ("madd", productSum .same false),
   ("msub", productSum .same true), ("smaddl", productSum .signedLong false),
   ("smsubl", productSum .signedLong true), ("umaddl", productSum .unsignedLong false),
   ("umsubl", productSum .unsignedLong true)].lookup m

/-- The word of the operands under a name. A register that was left out is the zero register. -/
def word? : RegisterName → List Operand → Option Word
  | sum subtract setFlags => fun
    | [.register rd, .register rn, last] =>
      sumWord? ⟨rd.isWide, subtract, setFlags⟩ (rd.isSp || rn.isSp) rd.field rn.field last
    | _ => none
  | compare subtract => fun
    | [.register rn, last] =>
      sumWord? ⟨rn.isWide, subtract, true⟩ rn.isSp 31 rn.field last
    | _ => none
  | negate setFlags => fun
    | [.register rd, last] => sumWord? ⟨rd.isWide, true, setFlags⟩ false rd.field 31 last
    | _ => none
  | carrySum subtract setFlags => fun
    | [.register rd, .register rn, .register rm] =>
      some (AddSubCarry.word ⟨⟨rd.isWide, subtract, setFlags⟩, rm.field, rn.field, rd.field⟩)
    | _ => none
  | carryNegate setFlags => fun
    | [.register rd, .register rm] =>
      some (AddSubCarry.word ⟨⟨rd.isWide, true, setFlags⟩, rm.field, 31, rd.field⟩)
    | _ => none
  | logical op invert => fun
    | [.register rd, .register rn, last] =>
      (shift? last).map fun (rm, shift, amount) =>
        LogicalRegister.word ⟨rd.isWide, op, invert, shift, amount, rm, rn.field, rd.field⟩
    | _ => none
  | move => fun
    | [.register rd, .register rm] =>
      some (LogicalRegister.word ⟨rd.isWide, .orr, false, .lsl, 0, rm.field, 31, rd.field⟩)
    | _ => none
  | moveInverted => fun
    | [.register rd, last] =>
      (shift? last).map fun (rm, shift, amount) =>
        LogicalRegister.word ⟨rd.isWide, .orr, true, shift, amount, rm, 31, rd.field⟩
    | _ => none
  | test => fun
    | [.register rn, last] =>
      (shift? last).map fun (rm, shift, amount) =>
        LogicalRegister.word ⟨rn.isWide, .ands, false, shift, amount, rm, rn.field, 31⟩
    | _ => none
  | conditionalCompare negative => fun
    | [.register rn, .count n, .count nzcv, .condition c] =>
      some (ConditionalCompare.word
        ⟨rn.isWide, negative, true, .ofNat 5 n, c, rn.field, .ofNat 4 nzcv⟩)
    | [.register rn, .register rm, .count nzcv, .condition c] =>
      some (ConditionalCompare.word ⟨rn.isWide, negative, false, rm.field, c, rn.field, .ofNat 4 nzcv⟩)
    | _ => none
  | select op => fun
    | [.register rd, .register rn, .register rm, .condition c] =>
      some (ConditionalSelect.word ⟨rd.isWide, op, c, rm.field, rn.field, rd.field⟩)
    | _ => none
  | selectOne op => fun
    | [.register rd, .register rn, .condition c] =>
      some (ConditionalSelect.word ⟨rd.isWide, op, c.inverse, rn.field, rn.field, rd.field⟩)
    | _ => none
  | selectZero op => fun
    | [.register rd, .condition c] =>
      some (ConditionalSelect.word ⟨rd.isWide, op, c.inverse, 31, 31, rd.field⟩)
    | _ => none
  | oneSource narrow wide => fun
    | [.register rd, .register rn] =>
      some (OneSource.wordOf rd.isWide (if rd.isWide then wide else narrow) rn.field rd.field)
    | _ => none
  | twoSource op => fun
    | [.register rd, .register rn, .register rm] =>
      some (TwoSource.word ⟨rd.isWide, op, rm.field, rn.field, rd.field⟩)
    | _ => none
  | checksum castagnoli size => fun
    | [.register rd, .register rn, .register rm] =>
      some (Checksum.word ⟨castagnoli, size, rm.field, rn.field, rd.field⟩)
    | _ => none
  | product kind subtract => fun
    | [.register rd, .register rn, .register rm] =>
      some (ThreeSource.word ⟨rd.isWide, kind, subtract, rm.field, 31, rn.field, rd.field⟩)
    | _ => none
  | productSum kind subtract => fun
    | [.register rd, .register rn, .register rm, .register ra] =>
      some (ThreeSource.word ⟨rd.isWide, kind, subtract, rm.field, ra.field, rn.field, rd.field⟩)
    | _ => none

end RegisterName

def registerWord? (m : String) (operands : List Operand) : Option Word :=
  (RegisterName.ofText? m).bind (·.word? operands)

theorem registerWord?_spelled (name : RegisterName) {m : String} {operation : Operation}
    {operands : List Operand} (hname : RegisterName.ofText? m = some name)
    (hw : name.word? operands = some w) :
    (spelled m operation operands).mnemonic.bind
      (registerWord? · (spelled m operation operands).operands) = some w := by
  simp only [spelled, Option.bind_some, registerWord?, hname, hw]

theorem LogicalRegister.assemblesTo_form (e : LogicalRegister) :
    e.form.AssemblesTo registerWord? e.word := by
  intro a
  rw [Form.operandsAt_of_none rfl]
  have hshift : shift? e.shifted = some (e.rm, e.shift, e.amount) := by
    rw [shifted, shift?_ofShift, second, RegisterField.field_gp]
  simp only [form, spelling]
  split
  · next h =>
    have he : (⟨e.wide, .orr, false, .lsl, 0, e.rm, 31, e.rd⟩ : LogicalRegister) = e := by
      cases e
      simp_all
    refine registerWord?_spelled .move rfl ?_
    simp only [RegisterName.word?, result, second, RegisterField.isWide_gp, RegisterField.field_gp, he]
  split
  · next h =>
    have he : (⟨e.wide, .orr, true, e.shift, e.amount, e.rm, 31, e.rd⟩ : LogicalRegister) = e := by
      cases e
      simp_all
    refine registerWord?_spelled .moveInverted rfl ?_
    simp only [RegisterName.word?, hshift, Option.map_some, result, RegisterField.isWide_gp,
      RegisterField.field_gp, he]
  split
  · next h =>
    have he : (⟨e.wide, .ands, false, e.shift, e.amount, e.rm, e.rn, 31⟩ : LogicalRegister) = e := by
      cases e
      simp_all
    refine registerWord?_spelled .test rfl ?_
    simp only [RegisterName.word?, hshift, Option.map_some, first, RegisterField.isWide_gp,
      RegisterField.field_gp, he]
  · have hname : RegisterName.ofText? e.name = some (.logical e.op e.invert) := by
      unfold name
      cases e.op <;> cases e.invert <;> rfl
    refine registerWord?_spelled _ hname ?_
    simp only [RegisterName.word?, hshift, Option.map_some, result, first, RegisterField.isWide_gp,
      RegisterField.field_gp]

theorem Arithmetic.ofText?_name (e : Arithmetic) :
    RegisterName.ofText? e.name = some (.sum e.subtract e.setFlags) := by
  unfold name
  cases e.subtract <;> cases e.setFlags <;> rfl

theorem Arithmetic.ofText?_compareName (e : Arithmetic) :
    RegisterName.ofText? e.compareName = some (.compare e.subtract) := by
  unfold compareName
  cases e.subtract <;> rfl

theorem AddSubShifted.assemblesTo_form (e : AddSubShifted) :
    e.form.AssemblesTo registerWord? e.word := by
  intro a
  rw [Form.operandsAt_of_none rfl]
  have hsum := sumWord?_shifted e
  simp only [form, spelling]
  split
  · next h =>
    obtain ⟨hflags, hrd⟩ : e.setFlags = true ∧ e.rd = 31 := by simpa using h
    refine registerWord?_spelled _ e.ofText?_compareName ?_
    rw [hrd] at hsum
    simp only [RegisterName.word?, first, RegisterField.isWide_gp, RegisterField.field_gp,
      Register.isSp_gp, ← hflags, hsum]
  split
  · next h =>
    obtain ⟨hsub, hrn⟩ : e.subtract = true ∧ e.rn = 31 := by simpa using h
    have hname : RegisterName.ofText? e.negateName = some (.negate e.setFlags) := by
      unfold Arithmetic.negateName
      cases e.setFlags <;> rfl
    refine registerWord?_spelled _ hname ?_
    rw [hrn] at hsum
    simp only [RegisterName.word?, result, RegisterField.isWide_gp, RegisterField.field_gp, ← hsub, hsum]
  · refine registerWord?_spelled _ e.ofText?_name ?_
    simp only [RegisterName.word?, result, first, RegisterField.isWide_gp, RegisterField.field_gp,
      Register.isSp_gp, Bool.or_self, hsum]

namespace AddSubExtended

@[simp] theorem field_result (e : AddSubExtended) : e.result.field = e.rd := by
  unfold result
  split <;> simp

@[simp] theorem isWide_result (e : AddSubExtended) : e.result.isWide = e.wide := by
  unfold result
  split <;> simp

theorem usesSp_eq (e : AddSubExtended) : (e.result.isSp || e.first.isSp) = e.usesSp := by
  unfold result first usesSp
  cases e.setFlags <;> simp

theorem assemblesTo_form (e : AddSubExtended) : e.form.AssemblesTo registerWord? e.word := by
  intro a
  rw [Form.operandsAt_of_none rfl]
  have hsum := sumWord?_extended e
  simp only [form, spelling]
  split
  · next h =>
    obtain ⟨hflags, hrd⟩ : e.setFlags = true ∧ e.rd = 31 := by simpa using h
    have hsp : e.usesSp = e.first.isSp := by simp [usesSp, first, hflags]
    refine registerWord?_spelled _ e.ofText?_compareName ?_
    rw [hrd, hsp] at hsum
    simp only [first, RegisterName.word?, RegisterField.isWide_gpOrSp, RegisterField.field_gpOrSp,
      ← hflags] at hsum ⊢
    exact hsum
  · refine registerWord?_spelled _ e.ofText?_name ?_
    have hfirst : e.first.field = e.rn := e.rn.field_gpOrSp e.wide
    simp only [RegisterName.word?, isWide_result, field_result, usesSp_eq, hfirst, hsum]

end AddSubExtended

theorem AddSubCarry.assemblesTo_form (e : AddSubCarry) : e.form.AssemblesTo registerWord? e.word := by
  intro a
  rw [Form.operandsAt_of_none rfl]
  simp only [form, spelling]
  split
  · next h =>
    have hname : RegisterName.ofText? e.negateCarryName = some (.carryNegate e.setFlags) := by
      unfold Arithmetic.negateCarryName
      cases e.setFlags <;> rfl
    have he : (⟨⟨e.wide, true, e.setFlags⟩, e.rm, 31, e.rd⟩ : AddSubCarry) = e := by
      obtain ⟨⟨wide, subtract, setFlags⟩, rm, rn, rd⟩ := e
      simp_all
    refine registerWord?_spelled _ hname ?_
    simp only [RegisterName.word?, result, second, RegisterField.isWide_gp, RegisterField.field_gp, he]
  · have hname : RegisterName.ofText? e.carryName = some (.carrySum e.subtract e.setFlags) := by
      unfold Arithmetic.carryName
      cases e.subtract <;> cases e.setFlags <;> rfl
    refine registerWord?_spelled _ hname ?_
    simp only [RegisterName.word?, result, first, second, RegisterField.isWide_gp, RegisterField.field_gp]

theorem ConditionalCompare.assemblesTo_form (e : ConditionalCompare) :
    e.form.AssemblesTo registerWord? e.word := by
  intro a
  rw [Form.operandsAt_of_none rfl]
  have hname : RegisterName.ofText? (if e.negative then "ccmn" else "ccmp") =
      some (.conditionalCompare e.negative) := by
    cases e.negative <;> rfl
  refine registerWord?_spelled _ hname ?_
  obtain ⟨wide, negative, immediate, rm, condition, rn, nzcv⟩ := e
  cases immediate <;> simp [RegisterName.word?, first, second]

namespace ConditionalSelect

theorem condition_inverse (e : ConditionalSelect) :
    (⟨e.wide, e.op, e.condition.inverse.inverse, e.rm, e.rn, e.rd⟩ : ConditionalSelect) = e := by
  rw [Condition.inverse_inverse]

theorem rm_of_alias? {e : ConditionalSelect} {name : String × Bool} (h : e.alias? = some name) :
    e.rm = e.rn := by
  unfold alias? at h
  split at h
  · next halias =>
    simp only [isAlias, Bool.and_eq_true, beq_iff_eq] at halias
    exact halias.1.symm
  · simp at h

theorem ofText?_of_alias? {e : ConditionalSelect} {m : String} {zero : Bool}
    (h : e.alias? = some (m, zero)) :
    RegisterName.ofText? m = some (if zero then .selectZero e.op else .selectOne e.op) ∧
      (zero = true → e.rn = 31) := by
  unfold alias? at h
  split at h
  case isFalse => simp at h
  case isTrue =>
    by_cases hrn : e.rn = 31
    · cases hop : e.op <;> simp only [hop, hrn, if_true, reduceCtorEq, Option.some.injEq] at h <;> cases h
      all_goals exact ⟨rfl, fun _ => hrn⟩
    · cases hop : e.op <;> simp only [hop, hrn, if_false, reduceCtorEq, Option.some.injEq] at h <;> cases h
      all_goals exact ⟨rfl, by simp⟩

theorem assemblesTo_form (e : ConditionalSelect) : e.form.AssemblesTo registerWord? e.word := by
  intro a
  rw [Form.operandsAt_of_none rfl]
  cases h : e.alias? with
  | none =>
    have hname : RegisterName.ofText? e.op.name = some (.select e.op) := by
      cases e.op <;> rfl
    simp only [form, h, Option.map_none, Option.getD_none, operands]
    refine registerWord?_spelled _ hname ?_
    simp only [RegisterName.word?, result, first, second, RegisterField.isWide_gp, RegisterField.field_gp]
  | some named =>
    obtain ⟨m, zero⟩ := named
    obtain ⟨hname, hrn⟩ := ofText?_of_alias? h
    have he := e.condition_inverse
    rw [rm_of_alias? h] at he
    simp only [form, h, Option.map_some, Option.getD_some, operands]
    refine registerWord?_spelled _ hname ?_
    cases zero with
    | true =>
      rw [hrn rfl] at he
      simp only [if_true, RegisterName.word?, result, RegisterField.isWide_gp, RegisterField.field_gp, he]
    | false =>
      simp only [Bool.false_eq_true, if_false, RegisterName.word?, result, first,
        RegisterField.isWide_gp, RegisterField.field_gp, he]

end ConditionalSelect

theorem OneSource.ofText?_of_name {opcode : BitVec 6} {wide : Bool} {m : String}
    (h : name opcode wide = .ok m) : ∃ narrow broad, RegisterName.ofText? m = some (.oneSource narrow broad) ∧
      (if wide then broad else narrow) = opcode := by
  unfold name at h
  split at h <;> cases h
  all_goals exact ⟨_, _, rfl, BitVec.eq_of_toNat_eq (by simp_all)⟩

theorem OneSource.assemblesTo_form {e : OneSource} (h : w.field 21 8 = 0b11010110#8)
    (hs : w.bit 30 = true) (he : ofWord w = .ok e) : e.form.AssemblesTo registerWord? w := by
  intro a
  rw [Form.operandsAt_of_none rfl]
  simp only [ofWord, ne_eq, ite_not] at he
  split at he
  case isTrue => simp at he
  case isFalse hf =>
    split at he
    case isFalse => simp at he
    case isTrue hz =>
      obtain ⟨m, hm, rfl⟩ := map_eq_ok.mp he
      obtain ⟨narrow, broad, hname, hopcode⟩ := ofText?_of_name hm
      have h30 : w.field 30 1 = 1#1 := Word.field_of_bit hs
      have h29 : w.field 29 1 = 0#1 := Word.field_of_bit (Bool.eq_false_of_not_eq_true hf)
      have hopc : w.field 29 2 = 0b10#2 := by
        rw [← Word.field_append w (show 30 = 29 + 1 from rfl), h30, h29]
        rfl
      refine registerWord?_spelled _ hname ?_
      simp only [RegisterName.word?, RegisterField.isWide_gp, RegisterField.field_gp, hopcode,
        wordOf_fields h hopc hz]

theorem TwoSource.assemblesTo_form (e : TwoSource) : e.form.AssemblesTo registerWord? e.word := by
  intro a
  rw [Form.operandsAt_of_none rfl]
  have hname : RegisterName.ofText? e.op.name = some (.twoSource e.op) := by
    cases e.op <;> rfl
  refine registerWord?_spelled _ hname ?_
  simp only [RegisterName.word?, RegisterField.isWide_gp, RegisterField.field_gp]

theorem Checksum.assemblesTo_form (e : Checksum) : e.form.AssemblesTo registerWord? e.word := by
  intro a
  rw [Form.operandsAt_of_none rfl]
  have hall : ∀ (castagnoli : Bool) (size : BitVec 2),
      RegisterName.ofText? ("crc32" ++ (if castagnoli then "c" else "") ++ sizeLetter size) =
        some (.checksum castagnoli size) := by decide +kernel
  refine registerWord?_spelled _ (hall e.castagnoli e.size) ?_
  simp only [RegisterName.word?, data, RegisterField.field_gp]

theorem TwoSourceEncoding.assemblesTo (h : TwoSourceEncoding w f) (hg : w.field 21 8 = 0b11010110#8)
    (hopc : w.field 29 2 = 0b00#2) : f.AssemblesTo registerWord? w := by
  have hw := registerWord_fields w
  rw [hg, hopc] at hw
  cases h with
  | checksum ho hwide =>
    have hlow : 0b010#3 ++ BitVec.ofBool (w.bit 12) ++ w.field 10 2 = w.field 10 6 := by
      rw [Word.ofBool_bit, show (0b010#3) = w.field 13 3 from ho.symm]
      simp only [Word.field_append]
    have hsize : decide (w.field 10 2 = 3) = w.bit 31 := by
      rw [hwide]
      rfl
    have hword : Checksum.word ⟨w.bit 12, w.field 10 2, w.rm, w.rn, w.rd⟩ = w := by
      simp only [Checksum.word, hlow, hsize, hw]
    simpa only [hword] using
      Checksum.assemblesTo_form ⟨w.bit 12, w.field 10 2, w.rm, w.rn, w.rd⟩
  | @arithmetic op ho =>
    have hword : TwoSource.word ⟨w.bit 31, op, w.rm, w.rn, w.rd⟩ = w := by
      simp only [TwoSource.word, TwoSource.opCode_of_ofCode? _ _ ho, hw]
    simpa only [hword] using TwoSource.assemblesTo_form ⟨w.bit 31, op, w.rm, w.rn, w.rd⟩

/-- A product with a name of its own for each summand is assembled to its word. The high half of a
product has none, and the field of its summand is lost. -/
theorem ThreeSource.assemblesTo_form {e : ThreeSource}
    (hm : e.form.mnemonic ≠ some "smulh" ∧ e.form.mnemonic ≠ some "umulh") :
    e.form.AssemblesTo registerWord? e.word := by
  intro a
  rw [Form.operandsAt_of_none rfl]
  obtain ⟨full, short, hnames, hfull, hshort⟩ : ∃ full short, e.names = (full, some short) ∧
      RegisterName.ofText? full = some (.productSum e.kind e.subtract) ∧
      RegisterName.ofText? short = some (.product e.kind e.subtract) := by
    unfold names
    cases hkind : e.kind with
    | same | signedLong | unsignedLong => cases e.subtract <;> exact ⟨_, _, rfl, rfl, rfl⟩
    | signedHigh => exact absurd (by simp [form, spelling, names, hkind, spelled]) hm.1
    | unsignedHigh => exact absurd (by simp [form, spelling, names, hkind, spelled]) hm.2
  simp only [form, spelling, hnames]
  split
  · next hra =>
    have he : (⟨e.wide, e.kind, e.subtract, e.rm, 31, e.rn, e.rd⟩ : ThreeSource) = e := by
      cases e
      simp_all
    refine registerWord?_spelled _ hshort ?_
    simp only [RegisterName.word?, result, first, second, RegisterField.isWide_gp, RegisterField.field_gp,
      he]
  · refine registerWord?_spelled _ hfull ?_
    simp only [List.cons_append, List.nil_append, RegisterName.word?, result, first, second, summand,
      RegisterField.isWide_gp, RegisterField.field_gp]

theorem RegisterEncoding.assemblesTo (h : RegisterEncoding w f)
    (hc : EncodingClass.ofWord w = .dataRegister)
    (hm : f.mnemonic ≠ some "smulh" ∧ f.mnemonic ≠ some "umulh") : f.AssemblesTo registerWord? w := by
  have hclass := EncodingClass.field_of_dataRegister hc
  rw [Word.toNat_field] at hclass
  -- Bits 28 to 21 of the groups that fix them all.
  have hgroup {n : Nat} (hb : w.bit 28 = true) (ho : (w.field 21 4).toNat = n) :
      w.field 21 8 = BitVec.ofNat 8 (208 + n) := by
    have hlt := (w.field 21 4).isLt
    rw [Word.toNat_field] at ho hlt
    rw [Word.bit_eq_true] at hb
    exact w.field_eq_ofNat (by omega)
  cases h with
  | @threeSource e hb ho he =>
    rw [Word.toNat_field] at ho
    rw [Word.bit_eq_true] at hb
    have hw : e.word = w := ThreeSource.word_of_ofWord (w.field_eq_ofNat (by omega)) he
    simpa only [hw] using ThreeSource.assemblesTo_form hm
  | carry hb ho hz =>
    have hw : (AddSubCarry.ofWord w).word = w := AddSubCarry.word_ofWord (hgroup hb ho) hz
    simpa only [hw] using (AddSubCarry.ofWord w).assemblesTo_form
  | @conditionalCompare e hb ho he =>
    have hw : e.word = w := ConditionalCompare.word_of_ofWord (hgroup hb ho) he
    simpa only [hw] using e.assemblesTo_form
  | @conditionalSelect e hb ho he =>
    have hw : e.word = w := ConditionalSelect.word_of_ofWord (hgroup hb ho) he
    simpa only [hw] using e.assemblesTo_form
  | oneSource hb ho hs he => exact OneSource.assemblesTo_form (hgroup hb ho) hs he
  | twoSource hb ho hs hz hf =>
    rw [Word.bit_eq_false] at hs hz
    exact hf.assemblesTo (hgroup hb ho) (w.field_eq_ofNat (by omega))
  | @logical e hb ho he =>
    rw [Word.toNat_field] at ho
    rw [Word.bit_eq_false] at hb
    have hw : e.word = w := LogicalRegister.word_of_ofWord (w.field_eq_ofNat (by omega)) he
    simpa only [hw] using e.assemblesTo_form
  | @extended e hb ho hx he =>
    rw [Word.toNat_field] at ho
    rw [Word.bit_eq_false] at hb
    have hw : e.word = w := AddSubExtended.word_of_ofWord (w.field_eq_ofNat (by omega)) hx he
    simpa only [hw] using e.assemblesTo_form
  | @shifted e hb ho hx he =>
    rw [Word.toNat_field] at ho
    rw [Word.bit_eq_false] at hb
    have hw : e.word = w := AddSubShifted.word_of_ofWord (w.field_eq_ofNat (by omega)) hx he
    simpa only [hw] using e.assemblesTo_form

theorem registerWord?_of_decode {a : Address} {i : Instruction}
    (hc : EncodingClass.ofWord w = .dataRegister) (hd : decode w a = .ok i)
    (hm : i.mnemonic ∉ [some "smulh", some "umulh"]) :
    i.mnemonic.bind (registerWord? · i.operands) = some w := by
  obtain ⟨f, -, hf, rfl⟩ := decode_eq_ok hd
  rw [hc] at hf
  cases hf with
  | register h =>
    have hm : f.mnemonic ∉ [some "smulh", some "umulh"] := hm
    exact h.assemblesTo hc (by simpa using hm) a

end Encoding

open Encoding

/-- Words of data processing are told apart by their text. At any address, two words of the class with an
immediate that decode and are written with one mnemonic and one list of operands are the same word, and so
are two words of the class on registers; the assembler of the class finds the word of a decoded
instruction from its mnemonic and operands. Logical instructions with an immediate are left aside, and so
are `smulh` and `umulh`, whose text leaves a field of the word out. -/
theorem data_word_of_text (a : Address) :
    (∀ (v w : Word) (i j : Instruction), EncodingClass.ofWord v = .dataImmediate →
      EncodingClass.ofWord w = .dataImmediate → v.field 23 3 ≠ 0b100 → w.field 23 3 ≠ 0b100 →
      decode v a = .ok i → decode w a = .ok j →
      i.mnemonic = j.mnemonic → i.operands = j.operands → v = w) ∧
    (∀ (v w : Word) (i j : Instruction), EncodingClass.ofWord v = .dataRegister →
      EncodingClass.ofWord w = .dataRegister → i.mnemonic ∉ [some "smulh", some "umulh"] →
      j.mnemonic ∉ [some "smulh", some "umulh"] → decode v a = .ok i → decode w a = .ok j →
      i.mnemonic = j.mnemonic → i.operands = j.operands → v = w) ∧
    (∀ (w : Word) (i : Instruction), EncodingClass.ofWord w = .dataImmediate → w.field 23 3 ≠ 0b100 →
      decode w a = .ok i → i.mnemonic.bind (immediateWord? · i.operands) = some w) ∧
    (∀ (w : Word) (i : Instruction), EncodingClass.ofWord w = .dataRegister →
      i.mnemonic ∉ [some "smulh", some "umulh"] → decode w a = .ok i →
      i.mnemonic.bind (registerWord? · i.operands) = some w) := by
  refine ⟨?_, ?_, ?_, ?_⟩
  · intro v w i j hv hw hvl hwl hi hj hm ho
    exact Instruction.word_eq_of_text (immediateWord?_of_decode hv hvl hi)
      (immediateWord?_of_decode hw hwl hj) hm ho
  · intro v w i j hv hw him hjm hi hj hm ho
    exact Instruction.word_eq_of_text (registerWord?_of_decode hv hi him)
      (registerWord?_of_decode hw hj hjm) hm ho
  · intro w i hw hl hi
    exact immediateWord?_of_decode hw hl hi
  · intro w i hw hm hi
    exact registerWord?_of_decode hw hi hm

/-- A left shift by a number is a bitfield move, a `cset` is a selection under the opposite condition, and
a sum from the stack pointer is an extended one. -/
theorem data_word_of_aliases :
    immediateWord? "lsl" [.register (.x 0), .register (.x 1), .count 32] = some 0xd3607c20 ∧
      registerWord? "cset" [.register (.w 0), .condition .eq] = some 0x1a9f17e0 ∧
      registerWord? "add" [.register (.x 0), .register .sp, .register (.x 1)] = some 0x8b2163e0 ∧
      (∀ w : Word, EncodingClass.ofWord w = .dataImmediate → w.field 23 3 ≠ 0b100 → ∀ i,
        decode w 0x1000 = .ok i → i.mnemonic = some "lsl" →
        i.operands = [.register (.x 0), .register (.x 1), .count 32] → w = 0xd3607c20) ∧
      (∀ w : Word, EncodingClass.ofWord w = .dataRegister → ∀ i, decode w 0x1000 = .ok i →
        i.mnemonic = some "cset" → i.operands = [.register (.w 0), .condition .eq] → w = 0x1a9f17e0) := by
  have hlsl : decode 0xd3607c20 0x1000 =
      .ok (Bitfield.form ⟨true, .ubfm, 32, 31, 1, 0⟩ |>.place 0xd3607c20 0x1000) := rfl
  have hcset : decode 0x1a9f17e0 0x1000 =
      .ok (ConditionalSelect.form ⟨false, .csinc, .ne, 31, 31, 0⟩ |>.place 0x1a9f17e0 0x1000) := rfl
  have hadd : decode 0x8b2163e0 0x1000 =
      .ok (AddSubExtended.form ⟨⟨true, false, false⟩, 3, 0, 1, 31, 0⟩ |>.place 0x8b2163e0 0x1000) := rfl
  obtain ⟨himmediate, hregister, hword, hregisterWord⟩ := data_word_of_text 0x1000
  refine ⟨?_, ?_, ?_, ?_, ?_⟩
  · exact hword _ _ rfl (by decide) hlsl
  · exact hregisterWord _ _ rfl (by decide) hcset
  · exact hregisterWord _ _ rfl (by decide) hadd
  · intro w hw hl i hi hm ho
    exact himmediate w 0xd3607c20 i _ hw rfl hl (by decide) hi hlsl hm ho
  · intro w hw i hi hm ho
    exact hregister w 0x1a9f17e0 i _ hw rfl (by rw [hm]; decide) (by decide) hi hcset hm ho

end A64
