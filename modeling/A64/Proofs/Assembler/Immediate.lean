import A64.Proofs.Assembler.Fields

/-! The assembler of data processing with an immediate, logical instructions aside. The mnemonic tells the
family of encodings that a text belongs to, and the operands tell the fields: most mnemonics are aliases,
which leave a field out or count it from the other end. Main statement: the text of a decoded instruction
of these groups is assembled to its word. -/

namespace A64.Encoding

variable {w : Word} {f : Form}

namespace AddressGeneration

def word (e : AddressGeneration) : Word :=
  BitVec.ofBool e.page ++ e.distance.extractLsb' 0 2 ++ 0b10000#5 ++ e.distance.extractLsb' 2 19 ++ e.rd

theorem word_ofWord (h : w.field 24 5 = 0b10000#5) : (ofWord w).word = w := by
  have hhigh : (w.field 5 19 ++ w.field 29 2).extractLsb' 2 19 = w.field 5 19 := by
    rw [BitVec.extractLsb'_append_eq_of_le (by decide), BitVec.extractLsb'_eq_self]
  have hlow : (w.field 5 19 ++ w.field 29 2).extractLsb' 0 2 = w.field 29 2 := by
    rw [BitVec.extractLsb'_append_eq_of_add_le (by decide), BitVec.extractLsb'_eq_self]
  simp only [word, ofWord, hhigh, hlow, Word.ofBool_bit, Word.rd, ← h, Word.field_append]
  exact w.field_all

/-- The distance that a reference was made of. The address of a page reference is where its offset
starts from. -/
def distanceOf (page : Bool) (offset : Int) (target : Address) : BitVec 21 :=
  if page then .ofInt 21 ((target - (target - .ofInt 64 offset).page).toInt / 4096)
  else .ofInt 21 offset

theorem toInt_pages (pages : BitVec 21) :
    (BitVec.ofInt 64 (4096 * pages.toInt)).toInt = 4096 * pages.toInt := by
  obtain ⟨hlow, hhigh⟩ := toInt_bounds_of_le (by decide) pages
  rw [BitVec.toInt_ofInt, Int.bmod_eq_of_le (by omega) (by omega)]

theorem operandsAt_form (e : AddressGeneration) (a : Address) :
    ∃ offset target, e.form.operandsAt a = [.register (e.rd.gp true), .pcRelative offset target] ∧
      distanceOf e.page offset target = e.distance := by
  obtain ⟨page, distance, rd⟩ := e
  cases page with
  | false =>
    obtain ⟨hlow, hhigh⟩ := toInt_bounds_of_le (by decide) distance
    have hop := Reference.operand_displaced_of_lt a .addressIndex (d := distance.toInt)
      (by omega) (by omega)
    refine ⟨distance.toInt, a.advance distance.toInt, ?_, BitVec.ofInt_toInt⟩
    simp [Form.operandsAt, form, spelled, hop]
  | true =>
    let target := a.page.advance (4096 * distance.toInt)
    refine ⟨(target - a).toInt, target, rfl, ?_⟩
    have hstart : target - BitVec.ofInt 64 (target - a).toInt = a := by
      rw [BitVec.ofInt_toInt]
      grind
    have hpages : target - a.page = BitVec.ofInt 64 (4096 * distance.toInt) :=
      Address.advance_sub_self _ _
    rw [distanceOf, if_pos rfl, hstart, hpages, toInt_pages,
      Int.mul_ediv_cancel_left _ (by decide), BitVec.ofInt_toInt]

end AddressGeneration

namespace AddSubImmediate

def word (e : AddSubImmediate) : Word :=
  BitVec.ofBool e.wide ++ BitVec.ofBool e.subtract ++ BitVec.ofBool e.setFlags ++ 0b100010#6 ++
    BitVec.ofBool e.shifted ++ e.imm ++ e.rn ++ e.rd

theorem word_ofWord (h : w.field 23 6 = 0b100010#6) : (ofWord w).word = w := by
  simp only [word, ofWord, Arithmetic.ofWord, Word.ofBool_bit, Word.rn, Word.rd, ← h, Word.field_append]
  exact w.field_all

def shown? : Operand → Option (Bool × BitVec 12)
  | .immediate i => some (false, .ofInt 12 i.value)
  | .shiftedImmediate value _ => some (true, .ofNat 12 value)
  | _ => none

theorem shown?_immediate (e : AddSubImmediate) : shown? e.immediate = some (e.shifted, e.imm) := by
  unfold immediate
  split
  · next hs => simp [shown?, hs]
  · next hs => simp [shown?, Operand.ofNat, hs]

@[simp] theorem field_result (e : AddSubImmediate) : e.result.field = e.rd := by
  unfold result
  split <;> simp

@[simp] theorem isWide_result (e : AddSubImmediate) : e.result.isWide = e.wide := by
  unfold result
  split <;> simp

end AddSubImmediate

namespace MoveWide

def opCode : MoveOp → BitVec 2
  | .movn => 0
  | .movz => 2
  | .movk => 3

theorem opCode_of_op? : ∀ b : BitVec 2, ∀ op ∈ op? b, opCode op = b := by decide

def word (e : MoveWide) : Word :=
  BitVec.ofBool e.wide ++ opCode e.op ++ 0b100101#6 ++ e.quarter ++ e.imm ++ e.rd

/-- A narrow register has two quarters of 16 bits only. -/
def Fits (e : MoveWide) : Prop := e.wide = false → e.quarter.toNat < 2

theorem fits_of_ofWord {e : MoveWide} (he : ofWord w = .ok e) : e.Fits := by
  unfold ofWord at he
  split at he
  case h_1 => simp at he
  case h_2 op hop =>
    split at he
    · simp at he
    · next hq =>
      cases he
      intro hwide
      simpa [show w.bit 31 = false from hwide] using hq

theorem word_of_ofWord {e : MoveWide} (h : w.field 23 6 = 0b100101#6) (he : ofWord w = .ok e) :
    e.word = w ∧ e.Fits := by
  refine ⟨?_, fits_of_ofWord he⟩
  unfold ofWord at he
  split at he
  case h_1 => simp at he
  case h_2 op hop =>
    split at he
    · simp at he
    · cases he
      simp only [word, opCode_of_op? _ _ hop, Word.ofBool_bit, Word.rd, ← h, Word.field_append]
      exact w.field_all

theorem shift_le {e : MoveWide} (h : e.Fits) : 16 + e.shift ≤ Register.width e.wide := by
  have hq := e.quarter.isLt
  cases hwide : e.wide with
  | false =>
    have hnarrow := h hwide
    simp only [shift, Register.width, Bool.false_eq_true, if_false]
    omega
  | true =>
    simp only [shift, Register.width, if_true]
    omega

theorem placed_lt {e : MoveWide} (h : e.Fits) : e.placed < 2 ^ Register.width e.wide := by
  have himm := e.imm.isLt
  calc e.placed = e.imm.toNat * 2 ^ e.shift := Nat.shiftLeft_eq _ _
    _ < 2 ^ 16 * 2 ^ e.shift := Nat.mul_lt_mul_of_pos_right himm (Nat.two_pow_pos _)
    _ = 2 ^ (16 + e.shift) := (Nat.pow_add 2 16 e.shift).symm
    _ ≤ 2 ^ Register.width e.wide := Nat.pow_le_pow_right (by decide) (shift_le h)

/-- The move of a value with at most one quarter in use, which its highest bit tells. -/
def ofPlaced (wide : Bool) (op : MoveOp) (value : Nat) (rd : RegisterField) : MoveWide :=
  ⟨wide, op, .ofNat 2 (value.log2 / 16), .ofNat 16 (value >>> (16 * (value.log2 / 16))), rd⟩

theorem log2_placed {e : MoveWide} (h : e.imm = 0 → e.quarter = 0) :
    e.placed.log2 / 16 = e.quarter.toNat := by
  by_cases himm : e.imm = 0
  · simp [placed, himm, h himm]
  · have hpos : e.imm.toNat ≠ 0 := fun hz => himm (BitVec.eq_of_toNat_eq hz)
    have hlt := e.imm.isLt
    have hplaced : e.placed = e.imm.toNat * 2 ^ (16 * e.quarter.toNat) := Nat.shiftLeft_eq _ _
    have hne : e.placed ≠ 0 := by
      rw [hplaced]
      exact Nat.mul_ne_zero hpos (Nat.two_pow_pos _).ne'
    have hlow : 16 * e.quarter.toNat ≤ e.placed.log2 := by
      rw [Nat.le_log2 hne, hplaced]
      exact Nat.le_mul_of_pos_left _ (Nat.pos_of_ne_zero hpos)
    have hhigh : e.placed.log2 < 16 * e.quarter.toNat + 16 := by
      rw [Nat.log2_lt hne, hplaced, Nat.add_comm, Nat.pow_add]
      exact Nat.mul_lt_mul_of_pos_right hlt (Nat.two_pow_pos _)
    omega

theorem ofPlaced_placed {e : MoveWide} (h : e.imm = 0 → e.quarter = 0) :
    ofPlaced e.wide e.op e.placed e.rd = e := by
  have hshift : e.placed >>> (16 * e.quarter.toNat) = e.imm.toNat := Nat.shiftLeft_shiftRight _ _
  rw [ofPlaced, log2_placed h, hshift, BitVec.ofNat_toNat, BitVec.ofNat_toNat, BitVec.setWidth_eq,
    BitVec.setWidth_eq]

/-- The move that writes an immediate. A signed one is the complement of what is moved. -/
def ofImmediate (wide : Bool) (imm : Immediate) (rd : RegisterField) : MoveWide :=
  if imm.signed then ofPlaced wide .movn (~~~(BitVec.ofInt (Register.width wide) imm.value)).toNat rd
  else ofPlaced wide .movz imm.value.toNat rd

theorem quarter_of_isMove {e : MoveWide} (h : e.isMove = true) : e.imm = 0 → e.quarter = 0 := by
  intro himm
  simp only [isMove, himm, Bool.and_eq_true] at h
  simpa using h.1

theorem ofImmediate_inverted {e : MoveWide} (hfits : e.Fits) (hop : e.op = .movn)
    (hmove : e.isMove = true) : ofImmediate e.wide ⟨e.inverted, true⟩ e.rd = e := by
  have hplaced : (~~~(BitVec.ofInt (Register.width e.wide) e.inverted)).toNat = e.placed := by
    rw [inverted, BitVec.ofInt_toInt, BitVec.not_not, BitVec.toNat_ofNat,
      Nat.mod_eq_of_lt (placed_lt hfits)]
  rw [ofImmediate, if_pos rfl, hplaced, ← hop, ofPlaced_placed (quarter_of_isMove hmove)]

theorem ofImmediate_placed {e : MoveWide} (hop : e.op = .movz) (hmove : e.isMove = true) :
    ofImmediate e.wide ⟨e.placed, false⟩ e.rd = e := by
  rw [ofImmediate, if_neg (by simp), Int.toNat_natCast, ← hop, ofPlaced_placed (quarter_of_isMove hmove)]

end MoveWide

/-- The layout of bitfield moves and extractions. Bit 22 repeats the width of the registers. -/
def positionWord (wide : Bool) (opc : BitVec 2) (group : BitVec 6) (repeated : Bool)
    (upper lower : BitVec 6) (rn rd : RegisterField) : Word :=
  BitVec.ofBool wide ++ opc ++ group ++ BitVec.ofBool repeated ++ upper ++ lower ++ rn ++ rd

theorem positionWord_fields (w : Word) :
    positionWord (w.bit 31) (w.field 29 2) (w.field 23 6) (w.bit 22) (w.field 16 6) (w.field 10 6) w.rn
      w.rd = w := by
  simp only [positionWord, Word.ofBool_bit, Word.rn, Word.rd, Word.field_append]
  exact w.field_all

namespace Bitfield

def opCode : BitfieldOp → BitVec 2
  | .sbfm => 0
  | .bfm => 1
  | .ubfm => 2

theorem opCode_of_op? : ∀ b : BitVec 2, ∀ op ∈ op? b, opCode op = b := by decide

def word (e : Bitfield) : Word :=
  positionWord e.wide (opCode e.op) 0b100110#6 e.wide e.immr e.imms e.rn e.rd

def Fits (e : Bitfield) : Prop := e.immr.toNat < e.width ∧ e.imms.toNat < e.width

theorem fits_of_ofWord {e : Bitfield} (he : ofWord w = .ok e) : e.Fits := by
  simp only [ofWord] at he
  split at he
  case h_1 => simp at he
  case h_2 op hop =>
    split at he
    · simp at he
    · split at he
      · simp at he
      · next hpos =>
        cases he
        have hr := (w.field 16 6).isLt
        have hs := (w.field 10 6).isLt
        cases hwide : w.bit 31 <;> simp [hwide] at hpos <;>
          simp [Fits, width, Register.width] <;> omega

theorem word_of_ofWord {e : Bitfield} (h : w.field 23 6 = 0b100110#6) (he : ofWord w = .ok e) :
    e.word = w ∧ e.Fits := by
  refine ⟨?_, fits_of_ofWord he⟩
  simp only [ofWord] at he
  split at he
  case h_1 => simp at he
  case h_2 op hop =>
    split at he
    · simp at he
    · next hn =>
      have hn : w.bit 22 = w.bit 31 := by simpa using hn
      split at he
      · simp at he
      · cases he
        have hw := positionWord_fields w
        rwa [hn, h, ← opCode_of_op? _ _ hop] at hw

def ofNumbers (rd : Register) (op : BitfieldOp) (immr imms : Nat) (rn : RegisterField) : Bitfield :=
  ⟨rd.isWide, op, .ofNat 6 immr, .ofNat 6 imms, rn, rd.field⟩

theorem ofNumbers_result {e : Bitfield} {immr imms : Nat} (hr : immr = e.immr.toNat)
    (hs : imms = e.imms.toNat) : ofNumbers e.result e.op immr imms e.rn = e := by
  obtain ⟨wide, op, immr', imms', rn, rd⟩ := e
  simp [ofNumbers, result, hr, hs]

end Bitfield

namespace Extract

def word (e : Extract) : Word :=
  positionWord e.wide 0 0b100111#6 e.wide (0#1 ++ e.rm) e.lsb e.rn e.rd

theorem word_of_ofWord {e : Extract} (h : w.field 23 6 = 0b100111#6) (he : ofWord w = .ok e) :
    e.word = w := by
  simp only [ofWord] at he
  split at he
  · simp at he
  · next hop =>
    split at he
    · simp at he
    · next hn =>
      cases he
      simp only [Bool.or_eq_true, not_or, bne_iff_ne, ne_eq, Decidable.not_not, Bool.not_eq_true] at hop hn
      have hzero : w.field 21 1 = 0#1 := Word.field_of_bit hop.2
      have hupper : w.field 16 6 = 0#1 ++ w.rm := by
        rw [← hzero, Word.rm, Word.field_append w (by decide)]
      have hw := positionWord_fields w
      rwa [hn.1, h, hop.1, hupper] at hw

end Extract

/-- What a mnemonic tells of an instruction with an immediate. -/
inductive ImmediateName where
  | address (page : Bool)
  | sum (subtract setFlags : Bool)
  | compare (subtract : Bool)
  | move
  | moveWide (op : MoveOp)
  | shiftRight (op : BitfieldOp)
  | shiftLeft
  | insert (op : BitfieldOp)
  | extract (op : BitfieldOp)
  | clear
  /-- An extension of the bits up to the position `top`. -/
  | extend (op : BitfieldOp) (top : Nat)
  | rotate
  | join
  deriving DecidableEq

namespace ImmediateName

def ofText? (m : String) : Option ImmediateName :=
  [("adr", address false), ("adrp", address true), ("add", sum false false), ("adds", sum false true),
   ("sub", sum true false), ("subs", sum true true), ("cmn", compare false), ("cmp", compare true),
   ("mov", move), ("movn", moveWide .movn), ("movz", moveWide .movz), ("movk", moveWide .movk),
   ("asr", shiftRight .sbfm), ("lsr", shiftRight .ubfm), ("lsl", shiftLeft), ("sbfiz", insert .sbfm),
   ("bfi", insert .bfm), ("ubfiz", insert .ubfm), ("sbfx", extract .sbfm), ("bfxil", extract .bfm),
   ("ubfx", extract .ubfm), ("bfc", clear), ("sxtb", extend .sbfm 7), ("sxth", extend .sbfm 15),
   ("sxtw", extend .sbfm 31), ("uxtb", extend .ubfm 7), ("uxth", extend .ubfm 15), ("ror", rotate),
   ("extr", join)].lookup m

/-- The word of the operands under a name. A field that was counted from the top of the register is
counted from its bottom again. -/
def word? : ImmediateName → List Operand → Option Word
  | address page => fun
    | [.register rd, .pcRelative offset target] =>
      some (AddressGeneration.word ⟨page, AddressGeneration.distanceOf page offset target, rd.field⟩)
    | _ => none
  | sum subtract setFlags => fun
    | [.register rd, .register rn, imm] =>
      (AddSubImmediate.shown? imm).map fun (shifted, imm) =>
        AddSubImmediate.word ⟨⟨rd.isWide, subtract, setFlags⟩, shifted, imm, rn.field, rd.field⟩
    | _ => none
  | compare subtract => fun
    | [.register rn, imm] =>
      (AddSubImmediate.shown? imm).map fun (shifted, imm) =>
        AddSubImmediate.word ⟨⟨rn.isWide, subtract, true⟩, shifted, imm, rn.field, 31⟩
    | _ => none
  | move => fun
    | [.register rd, .register rn] =>
      some (AddSubImmediate.word ⟨⟨rd.isWide, false, false⟩, false, 0, rn.field, rd.field⟩)
    | [.register rd, .immediate imm] => some (MoveWide.ofImmediate rd.isWide imm rd.field).word
    | _ => none
  | moveWide op => fun
    | [.register rd, .shiftedImmediate value shift] =>
      some (MoveWide.word ⟨rd.isWide, op, .ofNat 2 (shift / 16), .ofNat 16 value, rd.field⟩)
    | _ => none
  | shiftRight op => fun
    | [.register rd, .register rn, .count n] =>
      some (Bitfield.ofNumbers rd op n (Register.width rd.isWide - 1) rn.field).word
    | _ => none
  | shiftLeft => fun
    | [.register rd, .register rn, .count n] =>
      let top := Register.width rd.isWide - n
      some (Bitfield.ofNumbers rd .ubfm top (top - 1) rn.field).word
    | _ => none
  | insert op => fun
    | [.register rd, .register rn, .count lsb, .count width] =>
      some (Bitfield.ofNumbers rd op (Register.width rd.isWide - lsb) (width - 1) rn.field).word
    | _ => none
  | clear => fun
    | [.register rd, .count lsb, .count width] =>
      some (Bitfield.ofNumbers rd .bfm (Register.width rd.isWide - lsb) (width - 1) 31).word
    | _ => none
  | extract op => fun
    | [.register rd, .register rn, .count lsb, .count width] =>
      some (Bitfield.ofNumbers rd op lsb (lsb + width - 1) rn.field).word
    | _ => none
  | extend op top => fun
    | [.register rd, .register rn] =>
      some (Bitfield.ofNumbers rd op 0 top rn.field).word
    | _ => none
  | rotate => fun
    | [.register rd, .register rn, .count lsb] =>
      some (Extract.word ⟨rd.isWide, .ofNat 6 lsb, rn.field, rn.field, rd.field⟩)
    | _ => none
  | join => fun
    | [.register rd, .register rn, .register rm, .count lsb] =>
      some (Extract.word ⟨rd.isWide, .ofNat 6 lsb, rm.field, rn.field, rd.field⟩)
    | _ => none

end ImmediateName

def immediateWord? (m : String) (operands : List Operand) : Option Word :=
  (ImmediateName.ofText? m).bind (·.word? operands)

theorem immediateWord?_spelled (name : ImmediateName) {m : String} {operation : Operation}
    {operands : List Operand} (hname : ImmediateName.ofText? m = some name)
    (hw : name.word? operands = some w) :
    (spelled m operation operands).mnemonic.bind
      (immediateWord? · (spelled m operation operands).operands) = some w := by
  simp only [spelled, Option.bind_some, immediateWord?, hname, hw]

theorem AddressGeneration.assemblesTo_form (e : AddressGeneration) :
    e.form.AssemblesTo immediateWord? e.word := by
  intro a
  obtain ⟨offset, target, hoperands, hdistance⟩ := e.operandsAt_form a
  have hname : ImmediateName.ofText? (if e.page then "adrp" else "adr") = some (.address e.page) := by
    cases e.page <;> rfl
  rw [hoperands]
  simp only [form, spelled, Option.bind_some, immediateWord?, hname, ImmediateName.word?, hdistance,
    RegisterField.field_gp]

theorem AddSubImmediate.assemblesTo_form (e : AddSubImmediate) :
    e.form.AssemblesTo immediateWord? e.word := by
  intro a
  rw [Form.operandsAt_of_none rfl]
  simp only [form, spelling]
  split
  · next hcompare =>
    have hname : ImmediateName.ofText? e.compareName = some (.compare e.subtract) := by
      unfold Arithmetic.compareName
      cases e.subtract <;> rfl
    have he : (⟨⟨e.wide, e.subtract, true⟩, e.shifted, e.imm, e.rn, 31⟩ : AddSubImmediate) = e := by
      obtain ⟨⟨wide, subtract, setFlags⟩, shifted, imm, rn, rd⟩ := e
      simp_all
    refine immediateWord?_spelled _ hname ?_
    simp only [ImmediateName.word?, shown?_immediate, Option.map_some, source,
      RegisterField.isWide_gpOrSp, RegisterField.field_gpOrSp, he]
  split
  · next hmove =>
    have he : (⟨⟨e.wide, false, false⟩, false, 0, e.rn, e.rd⟩ : AddSubImmediate) = e := by
      obtain ⟨⟨wide, subtract, setFlags⟩, shifted, imm, rn, rd⟩ := e
      simp_all [isMove]
    refine immediateWord?_spelled .move rfl ?_
    simp only [ImmediateName.word?, isWide_result, field_result, source, RegisterField.field_gpOrSp, he]
  · have hname : ImmediateName.ofText? e.name = some (.sum e.subtract e.setFlags) := by
      unfold Arithmetic.name
      cases e.subtract <;> cases e.setFlags <;> rfl
    refine immediateWord?_spelled _ hname ?_
    simp only [ImmediateName.word?, shown?_immediate, Option.map_some, isWide_result, field_result, source,
      RegisterField.field_gpOrSp]

theorem MoveWide.assemblesTo_form {e : MoveWide} (hfits : e.Fits) :
    e.form.AssemblesTo immediateWord? e.word := by
  intro a
  rw [Form.operandsAt_of_none rfl]
  simp only [form, spelling]
  split
  · next hmove =>
    refine immediateWord?_spelled .move rfl ?_
    cases hop : e.op with
    | movn =>
      simp only [if_true, Operand.ofInt, ImmediateName.word?, RegisterField.isWide_gp,
        RegisterField.field_gp, ofImmediate_inverted hfits hop hmove]
    | movz =>
      simp only [reduceCtorEq, if_false, Operand.ofNat, ImmediateName.word?, RegisterField.isWide_gp,
        RegisterField.field_gp, ofImmediate_placed hop hmove]
    | movk => simp [isMove, hop] at hmove
  · have hname : ImmediateName.ofText? e.op.name = some (.moveWide e.op) := by
      cases e.op <;> rfl
    have hquarter : BitVec.ofNat 2 (e.shift / 16) = e.quarter :=
      ofNat_of_toNat_eq (by simp only [shift]; omega)
    refine immediateWord?_spelled _ hname ?_
    simp only [ImmediateName.word?, RegisterField.isWide_gp, RegisterField.field_gp, hquarter,
      BitVec.ofNat_toNat, BitVec.setWidth_eq]

namespace Bitfield

theorem isWide_result (e : Bitfield) : e.result.isWide = e.wide := e.rd.isWide_gp e.wide

theorem word?_shiftRight {e : Bitfield} (htop : e.imms.toNat + 1 = e.width) :
    (ImmediateName.shiftRight e.op).word? [.register e.result, .register e.source, .count e.immr.toNat] =
      some e.word := by
  have he : ofNumbers e.result e.op e.immr.toNat (Register.width e.result.isWide - 1) e.rn = e := by
    refine ofNumbers_result rfl ?_
    rw [isWide_result, ← width, ← htop, Nat.add_sub_cancel]
  simp only [ImmediateName.word?, source, RegisterField.field_gp, he]

/-- The text of an insertion, which counts its position from the top of the register. -/
theorem word?_insert {e : Bitfield} (hfits : e.Fits) :
    (ImmediateName.insert e.op).word? (.register e.result :: .register e.source :: e.inserted) =
      some e.word := by
  have he : ofNumbers e.result e.op (Register.width e.result.isWide - (e.width - e.immr.toNat))
      (e.imms.toNat + 1 - 1) e.rn = e := by
    have hlt := hfits.1
    refine ofNumbers_result ?_ (Nat.add_sub_cancel _ _)
    rw [isWide_result, ← width]
    omega
  simp only [inserted, ImmediateName.word?, source, RegisterField.field_gp, he]

theorem word?_extract {e : Bitfield} (hle : e.immr.toNat ≤ e.imms.toNat) :
    (ImmediateName.extract e.op).word? (.register e.result :: .register e.source :: e.extracted) =
      some e.word := by
  have he : ofNumbers e.result e.op e.immr.toNat
      (e.immr.toNat + (e.imms.toNat - e.immr.toNat + 1) - 1) e.rn = e :=
    ofNumbers_result rfl (by omega)
  simp only [extracted, ImmediateName.word?, source, RegisterField.field_gp, he]

/-- The text of an extension, whatever width its source is written with. -/
theorem word?_extend {e : Bitfield} {top : Nat} (hlow : e.immr = 0) (htop : e.imms.toNat = top)
    (wide : Bool) :
    (ImmediateName.extend e.op top).word? [.register e.result, .register (e.rn.gp wide)] =
      some e.word := by
  have he : ofNumbers e.result e.op 0 top e.rn = e := ofNumbers_result (by rw [hlow]; rfl) htop.symm
  simp only [ImmediateName.word?, RegisterField.field_gp, he]

theorem word?_shiftLeft {e : Bitfield} (hop : e.op = .ubfm) (hfits : e.Fits)
    (hnext : e.imms.toNat + 1 = e.immr.toNat) :
    ImmediateName.shiftLeft.word? [.register e.result, .register e.source,
      .count (e.width - 1 - e.imms.toNat)] = some e.word := by
  have hlt := hfits.1
  have hwidth : Register.width e.result.isWide = e.width := by rw [isWide_result, width]
  have he : ofNumbers e.result .ubfm (e.width - (e.width - 1 - e.imms.toNat))
      (e.width - (e.width - 1 - e.imms.toNat) - 1) e.rn = e := by
    rw [← hop]
    exact ofNumbers_result (by omega) (by omega)
  simp only [ImmediateName.word?, source, RegisterField.field_gp, hwidth, he]

theorem word?_clear {e : Bitfield} (hop : e.op = .bfm) (hfits : e.Fits) (hrn : e.rn = 31) :
    ImmediateName.clear.word? (.register e.result :: e.inserted) = some e.word := by
  have hw := word?_insert hfits
  simp only [hop, inserted, ImmediateName.word?, source, RegisterField.field_gp, hrn] at hw ⊢
  exact hw

theorem word_of_signedSpelling {e : Bitfield} (hop : e.op = .sbfm) (hfits : e.Fits) :
    e.signedSpelling.mnemonic.bind (immediateWord? · e.signedSpelling.operands) = some e.word := by
  simp only [signedSpelling]
  split
  · next htop => exact immediateWord?_spelled _ (by rw [hop]; rfl) (word?_shiftRight htop)
  split
  · exact immediateWord?_spelled _ (by rw [hop]; rfl) (word?_insert hfits)
  next hle =>
  split
  · next h => exact immediateWord?_spelled _ (by rw [hop]; rfl) (word?_extend h.1 (by rw [h.2]; rfl) _)
  split
  · next h => exact immediateWord?_spelled _ (by rw [hop]; rfl) (word?_extend h.1 (by rw [h.2]; rfl) _)
  split
  · next h => exact immediateWord?_spelled _ (by rw [hop]; rfl) (word?_extend h.1 (by rw [h.2]; rfl) _)
  · exact immediateWord?_spelled _ (by rw [hop]; rfl) (word?_extract (BitVec.not_lt.mp hle))

theorem word_of_mergeSpelling {e : Bitfield} (hop : e.op = .bfm) (hfits : e.Fits) :
    e.mergeSpelling.mnemonic.bind (immediateWord? · e.mergeSpelling.operands) = some e.word := by
  simp only [mergeSpelling]
  split
  · split
    · next hrn => exact immediateWord?_spelled _ rfl (word?_clear hop hfits hrn)
    · exact immediateWord?_spelled _ (by rw [hop]; rfl) (word?_insert hfits)
  · next hle => exact immediateWord?_spelled _ (by rw [hop]; rfl) (word?_extract (BitVec.not_lt.mp hle))

theorem word_of_unsignedSpelling {e : Bitfield} (hop : e.op = .ubfm) (hfits : e.Fits) :
    e.unsignedSpelling.mnemonic.bind (immediateWord? · e.unsignedSpelling.operands) =
      some e.word := by
  simp only [unsignedSpelling]
  split
  · next h => exact immediateWord?_spelled _ rfl (word?_shiftLeft hop hfits h.2)
  split
  · next htop => exact immediateWord?_spelled _ (by rw [hop]; rfl) (word?_shiftRight htop)
  split
  · exact immediateWord?_spelled _ (by rw [hop]; rfl) (word?_insert hfits)
  next hle =>
  split
  · next h =>
    exact immediateWord?_spelled _ (by rw [hop]; rfl) (word?_extend h.2.1 (by rw [h.2.2]; rfl) _)
  split
  · next h =>
    exact immediateWord?_spelled _ (by rw [hop]; rfl) (word?_extend h.2.1 (by rw [h.2.2]; rfl) _)
  · exact immediateWord?_spelled _ (by rw [hop]; rfl) (word?_extract (BitVec.not_lt.mp hle))

theorem assemblesTo_form {e : Bitfield} (hfits : e.Fits) :
    e.form.AssemblesTo immediateWord? e.word := by
  intro a
  rw [Form.operandsAt_of_none rfl]
  simp only [form, spelling]
  cases hop : e.op with
  | sbfm => exact word_of_signedSpelling hop hfits
  | bfm => exact word_of_mergeSpelling hop hfits
  | ubfm => exact word_of_unsignedSpelling hop hfits

end Bitfield

theorem Extract.assemblesTo_form (e : Extract) : e.form.AssemblesTo immediateWord? e.word := by
  intro a
  rw [Form.operandsAt_of_none rfl]
  simp only [form, spelling]
  split
  · next hrn =>
    have he : (⟨e.wide, e.lsb, e.rn, e.rn, e.rd⟩ : Extract) = e := by
      cases e
      simp_all
    refine immediateWord?_spelled .rotate rfl ?_
    simp only [ImmediateName.word?, RegisterField.isWide_gp, RegisterField.field_gp, BitVec.ofNat_toNat,
      BitVec.setWidth_eq, he]
  · refine immediateWord?_spelled .join rfl ?_
    simp only [ImmediateName.word?, RegisterField.isWide_gp, RegisterField.field_gp, BitVec.ofNat_toNat,
      BitVec.setWidth_eq]

/-- The text of a decoded instruction with an immediate is assembled to its word, unless it is a logical
instruction. -/
theorem ImmediateEncoding.assemblesTo (h : ImmediateEncoding w f)
    (hc : EncodingClass.ofWord w = .dataImmediate) (hl : w.field 23 3 ≠ 4) :
    f.AssemblesTo immediateWord? w := by
  have hclass := EncodingClass.field_of_dataImmediate hc
  rw [Word.toNat_field] at hclass
  have hgroup {n : Nat} (hg : (w.field 23 3).toNat = n) : w.field 23 6 = BitVec.ofNat 6 (32 + n) := by
    rw [Word.toNat_field] at hg
    exact w.field_eq_ofNat (by omega)
  cases h with
  | addressGeneration hg =>
    rw [Word.toNat_field] at hg
    have hw : (AddressGeneration.ofWord w).word = w :=
      AddressGeneration.word_ofWord (w.field_eq_ofNat (by omega))
    simpa only [hw] using (AddressGeneration.ofWord w).assemblesTo_form
  | addSub hg =>
    have hw : (AddSubImmediate.ofWord w).word = w := AddSubImmediate.word_ofWord (hgroup hg)
    simpa only [hw] using (AddSubImmediate.ofWord w).assemblesTo_form
  | logical hg => exact absurd (BitVec.eq_of_toNat_eq hg) hl
  | moveWide hg he =>
    obtain ⟨hw, hfits⟩ := MoveWide.word_of_ofWord (hgroup hg) he
    simpa only [hw] using MoveWide.assemblesTo_form hfits
  | bitfield hg he =>
    obtain ⟨hw, hfits⟩ := Bitfield.word_of_ofWord (hgroup hg) he
    simpa only [hw] using Bitfield.assemblesTo_form hfits
  | @extract e hg he =>
    have hw : e.word = w := Extract.word_of_ofWord (hgroup hg) he
    simpa only [hw] using e.assemblesTo_form

theorem immediateWord?_of_decode {a : Address} {i : Instruction}
    (hc : EncodingClass.ofWord w = .dataImmediate) (hl : w.field 23 3 ≠ 4) (hd : decode w a = .ok i) :
    i.mnemonic.bind (immediateWord? · i.operands) = some w := by
  obtain ⟨f, -, hf, rfl⟩ := decode_eq_ok hd
  rw [hc] at hf
  cases hf with
  | immediate h => exact h.assemblesTo hc hl a

end A64.Encoding
