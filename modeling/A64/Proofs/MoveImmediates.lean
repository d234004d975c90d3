import A64.Proofs.Assembler.Immediate
import A64.Proofs.Bitmasks

/-! The values that moves of an immediate show. Three encodings are written as `mov`: a half word in its
place, the complement of one, and a mask that is joined with the zero register. Main statement: the operand
of a `mov` is the number that the instruction writes, and the names that stay tell the half word and its
place. -/

namespace A64

/-- The bits of a value as the fields tell them. The highest set bit of `n` before the complement of `imms`
counts the bits of an element; its lowest `imms + 1` bits are ones, and it is rotated right by `immr`. -/
def Bitmask.Denotes (m : Bitmask) {width : Nat} (v : BitVec width) : Prop :=
  ∃ k, 2 ^ k ≤ (m.n ++ ~~~m.imms).toNat ∧ (m.n ++ ~~~m.imms).toNat < 2 ^ (k + 1) ∧
    ∀ i < width, v.getLsbD i = decide ((i + m.immr.toNat) % 2 ^ k < m.imms.toNat % 2 ^ k + 1)

theorem Bitmask.denotes_of_value? {m : Bitmask} {wide : Bool} {v : BitVec 64}
    (h : m.value? wide = some v) : m.Denotes (v.setWidth (Register.width wide)) := by
  obtain ⟨k, hk, -, hv⟩ := value?_eq_some.mp h
  obtain ⟨-, -, hle, hlt⟩ := sizeLog?_eq_some.mp hk
  rw [← toNat_sizeField] at hle hlt
  refine ⟨k, hle, hlt, fun i hi => ?_⟩
  have hi' := Nat.lt_of_lt_of_le hi (width_le wide)
  rw [BitVec.getLsbD_setWidth, hv i hi', decide_eq_true hi, Bool.true_and, Bool.true_and, inRun]

theorem Bitmask.toNat_setWidth_of_value? {m : Bitmask} {wide : Bool} {v : BitVec 64}
    (h : m.value? wide = some v) : (v.setWidth (Register.width wide)).toNat = v.toNat := by
  conv_rhs => rw [← setWidth_of_value? h]
  exact (BitVec.toNat_setWidth_of_le (width_le wide)).symm

namespace Immediate

/-- The immediate is the number of a value, taken as signed or not as the immediate is marked. -/
def Shows (i : Immediate) {width : Nat} (v : BitVec width) : Prop :=
  i.value % 2 ^ width = v.toNat ∧
    if i.signed then -2 ^ (width - 1) ≤ i.value ∧ i.value < 2 ^ (width - 1)
    else 0 ≤ i.value ∧ i.value < 2 ^ width

variable {width : Nat}

theorem shows_toNat (v : BitVec width) : Shows ⟨v.toNat, false⟩ v := by
  have hlt : (v.toNat : Int) < 2 ^ width := by exact_mod_cast v.isLt
  exact ⟨Int.emod_eq_of_lt (Int.natCast_nonneg _) hlt, Int.natCast_nonneg _, hlt⟩

theorem shows_toInt (v : BitVec width) : Shows ⟨v.toInt, true⟩ v := by
  refine ⟨?_, BitVec.le_toInt v, BitVec.toInt_lt⟩
  have hlt : (v.toNat : Int) < 2 ^ width := by exact_mod_cast v.isLt
  have hmod := Int.bmod_emod (x := v.toNat) (m := 2 ^ width)
  rw [← BitVec.toInt_eq_toNat_bmod, Int.natCast_pow] at hmod
  exact hmod.trans (Int.emod_eq_of_lt (Int.natCast_nonneg _) hlt)

end Immediate

namespace Encoding

/-- The value that a word moves to a register, whatever the registers hold: a half word in its place, its
complement, or a mask that is joined with the zero register. -/
inductive Moves (w : Word) : Register → BitVec (Register.width (w.bit 31)) → Prop where
  | half (hg : w.field 23 3 = 5) (ho : w.field 29 2 = 2) :
      Moves w (w.rd.gp (w.bit 31)) ((w.field 5 16).setWidth _ <<< (16 * (w.field 21 2).toNat))
  | complement (hg : w.field 23 3 = 5) (ho : w.field 29 2 = 0) :
      Moves w (w.rd.gp (w.bit 31)) (~~~((w.field 5 16).setWidth _ <<< (16 * (w.field 21 2).toNat)))
  | mask {v : BitVec (Register.width (w.bit 31))} (hg : w.field 23 3 = 4) (ho : w.field 29 2 = 1)
      (hn : w.rn = 31) (hv : Bitmask.Denotes ⟨w.field 22 1, w.field 10 6, w.field 16 6⟩ v) :
      Moves w (w.rd.gpOrSp (w.bit 31)) v

namespace MoveWide

variable {w : Word} {e : MoveWide}

theorem exists_op_of_ofWord (he : ofWord w = .ok e) :
    ∃ op, w.field 29 2 = opCode op ∧ e = ⟨w.bit 31, op, w.field 21 2, w.field 5 16, w.rd⟩ := by
  unfold ofWord at he
  split at he
  · simp at he
  · next op hop =>
    split at he
    · simp at he
    · cases he
      exact ⟨op, (opCode_of_op? _ _ hop).symm, rfl⟩

def half (e : MoveWide) : BitVec (Register.width e.wide) := e.imm.setWidth _ <<< e.shift

theorem ofNat_placed (e : MoveWide) : BitVec.ofNat (Register.width e.wide) e.placed = e.half := by
  have hwidth : 16 ≤ Register.width e.wide := by cases e.wide <;> decide
  apply BitVec.eq_of_toNat_eq
  rw [half, placed, BitVec.toNat_ofNat, BitVec.toNat_shiftLeft, BitVec.toNat_setWidth_of_le hwidth]

theorem placed_eq_half (h : e.Fits) : e.placed = e.half.toNat := by
  rw [← ofNat_placed, BitVec.toNat_ofNat, Nat.mod_eq_of_lt (placed_lt h)]

theorem isMove_eq_false_iff (e : MoveWide) :
    e.isMove = false ↔ e.op = .movk ∨ (e.imm = 0 ∧ e.quarter ≠ 0) ∨
      (e.op = .movn ∧ e.wide = false ∧ e.imm = 0xFFFF) := by
  obtain ⟨wide, op, quarter, imm, rd⟩ := e
  cases op with
  | movk => simp [isMove]
  | movz => simp [isMove]
  | movn => by_cases himm : imm = 0#16 <;> by_cases hq : quarter = 0#2 <;> simp [isMove, himm, hq]

theorem mnemonic_form (e : MoveWide) :
    e.form.mnemonic = some (if e.isMove then "mov" else e.op.name) := by
  simp only [form, spelling]
  split <;> rfl

theorem name_ne_mov (op : MoveOp) : op.name ≠ "mov" := by cases op <;> decide

theorem name_inj {op op' : MoveOp} (h : op.name = op'.name) : op = op' := by
  cases op <;> cases op' <;> simp [MoveOp.name] at h ⊢

theorem mnemonic_eq_mov_iff : e.form.mnemonic = some "mov" ↔ e.isMove = true := by
  rw [mnemonic_form]
  cases e.isMove <;> simp [name_ne_mov]

theorem mnemonic_eq_name_iff {op : MoveOp} :
    e.form.mnemonic = some op.name ↔ e.isMove = false ∧ e.op = op := by
  rw [mnemonic_form]
  cases e.isMove with
  | false => simpa using ⟨name_inj, congrArg MoveOp.name⟩
  | true => simpa using (name_ne_mov op).symm

theorem exists_shows (hfits : e.Fits) (hmove : e.isMove = true) :
    ∃ imm : Immediate, e.form.operands = [.register (e.rd.gp e.wide), .immediate imm] ∧
      imm.Shows (if e.op = .movn then ~~~e.half else e.half) := by
  simp only [form, spelling, if_pos hmove, spelled]
  by_cases hop : e.op = .movn
  · simp only [if_pos hop, Operand.ofInt, inverted, ofNat_placed]
    exact ⟨_, rfl, Immediate.shows_toInt _⟩
  · simp only [if_neg hop, Operand.ofNat, placed_eq_half hfits]
    exact ⟨_, rfl, Immediate.shows_toNat _⟩

theorem operands_of_explicit (h : e.isMove = false) :
    e.form.operands = [.register (e.rd.gp e.wide), .shiftedImmediate e.imm.toNat e.shift] := by
  simp [form, spelling, h, spelled]

end MoveWide

namespace LogicalImmediate

variable {w : Word} {e : LogicalImmediate}

theorem exists_mask_of_ofWord (he : ofWord w = .ok e) :
    ∃ mask, (bitmask w).value? (w.bit 31) = some mask ∧
      e = ⟨w.bit 31, .ofCode (w.field 29 2), mask, w.rn, w.rd⟩ := by
  unfold ofWord at he
  split at he
  · simp at he
  · next mask hmask =>
    cases he
    exact ⟨mask, hmask, rfl⟩

theorem mnemonic_eq_mov_iff : e.form.mnemonic = some "mov" ↔ e.op = .orr ∧ e.rn = 31 := by
  simp only [form, spelling]
  split
  · next h => simp [spelled, h.1]
  split
  · next h => simpa [spelled] using h
  · next h => cases hop : e.op <;> simp_all [spelled, LogicalOp.name]

theorem mnemonic_ne_name (op : MoveOp) : e.form.mnemonic ≠ some op.name := by
  simp only [form, spelling]
  split
  · cases op <;> simp [spelled, MoveOp.name]
  split
  · simpa [spelled] using (MoveWide.name_ne_mov op).symm
  · cases op <;> cases e.op <;> simp [spelled, MoveOp.name, LogicalOp.name]

theorem operands_of_mov (hop : e.op = .orr) (hn : e.rn = 31) :
    e.form.operands = [.register (e.rd.gpOrSp e.wide), .immediate ⟨e.mask.toNat, false⟩] := by
  simp [form, spelling, hop, hn, spelled, result, LogicalOp.setsFlags, Operand.ofNat]

end LogicalImmediate

theorem LogicalOp.ofCode_eq_orr : ∀ b : BitVec 2, ofCode b = .orr → b = 1 := by decide

theorem MoveWide.shows_move {w : Word} {e : MoveWide} (hg : w.field 23 3 = 5) (he : ofWord w = .ok e)
    (hmove : e.isMove = true) :
    ∃ r imm v, e.form.operands = [.register r, .immediate imm] ∧ Moves w r v ∧ imm.Shows v := by
  obtain ⟨imm, hops, hshows⟩ := exists_shows (fits_of_ofWord he) hmove
  obtain ⟨op, hop, rfl⟩ := exists_op_of_ofWord he
  refine ⟨_, imm, _, hops, ?_, hshows⟩
  cases op with
  | movn => exact .complement hg hop
  | movz => exact .half hg hop
  | movk => simp [isMove] at hmove

theorem LogicalImmediate.shows_move {w : Word} {e : LogicalImmediate} (hg : w.field 23 3 = 4)
    (he : ofWord w = .ok e) (hm : e.form.mnemonic = some "mov") :
    ∃ r imm v, e.form.operands = [.register r, .immediate imm] ∧ Moves w r v ∧ imm.Shows v := by
  obtain ⟨hop, hn⟩ := mnemonic_eq_mov_iff.mp hm
  obtain ⟨mask, hmask, rfl⟩ := exists_mask_of_ofWord he
  refine ⟨_, _, _, operands_of_mov hop hn,
    .mask hg (LogicalOp.ofCode_eq_orr _ hop) hn (Bitmask.denotes_of_value? hmask), ?_⟩
  rw [← Bitmask.toNat_setWidth_of_value? hmask]
  exact Immediate.shows_toNat _

theorem MoveWide.shows_half {w : Word} {e : MoveWide} (he : ofWord w = .ok e) {op : MoveOp}
    (hm : e.form.mnemonic = some op.name) :
    w.field 29 2 = opCode op ∧
      e.form.operands = [.register (w.rd.gp (w.bit 31)),
        .shiftedImmediate (w.field 5 16).toNat (16 * (w.field 21 2).toNat)] ∧
      16 * (w.field 21 2).toNat < Register.width (w.bit 31) := by
  obtain ⟨hname, rfl⟩ := mnemonic_eq_name_iff.mp hm
  have hshift := shift_le (fits_of_ofWord he)
  have hoperands := operands_of_explicit hname
  obtain ⟨op, hop, rfl⟩ := exists_op_of_ofWord he
  exact ⟨hop, hoperands, Nat.lt_of_lt_of_le (Nat.lt_add_of_pos_left (by decide)) hshift⟩

theorem MoveWide.mnemonic_eq_mov_or (e : MoveWide) :
    e.form.mnemonic = some "mov" ∨ e.form.mnemonic = some e.op.name :=
  (Bool.eq_false_or_eq_true e.isMove).imp mnemonic_eq_mov_iff.mpr
    fun hname => mnemonic_eq_name_iff.mpr ⟨hname, rfl⟩

theorem exists_move_of_decode {w : Word} {a : Address} {i : Instruction}
    (hc : EncodingClass.ofWord w = .dataImmediate) (hg : w.field 23 3 = 4 ∨ w.field 23 3 = 5)
    (hd : decode w a = .ok i) :
    (∃ e, w.field 23 3 = 4 ∧ LogicalImmediate.ofWord w = .ok e ∧ i = e.form.place w a) ∨
      ∃ e, w.field 23 3 = 5 ∧ MoveWide.ofWord w = .ok e ∧ i = e.form.place w a := by
  obtain ⟨f, -, hf, rfl⟩ := decode_eq_ok hd
  rw [hc] at hf
  cases hf with
  | immediate h => cases h <;> grind

/-- In the groups of move-wide and logical instructions, the operand of a `mov` is the number that the word
moves. The other names tell the half word and its place. A move-wide word is named `mov` unless it keeps the
bits around the half word, moves a shifted zero, or is a narrow complement that the other move writes too; and
only the move that keeps bits reads its result. -/
theorem move_shows_value {w : Word} {a : Address} {i : Instruction}
    (hc : EncodingClass.ofWord w = .dataImmediate) (hg : w.field 23 3 = 4 ∨ w.field 23 3 = 5)
    (hd : decode w a = .ok i) :
    let imm16 := w.field 5 16
    let shift := 16 * (w.field 21 2).toNat
    let rd := w.rd.gp (w.bit 31)
    (i.mnemonic = some "mov" →
      ∃ r imm v, i.operands = [.register r, .immediate imm] ∧ Moves w r v ∧ imm.Shows v) ∧
    (∀ op : MoveOp, i.mnemonic = some op.name →
      w.field 23 3 = 5 ∧ w.field 29 2 = MoveWide.opCode op ∧
        i.operands = [.register rd, .shiftedImmediate imm16.toNat shift] ∧
        shift < Register.width (w.bit 31)) ∧
    (w.field 23 3 = 5 → ∃ op, w.field 29 2 = MoveWide.opCode op ∧
      (i.mnemonic = some "mov" ∨ i.mnemonic = some op.name) ∧
      (i.mnemonic = some op.name ↔ op = .movk ∨ (imm16 = 0 ∧ w.field 21 2 ≠ 0) ∨
        (op = .movn ∧ w.bit 31 = false ∧ imm16 = 0xFFFF)) ∧
      i.writes = .of [rd] ∧ i.reads = if op = .movk then .of [rd] else .empty) := by
  intro imm16 shift rd
  obtain ⟨e, hg, he, rfl⟩ | ⟨e, hg, he, rfl⟩ := exists_move_of_decode hc hg hd
  · have hops : (e.form.place w a).operands = e.form.operands := List.append_nil _
    rw [hops]
    refine ⟨LogicalImmediate.shows_move hg he,
      fun op hm => absurd hm (LogicalImmediate.mnemonic_ne_name op), fun hwide => ?_⟩
    rw [hg] at hwide
    exact absurd hwide (by decide)
  · have hops : (e.form.place w a).operands = e.form.operands := List.append_nil _
    rw [hops]
    refine ⟨fun hm => MoveWide.shows_move hg he (MoveWide.mnemonic_eq_mov_iff.mp hm),
      fun op hm => ⟨hg, MoveWide.shows_half he hm⟩, fun _ => ?_⟩
    obtain ⟨op, hop, rfl⟩ := MoveWide.exists_op_of_ofWord he
    refine ⟨op, hop, MoveWide.mnemonic_eq_mov_or _, ?_, rfl, rfl⟩
    refine Iff.trans ?_ (MoveWide.isMove_eq_false_iff ⟨w.bit 31, op, w.field 21 2, imm16, w.rd⟩)
    exact MoveWide.mnemonic_eq_name_iff.trans (and_iff_left rfl)

/-- `mov w5, #-0x12340001` moves the complement of a half word to a narrow register. -/
theorem move_shows_value_narrow :
    ∃ i, decode 0x12A24685 0 = .ok i ∧ i.mnemonic = some "mov" ∧
      i.operands = [.register (.w 5), .immediate ⟨-0x12340001, true⟩] ∧
      ∃ v, Moves 0x12A24685 (.w 5) v ∧ v.toNat = 0xEDCBFFFF ∧ Immediate.Shows ⟨-0x12340001, true⟩ v := by
  refine ⟨_, rfl, rfl, rfl, ?_⟩
  obtain ⟨r, imm, v, hops, hmoves, hshows⟩ :=
    (move_shows_value (w := 0x12A24685) (a := 0) rfl (.inr rfl) rfl).1 rfl
  obtain ⟨hr, himm⟩ := List.cons.inj hops
  cases hr
  cases himm
  exact ⟨v, hmoves, Int.ofNat.inj hshows.1.symm, hshows⟩

end Encoding

end A64
