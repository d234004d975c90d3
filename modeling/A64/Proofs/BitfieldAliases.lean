import A64.Proofs.Assembler.Immediate
import A64.Proofs.RegisterFile

/-! What bitfield moves do, and what their aliases say. The base instructions rotate a register and cut
it by two masks; they are written as shifts, extensions, insertions and extractions. Main statement: the
alias of a word, read by its usual meaning, gives the value that the base instruction gives. -/

namespace A64

namespace Encoding

/-! The base instructions. -/

def lowOnes (width count : Nat) : BitVec width := (BitVec.allOnes count).setWidth width

/-- Where bits of the rotated source are used: `imms + 1` ones, rotated as the source is. -/
def rotatedMask (width immr imms : Nat) : BitVec width :=
  (lowOnes width (imms + 1)).rotateRight immr

/-- Where the result does not hold copies of the sign or old bits: as many bits as there are from `immr`
up to `imms` on the circle of the register. -/
def topMask (width immr imms : Nat) : BitVec width :=
  lowOnes width ((imms + width - immr) % width + 1)

/-- What the base instruction gives for a source and an old result. -/
def BitfieldOp.apply (op : BitfieldOp) {width : Nat} (immr imms : Nat) (src old : BitVec width) :
    BitVec width :=
  let wmask := rotatedMask width immr imms
  let tmask := topMask width immr imms
  let rotated := src.rotateRight immr
  match op with
  | .sbfm =>
    (BitVec.fill width (src.getLsbD imms) &&& ~~~tmask) ||| (rotated &&& wmask &&& tmask)
  | .bfm => (old &&& ~~~tmask) ||| (((old &&& ~~~wmask) ||| (rotated &&& wmask)) &&& tmask)
  | .ubfm => rotated &&& wmask &&& tmask

inductive Fill where
  | zeros
  | sign
  | old
  deriving DecidableEq, Repr

namespace Fill

/-- A bit above the field, from the highest bit of the field and the old bit. -/
def above (top oldBit : Bool) : Fill → Bool
  | zeros => false
  | sign => top
  | old => oldBit

def below (oldBit : Bool) : Fill → Bool
  | zeros | sign => false
  | old => oldBit

end Fill

def BitfieldOp.fill : BitfieldOp → Fill
  | sbfm => .sign
  | bfm => .old
  | ubfm => .zeros

section Bits

variable {width immr imms i : Nat}

/-- The bit of a register that a rotation by `r` brings to bit `i`. -/
def rotatedFrom (width r i : Nat) : Nat := if i + r < width then i + r else i + r - width

theorem getLsbD_rotateRight (x : BitVec width) (hr : immr < width) (hi : i < width) :
    (x.rotateRight immr).getLsbD i = x.getLsbD (rotatedFrom width immr i) := by
  rw [BitVec.getLsbD_rotateRight, Nat.mod_eq_of_lt hr, rotatedFrom]
  by_cases h : i + immr < width
  · have hlow : i < width - immr := by omega
    rw [if_pos h, decide_eq_true hlow, cond_true, Nat.add_comm]
  · have hlow : ¬i < width - immr := by omega
    rw [if_neg h, decide_eq_false hlow, cond_false, decide_eq_true hi, Bool.true_and,
      show i - (width - immr) = i + immr - width by omega]

theorem getLsbD_lowOnes {count : Nat} (hi : i < width) :
    (lowOnes width count).getLsbD i = decide (i < count) := by
  rw [lowOnes, BitVec.getLsbD_setWidth, BitVec.getLsbD_allOnes, decide_eq_true hi, Bool.true_and]

theorem getLsbD_rotatedMask (hr : immr < width) (hi : i < width) :
    (rotatedMask width immr imms).getLsbD i = decide (rotatedFrom width immr i ≤ imms) := by
  have hfrom : rotatedFrom width immr i < width := by
    unfold rotatedFrom
    split <;> omega
  rw [rotatedMask, getLsbD_rotateRight _ hr hi, getLsbD_lowOnes hfrom, decide_eq_decide]
  omega

theorem getLsbD_topMask (hi : i < width) :
    (topMask width immr imms).getLsbD i = decide (i ≤ (imms + width - immr) % width) := by
  rw [topMask, getLsbD_lowOnes hi, decide_eq_decide]
  omega

theorem getLsbD_apply (op : BitfieldOp) {src old : BitVec width} (hr : immr < width) (hi : i < width) :
    (op.apply immr imms src old).getLsbD i =
      if i ≤ (imms + width - immr) % width then
        if rotatedFrom width immr i ≤ imms then src.getLsbD (rotatedFrom width immr i)
        else op.fill.below (old.getLsbD i)
      else op.fill.above (src.getLsbD imms) (old.getLsbD i) := by
  by_cases htop : i ≤ (imms + width - immr) % width <;>
    by_cases hfrom : rotatedFrom width immr i ≤ imms <;> cases op <;>
    simp [-BitVec.getLsbD_eq_getElem, BitfieldOp.apply, BitfieldOp.fill, Fill.above, Fill.below,
      getLsbD_rotateRight src hr hi, getLsbD_rotatedMask hr hi, getLsbD_topMask hi, hi, htop, hfrom]

theorem getLsbD_apply_of_le (op : BitfieldOp) {src old : BitVec width} (h : immr ≤ imms)
    (hs : imms < width) (hi : i < width) :
    (op.apply immr imms src old).getLsbD i =
      if i < imms - immr + 1 then src.getLsbD (immr + i)
      else op.fill.above (src.getLsbD imms) (old.getLsbD i) := by
  have hmod : (imms + width - immr) % width = imms - immr := by
    rw [show imms + width - immr = imms - immr + width by omega, Nat.add_mod_right,
      Nat.mod_eq_of_lt (by omega)]
  rw [getLsbD_apply op (Nat.lt_of_le_of_lt h hs) hi, hmod, rotatedFrom]
  by_cases hin : i ≤ imms - immr
  · rw [if_pos hin, if_pos (show i + immr < width by omega), if_pos (show i + immr ≤ imms by omega),
      if_pos (Nat.lt_succ_of_le hin), Nat.add_comm]
  · rw [if_neg hin, if_neg (show ¬i < imms - immr + 1 by omega)]

theorem getLsbD_apply_of_lt (op : BitfieldOp) {src old : BitVec width} (h : imms < immr)
    (hr : immr < width) (hi : i < width) :
    (op.apply immr imms src old).getLsbD i =
      if i < width - immr then op.fill.below (old.getLsbD i)
      else if i - (width - immr) < imms + 1 then src.getLsbD (i - (width - immr))
      else op.fill.above (src.getLsbD imms) (old.getLsbD i) := by
  have hmod : (imms + width - immr) % width = imms + (width - immr) := by
    rw [show imms + width - immr = imms + (width - immr) by omega, Nat.mod_eq_of_lt (by omega)]
  rw [getLsbD_apply op hr hi, hmod, rotatedFrom]
  by_cases hlow : i < width - immr
  · rw [if_pos hlow, if_pos (show i ≤ imms + (width - immr) by omega),
      if_pos (show i + immr < width by omega), if_neg (show ¬i + immr ≤ imms by omega)]
  · rw [if_neg hlow, if_neg (show ¬i + immr < width by omega),
      show i + immr - width = i - (width - immr) by omega]
    by_cases hin : i - (width - immr) < imms + 1
    · rw [if_pos hin, if_pos (by omega), if_pos (by omega)]
    · rw [if_neg hin, if_neg (by omega)]

end Bits

/-! The aliases. -/

inductive FieldMove where
  | shiftLeft (amount : Nat)
  | shiftRight (amount : Nat)
  | shiftRightSigned (amount : Nat)
  /-- The lowest bits of the source to the place `lsb`. -/
  | insert (fill : Fill) (lsb count : Nat)
  /-- The field at the place `lsb` to the lowest bits. -/
  | extract (fill : Fill) (lsb count : Nat)
  | clear (lsb count : Nat)
  | extend (signed : Bool) (count : Nat)
  deriving DecidableEq, Repr

/-- The old value with a field at the place `lsb` instead of its own bits. -/
def overwrite {width count : Nat} (old : BitVec width) (lsb : Nat) (field : BitVec count) :
    BitVec width :=
  (old &&& ~~~(lowOnes width count <<< lsb)) ||| (field.setWidth width <<< lsb)

namespace FieldMove

def value {width : Nat} (src old : BitVec width) : FieldMove → BitVec width
  | shiftLeft amount => src <<< amount
  | shiftRight amount => src >>> amount
  | shiftRightSigned amount => src.sshiftRight amount
  | insert .zeros lsb count => (src.setWidth count).setWidth width <<< lsb
  | insert .sign lsb count => (src.setWidth count).signExtend width <<< lsb
  | insert .old lsb count => overwrite old lsb (src.setWidth count)
  | extract .zeros lsb count => (src.extractLsb' lsb count).setWidth width
  | extract .sign lsb count => (src.extractLsb' lsb count).signExtend width
  | extract .old lsb count => overwrite old 0 (src.extractLsb' lsb count)
  | clear lsb count => overwrite old lsb (0 : BitVec count)
  | extend false count => (src.setWidth count).setWidth width
  | extend true count => (src.setWidth count).signExtend width

/-- A shift is by less than the width; a field has bits, and all of them inside the register. -/
def IsWellFormed (width : Nat) : FieldMove → Prop
  | shiftLeft amount | shiftRight amount | shiftRightSigned amount => amount < width
  | insert _ lsb count | extract _ lsb count | clear lsb count => 1 ≤ count ∧ lsb + count ≤ width
  | extend _ count => 1 ≤ count ∧ count ≤ width

end FieldMove

section Values

variable {width immr imms : Nat} {src old : BitVec width}

theorem getLsbD_overwrite {count lsb i : Nat} (field : BitVec count) (hi : i < width) :
    (overwrite old lsb field).getLsbD i =
      if i < lsb then old.getLsbD i
      else if i - lsb < count then field.getLsbD (i - lsb)
      else old.getLsbD i := by
  have hsub : i - lsb < width := by omega
  simp only [overwrite, BitVec.getLsbD_or, BitVec.getLsbD_and, BitVec.getLsbD_not,
    BitVec.getLsbD_shiftLeft, BitVec.getLsbD_setWidth, getLsbD_lowOnes hsub, decide_eq_true hi,
    decide_eq_true hsub, Bool.true_and]
  by_cases hlow : i < lsb
  · simp [hlow]
  · by_cases hin : i - lsb < count
    · simp [hlow, hin]
    · simp [hlow, hin, BitVec.getLsbD_of_ge field _ (Nat.le_of_not_lt hin)]

theorem getLsbD_extract (fill : Fill) {lsb count i : Nat} (hcount : 1 ≤ count) (hi : i < width) :
    ((FieldMove.extract fill lsb count).value src old).getLsbD i =
      if i < count then src.getLsbD (lsb + i)
      else fill.above (src.getLsbD (lsb + (count - 1))) (old.getLsbD i) := by
  have hlast : count - 1 < count := by omega
  by_cases hin : i < count <;> cases fill <;>
    simp [-BitVec.getLsbD_eq_getElem, FieldMove.value, Fill.above, getLsbD_overwrite,
      BitVec.getLsbD_signExtend, BitVec.msb_eq_getLsbD_last, hi, hin, hlast]

theorem getLsbD_insert (fill : Fill) {lsb count i : Nat} (hcount : 1 ≤ count) (hi : i < width) :
    ((FieldMove.insert fill lsb count).value src old).getLsbD i =
      if i < lsb then fill.below (old.getLsbD i)
      else if i - lsb < count then src.getLsbD (i - lsb)
      else fill.above (src.getLsbD (count - 1)) (old.getLsbD i) := by
  have hlast : count - 1 < count := by omega
  have hsub : i - lsb < width := by omega
  by_cases hlow : i < lsb
  · cases fill <;>
      simp [-BitVec.getLsbD_eq_getElem, FieldMove.value, Fill.below, getLsbD_overwrite, hi, hlow]
  · by_cases hin : i - lsb < count <;> cases fill <;>
      simp [-BitVec.getLsbD_eq_getElem, FieldMove.value, Fill.above, getLsbD_overwrite,
        BitVec.getLsbD_signExtend, BitVec.msb_eq_getLsbD_last, hi, hlow, hin, hsub, hlast]

/-- A base instruction whose field does not wrap extracts it. -/
theorem apply_eq_extract (op : BitfieldOp) (h : immr ≤ imms) (hs : imms < width) :
    op.apply immr imms src old =
      (FieldMove.extract op.fill immr (imms - immr + 1)).value src old := by
  apply BitVec.eq_of_getLsbD_eq
  intro i hi
  rw [getLsbD_apply_of_le op h hs hi, getLsbD_extract op.fill (Nat.le_add_left 1 _) hi,
    Nat.add_sub_cancel, Nat.add_sub_cancel' h]

/-- A base instruction whose field wraps inserts it. -/
theorem apply_eq_insert (op : BitfieldOp) (h : imms < immr) (hr : immr < width) :
    op.apply immr imms src old =
      (FieldMove.insert op.fill (width - immr) (imms + 1)).value src old := by
  apply BitVec.eq_of_getLsbD_eq
  intro i hi
  rw [getLsbD_apply_of_lt op h hr hi, getLsbD_insert op.fill (Nat.le_add_left 1 _) hi,
    Nat.add_sub_cancel]

theorem value_shiftRightSigned {n : Nat} (h : n < width) :
    (FieldMove.shiftRightSigned n).value src old =
      (FieldMove.extract .sign n (width - n)).value src old := by
  apply BitVec.eq_of_getLsbD_eq
  intro i hi
  rw [getLsbD_extract .sign (by omega) hi, show n + (width - n - 1) = width - 1 by omega,
    FieldMove.value, BitVec.getLsbD_sshiftRight, decide_eq_false (Nat.not_le.mpr hi), Bool.not_false,
    Bool.true_and, BitVec.msb_eq_getLsbD_last]
  have hin : n + i < width ↔ i < width - n := by omega
  simp only [hin, Fill.above]

theorem value_shiftRight {n : Nat} (h : n < width) :
    (FieldMove.shiftRight n).value src old =
      (FieldMove.extract .zeros n (width - n)).value src old := by
  apply BitVec.eq_of_getLsbD_eq
  intro i hi
  rw [getLsbD_extract .zeros (by omega) hi, FieldMove.value, BitVec.getLsbD_ushiftRight]
  by_cases hin : i < width - n
  · rw [if_pos hin]
  · rw [if_neg hin]
    exact BitVec.getLsbD_of_ge src (n + i) (by omega)

theorem value_shiftLeft {n : Nat} (h : n < width) :
    (FieldMove.shiftLeft n).value src old =
      (FieldMove.insert .zeros n (width - n)).value src old := by
  apply BitVec.eq_of_getLsbD_eq
  intro i hi
  rw [getLsbD_insert .zeros (by omega) hi, FieldMove.value, BitVec.getLsbD_shiftLeft,
    decide_eq_true hi, Bool.true_and]
  by_cases hlow : i < n
  · simp only [hlow, decide_true, Bool.not_true, Bool.false_and, if_true, Fill.below]
  · have hin : i - n < width - n := by omega
    simp only [hlow, hin, decide_false, Bool.not_false, Bool.true_and, if_false, if_true]

theorem value_extend (signed : Bool) {count : Nat} :
    (FieldMove.extend signed count).value src old =
      (FieldMove.extract (if signed then .sign else .zeros) 0 count).value src old := by
  have hlow : src.extractLsb' 0 count = src.setWidth count := by
    apply BitVec.eq_of_getLsbD_eq
    intro i hi
    simp [-BitVec.getLsbD_eq_getElem, hi]
  cases signed <;> simp only [FieldMove.value, hlow, if_true, if_false, Bool.false_eq_true]

theorem value_clear {lsb count : Nat} :
    (FieldMove.clear lsb count).value src old = (FieldMove.insert .old lsb count).value 0 old := by
  simp only [FieldMove.value, BitVec.ofNat_eq_ofNat, BitVec.setWidth_zero]

/-- A field of the lowest bits does not depend on what stands above them. -/
theorem value_extend_congr (signed : Bool) {count : Nat} {src' : BitVec width}
    (h : src.setWidth count = src'.setWidth count) :
    (FieldMove.extend signed count).value src old = (FieldMove.extend signed count).value src' old := by
  cases signed <;> simp only [FieldMove.value, h]

end Values

/-! The text of an alias. -/

/-- A bitfield move between registers as assembly writes it. Without a source there is nothing to
move. -/
structure WrittenMove where
  move : FieldMove
  result : Register
  source : Option Register
  deriving DecidableEq, Repr

namespace WrittenMove

def shift? (move : Nat → FieldMove) : List Operand → Option WrittenMove
  | [.register result, .register source, .count amount] => some ⟨move amount, result, some source⟩
  | _ => none

def field? (move : Nat → Nat → FieldMove) : List Operand → Option WrittenMove
  | [.register result, .register source, .count lsb, .count count] =>
    some ⟨move lsb count, result, some source⟩
  | _ => none

def clear? : List Operand → Option WrittenMove
  | [.register result, .count lsb, .count count] => some ⟨.clear lsb count, result, none⟩
  | _ => none

def extend? (signed : Bool) (count : Nat) : List Operand → Option WrittenMove
  | [.register result, .register source] => some ⟨.extend signed count, result, some source⟩
  | _ => none

/-- The move that a name and its operands tell. -/
def ofText? : String → List Operand → Option WrittenMove
  | "asr" => shift? .shiftRightSigned
  | "lsr" => shift? .shiftRight
  | "lsl" => shift? .shiftLeft
  | "sbfiz" => field? (.insert .sign)
  | "ubfiz" => field? (.insert .zeros)
  | "bfi" => field? (.insert .old)
  | "sbfx" => field? (.extract .sign)
  | "ubfx" => field? (.extract .zeros)
  | "bfxil" => field? (.extract .old)
  | "bfc" => clear?
  | "sxtb" => extend? true 8
  | "sxth" => extend? true 16
  | "sxtw" => extend? true 32
  | "uxtb" => extend? false 8
  | "uxth" => extend? false 16
  | _ => fun _ => none

def value (m : WrittenMove) (regs : RegisterFile) (width : Nat) : BitVec width :=
  m.move.value ((m.source.elim 0 regs.read).setWidth width) ((regs.read m.result).setWidth width)

end WrittenMove

/-- The value that the base instruction `op` gives to the register `rd` of `width` bits. -/
def BitfieldOp.result (op : BitfieldOp) (immr imms : BitVec 6) (rn rd : Register) (regs : RegisterFile)
    (width : Nat) : BitVec width :=
  op.apply immr.toNat imms.toNat ((regs.read rn).setWidth width) ((regs.read rd).setWidth width)

namespace Bitfield

variable {e : Bitfield} {s : Spelling}

/-- A spelling that tells a well-formed move with the value of the base instruction. -/
def SpelledBy (e : Bitfield) (s : Spelling) : Prop :=
  ∃ m, s.mnemonic.bind (WrittenMove.ofText? · s.operands) = some m ∧ m.result = e.result ∧
    m.move.IsWellFormed e.width ∧
    ∀ regs, m.value regs e.width = e.op.result e.immr e.imms e.source e.result regs e.width

theorem SpelledBy.of_move {move : FieldMove}
    (hread : s.mnemonic.bind (WrittenMove.ofText? · s.operands) = some ⟨move, e.result, some e.source⟩)
    (hwf : move.IsWellFormed e.width)
    (hvalue : ∀ src old : BitVec e.width,
      e.op.apply e.immr.toNat e.imms.toNat src old = move.value src old) : e.SpelledBy s :=
  ⟨_, hread, rfl, hwf, fun _ => (hvalue _ _).symm⟩

theorem Fits.isWellFormed_insert (h : e.Fits) (hlt : e.imms < e.immr) (fill : Fill) :
    (FieldMove.insert fill (e.width - e.immr.toNat) (e.imms.toNat + 1)).IsWellFormed e.width := by
  have hr := h.1
  rw [BitVec.lt_def] at hlt
  exact ⟨by omega, by omega⟩

theorem Fits.isWellFormed_extract (h : e.Fits) (hle : e.immr.toNat ≤ e.imms.toNat) (fill : Fill) :
    (FieldMove.extract fill e.immr.toNat (e.imms.toNat - e.immr.toNat + 1)).IsWellFormed
      e.width := by
  have hs := h.2
  exact ⟨by omega, by omega⟩

theorem spelledBy_inserted (hfits : e.Fits) (hlt : e.imms < e.immr)
    (hread : s.mnemonic.bind (WrittenMove.ofText? · s.operands) =
      some ⟨.insert e.op.fill (e.width - e.immr.toNat) (e.imms.toNat + 1), e.result, some e.source⟩) :
    e.SpelledBy s :=
  .of_move hread (hfits.isWellFormed_insert hlt _) fun _ _ =>
    apply_eq_insert e.op (BitVec.lt_def.mp hlt) hfits.1

theorem spelledBy_extracted (hfits : e.Fits) (hle : ¬e.imms < e.immr)
    (hread : s.mnemonic.bind (WrittenMove.ofText? · s.operands) =
      some ⟨.extract e.op.fill e.immr.toNat (e.imms.toNat - e.immr.toNat + 1), e.result,
        some e.source⟩) :
    e.SpelledBy s := by
  have hle : e.immr.toNat ≤ e.imms.toNat := BitVec.le_def.mp (BitVec.not_lt.mp hle)
  exact .of_move hread (hfits.isWellFormed_extract hle _) fun _ _ => apply_eq_extract e.op hle hfits.2

theorem spelledBy_shiftRight (move : FieldMove) (hfits : e.Fits) (htop : e.imms.toNat + 1 = e.width)
    (hread : s.mnemonic.bind (WrittenMove.ofText? · s.operands) =
      some ⟨move, e.result, some e.source⟩)
    (hwf : move.IsWellFormed e.width)
    (hmove : ∀ src old : BitVec e.width,
      move.value src old =
        (FieldMove.extract e.op.fill e.immr.toNat (e.width - e.immr.toNat)).value src old) :
    e.SpelledBy s := by
  have hr := hfits.1
  have hle : e.immr.toNat ≤ e.imms.toNat := by omega
  have hcount : e.width - e.immr.toNat = e.imms.toNat - e.immr.toNat + 1 := by omega
  refine .of_move hread hwf fun src old => ?_
  rw [hmove, hcount]
  exact apply_eq_extract e.op hle hfits.2

theorem spelledBy_extended (signed : Bool) (hfits : e.Fits) (hr : e.immr = 0) {count : Nat}
    (hs : e.imms.toNat + 1 = count) (hcount : count ≤ 32)
    (hfill : e.op.fill = if signed then .sign else .zeros)
    (hread : s.mnemonic.bind (WrittenMove.ofText? · s.operands) =
      some ⟨.extend signed count, e.result, some (e.rn.gp false)⟩) :
    e.SpelledBy s := by
  have hlt := hfits.2
  have hzero : e.immr.toNat = 0 := by rw [hr]; rfl
  refine ⟨_, hread, rfl, ⟨by omega, by omega⟩, fun regs => ?_⟩
  have hsource : ((regs.read (e.rn.gp false)).setWidth e.width).setWidth count =
      ((regs.read e.source).setWidth e.width).setWidth count := by
    rw [BitVec.setWidth_setWidth_of_le _ (by omega), BitVec.setWidth_setWidth_of_le _ (by omega)]
    exact regs.setWidth_read_narrow e.rn e.wide hcount
  rw [BitfieldOp.result, apply_eq_extract e.op (by omega) hlt, hfill, hzero, Nat.sub_zero, hs,
    ← value_extend]
  exact value_extend_congr signed hsource

theorem spelledBy_cleared (hfits : e.Fits) (hop : e.op = .bfm) (hlt : e.imms < e.immr) (hrn : e.rn = 31)
    (hread : s.mnemonic.bind (WrittenMove.ofText? · s.operands) =
      some ⟨.clear (e.width - e.immr.toNat) (e.imms.toNat + 1), e.result, none⟩) :
    e.SpelledBy s := by
  refine ⟨_, hread, rfl, hfits.isWellFormed_insert hlt .old, fun regs => ?_⟩
  have hsource : (regs.read e.source).setWidth e.width = 0 := by
    rw [source, RegisterFile.read_gp, if_pos hrn]
    exact BitVec.setWidth_zero _ _
  rw [BitfieldOp.result, hsource, apply_eq_insert e.op (BitVec.lt_def.mp hlt) hfits.1, hop]
  exact value_clear

theorem spelledBy_shiftLeft (hfits : e.Fits) (hop : e.op = .ubfm)
    (hnext : e.imms.toNat + 1 = e.immr.toNat)
    (hread : s.mnemonic.bind (WrittenMove.ofText? · s.operands) =
      some ⟨.shiftLeft (e.width - 1 - e.imms.toNat), e.result, some e.source⟩) :
    e.SpelledBy s := by
  have hr := hfits.1
  have hlsb : e.width - e.immr.toNat = e.width - 1 - e.imms.toNat := by omega
  have hcount : e.width - (e.width - 1 - e.imms.toNat) = e.imms.toNat + 1 := by omega
  have hamount : e.width - 1 - e.imms.toNat < e.width := by omega
  refine .of_move hread hamount fun src old => ?_
  rw [apply_eq_insert e.op (by omega) hr, hop, hlsb, value_shiftLeft hamount, hcount]
  rfl

theorem spelledBy_signedSpelling (hop : e.op = .sbfm) (hfits : e.Fits) :
    e.SpelledBy e.signedSpelling := by
  have hfill : e.op.fill = .sign := by rw [hop]; rfl
  have hnumber {n : BitVec 6} {count : Nat} (hs : e.imms = n) (hn : n.toNat + 1 = count) :
      e.imms.toNat + 1 = count := by rw [hs, hn]
  simp only [signedSpelling]
  split
  · next htop =>
    refine spelledBy_shiftRight (.shiftRightSigned e.immr.toNat) hfits htop rfl hfits.1 ?_
    intro src old
    rw [hfill]
    exact value_shiftRightSigned hfits.1
  split
  · next hlt => exact spelledBy_inserted hfits hlt (by rw [hfill]; rfl)
  next hle =>
  split
  · next h => exact spelledBy_extended true hfits h.1 (hnumber h.2 rfl) (by decide) hfill rfl
  split
  · next h => exact spelledBy_extended true hfits h.1 (hnumber h.2 rfl) (by decide) hfill rfl
  split
  · next h => exact spelledBy_extended true hfits h.1 (hnumber h.2 rfl) (by decide) hfill rfl
  · exact spelledBy_extracted hfits hle (by rw [hfill]; rfl)

theorem spelledBy_mergeSpelling (hop : e.op = .bfm) (hfits : e.Fits) :
    e.SpelledBy e.mergeSpelling := by
  have hfill : e.op.fill = .old := by rw [hop]; rfl
  simp only [mergeSpelling]
  split
  · next hlt =>
    split
    · next hrn => exact spelledBy_cleared hfits hop hlt hrn rfl
    · exact spelledBy_inserted hfits hlt (by rw [hfill]; rfl)
  · next hle => exact spelledBy_extracted hfits hle (by rw [hfill]; rfl)

theorem spelledBy_unsignedSpelling (hop : e.op = .ubfm) (hfits : e.Fits) :
    e.SpelledBy e.unsignedSpelling := by
  have hfill : e.op.fill = .zeros := by rw [hop]; rfl
  have hnumber {n : BitVec 6} {count : Nat} (hs : e.imms = n) (hn : n.toNat + 1 = count) :
      e.imms.toNat + 1 = count := by rw [hs, hn]
  have hsource (h : e.wide = false) : e.source = e.rn.gp false := by rw [source, h]
  simp only [unsignedSpelling]
  split
  · next h => exact spelledBy_shiftLeft hfits hop h.2 rfl
  split
  · next htop =>
    refine spelledBy_shiftRight (.shiftRight e.immr.toNat) hfits htop rfl hfits.1 ?_
    intro src old
    rw [hfill]
    exact value_shiftRight hfits.1
  split
  · next hlt => exact spelledBy_inserted hfits hlt (by rw [hfill]; rfl)
  next hle =>
  split
  · next h =>
    refine spelledBy_extended false hfits h.2.1 (hnumber h.2.2 rfl) (by decide) hfill ?_
    rw [hsource h.1]
    rfl
  split
  · next h =>
    refine spelledBy_extended false hfits h.2.1 (hnumber h.2.2 rfl) (by decide) hfill ?_
    rw [hsource h.1]
    rfl
  · exact spelledBy_extracted hfits hle (by rw [hfill]; rfl)

theorem spelledBy_spelling (hfits : e.Fits) : e.SpelledBy e.spelling := by
  simp only [spelling]
  cases hop : e.op with
  | sbfm => exact spelledBy_signedSpelling hop hfits
  | bfm => exact spelledBy_mergeSpelling hop hfits
  | ubfm => exact spelledBy_unsignedSpelling hop hfits

theorem exists_op_of_ofWord {w : Word} (he : ofWord w = .ok e) :
    ∃ op, w.field 29 2 = opCode op ∧
      e = ⟨w.bit 31, op, w.field 16 6, w.field 10 6, w.rn, w.rd⟩ := by
  simp only [ofWord] at he
  split at he
  · simp at he
  · next op hop =>
    split at he
    · simp at he
    · split at he
      · simp at he
      · cases he
        exact ⟨op, (opCode_of_op? _ _ hop).symm, rfl⟩

end Bitfield

/-- A bitfield move that decodes is written as a well-formed shift, extension, insertion, extraction or
clearing. Whatever the registers hold, it gives the result the value that the base instruction gives. -/
theorem value_of_bitfield_alias {w : Word} {a : Address} {i : Instruction}
    (hc : EncodingClass.ofWord w = .dataImmediate) (hg : w.field 23 3 = 6) (hd : decode w a = .ok i) :
    let width := Register.width (w.bit 31)
    let rn := w.rn.gp (w.bit 31)
    let rd := w.rd.gp (w.bit 31)
    ∃ op m, w.field 29 2 = Bitfield.opCode op ∧
      i.mnemonic.bind (WrittenMove.ofText? · i.operands) = some m ∧ m.result = rd ∧
      m.move.IsWellFormed width ∧
      ∀ regs, m.value regs width = op.result (w.field 16 6) (w.field 10 6) rn rd regs width := by
  intro width rn rd
  obtain ⟨f, -, hf, rfl⟩ := decode_eq_ok hd
  rw [hc] at hf
  have hnumber : (w.field 23 3).toNat = 6 := by rw [hg]; rfl
  obtain ⟨e, he, rfl⟩ : ∃ e, Bitfield.ofWord w = .ok e ∧ f = e.form := by
    cases hf with
    | immediate h =>
      cases h with
      | bitfield _ he => exact ⟨_, he, rfl⟩
      | _ => simp_all
  have hgroup : w.field 23 6 = 0b100110#6 := by
    have hclass := EncodingClass.field_of_dataImmediate hc
    rw [Word.toNat_field] at hclass hnumber
    exact w.field_eq_ofNat (by omega)
  have hfits := (Bitfield.word_of_ofWord hgroup he).2
  obtain ⟨op, hop, rfl⟩ := Bitfield.exists_op_of_ofWord he
  obtain ⟨m, htext, hmove⟩ := Bitfield.spelledBy_spelling hfits
  refine ⟨op, m, hop, ?_, hmove⟩
  simpa [Form.place, Bitfield.form] using htext

/-- The field of `sbfiz x3, x4, #60, #4` ends where the register does. -/
theorem value_of_sbfiz_at_top :
    ∃ i, decode 0x93440C83 0 = .ok i ∧ i.mnemonic = some "sbfiz" ∧
      i.operands = [.register (.x 3), .register (.x 4), .count 60, .count 4] ∧
      ∀ regs : RegisterFile,
        ((regs.read (.x 4)).setWidth 4).signExtend 64 <<< 60 =
          BitfieldOp.sbfm.result 4 3 (.x 4) (.x 3) regs 64 := by
  refine ⟨_, rfl, rfl, rfl, fun regs => ?_⟩
  obtain ⟨op, m, hop, htext, -, -, hvalue⟩ :=
    value_of_bitfield_alias (w := 0x93440C83) (a := 0) rfl rfl rfl
  cases op with
  | sbfm =>
    obtain rfl : ⟨.insert .sign 60 4, .x 3, some (.x 4)⟩ = m := Option.some.inj htext
    exact hvalue regs
  | bfm | ubfm => exact absurd hop (by decide)

end Encoding

end A64
