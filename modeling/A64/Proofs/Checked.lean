import A64.Encoding.Field
import A64.Encoding.Form
import A64.Proofs.References
import Mathlib.Algebra.Order.Ring.Nat

/-! Machine arithmetic that stops at a fault: sums, differences and products that leave their type, shifts
by too much, casts that lose bits, and entries that a table does not have. Main statement: the fields of
a word are read without a fault. -/

namespace A64

inductive ArithmeticFault where
  | overflow
  | underflow
  | shift
  | cast
  | entry
  deriving DecidableEq, Repr

/-- An evaluation that stops at its first fault. -/
abbrev Checked (α : Type) := Except ArithmeticFault α

namespace Checked

variable {α β : Type} {n : Nat}

@[simp] theorem ok_bind (x : α) (f : α → Checked β) : (Except.ok x : Checked α) >>= f = f x := rfl

@[simp] theorem pure_eq_ok (x : α) : (pure x : Checked α) = .ok x := rfl

@[simp] theorem ite_ok {ε : Type} {c : Prop} [Decidable c] (x y : α) :
    (if c then .ok x else .ok y : Except ε α) = .ok (if c then x else y) :=
  (apply_ite Except.ok c x y).symm

theorem eq_ok_of_toOption {x : Checked α} {y : α} (h : x.toOption = some y) : x = .ok y := by
  cases x with
  | error fault => cases h
  | ok z =>
    cases h
    rfl

/-! The operations. The amount of a shift is a number, whatever its type was. -/

def add (a b : BitVec n) : Checked (BitVec n) :=
  if a.toNat + b.toNat < 2 ^ n then .ok (a + b) else .error .overflow

def sub (a b : BitVec n) : Checked (BitVec n) :=
  if b.toNat ≤ a.toNat then .ok (a - b) else .error .underflow

def mul (a b : BitVec n) : Checked (BitVec n) :=
  if a.toNat * b.toNat < 2 ^ n then .ok (a * b) else .error .overflow

def shl (a : BitVec n) (amount : Nat) : Checked (BitVec n) :=
  if amount < n then .ok (a <<< amount) else .error .shift

def shr (a : BitVec n) (amount : Nat) : Checked (BitVec n) :=
  if amount < n then .ok (a >>> amount) else .error .shift

def sar (a : BitVec n) (amount : Nat) : Checked (BitVec n) :=
  if amount < n then .ok (a.sshiftRight amount) else .error .shift

/-- A cast to a narrower type, which has to keep the value. -/
def narrow (m : Nat) (a : BitVec n) : Checked (BitVec m) :=
  if a.toNat < 2 ^ m then .ok (a.setWidth m) else .error .cast

def entry (table : List α) (i : Nat) : Checked α :=
  match table[i]? with
  | some x => .ok x
  | none => .error .entry

variable {a b : BitVec n} {amount m i : Nat}

theorem add_eq (h : a.toNat + b.toNat < 2 ^ n) : add a b = .ok (a + b) := if_pos h

theorem toNat_of_add {c : BitVec n} (h : add a b = .ok c) : c.toNat = a.toNat + b.toNat := by
  rw [add] at h
  split at h
  · next hlt =>
    cases h
    rw [BitVec.toNat_add, Nat.mod_eq_of_lt hlt]
  · cases h

/-- A number of fewer bits than its type has leaves room for one more. -/
theorem toNat_add_one_lt {k : Nat} (x : BitVec k) (h : k < n) :
    (x.setWidth n).toNat + (1 : BitVec n).toNat < 2 ^ n := by
  have hpow : 2 ^ k < 2 ^ n := Nat.pow_lt_pow_right (by decide) h
  have hone : (1 : BitVec n).toNat = 1 := BitVec.toNat_one (by omega)
  rw [BitVec.toNat_setWidth_of_le (Nat.le_of_lt h), hone]
  exact Nat.lt_of_le_of_lt x.isLt hpow

theorem sub_eq (h : b.toNat ≤ a.toNat) : sub a b = .ok (a - b) := if_pos h

theorem mul_eq (h : a.toNat * b.toNat < 2 ^ n) : mul a b = .ok (a * b) := if_pos h

@[simp] theorem shl_eq (h : amount < n) : shl a amount = .ok (a <<< amount) := if_pos h

@[simp] theorem shr_eq (h : amount < n) : shr a amount = .ok (a >>> amount) := if_pos h

theorem sar_eq (h : amount < n) : sar a amount = .ok (a.sshiftRight amount) := if_pos h

theorem narrow_eq (h : a.toNat < 2 ^ m) : narrow m a = .ok (a.setWidth m) := if_pos h

@[simp] theorem narrow_setWidth {k : Nat} (x : BitVec k) (hn : k ≤ n) (hm : k ≤ m) :
    narrow m (x.setWidth n) = .ok (x.setWidth m) := by
  have hlt : (x.setWidth n).toNat < 2 ^ m := by
    rw [BitVec.toNat_setWidth_of_le hn]
    exact Nat.lt_of_lt_of_le x.isLt (Nat.pow_le_pow_right (by decide) hm)
  rw [narrow_eq hlt, Except.ok.injEq]
  apply BitVec.eq_of_toNat_eq
  rw [BitVec.toNat_setWidth, BitVec.toNat_setWidth_of_le hn, BitVec.toNat_setWidth]

theorem entry_eq {table : List α} (default : α) (h : i < table.length) :
    entry table i = .ok (table.getD i default) := by
  rw [entry, List.getElem?_eq_getElem h, List.getD_eq_getElem?_getD, List.getElem?_eq_getElem h]
  rfl

def ones (n count : Nat) : Checked (BitVec n) := do sub (← shl 1 count) 1

theorem ones_eq (h : amount < n) : ones n amount = .ok (.ofNat n (2 ^ amount - 1)) := by
  have hpow : 2 ^ amount < 2 ^ n := Nat.pow_lt_pow_right (by decide) h
  have hone : (1 : BitVec n).toNat = 1 := BitVec.toNat_one (by omega)
  have hnext : ((1 : BitVec n) <<< amount).toNat = 2 ^ amount := by
    rw [BitVec.toNat_shiftLeft, Nat.shiftLeft_eq, hone, Nat.one_mul, Nat.mod_eq_of_lt hpow]
  have hle : (1 : BitVec n).toNat ≤ ((1 : BitVec n) <<< amount).toNat := by
    rw [hone, hnext]
    exact Nat.one_le_two_pow
  rw [ones, shl_eq h, ok_bind, sub_eq hle, Except.ok.injEq]
  apply BitVec.eq_of_toNat_eq
  rw [BitVec.toNat_sub_of_le hle, hone, hnext, BitVec.toNat_ofNat,
    Nat.mod_eq_of_lt (Nat.lt_of_le_of_lt (Nat.sub_le _ 1) hpow)]

theorem toNat_and_ones (x : BitVec n) (h : amount < n) :
    (x &&& .ofNat n (2 ^ amount - 1)).toNat = x.toNat % 2 ^ amount := by
  have hpow : 2 ^ amount < 2 ^ n := Nat.pow_lt_pow_right (by decide) h
  rw [BitVec.toNat_and, BitVec.toNat_ofNat,
    Nat.mod_eq_of_lt (Nat.lt_of_le_of_lt (Nat.sub_le _ 1) hpow), Nat.and_two_pow_sub_one_eq_mod]

theorem getLsbD_ones (h : amount ≤ n) :
    (BitVec.ofNat n (2 ^ amount - 1)).getLsbD i = decide (i < amount) := by
  rw [BitVec.getLsbD_ofNat, Nat.testBit_two_pow_sub_one, Bool.and_eq_right_iff_imp]
  intro hi
  exact decide_eq_true (Nat.lt_of_lt_of_le (of_decide_eq_true hi) h)

example : sub (31 : BitVec 32) 32 = .error .underflow := rfl

example : shl (1 : BitVec 64) 64 = .error .shift := rfl

end Checked

/-! The fields of a word. -/

namespace Word

open Checked

def readBits (w : Word) (lo len : Nat) : Checked (BitVec 32) := do
  let low ← shr w lo
  return low &&& (← ones 32 len)

def readBit (w : Word) (i : Nat) : Checked Bool := do return (← shr w i) &&& 1 != 0

def readField (w : Word) (lo len : Nat) : Checked (BitVec len) := do
  return (← w.readBits lo len).setWidth len

def readByte (w : Word) (lo len : Nat) : Checked (BitVec len) := do
  return (← narrow 8 (← w.readBits lo len)).setWidth len

def readRd (w : Word) : Checked RegisterField := do return (← narrow 8 (w &&& 0x1F)).setWidth 5

def readRn (w : Word) : Checked RegisterField := w.readByte 5 5

def readRm (w : Word) : Checked RegisterField := w.readByte 16 5

def readRa (w : Word) : Checked RegisterField := w.readByte 10 5

def readJoined (w : Word) (lo' len' lo len : Nat) : Checked (BitVec (len' + len)) := do
  let high ← shl (← w.readBits lo' len') len
  return (high ||| (← w.readBits lo len)).setWidth (len' + len)

variable {w : Word} {lo' len' lo len i : Nat}

theorem readBits_eq (hlo : lo < 32) (hlen : len < 32) :
    w.readBits lo len = .ok ((w.field lo len).setWidth 32) := by
  simp only [readBits, shr_eq hlo, ones_eq hlen, ok_bind, pure_eq_ok, Except.ok.injEq]
  apply BitVec.eq_of_toNat_eq
  rw [toNat_and_ones _ hlen, BitVec.toNat_ushiftRight, Nat.shiftRight_eq_div_pow,
    BitVec.toNat_setWidth_of_le (Nat.le_of_lt hlen), toNat_field]

@[simp] theorem readBit_eq (hi : i < 32) : w.readBit i = .ok (w.bit i) := by
  have hlow : w >>> i &&& 1 = (BitVec.ofBool (w.bit i)).setWidth 32 := by
    rw [bit, ← Nat.add_zero i, ← BitVec.getLsbD_ushiftRight]
    exact BitVec.and_one_eq_setWidth_ofBool_getLsbD
  simp only [readBit, shr_eq hi, ok_bind, pure_eq_ok, hlow]
  cases w.bit i <;> rfl

@[simp] theorem readField_eq (hlo : lo < 32) (hlen : len < 32) :
    w.readField lo len = .ok (w.field lo len) := by
  rw [readField, readBits_eq hlo hlen]
  simp only [ok_bind, pure_eq_ok, BitVec.setWidth_setWidth_of_le _ (Nat.le_of_lt hlen), BitVec.setWidth_eq]

@[simp] theorem readJoined_eq (hlo' : lo' < 32) (hlo : lo < 32) (hpos : 0 < len)
    (hlen : len' + len < 32) :
    w.readJoined lo' len' lo len = .ok (w.field lo' len' ++ w.field lo len) := by
  rw [readJoined, readBits_eq hlo' (by omega), readBits_eq hlo (by omega)]
  simp only [ok_bind, shl_eq (show len < 32 by omega), pure_eq_ok,
    ← BitVec.setWidth_append_eq_shiftLeft_setWidth_or, BitVec.setWidth_setWidth_of_le _ (Nat.le_of_lt hlen),
    BitVec.setWidth_eq]

@[simp] theorem readByte_eq (hlo : lo < 32) (hlen : len ≤ 8) :
    w.readByte lo len = .ok (w.field lo len) := by
  rw [readByte, readBits_eq hlo (by omega), ok_bind, narrow_setWidth _ (by omega) hlen, ok_bind,
    BitVec.setWidth_setWidth_of_le _ hlen, BitVec.setWidth_eq]
  rfl

@[simp] theorem readRd_eq : w.readRd = .ok w.rd := by
  have hlow : w &&& 0x1F = (w.field 0 5).setWidth 32 := by
    apply BitVec.eq_of_toNat_eq
    rw [show (0x1F : BitVec 32) = .ofNat 32 (2 ^ 5 - 1) from rfl, toNat_and_ones _ (by decide),
      BitVec.toNat_setWidth_of_le (by decide), toNat_field, Nat.pow_zero, Nat.div_one]
  rw [readRd, hlow]
  simp only [ok_bind, pure_eq_ok, narrow_setWidth _ (show 5 ≤ 32 by decide) (show 5 ≤ 8 by decide)]
  simp [rd]

@[simp] theorem readRn_eq : w.readRn = .ok w.rn := readByte_eq (by decide) (by decide)

@[simp] theorem readRm_eq : w.readRm = .ok w.rm := readByte_eq (by decide) (by decide)

@[simp] theorem readRa_eq : w.readRa = .ok w.ra := readByte_eq (by decide) (by decide)

end Word

def Condition.checkedOfCode (code : BitVec 4) : Checked Condition := Checked.entry all code.toNat

@[simp] theorem Condition.checkedOfCode_eq (code : BitVec 4) : checkedOfCode code = .ok (.ofCode code) :=
  Checked.entry_eq nv code.isLt

def Condition.checkedInverse (c : Condition) : Checked Condition := checkedOfCode (c.code ^^^ 1)

@[simp] theorem Condition.checkedInverse_eq (c : Condition) : c.checkedInverse = .ok c.inverse :=
  checkedOfCode_eq _

namespace Checked

variable {α : Type} {n m len : Nat}

/-! Signed numbers. -/

def signExtend (value : BitVec 64) (len : BitVec 32) : Checked (BitVec 64) := do
  let shift ← sub 64 len
  sar (← shl value shift.toNat) shift.toNat

theorem signExtend_eq (x : BitVec len) (hpos : 0 < len) (hle : len ≤ 64) :
    signExtend (x.setWidth 64) (.ofNat 32 len) = .ok (x.signExtend 64) := by
  have hlen : (BitVec.ofNat 32 len).toNat = len := by
    rw [BitVec.toNat_ofNat, Nat.mod_eq_of_lt (by omega)]
  have hsub : (BitVec.ofNat 32 len).toNat ≤ (64 : BitVec 32).toNat := by rwa [hlen]
  have hshift : ((64 : BitVec 32) - .ofNat 32 len).toNat = 64 - len := by
    rw [BitVec.toNat_sub_of_le hsub, hlen]
    rfl
  have hlt : 64 - len < 64 := by omega
  simp only [signExtend, sub_eq hsub, ok_bind, hshift, shl_eq hlt, sar_eq hlt, Except.ok.injEq]
  apply BitVec.eq_of_getLsbD_eq
  intro i hi
  rw [BitVec.getLsbD_sshiftRight, BitVec.getLsbD_signExtend, decide_eq_false (Nat.not_le.mpr hi),
    decide_eq_true hi, BitVec.msb_eq_getLsbD_last, BitVec.msb_eq_getLsbD_last]
  by_cases hin : i < len
  · have hsum : 64 - len + i < 64 := by omega
    simp [-BitVec.getLsbD_eq_getElem, hin, hsum, hi]
  · have hsum : ¬64 - len + i < 64 := by omega
    have hlast : 63 - (64 - len) = len - 1 := by omega
    have hnot : ¬63 < 64 - len := by omega
    have hlt' : len - 1 < 64 := by omega
    simp [-BitVec.getLsbD_eq_getElem, hin, hsum, hlast, hnot, hlt']

def signed (x : BitVec len) : Checked Int := do
  return (← signExtend (x.setWidth 64) (.ofNat 32 len)).toInt

/-- A signed field that counts words, in bytes. -/
def signedWords (x : BitVec len) : Checked Int := do
  return (← signExtend (← shl (x.setWidth 64) 2) (.ofNat 32 (len + 2))).toInt

theorem signed_eq (x : BitVec len) (hpos : 0 < len) (hle : len ≤ 64) : signed x = .ok x.toInt := by
  rw [signed, signExtend_eq x hpos hle]
  simp only [ok_bind, pure_eq_ok, BitVec.toInt_signExtend_of_le hle]

theorem signedWords_eq (x : BitVec len) (hpos : 0 < len) (hle : len ≤ 62) :
    signedWords x = .ok (4 * x.toInt) := by
  have happend : x.setWidth 64 <<< 2 = (x ++ 0#2).setWidth 64 := by
    rw [BitVec.setWidth_append_eq_shiftLeft_setWidth_or, BitVec.setWidth_zero, BitVec.or_zero]
  have hint : (x ++ 0#2).toInt = 4 * x.toInt := by
    simp [BitVec.toInt_append, Nat.ne_of_gt hpos]
  rw [signedWords, shl_eq (by decide), ok_bind, happend, signExtend_eq _ (by omega) (by omega)]
  simp only [ok_bind, pure_eq_ok, BitVec.toInt_signExtend_of_le (show len + 2 ≤ 64 by omega), hint]

theorem toInt_shiftLeft {x : BitVec 64} {k : Nat} (hk : k ≤ 4) (hlo : -2 ^ 32 ≤ x.toInt)
    (hhi : x.toInt < 2 ^ 32) : (x <<< k).toInt = x.toInt <<< k := by
  have hcases : k = 0 ∨ k = 1 ∨ k = 2 ∨ k = 3 ∨ k = 4 := by omega
  have hpow : (BitVec.twoPow 64 k).toInt = 2 ^ k := by
    rcases hcases with rfl | rfl | rfl | rfl | rfl <;> rfl
  rw [BitVec.shiftLeft_eq_mul_twoPow, BitVec.toInt_mul, Int.shiftLeft_eq, hpow]
  apply Int.bmod_eq_of_le <;> rcases hcases with rfl | rfl | rfl | rfl | rfl <;> omega

/-! Forms. -/

def withOperands (f : Form) (operands : Checked (List Operand)) : Checked Form := do
  return { f with operands := ← operands }

theorem withOperands_eq {f : Form} {operands : Checked (List Operand)} (h : operands = .ok f.operands) :
    withOperands f operands = .ok f := by
  rw [withOperands, h]
  rfl

def displacedBy (f : Form) (kind : PcRelative) (words : BitVec len) : Checked Form := do
  return { f with reference := some (.displaced kind (← signedWords words)) }

theorem displacedBy_eq {f : Form} {kind : PcRelative} {words : BitVec len}
    (h : f.reference = some (.displaced kind (4 * words.toInt))) (hpos : 0 < len) (hle : len ≤ 62) :
    displacedBy f kind words = .ok f := by
  rw [displacedBy, signedWords_eq words hpos hle, ok_bind, ← h]
  rfl

/-! Words that are refused. -/

section Refusals

variable {β : Type} {x : Checked (Except Refusal α)} {y : Except Refusal α}

/-- What follows on what was read from a word, unless the word is refused. -/
def andThen (x : Checked (Except Refusal α)) (f : α → Checked (Except Refusal β)) :
    Checked (Except Refusal β) := do
  match ← x with
  | .error refusal => return .error refusal
  | .ok e => f e

def formed (x : Checked (Except Refusal α)) (f : α → Checked β) : Checked (Except Refusal β) :=
  andThen x fun e => do return .ok (← f e)

theorem andThen_eq {f : α → Checked (Except Refusal β)} {g : α → Except Refusal β} (hx : x = .ok y)
    (hf : ∀ e, y = .ok e → f e = .ok (g e)) : andThen x f = .ok (y.bind g) := by
  rw [andThen, hx, ok_bind]
  cases y with
  | error refusal => rfl
  | ok e => exact hf e rfl

theorem formed_eq {f : α → Checked β} {g : α → β} (hx : x = .ok y)
    (hf : ∀ e, y = .ok e → f e = .ok (g e)) : formed x f = .ok (y.map g) := by
  have hbind : y.map g = y.bind fun e => .ok (g e) := by cases y <;> rfl
  rw [formed, hbind]
  apply andThen_eq hx
  intro e he
  rw [hf e he]
  rfl

@[simp] theorem formed_ok (y : Except Refusal α) (g : α → β) :
    formed (.ok y) (fun e => .ok (g e)) = .ok (y.map g) :=
  formed_eq rfl fun _ _ => rfl

end Refusals

end Checked

end A64
