import Mathlib.Algebra.Order.Ring.Nat
import A64.Proofs.Relocation

/-! Putting words together again. The fields of a word, joined from the top down, are the word, and the
operands of an instruction show the register fields and displacements that they were made of. -/

namespace A64

theorem ofNat_of_toNat_eq {n m : Nat} {b : BitVec n} (h : b.toNat = m) : BitVec.ofNat n m = b := by
  rw [← h, BitVec.ofNat_toNat, BitVec.setWidth_eq]

namespace Word

theorem field_append (w : Word) {hi lo m n : Nat} (h : hi = lo + m) :
    w.field hi n ++ w.field lo m = w.field lo (n + m) :=
  BitVec.extractLsb'_append_extractLsb'_eq_extractLsb' h

theorem field_all (w : Word) : w.field 0 32 = w := BitVec.extractLsb'_eq_self

theorem extractLsb'_field (w : Word) {lo len i n : Nat} (h : i + n ≤ len) :
    (w.field lo len).extractLsb' i n = w.field (lo + i) n := by
  apply BitVec.eq_of_getLsbD_eq
  intro j hj
  have hlt : i + j < len := by omega
  simp [field, hj, hlt, Nat.add_assoc]

theorem ofBool_bit (w : Word) (i : Nat) : BitVec.ofBool (w.bit i) = w.field i 1 := by
  apply BitVec.eq_of_getLsbD_eq
  intro j hj
  obtain rfl : j = 0 := by omega
  simp [bit, field]

theorem field_of_bit {w : Word} {i : Nat} {b : Bool} (h : w.bit i = b) :
    w.field i 1 = BitVec.ofBool b := by
  rw [← ofBool_bit, h]

theorem field_eq_ofNat (w : Word) {lo len n : Nat} (h : w.toNat / 2 ^ lo % 2 ^ len = n) :
    w.field lo len = BitVec.ofNat len n := by
  rw [← toNat_field] at h
  exact (ofNat_of_toNat_eq h).symm

end Word

namespace Register

def field (r : Register) : RegisterField := BitVec.ofNat 5 r.index

def isWide (r : Register) : Bool := r.size = 64

end Register

namespace RegisterField

@[simp] theorem field_gp (n : RegisterField) (wide : Bool) : (n.gp wide).field = n := by
  have hindex : (n.gp wide).index = n.toNat := by
    simp only [gp, Register.gp, Nat.mod_eq_of_lt n.isLt]
    split <;> simp_all
  rw [Register.field, hindex, BitVec.ofNat_toNat, BitVec.setWidth_eq]

@[simp] theorem isWide_gp (n : RegisterField) (wide : Bool) : (n.gp wide).isWide = wide := by
  have hsize : (n.gp wide).size = Register.width wide := by
    simp only [gp, Register.gp]
    split <;> rfl
  rw [Register.isWide, hsize]
  cases wide <;> rfl

@[simp] theorem field_gpOrSp (n : RegisterField) (wide : Bool) : (n.gpOrSp wide).field = n := by
  have hindex : (n.gpOrSp wide).index = n.toNat := by
    simp only [gpOrSp, Register.gpOrSp, Nat.mod_eq_of_lt n.isLt]
    split <;> simp_all
  rw [Register.field, hindex, BitVec.ofNat_toNat, BitVec.setWidth_eq]

@[simp] theorem isWide_gpOrSp (n : RegisterField) (wide : Bool) :
    (n.gpOrSp wide).isWide = wide := by
  have hsize : (n.gpOrSp wide).size = Register.width wide := by
    simp only [gpOrSp, Register.gpOrSp]
    split <;> rfl
  rw [Register.isWide, hsize]
  cases wide <;> rfl

@[simp] theorem field_base (n : RegisterField) : n.base.field = n := n.field_gpOrSp true

@[simp] theorem field_float (n : RegisterField) (size : Nat) : (n.float size).field = n := by
  rw [Register.field, float, Register.float, Nat.mod_eq_of_lt n.isLt, BitVec.ofNat_toNat,
    BitVec.setWidth_eq]

end RegisterField

namespace Form

def operandsAt (f : Form) (a : Address) : List Operand :=
  f.operands ++ (f.reference.map (Reference.operand a)).toList

theorem operandsAt_of_none {f : Form} (h : f.reference = none) (a : Address) :
    f.operandsAt a = f.operands := by
  rw [operandsAt, h]
  exact List.append_nil _

/-- Wherever the form stands, the assembler makes the word `w` of its text. -/
def AssemblesTo (assemble? : String → List Operand → Option Word) (f : Form) (w : Word) : Prop :=
  ∀ a, f.mnemonic.bind (assemble? · (f.operandsAt a)) = some w

end Form

/-- Instructions that are written alike are assembled to one word. -/
theorem Instruction.word_eq_of_text {assemble? : String → List Operand → Option Word}
    {i j : Instruction} {v w : Word} (hi : i.mnemonic.bind (assemble? · i.operands) = some v)
    (hj : j.mnemonic.bind (assemble? · j.operands) = some w) (hm : i.mnemonic = j.mnemonic)
    (ho : i.operands = j.operands) : v = w := by
  rw [hm, ho, hj] at hi
  exact (Option.some.inj hi).symm

theorem Reference.operand_displaced_of_lt (a : Address) (kind : PcRelative) {d : Int}
    (hlow : -2 ^ 63 ≤ d) (hhigh : d < 2 ^ 63) :
    operand a (.displaced kind d) = .pcRelative d (a.advance d) := by
  rw [operand, target, Address.advance_sub_self, BitVec.toInt_ofInt,
    Int.bmod_eq_of_le (by omega) (by omega)]

theorem toInt_bounds_of_le {n : Nat} (hn : n ≤ 32) (x : BitVec n) :
    -2 ^ 31 ≤ x.toInt ∧ x.toInt < 2 ^ 31 := by
  have hlow : -2 ^ n ≤ 2 * x.toInt := BitVec.le_two_mul_toInt
  have hhigh : 2 * x.toInt < 2 ^ n := BitVec.two_mul_toInt_lt
  have hpow : ((2 ^ n : Nat) : Int) ≤ ((2 ^ 32 : Nat) : Int) :=
    Int.ofNat_le.mpr (Nat.pow_le_pow_right (by decide) hn)
  push_cast at hpow
  omega

theorem Reference.operand_displaced (a : Address) (kind : PcRelative) {n : Nat} (hn : n ≤ 32)
    (words : BitVec n) :
    operand a (.displaced kind (4 * words.toInt)) =
      .pcRelative (4 * words.toInt) (a.advance (4 * words.toInt)) := by
  obtain ⟨hlow, hhigh⟩ := toInt_bounds_of_le hn words
  exact operand_displaced_of_lt a kind (by omega) (by omega)

theorem ofInt_mul_toInt_div {n : Nat} (words : BitVec n) :
    BitVec.ofInt n (4 * words.toInt / 4) = words := by
  rw [Int.mul_ediv_cancel_left _ (by decide), BitVec.ofInt_toInt]

end A64
