import A64.Encoding.Field

/-! What the general registers hold. A view shows the low bits of its register, and the zero register shows
zero. -/

namespace A64

abbrev RegisterFile := Nat → BitVec 64

/-- What a view of a register shows, zeros above it. The zero register shows zero. -/
def RegisterFile.read (regs : RegisterFile) (r : Register) : BitVec 64 :=
  match r.kind with
  | .general | .stackPointer => ((regs r.index).setWidth r.size).setWidth 64
  | _ => 0

theorem RegisterFile.read_gp (regs : RegisterFile) (n : RegisterField) (wide : Bool) :
    regs.read (n.gp wide) =
      if n = 31 then 0 else ((regs n.toNat).setWidth (Register.width wide)).setWidth 64 := by
  have hlt := n.isLt
  by_cases hn : n = 31
  · subst hn
    rfl
  · have hne : ¬n.toNat % 32 = 31 := by
      intro h
      apply hn
      apply BitVec.eq_of_toNat_eq
      simpa [Nat.mod_eq_of_lt hlt] using h
    rw [RegisterField.gp, Register.gp, if_neg hne, if_neg hn]
    simp only [read, Nat.mod_eq_of_lt hlt]

theorem RegisterFile.setWidth_read_narrow (regs : RegisterFile) (n : RegisterField) (wide : Bool)
    {count : Nat} (h : count ≤ 32) :
    (regs.read (n.gp false)).setWidth count = (regs.read (n.gp wide)).setWidth count := by
  have hwidth : 32 ≤ Register.width wide := by cases wide <;> decide
  rw [read_gp, read_gp]
  by_cases hn : n = 31
  · rw [if_pos hn, if_pos hn]
  · rw [if_neg hn, if_neg hn]
    apply BitVec.eq_of_getLsbD_eq
    intro i hi
    have hnarrow : i < Register.width false := Nat.lt_of_lt_of_le hi h
    have hwide : i < Register.width wide := Nat.lt_of_lt_of_le hnarrow hwidth
    simp only [BitVec.getLsbD_setWidth, decide_eq_true hnarrow, decide_eq_true hwide]

end A64
