import Mathlib.Data.List.Forall2
import A64.Proofs.Expressible.Vector
import A64.Proofs.References

/-! Moving a word to another address. Main statement: a move changes neither whether a word decodes nor
anything of its instruction but its own address and the addresses that it refers to by their distance,
and these move along. -/

namespace A64

namespace Address

theorem advance_sub_advance (a b : Address) (d : Int) : b.advance d - a.advance d = b - a := by
  simp only [advance]
  grind

theorem advance_sub_self (a : Address) (d : Int) : a.advance d - a = BitVec.ofInt 64 d := by
  simp only [advance]
  grind

theorem page_eq_shift (a : Address) : a.page = a >>> 12 <<< 12 := by
  have hmask : 0xFFFFFFFFFFFFF000#64 = BitVec.allOnes 64 <<< 12 := by decide
  rw [page, hmask]
  ext i hi
  rw [BitVec.getElem_and, BitVec.getElem_shiftLeft, BitVec.getElem_shiftLeft,
    BitVec.getElem_allOnes, BitVec.getElem_ushiftRight]
  by_cases h : i < 12
  · simp [h]
  · simp [h, Nat.add_sub_cancel' (Nat.le_of_not_lt h), BitVec.getLsbD_eq_getElem hi]

end Address

/-- How far the target of a word moves when the word moves from `a` to `b`. An `adrp` counts from an
address whose low 12 bits are clear. -/
def Word.shift (w : Word) (a b : Address) : Address :=
  if w.IsAdrp then (b >>> 12 <<< 12) - (a >>> 12 <<< 12) else b - a

/-- `y` is the operand `x` of the word `w` after a move from `a` to `b`. -/
inductive Operand.Moved (w : Word) (a b : Address) : Operand → Operand → Prop where
  | fixed {x : Operand} (hx : ∀ offset target, x ≠ .pcRelative offset target) : Moved w a b x x
  | relative {d e : Int} {s t : Address} (hd : ¬w.IsAdrp → e = d) (ht : t - s = w.shift a b) :
      Moved w a b (.pcRelative d s) (.pcRelative e t)

/-- `j` is the instruction `i` of the word `w` after a move from `a` to `b`. -/
structure Instruction.Moved (w : Word) (a b : Address) (i j : Instruction) : Prop where
  encodingClass : j.encodingClass = i.encodingClass
  operation : j.operation = i.operation
  mnemonic : j.mnemonic = i.mnemonic
  reads : j.reads = i.reads
  writes : j.writes = i.writes
  branch : j.branch = i.branch
  pcRelative : j.pcRelative = i.pcRelative
  operands : List.Forall₂ (Operand.Moved w a b) i.operands j.operands
  pcRelativeTarget_none : i.pcRelative = .none → i.pcRelativeTarget = 0 ∧ j.pcRelativeTarget = 0
  pcRelativeTarget_some : i.pcRelative ≠ .none →
    j.pcRelativeTarget - i.pcRelativeTarget = w.shift a b
  branchTarget_immediate : w.IsImmediateBranch → j.branchTarget - i.branchTarget = b - a
  branchTarget_other : ¬w.IsImmediateBranch → i.branchTarget = 0 ∧ j.branchTarget = 0

inductive DecodeError.SameCause : DecodeError → DecodeError → Prop where
  | malformed {a b : Address} {v w : Word} (reason : String) :
      SameCause (.malformed a v reason) (.malformed b w reason)
  | unsupported {a b : Address} {v w : Word} (c : EncodingClass) :
      SameCause (.unsupported a v c) (.unsupported b w c)

inductive MovedResult (w : Word) (a b : Address) :
    Except DecodeError Instruction → Except DecodeError Instruction → Prop where
  | refused {d e : DecodeError} (h : d.SameCause e) : MovedResult w a b (.error d) (.error e)
  | decoded {i j : Instruction} (h : i.Moved w a b j) : MovedResult w a b (.ok i) (.ok j)

theorem Refusal.sameCause_error (r : Refusal) (w : Word) (a b : Address) :
    (r.error w a).SameCause (r.error w b) := by
  cases r with
  | malformed reason => exact .malformed reason
  | unsupported => exact .unsupported (.ofWord w)

namespace Form

variable {w : Word} {f : Form}

theorem Refers.target_sub (h : f.Refers w) (a b : Address) {r : Reference}
    (hr : f.reference = some r) : r.target b - r.target a = w.shift a b := by
  cases h with
  | nowhere _ _ hn => simp [hn] at hr
  | page ha _ _ hp =>
    cases hp.symm.trans hr
    simp only [Reference.target, Word.shift, if_pos ha, Address.page_eq_shift,
      Address.advance_sub_advance]
  | data ha _ _ hp | jump ha _ _ _ hp =>
    cases hp.symm.trans hr
    simp only [Reference.target, Word.shift, if_neg ha, Address.advance_sub_advance]

theorem Refers.operand_moved (h : f.Refers w) (a b : Address) {r : Reference}
    (hr : f.reference = some r) : (r.operand a).Moved w a b (r.operand b) := by
  refine .relative (fun ha => ?_) (h.target_sub a b hr)
  cases h with
  | nowhere _ _ hn => simp [hn] at hr
  | page hp => exact absurd hp ha
  | data _ _ _ hp | jump _ _ _ _ hp =>
    cases hp.symm.trans hr
    simp only [Reference.target, Address.advance_sub_self]

theorem branchTarget_of_reference {r : Reference} (hb : f.branch ≠ .none)
    (hr : f.reference = some r) (a : Address) : f.branchTarget a = r.target a := by
  cases h : f.branch with
  | none => exact absurd h hb
  | call | conditional | unconditional | exception => simp [branchTarget, h, hr]

theorem Refers.branchTarget_sub (h : f.Refers w) (a b : Address) (hb : w.IsImmediateBranch) :
    f.branchTarget b - f.branchTarget a = b - a := by
  cases h with
  | nowhere _ hn | page _ hn | data _ hn => exact absurd hb hn
  | jump _ _ hf _ hr =>
    simp only [branchTarget_of_reference hf hr, Reference.target, Address.advance_sub_advance]

theorem Refers.branchTarget_eq_zero (h : f.Refers w) (a : Address) (hb : ¬w.IsImmediateBranch) :
    f.branchTarget a = 0 := by
  cases h with
  | jump _ hj => exact absurd hj hb
  | nowhere _ _ hr => cases hf : f.branch <;> simp [branchTarget, hf, hr]
  | page _ _ hf | data _ _ hf => simp [branchTarget, hf]

theorem moved_place (hf : f.IsFixed) (hr : f.Refers w) (a b : Address) :
    (f.place w a).Moved w a b (f.place w b) where
  encodingClass := rfl
  operation := rfl
  mnemonic := rfl
  reads := rfl
  writes := rfl
  branch := rfl
  pcRelative := rfl
  operands := by
    refine List.rel_append (List.forall₂_same.mpr fun op hop => .fixed (hf op hop).2) ?_
    cases href : f.reference with
    | none => exact .nil
    | some r => exact .cons (hr.operand_moved a b href) .nil
  pcRelativeTarget_none := fun hn =>
    ⟨hr.pcRelativeTarget_eq_zero a hn, hr.pcRelativeTarget_eq_zero b hn⟩
  pcRelativeTarget_some := by
    intro hs
    cases href : f.reference with
    | none => simp [place, href] at hs
    | some r => simpa [place, href] using hr.target_sub a b href
  branchTarget_immediate := hr.branchTarget_sub a b
  branchTarget_other := fun hb => ⟨hr.branchTarget_eq_zero a hb, hr.branchTarget_eq_zero b hb⟩

end Form

/-- Decoding does not depend on the address but for the targets that are relative to it. -/
theorem decode_moved (w : Word) (a b : Address) : MovedResult w a b (decode w a) (decode w b) := by
  unfold decode
  cases hf : formOf w with
  | error r => exact .refused (r.sameCause_error w a b)
  | ok f =>
    have he := Encoding.encoded_of_formOf hf
    exact .decoded (Form.moved_place he.isFixed he.refers a b)

end A64
