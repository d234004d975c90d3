/-! Instruction words and addresses. A word is read through its fields, and lies in memory with its
lowest byte first. -/

namespace A64

abbrev Word := BitVec 32

/-- A place in the address space. Sums wrap at its top. -/
abbrev Address := BitVec 64

namespace Word

def field (w : Word) (lo len : Nat) : BitVec len := w.extractLsb' lo len

def bit (w : Word) (i : Nat) : Bool := w.getLsbD i

def bytes (w : Word) : List UInt8 :=
  [⟨w.field 0 8⟩, ⟨w.field 8 8⟩, ⟨w.field 16 8⟩, ⟨w.field 24 8⟩]

def ofBytes (a b c d : UInt8) : Word :=
  d.toBitVec ++ c.toBitVec ++ b.toBitVec ++ a.toBitVec

theorem getLsbD_ofBytes (a b c d : UInt8) (i : Nat) :
    (ofBytes a b c d).getLsbD i =
      if i < 8 then a.toBitVec.getLsbD i
      else if i < 16 then b.toBitVec.getLsbD (i - 8)
      else if i < 24 then c.toBitVec.getLsbD (i - 16)
      else d.toBitVec.getLsbD (i - 24) := by
  change (d.toBitVec ++ c.toBitVec ++ b.toBitVec ++ a.toBitVec).getLsbD i = _
  have hb : i - 8 < 8 ↔ i < 16 := by omega
  have hc : i - 16 < 8 ↔ i < 24 := by omega
  rw [BitVec.getLsbD_append, BitVec.getLsbD_append, BitVec.getLsbD_append]
  simp only [hb, hc, Nat.sub_sub, Nat.reduceAdd]

theorem bytes_ofBytes (a b c d : UInt8) : bytes (ofBytes a b c d) = [a, b, c, d] := by
  have cut (lo : Nat) (x : UInt8)
      (h : ∀ i < 8, (ofBytes a b c d).getLsbD (lo + i) = x.toBitVec.getLsbD i) :
      (⟨(ofBytes a b c d).field lo 8⟩ : UInt8) = x := by
    apply UInt8.toBitVec_inj.mp
    apply BitVec.eq_of_getLsbD_eq
    intro i hi
    rw [field, BitVec.getLsbD_extractLsb', h i hi, decide_eq_true hi, Bool.true_and]
  simp only [bytes, List.cons.injEq, and_true]
  refine ⟨cut 0 a fun i hi => ?_, cut 8 b fun i hi => ?_, cut 16 c fun i hi => ?_,
    cut 24 d fun i hi => ?_⟩
  · rw [getLsbD_ofBytes, if_pos (by omega), Nat.zero_add]
  · rw [getLsbD_ofBytes, if_neg (by omega), if_pos (by omega), Nat.add_sub_cancel_left]
  · rw [getLsbD_ofBytes, if_neg (by omega), if_neg (by omega), if_pos (by omega),
      Nat.add_sub_cancel_left]
  · rw [getLsbD_ofBytes, if_neg (by omega), if_neg (by omega), if_neg (by omega),
      Nat.add_sub_cancel_left]

theorem ofBytes_field (w : Word) :
    ofBytes ⟨w.field 0 8⟩ ⟨w.field 8 8⟩ ⟨w.field 16 8⟩ ⟨w.field 24 8⟩ = w := by
  have hfield (lo i : Nat) (h : lo ≤ i) (hi : i - lo < 8) :
      (w.field lo 8).getLsbD (i - lo) = w.getLsbD i := by
    rw [field, BitVec.getLsbD_extractLsb', decide_eq_true hi, Nat.add_sub_cancel' h, Bool.true_and]
  apply BitVec.eq_of_getLsbD_eq
  intro i hi
  rw [getLsbD_ofBytes]
  repeat' split
  · exact hfield 0 i (by omega) (by omega)
  · exact hfield 8 i (by omega) (by omega)
  · exact hfield 16 i (by omega) (by omega)
  · exact hfield 24 i (by omega) (by omega)

end Word

namespace Address

def advance (a : Address) (d : Int) : Address := a + BitVec.ofInt 64 d

/-- The address of the 4096-byte page that holds `a`. -/
def page (a : Address) : Address := a &&& 0xFFFFFFFFFFFFF000#64

/-- Where the word at `offset` stands: a zero base leaves every word at zero. -/
def ofOffset (base offset : Address) : Address := if base = 0 then 0 else base + offset

end Address

end A64
