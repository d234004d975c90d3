import Mathlib.Algebra.Order.Ring.Nat
import A64.Proofs.Expressible.Vector
import A64.Proofs.MemoryOperands
import A64.Proofs.OperandEffects
import A64.Proofs.Regular

/-! The operands of vectors and floating point. Each group has a rule of its own for the sizes that it refuses,
and the fields of a lane leave as many bits for its index as the size of the lane allows. Main statement: no
instruction has lanes or scalars that the registers have not, a count of fraction bits fits the general
register that it is about, and the effects are those of the general registers among the operands. -/

namespace A64

namespace Arrangement

/-- The register is cut into more than one lane. -/
def IsDivided (a : Arrangement) : Prop := a ≠ .d1 ∧ a ≠ .q1

instance (a : Arrangement) : Decidable a.IsDivided := inferInstanceAs (Decidable (_ ∧ _))

theorem isDivided_ofSize : ∀ (size : BitVec 2) (full : Bool),
    (ofSize size full).IsDivided ↔ (size = 3 → full = true) := by
  decide

theorem isDivided_of_ofFloat? {double full : Bool} {a : Arrangement}
    (h : ofFloat? double full = some a) : a.IsDivided := by
  cases double <;> cases full <;> cases h <;> decide

end Arrangement

/-- What an operand of an instruction on vectors or floating point may be: a register, which has one of the
widths of scalars if it is one; all lanes of a vector register, or one that lies in it; or a number or condition
beside them. -/
def Operand.FitsVector : Operand → Prop
  | register r => r.kind = .scalar → r.index < 32 ∧ Register.IsScalarWidth r.size
  | vector n arrangement => n < 32 ∧ arrangement.IsDivided
  | element n size index => n < 32 ∧ index * size.bits < 128
  | count _ | float _ | condition _ => True
  | shifted _ _ _ | extended _ | immediate _ | shiftedImmediate _ _ | memory _ | pcRelative _ _
  | systemRegister _ | controlRegister _ | named _ => False

/-- Conversions that have a count of fraction bits if they are from or to fixed point. -/
def fixedPointNames : List String := ["fcvtzs", "fcvtzu", "scvtf", "ucvtf"]

def laneComparisonNames : List String := ["cmgt", "cmge", "cmeq", "cmle", "cmlt"]

def conditionalComparisonNames : List String := ["fccmp", "fccmpe"]

structure IsSoleGeneral (operands : List Operand) (r : Register) : Prop where
  mem : .register r ∈ operands
  kind : r.kind = .general ∨ r.kind = .zero
  sole : ∀ q, .register q ∈ operands → q.kind ≠ .scalar → q = r

/-- What a count among the operands is, by the name of the instruction. -/
inductive CountFits (mnemonic : Option String) (operands : List Operand) (n : Nat) : Prop where
  /-- The fraction bits of a number that the general register holds. -/
  | fraction {r : Register} (hname : Named fixedPointNames mnemonic) (hr : IsSoleGeneral operands r)
      (hpos : 1 ≤ n) (hle : n ≤ r.size)
  | zero (hname : Named laneComparisonNames mnemonic) (hn : n = 0)
  | flags (hname : Named conditionalComparisonNames mnemonic) (hn : n < 16)

namespace RegisterField

@[simp] theorem fitsVector_lanes {n : RegisterField} {arrangement : Arrangement} :
    (n.lanes arrangement).FitsVector ↔ arrangement.IsDivided := by
  simp [lanes, Operand.FitsVector, n.isLt]

@[simp] theorem fitsVector_lane {n : RegisterField} {size : ElementSize} {index : Nat} :
    (n.lane size index).FitsVector ↔ index * size.bits < 128 := by
  simp [lane, Operand.FitsVector, n.isLt]

@[simp] theorem fitsVector_scalar {n : RegisterField} {size : Nat} :
    (n.scalar size).FitsVector ↔ Register.IsScalarWidth size := by
  simp [scalar, float, Register.float, Operand.FitsVector, Nat.mod_lt]

theorem kind_gp (n : RegisterField) (wide : Bool) :
    (n.gp wide).kind = .general ∨ (n.gp wide).kind = .zero := by
  unfold gp Register.gp
  split <;> simp

@[simp] theorem size_gp (n : RegisterField) (wide : Bool) :
    (n.gp wide).size = Register.width wide := by
  unfold gp Register.gp
  split <;> rfl

@[simp] theorem fitsVector_gp (n : RegisterField) (wide : Bool) :
    (Operand.register (n.gp wide)).FitsVector := by
  intro hkind
  rcases n.kind_gp wide with h | h <;> simp [h] at hkind

@[simp] theorem count_ne_lanes (n : RegisterField) (arrangement : Arrangement) (k : Nat) :
    .count k ≠ n.lanes arrangement := by
  simp [lanes]

@[simp] theorem count_ne_lane (n : RegisterField) (size : ElementSize) (index k : Nat) :
    .count k ≠ n.lane size index := by
  simp [lane]

@[simp] theorem count_ne_scalar (n : RegisterField) (size k : Nat) : .count k ≠ n.scalar size := by
  simp [scalar]

end RegisterField

namespace Operand

@[simp] theorem fitsVector_count (n : Nat) : (count n).FitsVector := trivial

@[simp] theorem fitsVector_float (x : Binary64) : (float x).FitsVector := trivial

@[simp] theorem fitsVector_condition (c : Condition) : (condition c).FitsVector := trivial

theorem FitsVector.eq_register {op : Operand} (h : op.FitsVector) {r : Register} (hr : r ∈ op.registers) :
    op = .register r := by
  cases op with
  | register q => simpa [registers, eq_comm] using hr
  | vector | element | count | float | condition => simp [registers, roles] at hr
  | shifted | extended | immediate | shiftedImmediate | memory | pcRelative | systemRegister
  | controlRegister | named => exact h.elim

end Operand

structure Form.FitsVector (f : Form) : Prop where
  operands : ∀ op ∈ f.operands, op.FitsVector
  counts : ∀ n, .count n ∈ f.operands → CountFits f.mnemonic f.operands n

theorem Form.fitsVector_plain {s : Spelling} (h : ∀ op ∈ s.operands, op.FitsVector)
    (hn : ∀ n, .count n ∉ s.operands) : (plain s).FitsVector :=
  ⟨h, fun n hmem => absurd hmem (hn n)⟩

theorem Form.fitsVector_unnamed (operation : Operation) : (unnamed operation).FitsVector :=
  fitsVector_plain (by simp) (by simp)

namespace Encoding

open Form

variable {w : Word} {f : Form}

theorem HashView.fitsVector_operand {view : HashView} (h : view.IsStandard) (n : RegisterField) :
    (view.operand n).FitsVector := by
  cases view with
  | scalar width => exact RegisterField.fitsVector_scalar.mpr h
  | words => exact RegisterField.fitsVector_lanes.mpr (by decide)

@[simp] theorem HashView.count_ne_operand (view : HashView) (n : RegisterField) (k : Nat) :
    .count k ≠ view.operand n := by
  cases view <;> simp [operand]

theorem CryptoEncoding.fitsVector (h : CryptoEncoding w f) : f.FitsVector := by
  have hbytes : Arrangement.b16.IsDivided := by decide
  have hwords : Arrangement.s4.IsDivided := by decide
  cases h with
  | cipher => exact fitsVector_plain (by simp [spelled, hbytes]) (by simp [spelled])
  | hashThree hn =>
    obtain ⟨hfirst, hsecond⟩ := isStandard_hashThree hn
    refine fitsVector_plain ?_ (by simp [spelled])
    simp [spelled, HashView.fitsVector_operand hfirst, HashView.fitsVector_operand hsecond, hwords]
  | hashTwo hn =>
    have hview := isStandard_hashTwo hn
    exact fitsVector_plain (by simp [spelled, HashView.fitsVector_operand hview]) (by simp [spelled])

theorem UpperHalfMove.fitsVector_form (e : UpperHalfMove) : e.form.FitsVector := by
  unfold form
  split <;> constructor <;> simp [spelled, ElementSize.bits]

theorem Conversion.isSoleGeneral_form (e : Conversion) :
    ∃ r, IsSoleGeneral e.form.operands r ∧ r.size = Register.width e.wide := by
  have hcount (q : Register) : .register q ∉ (e.fraction.map Operand.count).toList := by
    cases e.fraction <;> simp
  simp only [form]
  split
  · refine ⟨e.rd.gp e.wide, ⟨by simp [spelled], e.rd.kind_gp e.wide, fun q hq hkind => ?_⟩, by simp⟩
    simp only [spelled, List.mem_append, List.mem_cons, List.not_mem_nil, hcount, or_false,
      RegisterField.scalar, Operand.register.injEq] at hq
    rcases hq with hq | rfl
    · exact hq
    · exact absurd rfl hkind
  · refine ⟨e.rn.gp e.wide, ⟨by simp [spelled], e.rn.kind_gp e.wide, fun q hq hkind => ?_⟩, by simp⟩
    simp only [spelled, List.mem_append, List.mem_cons, List.not_mem_nil, hcount, or_false,
      RegisterField.scalar, Operand.register.injEq] at hq
    rcases hq with rfl | hq
    · exact absurd rfl hkind
    · exact hq

theorem Conversion.count_mem_form {e : Conversion} {n : Nat} :
    .count n ∈ e.form.operands ↔ e.fraction = some n := by
  have hcount : .count n ∈ (e.fraction.map Operand.count).toList ↔ e.fraction = some n := by
    cases e.fraction <;> simp [eq_comm]
  simp only [form]
  split <;> simp [spelled, hcount]

theorem Conversion.fitsVector_form {e : Conversion} (hw : Register.IsScalarWidth e.width)
    (hn : ∀ n ∈ e.fraction, e.mnemonic ∈ fixedPointNames ∧ 1 ≤ n ∧ n ≤ Register.width e.wide) :
    e.form.FitsVector := by
  constructor
  case operands =>
    simp only [form]
    split <;> cases e.fraction <;> simp [spelled, hw]
  case counts =>
    intro n hmem
    obtain ⟨hname, hpos, hle⟩ := hn n (count_mem_form.mp hmem)
    obtain ⟨r, hr, hsize⟩ := e.isSoleGeneral_form
    have hmnemonic : e.form.mnemonic = some e.mnemonic := by
      simp only [form]
      split <;> rfl
    exact .fraction (hmnemonic ▸ named_some.mpr hname) hr hpos (hsize ▸ hle)

theorem FloatEncoding.fitsVector (h : FloatEncoding w f) : f.FitsVector := by
  cases h with
  | upperHalfMove => exact UpperHalfMove.fitsVector_form _
  | conversion _ hw => exact Conversion.fitsVector_form (isScalarWidth_floatWidth hw) (by simp)
  | conditionalCompare hw =>
    have hwidth := isScalarWidth_floatWidth hw
    have hname : Named conditionalComparisonNames (some (if w.bit 4 then "fccmpe" else "fccmp")) := by
      split <;> simp [conditionalComparisonNames]
    constructor
    case operands => simp [floatConditionalCompare, spelled, hwidth]
    case counts =>
      intro n hmem
      have hn : n = (w.field 0 4).toNat := by simpa [floatConditionalCompare, spelled] using hmem
      exact .flags hname (hn ▸ (w.field 0 4).isLt)
  | select hw =>
    have hwidth := isScalarWidth_floatWidth hw
    constructor <;> simp [floatSelect, spelled, hwidth]
  | twoSource hw | oneSource hw | immediate hw =>
    have hwidth := isScalarWidth_floatWidth hw
    exact fitsVector_plain (by simp [spelled, hwidth]) (by simp [spelled])
  | precision hw _ hn =>
    have hwidth := isScalarWidth_floatWidth hw
    have htarget := isScalarWidth_convert hn
    exact fitsVector_plain (by simp [spelled, hwidth, htarget]) (by simp [spelled])
  | unknownOneSource => exact fitsVector_unnamed .floatArith
  | compare hw =>
    have hwidth := isScalarWidth_floatWidth hw
    constructor <;> cases w.bit 3 <;> simp [spelled, hwidth]

namespace LaneSelect

variable {l : LaneSelect}

/-- The bits above the one that tells the size hold the index, so a wider lane leaves fewer of them. -/
theorem index_lt_of_ofField? {b : BitVec 5} (h : ofField? b = some l) :
    l.sizeLog ≤ 3 ∧ l.index < 2 ^ (4 - l.sizeLog) := by
  unfold ofField? at h
  repeat' split at h
  case isFalse.isFalse.isFalse.isFalse => cases h
  all_goals
    cases h
    exact ⟨by simp, BitVec.isLt _⟩

theorem bits_size (h : l.sizeLog ≤ 3) : l.size.bits = 8 * 2 ^ l.sizeLog := by
  obtain ⟨sizeLog, index⟩ := l
  match sizeLog, h with
  | 0, _ | 1, _ | 2, _ | 3, _ => rfl

theorem index_mul_bits_lt (h : l.sizeLog ≤ 3) {index : Nat} (hi : index < 2 ^ (4 - l.sizeLog)) :
    index * l.size.bits < 128 := by
  have hpow : 2 ^ (4 - l.sizeLog) * 2 ^ l.sizeLog = 2 ^ 4 := by
    rw [← Nat.pow_add, Nat.sub_add_cancel (by omega)]
  have hlt : index * 2 ^ l.sizeLog < 2 ^ (4 - l.sizeLog) * 2 ^ l.sizeLog :=
    Nat.mul_lt_mul_of_pos_right hi (Nat.two_pow_pos _)
  calc index * l.size.bits = 8 * (index * 2 ^ l.sizeLog) := by rw [bits_size h, Nat.mul_left_comm]
    _ < 8 * 2 ^ 4 := by omega

/-- The source of an insertion has its index in the upper bits of a field of four. -/
theorem shiftRight_lt (h : l.sizeLog ≤ 3) (imm : BitVec 4) :
    imm.toNat >>> l.sizeLog < 2 ^ (4 - l.sizeLog) := by
  rw [Nat.shiftRight_eq_div_pow]
  apply Nat.div_lt_of_lt_mul
  rw [← Nat.pow_add, Nat.add_sub_cancel' (by omega)]
  exact imm.isLt

theorem isDivided_arrangement (h : l.sizeLog ≤ 3) {full : Bool} (hfull : l.sizeLog = 3 → full = true) :
    (l.arrangement full).IsDivided := by
  refine (Arrangement.isDivided_ofSize _ _).mpr fun hsize => hfull ?_
  have hvalue : l.sizeLog % 2 ^ 2 = 3 := congrArg BitVec.toNat hsize
  omega

end LaneSelect

theorem CopyEncoding.fitsVector {l : LaneSelect} (hl : LaneSelect.ofField? (w.field 16 5) = some l)
    (h : CopyEncoding w l f) : f.FitsVector := by
  obtain ⟨hsize, hindex⟩ := LaneSelect.index_lt_of_ofField? hl
  have hlane (n : RegisterField) : (l.operand n).FitsVector :=
    RegisterField.fitsVector_lane.mpr (LaneSelect.index_mul_bits_lt hsize hindex)
  have hcount (n : RegisterField) (k : Nat) : .count k ≠ l.operand n := n.count_ne_lane _ _ _
  cases h with
  | insert =>
    have hsource := LaneSelect.index_mul_bits_lt hsize (LaneSelect.shiftRight_lt hsize (w.field 11 4))
    exact fitsVector_plain (by simp [spelled, hlane, hsource]) (by simp [spelled, hcount])
  | duplicateLane hq =>
    have hdivided := LaneSelect.isDivided_arrangement hsize hq
    exact fitsVector_plain (by simp [spelled, hlane, hdivided]) (by simp [spelled, hcount])
  | duplicateGeneral hq =>
    have hdivided := LaneSelect.isDivided_arrangement hsize hq
    constructor <;> simp [spelled, hdivided]
  | fromGeneral => constructor <;> simp [generalToLane, spelled, hlane, hcount]
  | toGeneral => constructor <;> simp [spelled, hlane, hcount]

/-- Whatever an operation refuses beside it, it refuses a single lane of 64 bits. -/
theorem isReservedSize_single (opcode : BitVec 5) (unsigned : Bool) :
    isReservedSize opcode unsigned 3 false = true := by
  unfold isReservedSize
  repeat' split
  all_goals rfl

theorem isDivided_of_not_reserved {opcode : BitVec 5} {unsigned full : Bool} {size : BitVec 2}
    (h : isReservedSize opcode unsigned size full = false) :
    (Arrangement.ofSize size full).IsDivided := by
  refine (Arrangement.isDivided_ofSize _ _).mpr fun hsize => ?_
  by_contra hfull
  rw [hsize, Bool.eq_false_of_not_eq_true hfull, isReservedSize_single] at h
  cases h

theorem VectorUnary.isDivided_of_arrangement? {e : VectorUnary} {size : BitVec 2} {full : Bool}
    {a : Arrangement} (h : e.arrangement? size full = some a) : a.IsDivided := by
  unfold arrangement? at h
  split at h
  case h_1 =>
    split at h
    · cases h
    · next hsingle =>
      cases h
      exact (Arrangement.isDivided_ofSize _ _).mpr (by simpa using hsingle)
  case h_2 =>
    cases h
    exact (Arrangement.isDivided_ofSize _ _).mpr (by simp)
  case h_3 => exact Arrangement.isDivided_of_ofFloat? h

theorem VectorUnary.mnemonic_of_compareZero :
    ∀ e ∈ table, e.compareZero = true → e.mnemonic ∈ laneComparisonNames := by
  decide

theorem fitsVector_threeVectors {mnemonic : String} {arrangement : Arrangement}
    (h : arrangement.IsDivided) : (threeVectors w mnemonic arrangement).FitsVector :=
  fitsVector_plain (by simp [spelled, h]) (by simp [spelled])

theorem LanewiseEncoding.fitsVector (h : LanewiseEncoding w f) : f.FitsVector := by
  cases h with
  | bitwise =>
    have hdivided : (if w.bit 30 then .b16 else .b8 : Arrangement).IsDivided := by
      split <;> decide
    simp only [bitwiseForm]
    split
    · exact fitsVector_plain (by simp [spelled, hdivided]) (by simp [spelled])
    · exact fitsVector_threeVectors hdivided
  | floatThreeSame _ ha => exact fitsVector_threeVectors (Arrangement.isDivided_of_ofFloat? ha)
  | integerThreeSame _ hr => exact fitsVector_threeVectors (isDivided_of_not_reserved hr)
  | @twoRegister e _ he ha =>
    have hdivided := VectorUnary.isDivided_of_arrangement? ha
    cases hzero : e.compareZero with
    | false => exact fitsVector_plain (by simp [spelled, hdivided]) (by simp [spelled])
    | true =>
      have hname := VectorUnary.mnemonic_of_compareZero e (List.mem_of_find?_eq_some he) hzero
      refine ⟨by simp [spelled, plain, hdivided], fun n hmem => .zero (named_some.mpr hname) ?_⟩
      simpa [spelled, plain] using hmem
  | floatReduction =>
    have hwidth : Register.IsScalarWidth 32 := by simp [Register.IsScalarWidth]
    have hdivided : Arrangement.s4.IsDivided := by decide
    exact fitsVector_plain (by simp [spelled, hwidth, hdivided]) (by simp [spelled])
  | @integerReduction _ widening _ hs =>
    have hwidth := isScalarWidth_reduction widening hs
    have hdivided : (Arrangement.ofSize (w.field 22 2) (w.bit 30)).IsDivided := by
      refine (Arrangement.isDivided_ofSize _ _).mpr fun hsize => ?_
      simp [hsize] at hs
    refine fitsVector_plain ?_ (by simp [spelled])
    simp only [spelled, List.forall_mem_cons]
    exact ⟨RegisterField.fitsVector_scalar.mpr hwidth, RegisterField.fitsVector_lanes.mpr hdivided, by simp⟩
  | unknown => exact fitsVector_unnamed .vector

theorem mem_fixedPointNames {mode : BitVec 2} {opcode : BitVec 3} {op : ConversionOp}
    (h : fixedConversion mode opcode = .ok op) : op.mnemonic ∈ fixedPointNames := by
  unfold fixedConversion at h
  split at h
  case h_5 => simp at h
  all_goals
    cases h
    decide

theorem VectorEncoding.fitsVector (h : VectorEncoding w f) : f.FitsVector := by
  cases h with
  | crypto hf => exact hf.fitsVector
  | float hf => exact hf.fitsVector
  | fixedConversion hs hw ho =>
    refine Conversion.fitsVector_form (isScalarWidth_floatWidth hw) fun n hn => ?_
    have hlt := (w.field 10 6).isLt
    have hvalue : n = 64 - (w.field 10 6).toNat := by simpa [eq_comm] using hn
    refine ⟨mem_fixedPointNames ho, by omega, ?_⟩
    cases hwide : w.bit 31 with
    | true =>
      simp only [Register.width, if_true]
      omega
    | false =>
      have hscale := hs.resolve_left (by simp [hwide])
      simp only [Register.width, Bool.false_eq_true, if_false]
      omega
  | floatThreeSource hw =>
    have hwidth := isScalarWidth_floatWidth hw
    exact fitsVector_plain (by simp [spelled, hwidth]) (by simp [spelled])
  | copy hl hf => exact hf.fitsVector hl
  | lanewise hf => exact hf.fitsVector

end Encoding

/-- The operands of an instruction on vectors or floating point fit, its counts are told by its name, and it
touches the general registers among its operands and no others. -/
structure Instruction.FitsVector (i : Instruction) : Prop where
  operands : ∀ op ∈ i.operands, op.FitsVector
  counts : ∀ n, .count n ∈ i.operands → CountFits i.mnemonic i.operands n
  registers : ∀ n, i.Touches n ↔ NamesData i.operands n

theorem Instruction.names_iff_namesData {i : Instruction} (h : ∀ op ∈ i.operands, op.FitsVector) (n : Nat) :
    i.Names n ↔ NamesData i.operands n := by
  constructor
  · rintro ⟨op, hop, r, hr, hg, rfl⟩
    obtain rfl := (h op hop).eq_register hr
    exact ⟨r, hop, hg, rfl⟩
  · rintro ⟨r, hr, hg, rfl⟩
    exact ⟨.register r, hr, r, by simp [Operand.registers], hg, rfl⟩

/-- Decoded instructions on vectors and floating point have only operands that fit. -/
theorem fitsVector_of_decode {w : Word} {a : Address} {i : Instruction}
    (hc : EncodingClass.ofWord w = .simdFloat) (hd : decode w a = .ok i) : i.FitsVector := by
  have hexpressible := isExpressible_of_decode hd
  obtain ⟨f, -, he, rfl⟩ := Encoding.decode_eq_ok hd
  rw [hc] at he
  cases he with
  | vector h =>
    have hfits := h.fitsVector
    have hplace : (f.place w a).operands = f.operands := by simp [Form.place, h.reference_eq_none]
    have hoperands : ∀ op ∈ (f.place w a).operands, op.FitsVector := hplace ▸ hfits.operands
    constructor
    case operands => exact hoperands
    case counts => exact hplace ▸ hfits.counts
    case registers =>
      intro n
      have htouches : f.Touches n ↔ f.Names n := by simpa using h.accounts.touches n
      change f.Touches n ↔ _
      rw [htouches, ← Form.names_place hexpressible, Instruction.names_iff_namesData hoperands]

/-- A move between the highest lanes of two vectors, and a conversion with as many fraction bits as its general
register has. -/
theorem fitsVector_of_scvtf :
    (∃ i, EncodingClass.ofWord 0x6E184441 = .simdFloat ∧ decode 0x6E184441 0 = .ok i ∧
      i.operands = [.element 1 .d 1, .element 2 .d 1] ∧ i.FitsVector) ∧
    ∃ i, EncodingClass.ofWord 0x1E028020 = .simdFloat ∧ decode 0x1E028020 0 = .ok i ∧
      i.operands = [.register (.float 32 0), .register (.w 1), .count 32] ∧ i.FitsVector :=
  ⟨⟨_, by decide, rfl, rfl, fitsVector_of_decode (w := 0x6E184441) (a := 0) (by decide) rfl⟩,
    ⟨_, by decide, rfl, rfl, fitsVector_of_decode (w := 0x1E028020) (a := 0) (by decide) rfl⟩⟩

end A64
