import Mathlib.Algebra.Group.Nat.Defs
import A64.Bitmask

/-! Which values are bitmask immediates. A bitmask repeats an element whose one bits are a single run on
the circle of its bits. Main statement: the fields encode exactly these values, and a value leaves open
only by how many whole turns its element was rotated. -/

namespace A64

namespace Bitmask

section Runs

/-- Bit `i` of a pattern that has `ones` ones in every `size` bits, moved down by `turn`. -/
def inRun (size ones turn i : Nat) : Bool := decide ((i + turn) % size < ones)

variable {size ones turn size' ones' turn' : Nat}

theorem inRun_mod (i : Nat) : inRun size ones turn (i % size) = inRun size ones turn i := by
  rw [inRun, inRun, Nat.mod_add_mod]

theorem inRun_add_size (i : Nat) : inRun size ones turn (i + size) = inRun size ones turn i := by
  rw [inRun, inRun, Nat.add_right_comm, Nat.add_mod_right]

theorem inRun_turn_mod (i : Nat) : inRun size ones (turn % size) i = inRun size ones turn i := by
  rw [inRun, inRun, Nat.add_mod_mod]

/-- Two patterns that agree on one round of the longer one agree everywhere. -/
theorem inRun_eq_of_lt (hdvd : size ∣ size') (hpos : 0 < size')
    (h : ∀ i < size', inRun size ones turn i = inRun size' ones' turn' i) (i : Nat) :
    inRun size ones turn i = inRun size' ones' turn' i := by
  have hround := h (i % size') (Nat.mod_lt i hpos)
  rw [← inRun_mod, Nat.mod_mod_of_dvd i hdvd, inRun_mod, inRun_mod] at hround
  exact hround

theorem inRun_from_start (hpos : 0 < size) (x : Nat) :
    inRun size ones turn (x + (size - turn % size)) = decide (x % size < ones) := by
  have hturn := Nat.div_add_mod turn size
  have hmod := Nat.mod_lt turn hpos
  have heq : x + (size - turn % size) + turn = x + size * (turn / size + 1) := by
    rw [Nat.mul_add]
    omega
  rw [inRun, heq, Nat.add_mul_mod_self_left]

/-- A pattern has no shorter period than its size: the end of its run would be inside the run of the
round before. -/
theorem not_two_mul_le (hpos : 0 < ones) (hlt : ones < size) {period : Nat} (hperiod : 0 < period)
    (h : ∀ i, inRun size ones turn (i + period) = inRun size ones turn i) : ¬2 * period ≤ size := by
  intro hle
  have hshift (x : Nat) : decide ((x + period) % size < ones) = decide (x % size < ones) := by
    have hx := h (x + (size - turn % size))
    rwa [Nat.add_right_comm, inRun_from_start (by omega), inRun_from_start (by omega)] at hx
  have hfirst := hshift (size - period)
  rw [Nat.sub_add_cancel (by omega), Nat.mod_self, Nat.mod_eq_of_lt (by omega)] at hfirst
  have hlong : size - period < ones := of_decide_eq_true (hfirst.symm.trans (decide_eq_true hpos))
  have hend := hshift (ones - period)
  rw [Nat.sub_add_cancel (by omega), Nat.mod_eq_of_lt hlt, Nat.mod_eq_of_lt (by omega)] at hend
  have hin : ones - period < ones := by omega
  rw [decide_eq_true hin, decide_eq_true_iff] at hend
  omega

/-- Patterns of one size agree only if they have the same run and differ by whole turns. -/
theorem inRun_inj (hpos : 0 < ones) (hlt : ones < size) (hpos' : 0 < ones') (hlt' : ones' < size)
    (h : ∀ i, inRun size ones turn i = inRun size ones' turn' i) :
    ones = ones' ∧ turn % size = turn' % size := by
  have hsize : 0 < size := by omega
  have hmod := Nat.mod_lt turn hsize
  -- The second run starts `d` bits after the first one.
  obtain ⟨d, hd⟩ : ∃ d, d = (size - turn % size + turn') % size := ⟨_, rfl⟩
  have hstart (x : Nat) : x % size < ones ↔ (x + d) % size < ones' := by
    have hx := h (x + (size - turn % size))
    rw [inRun_from_start hsize, inRun, decide_eq_decide, Nat.add_assoc, ← Nat.add_mod_mod, ← hd] at hx
    exact hx
  have hzero : d = 0 := by
    have hlt : d < size := hd ▸ Nat.mod_lt _ hsize
    have hfirst := hstart 0
    have hbefore := hstart (size - 1)
    rw [Nat.zero_mod, Nat.zero_add, Nat.mod_eq_of_lt hlt] at hfirst
    rw [Nat.mod_eq_of_lt (by omega)] at hbefore
    refine Decidable.byContradiction fun hne => ?_
    have hprev : (size - 1 + d) % size = d - 1 := by
      rw [show size - 1 + d = d - 1 + size by omega, Nat.add_mod_right, Nat.mod_eq_of_lt (by omega)]
    omega
  subst hzero
  constructor
  · have hend := hstart ones
    have hend' := hstart ones'
    rw [Nat.add_zero, Nat.mod_eq_of_lt hlt] at hend
    rw [Nat.add_zero, Nat.mod_eq_of_lt hlt'] at hend'
    omega
  · have hturn' := Nat.div_add_mod turn' size
    have hmod' := Nat.mod_lt turn' hsize
    rw [← Nat.add_mod_mod] at hd
    by_cases hle : turn % size ≤ turn' % size
    · rw [show size - turn % size + turn' % size = turn' % size - turn % size + size by omega,
        Nat.add_mod_right, Nat.mod_eq_of_lt (by omega)] at hd
      omega
    · rw [Nat.mod_eq_of_lt (by omega)] at hd
      omega

/-- Two patterns of which one is longer differ somewhere in a round of the longer one. -/
theorem not_lt_of_agree {k k' : Nat} (hsize : 0 < ones') (hlt : ones' < 2 ^ k')
    (h : ∀ i < 2 ^ k', inRun (2 ^ k) ones turn i = inRun (2 ^ k') ones' turn' i) : ¬k < k' := by
  intro hk
  have hall := inRun_eq_of_lt (Nat.pow_dvd_pow 2 (Nat.le_of_lt hk)) (Nat.two_pow_pos k') h
  have hperiod (i : Nat) :
      inRun (2 ^ k') ones' turn' (i + 2 ^ k) = inRun (2 ^ k') ones' turn' i := by
    rw [← hall, ← hall, inRun_add_size]
  apply not_two_mul_le hsize hlt (Nat.two_pow_pos k) hperiod
  calc 2 * 2 ^ k = 2 ^ (k + 1) := by rw [Nat.pow_succ, Nat.mul_comm]
    _ ≤ 2 ^ k' := Nat.pow_le_pow_right (Nat.le_succ 1) hk

/-- The size of a pattern and its run can be read off any stretch that holds a whole round. -/
theorem pattern_inj {k k' width : Nat} (hpos : 0 < ones) (hlt : ones < 2 ^ k) (hle : 2 ^ k ≤ width)
    (hpos' : 0 < ones') (hlt' : ones' < 2 ^ k') (hle' : 2 ^ k' ≤ width)
    (h : ∀ i < width, inRun (2 ^ k) ones turn i = inRun (2 ^ k') ones' turn' i) :
    k = k' ∧ ones = ones' ∧ turn % 2 ^ k = turn' % 2 ^ k := by
  have hge := not_lt_of_agree (k := k) hpos' hlt' fun i hi => h i (by omega)
  have hge' := not_lt_of_agree (k := k') hpos hlt fun i hi => (h i (by omega)).symm
  obtain rfl : k = k' := by omega
  have hall := inRun_eq_of_lt (Nat.dvd_refl _) (Nat.two_pow_pos k) fun i hi => h i (by omega)
  exact ⟨rfl, inRun_inj hpos hlt hpos' hlt' hall⟩

end Runs

def elementSizes : List Nat := [2, 4, 8, 16, 32, 64]

/-- The one bits of an element are a single run on the circle of its bits: `ones` bits from bit `start`
upwards, the bit after the highest one being the lowest. -/
def IsRun {size : Nat} (x : BitVec size) (start ones : Nat) : Prop :=
  ∀ i < size, x.getLsbD i = true ↔ ∃ j < ones, i = (start + j) % size

/-- The value is made of copies of an element of `size` bits, of which some but not all are ones, in a
single run. -/
def IsCopied {width : Nat} (size : Nat) (v : BitVec width) : Prop :=
  ∃ (x : BitVec size) (start ones : Nat), 0 < ones ∧ ones < size ∧ IsRun x start ones ∧
    ∀ i < width, v.getLsbD i = x.getLsbD (i % size)

def IsMask {width : Nat} (v : BitVec width) : Prop :=
  ∃ size ∈ elementSizes, size ≤ width ∧ IsCopied size v

theorem mem_elementSizes {n : Nat} : n ∈ elementSizes ↔ ∃ k, 1 ≤ k ∧ k ≤ 6 ∧ n = 2 ^ k := by
  constructor
  · intro h
    simp only [elementSizes, List.mem_cons, List.not_mem_nil, or_false] at h
    rcases h with rfl | rfl | rfl | rfl | rfl | rfl
    · exact ⟨1, by decide⟩
    · exact ⟨2, by decide⟩
    · exact ⟨3, by decide⟩
    · exact ⟨4, by decide⟩
    · exact ⟨5, by decide⟩
    · exact ⟨6, by decide⟩
  · rintro ⟨k, hlo, hhi, rfl⟩
    have hall : ∀ k < 7, 1 ≤ k → 2 ^ k ∈ elementSizes := by decide
    exact hall k (by omega) hlo

theorem inRun_iff_exists {size ones start i : Nat} (hones : ones ≤ size) (hi : i < size) :
    inRun size ones (size - start % size) i = true ↔ ∃ j < ones, i = (start + j) % size := by
  have hsize : 0 < size := by omega
  have hmod := Nat.mod_lt start hsize
  rw [inRun, decide_eq_true_iff]
  constructor
  · intro h
    refine ⟨_, h, ?_⟩
    rw [Nat.add_mod_mod, ← Nat.mod_add_mod,
      show start % size + (i + (size - start % size)) = i + size by omega, Nat.add_mod_right,
      Nat.mod_eq_of_lt hi]
  · rintro ⟨j, hj, rfl⟩
    rw [Nat.mod_add_mod, show start + j + (size - start % size) =
      j + size * (start / size + 1) by have := Nat.div_add_mod start size; rw [Nat.mul_add]; omega,
      Nat.add_mul_mod_self_left, Nat.mod_eq_of_lt (by omega)]
    exact hj

theorem getLsbD_element {size ones r i : Nat} (hi : i < size) :
    (element size ones r).getLsbD i = inRun size ones r i := by
  have hmod := Nat.mod_lt r (Nat.zero_lt_of_lt hi)
  have hones (j : Nat) (hj : j < size) :
      (BitVec.ofNat size ((1 <<< ones) - 1)).getLsbD j = decide (j < ones) := by
    rw [BitVec.getLsbD_ofNat, Nat.one_shiftLeft, Nat.testBit_two_pow_sub_one, decide_eq_true hj,
      Bool.true_and]
  rw [element, BitVec.getLsbD_rotateRight, ← inRun_turn_mod, inRun]
  by_cases hlow : i < size - r % size
  · rw [decide_eq_true hlow, cond_true, hones _ (by omega), Nat.add_comm i,
      Nat.mod_eq_of_lt (show r % size + i < size by omega)]
  · rw [decide_eq_false hlow, cond_false, decide_eq_true hi, Bool.true_and, hones _ (by omega),
      show i + r % size = i - (size - r % size) + size by omega, Nat.add_mod_right,
      Nat.mod_eq_of_lt (show i - (size - r % size) < size by omega)]

theorem isRun_element {size ones r : Nat} (hones : ones ≤ size) :
    IsRun (element size ones r) (size - r % size) ones := by
  intro i hi
  have hsize := Nat.zero_lt_of_lt hi
  have hmod := Nat.mod_lt r hsize
  have hturn : (size - (size - r % size) % size) % size = r % size := by
    by_cases hr : r % size = 0
    · rw [hr, Nat.sub_zero, Nat.mod_self, Nat.sub_zero, Nat.mod_self]
    · rw [Nat.mod_eq_of_lt (show size - r % size < size by omega), Nat.sub_sub_self (by omega),
        Nat.mod_eq_of_lt hmod]
  rw [getLsbD_element hi, ← inRun_iff_exists hones hi, ← inRun_turn_mod,
    ← @inRun_turn_mod _ _ (size - _), hturn]

theorem isCopied_iff {width size : Nat} {v : BitVec width} :
    IsCopied size v ↔ ∃ ones turn, 0 < ones ∧ ones < size ∧
      ∀ i < width, v.getLsbD i = inRun size ones turn i := by
  constructor
  · rintro ⟨x, start, ones, hpos, hlt, hrun, hcopies⟩
    refine ⟨ones, size - start % size, hpos, hlt, fun i hi => ?_⟩
    have hmod := Nat.mod_lt i (Nat.zero_lt_of_lt hlt)
    rw [hcopies i hi, Bool.eq_iff_iff, hrun _ hmod, ← inRun_mod,
      inRun_iff_exists (Nat.le_of_lt hlt) hmod]
  · rintro ⟨ones, turn, hpos, hlt, h⟩
    refine ⟨element size ones turn, size - turn % size, ones, hpos, hlt,
      isRun_element (Nat.le_of_lt hlt), fun i hi => ?_⟩
    rw [h i hi, getLsbD_element (Nat.mod_lt i (Nat.zero_lt_of_lt hlt)), inRun_mod]

section Fields

variable {wide : Bool} {m m' : Bitmask} {k : Nat} {v : BitVec 64}

theorem toNat_sizeField (m : Bitmask) :
    (m.n ++ ~~~m.imms).toNat = 64 * m.n.toNat + (63 - m.imms.toNat) := by
  have hlow : 63 - m.imms.toNat < 2 ^ 6 := by omega
  rw [BitVec.toNat_append, BitVec.toNat_not, ← Nat.shiftLeft_add_eq_or_of_lt hlow, Nat.shiftLeft_eq,
    Nat.mul_comm]

/-- The size is that of the highest set bit; in a narrow register it is at most 32 bits. -/
theorem sizeLog?_eq_some :
    m.sizeLog? wide = some k ↔ 1 ≤ k ∧ (wide = false → k ≤ 5) ∧
      2 ^ k ≤ 64 * m.n.toNat + (63 - m.imms.toNat) ∧
      64 * m.n.toNat + (63 - m.imms.toNat) < 2 ^ (k + 1) := by
  have hc := toNat_sizeField m
  have hn := m.n.isLt
  have himms := m.imms.isLt
  simp only [sizeLog?, hc]
  obtain ⟨c, hdef⟩ : ∃ c, c = 64 * m.n.toNat + (63 - m.imms.toNat) := ⟨_, rfl⟩
  rw [← hdef]
  by_cases hzero : c = 0
  · simp [hzero]
  · have hlog := Nat.log2_eq_iff (k := k) hzero
    have htwo : 1 ≤ c.log2 ↔ 2 ≤ c := Nat.le_log2 hzero
    cases wide <;> grind

theorem sizeLog?_le (h : m.sizeLog? wide = some k) : k ≤ 6 := by
  obtain ⟨-, -, hle, -⟩ := sizeLog?_eq_some.mp h
  have hn := m.n.isLt
  have hpow : 2 ^ k < 2 ^ 7 := by omega
  have hlt := (Nat.pow_lt_pow_iff_right (Nat.lt_succ_self 1)).mp hpow
  omega

theorem size_dvd_width (h : m.sizeLog? wide = some k) : 2 ^ k ∣ Register.width wide := by
  have hle := sizeLog?_le h
  obtain ⟨-, hnarrow, -⟩ := sizeLog?_eq_some.mp h
  cases wide with
  | false => exact Nat.pow_dvd_pow 2 (hnarrow rfl)
  | true => exact Nat.pow_dvd_pow 2 hle

theorem size_le_width (h : m.sizeLog? wide = some k) : 2 ^ k ≤ Register.width wide :=
  Nat.le_of_dvd (by cases wide <;> decide) (size_dvd_width h)

theorem value?_eq_some :
    m.value? wide = some v ↔ ∃ k, m.sizeLog? wide = some k ∧ m.imms.toNat % 2 ^ k + 1 < 2 ^ k ∧
      ∀ i < 64, v.getLsbD i = (decide (i < Register.width wide) &&
        inRun (2 ^ k) (m.imms.toNat % 2 ^ k + 1) m.immr.toNat i) := by
  rw [value?, Option.bind_eq_some_iff]
  refine exists_congr fun k => and_congr_right fun hk => ?_
  have hsize : 1 <<< k = 2 ^ k := Nat.one_shiftLeft k
  have hpos := Nat.two_pow_pos k
  have hmod := Nat.mod_lt m.imms.toNat hpos
  have hbits (i : Nat) (hi : i < 64) :
      (((element (1 <<< k) (m.imms.toNat % 1 <<< k + 1) (m.immr.toNat % 1 <<< k)).replicate
        (Register.width wide / 1 <<< k)).setWidth 64).getLsbD i =
      (decide (i < Register.width wide) &&
        inRun (2 ^ k) (m.imms.toNat % 2 ^ k + 1) m.immr.toNat i) := by
    rw [BitVec.getLsbD_setWidth, BitVec.getLsbD_replicate, decide_eq_true hi, Bool.true_and,
      getLsbD_element (Nat.mod_lt i (hsize ▸ hpos)), inRun_mod, hsize, inRun_turn_mod,
      Nat.mul_div_cancel' (size_dvd_width hk)]
  rw [hsize] at hbits ⊢
  by_cases hfull : m.imms.toNat % 2 ^ k + 1 = 2 ^ k
  · simp [hfull]
  · rw [if_neg hfull, Option.some.injEq]
    constructor
    · rintro rfl
      exact ⟨by omega, hbits⟩
    · rintro ⟨-, hv⟩
      apply BitVec.eq_of_getLsbD_eq
      intro i hi
      rw [hbits i hi, hv i hi]

/-- The fields of an element of `2 ^ k` bits with `ones` ones, rotated right by `turn`. -/
def ofPattern (k ones turn : Nat) : Bitmask where
  n := BitVec.ofNat 1 (k / 6)
  imms := BitVec.ofNat 6 (64 - 2 ^ (k + 1) + (ones - 1))
  immr := BitVec.ofNat 6 turn

theorem fields_ofPattern {ones : Nat} (turn : Nat) (hlo : 1 ≤ k) (hhi : k ≤ 6)
    (hnarrow : wide = false → k ≤ 5) (hpos : 0 < ones) (hlt : ones < 2 ^ k) :
    (ofPattern k ones turn).sizeLog? wide = some k ∧
      (ofPattern k ones turn).imms.toNat % 2 ^ k + 1 = ones := by
  have hk : k = 1 ∨ k = 2 ∨ k = 3 ∨ k = 4 ∨ k = 5 ∨ k = 6 := by omega
  rw [sizeLog?_eq_some]
  refine ⟨⟨hlo, hnarrow, ?_⟩, ?_⟩ <;>
    rcases hk with rfl | rfl | rfl | rfl | rfl | rfl <;>
    simp only [ofPattern, BitVec.toNat_ofNat] <;> omega

theorem fields_inj (hk : m.sizeLog? wide = some k) (hk' : m'.sizeLog? wide = some k)
    (hones : m.imms.toNat % 2 ^ k = m'.imms.toNat % 2 ^ k) : m.n = m'.n ∧ m.imms = m'.imms := by
  have hle := sizeLog?_le hk
  obtain ⟨hlo, -, hge, hlt⟩ := sizeLog?_eq_some.mp hk
  obtain ⟨-, -, hge', hlt'⟩ := sizeLog?_eq_some.mp hk'
  have hn := m.n.isLt
  have hn' := m'.n.isLt
  have himms := m.imms.isLt
  have himms' := m'.imms.isLt
  have hcases : k = 1 ∨ k = 2 ∨ k = 3 ∨ k = 4 ∨ k = 5 ∨ k = 6 := by omega
  constructor <;> apply BitVec.eq_of_toNat_eq <;>
    rcases hcases with rfl | rfl | rfl | rfl | rfl | rfl <;> omega

theorem width_le (wide : Bool) : Register.width wide ≤ 64 := by cases wide <;> decide

theorem setWidth_of_value? (h : m.value? wide = some v) :
    (v.setWidth (Register.width wide)).setWidth 64 = v := by
  obtain ⟨k, -, -, hv⟩ := value?_eq_some.mp h
  apply BitVec.eq_of_getLsbD_eq
  intro i hi
  rw [BitVec.getLsbD_setWidth, BitVec.getLsbD_setWidth, hv i hi, decide_eq_true hi]
  by_cases hw : i < Register.width wide <;> simp [hw]

theorem isCopied_of_value? (h : m.value? wide = some v) :
    ∃ k, m.sizeLog? wide = some k ∧ IsCopied (2 ^ k) (v.setWidth (Register.width wide)) := by
  obtain ⟨k, hk, hlt, hv⟩ := value?_eq_some.mp h
  have hwidth := width_le wide
  refine ⟨k, hk, isCopied_iff.mpr ⟨_, m.immr.toNat, Nat.succ_pos _, hlt, fun i hi => ?_⟩⟩
  rw [BitVec.getLsbD_setWidth, hv i (by omega), decide_eq_true hi, Bool.true_and, Bool.true_and]

theorem isMask_of_value? (h : m.value? wide = some v) : IsMask (v.setWidth (Register.width wide)) := by
  obtain ⟨k, hk, hcopied⟩ := isCopied_of_value? h
  obtain ⟨hlo, -⟩ := sizeLog?_eq_some.mp hk
  exact ⟨2 ^ k, mem_elementSizes.mpr ⟨k, hlo, sizeLog?_le hk, rfl⟩, size_le_width hk, hcopied⟩

theorem exists_value?_of_isMask {v : BitVec (Register.width wide)} (h : IsMask v) :
    ∃ m : Bitmask, m.value? wide = some (v.setWidth 64) := by
  obtain ⟨size, hsize, hle, hcopied⟩ := h
  obtain ⟨k, hlo, hhi, rfl⟩ := mem_elementSizes.mp hsize
  obtain ⟨ones, turn, hpos, hlt, hv⟩ := isCopied_iff.mp hcopied
  have hnarrow : wide = false → k ≤ 5 := by
    rintro rfl
    exact (Nat.pow_le_pow_iff_right (Nat.lt_succ_self 1)).mp hle
  -- A rotation by less than the size fits its field.
  obtain ⟨hk, hones⟩ := fields_ofPattern (turn % 2 ^ k) hlo hhi hnarrow hpos hlt
  have hturn : (ofPattern k ones (turn % 2 ^ k)).immr.toNat = turn % 2 ^ k := by
    have hpow : 2 ^ k ≤ 2 ^ 6 := Nat.pow_le_pow_right (Nat.le_succ 1) hhi
    have hmod := Nat.mod_lt turn (Nat.two_pow_pos k)
    rw [ofPattern, BitVec.toNat_ofNat, Nat.mod_eq_of_lt (by omega)]
  refine ⟨_, value?_eq_some.mpr ⟨k, hk, by rwa [hones], fun i hi => ?_⟩⟩
  rw [hones, hturn, inRun_turn_mod, BitVec.getLsbD_setWidth, decide_eq_true hi, Bool.true_and]
  by_cases hw : i < Register.width wide
  · rw [decide_eq_true hw, Bool.true_and, hv i hw]
  · rw [decide_eq_false hw, Bool.false_and, BitVec.getLsbD_of_ge v i (by omega)]

theorem eq_of_value? (h : m.value? wide = some v) (h' : m'.value? wide = some v) :
    m.n = m'.n ∧ m.imms = m'.imms ∧
      ∃ k, m.sizeLog? wide = some k ∧ m.immr.toNat % 2 ^ k = m'.immr.toNat % 2 ^ k := by
  obtain ⟨k, hk, hlt, hv⟩ := value?_eq_some.mp h
  obtain ⟨k', hk', hlt', hv'⟩ := value?_eq_some.mp h'
  have hagree (i : Nat) (hi : i < Register.width wide) :
      inRun (2 ^ k) (m.imms.toNat % 2 ^ k + 1) m.immr.toNat i =
        inRun (2 ^ k') (m'.imms.toNat % 2 ^ k' + 1) m'.immr.toNat i := by
    have hi' := Nat.lt_of_lt_of_le hi (width_le wide)
    have hbit := (hv i hi').symm.trans (hv' i hi')
    rwa [decide_eq_true hi, Bool.true_and, Bool.true_and] at hbit
  obtain ⟨rfl, hones, hturn⟩ := pattern_inj (Nat.succ_pos _) hlt (size_le_width hk)
    (Nat.succ_pos _) hlt' (size_le_width hk') hagree
  obtain ⟨hn, himms⟩ := fields_inj hk hk' (Nat.succ.inj hones)
  exact ⟨hn, himms, k, hk, hturn⟩

end Fields

section Masks

variable {width : Nat} {v : BitVec width}

theorem IsMask.exists_bits (h : IsMask v) :
    (∃ i < width, v.getLsbD i = true) ∧ ∃ i < width, v.getLsbD i = false := by
  obtain ⟨size, -, hle, hcopied⟩ := h
  obtain ⟨ones, turn, hpos, hlt, hv⟩ := isCopied_iff.mp hcopied
  have hsize : 0 < size := by omega
  have hbit (x : Nat) : ∃ i < width, v.getLsbD i = decide (x % size < ones) := by
    have hmod := Nat.mod_lt (x + (size - turn % size)) hsize
    refine ⟨_, Nat.lt_of_lt_of_le hmod hle, ?_⟩
    rw [hv _ (Nat.lt_of_lt_of_le hmod hle), inRun_mod, inRun_from_start hsize]
  constructor
  · obtain ⟨i, hi, h⟩ := hbit 0
    exact ⟨i, hi, h.trans (by simp [hpos])⟩
  · obtain ⟨i, hi, h⟩ := hbit ones
    exact ⟨i, hi, h.trans (by simp [Nat.mod_eq_of_lt hlt])⟩

theorem IsMask.ne_zero (h : IsMask v) : v ≠ 0 := by
  obtain ⟨⟨i, -, hi⟩, -⟩ := h.exists_bits
  rintro rfl
  simp at hi

theorem IsMask.ne_allOnes (h : IsMask v) : v ≠ BitVec.allOnes width := by
  obtain ⟨-, ⟨i, hlt, hi⟩⟩ := h.exists_bits
  rintro rfl
  simp [hlt] at hi

theorem IsCopied.size_unique {k size : Nat} (hle : 2 ^ k ≤ width) (h : IsCopied (2 ^ k) v)
    (hsize : size ∈ elementSizes) (hle' : size ≤ width) (h' : IsCopied size v) : size = 2 ^ k := by
  obtain ⟨k', -, -, rfl⟩ := mem_elementSizes.mp hsize
  obtain ⟨ones, turn, hpos, hlt, hv⟩ := isCopied_iff.mp h
  obtain ⟨ones', turn', hpos', hlt', hv'⟩ := isCopied_iff.mp h'
  obtain ⟨rfl, -⟩ := pattern_inj hpos hlt hle hpos' hlt' hle' fun i hi => by
    rw [← hv i hi, ← hv' i hi]
  rfl

end Masks

/-- In a register of either width, the fields encode exactly the masks of that width. A value that they
encode fits the register and is neither zero nor all ones; and fields that encode the same value agree in
`n` and `imms`, and in `immr` up to whole turns of the element. -/
theorem value?_exact (wide : Bool) :
    (∀ v : BitVec (Register.width wide),
      (∃ m : Bitmask, m.value? wide = some (v.setWidth 64)) ↔ IsMask v) ∧
    (∀ (m : Bitmask) (v : BitVec 64), m.value? wide = some v →
      v.toNat < 2 ^ Register.width wide ∧ IsMask (v.setWidth (Register.width wide)) ∧
        v.setWidth (Register.width wide) ≠ 0 ∧
        v.setWidth (Register.width wide) ≠ BitVec.allOnes (Register.width wide)) ∧
    ∀ (m m' : Bitmask) (v : BitVec 64), m.value? wide = some v → m'.value? wide = some v →
      m.n = m'.n ∧ m.imms = m'.imms ∧
        ∀ size ∈ elementSizes, size ≤ Register.width wide →
          IsCopied size (v.setWidth (Register.width wide)) →
          m.immr.toNat % size = m'.immr.toNat % size := by
  refine ⟨fun v => ⟨?_, exists_value?_of_isMask⟩, fun m v h => ?_, fun m m' v h h' => ?_⟩
  · rintro ⟨m, hm⟩
    have hmask := isMask_of_value? hm
    rwa [BitVec.setWidth_setWidth_of_le v (width_le wide), BitVec.setWidth_eq] at hmask
  · have hmask := isMask_of_value? h
    refine ⟨?_, hmask, hmask.ne_zero, hmask.ne_allOnes⟩
    rw [← setWidth_of_value? h, BitVec.toNat_setWidth]
    exact Nat.lt_of_le_of_lt (Nat.mod_le _ _) (BitVec.isLt _)
  · obtain ⟨hn, himms, k, hk, hturn⟩ := eq_of_value? h h'
    obtain ⟨k', hk', hcopied'⟩ := isCopied_of_value? h
    obtain rfl : k = k' := Option.some.inj (hk.symm.trans hk')
    refine ⟨hn, himms, fun size hsize hle hcopied => ?_⟩
    rw [hcopied'.size_unique (size_le_width hk) hsize hle hcopied]
    exact hturn

/-- Rotations by 16 and by 48 bits are the same for an element of 32 bits. -/
theorem value?_exact_two_turns :
    value? true ⟨0, 0b001111, 16⟩ = some 0xFFFF0000FFFF0000 ∧
      value? true ⟨0, 0b001111, 48⟩ = some 0xFFFF0000FFFF0000 ∧
      IsMask (0xFFFF0000FFFF0000 : BitVec 64) ∧
      IsCopied 32 (0xFFFF0000FFFF0000 : BitVec 64) ∧ 16 % 32 = 48 % 32 := by
  have hvalue : value? true ⟨0, 0b001111, 16⟩ = some 0xFFFF0000FFFF0000 := by decide +kernel
  have hvalue' : value? true ⟨0, 0b001111, 48⟩ = some 0xFFFF0000FFFF0000 := by decide +kernel
  obtain ⟨-, hmask, -, -⟩ := (value?_exact true).2.1 _ _ hvalue
  have hcopied : IsCopied 32 (0xFFFF0000FFFF0000 : BitVec 64) := by
    obtain ⟨k, hk, hcopied⟩ := isCopied_of_value? hvalue
    obtain rfl : 5 = k := Option.some.inj hk
    exact hcopied
  exact ⟨hvalue, hvalue', hmask, hcopied,
    ((value?_exact true).2.2 _ _ _ hvalue hvalue').2.2 32 (by decide) (by decide) hcopied⟩

end Bitmask

end A64
