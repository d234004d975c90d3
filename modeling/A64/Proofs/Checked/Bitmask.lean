import A64.Proofs.Bitmasks
import A64.Proofs.Checked

/-! The value of a bitmask immediate worked out with checked arithmetic, copy after copy. Main statement:
there is no fault, and the value is the one of the fields. -/

namespace A64.Bitmask

open Checked

/-! The size of the element. -/

def leadingZeros (x : BitVec 32) : BitVec 32 := if x = 0 then 32 else .ofNat 32 (31 - x.toNat.log2)

def checkedSizeLog? (wide : Bool) (m : Bitmask) : Checked (Option (BitVec 32)) := do
  let combined := (← shl (m.n.setWidth 32) 6) ||| (~~~m.imms.setWidth 32 &&& 0x3F)
  if combined = 0 then return none
  else
    let len ← sub 31 (leadingZeros combined)
    if len < 1 ∨ (¬wide ∧ 5 < len) then return none else return some len

theorem sub_leadingZeros {x : BitVec 32} (h : x ≠ 0) :
    sub 31 (leadingZeros x) = .ok (.ofNat 32 x.toNat.log2) := by
  have hlog : x.toNat.log2 < 32 := (Nat.log2_lt fun hx => h (BitVec.eq_of_toNat_eq hx)).mpr x.isLt
  have hzeros : (leadingZeros x).toNat = 31 - x.toNat.log2 := by
    rw [leadingZeros, if_neg h, BitVec.toNat_ofNat]
    omega
  have hle : (leadingZeros x).toNat ≤ (31 : BitVec 32).toNat := by
    rw [hzeros]
    exact Nat.sub_le 31 _
  rw [sub_eq hle, Except.ok.injEq]
  apply BitVec.eq_of_toNat_eq
  rw [BitVec.toNat_sub_of_le hle, hzeros, BitVec.toNat_ofNat, show (31 : BitVec 32).toNat = 31 from rfl]
  omega

theorem checkedSizeLog?_eq (wide : Bool) (m : Bitmask) :
    m.checkedSizeLog? wide = .ok ((m.sizeLog? wide).map (.ofNat 32)) := by
  have hlow : ~~~m.imms.setWidth 32 &&& 0x3F = (~~~m.imms).setWidth 32 := by
    apply BitVec.eq_of_toNat_eq
    rw [show (0x3F : BitVec 32) = .ofNat 32 (2 ^ 6 - 1) from rfl, toNat_and_ones _ (by decide),
      BitVec.toNat_setWidth_of_le (by decide), BitVec.toNat_not, BitVec.toNat_not,
      BitVec.toNat_setWidth_of_le (by decide)]
    omega
  have hc : ((m.n ++ ~~~m.imms).setWidth 32).toNat = (m.n ++ ~~~m.imms).toNat :=
    BitVec.toNat_setWidth_of_le (by decide)
  simp only [checkedSizeLog?, shl_eq (show 6 < 32 by decide), ok_bind, hlow,
    ← BitVec.setWidth_append_eq_shiftLeft_setWidth_or, sizeLog?]
  by_cases hzero : (m.n ++ ~~~m.imms).setWidth 32 = 0
  · have hnat : (m.n ++ ~~~m.imms).toNat = 0 := hc.symm.trans (congrArg BitVec.toNat hzero)
    rw [if_pos hzero, hnat]
    rfl
  · rw [if_neg hzero, sub_leadingZeros hzero, ok_bind, hc]
    obtain ⟨c, hdef⟩ : ∃ c, c = (m.n ++ ~~~m.imms).toNat := ⟨_, rfl⟩
    rw [← hdef]
    have hpos : c ≠ 0 := fun h => hzero (BitVec.eq_of_toNat_eq (hc.trans (hdef.symm.trans h)))
    have hlt : c < 2 ^ 7 := hdef ▸ (m.n ++ ~~~m.imms).isLt
    have hlog : c.log2 < 7 := (Nat.log2_lt hpos).mpr hlt
    have hlen : (BitVec.ofNat 32 c.log2).toNat = c.log2 := by
      rw [BitVec.toNat_ofNat]
      omega
    have hone : c.log2 < 1 ↔ c < 2 := Nat.log2_lt hpos
    simp only [BitVec.lt_def, hlen, show (1 : BitVec 32).toNat = 1 from rfl,
      show (5 : BitVec 32).toNat = 5 from rfl, hone]
    split <;> rfl

/-! One element. -/

/-- The mask of an element. One of all 64 bits takes its own branch: its shift would be too far. -/
def elementMask (size : BitVec 32) : Checked (BitVec 64) :=
  if size = 64 then .ok (.allOnes 64) else ones 64 size.toNat

theorem exists_elementMask {size : BitVec 32} (hsize : size.toNat ≤ 64) :
    ∃ mask, elementMask size = .ok mask ∧ ∀ i, mask.getLsbD i = decide (i < size.toNat) := by
  by_cases hfull : size = 64
  · refine ⟨.allOnes 64, if_pos hfull, fun i => ?_⟩
    rw [BitVec.getLsbD_allOnes, hfull]
    rfl
  · have hlt : size.toNat < 64 := Nat.lt_of_le_of_ne hsize fun h => hfull (BitVec.eq_of_toNat_eq h)
    exact ⟨_, (if_neg hfull).trans (ones_eq hlt), fun i => getLsbD_ones hsize⟩

def checkedElement (size last r : BitVec 32) : Checked (BitVec 64) := do
  let run ← ones 64 (← add last 1).toNat
  let mask ← elementMask size
  if r = 0 then return run
  else
    let low ← shr run r.toNat
    let high ← shl run (← sub size r).toNat
    return (low ||| high) &&& mask

theorem exists_checkedElement {size last r : BitVec 32} (hlast : last.toNat + 1 < size.toNat)
    (hr : r.toNat < size.toNat) (hsize : size.toNat ≤ 64) :
    ∃ elem, checkedElement size last r = .ok elem ∧
      ∀ i, elem.getLsbD i = (decide (i < size.toNat) && inRun size.toNat (last.toNat + 1) r.toNat i) := by
  have hadd := @add_eq _ last 1 (show last.toNat + 1 < 2 ^ 32 by omega)
  have hones : (last + 1).toNat = last.toNat + 1 := toNat_of_add hadd
  have hle : r.toNat ≤ size.toNat := Nat.le_of_lt hr
  have hsub : (size - r).toNat = size.toNat - r.toNat := BitVec.toNat_sub_of_le hle
  obtain ⟨mask, hmask, hbits⟩ := exists_elementMask hsize
  rw [checkedElement, hadd, ok_bind, hones, ones_eq (by omega), ok_bind, hmask, ok_bind]
  by_cases hzero : r = 0
  · refine ⟨_, if_pos hzero, fun i => ?_⟩
    rw [getLsbD_ones (by omega), hzero, inRun, show (0 : BitVec 32).toNat = 0 from rfl, Nat.add_zero i]
    by_cases hi : i < size.toNat
    · rw [decide_eq_true hi, Bool.true_and, Nat.mod_eq_of_lt hi]
    · rw [decide_eq_false hi, Bool.false_and]
      exact decide_eq_false (by omega)
  · have hpos : 0 < r.toNat := Nat.pos_of_ne_zero fun h => hzero (BitVec.eq_of_toNat_eq h)
    rw [if_neg hzero, shr_eq (by omega), ok_bind, sub_eq hle, ok_bind, hsub, shl_eq (by omega), ok_bind]
    refine ⟨_, rfl, fun i => ?_⟩
    rw [BitVec.getLsbD_and, BitVec.getLsbD_or, BitVec.getLsbD_ushiftRight, BitVec.getLsbD_shiftLeft,
      hbits, getLsbD_ones (by omega), getLsbD_ones (by omega), inRun, Bool.and_comm]
    by_cases hi : i < size.toNat
    · have hi' : i < 64 := by omega
      rw [decide_eq_true hi, decide_eq_true hi', Bool.true_and, Bool.true_and, Bool.true_and]
      by_cases hround : i + r.toNat < size.toNat
      · have hlow : i < size.toNat - r.toNat := by omega
        simp [Nat.mod_eq_of_lt hround, hlow, Nat.add_comm]
      · have hlow : ¬i < size.toNat - r.toNat := by omega
        have hmod : (i + r.toNat) % size.toNat = i - (size.toNat - r.toNat) := by
          rw [show i + r.toNat = i - (size.toNat - r.toNat) + size.toNat by omega, Nat.add_mod_right,
            Nat.mod_eq_of_lt (by omega)]
        have hhigh : ¬r.toNat + i < last.toNat + 1 := by omega
        simp [hmod, hlow, hhigh]
    · rw [decide_eq_false hi, Bool.false_and, Bool.false_and]

/-! The copies. -/

def copies (elem : BitVec 64) (size width pos : BitVec 32) (result : BitVec 64) : Checked (BitVec 64) :=
  if h : pos.toNat < width.toNat ∧ 0 < size.toNat then do
    let copy ← shl elem pos.toNat
    match hnext : add pos size with
    | .error fault => .error fault
    | .ok next =>
      have : width.toNat - next.toNat < width.toNat - pos.toNat := by
        have hadd := toNat_of_add hnext
        have ⟨hlt, hpos⟩ := h
        omega
      copies elem size width next (result ||| copy)
  else .ok result
termination_by width.toNat - pos.toNat

/-- The lowest `count` bits are copies of the element, and there is nothing above them. -/
def Copied (elem : BitVec 64) (size count : Nat) (result : BitVec 64) : Prop :=
  ∀ i < 64, result.getLsbD i = (decide (i < count) && elem.getLsbD (i % size))

theorem Copied.step {elem result : BitVec 64} {size pos : Nat} (h : Copied elem size pos result)
    (helem : ∀ i, size ≤ i → elem.getLsbD i = false) (hpos : size ∣ pos) :
    Copied elem size (pos + size) (result ||| elem <<< pos) := by
  intro i hi
  rw [BitVec.getLsbD_or, h i hi, BitVec.getLsbD_shiftLeft, decide_eq_true hi, Bool.true_and]
  by_cases hlow : i < pos
  · have hlt : i < pos + size := by omega
    simp [-BitVec.getLsbD_eq_getElem, hlow, hlt]
  · have hmod : i % size = (i - pos) % size := by
      obtain ⟨k, rfl⟩ := hpos
      exact (Nat.sub_mul_mod (by omega)).symm
    by_cases hin : i < pos + size
    · have hlt : i - pos < size := by omega
      simp [-BitVec.getLsbD_eq_getElem, hlow, hin, hmod, Nat.mod_eq_of_lt hlt]
    · simp [-BitVec.getLsbD_eq_getElem, hlow, hin, helem (i - pos) (by omega)]

theorem exists_copies {elem : BitVec 64} {size width pos : BitVec 32} {result : BitVec 64}
    (hsize : 0 < size.toNat) (hwidth : width.toNat ≤ 64) (hdvd : size.toNat ∣ width.toNat)
    (helem : ∀ i, size.toNat ≤ i → elem.getLsbD i = false)
    (hpos : size.toNat ∣ pos.toNat) (hle : pos.toNat ≤ width.toNat)
    (hresult : Copied elem size.toNat pos.toNat result) :
    ∃ v, copies elem size width pos result = .ok v ∧ Copied elem size.toNat width.toNat v := by
  fun_induction copies elem size width pos result with
  | case1 pos result h ih =>
    obtain ⟨hlt, -⟩ := h
    have hsum : pos.toNat + size.toNat ≤ width.toNat := by
      obtain ⟨j, hj⟩ := hpos
      obtain ⟨k, hk⟩ := hdvd
      rw [hj, hk, ← Nat.mul_succ]
      rw [hj, hk] at hlt
      exact Nat.mul_le_mul_left _ (Nat.lt_of_mul_lt_mul_left hlt)
    have hnext := @add_eq _ pos size (by omega)
    have hpos' := toNat_of_add hnext
    rw [shl_eq (by omega), ok_bind]
    split
    · next fault hfault => cases hnext.symm.trans hfault
    · next next heq =>
      obtain rfl : pos + size = next := Except.ok.inj (hnext.symm.trans heq)
      apply ih _ _ heq
      · rw [hpos']
        exact Nat.dvd_add hpos (Nat.dvd_refl _)
      · rwa [hpos']
      · rw [hpos']
        exact hresult.step helem hpos
  | case2 pos result h =>
    obtain rfl : pos = width := BitVec.eq_of_toNat_eq (by omega)
    exact ⟨result, rfl, hresult⟩

/-! The value. -/

def checkedPattern (size last r width : BitVec 32) : Checked (BitVec 64) := do
  copies (← checkedElement size last r) size width 0 0

theorem exists_checkedPattern {size last r width : BitVec 32} (hlast : last.toNat + 1 < size.toNat)
    (hr : r.toNat < size.toNat) (hwidth : width.toNat ≤ 64) (hle : size.toNat ≤ width.toNat)
    (hdvd : size.toNat ∣ width.toNat) :
    ∃ v, checkedPattern size last r width = .ok v ∧
      ∀ i < 64, v.getLsbD i =
        (decide (i < width.toNat) && inRun size.toNat (last.toNat + 1) r.toNat i) := by
  have hpos : 0 < size.toNat := by omega
  obtain ⟨elem, helem, hbits⟩ := exists_checkedElement hlast hr (Nat.le_trans hle hwidth)
  have hzero : Copied elem size.toNat (0 : BitVec 32).toNat 0 := by
    intro i hi
    simp
  have habove (i : Nat) (hi : size.toNat ≤ i) : elem.getLsbD i = false := by
    rw [hbits, decide_eq_false (Nat.not_lt.mpr hi), Bool.false_and]
  obtain ⟨v, hv, hcopied⟩ := exists_copies hpos hwidth hdvd habove (Nat.dvd_zero _) (Nat.zero_le _) hzero
  refine ⟨v, by rw [checkedPattern, helem, ok_bind, hv], fun i hi => ?_⟩
  rw [hcopied i hi, hbits, decide_eq_true (Nat.mod_lt i hpos), Bool.true_and, inRun_mod]

def checkedValue? (wide : Bool) (m : Bitmask) : Checked (Option (BitVec 64)) := do
  match ← m.checkedSizeLog? wide with
  | none => return none
  | some len =>
    let levels ← ones 32 len.toNat
    let last := m.imms.setWidth 32 &&& levels
    let r := m.immr.setWidth 32 &&& levels
    if last = levels then return none
    else
      let size ← shl (1 : BitVec 32) len.toNat
      return some (← checkedPattern size last r (.ofNat 32 (Register.width wide)))

@[simp] theorem checkedValue?_eq (wide : Bool) (m : Bitmask) :
    m.checkedValue? wide = .ok (m.value? wide) := by
  rw [checkedValue?, checkedSizeLog?_eq, ok_bind]
  cases hk : m.sizeLog? wide with
  | none =>
    rw [value?, hk]
    rfl
  | some k =>
    have hlt : k < 32 := Nat.lt_of_le_of_lt (sizeLog?_le hk) (by decide)
    have hpow : 2 ^ k ≤ 64 := Nat.le_trans (size_le_width hk) (width_le wide)
    have hlen : (BitVec.ofNat 32 k).toNat = k := by
      rw [BitVec.toNat_ofNat]
      omega
    have hlevels : (BitVec.ofNat 32 (2 ^ k - 1)).toNat = 2 ^ k - 1 := by
      rw [BitVec.toNat_ofNat]
      omega
    have hlast := toNat_and_ones (m.imms.setWidth 32) hlt
    have hr := toNat_and_ones (m.immr.setWidth 32) hlt
    rw [BitVec.toNat_setWidth_of_le (by decide)] at hlast hr
    simp only [Option.map_some, hlen, ones_eq hlt, ok_bind, shl_eq hlt]
    generalize m.imms.setWidth 32 &&& BitVec.ofNat 32 (2 ^ k - 1) = last at hlast
    generalize m.immr.setWidth 32 &&& BitVec.ofNat 32 (2 ^ k - 1) = r at hr
    have hmod := Nat.mod_lt m.imms.toNat (Nat.two_pow_pos k)
    by_cases hfull : m.imms.toNat % 2 ^ k + 1 = 2 ^ k
    · rw [if_pos (BitVec.eq_of_toNat_eq (by omega)), value?, hk]
      simp [Nat.one_shiftLeft, hfull]
    · have hne : last ≠ .ofNat 32 (2 ^ k - 1) := by
        rintro rfl
        omega
      have hsize : ((1 : BitVec 32) <<< k).toNat = 2 ^ k := by
        rw [BitVec.toNat_shiftLeft, Nat.shiftLeft_eq, show (1 : BitVec 32).toNat = 1 from rfl, Nat.one_mul]
        omega
      have hwidth : (BitVec.ofNat 32 (Register.width wide)).toNat = Register.width wide := by
        cases wide <;> rfl
      have hturn := Nat.mod_lt m.immr.toNat (Nat.two_pow_pos k)
      generalize (1 : BitVec 32) <<< k = size at hsize
      generalize BitVec.ofNat 32 (Register.width wide) = width at hwidth
      obtain ⟨v, hv, hbits⟩ := @exists_checkedPattern size last r width (by omega) (by omega)
        (hwidth ▸ width_le wide) (hsize ▸ hwidth ▸ size_le_width hk) (hsize ▸ hwidth ▸ size_dvd_width hk)
      rw [hsize, hlast, hr, hwidth] at hbits
      have hvalue : m.value? wide = some v := by
        refine value?_eq_some.mpr ⟨k, hk, by omega, fun i hi => ?_⟩
        rw [hbits i hi, inRun_turn_mod]
      rw [if_neg hne, hv, hvalue]
      rfl

end A64.Bitmask
