import A64.Proofs.Assembler.Memory
import A64.Proofs.Checked

/-! Loads and stores, decoded with checked arithmetic. Main statement: every word of the group is decoded
without a fault. -/

namespace A64.Encoding

open Checked

/-! Exclusive and atomic accesses. -/

namespace ExclusiveAccess

def checkedOfWord (w : Word) : Checked (Except Refusal ExclusiveAccess) := do
  let size ← w.readField 30 2
  let load ← w.readBit 22
  let o0 ← w.readBit 15
  match ← w.readBit 23, ← w.readBit 21 with
  | false, false => return .ok (single load o0 size (← w.readRm) (← w.readRd) (← w.readRn))
  | false, true =>
    if size.getLsbD 1 then
      return .ok (pair load o0 (size.getLsbD 0) (← w.readRm) (← w.readRd) (← w.readRa) (← w.readRn))
    else if (← w.readRm).getLsbD 0 || (← w.readRd).getLsbD 0 then
      return malformed "compare and swap pair needs even registers"
    else return .ok (swapPair load o0 (size.getLsbD 0) (← w.readRm) (← w.readRd) (← w.readRn))
  | true, false => return .ok (ordered load o0 size (← w.readRd) (← w.readRn))
  | true, true => return .ok (swap load o0 size (← w.readRm) (← w.readRd) (← w.readRn))

theorem checkedOfWord_eq (w : Word) : checkedOfWord w = .ok (ofWord w) := by
  cases h23 : w.bit 23 <;> cases h21 : w.bit 21 <;> simp [checkedOfWord, ofWord, h23, h21]

def checkedSuccessor (wide : Bool) (n : RegisterField) : Checked Register := do
  return .gp wide (← add (n.setWidth 8) 1).toNat

def checkedForm (e : ExclusiveAccess) : Checked Form := do
  match e with
  | swapPair acquire release wide rs rt rn =>
    let compared := [rs.gp wide, ← checkedSuccessor wide rs]
    let new := [rt.gp wide, ← checkedSuccessor wide rt]
    return access ("casp" ++ orderingSuffix acquire release) .compareExchange (compared ++ new) rn.base
      (compared ++ new) compared
  | e => return e.form

theorem checkedSuccessor_eq (wide : Bool) (n : RegisterField) :
    checkedSuccessor wide n = .ok (successor wide n) := by
  have hadd := toNat_add_one_lt n (show 5 < 8 by decide)
  rw [checkedSuccessor, add_eq hadd, ok_bind, toNat_of_add (add_eq hadd),
    BitVec.toNat_setWidth_of_le (by decide)]
  rfl

theorem checkedForm_eq (e : ExclusiveAccess) : e.checkedForm = .ok e.form := by
  cases e <;> simp [checkedForm, checkedSuccessor_eq, form]

end ExclusiveAccess

def AtomicAccess.checkedOfWord (w : Word) : Checked (Except Refusal AtomicAccess) := do
  let size ← w.readField 30 2
  let acquire ← w.readBit 23
  let release ← w.readBit 22
  let opc ← w.readField 12 3
  if ← w.readBit 15 then
    if opc = 0 then return .ok (swap acquire release size (← w.readRm) (← w.readRd) (← w.readRn))
    else if opc = 4 ∧ acquire ∧ !release ∧ (← w.readRm) = 31 then
      return .ok (loadAcquire size (← w.readRd) (← w.readRn))
    else return unsupported
  else
    return .ok (modify (.ofCode opc) acquire release size (← w.readRm) (← w.readRd) (← w.readRn))

@[simp] theorem AtomicAccess.checkedOfWord_eq (w : Word) : checkedOfWord w = .ok (ofWord w) := by
  simp [checkedOfWord, ofWord]

/-! Transfers of one register. -/

namespace Transfer

def checkedFloat? (size opc : BitVec 2) : Checked (Option Transfer) := do
  let access : Access := if opc.getLsbD 0 then .load else .store
  let quad ← shr (opc.setWidth 32) 1
  if size = 0 ∧ quad = 0 then return some ⟨access, .float 8, "", 0⟩
  else if size = 0 then return some ⟨access, .float 128, "", 4⟩
  else if quad = 0 then
    return some ⟨access, .float (← shl (8 : BitVec 16) size.toNat).toNat, "", size.toNat⟩
  else return none

def checkedOf? (simd : Bool) (size opc : BitVec 2) : Checked (Option Transfer) :=
  if simd then checkedFloat? size opc else .ok (general? size opc)

def checkedOfWord (w : Word) : Checked (Except Refusal Transfer) := do
  match ← checkedOf? (← w.readBit 26) (← w.readField 30 2) (← w.readField 22 2) with
  | some t => return .ok t
  | none => return malformed "unallocated load/store size"

theorem checkedFloat?_eq (size opc : BitVec 2) : checkedFloat? size opc = .ok (float? size opc) := by
  have hquad : opc.setWidth 32 >>> 1 = 0 ↔ opc.getLsbD 1 = false := by
    revert opc
    decide
  have hbits : ((8 : BitVec 16) <<< size.toNat).toNat = 8 <<< size.toNat := by
    revert size
    decide
  have hlt := size.isLt
  simp only [checkedFloat?, float?, shr_eq (show 1 < 32 by decide), shl_eq (show size.toNat < 16 by omega),
    ok_bind, pure_eq_ok, hquad, hbits]
  by_cases hsize : size = 0
  · subst hsize
    cases opc.getLsbD 1 <;> rfl
  · simp only [hsize, false_and, if_false]
    cases opc.getLsbD 1 <;> rfl

theorem checkedOfWord_eq (w : Word) : checkedOfWord w = .ok (ofWord w) := by
  simp only [checkedOfWord, Word.readBit_eq, Word.readField_eq, Nat.reduceLT, ok_bind, checkedOf?,
    checkedFloat?_eq, ite_ok, ofWord]
  generalize (if w.bit 26 = true then float? (w.field 30 2) (w.field 22 2)
    else general? (w.field 30 2) (w.field 22 2)) = found
  cases found <;> rfl

theorem scale_le {t : Transfer} {w : Word} (h : ofWord w = .ok t) : t.scale ≤ 4 := by
  rw [TransferCode.scale_of_transfer? (TransferCode.transfer?_of_ofWord h), TransferCode.scale]
  have hsize := (TransferCode.ofWord w).size.isLt
  split <;> omega

end Transfer

def checkedPrefetchOperand (n : RegisterField) : Checked Operand := do
  let rt : BitVec 8 := n.setWidth 8
  let target? : Option String := ["pld", "pli", "pst"][(← shr rt 3).toNat]?
  let level? : Option String := ["l1", "l2", "l3"][((← shr rt 1) &&& 3).toNat]?
  match target?, level? with
  | some target, some level =>
    return .named (target ++ level ++ if rt &&& 1 = 0 then "keep" else "strm")
  | _, _ => return .count rt.toNat

theorem checkedPrefetchOperand_eq (n : RegisterField) :
    checkedPrefetchOperand n = .ok (prefetchOperand n) := by
  have hlt := n.isLt
  have htarget : (n.setWidth 8 >>> 3).toNat = (n.extractLsb' 3 2).toNat := by
    rw [BitVec.toNat_ushiftRight, BitVec.toNat_setWidth_of_le (by decide), BitVec.extractLsb'_toNat,
      Nat.shiftRight_eq_div_pow]
    omega
  have hlevel : (n.setWidth 8 >>> 1 &&& 3).toNat = (n.extractLsb' 1 2).toNat := by
    rw [show (3 : BitVec 8) = .ofNat 8 (2 ^ 2 - 1) from rfl, toNat_and_ones _ (by decide),
      BitVec.toNat_ushiftRight, BitVec.toNat_setWidth_of_le (by decide), BitVec.extractLsb'_toNat]
  have hpolicy : n.setWidth 8 &&& 1 = 0 ↔ n.getLsbD 0 = false := by
    revert n
    decide
  simp only [checkedPrefetchOperand, prefetchOperand, shr_eq (show 3 < 8 by decide),
    shr_eq (show 1 < 8 by decide), ok_bind, htarget, hlevel, hpolicy, BitVec.toNat_setWidth_of_le
    (show 5 ≤ 8 by decide)]
  generalize ["pld", "pli", "pst"][(n.extractLsb' 3 2).toNat]? = target?
  generalize ["l1", "l2", "l3"][(n.extractLsb' 1 2).toNat]? = level?
  cases target? <;> cases level? <;> cases n.getLsbD 0 <;> rfl

/-! The addresses of transfers of one register. -/

def checkedUnsignedOffset (w : Word) : Checked (Except Refusal SingleTransfer) :=
  formed (Transfer.checkedOfWord w) fun t => do
    let displacement ← shl ((← w.readBits 10 12).setWidth 64) t.scale
    return { toTransfer := t, family := .scaled, rt := ← w.readRd, rn := ← w.readRn, index := none
             displacement := displacement.toInt, mode := .offset }

theorem checkedUnsignedOffset_eq (w : Word) : checkedUnsignedOffset w = .ok (unsignedOffset w) := by
  apply formed_eq (Transfer.checkedOfWord_eq w)
  intro t ht
  have hscale := Transfer.scale_le ht
  have hlt := (w.field 10 12).isLt
  have hnat : (((w.field 10 12).setWidth 32).setWidth 64).toNat = (w.field 10 12).toNat := by
    rw [BitVec.toNat_setWidth_of_le (by decide), BitVec.toNat_setWidth_of_le (by decide)]
  have hint : (((w.field 10 12).setWidth 32).setWidth 64).toInt = (w.field 10 12).toNat := by
    rw [BitVec.toInt_eq_toNat_of_lt (by omega), hnat]
  have hshift : (((w.field 10 12).setWidth 32).setWidth 64 <<< t.scale).toInt =
      ((w.field 10 12).toNat <<< t.scale : Nat) := by
    rw [toInt_shiftLeft hscale (by omega) (by omega), hint, Int.shiftLeft_eq, Nat.shiftLeft_eq,
      Int.natCast_mul, Int.natCast_pow]
    rfl
  simp only [Word.readBits_eq, Word.readRd_eq, Word.readRn_eq, Nat.reduceLT, ok_bind,
    shl_eq (show t.scale < 64 by omega), hshift]
  rfl

def checkedSignedOffset (w : Word) (family : TransferFamily) (mode : IndexMode) :
    Checked (Except Refusal SingleTransfer) :=
  andThen (Transfer.checkedOfWord w) fun t => do
    if t.access = .prefetch ∧ mode.writesBack then return malformed "prefetch has no writeback form"
    else if family = .unprivileged ∧ ((← w.readBit 26) ∨ t.access = .prefetch) then
      return malformed "unallocated unprivileged load/store"
    else
      return .ok
        { toTransfer := t, family, rt := ← w.readRd, rn := ← w.readRn, index := none
          displacement := ← signed (← w.readField 12 9), mode }

theorem checkedSignedOffset_eq (w : Word) (family : TransferFamily) (mode : IndexMode) :
    checkedSignedOffset w family mode = .ok (signedOffset w family mode) := by
  apply andThen_eq (Transfer.checkedOfWord_eq w)
  intro t _
  simp [signed_eq]

def checkedRegisterOffset (w : Word) : Checked (Except Refusal SingleTransfer) :=
  andThen (Transfer.checkedOfWord w) fun t => do
    let option ← w.readField 13 3
    if option.getLsbD 1 then
      let amount ← narrow 8 (BitVec.ofNat 32 t.scale)
      return .ok
        { toTransfer := t, family := .scaled, rt := ← w.readRd, rn := ← w.readRn
          index := some ⟨(← w.readRm).gp (option.getLsbD 0), indexExtend option,
            if ← w.readBit 12 then some amount.toNat else none⟩
          displacement := 0, mode := .offset }
    else return malformed "reserved register offset extend"

theorem checkedRegisterOffset_eq (w : Word) : checkedRegisterOffset w = .ok (registerOffset w) := by
  apply andThen_eq (Transfer.checkedOfWord_eq w)
  intro t ht
  have hscale := Transfer.scale_le ht
  have hnat : (BitVec.ofNat 32 t.scale).toNat = t.scale := by
    rw [BitVec.toNat_ofNat]
    omega
  have hamount : ((BitVec.ofNat 32 t.scale).setWidth 8).toNat = t.scale := by
    rw [BitVec.toNat_setWidth, hnat]
    omega
  simp only [Word.readField_eq, Word.readBit_eq, Word.readRd_eq, Word.readRn_eq, Word.readRm_eq,
    Nat.reduceLT, ok_bind, pure_eq_ok, narrow_eq (show (BitVec.ofNat 32 t.scale).toNat < 2 ^ 8 by omega),
    hamount, ite_ok]

def SingleTransfer.checkedDataOperand (e : SingleTransfer) : Checked Operand :=
  if e.access = .prefetch then checkedPrefetchOperand e.rt else .ok (.register e.data)

def SingleTransfer.checkedForm (e : SingleTransfer) : Checked Form :=
  withOperands e.form do return [← e.checkedDataOperand, .memory e.memory]

@[simp] theorem SingleTransfer.checkedForm_eq (e : SingleTransfer) : e.checkedForm = .ok e.form := by
  apply withOperands_eq
  simp only [checkedDataOperand, checkedPrefetchOperand_eq, ite_ok, ok_bind]
  rfl

def checkedSingleForm (w : Word) : Checked (Except Refusal Form) := do
  if ← w.readBit 24 then formed (checkedUnsignedOffset w) (·.checkedForm)
  else if ← w.readBit 21 then
    match (← w.readField 10 2).toNat with
    | 0 =>
      if ← w.readBit 26 then return unsupported
      else formed (AtomicAccess.checkedOfWord w) fun e => return e.form
    | 2 => formed (checkedRegisterOffset w) (·.checkedForm)
    | _ => return unsupported
  else
    match (← w.readField 10 2).toNat with
    | 0 => formed (checkedSignedOffset w .unscaled .offset) (·.checkedForm)
    | 1 => formed (checkedSignedOffset w .scaled .postIndex) (·.checkedForm)
    | 2 => formed (checkedSignedOffset w .unprivileged .offset) (·.checkedForm)
    | _ => formed (checkedSignedOffset w .scaled .preIndex) (·.checkedForm)

theorem checkedSingleForm_eq (w : Word) : checkedSingleForm w = .ok (singleForm w) := by
  simp only [checkedSingleForm, singleForm, Word.readBit_eq, Word.readField_eq, Nat.reduceLT, ok_bind]
  generalize (w.field 10 2).toNat = n
  rcases n with _ | _ | _ | n <;>
    simp [checkedUnsignedOffset_eq, checkedSignedOffset_eq, checkedRegisterOffset_eq]

/-! Literal loads and pairs. -/

namespace LiteralLoad

def checkedOfWord (w : Word) : Checked (Except Refusal LiteralLoad) := do
  match kind? (← w.readBit 26) (← w.readField 30 2) with
  | some (mnemonic, access, view) =>
    return .ok ⟨mnemonic, access, view, ← w.readField 5 19, ← w.readRd⟩
  | none => return malformed "unallocated literal load size"

theorem checkedOfWord_eq (w : Word) : checkedOfWord w = .ok (ofWord w) := by
  cases hkind : kind? (w.bit 26) (w.field 30 2) <;> simp [checkedOfWord, ofWord, hkind]

def checkedForm (e : LiteralLoad) : Checked Form := do
  let f ← displacedBy e.form .addressIndex e.words
  if e.access = .prefetch then withOperands f do return [← checkedPrefetchOperand e.rt]
  else return f

@[simp] theorem checkedForm_eq (e : LiteralLoad) : e.checkedForm = .ok e.form := by
  have hreference : e.form.reference = some (.displaced .addressIndex (4 * e.words.toInt)) := by
    rw [form]
    split <;> rfl
  rw [checkedForm, displacedBy_eq hreference (by decide) (by decide), ok_bind]
  by_cases hprefetch : e.access = .prefetch
  · rw [if_pos hprefetch]
    apply withOperands_eq
    rw [checkedPrefetchOperand_eq, form, if_pos hprefetch]
    rfl
  · rw [if_neg hprefetch]
    rfl

end LiteralLoad

namespace PairTransfer

def checkedOfWord (w : Word) : Checked (Except Refusal PairTransfer) := do
  let load ← w.readBit 22
  let mode ← w.readField 23 2
  let nonTemporal := mode == 0
  let units ← w.readField 15 7
  let rt ← w.readRd
  let rt2 ← w.readRa
  let rn ← w.readRn
  return (kind (← w.readBit 26) load nonTemporal (← w.readField 30 2)).map fun (view, scale, signed) =>
    ⟨load, nonTemporal, signed, view, scale, modeOf mode, units, rt, rt2, rn⟩

theorem checkedOfWord_eq (w : Word) : checkedOfWord w = .ok (ofWord w) := by
  simp [checkedOfWord, ofWord]

def checkedDisplacement (e : PairTransfer) : Checked Int := do
  let units ← signExtend (e.units.setWidth 64) 7
  return (← shl units e.scale).toInt

def checkedForm (e : PairTransfer) : Checked Form :=
  withOperands e.form do
    return [.register (e.view.register e.rt), .register (e.view.register e.rt2),
      .memory (.withMode e.rn.base (← e.checkedDisplacement) e.mode)]

theorem scale_le_of_kind {simd load nonTemporal signed : Bool} {opc : BitVec 2} {view : DataView}
    {scale : Nat} (h : kind simd load nonTemporal opc = .ok (view, scale, signed)) : scale ≤ 4 := by
  have hscale : (code signed view).2.2 = scale := congrArg (·.2.2) (code_of_kind h).1
  rw [← hscale]
  cases view with
  | general wide => cases signed <;> cases wide <;> decide
  | float bits =>
    rw [code]
    split
    · decide
    · split <;> decide

theorem scale_le {e : PairTransfer} {w : Word} (h : ofWord w = .ok e) : e.scale ≤ 4 := by
  obtain ⟨⟨view, scale, signed⟩, hkind, rfl⟩ := map_eq_ok.mp h
  exact scale_le_of_kind hkind

theorem checkedDisplacement_eq {e : PairTransfer} (h : e.scale ≤ 4) :
    e.checkedDisplacement = .ok e.displacement := by
  have hextend : signExtend (e.units.setWidth 64) 7 = .ok (e.units.signExtend 64) :=
    signExtend_eq e.units (by decide) (by decide)
  have hint : (e.units.signExtend 64).toInt = e.units.toInt := BitVec.toInt_signExtend_of_le (by decide)
  have hlo : -2 ^ 7 ≤ 2 * e.units.toInt := BitVec.le_two_mul_toInt
  have hhi : 2 * e.units.toInt < 2 ^ 7 := BitVec.two_mul_toInt_lt
  rw [checkedDisplacement, hextend, ok_bind, shl_eq (by omega), ok_bind,
    toInt_shiftLeft h (by omega) (by omega), hint]
  rfl

theorem checkedForm_eq {e : PairTransfer} (h : e.scale ≤ 4) : e.checkedForm = .ok e.form := by
  apply withOperands_eq
  rw [checkedDisplacement_eq h]
  rfl

end PairTransfer

/-! The group. -/

def checkedMemoryForm (w : Word) : Checked (Except Refusal Form) := do
  match (← w.readField 28 2).toNat with
  | 0 =>
    if ← w.readBit 26 then
      if ← w.readBit 31 then return malformed "unallocated structure load/store" else return unsupported
    else if ← w.readBit 24 then return unsupported
    else formed (ExclusiveAccess.checkedOfWord w) (·.checkedForm)
  | 1 =>
    if ← w.readBit 24 then return unsupported
    else formed (LiteralLoad.checkedOfWord w) (·.checkedForm)
  | 2 => formed (PairTransfer.checkedOfWord w) (·.checkedForm)
  | _ => checkedSingleForm w

theorem checkedMemoryForm_eq (w : Word) : checkedMemoryForm w = .ok (memoryForm w) := by
  have hpair : formed (PairTransfer.checkedOfWord w) (·.checkedForm) =
      .ok ((PairTransfer.ofWord w).map (·.form)) :=
    formed_eq (PairTransfer.checkedOfWord_eq w) fun _ he =>
      PairTransfer.checkedForm_eq (PairTransfer.scale_le he)
  rw [checkedMemoryForm, Word.readField_eq (by decide) (by decide), ok_bind, memoryForm]
  generalize (w.field 28 2).toNat = n
  rcases n with _ | _ | _ | n <;>
    simp [hpair, ExclusiveAccess.checkedOfWord_eq, ExclusiveAccess.checkedForm_eq,
      LiteralLoad.checkedOfWord_eq, checkedSingleForm_eq]

end A64.Encoding
