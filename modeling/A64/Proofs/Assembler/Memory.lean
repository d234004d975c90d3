import A64.Proofs.Assembler.Atomic

/-! The assembler of loads and stores other than exclusive ones. The data register of an access shows its
bank and width, which together with the mnemonic tell the size and opcode fields; the memory operand
tells the addressing. Main statement: the assembler takes the text of a decoded access back to its word,
so two words of this kind that are written alike are one word. -/

namespace A64

namespace Encoding

variable {w : Word} {f : Form}

def viewOf (r : Register) : DataView :=
  if r.kind = .scalar then .float r.size else .general r.isWide

@[simp] theorem viewOf_register (view : DataView) (n : RegisterField) :
    viewOf (view.register n) = view := by
  cases view with
  | float bits => rfl
  | general wide =>
    have hkind : (n.gp wide).kind ≠ .scalar := by
      simp only [RegisterField.gp, Register.gp]
      split <;> simp
    rw [DataView.register, viewOf, if_neg hkind, RegisterField.isWide_gp]

@[simp] theorem field_register (view : DataView) (n : RegisterField) :
    (view.register n).field = n := by
  cases view <;> simp [DataView.register]

def prefetchField? (name : String) : Option RegisterField :=
  [("pldl1keep", 0), ("pldl1strm", 1), ("pldl2keep", 2), ("pldl2strm", 3), ("pldl3keep", 4),
   ("pldl3strm", 5), ("plil1keep", 8), ("plil1strm", 9), ("plil2keep", 10), ("plil2strm", 11),
   ("plil3keep", 12), ("plil3strm", 13), ("pstl1keep", 16), ("pstl1strm", 17), ("pstl2keep", 18),
   ("pstl2strm", 19), ("pstl3keep", 20), ("pstl3strm", 21)].lookup name

/-- What the first operand of an access shows: the view of its data register, or none for a prefetch,
and the field. -/
def shown? : Operand → Option (Option DataView × RegisterField)
  | .register r => some (some (viewOf r), r.field)
  | .named name => (prefetchField? name).map (none, ·)
  | .count n => some (none, .ofNat 5 n)
  | _ => none

def shows (access : Access) (view : DataView) : Option DataView :=
  if access = .prefetch then none else some view

theorem shown?_data (access : Access) (view : DataView) (n : RegisterField) :
    shown? (if access = .prefetch then prefetchOperand n else .register (view.register n)) =
      some (shows access view, n) := by
  have hprefetch : ∀ n : RegisterField, shown? (prefetchOperand n) = some (none, n) := by
    decide +kernel
  by_cases haccess : access = .prefetch
  · rw [if_pos haccess, hprefetch, shows, if_pos haccess]
  · simp [haccess, shown?, shows]

theorem ediv_shiftLeft (x : Int) (k : Nat) : x <<< k / 2 ^ k = x := by
  rw [Int.shiftLeft_eq, Int.mul_ediv_cancel _ (Int.pow_ne_zero (by decide))]

namespace LiteralLoad

def wordOf (simd : Bool) (opc : BitVec 2) (words : BitVec 19) (rt : RegisterField) : Word :=
  opc ++ 0b011#3 ++ BitVec.ofBool simd ++ 0b00#2 ++ words ++ rt

theorem wordOf_fields (hhigh : w.field 27 3 = 0b011#3) (hlow : w.field 24 2 = 0b00#2) :
    wordOf (w.bit 26) (w.field 30 2) (w.field 5 19) w.rd = w := by
  simp only [wordOf, Word.ofBool_bit, Word.rd, ← hhigh, ← hlow, Word.field_append]
  exact w.field_all

def code? (m : String) : Option DataView → Option (Bool × BitVec 2)
  | some (.float bits) =>
    if m = "ldr" then [(32, (true, 0)), (64, (true, 1)), (128, (true, 2))].lookup bits else none
  | some (.general wide) =>
    if m = "ldr" then some (false, if wide then 1 else 0)
    else if m = "ldrsw" then some (false, 2)
    else none
  | none => if m = "prfm" then some (false, 3) else none

theorem code?_of_kind? : ∀ (simd : Bool) (opc : BitVec 2), ∀ k ∈ kind? simd opc,
    code? k.1 (shows k.2.1 k.2.2) = some (simd, opc) := by decide +kernel

def word? (m : String) : List Operand → Option Word
  | [data, .pcRelative offset _] =>
    (shown? data).bind fun (view?, rt) =>
      (code? m view?).map fun (simd, opc) => wordOf simd opc (.ofInt 19 (offset / 4)) rt
  | _ => none

end LiteralLoad

namespace PairTransfer

def wordOf (simd : Bool) (opc : BitVec 2) (mode : BitVec 2) (load : Bool) (units : BitVec 7)
    (rt2 rn rt : RegisterField) : Word :=
  opc ++ 0b101#3 ++ BitVec.ofBool simd ++ 0#1 ++ mode ++ BitVec.ofBool load ++ units ++ rt2 ++ rn ++ rt

theorem wordOf_fields (hhigh : w.field 27 3 = 0b101#3) (hlow : w.field 25 1 = 0#1) :
    wordOf (w.bit 26) (w.field 30 2) (w.field 23 2) (w.bit 22) (w.field 15 7) w.ra w.rn w.rd = w := by
  simp only [wordOf, Word.ofBool_bit, Word.ra, Word.rn, Word.rd, ← hhigh, ← hlow, Word.field_append]
  exact w.field_all

def code (signed : Bool) : DataView → Bool × BitVec 2 × Nat
  | .general wide => if signed then (false, 1, 2) else if wide then (false, 2, 3) else (false, 0, 2)
  | .float bits => if bits = 32 then (true, 0, 2) else if bits = 64 then (true, 1, 3) else (true, 2, 4)

theorem code_of_kind {simd load nonTemporal : Bool} {opc : BitVec 2} {view : DataView} {scale : Nat}
    {signed : Bool} (h : kind simd load nonTemporal opc = .ok (view, scale, signed)) :
    code signed view = (simd, opc, scale) ∧ (signed = true → load = true ∧ nonTemporal = false) := by
  have hall : ∀ (simd load nonTemporal : Bool) (opc : BitVec 2),
      ∀ k ∈ (kind simd load nonTemporal opc).toOption, code k.2.2 k.1 = (simd, opc, k.2.1) ∧
        (k.2.2 = true → load = true ∧ nonTemporal = false) := by decide
  exact hall simd load nonTemporal opc (view, scale, signed) (by rw [h]; rfl)

def modeCode (nonTemporal : Bool) : IndexMode → BitVec 2
  | .postIndex => 1
  | .preIndex => 3
  | .offset => if nonTemporal then 0 else 2

theorem modeCode_modeOf : ∀ b : BitVec 2, modeCode (b == 0) (modeOf b) = b := by decide

def flags? (m : String) : Option (Bool × Bool × Bool) :=
  [("ldnp", (true, true, false)), ("ldpsw", (true, false, true)), ("ldp", (true, false, false)),
   ("stnp", (false, true, false)), ("stp", (false, false, false))].lookup m

def word? (m : String) : List Operand → Option Word
  | [.register first, .register second, .memory memory] =>
    memory.base.bind fun base =>
      (flags? m).map fun (load, nonTemporal, signed) =>
        let (simd, opc, scale) := code signed (viewOf first)
        wordOf simd opc (modeCode nonTemporal memory.mode) load
          (.ofInt 7 (memory.displacement / 2 ^ scale)) second.field base.field first.field
  | _ => none

end PairTransfer

structure TransferCode where
  simd : Bool
  size : BitVec 2
  opc : BitVec 2
  deriving DecidableEq

namespace TransferCode

def ofWord (w : Word) : TransferCode := ⟨w.bit 26, w.field 30 2, w.field 22 2⟩

def transfer? (c : TransferCode) : Option Transfer :=
  if c.simd then Transfer.float? c.size c.opc else Transfer.general? c.size c.opc

def scale (c : TransferCode) : Nat := if c.simd && c.opc.getLsbD 1 then 4 else c.size.toNat

def all : List TransferCode :=
  [false, true].flatMap fun simd =>
    (List.range 4).flatMap fun size => (List.range 4).map fun opc => ⟨simd, .ofNat 2 size, .ofNat 2 opc⟩

def ofText? (m : String) (view? : Option DataView) : Option (TransferFamily × TransferCode) :=
  [.scaled, .unscaled, .unprivileged].findSome? fun family =>
    (all.find? fun c => c.transfer?.any fun t =>
      shows t.access t.view = view? ∧ t.mnemonic family = m).map (family, ·)

/-- Prefetches of two families have one mnemonic, but there are none without privilege. -/
theorem ofText?_mnemonic {c : TransferCode} {t : Transfer} (ht : c.transfer? = some t)
    {family : TransferFamily} (hp : family = .unprivileged → t.access ≠ .prefetch) :
    ofText? (t.mnemonic family) (shows t.access t.view) = some (family, c) := by
  have hall : ∀ (simd : Bool) (size opc : BitVec 2), ∀ t ∈ transfer? ⟨simd, size, opc⟩,
      ∀ family ∈ [TransferFamily.scaled, .unscaled, .unprivileged],
      (family = .unprivileged → t.access ≠ .prefetch) →
        ofText? (t.mnemonic family) (shows t.access t.view) = some (family, ⟨simd, size, opc⟩) := by
    decide +kernel
  exact hall c.simd c.size c.opc t ht family (by cases family <;> decide) hp

theorem scale_of_transfer? {c : TransferCode} {t : Transfer} (ht : c.transfer? = some t) :
    t.scale = c.scale := by
  have hall : ∀ (simd : Bool) (size opc : BitVec 2), ∀ t ∈ transfer? ⟨simd, size, opc⟩,
      t.scale = scale ⟨simd, size, opc⟩ := by decide
  exact hall c.simd c.size c.opc t ht

theorem transfer?_of_ofWord {t : Transfer} (h : Transfer.ofWord w = .ok t) :
    (ofWord w).transfer? = some t := by
  simp only [Transfer.ofWord] at h
  split at h
  · next ht =>
    rw [← Except.ok.inj h]
    exact ht
  · simp at h

end TransferCode

namespace SingleTransfer

def wordOf (c : TransferCode) (unsigned : Bool) (address : BitVec 12) (rn rt : RegisterField) : Word :=
  c.size ++ 0b111#3 ++ BitVec.ofBool c.simd ++ 0#1 ++ BitVec.ofBool unsigned ++ c.opc ++ address ++ rn ++
    rt

theorem wordOf_fields (hhigh : w.field 27 3 = 0b111#3) (hlow : w.field 25 1 = 0#1) :
    wordOf (.ofWord w) (w.bit 24) (w.field 10 12) w.rn w.rd = w := by
  simp only [wordOf, TransferCode.ofWord, Word.ofBool_bit, Word.rn, Word.rd, ← hhigh, ← hlow,
    Word.field_append]
  exact w.field_all

def optionCode : Extend → BitVec 3
  | .uxtw => 2
  | .lsl => 3
  | .sxtw => 6
  | .sxtx => 7
  | _ => 0

theorem optionCode_indexExtend : ∀ option : BitVec 3, option.getLsbD 1 = true →
    optionCode (indexExtend option) = option := by decide

/-- Bits 24 and 21 to 10 of an access, which hold its addressing. -/
def addressing (family : TransferFamily) (scale : Nat) (memory : MemoryRef) : Bool × BitVec 12 :=
  match memory.index with
  | some index =>
    (false, 1#1 ++ index.reg.field ++ optionCode index.extend ++ BitVec.ofBool index.amount.isSome ++
      0b10#2)
  | none =>
    let signed (kind : BitVec 2) := (false, 0#1 ++ BitVec.ofInt 9 memory.displacement ++ kind)
    match family, memory.mode with
    | .scaled, .offset => (true, .ofInt 12 (memory.displacement / 2 ^ scale))
    | .unscaled, _ => signed 0
    | .scaled, .postIndex => signed 1
    | .unprivileged, _ => signed 2
    | .scaled, .preIndex => signed 3

def word? (m : String) : List Operand → Option Word
  | [data, .memory memory] =>
    (shown? data).bind fun (view?, rt) =>
      (TransferCode.ofText? m view?).bind fun (family, c) =>
        memory.base.map fun base =>
          let (unsigned, address) := addressing family c.scale memory
          wordOf c unsigned address base.field rt
  | _ => none

theorem word?_form {e : SingleTransfer} (ht : (TransferCode.ofWord w).transfer? = some e.toTransfer)
    (hp : e.family = .unprivileged → e.access ≠ .prefetch) (hrt : e.rt = w.rd) (hrn : e.rn = w.rn)
    (ha : addressing e.family e.scale e.memory = (w.bit 24, w.field 10 12))
    (hhigh : w.field 27 3 = 0b111#3) (hlow : w.field 25 1 = 0#1) :
    e.form.mnemonic.bind (word? · e.form.operands) = some w := by
  rw [TransferCode.scale_of_transfer? ht] at ha
  have hshown : shown? e.dataOperand = some (shows e.access e.view, e.rt) :=
    shown?_data e.access e.view e.rt
  have hbase : e.memory.base = some e.rn.base := rfl
  simp only [form, spelled, Option.bind_some, word?, hshown, TransferCode.ofText?_mnemonic ht hp, hbase,
    Option.map_some, ha, hrt, hrn, RegisterField.field_base, wordOf_fields hhigh hlow]

theorem word?_unsignedOffset {e : SingleTransfer} (he : unsignedOffset w = .ok e)
    (hhigh : w.field 27 3 = 0b111#3) (hlow : w.field 25 1 = 0#1) (hb : w.bit 24 = true) :
    e.form.mnemonic.bind (word? · e.form.operands) = some w := by
  obtain ⟨t, ht, rfl⟩ := map_eq_ok.mp he
  refine word?_form (TransferCode.transfer?_of_ofWord ht) (by simp) rfl rfl ?_ hhigh hlow
  change (true, BitVec.ofInt 12 (((w.field 10 12).toNat <<< t.scale : Nat) / 2 ^ t.scale)) = _
  rw [Int.natCast_shiftLeft, ediv_shiftLeft, BitVec.ofInt_natCast, BitVec.ofNat_toNat,
    BitVec.setWidth_eq, hb]

theorem addressing_signed (kind : BitVec 2) (scale : Nat) (base : Option Register)
    (displacement : Int) :
    addressing (signedAddressing kind.toNat).1 scale
        ⟨base, none, displacement, (signedAddressing kind.toNat).2⟩ =
      (false, 0#1 ++ BitVec.ofInt 9 displacement ++ kind) := by
  have hkind : ∀ b : BitVec 2, b = 0 ∨ b = 1 ∨ b = 2 ∨ b = 3 := by decide
  rcases hkind kind with rfl | rfl | rfl | rfl <;> rfl

theorem word?_signedOffset {e : SingleTransfer}
    (he : signedOffset w (signedAddressing (w.field 10 2).toNat).1
      (signedAddressing (w.field 10 2).toNat).2 = .ok e)
    (hhigh : w.field 27 3 = 0b111#3) (hlow : w.field 25 1 = 0#1) (hb : w.bit 24 = false)
    (hr : w.bit 21 = false) : e.form.mnemonic.bind (word? · e.form.operands) = some w := by
  obtain ⟨t, ht, he⟩ := bind_eq_ok.mp he
  split at he
  case isTrue => simp at he
  case isFalse =>
    split at he
    case isTrue => simp at he
    case isFalse hp =>
      cases he
      have hzero : w.field 21 1 = 0#1 := Word.field_of_bit hr
      refine word?_form (TransferCode.transfer?_of_ofWord ht)
        (fun hfamily haccess => hp ⟨hfamily, .inr haccess⟩) rfl rfl ?_ hhigh hlow
      simp only [memory]
      rw [addressing_signed, BitVec.ofInt_toInt, ← hzero, Word.field_append w (by decide),
        Word.field_append w (by decide), hb]

theorem word?_registerOffset {e : SingleTransfer} (he : registerOffset w = .ok e)
    (hhigh : w.field 27 3 = 0b111#3) (hlow : w.field 25 1 = 0#1) (hb : w.bit 24 = false)
    (hr : w.bit 21 = true) (hm : w.field 10 2 = 0b10#2) :
    e.form.mnemonic.bind (word? · e.form.operands) = some w := by
  obtain ⟨t, ht, he⟩ := bind_eq_ok.mp he
  simp only at he
  split at he
  case isFalse => simp at he
  case isTrue hoption =>
    cases he
    have hone : w.field 21 1 = 1#1 := Word.field_of_bit hr
    have hscaled : (if w.bit 12 then some t.scale else none).isSome = w.bit 12 := by
      cases w.bit 12 <;> rfl
    refine word?_form (TransferCode.transfer?_of_ofWord ht) (by simp) rfl rfl ?_ hhigh hlow
    simp only [addressing, memory, RegisterField.field_gp, optionCode_indexExtend _ hoption, hscaled,
      Word.ofBool_bit, Word.rm, ← hm, ← hone, Word.field_append, hb]

end SingleTransfer

theorem LiteralLoad.mnemonic_form (e : LiteralLoad) : e.form.mnemonic = some e.mnemonic := by
  simp only [form]
  split <;> rfl

theorem LiteralLoad.operandsAt_form (e : LiteralLoad) (a : Address) :
    e.form.operandsAt a =
      [if e.access = .prefetch then prefetchOperand e.rt else .register (e.view.register e.rt),
        .pcRelative (4 * e.words.toInt) (a.advance (4 * e.words.toInt))] := by
  rw [← Reference.operand_displaced a .addressIndex (by decide)]
  simp only [form]
  split <;> rfl

theorem LiteralLoad.word?_form {e : LiteralLoad} (he : LiteralLoad.ofWord w = .ok e)
    (hhigh : w.field 27 3 = 0b011#3) (hlow : w.field 24 2 = 0b00#2) (a : Address) :
    e.form.mnemonic.bind (word? · (e.form.operandsAt a)) = some w := by
  rw [mnemonic_form, operandsAt_form]
  unfold ofWord at he
  split at he
  case h_2 => simp at he
  case h_1 m access view hk =>
    cases he
    simp only [Option.bind_some, word?, shown?_data, code?_of_kind? (w.bit 26) (w.field 30 2) _ hk,
      Option.map_some, ofInt_mul_toInt_div, wordOf_fields hhigh hlow]

namespace PairTransfer

theorem flags?_mnemonic {load nonTemporal signed : Bool}
    (h : signed = true → load = true ∧ nonTemporal = false) (view : DataView) (scale : Nat)
    (mode : IndexMode) (units : BitVec 7) (rt rt2 rn : RegisterField) :
    flags? (mnemonic ⟨load, nonTemporal, signed, view, scale, mode, units, rt, rt2, rn⟩) =
      some (load, nonTemporal, signed) := by
  cases signed with
  | false => cases load <;> cases nonTemporal <;> rfl
  | true =>
    obtain ⟨rfl, rfl⟩ := h rfl
    rfl

theorem word?_form {e : PairTransfer} (he : ofWord w = .ok e) (hhigh : w.field 27 3 = 0b101#3)
    (hlow : w.field 25 1 = 0#1) : e.form.mnemonic.bind (word? · e.form.operands) = some w := by
  obtain ⟨⟨view, scale, signed⟩, hk, rfl⟩ := map_eq_ok.mp he
  obtain ⟨hcode, hsigned⟩ := code_of_kind hk
  simp only [form, spelled, Option.bind_some, word?, MemoryRef.withMode, flags?_mnemonic hsigned,
    Option.map_some, viewOf_register, hcode, field_register, RegisterField.field_base, modeCode_modeOf,
    displacement, ediv_shiftLeft, BitVec.ofInt_toInt, wordOf_fields hhigh hlow]

theorem loading?_mnemonic (e : PairTransfer) (source data base : Register) :
    AtomicAccess.loading? source data base e.mnemonic.toList = none := by
  unfold mnemonic
  split <;> rfl

end PairTransfer

theorem SingleTransfer.single?_mnemonic (t : Transfer) (family : TransferFamily)
    (reg base : Register) : AtomicAccess.single? reg base (t.mnemonic family).toList = none := by
  rw [Transfer.mnemonic, String.toList_append]
  unfold Transfer.stem
  split <;> rfl

def memoryWord? (m : String) (operands : List Operand) : Option Word :=
  ((AtomicAccess.ofText? m operands).map (·.word)).or <|
  (LiteralLoad.word? m operands).or <|
  (PairTransfer.word? m operands).or <|
  SingleTransfer.word? m operands

theorem AtomicAccess.assemblesTo_form (e : AtomicAccess) :
    e.form.AssemblesTo memoryWord? e.word := by
  intro a
  obtain ⟨m, hm, he⟩ := Option.bind_eq_some_iff.mp e.ofText?_form
  rw [Form.operandsAt_of_none e.reference_form, hm, Option.bind_some, memoryWord?, he]
  rfl

theorem memoryWord?_literal (m : String) (data : Operand) (offset : Int) (target : Address) :
    memoryWord? m [data, .pcRelative offset target] =
      LiteralLoad.word? m [data, .pcRelative offset target] := by
  cases data <;> exact Option.or_none

theorem LiteralLoad.assemblesTo_form {e : LiteralLoad} (he : ofWord w = .ok e)
    (hhigh : w.field 27 3 = 0b011#3) (hlow : w.field 24 2 = 0b00#2) :
    e.form.AssemblesTo memoryWord? w := by
  intro a
  have hw := word?_form he hhigh hlow a
  rw [mnemonic_form, operandsAt_form, Option.bind_some] at hw ⊢
  rw [memoryWord?_literal, hw]

theorem PairTransfer.assemblesTo_form {e : PairTransfer} (he : ofWord w = .ok e)
    (hhigh : w.field 27 3 = 0b101#3) (hlow : w.field 25 1 = 0#1) :
    e.form.AssemblesTo memoryWord? w := by
  intro a
  have hw := word?_form he hhigh hlow
  rw [Form.operandsAt_of_none rfl]
  simp only [form, spelled, MemoryRef.withMode, Option.bind_some] at hw ⊢
  simp only [memoryWord?, AtomicAccess.ofText?, Option.bind_some, loading?_mnemonic,
    LiteralLoad.word?, hw, Option.map_none, Option.none_or, Option.some_or]

/-- What holds of the text of a single transfer for its own reader holds for the whole assembler. -/
theorem SingleTransfer.assemblesTo_form {e : SingleTransfer}
    (hw : e.form.mnemonic.bind (word? · e.form.operands) = some w) :
    e.form.AssemblesTo memoryWord? w := by
  intro a
  rw [Form.operandsAt_of_none rfl]
  simp only [form, spelled, Option.bind_some] at hw ⊢
  have hatomic :
      AtomicAccess.ofText? (e.mnemonic e.family) [e.dataOperand, .memory e.memory] = none := by
    cases e.dataOperand with
    | register reg => simp [AtomicAccess.ofText?, single?_mnemonic]
    | _ => rfl
  have hpair (m : String) (data : Operand) (memory : MemoryRef) :
      PairTransfer.word? m [data, .memory memory] = none := by cases data <;> rfl
  have hliteral (m : String) (data : Operand) (memory : MemoryRef) :
      LiteralLoad.word? m [data, .memory memory] = none := rfl
  rw [memoryWord?, hatomic, hliteral, hpair, hw]
  rfl

theorem MemoryEncoding.assemblesTo (h : MemoryEncoding w f)
    (hc : EncodingClass.ofWord w = .loadStore) (hx : w.field 28 2 ≠ 0) :
    f.AssemblesTo memoryWord? w := by
  obtain ⟨h27, h25⟩ := EncodingClass.field_of_loadStore hc
  have hlow : w.field 25 1 = 0#1 := w.field_eq_ofNat (by omega)
  -- Bits 29 to 27 of a single transfer or an atomic access are set.
  have hhigh (hg : (w.field 28 2).toNat = 3) : w.field 27 3 = 0b111#3 := by
    rw [Word.toNat_field] at hg
    exact w.field_eq_ofNat (by omega)
  cases h with
  | exclusive hg => exact absurd (BitVec.eq_of_toNat_eq hg) hx
  | literal hg hb he =>
    rw [Word.toNat_field] at hg
    rw [Word.bit_eq_false] at hb
    exact LiteralLoad.assemblesTo_form he (w.field_eq_ofNat (by omega))
      (w.field_eq_ofNat (by omega))
  | pair hg he =>
    rw [Word.toNat_field] at hg
    exact PairTransfer.assemblesTo_form he (w.field_eq_ofNat (by omega)) hlow
  | unsignedOffset hg hb he =>
    exact SingleTransfer.assemblesTo_form
      (SingleTransfer.word?_unsignedOffset he (hhigh hg) hlow hb)
  | signedOffset hg hb hr he =>
    exact SingleTransfer.assemblesTo_form
      (SingleTransfer.word?_signedOffset he (hhigh hg) hlow hb hr)
  | registerOffset hg hb hr hm he =>
    exact SingleTransfer.assemblesTo_form
      (SingleTransfer.word?_registerOffset he (hhigh hg) hlow hb hr (BitVec.eq_of_toNat_eq hm))
  | @atomic e hg hv hb hr hm he =>
    rw [Word.toNat_field] at hg
    rw [Word.bit_eq_false] at hv hb
    have hw : e.word = w := AtomicAccess.word_of_ofWord
      (w.field_eq_ofNat (by omega)) hr (BitVec.eq_of_toNat_eq hm) he
    simpa only [hw] using e.assemblesTo_form

theorem memoryWord?_of_decode {a : Address} {i : Instruction}
    (hc : EncodingClass.ofWord w = .loadStore) (hx : w.field 28 2 ≠ 0) (hd : decode w a = .ok i) :
    i.mnemonic.bind (memoryWord? · i.operands) = some w := by
  obtain ⟨f, -, hf, rfl⟩ := decode_eq_ok hd
  rw [hc] at hf
  cases hf with
  | memory h => exact h.assemblesTo hc hx a

end Encoding

open Encoding

/-- Words of loads and stores outside the exclusive group are told apart by their text: at any address,
two that decode and are written with one mnemonic and one list of operands are the same word, and the
assembler finds the word of a decoded access from its mnemonic and operands. -/
theorem memory_word_of_text (a : Address) :
    (∀ (v w : Word) (i j : Instruction), EncodingClass.ofWord v = .loadStore →
      EncodingClass.ofWord w = .loadStore → v.field 28 2 ≠ 0 → w.field 28 2 ≠ 0 →
      decode v a = .ok i → decode w a = .ok j →
      i.mnemonic = j.mnemonic → i.operands = j.operands → v = w) ∧
    (∀ (w : Word) (i : Instruction), EncodingClass.ofWord w = .loadStore → w.field 28 2 ≠ 0 →
      decode w a = .ok i → i.mnemonic.bind (memoryWord? · i.operands) = some w) := by
  constructor
  · intro v w i j hv hw hvx hwx hi hj hm ho
    exact Instruction.word_eq_of_text (memoryWord?_of_decode hv hvx hi)
      (memoryWord?_of_decode hw hwx hj) hm ho
  · intro w i hw hx hi
    exact memoryWord?_of_decode hw hx hi

/-- A releasing addition whose old value is dropped, and a load with an extended index. -/
theorem memory_word_of_staddl :
    memoryWord? "staddl" [.register (.w 1), .memory (.ofBase (.x 3))] = some 0xb861007f ∧
      memoryWord? "ldr" [.register (.x 0), .memory (.indexed (.x 1) ⟨.w 2, .uxtw, some 3⟩)] =
        some 0xf8625820 ∧
      ∀ w : Word, EncodingClass.ofWord w = .loadStore → w.field 28 2 ≠ 0 → ∀ i, decode w 0x1000 = .ok i →
        i.mnemonic = some "staddl" → i.operands = [.register (.w 1), .memory (.ofBase (.x 3))] →
        w = 0xb861007f := by
  have hadd : decode 0xb861007f 0x1000 =
      .ok ((AtomicAccess.modify .add false true 2 1 31 3).form.place 0xb861007f 0x1000) := rfl
  have hload : decode 0xf8625820 0x1000 = .ok (SingleTransfer.form
      ⟨⟨.load, .general true, "", 3⟩, .scaled, 0, 1, some ⟨.w 2, .uxtw, some 3⟩, 0, .offset⟩ |>.place
        0xf8625820 0x1000) := rfl
  refine ⟨?_, ?_, ?_⟩
  · exact (memory_word_of_text 0x1000).2 _ _ rfl (by decide) hadd
  · exact (memory_word_of_text 0x1000).2 _ _ rfl (by decide) hload
  · intro w hw hx i hi hm ho
    exact (memory_word_of_text 0x1000).1 w 0xb861007f i _ hw rfl hx (by decide) hi hadd hm ho

end A64
