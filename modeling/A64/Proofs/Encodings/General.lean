import A64.Decode

/-! The encodings of general registers, memory, branches and the system. Each class has a relation
between a word and its form, with one case for each group of encodings and the fixed bits of the group,
and a word of the class has a form only by one of these cases. -/

namespace A64.Encoding

variable {α β : Type} {w : Word} {f : Form}

/-! Results of a decoder that may refuse. -/

@[simp] theorem malformed_ne_ok (reason : String) (a : α) :
    (malformed reason : Except Refusal α) = .ok a ↔ False := by
  simp [malformed]

@[simp] theorem unsupported_ne_ok (a : α) :
    (unsupported : Except Refusal α) = .ok a ↔ False := by
  simp [unsupported]

theorem map_eq_ok {x : Except Refusal α} {g : α → β} {b : β} :
    x.map g = .ok b ↔ ∃ a, x = .ok a ∧ g a = b := by
  cases x <;> simp [Except.map]

theorem bind_eq_ok {x : Except Refusal α} {g : α → Except Refusal β} {b : β} :
    x.bind g = .ok b ↔ ∃ a, x = .ok a ∧ g a = .ok b := by
  cases x <;> simp [Except.bind]

inductive ImmediateEncoding (w : Word) : Form → Prop where
  | addressGeneration (hg : (w.field 23 3).toNat ≤ 1) :
      ImmediateEncoding w (AddressGeneration.ofWord w).form
  | addSub (hg : (w.field 23 3).toNat = 2) : ImmediateEncoding w (AddSubImmediate.ofWord w).form
  | logical {e : LogicalImmediate} (hg : (w.field 23 3).toNat = 4)
      (he : LogicalImmediate.ofWord w = .ok e) : ImmediateEncoding w e.form
  | moveWide {e : MoveWide} (hg : (w.field 23 3).toNat = 5) (he : MoveWide.ofWord w = .ok e) :
      ImmediateEncoding w e.form
  | bitfield {e : Bitfield} (hg : (w.field 23 3).toNat = 6) (he : Bitfield.ofWord w = .ok e) :
      ImmediateEncoding w e.form
  | extract {e : Extract} (hg : (w.field 23 3).toNat = 7) (he : Extract.ofWord w = .ok e) :
      ImmediateEncoding w e.form

theorem immediateEncoding_of_ok (h : immediateForm w = .ok f) : ImmediateEncoding w f := by
  have hlt := (w.field 23 3).isLt
  unfold immediateForm at h
  split at h
  case h_1 hg | h_2 hg =>
    cases h
    exact .addressGeneration (by omega)
  case h_3 hg =>
    cases h
    exact .addSub hg
  case h_4 => simp at h
  case h_5 hg =>
    obtain ⟨e, he, rfl⟩ := map_eq_ok.mp h
    exact .logical hg he
  case h_6 hg =>
    obtain ⟨e, he, rfl⟩ := map_eq_ok.mp h
    exact .moveWide hg he
  case h_7 hg =>
    obtain ⟨e, he, rfl⟩ := map_eq_ok.mp h
    exact .bitfield hg he
  case h_8 =>
    obtain ⟨e, he, rfl⟩ := map_eq_ok.mp h
    exact .extract (by grind) he

/-- The fixed bits of system instructions that name no general register. -/
structure IsQuietSystem (w : Word) : Prop where
  group : (w.field 19 2).toNat = 0
  direction : w.bit 21 = false
  rd : w.rd = 31

inductive SystemEncoding (w : Word) : Form → Prop where
  | hint (hq : IsQuietSystem w) (hn : (w.field 12 4).toNat = 2) (ho : w.field 16 3 = 3) :
      SystemEncoding w (Hint.form ⟨w.field 8 4 ++ w.field 5 3⟩)
  | barrier {s : Spelling} (hq : IsQuietSystem w) (hn : (w.field 12 4).toNat = 3)
      (ho : w.field 16 3 = 3) (hs : Barrier.spelling ⟨w.field 8 4, w.field 5 3⟩ = .ok s) :
      SystemEncoding w (.plain s)
  | processorState {f : Form} (hq : IsQuietSystem w) (hn : (w.field 12 4).toNat = 4)
      (hf : ProcessorState.form ⟨w.field 16 3, w.field 8 4, w.field 5 3⟩ = .ok f) : SystemEncoding w f
  | operation (hg : (w.field 19 2).toNat = 1) :
      SystemEncoding w (SystemOperation.form
        ⟨w.bit 21, w.field 16 3, w.field 12 4, w.field 8 4, w.field 5 3, w.rd⟩)
  | move (hg : 2 ≤ (w.field 19 2).toNat) :
      SystemEncoding w (SystemMove.form ⟨w.bit 21, .ofField (w.field 5 15), w.rd⟩)

theorem systemEncoding_of_quiet (hg : (w.field 19 2).toNat = 0) (hd : w.bit 21 = false)
    (h : quietSystemForm w = .ok f) : SystemEncoding w f := by
  simp only [quietSystemForm, ne_eq, ite_not] at h
  split at h
  case isFalse => simp at h
  case isTrue ht =>
    have hq : IsQuietSystem w := ⟨hg, hd, ht⟩
    split at h
    case h_1 hn =>
      split at h
      · next ho =>
        cases h
        exact .hint hq hn ho
      · simp at h
    case h_2 hn =>
      split at h
      · next ho =>
        obtain ⟨s, hs, rfl⟩ := map_eq_ok.mp h
        exact .barrier hq hn ho hs
      · simp at h
    case h_3 hn => exact .processorState hq hn h
    case h_4 => simp at h

theorem systemEncoding_of_ok (h : systemForm w = .ok f) : w.field 22 2 = 0 ∧ SystemEncoding w f := by
  simp only [systemForm, ne_eq, ite_not] at h
  split at h
  case isFalse => simp at h
  case isTrue hz =>
    refine ⟨hz, ?_⟩
    split at h
    case h_1 hg =>
      split at h
      · simp at h
      · next hd => exact systemEncoding_of_quiet hg (by simpa using hd) h
    case h_2 hg =>
      cases h
      exact .operation hg
    case h_3 =>
      cases h
      exact .move (by grind)

inductive BranchEncoding (w : Word) : Form → Prop where
  | immediate (hg : (w.field 29 3).toNat = 0 ∨ (w.field 29 3).toNat = 4) :
      BranchEncoding w (BranchImmediate.ofWord w).form
  | test (hg : (w.field 29 3).toNat = 1 ∨ (w.field 29 3).toNat = 5) (hb : w.bit 25 = true) :
      BranchEncoding w (TestBranch.ofWord w).form
  | compare (hg : (w.field 29 3).toNat = 1 ∨ (w.field 29 3).toNat = 5) (hb : w.bit 25 = false) :
      BranchEncoding w (CompareBranch.ofWord w).form
  | conditional {e : ConditionalBranch} (hg : (w.field 29 3).toNat = 2)
      (he : ConditionalBranch.ofWord w = .ok e) : BranchEncoding w e.form
  | register {e : BranchRegister} (hg : (w.field 29 3).toNat = 6) (hb : w.bit 25 = true)
      (he : BranchRegister.ofWord w = .ok e) : BranchEncoding w e.form
  | exception {e : ExceptionCall} (hg : (w.field 29 3).toNat = 6) (hb : w.bit 25 = false)
      (hs : w.bit 24 = false) (he : ExceptionCall.ofWord w = .ok e) : BranchEncoding w e.form
  | system {f : Form} (hg : (w.field 29 3).toNat = 6) (hb : w.bit 25 = false) (hs : w.bit 24 = true)
      (hz : w.field 22 2 = 0) (hf : SystemEncoding w f) : BranchEncoding w f

theorem branchEncoding_of_ok (h : branchForm w = .ok f) : BranchEncoding w f := by
  unfold branchForm at h
  split at h
  case h_1 hg | h_2 hg =>
    cases h
    exact .immediate (by omega)
  case h_3 hg | h_4 hg =>
    split at h
    · next hb =>
      cases h
      exact .test (by omega) hb
    · next hb =>
      cases h
      exact .compare (by omega) (by simpa using hb)
  case h_5 hg =>
    obtain ⟨e, he, rfl⟩ := map_eq_ok.mp h
    exact .conditional hg he
  case h_6 hg =>
    split at h
    · next hb =>
      obtain ⟨e, he, rfl⟩ := map_eq_ok.mp h
      exact .register hg hb he
    · next hb =>
      split at h
      · next hs =>
        obtain ⟨hz, hf⟩ := systemEncoding_of_ok h
        exact .system hg (by simpa using hb) hs hz hf
      · next hs =>
        obtain ⟨e, he, rfl⟩ := map_eq_ok.mp h
        exact .exception hg (by simpa using hb) (by simpa using hs) he
  case h_7 => simp at h

/-- The family and the write-back of a single transfer with a signed offset in bytes, by bits 11
and 10. -/
def signedAddressing : Nat → TransferFamily × IndexMode
  | 0 => (.unscaled, .offset)
  | 1 => (.scaled, .postIndex)
  | 2 => (.unprivileged, .offset)
  | _ => (.scaled, .preIndex)

inductive MemoryEncoding (w : Word) : Form → Prop where
  | exclusive {e : ExclusiveAccess} (hg : (w.field 28 2).toNat = 0) (hv : w.bit 26 = false)
      (hb : w.bit 24 = false) (he : ExclusiveAccess.ofWord w = .ok e) : MemoryEncoding w e.form
  | literal {e : LiteralLoad} (hg : (w.field 28 2).toNat = 1) (hb : w.bit 24 = false)
      (he : LiteralLoad.ofWord w = .ok e) : MemoryEncoding w e.form
  | pair {e : PairTransfer} (hg : (w.field 28 2).toNat = 2) (he : PairTransfer.ofWord w = .ok e) :
      MemoryEncoding w e.form
  | unsignedOffset {e : SingleTransfer} (hg : (w.field 28 2).toNat = 3) (hb : w.bit 24 = true)
      (he : unsignedOffset w = .ok e) : MemoryEncoding w e.form
  | signedOffset {e : SingleTransfer} (hg : (w.field 28 2).toNat = 3) (hb : w.bit 24 = false)
      (hr : w.bit 21 = false)
      (he : signedOffset w (signedAddressing (w.field 10 2).toNat).1
        (signedAddressing (w.field 10 2).toNat).2 = .ok e) : MemoryEncoding w e.form
  | registerOffset {e : SingleTransfer} (hg : (w.field 28 2).toNat = 3) (hb : w.bit 24 = false)
      (hr : w.bit 21 = true) (hm : (w.field 10 2).toNat = 2) (he : registerOffset w = .ok e) :
      MemoryEncoding w e.form
  | atomic {e : AtomicAccess} (hg : (w.field 28 2).toNat = 3) (hv : w.bit 26 = false)
      (hb : w.bit 24 = false) (hr : w.bit 21 = true) (hm : (w.field 10 2).toNat = 0)
      (he : AtomicAccess.ofWord w = .ok e) : MemoryEncoding w e.form

theorem memoryEncoding_of_single (hg : (w.field 28 2).toNat = 3) (h : singleForm w = .ok f) :
    MemoryEncoding w f := by
  unfold singleForm at h
  split at h
  case isTrue hb =>
    obtain ⟨e, he, rfl⟩ := map_eq_ok.mp h
    exact .unsignedOffset hg hb he
  case isFalse hb =>
    simp only [Bool.not_eq_true] at hb
    split at h
    case isTrue hr =>
      split at h
      case h_1 hm =>
        split at h
        · simp at h
        · next hv =>
          obtain ⟨e, he, rfl⟩ := map_eq_ok.mp h
          exact .atomic hg (by simpa using hv) hb hr hm he
      case h_2 hm =>
        obtain ⟨e, he, rfl⟩ := map_eq_ok.mp h
        exact .registerOffset hg hb hr hm he
      case h_3 => simp at h
    case isFalse hr =>
      simp only [Bool.not_eq_true] at hr
      have hs : (signedOffset w (signedAddressing (w.field 10 2).toNat).1
          (signedAddressing (w.field 10 2).toNat).2).map (·.form) = .ok f := by
        unfold signedAddressing
        split at h <;> simp_all
      obtain ⟨e, he, rfl⟩ := map_eq_ok.mp hs
      exact .signedOffset hg hb hr he

theorem memoryEncoding_of_ok (h : memoryForm w = .ok f) : MemoryEncoding w f := by
  have hlt := (w.field 28 2).isLt
  unfold memoryForm at h
  split at h
  case h_1 hg =>
    split at h
    · split at h <;> simp at h
    · next hv =>
      split at h
      · simp at h
      · next hb =>
        obtain ⟨e, he, rfl⟩ := map_eq_ok.mp h
        exact .exclusive hg (by simpa using hv) (by simpa using hb) he
  case h_2 hg =>
    split at h
    · simp at h
    · next hb =>
      obtain ⟨e, he, rfl⟩ := map_eq_ok.mp h
      exact .literal hg (by simpa using hb) he
  case h_3 hg =>
    obtain ⟨e, he, rfl⟩ := map_eq_ok.mp h
    exact .pair hg he
  case h_4 => exact memoryEncoding_of_single (by grind) h

inductive TwoSourceEncoding (w : Word) : Form → Prop where
  | checksum (ho : w.field 13 3 = 2) (hw : w.bit 31 = (w.field 10 2 == 3)) :
      TwoSourceEncoding w (Checksum.form ⟨w.bit 12, w.field 10 2, w.rm, w.rn, w.rd⟩)
  | arithmetic {op : TwoSourceOp} (ho : TwoSourceOp.ofCode? (w.field 10 6) = some op) :
      TwoSourceEncoding w (TwoSource.form ⟨w.bit 31, op, w.rm, w.rn, w.rd⟩)

theorem twoSourceEncoding_of_ok (h : twoSourceForm w = .ok f) :
    w.bit 29 = false ∧ TwoSourceEncoding w f := by
  simp only [twoSourceForm] at h
  split at h
  case isTrue => simp at h
  case isFalse hs =>
    refine ⟨by simpa using hs, ?_⟩
    split at h
    case isTrue ho =>
      split at h
      · next hw =>
        cases h
        exact .checksum ho hw
      · simp at h
    case isFalse =>
      split at h
      · next op ho =>
        cases h
        exact .arithmetic ho
      · simp at h

inductive RegisterEncoding (w : Word) : Form → Prop where
  | threeSource {e : ThreeSource} (hb : w.bit 28 = true) (ho : 8 ≤ (w.field 21 4).toNat)
      (he : ThreeSource.ofWord w = .ok e) : RegisterEncoding w e.form
  | carry (hb : w.bit 28 = true) (ho : (w.field 21 4).toNat = 0) (hz : w.field 10 6 = 0) :
      RegisterEncoding w (AddSubCarry.ofWord w).form
  | conditionalCompare {e : ConditionalCompare} (hb : w.bit 28 = true)
      (ho : (w.field 21 4).toNat = 2) (he : ConditionalCompare.ofWord w = .ok e) :
      RegisterEncoding w e.form
  | conditionalSelect {e : ConditionalSelect} (hb : w.bit 28 = true) (ho : (w.field 21 4).toNat = 4)
      (he : ConditionalSelect.ofWord w = .ok e) : RegisterEncoding w e.form
  | oneSource {e : OneSource} (hb : w.bit 28 = true) (ho : (w.field 21 4).toNat = 6)
      (hs : w.bit 30 = true) (he : OneSource.ofWord w = .ok e) : RegisterEncoding w e.form
  | twoSource {f : Form} (hb : w.bit 28 = true) (ho : (w.field 21 4).toNat = 6)
      (hs : w.bit 30 = false) (hz : w.bit 29 = false) (hf : TwoSourceEncoding w f) :
      RegisterEncoding w f
  | logical {e : LogicalRegister} (hb : w.bit 28 = false) (ho : (w.field 21 4).toNat < 8)
      (he : LogicalRegister.ofWord w = .ok e) : RegisterEncoding w e.form
  | extended {e : AddSubExtended} (hb : w.bit 28 = false) (ho : 8 ≤ (w.field 21 4).toNat)
      (hx : w.bit 21 = true) (he : AddSubExtended.ofWord w = .ok e) : RegisterEncoding w e.form
  | shifted {e : AddSubShifted} (hb : w.bit 28 = false) (ho : 8 ≤ (w.field 21 4).toNat)
      (hx : w.bit 21 = false) (he : AddSubShifted.ofWord w = .ok e) : RegisterEncoding w e.form

theorem registerEncoding_of_ok (h : registerForm w = .ok f) : RegisterEncoding w f := by
  simp only [registerForm] at h
  split at h
  case isTrue hb =>
    split at h
    case isTrue ho =>
      obtain ⟨e, he, rfl⟩ := map_eq_ok.mp h
      exact .threeSource hb ho he
    case isFalse =>
      split at h
      case h_1 ho =>
        split at h
        · next hz =>
          cases h
          exact .carry hb ho hz
        · simp at h
      case h_2 ho =>
        obtain ⟨e, he, rfl⟩ := map_eq_ok.mp h
        exact .conditionalCompare hb ho he
      case h_3 ho =>
        obtain ⟨e, he, rfl⟩ := map_eq_ok.mp h
        exact .conditionalSelect hb ho he
      case h_4 ho =>
        split at h
        · next hs =>
          obtain ⟨e, he, rfl⟩ := map_eq_ok.mp h
          exact .oneSource hb ho hs he
        · next hs =>
          obtain ⟨hz, hf⟩ := twoSourceEncoding_of_ok h
          exact .twoSource hb ho (by simpa using hs) hz hf
      case h_5 => simp at h
  case isFalse hb =>
    simp only [Bool.not_eq_true] at hb
    split at h
    case isTrue ho =>
      obtain ⟨e, he, rfl⟩ := map_eq_ok.mp h
      exact .logical hb ho he
    case isFalse ho =>
      split at h
      · next hx =>
        obtain ⟨e, he, rfl⟩ := map_eq_ok.mp h
        exact .extended hb (by omega) hx he
      · next hx =>
        obtain ⟨e, he, rfl⟩ := map_eq_ok.mp h
        exact .shifted hb (by omega) (by simpa using hx) he

end A64.Encoding
