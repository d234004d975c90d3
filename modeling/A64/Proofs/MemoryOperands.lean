import Mathlib.Algebra.Order.Ring.Nat
import A64.Proofs.Effects

/-! The address operands of loads and stores. The fixed bits of a word tell which displacements its group
allows. Main statement: the last operand of a load or store and no other is an address, its displacement is
one that the group allows, and beyond a written-back base only data registers are written. -/

namespace A64

def Operand.isAddress : Operand → Bool
  | memory _ | pcRelative _ _ => true
  | _ => false

@[simp] theorem Operand.isAddress_register (r : Register) : (register r).isAddress = false := rfl

namespace Word

def elementBytes (w : Word) : Nat :=
  if w.bit 26 then 4 <<< (w.field 30 2).toNat else if w.bit 31 then 8 else 4

def accessBytes (w : Word) : Nat :=
  if w.bit 26 && w.bit 23 then 16 else 1 <<< (w.field 30 2).toNat

/-- Which displacements a load or store may have, by the bits that tell its group. Pairs count in elements,
single registers with an unsigned offset in accesses and those with a signed one in bytes. Exclusive and
atomic accesses, and those with an index register, have no displacement. -/
def AllowsDisplacement (w : Word) (d : Int) : Prop :=
  match (w.field 28 2).toNat with
  | 0 => d = 0
  | 2 => ∃ k : Int, -64 ≤ k ∧ k ≤ 63 ∧ d = k * w.elementBytes
  | _ =>
    if w.bit 24 then ∃ k : Int, 0 ≤ k ∧ k ≤ 4095 ∧ d = k * w.accessBytes
    else if w.bit 21 then d = 0
    else -256 ≤ d ∧ d ≤ 255

end Word

/-- A register operand of the list is the general register number `n`. -/
def NamesData (operands : List Operand) (n : Nat) : Prop :=
  ∃ r, .register r ∈ operands ∧ r.IsGeneral ∧ r.index = n

/-- The address of a load or store of the word `w` beside its other operands, and what is written. -/
structure MemoryRef.Fits (m : MemoryRef) (w : Word) (operands : List Operand) (writes : RegisterSet) :
    Prop where
  base : ∃ r, m.base = some r ∧ r.IsGeneral ∧ r.size = 64
  index : m.index ≠ none → m.displacement = 0 ∧ m.mode = .offset
  displacement : w.AllowsDisplacement m.displacement
  writeBack : m.mode ≠ .offset → ∀ r, m.base = some r → writes.contains r.index = true
  written : ∀ n, writes.contains n = true →
    (m.mode ≠ .offset ∧ ∃ r, m.base = some r ∧ r.index = n) ∨ NamesData operands n
  unchanged : m.mode = .offset → ∀ r, m.base = some r → writes.contains r.index = true →
    NamesData operands r.index

/-- The operands and written registers of a load or store of the word `w`: the last operand and no other is
an address, for loads of literals one relative to the program counter and otherwise one in memory. -/
inductive EndsInAddress (w : Word) : List Operand → RegisterSet → Prop where
  | literal {front : List Operand} {offset : Int} {target : Address} {writes : RegisterSet}
      (hw : (w.field 28 2).toNat = 1) (hfront : ∀ op ∈ front, op.isAddress = false)
      (hwritten : ∀ n, writes.contains n = true → NamesData front n) :
      EndsInAddress w (front ++ [.pcRelative offset target]) writes
  | memory {front : List Operand} {m : MemoryRef} {writes : RegisterSet}
      (hw : (w.field 28 2).toNat ≠ 1) (hfront : ∀ op ∈ front, op.isAddress = false)
      (hm : m.Fits w front writes) : EndsInAddress w (front ++ [.memory m]) writes

theorem RegisterField.index_base (n : RegisterField) : n.base.index = n.toNat :=
  (Register.tracked?_eq_some.mp (n.tracked?_base n.toNat |>.mpr rfl)).2.1

theorem RegisterField.size_base (n : RegisterField) : n.base.size = 64 := by
  simp only [base, gpOrSp, Register.gpOrSp, Register.width]
  split <;> rfl

theorem namesData_of_tracked? {operands : List Operand} {r : Register} {n : Nat}
    (hr : .register r ∈ operands) (hn : r.tracked? = some n) : NamesData operands n := by
  obtain ⟨hg, hindex, -⟩ := Register.tracked?_eq_some.mp hn
  exact ⟨r, hr, hg, hindex⟩

/-- An address through the base field `rn`, where beyond the base only the data registers `data` are
written. -/
theorem MemoryRef.fits_of_writes {m : MemoryRef} {w : Word} {operands : List Operand}
    {writes : RegisterSet} (rn : RegisterField) (data : List Register) (hbase : m.base = some rn.base)
    (hindex : m.index ≠ none → m.displacement = 0 ∧ m.mode = .offset)
    (hd : w.AllowsDisplacement m.displacement) (hdata : ∀ r ∈ data, .register r ∈ operands)
    (hwrites : ∀ n, writes.contains n = true ↔
      (m.mode ≠ .offset ∧ rn.toNat = n) ∨ ∃ r ∈ data, r.tracked? = some n) :
    m.Fits w operands writes := by
  have hnamed {n : Nat} (h : ∃ r ∈ data, r.tracked? = some n) : NamesData operands n := by
    obtain ⟨r, hr, hn⟩ := h
    exact namesData_of_tracked? (hdata r hr) hn
  constructor
  case base => exact ⟨rn.base, hbase, rn.isGeneral_base, rn.size_base⟩
  case index => exact hindex
  case displacement => exact hd
  case writeBack =>
    intro hmode r hr
    obtain rfl : rn.base = r := Option.some.inj (hbase.symm.trans hr)
    exact (hwrites _).mpr (.inl ⟨hmode, rn.index_base.symm⟩)
  case written =>
    intro n hn
    rcases (hwrites n).mp hn with ⟨hmode, hrn⟩ | hn
    · exact .inl ⟨hmode, rn.base, hbase, rn.index_base.trans hrn⟩
    · exact .inr (hnamed hn)
  case unchanged =>
    intro hmode r _ hn
    rcases (hwrites _).mp hn with ⟨hne, -⟩ | hn
    · exact absurd hmode hne
    · exact hnamed hn

namespace Form

/-- The operands end in an address wherever the form stands. -/
def EndsInAddress (w : Word) (f : Form) : Prop :=
  ∀ a, A64.EndsInAddress w (f.place w a).operands f.writes

variable {w : Word} {f : Form}

theorem endsInAddress_of_reference {r : Reference} (hw : (w.field 28 2).toNat = 1)
    (hr : f.reference = some r) (hfront : ∀ op ∈ f.operands, op.isAddress = false)
    (hwritten : ∀ n, f.writes.contains n = true → NamesData f.operands n) : f.EndsInAddress w := by
  intro a
  have hplace : (f.place w a).operands = f.operands ++ [r.operand a] := by simp [place, hr]
  rw [hplace]
  exact .literal hw hfront hwritten

theorem endsInAddress_of_memory (front : List Operand) {m : MemoryRef} (hw : (w.field 28 2).toNat ≠ 1)
    (ho : f.operands = front ++ [.memory m]) (hr : f.reference = none)
    (hfront : ∀ op ∈ front, op.isAddress = false) (hm : m.Fits w front f.writes) :
    f.EndsInAddress w := by
  intro a
  have hplace : (f.place w a).operands = front ++ [.memory m] := by simp [place, ho, hr]
  rw [hplace]
  exact .memory hw hfront hm

theorem endsInAddress_of_base (operands data : List Register) (rn : RegisterField)
    (hw : (w.field 28 2).toNat ≠ 1) (hd : w.AllowsDisplacement 0)
    (ho : f.operands = operands.map .register ++ [.memory (.ofBase rn.base)]) (hr : f.reference = none)
    (hdata : ∀ r ∈ data, r ∈ operands) (hwrites : f.writes = .of data) : f.EndsInAddress w := by
  have hmode : (MemoryRef.ofBase rn.base).mode = .offset := rfl
  refine endsInAddress_of_memory (operands.map .register) hw ho hr (by simp) ?_
  refine MemoryRef.fits_of_writes rn data rfl (fun h => absurd rfl h) hd (by simpa using hdata) ?_
  simp [hwrites, hmode]

end Form

namespace Encoding

variable {w : Word} {f : Form}

theorem isAddress_prefetchOperand (n : RegisterField) : (prefetchOperand n).isAddress = false := by
  simp only [prefetchOperand]
  split <;> rfl

theorem ExclusiveAccess.endsInAddress_form (e : ExclusiveAccess) (hg : (w.field 28 2).toNat = 0) :
    e.form.EndsInAddress w := by
  have hd : w.AllowsDisplacement 0 := by simp [Word.AllowsDisplacement, hg]
  have haccess {mnemonic : String} {operation : Operation} {operands reads writes : List Register}
      {rn : RegisterField} (h : ∀ r ∈ writes, r ∈ operands) :
      (access mnemonic operation operands rn.base reads writes).EndsInAddress w :=
    Form.endsInAddress_of_base operands writes rn (by omega) hd rfl rfl h rfl
  cases e with
  | single load | pair load | ordered load => cases load <;> exact haccess (by simp)
  | swap | swapPair => exact haccess (by simp)

theorem LiteralLoad.endsInAddress_form (e : LiteralLoad) (hg : (w.field 28 2).toNat = 1) :
    e.form.EndsInAddress w := by
  simp only [form]
  split
  · exact Form.endsInAddress_of_reference hg rfl (by simp [spelled, isAddress_prefetchOperand]) (by simp)
  · refine Form.endsInAddress_of_reference hg rfl (by simp [spelled]) fun n hn => ?_
    exact namesData_of_tracked? List.mem_cons_self (by simpa using hn)

theorem AtomicAccess.endsInAddress_form (e : AtomicAccess) (hg : (w.field 28 2).toNat = 3)
    (hb : w.bit 24 = false) (hr : w.bit 21 = true) : e.form.EndsInAddress w := by
  have hw : (w.field 28 2).toNat ≠ 1 := by omega
  have hd : w.AllowsDisplacement 0 := by simp [Word.AllowsDisplacement, hg, hb, hr]
  cases e with
  | modify op acquire release size rs rt rn =>
    simp only [form]
    split
    · exact Form.endsInAddress_of_base [rs.gp (size = 3)] [] rn hw hd rfl rfl (by simp) rfl
    · exact Form.endsInAddress_of_base [rs.gp (size = 3), rt.gp (size = 3)] [rt.gp (size = 3)] rn
        hw hd rfl rfl (by simp) rfl
  | swap acquire release size rs rt rn =>
    exact Form.endsInAddress_of_base [rs.gp (size = 3), rt.gp (size = 3)] [rt.gp (size = 3)] rn
      hw hd rfl rfl (by simp) rfl
  | loadAcquire size rt rn =>
    exact Form.endsInAddress_of_base [rt.gp (size = 3)] [rt.gp (size = 3)] rn hw hd rfl rfl (by simp) rfl

theorem PairTransfer.elementBytes_of_kind {load nonTemporal : Bool} {view : DataView} {scale : Nat}
    {signed : Bool} (h : kind (w.bit 26) load nonTemporal (w.field 30 2) = .ok (view, scale, signed)) :
    w.elementBytes = 2 ^ scale := by
  have h31 : w.bit 31 = decide (2 ≤ (w.field 30 2).toNat) := by
    rw [Bool.eq_iff_iff, Word.bit_eq_true, Word.toNat_field, decide_eq_true_eq]
    omega
  unfold kind at h
  split at h
  case h_5 =>
    split at h
    · simp at h
    · split at h
      · cases h
        simp_all [Word.elementBytes]
      · simp at h
  case h_7 => simp at h
  all_goals cases h; simp_all [Word.elementBytes]

theorem PairTransfer.allowsDisplacement {e : PairTransfer} (hg : (w.field 28 2).toNat = 2)
    (h : ofWord w = .ok e) : w.AllowsDisplacement e.displacement := by
  obtain ⟨⟨view, scale, signed⟩, hk, rfl⟩ := map_eq_ok.mp h
  have hlow : -2 ^ 7 ≤ 2 * (w.field 15 7).toInt := BitVec.le_two_mul_toInt
  have hhigh : 2 * (w.field 15 7).toInt < 2 ^ 7 := BitVec.two_mul_toInt_lt
  simp only [Word.AllowsDisplacement, hg, displacement, Int.shiftLeft_eq]
  exact ⟨(w.field 15 7).toInt, by omega, by omega, by simp [elementBytes_of_kind hk]⟩

theorem PairTransfer.endsInAddress_form {e : PairTransfer} (hg : (w.field 28 2).toNat = 2)
    (h : ofWord w = .ok e) : e.form.EndsInAddress w := by
  refine Form.endsInAddress_of_memory [.register (e.view.register e.rt), .register (e.view.register e.rt2)]
    (by omega) rfl rfl (by simp) ?_
  refine MemoryRef.fits_of_writes e.rn
    (if e.load then [e.view.register e.rt, e.view.register e.rt2] else []) rfl
    (by simp [MemoryRef.withMode]) (allowsDisplacement hg h) ?_ fun n => ?_
  · cases e.load <;> simp
  · simp only [form, MemoryRef.withMode]
    cases e.load <;> cases e.mode <;> simp [IndexMode.writesBack, or_comm, or_left_comm]

theorem Transfer.accessBytes_of_ofWord {t : Transfer} (h : ofWord w = .ok t) :
    w.accessBytes = 2 ^ t.scale := by
  have h23 : w.bit 23 = (w.field 22 2).getLsbD 1 := by simp [Word.bit, Word.field]
  simp only [ofWord] at h
  split at h
  case h_2 => simp at h
  case h_1 ht =>
    cases h
    split at ht
    · next h26 =>
      simp only [float?, ← h23] at ht
      split at ht
      · next hq =>
        split at ht <;> cases ht
        simp [Word.accessBytes, h26, hq]
      · next hq =>
        cases ht
        simp [Word.accessBytes, h26, hq, Nat.shiftLeft_eq]
    · next h26 =>
      have hlt := (w.field 30 2).isLt
      have hscale : t.scale = (w.field 30 2).toNat := by
        unfold general? at ht
        grind
      simp [Word.accessBytes, h26, hscale, Nat.shiftLeft_eq]

theorem SingleTransfer.endsInAddress_form {e : SingleTransfer} (hg : (w.field 28 2).toNat = 3)
    (hindex : e.index ≠ none → e.displacement = 0 ∧ e.mode = .offset)
    (hd : w.AllowsDisplacement e.displacement) : e.form.EndsInAddress w := by
  refine Form.endsInAddress_of_memory [e.dataOperand] (by omega) rfl rfl ?_ ?_
  · unfold dataOperand
    split <;> simp [isAddress_prefetchOperand]
  refine MemoryRef.fits_of_writes e.rn (if e.access = .load then [e.data] else []) rfl hindex hd ?_
    fun n => ?_
  · cases haccess : e.access <;> simp [dataOperand, haccess]
  · simp only [form, memory]
    cases e.access <;> cases e.mode <;> simp [IndexMode.writesBack, base, or_comm]

theorem MemoryEncoding.endsInAddress (h : MemoryEncoding w f) : f.EndsInAddress w := by
  cases h with
  | @exclusive e hg => exact e.endsInAddress_form hg
  | @literal e hg => exact e.endsInAddress_form hg
  | pair hg he => exact PairTransfer.endsInAddress_form hg he
  | unsignedOffset hg hb he =>
    obtain ⟨t, ht, rfl⟩ := map_eq_ok.mp he
    have hlt := (w.field 10 12).isLt
    refine SingleTransfer.endsInAddress_form hg (fun h => absurd rfl h) ?_
    simp only [Word.AllowsDisplacement, hg, hb, if_true]
    refine ⟨(w.field 10 12).toNat, by omega, by omega, ?_⟩
    simp [Transfer.accessBytes_of_ofWord ht, Nat.shiftLeft_eq]
  | signedOffset hg hb hr he =>
    obtain ⟨t, ht, he⟩ := bind_eq_ok.mp he
    have hlow : -2 ^ 9 ≤ 2 * (w.field 12 9).toInt := BitVec.le_two_mul_toInt
    have hhigh : 2 * (w.field 12 9).toInt < 2 ^ 9 := BitVec.two_mul_toInt_lt
    have hd : w.AllowsDisplacement (w.field 12 9).toInt := by
      simp only [Word.AllowsDisplacement, hg, hb, hr, Bool.false_eq_true, if_false]
      omega
    split at he
    · simp at he
    split at he
    · simp at he
    · cases he
      exact SingleTransfer.endsInAddress_form hg (fun h => absurd rfl h) hd
  | registerOffset hg hb hr hm he =>
    obtain ⟨t, ht, he⟩ := bind_eq_ok.mp he
    have hd : w.AllowsDisplacement 0 := by simp [Word.AllowsDisplacement, hg, hb, hr]
    simp only at he
    split at he
    · cases he
      exact SingleTransfer.endsInAddress_form hg (fun _ => ⟨rfl, rfl⟩) hd
    · simp at he
  | @atomic e hg _ hb hr => exact e.endsInAddress_form hg hb hr

end Encoding

/-- The operands of a decoded load or store end in its only address. -/
theorem endsInAddress_of_decode {w : Word} {a : Address} {i : Instruction}
    (hc : EncodingClass.ofWord w = .loadStore) (hd : decode w a = .ok i) :
    EndsInAddress w i.operands i.writes := by
  obtain ⟨f, -, he, rfl⟩ := Encoding.decode_eq_ok hd
  rw [hc] at he
  cases he with
  | memory h => exact h.endsInAddress a

/-- A pair that is popped from the stack, two doublewords at once. -/
theorem endsInAddress_of_ldp :
    ∃ i, EncodingClass.ofWord 0xA8C17BFD = .loadStore ∧ decode 0xA8C17BFD 0 = .ok i ∧
      i.operands = [.register (.x 29), .register .lr, .memory (.postIndex .sp 16)] ∧
      EndsInAddress 0xA8C17BFD i.operands i.writes :=
  ⟨_, by decide, rfl, rfl, endsInAddress_of_decode (by decide) rfl⟩

end A64
