import A64.Proofs.Effects.General
import A64.Proofs.Effects.Vector
import A64.Proofs.Rendering

/-! Operands and effects of decoded instructions. Main statements: the effects account for every register
that an operand names, and what they tell beyond the operands is implicit in the mnemonic, but for the
summand field that the high half of a product reads. -/

namespace A64

namespace Operand

def registers (op : Operand) : List Register := op.roles.map Prod.fst

theorem isValid_of_isExpressible {op : Operand} (h : op.IsExpressible) :
    ∀ p ∈ op.roles, p.1.isValid = true := by
  cases op with
  | register r | shifted r shift amount | extended e => simpa [roles, IsExpressible] using h
  | memory m =>
    obtain ⟨⟨base, hbase, hv⟩, hindex⟩ := h
    cases hx : m.index with
    | none => simp [MemoryRef.roles, hbase, hx, hv]
    | some x => simp [MemoryRef.roles, hbase, hx, hv, (hindex x hx).1]
  | immediate | shiftedImmediate | count | float | pcRelative | condition | systemRegister
  | controlRegister | named | vector | element => simp [roles]

theorem tracked?_of_isExpressible {op : Operand} (h : op.IsExpressible) {p : Register × RegisterRole}
    (hp : p ∈ op.roles) (hg : p.1.IsGeneral) : p.1.tracked? = some p.1.index := by
  have hv := isValid_of_isExpressible h p hp
  simp only [Register.isValid, Bool.and_eq_true, decide_eq_true_eq] at hv
  exact Register.tracked?_eq_some.mpr ⟨hg, rfl, hv.1⟩

end Operand

namespace Encoding

theorem Encoded.isAccounted {w : Word} {f : Form} (h : Encoded w (.ofWord w) f) : f.IsAccounted w := by
  generalize hc : EncodingClass.ofWord w = c at h
  cases h with
  | immediate h => exact h.accounts.isAccounted w
  | branch h => exact h.isAccounted
  | memory h => exact h.accounts.isAccounted w
  | register h => exact h.isAccounted hc
  | vector h => exact h.accounts.isAccounted w

end Encoding

namespace Instruction

def Names (i : Instruction) (n : Nat) : Prop :=
  ∃ op ∈ i.operands, ∃ r ∈ op.registers, r.IsGeneral ∧ r.index = n

def Touches (i : Instruction) (n : Nat) : Prop := i.reads.contains n = true ∨ i.writes.contains n = true

/-- The register number `n` is among the effects, but neither an operand nor the mnemonic tells. -/
def IsPhantom (i : Instruction) (n : Nat) : Prop :=
  i.Touches n ∧ ¬i.Names n ∧ n ∉ implicitRegisters i.mnemonic

instance (i : Instruction) (n : Nat) : Decidable (i.Names n) :=
  inferInstanceAs (Decidable (∃ op ∈ i.operands, ∃ r ∈ op.registers, r.IsGeneral ∧ r.index = n))

instance (i : Instruction) (n : Nat) : Decidable (i.Touches n) := inferInstanceAs (Decidable (_ ∨ _))

instance (i : Instruction) (n : Nat) : Decidable (i.IsPhantom n) :=
  inferInstanceAs (Decidable (_ ∧ ¬_ ∧ _))

end Instruction

namespace Form

theorem roles_place (f : Form) (w : Word) (a : Address) :
    (f.place w a).operands.flatMap Operand.roles = f.roles := by
  simp only [place, List.flatMap_append, roles]
  cases f.reference <;> simp [Reference.operand, Operand.roles]

theorem mem_roles_of_place {f : Form} {w : Word} {a : Address} {op : Operand}
    (hop : op ∈ (f.place w a).operands) {p : Register × RegisterRole} (hp : p ∈ op.roles) :
    p ∈ f.roles := by
  rw [← f.roles_place w a]
  exact List.mem_flatMap.mpr ⟨op, hop, hp⟩

theorem names_place {f : Form} {w : Word} {a : Address}
    (h : ∀ op ∈ (f.place w a).operands, op.IsExpressible) (n : Nat) :
    (f.place w a).Names n ↔ f.Names n := by
  constructor
  · rintro ⟨op, hop, r, hr, hg, rfl⟩
    obtain ⟨p, hp, rfl⟩ := List.mem_map.mp hr
    exact ⟨p, mem_roles_of_place hop hp, Operand.tracked?_of_isExpressible (h op hop) hp hg⟩
  · rintro ⟨p, hp, hn⟩
    rw [← f.roles_place w a] at hp
    obtain ⟨op, hop, hp⟩ := List.mem_flatMap.mp hp
    obtain ⟨hg, hindex, -⟩ := Register.tracked?_eq_some.mp hn
    exact ⟨op, hop, p.1, List.mem_map_of_mem hp, hg, hindex⟩

end Form

/-- The effects account for an operand: every general register that it names is read or written, and it is
read if it is shifted, extended or part of an address, as every base is. -/
structure Operand.IsAccounted (op : Operand) (reads writes : RegisterSet) : Prop where
  touched : ∀ r ∈ op.registers, r.IsGeneral →
    reads.contains r.index = true ∨ writes.contains r.index = true
  base : ∀ m r, op = .memory m → m.base = some r → reads.contains r.index = true
  index : ∀ m x, op = .memory m → m.index = some x → x.reg.IsGeneral →
    reads.contains x.reg.index = true
  shifted : ∀ r shift amount, op = .shifted r shift amount → r.IsGeneral →
    reads.contains r.index = true
  extended : ∀ e, op = .extended e → e.reg.IsGeneral → reads.contains e.reg.index = true

/-- The effects of a decoded instruction account for each of its operands. -/
theorem operands_accounted {w : Word} {a : Address} {i : Instruction} (hd : decode w a = .ok i) :
    ∀ op ∈ i.operands, op.IsAccounted i.reads i.writes := by
  intro op hop
  have hexpressible := isExpressible_of_decode hd op hop
  obtain ⟨f, -, he, rfl⟩ := Encoding.decode_eq_ok hd
  obtain ⟨implicit, hf, -⟩ := he.isAccounted
  have hreads {p : Register × RegisterRole} (hp : p ∈ op.roles) (hrole : p.2 ≠ .data)
      (hg : p.1.IsGeneral) : f.reads.contains p.1.index = true :=
    hf.reads p (Form.mem_roles_of_place hop hp) hrole _
      (Operand.tracked?_of_isExpressible hexpressible hp hg)
  constructor
  case touched =>
    intro r hr hg
    obtain ⟨p, hp, rfl⟩ := List.mem_map.mp hr
    exact (hf.touches _).mpr (.inl ⟨p, Form.mem_roles_of_place hop hp,
      Operand.tracked?_of_isExpressible hexpressible hp hg⟩)
  case base =>
    rintro m r rfl hr
    have hp : (r, .base) ∈ (Operand.memory m).roles := by simp [MemoryRef.roles, hr]
    exact hreads hp (by simp) (hf.base _ (Form.mem_roles_of_place hop hp) rfl)
  case index =>
    rintro m x rfl hx hg
    exact hreads (p := (x.reg, .source)) (by simp [MemoryRef.roles, hx]) (by simp) hg
  case shifted =>
    rintro r shift amount rfl hg
    exact hreads (p := (r, .source)) (by simp [Operand.roles]) (by simp) hg
  case extended =>
    rintro e rfl hg
    exact hreads (p := (e.reg, .source)) (by simp) (by simp) hg

/-- A load through an extended index reads its base and its index, and a comparison its shifted register. -/
theorem operands_accounted_address :
    (∃ i, decode 0xF8635841 0 = .ok i ∧ .memory (.indexed (.x 2) ⟨.w 3, .uxtw, some 3⟩) ∈ i.operands ∧
      i.reads.contains 2 = true ∧ i.reads.contains 3 = true) ∧
    ∃ i, decode 0xEB450C9F 0 = .ok i ∧ .shifted (.x 5) .lsr 3 ∈ i.operands ∧
      i.reads.contains 5 = true := by
  have hload : Operand.IsAccounted (.memory (.indexed (.x 2) ⟨.w 3, .uxtw, some 3⟩)) _ _ :=
    operands_accounted (w := 0xF8635841) (a := 0) rfl _ (by decide)
  have hcompare : Operand.IsAccounted (.shifted (.x 5) .lsr 3) _ _ :=
    operands_accounted (w := 0xEB450C9F) (a := 0) rfl _ (by decide)
  exact ⟨⟨_, rfl, by decide, hload.base _ _ rfl rfl, hload.index _ _ rfl rfl (by decide)⟩,
    ⟨_, rfl, by decide, hcompare.shifted _ _ _ rfl (by decide)⟩⟩

namespace Encoding

def ThreeSource.high (w : Word) : ThreeSource :=
  ⟨true, if w.bit 23 then .unsignedHigh else .signedHigh, false, w.rm, w.ra, w.rn, w.rd⟩

theorem ThreeSource.kind?_high {w : Word} (h : w.IsHighProduct) :
    kind? (w.field 21 3) false true = some (high w).kind := by
  have hlow := h.2.1
  rw [Word.toNat_field] at hlow
  cases h23 : w.bit 23 with
  | false =>
    have hcode : (w.field 21 3).toNat = 2 := by
      rw [Word.bit_eq_false] at h23
      rw [Word.toNat_field]
      omega
    simp [kind?, high, hcode, h23]
  | true =>
    have hcode : (w.field 21 3).toNat = 6 := by
      rw [Word.bit_eq_true] at h23
      rw [Word.toNat_field]
      omega
    simp [kind?, high, hcode, h23]

theorem formOf_of_isHighProduct {w : Word} (h : w.IsHighProduct) :
    formOf w = .ok (ThreeSource.high w).form := by
  have hkind := ThreeSource.kind?_high h
  obtain ⟨htop, -, h15⟩ := h
  rw [Word.toNat_field] at htop
  have hclass : (w.field 25 4).toNat = 13 := by
    rw [Word.toNat_field]
    omega
  have h28 : w.bit 28 = true := Word.bit_eq_true.mpr (by omega)
  have h31 : w.bit 31 = true := Word.bit_eq_true.mpr (by omega)
  have hgroup : 8 ≤ (w.field 21 4).toNat := by
    rw [Word.toNat_field]
    omega
  have hvalue : (w.field 29 2).toNat = 0 := by
    rw [Word.toNat_field]
    omega
  have hzero : w.field 29 2 = 0 := BitVec.eq_of_toNat_eq hvalue
  have hword : ThreeSource.ofWord w = .ok (ThreeSource.high w) := by
    simp [ThreeSource.ofWord, hzero, h15, h31, hkind, ThreeSource.high]
  simp [formOf, EncodingClass.ofWord, hclass, registerForm, h28, hgroup, hword, Except.map]

/-- The high half of a product touches its result and factors, which it names, and the field of the summand
that it has not. -/
theorem ThreeSource.isPhantom_high {w : Word} {a : Address}
    (h : ∀ op ∈ ((high w).form.place w a).operands, op.IsExpressible) (n : Nat) :
    ((high w).form.place w a).IsPhantom n ↔ w.ra ∉ [w.rd, w.rn, w.rm, 31] ∧ n = w.ra.toNat := by
  have hname : (high w).names.2 = none ∧ (high w).isLong = false ∧
      implicitRegisters (high w).form.mnemonic = [] := by
    cases h23 : w.bit 23 <;> simp [high, names, isLong, form, spelling, spelled, implicitRegisters, h23]
  have htracked : (high w).result = w.rd.gp true ∧ (high w).first = w.rn.gp true ∧
      (high w).second = w.rm.gp true ∧ (high w).summand = w.ra.gp true := by
    refine ⟨rfl, ?_, ?_, rfl⟩ <;> simp only [first, second, hname] <;> rfl
  have htouches : ((high w).form.place w a).Touches n ↔ (high w).form.Touches n := Iff.rfl
  have hnames : ((high w).form.place w a).Names n ↔
      (w.rd ≠ 31 ∧ w.rd.toNat = n) ∨ (w.rn ≠ 31 ∧ w.rn.toNat = n) ∨ w.rm ≠ 31 ∧ w.rm.toNat = n := by
    rw [Form.names_place h]
    simp [Form.Names, roles_form, hname, htracked]
  have hmnemonic : implicitRegisters ((high w).form.place w a).mnemonic = [] := hname.2.2
  simp only [Instruction.IsPhantom, htouches, touches_form, hnames, hmnemonic, htracked,
    RegisterField.tracked?_gp, List.mem_cons, List.not_mem_nil, or_false, not_false_eq_true, and_true]
  bv_omega

end Encoding

/-- The only phantom of a decoded instruction is the summand field of the high half of a product, where no
other field names its register. -/
theorem isPhantom_iff_highProduct {w : Word} {a : Address} {i : Instruction} (hd : decode w a = .ok i)
    (hr : i.reads.isAll = false) (n : Nat) :
    i.IsPhantom n ↔ w.IsHighProduct ∧ w.ra ∉ [w.rd, w.rn, w.rm, 31] ∧ n = w.ra.toNat := by
  have hexpressible := isExpressible_of_decode hd
  obtain ⟨f, hf, he, rfl⟩ := Encoding.decode_eq_ok hd
  by_cases hhigh : w.IsHighProduct
  -- The bits of a high half tell its form, and elsewhere every reason but a name is ruled out.
  · obtain rfl : (Encoding.ThreeSource.high w).form = f := by
      rw [Encoding.formOf_of_isHighProduct hhigh] at hf
      exact Except.ok.inj hf
    simp only [hhigh, true_and]
    exact Encoding.ThreeSource.isPhantom_high hexpressible n
  · simp only [hhigh, false_and, iff_false]
    rintro ⟨htouches, hnames, himplicit⟩
    obtain ⟨implicit, haccounts, himplies⟩ := he.isAccounted
    rw [Form.names_place hexpressible] at hnames
    have hn : n ∈ implicit := ((haccounts.touches n).mp htouches).resolve_left hnames
    cases himplies with
    | nothing => cases hn
    | everything hall =>
      have hreads : f.reads.isAll = false := hr
      simp [hall, RegisterSet.isAll] at hreads
    | byName hname => exact himplicit (hname ▸ hn)
    | summand h => exact hhigh h

/-- A `smulh` of `x1` and `x2` into `x0` reads `x5`, which its summand field names. -/
theorem phantom_of_smulh :
    ∃ i, decode 0x9B421420 0x1000 = .ok i ∧ i.reads.isAll = false ∧ i.writes.isAll = false ∧
      ¬∀ n, i.Touches n → i.Names n ∨ n ∈ implicitRegisters i.mnemonic := by
  refine ⟨_, rfl, rfl, rfl, fun h => ?_⟩
  exact absurd (h 5 (by decide)) (by decide)

/-- The register of a `smulh` is a phantom, and a `paciasp`, which names no register, has none. -/
theorem isPhantom_iff_of_smulh :
    (∃ i, decode 0x9B421420 0x1000 = .ok i ∧ i.reads.isAll = false ∧ ∀ n, i.IsPhantom n ↔ n = 5) ∧
      ∃ i, decode 0xD503233F 0 = .ok i ∧ i.reads.isAll = false ∧ i.operands = [] ∧ i.Touches 31 ∧
        ∀ n, ¬i.IsPhantom n := by
  refine ⟨⟨_, rfl, rfl, fun n => ?_⟩, ⟨_, rfl, rfl, rfl, by decide, fun n h => ?_⟩⟩
  · rw [isPhantom_iff_highProduct (w := 0x9B421420) (a := 0x1000) rfl rfl]
    exact ⟨fun h => h.2.2, fun h => ⟨by decide, by decide, h⟩⟩
  · have hnone : ¬Word.IsHighProduct 0xD503233F := by decide
    exact hnone ((isPhantom_iff_highProduct (w := 0xD503233F) (a := 0) rfl rfl n).mp h).1

end A64
