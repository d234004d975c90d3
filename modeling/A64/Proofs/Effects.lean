import A64.Proofs.References
import A64.Proofs.RegisterSets

/-! Which registers an instruction touches and which ones its operands name. A form accounts for its
operands if it touches exactly the registers that they name, up to a list of implicit ones, and reads every
register that is shifted, extended or part of an address. What may be implicit is told by the name of the
instruction, but for the field that the high half of a product has no use for. -/

namespace A64

namespace Register

@[simp] theorem tracked?_lr (n : Nat) : lr.tracked? = some n ↔ n = 30 := by
  simp [lr, tracked?, eq_comm]

@[simp] theorem tracked?_sp (n : Nat) : sp.tracked? = some n ↔ n = 31 := by
  simp [sp, tracked?, eq_comm]

end Register

namespace RegisterField

@[simp] theorem tracked?_gp (m : RegisterField) (wide : Bool) (n : Nat) :
    (m.gp wide).tracked? = some n ↔ m ≠ 31 ∧ m.toNat = n := by
  have hlt := m.isLt
  have h31 : m = 31 ↔ m.toNat = 31 := BitVec.toNat_eq
  simp only [gp, Register.gp, Nat.mod_eq_of_lt hlt, ne_eq, h31]
  split
  · next h => simp [Register.tracked?, h]
  · next h => simpa [Register.tracked?, h] using fun _ => by omega

@[simp] theorem tracked?_gpOrSp (m : RegisterField) (wide : Bool) (n : Nat) :
    (m.gpOrSp wide).tracked? = some n ↔ m.toNat = n := by
  have hlt := m.isLt
  simp only [gpOrSp, Register.gpOrSp, Nat.mod_eq_of_lt hlt]
  split
  · next h => simp [Register.tracked?, h]
  · simpa [Register.tracked?] using fun _ => by omega

@[simp] theorem tracked?_base (m : RegisterField) (n : Nat) :
    m.base.tracked? = some n ↔ m.toNat = n := m.tracked?_gpOrSp true n

@[simp] theorem tracked?_float (m : RegisterField) (size : Nat) : (m.float size).tracked? = none := rfl

theorem isGeneral_base (m : RegisterField) : m.base.IsGeneral := by
  simp only [base, gpOrSp, Register.gpOrSp, Register.IsGeneral]
  split <;> simp

end RegisterField

/-- What an operand does with a register that it names. The value of a source is only used, and so is that
of the base of an address. -/
inductive RegisterRole where
  | data
  | source
  | base
  deriving DecidableEq

namespace MemoryRef

def roles (m : MemoryRef) : List (Register × RegisterRole) :=
  (m.base.map (·, .base)).toList ++ (m.index.map (·.reg, .source)).toList

@[simp] theorem roles_ofBase (base : Register) : (ofBase base).roles = [(base, .base)] := rfl

end MemoryRef

namespace Operand

def roles : Operand → List (Register × RegisterRole)
  | register r => [(r, .data)]
  | shifted r _ _ => [(r, .source)]
  | extended e => [(e.reg, .source)]
  | memory m => m.roles
  | _ => []

@[simp] theorem roles_register (r : Register) : (register r).roles = [(r, .data)] := rfl

@[simp] theorem roles_extended (e : ExtendedRegister) : (extended e).roles = [(e.reg, .source)] := rfl

@[simp] theorem roles_memory (m : MemoryRef) : (memory m).roles = m.roles := rfl

@[simp] theorem roles_count (n : Nat) : (count n).roles = [] := rfl

@[simp] theorem roles_float (x : Binary64) : (float x).roles = [] := rfl

@[simp] theorem roles_condition (c : Condition) : (condition c).roles = [] := rfl

@[simp] theorem roles_named (name : String) : (named name).roles = [] := rfl

@[simp] theorem roles_lanes (n : RegisterField) (arrangement : Arrangement) :
    (n.lanes arrangement).roles = [] := rfl

@[simp] theorem roles_lane (n : RegisterField) (size : ElementSize) (index : Nat) :
    (n.lane size index).roles = [] := rfl

@[simp] theorem roles_scalar (n : RegisterField) (size : Nat) :
    (n.scalar size).roles = [(n.float size, .data)] := rfl

def IsUntracked (op : Operand) : Prop := ∀ p ∈ op.roles, p.2 = .data ∧ p.1.tracked? = none

theorem flatMap_roles_register (rs : List Register) :
    (rs.map register).flatMap roles = rs.map (·, .data) := by
  induction rs with
  | nil => rfl
  | cons r rs ih => rw [List.map_cons, List.flatMap_cons, ih, roles_register, List.map_cons,
      List.singleton_append]

theorem roles_ofShift (r : Register) (shift : Shift) (amount : Nat) :
    ∃ role, (ofShift r shift amount).roles = [(r, role)] ∧ role ≠ .base := by
  unfold ofShift
  split
  · exact ⟨.data, rfl, by simp⟩
  · exact ⟨.source, rfl, by simp⟩

end Operand

namespace Form

def roles (f : Form) : List (Register × RegisterRole) := f.operands.flatMap Operand.roles

def Names (f : Form) (n : Nat) : Prop := ∃ p ∈ f.roles, p.1.tracked? = some n

def Touches (f : Form) (n : Nat) : Prop := f.reads.contains n = true ∨ f.writes.contains n = true

/-- The form touches exactly the registers that its operands name and the implicit ones. It reads those
that are more than data, and sets track the base of every address. -/
structure Accounts (f : Form) (implicit : List Nat) : Prop where
  touches : ∀ n, f.Touches n ↔ f.Names n ∨ n ∈ implicit
  reads : ∀ p ∈ f.roles, p.2 ≠ .data → ∀ n, p.1.tracked? = some n → f.reads.contains n = true
  base : ∀ p ∈ f.roles, p.2 = .base → p.1.IsGeneral

variable {f : Form} {implicit : List Nat}

/-- Operands that are data but for the last ones, which the form reads. -/
theorem accounts_of_roles (data : List Register) (used : List (Register × RegisterRole))
    (hroles : f.roles = data.map (·, .data) ++ used)
    (hreads : ∀ p ∈ used, ∀ n, p.1.tracked? = some n → f.reads.contains n = true)
    (hbase : ∀ p ∈ used, p.2 = .base → p.1.IsGeneral)
    (htouches : ∀ n, f.Touches n ↔ ((∃ r ∈ data, r.tracked? = some n) ∨
      ∃ p ∈ used, p.1.tracked? = some n) ∨ n ∈ implicit) : f.Accounts implicit where
  touches n := by
    have hnames : f.Names n ↔ (∃ r ∈ data, r.tracked? = some n) ∨ ∃ p ∈ used, p.1.tracked? = some n := by
      simp only [Names, hroles, List.mem_append, or_and_right, exists_or, List.mem_map]
      simp
    rw [htouches, hnames]
  reads p hp hdata := by
    rw [hroles, List.mem_append] at hp
    rcases hp with hp | hp
    · obtain ⟨r, -, rfl⟩ := List.mem_map.mp hp
      exact absurd rfl hdata
    · exact hreads p hp
  base p hp hb := by
    rw [hroles, List.mem_append] at hp
    rcases hp with hp | hp
    · obtain ⟨r, -, rfl⟩ := List.mem_map.mp hp
      cases hb
    · exact hbase p hp hb

theorem accounts_of_data (data : List Register) (hroles : f.roles = data.map (·, .data))
    (htouches : ∀ n, f.Touches n ↔ (∃ r ∈ data, r.tracked? = some n) ∨ n ∈ implicit) :
    f.Accounts implicit :=
  accounts_of_roles data [] (hroles.trans (List.append_nil _).symm) (by simp) (by simp)
    (by simpa using htouches)

theorem accounts_of_base (data : List Register) (rn : RegisterField)
    (hroles : f.roles = data.map (·, .data) ++ [(rn.base, .base)])
    (hreads : f.reads.contains rn.toNat = true)
    (htouches : ∀ n, f.Touches n ↔ ((∃ r ∈ data, r.tracked? = some n) ∨ rn.toNat = n) ∨ n ∈ implicit) :
    f.Accounts implicit := by
  refine accounts_of_roles data [(rn.base, .base)] hroles ?_ ?_ ?_
  · simpa using hreads
  · simpa using rn.isGeneral_base
  · simpa using htouches

theorem accounts_of_untracked (hoperands : ∀ op ∈ f.operands, op.IsUntracked)
    (hreads : ∀ n, f.reads.contains n = false) (hwrites : ∀ n, f.writes.contains n = false) :
    f.Accounts [] := by
  have hroles : ∀ p ∈ f.roles, p.2 = .data ∧ p.1.tracked? = none := by
    intro p hp
    obtain ⟨op, hop, hp⟩ := List.mem_flatMap.mp hp
    exact hoperands op hop p hp
  have hnames (n : Nat) : ¬f.Names n := by
    rintro ⟨p, hp, hn⟩
    rw [(hroles p hp).2] at hn
    cases hn
  refine ⟨fun n => ?_, fun p hp hdata => ?_, fun p hp hbase => ?_⟩
  · simp [Touches, hreads, hwrites, hnames]
  · exact absurd (hroles p hp).1 hdata
  · rw [(hroles p hp).1] at hbase
    cases hbase

theorem accounts_plain {s : Spelling} (h : ∀ op ∈ s.operands, op.IsUntracked) : (plain s).Accounts [] :=
  accounts_of_untracked h (by simp [plain]) (by simp [plain])

end Form

/-- The registers that an instruction of this name touches without an operand for them: calls, returns and
the authentication of the return address use the link register, and some of them the stack pointer. -/
def implicitRegisters (mnemonic : Option String) : List Nat :=
  match mnemonic with
  | none => []
  | some m =>
    if m ∈ ["retaa", "retab", "paciasp", "pacibsp", "autiasp", "autibsp"] then [30, 31]
    else if m ∈ ["bl", "blr", "blraa", "blraaz", "blrab", "blrabz", "ret", "paciaz", "pacibz", "autiaz",
      "autibz"] then [30]
    else []

/-- The word is a `smulh` or an `umulh`: bits 31 to 24 are `10011011`, bits 22 and 21 are `10` and bit 15 is
clear. -/
def Word.IsHighProduct (w : Word) : Prop :=
  (w.field 24 8).toNat = 0b10011011 ∧ (w.field 21 2).toNat = 0b10 ∧ w.bit 15 = false

instance (w : Word) : Decidable w.IsHighProduct := inferInstanceAs (Decidable (_ ∧ _))

namespace Form

/-- Why a form of the word `w` touches registers that its operands do not name. -/
inductive Implies (w : Word) (f : Form) : List Nat → Prop where
  | nothing : Implies w f []
  /-- Code elsewhere may touch every register. -/
  | everything (h : f.reads = .all) : Implies w f (List.range 32)
  | byName {implicit : List Nat} (h : implicitRegisters f.mnemonic = implicit) : Implies w f implicit
  /-- The field of a summand is read although the high half of a product has none. -/
  | summand (h : w.IsHighProduct) : Implies w f [w.ra.toNat]

def IsAccounted (w : Word) (f : Form) : Prop := ∃ implicit, f.Accounts implicit ∧ f.Implies w implicit

theorem Accounts.isAccounted {f : Form} (h : f.Accounts []) (w : Word) : f.IsAccounted w :=
  ⟨[], h, .nothing⟩

end Form

end A64
