import A64.Proofs.Encodings
import A64.Proofs.RenderOutcomes

/-! Operands that assembly can write wherever their instruction stands, and the forms that have only such
operands. -/

namespace A64

namespace Register

@[simp] theorem isValid_gp (wide : Bool) (n : Nat) : (gp wide n).isValid = true := by
  unfold gp
  split <;> cases wide <;> simp [isValid, width] <;> omega

@[simp] theorem isValid_gpOrSp (wide : Bool) (n : Nat) : (gpOrSp wide n).isValid = true := by
  unfold gpOrSp
  split <;> cases wide <;> simp [isValid, width] <;> omega

def IsScalarWidth (size : Nat) : Prop := size ∈ [8, 16, 32, 64, 128]

theorem isScalarWidth_bytes {k : Nat} (h : k ≤ 4) : IsScalarWidth (8 <<< k) := by
  match k, h with
  | 0, _ | 1, _ | 2, _ | 3, _ | 4, _ => simp [IsScalarWidth]

theorem isValid_float {size : Nat} (h : IsScalarWidth size) (n : Nat) :
    (float size n).isValid = true := by
  simp only [IsScalarWidth, List.mem_cons, List.not_mem_nil, or_false] at h
  have hn : n % 32 ≤ 31 := by omega
  rcases h with rfl | rfl | rfl | rfl | rfl <;> simp [float, isValid, hn]

end Register

/-- Assembly can write the operand wherever its instruction stands. -/
def Operand.IsFixed (op : Operand) : Prop :=
  op.IsExpressible ∧ ∀ offset target, op ≠ .pcRelative offset target

namespace Operand

@[simp] theorem isFixed_register {r : Register} : (register r).IsFixed ↔ r.isValid = true := by
  simp [IsFixed, IsExpressible]

@[simp] theorem isFixed_count (n : Nat) : (count n).IsFixed := by simp [IsFixed, IsExpressible]

@[simp] theorem isFixed_immediate (i : Immediate) : (immediate i).IsFixed := by
  simp [IsFixed, IsExpressible]

@[simp] theorem isFixed_ofNat (n : Nat) : (ofNat n).IsFixed := isFixed_immediate _

@[simp] theorem isFixed_ofInt (v : Int) : (ofInt v).IsFixed := isFixed_immediate _

@[simp] theorem isFixed_condition (c : Condition) : (condition c).IsFixed := by
  simp [IsFixed, IsExpressible]

@[simp] theorem isFixed_shiftedImmediate (value shift : Nat) :
    (shiftedImmediate value shift).IsFixed := by
  simp [IsFixed, IsExpressible]

@[simp] theorem isFixed_ofShift {r : Register} (shift : Shift) (amount : Nat) :
    (ofShift r shift amount).IsFixed ↔ r.isValid = true := by
  unfold ofShift
  split <;> simp [IsFixed, IsExpressible]

@[simp] theorem isFixed_extended {e : ExtendedRegister} :
    (extended e).IsFixed ↔ e.reg.isValid = true := by
  simp [IsFixed, IsExpressible]

@[simp] theorem isFixed_float {x : Binary64} : (float x).IsFixed ↔ x.isFinite = true := by
  simp [IsFixed, IsExpressible]

@[simp] theorem isFixed_systemRegister (r : SystemRegister) : (systemRegister r).IsFixed := by
  simp [IsFixed, IsExpressible]

@[simp] theorem isFixed_controlRegister {n : Nat} : (controlRegister n).IsFixed ↔ n < 16 := by
  simp [IsFixed, IsExpressible]

@[simp] theorem isFixed_named {name : String} : (named name).IsFixed ↔ name ≠ "" := by
  simp [IsFixed, IsExpressible]

@[simp] theorem isFixed_memory {m : MemoryRef} : (memory m).IsFixed ↔ m.IsExpressible := by
  simp [IsFixed, IsExpressible]

end Operand

@[simp] theorem MemoryRef.isExpressible_withMode {r : Register} (displacement : Int)
    (mode : IndexMode) : (withMode r displacement mode).IsExpressible ↔ r.isValid = true := by
  simp [IsExpressible, withMode]

@[simp] theorem MemoryRef.isExpressible_ofBase {r : Register} :
    (ofBase r).IsExpressible ↔ r.isValid = true := isExpressible_withMode 0 .offset

namespace RegisterField

@[simp] theorem isValid_gp (n : RegisterField) (wide : Bool) : (n.gp wide).isValid = true :=
  Register.isValid_gp wide n.toNat

@[simp] theorem isValid_gpOrSp (n : RegisterField) (wide : Bool) : (n.gpOrSp wide).isValid = true :=
  Register.isValid_gpOrSp wide n.toNat

@[simp] theorem isValid_base (n : RegisterField) : n.base.isValid = true := n.isValid_gpOrSp true

@[simp] theorem isFixed_lanes (n : RegisterField) (arrangement : Arrangement) :
    (n.lanes arrangement).IsFixed := ⟨n.isLt, by simp [lanes]⟩

@[simp] theorem isFixed_lane (n : RegisterField) (size : ElementSize) (index : Nat) :
    (n.lane size index).IsFixed := ⟨n.isLt, by simp [lane]⟩

theorem isFixed_scalar (n : RegisterField) {size : Nat} (h : Register.IsScalarWidth size) :
    (n.scalar size).IsFixed := Operand.isFixed_register.mpr (Register.isValid_float h n.toNat)

end RegisterField

def Form.IsFixed (f : Form) : Prop := ∀ op ∈ f.operands, op.IsFixed

def Form.IsWritable (f : Form) : Prop := f.mnemonic.isSome = true ∧ f.IsFixed

end A64
