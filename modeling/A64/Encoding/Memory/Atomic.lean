import A64.Encoding.Field
import A64.Encoding.Form
import A64.Encoding.Memory.Ordering

/-! Atomic operations on memory. -/

namespace A64.Encoding

inductive AtomicOp where
  | add
  | clr
  | eor
  | set
  | smax
  | smin
  | umax
  | umin
  deriving DecidableEq, Repr

namespace AtomicOp

def ofCode (b : BitVec 3) : AtomicOp :=
  match b.toNat with
  | 0 => add
  | 1 => clr
  | 2 => eor
  | 3 => set
  | 4 => smax
  | 5 => smin
  | 6 => umax
  | _ => umin

def name : AtomicOp → String
  | add => "add"
  | clr => "clr"
  | eor => "eor"
  | set => "set"
  | smax => "smax"
  | smin => "smin"
  | umax => "umax"
  | umin => "umin"

def operation : AtomicOp → Operation
  | add => .atomicAdd
  | clr | eor | set => .atomicLogic
  | smax | smin | umax | umin => .atomicMinMax

end AtomicOp

inductive AtomicAccess where
  | modify (op : AtomicOp) (acquire release : Bool) (size : BitVec 2) (rs rt rn : RegisterField)
  | swap (acquire release : Bool) (size : BitVec 2) (rs rt rn : RegisterField)
  /-- A load that later accesses cannot overtake. -/
  | loadAcquire (size : BitVec 2) (rt rn : RegisterField)
  deriving DecidableEq, Repr

namespace AtomicAccess

def ofWord (w : Word) : Except Refusal AtomicAccess :=
  let size := w.field 30 2
  let acquire := w.bit 23
  let release := w.bit 22
  let opc := w.field 12 3
  if w.bit 15 then
    if opc = 0 then .ok (swap acquire release size w.rm w.rd w.rn)
    else if opc = 4 ∧ acquire ∧ !release ∧ w.rm = 31 then .ok (loadAcquire size w.rd w.rn)
    else unsupported
  else .ok (modify (.ofCode opc) acquire release size w.rm w.rd w.rn)

/-- A modification whose old value is neither kept nor acquired is written as a store. -/
def form : AtomicAccess → Form
  | modify op acquire release size rs rt rn =>
    let source := rs.gp (size = 3)
    let data := rt.gp (size = 3)
    let memory : Operand := .memory (.ofBase rn.base)
    if rt = 31 ∧ acquire = false then
      { toSpelling :=
          spelled ("st" ++ op.name ++ orderingSuffix false release ++ sizeSuffix size) op.operation
            [.register source, memory]
        reads := .of [source, rn.base] }
    else
      { toSpelling :=
          spelled ("ld" ++ op.name ++ orderingSuffix acquire release ++ sizeSuffix size) op.operation
            [.register source, .register data, memory]
        reads := .of [source, rn.base]
        writes := .of [data] }
  | swap acquire release size rs rt rn =>
    let source := rs.gp (size = 3)
    let data := rt.gp (size = 3)
    { toSpelling :=
        spelled ("swp" ++ orderingSuffix acquire release ++ sizeSuffix size) .exchange
          [.register source, .register data, .memory (.ofBase rn.base)]
      reads := .of [source, rn.base]
      writes := .of [data] }
  | loadAcquire size rt rn =>
    let data := rt.gp (size = 3)
    { toSpelling :=
        spelled ("ldapr" ++ sizeSuffix size) .load [.register data, .memory (.ofBase rn.base)]
      reads := .of [rn.base]
      writes := .of [data] }

end AtomicAccess

end A64.Encoding
