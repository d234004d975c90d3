import A64.Encoding.Field
import A64.Encoding.Form

/-! System instructions with a general register, and moves from and to system registers. -/

namespace A64.Encoding

structure SystemOperation where
  result : Bool
  op1 : BitVec 3
  crn : BitVec 4
  crm : BitVec 4
  op2 : BitVec 3
  rt : RegisterField
  deriving DecidableEq, Repr

namespace SystemOperation

def operands (e : SystemOperation) : List Operand :=
  [.count e.op1.toNat, .controlRegister e.crn.toNat, .controlRegister e.crm.toNat,
   .count e.op2.toNat]

def form (e : SystemOperation) : Form :=
  let reg := e.rt.gp true
  if e.result then
    { toSpelling := spelled "sysl" .system (.register reg :: e.operands)
      writes := .of [reg] }
  else
    { toSpelling :=
        spelled "sys" .system (e.operands ++ if e.rt = 31 then [] else [.register reg])
      reads := .of [reg] }

end SystemOperation

structure SystemMove where
  fromSystem : Bool
  system : SystemRegister
  rt : RegisterField
  deriving DecidableEq, Repr

namespace SystemMove

/-- Moving the flags as a system register reads or writes them. -/
def form (e : SystemMove) : Form :=
  let reg := e.rt.gp true
  let flags : Bool := e.system = .nzcv
  if e.fromSystem then
    { toSpelling := spelled "mrs" .move [.register reg, .systemRegister e.system]
      reads := RegisterSet.empty.withFlags flags
      writes := .of [reg] }
  else
    { toSpelling := spelled "msr" .move [.systemRegister e.system, .register reg]
      reads := .of [reg]
      writes := RegisterSet.empty.withFlags flags }

end SystemMove

end A64.Encoding
