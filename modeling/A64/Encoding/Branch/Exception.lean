import A64.Encoding.Form

/-! Exception generation. -/

namespace A64.Encoding

inductive ExceptionOp where
  | svc
  | hvc
  | smc
  | brk
  | hlt
  | dcps1
  | dcps2
  | dcps3
  deriving DecidableEq, Repr

namespace ExceptionOp

def name : ExceptionOp → String
  | svc => "svc"
  | hvc => "hvc"
  | smc => "smc"
  | brk => "brk"
  | hlt => "hlt"
  | dcps1 => "dcps1"
  | dcps2 => "dcps2"
  | dcps3 => "dcps3"

def operation : ExceptionOp → Operation
  | svc | hvc | smc => .syscall
  | _ => .interrupt

/-- Whether code of another level runs before the next instruction. -/
def traps : ExceptionOp → Bool
  | brk | hlt => false
  | _ => true

def omitsZero : ExceptionOp → Bool
  | dcps1 | dcps2 | dcps3 => true
  | _ => false

end ExceptionOp

structure ExceptionCall where
  op : ExceptionOp
  imm : BitVec 16
  deriving DecidableEq, Repr

namespace ExceptionCall

def opOf (opc : BitVec 3) (level : BitVec 2) : Except Refusal ExceptionOp :=
  match opc.toNat, level.toNat with
  | 0, 1 => .ok .svc
  | 0, 2 => .ok .hvc
  | 0, 3 => .ok .smc
  | 1, 0 => .ok .brk
  | 2, 0 => .ok .hlt
  | 3, 0 => unsupported
  | 5, 1 => .ok .dcps1
  | 5, 2 => .ok .dcps2
  | 5, 3 => .ok .dcps3
  | _, _ => malformed "unallocated exception encoding"

def ofWord (w : Word) : Except Refusal ExceptionCall :=
  if w.field 2 3 = 0 then (opOf (w.field 21 3) (w.field 0 2)).map fun op => ⟨op, w.field 5 16⟩
  else malformed "unallocated exception encoding"

def form (e : ExceptionCall) : Form where
  toSpelling :=
    spelled e.op.name e.op.operation
      (if e.op.omitsZero && e.imm == 0 then [] else [.ofNat e.imm.toNat])
  reads := if e.op.traps then .all else .empty
  writes := if e.op.traps then .all else .empty
  branch := .exception

end ExceptionCall

end A64.Encoding
