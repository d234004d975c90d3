import A64.Bitmask
import A64.Encoding.Field
import A64.Encoding.Form

/-! Logical instructions with a bitmask immediate. -/

namespace A64.Encoding

inductive LogicalOp where
  | and
  | orr
  | eor
  | ands
  deriving DecidableEq, Repr

namespace LogicalOp

def ofCode (b : BitVec 2) : LogicalOp :=
  match b.toNat with
  | 0 => and
  | 1 => orr
  | 2 => eor
  | _ => ands

def setsFlags : LogicalOp → Bool
  | ands => true
  | _ => false

def operation : LogicalOp → Operation
  | and | ands => .and
  | orr => .or
  | eor => .xor

def name : LogicalOp → String
  | and => "and"
  | orr => "orr"
  | eor => "eor"
  | ands => "ands"

def invertedName : LogicalOp → String
  | and => "bic"
  | orr => "orn"
  | eor => "eon"
  | ands => "bics"

end LogicalOp

structure LogicalImmediate where
  wide : Bool
  op : LogicalOp
  mask : BitVec 64
  rn : RegisterField
  rd : RegisterField
  deriving DecidableEq, Repr

namespace LogicalImmediate

def bitmask (w : Word) : Bitmask := ⟨w.field 22 1, w.field 10 6, w.field 16 6⟩

def ofWord (w : Word) : Except Refusal LogicalImmediate :=
  match (bitmask w).value? (w.bit 31) with
  | none => malformed "reserved bitmask immediate"
  | some mask => .ok ⟨w.bit 31, .ofCode (w.field 29 2), mask, w.rn, w.rd⟩

def source (e : LogicalImmediate) : Register := e.rn.gp e.wide

def result (e : LogicalImmediate) : Register :=
  if e.op.setsFlags then e.rd.gp e.wide else e.rd.gpOrSp e.wide

def spelling (e : LogicalImmediate) : Spelling :=
  let imm : Operand := .ofNat e.mask.toNat
  if e.op = .ands ∧ e.rd = 31 then spelled "tst" .test [.register e.source, imm]
  else if e.op = .orr ∧ e.rn = 31 then spelled "mov" .move [.register e.result, imm]
  else spelled e.op.name e.op.operation [.register e.result, .register e.source, imm]

def form (e : LogicalImmediate) : Form where
  toSpelling := e.spelling
  reads := .of [e.source]
  writes := (RegisterSet.of [e.result]).withFlags e.op.setsFlags

end LogicalImmediate

end A64.Encoding
