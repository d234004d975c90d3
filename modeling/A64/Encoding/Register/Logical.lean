import A64.Encoding.Immediate.Logical

/-! Logical instructions on a shifted register. -/

namespace A64.Encoding

structure LogicalRegister where
  wide : Bool
  op : LogicalOp
  invert : Bool
  shift : Shift
  amount : BitVec 6
  rm : RegisterField
  rn : RegisterField
  rd : RegisterField
  deriving DecidableEq, Repr

namespace LogicalRegister

def ofWord (w : Word) : Except Refusal LogicalRegister :=
  if !w.bit 31 && 32 ≤ (w.field 10 6).toNat then malformed "shift amount exceeds register width"
  else .ok
    ⟨w.bit 31, .ofCode (w.field 29 2), w.bit 21, .ofCode (w.field 22 2), w.field 10 6, w.rm, w.rn,
      w.rd⟩

def result (e : LogicalRegister) : Register := e.rd.gp e.wide

def first (e : LogicalRegister) : Register := e.rn.gp e.wide

def second (e : LogicalRegister) : Register := e.rm.gp e.wide

def shifted (e : LogicalRegister) : Operand := .ofShift e.second e.shift e.amount.toNat

def name (e : LogicalRegister) : String := if e.invert then e.op.invertedName else e.op.name

def spelling (e : LogicalRegister) : Spelling :=
  if e.op = .orr ∧ e.invert = false ∧ e.rn = 31 ∧ e.amount = 0 ∧ e.shift = .lsl then
    spelled "mov" .move [.register e.result, .register e.second]
  else if e.op = .orr ∧ e.invert = true ∧ e.rn = 31 then
    spelled "mvn" .not [.register e.result, e.shifted]
  else if e.op = .ands ∧ e.invert = false ∧ e.rd = 31 then
    spelled "tst" .test [.register e.first, e.shifted]
  else spelled e.name e.op.operation [.register e.result, .register e.first, e.shifted]

def form (e : LogicalRegister) : Form where
  toSpelling := e.spelling
  reads := .of [e.first, e.second]
  writes := (RegisterSet.of [e.result]).withFlags e.op.setsFlags

end LogicalRegister

end A64.Encoding
