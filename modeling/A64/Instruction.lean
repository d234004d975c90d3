import A64.ControlFlow
import A64.Encoding.Class
import A64.Operand
import A64.Operation
import A64.Register.Set
import A64.Word

/-! Decoded instructions, and the edits by which one is put together step by step. -/

namespace A64

/-- An instruction. It has no mnemonic when only its structure was recognised. A target is zero where
there is none. -/
structure Instruction where
  raw : Word
  address : Address
  encodingClass : EncodingClass
  operation : Operation
  mnemonic : Option String
  operands : List Operand
  reads : RegisterSet
  writes : RegisterSet
  branch : Branch
  branchTarget : Address
  pcRelative : PcRelative
  pcRelativeTarget : Address
  deriving DecidableEq, Repr

namespace Instruction

def blank (address : Address) (raw : Word) (encodingClass : EncodingClass)
    (mnemonic : Option String) : Instruction :=
  { raw, address, encodingClass, mnemonic
    operation := .other
    operands := []
    reads := .empty
    writes := .empty
    branch := .none
    branchTarget := 0
    pcRelative := .none
    pcRelativeTarget := 0 }

inductive Edit where
  | operation (op : Operation)
  | operand (op : Operand)
  /-- Replaces all operands. -/
  | operands (ops : List Operand)
  | reads (rs : List Register)
  | writes (rs : List Register)
  | flagsRead
  | flagsWritten
  /-- Every register is both read and written. -/
  | allRegisters
  /-- No branch has no target. -/
  | branch (b : Branch) (target : Address)
  | pcRelative (p : PcRelative) (target : Address)
  deriving DecidableEq, Repr

def edit (i : Instruction) : Edit → Instruction
  | .operation op => { i with operation := op }
  | .operand op => { i with operands := i.operands ++ [op] }
  | .operands ops => { i with operands := ops }
  | .reads rs => { i with reads := i.reads.insertAll rs }
  | .writes rs => { i with writes := i.writes.insertAll rs }
  | .flagsRead => { i with reads := i.reads.insertFlags }
  | .flagsWritten => { i with writes := i.writes.insertFlags }
  | .allRegisters => { i with reads := .all, writes := .all }
  | .branch b target => { i with branch := b, branchTarget := if b = .none then 0 else target }
  | .pcRelative p target =>
    { i with pcRelative := p, pcRelativeTarget := if p = .none then 0 else target }

def bytes (i : Instruction) : List UInt8 := i.raw.bytes

def endAddress (i : Instruction) : Address := i.address + 4

def isBranch (i : Instruction) : Bool := i.branch != .none

def isCall (i : Instruction) : Bool := i.branch == .call

def isReturn (i : Instruction) : Bool := i.operation == .return

end Instruction

end A64
