import A64.Encoding.Arithmetic
import A64.Encoding.Field

/-! Addition and subtraction of a 12-bit immediate. Adding zero to or from the stack pointer is a
move. -/

namespace A64.Encoding

structure AddSubImmediate extends Arithmetic where
  shifted : Bool
  imm : BitVec 12
  rn : RegisterField
  rd : RegisterField
  deriving DecidableEq, Repr

namespace AddSubImmediate

def ofWord (w : Word) : AddSubImmediate :=
  ⟨.ofWord w, w.bit 22, w.field 10 12, w.rn, w.rd⟩

def source (e : AddSubImmediate) : Register := e.rn.gpOrSp e.wide

/-- The result. An instruction that sets the flags cannot write the stack pointer. -/
def result (e : AddSubImmediate) : Register :=
  if e.setFlags then e.rd.gp e.wide else e.rd.gpOrSp e.wide

def immediate (e : AddSubImmediate) : Operand :=
  if e.shifted then .shiftedImmediate e.imm.toNat 12 else .ofNat e.imm.toNat

def isMove (e : AddSubImmediate) : Bool :=
  !e.setFlags && !e.subtract && !e.shifted && e.imm == 0 && (e.rd == 31 || e.rn == 31)

def spelling (e : AddSubImmediate) : Spelling :=
  if e.setFlags && e.rd == 31 then
    spelled e.compareName .compare [.register e.source, e.immediate]
  else if e.isMove then spelled "mov" .move [.register e.result, .register e.source]
  else spelled e.name e.operation [.register e.result, .register e.source, e.immediate]

def form (e : AddSubImmediate) : Form where
  toSpelling := e.spelling
  reads := .of [e.source]
  writes := (RegisterSet.of [e.result]).withFlags e.setFlags

end AddSubImmediate

end A64.Encoding
