import A64.Encoding.Arithmetic
import A64.Encoding.Field

/-! Addition and subtraction of registers: shifted, extended, and with carry. -/

namespace A64.Encoding

structure AddSubShifted extends Arithmetic where
  shift : Shift
  amount : BitVec 6
  rm : RegisterField
  rn : RegisterField
  rd : RegisterField
  deriving DecidableEq, Repr

namespace AddSubShifted

def ofWord (w : Word) : Except Refusal AddSubShifted :=
  if w.field 22 2 = 3 then malformed "reserved shift type"
  else if !w.bit 31 && 32 ≤ (w.field 10 6).toNat then
    malformed "shift amount exceeds register width"
  else .ok ⟨.ofWord w, .ofCode (w.field 22 2), w.field 10 6, w.rm, w.rn, w.rd⟩

def result (e : AddSubShifted) : Register := e.rd.gp e.wide

def first (e : AddSubShifted) : Register := e.rn.gp e.wide

def second (e : AddSubShifted) : Register := e.rm.gp e.wide

def shifted (e : AddSubShifted) : Operand := .ofShift e.second e.shift e.amount.toNat

def spelling (e : AddSubShifted) : Spelling :=
  if e.setFlags && e.rd == 31 then
    spelled e.compareName .compare [.register e.first, e.shifted]
  else if e.subtract && e.rn == 31 then
    spelled e.negateName .neg [.register e.result, e.shifted]
  else spelled e.name e.operation [.register e.result, .register e.first, e.shifted]

def form (e : AddSubShifted) : Form where
  toSpelling := e.spelling
  reads := .of [e.first, e.second]
  writes := (RegisterSet.of [e.result]).withFlags e.setFlags

end AddSubShifted

structure AddSubExtended extends Arithmetic where
  option : BitVec 3
  amount : BitVec 3
  rm : RegisterField
  rn : RegisterField
  rd : RegisterField
  deriving DecidableEq, Repr

namespace AddSubExtended

def ofWord (w : Word) : Except Refusal AddSubExtended :=
  if w.field 22 2 ≠ 0 then malformed "unallocated extended register opt"
  else if 4 < (w.field 10 3).toNat then malformed "extended register shift above 4"
  else .ok ⟨.ofWord w, w.field 13 3, w.field 10 3, w.rm, w.rn, w.rd⟩

def result (e : AddSubExtended) : Register :=
  if e.setFlags then e.rd.gp e.wide else e.rd.gpOrSp e.wide

def first (e : AddSubExtended) : Register := e.rn.gpOrSp e.wide

/-- The extended register. Only an extension of 64 bits takes a wide one. -/
def second (e : AddSubExtended) : Register :=
  e.rm.gp (e.wide && e.option.getLsbD 0 && e.option.getLsbD 1)

def usesSp (e : AddSubExtended) : Bool := (e.rd == 31 && !e.setFlags) || e.rn == 31

/-- With the stack pointer, the extension that changes nothing is spelled `lsl`. -/
def extend (e : AddSubExtended) : Extend :=
  if e.usesSp && e.option == (if e.wide then 3 else 2) then .lsl else .ofCode e.option

def amount? (e : AddSubExtended) : Option Nat :=
  if e.amount = 0 then none else some e.amount.toNat

def extended (e : AddSubExtended) : Operand :=
  if e.extend = .lsl ∧ e.amount = 0 then .register e.second
  else .extended ⟨e.second, e.extend, e.amount?⟩

def spelling (e : AddSubExtended) : Spelling :=
  if e.setFlags && e.rd == 31 then
    spelled e.compareName .compare [.register e.first, e.extended]
  else spelled e.name e.operation [.register e.result, .register e.first, e.extended]

def form (e : AddSubExtended) : Form where
  toSpelling := e.spelling
  reads := .of [e.first, e.second]
  writes := (RegisterSet.of [e.result]).withFlags e.setFlags

end AddSubExtended

structure AddSubCarry extends Arithmetic where
  rm : RegisterField
  rn : RegisterField
  rd : RegisterField
  deriving DecidableEq, Repr

namespace AddSubCarry

def ofWord (w : Word) : AddSubCarry := ⟨.ofWord w, w.rm, w.rn, w.rd⟩

def result (e : AddSubCarry) : Register := e.rd.gp e.wide

def first (e : AddSubCarry) : Register := e.rn.gp e.wide

def second (e : AddSubCarry) : Register := e.rm.gp e.wide

def spelling (e : AddSubCarry) : Spelling :=
  if e.subtract && e.rn == 31 then
    spelled e.negateCarryName .neg [.register e.result, .register e.second]
  else
    spelled e.carryName e.operation [.register e.result, .register e.first, .register e.second]

def form (e : AddSubCarry) : Form where
  toSpelling := e.spelling
  reads := (RegisterSet.of [e.first, e.second]).insertFlags
  writes := (RegisterSet.of [e.result]).withFlags e.setFlags

end AddSubCarry

end A64.Encoding
