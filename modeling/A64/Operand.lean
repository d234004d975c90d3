import A64.Binary64
import A64.Condition
import A64.Register
import A64.SystemRegister
import A64.Vector
import A64.Word

/-! Operands of instructions. An operand may hold values that assembly cannot write. -/

namespace A64

inductive Shift where
  | lsl
  | lsr
  | asr
  | ror
  deriving DecidableEq, Repr

namespace Shift

def all : List Shift := [lsl, lsr, asr, ror]

def ofCode (b : BitVec 2) : Shift := all.getD b.toNat ror

def text : Shift → String
  | lsl => "lsl"
  | lsr => "lsr"
  | asr => "asr"
  | ror => "ror"

end Shift

/-- How a narrower register is extended. `lsl` spells an extension that changes nothing. -/
inductive Extend where
  | uxtb
  | uxth
  | uxtw
  | uxtx
  | sxtb
  | sxth
  | sxtw
  | sxtx
  | lsl
  deriving DecidableEq, Repr

namespace Extend

def all : List Extend := [uxtb, uxth, uxtw, uxtx, sxtb, sxth, sxtw, sxtx, lsl]

def ofCode (b : BitVec 3) : Extend := all.getD b.toNat sxtx

def text : Extend → String
  | uxtb => "uxtb"
  | uxth => "uxth"
  | uxtw => "uxtw"
  | uxtx => "uxtx"
  | sxtb => "sxtb"
  | sxth => "sxth"
  | sxtw => "sxtw"
  | sxtx => "sxtx"
  | lsl => "lsl"

end Extend

structure ExtendedRegister where
  reg : Register
  extend : Extend
  amount : Option Nat
  deriving DecidableEq, Repr

/-- When the base register of a memory reference is updated: never, before or after the access. -/
inductive IndexMode where
  | offset
  | preIndex
  | postIndex
  deriving DecidableEq, Repr

def IndexMode.writesBack : IndexMode → Bool
  | .offset => false
  | .preIndex | .postIndex => true

structure MemoryRef where
  base : Option Register
  index : Option ExtendedRegister
  displacement : Int
  mode : IndexMode
  deriving DecidableEq, Repr

namespace MemoryRef

def withMode (base : Register) (displacement : Int) (mode : IndexMode) : MemoryRef :=
  ⟨some base, none, displacement, mode⟩

def baseDisp (base : Register) (displacement : Int) : MemoryRef :=
  withMode base displacement .offset

def ofBase (base : Register) : MemoryRef := baseDisp base 0

def preIndex (base : Register) (displacement : Int) : MemoryRef :=
  withMode base displacement .preIndex

def postIndex (base : Register) (displacement : Int) : MemoryRef :=
  withMode base displacement .postIndex

def indexed (base : Register) (index : ExtendedRegister) : MemoryRef :=
  ⟨some base, some index, 0, .offset⟩

end MemoryRef

/-- An immediate value; `signed` tells whether its field was sign-extended. -/
structure Immediate where
  value : Int
  signed : Bool
  deriving DecidableEq, Repr

def Immediate.low (i : Immediate) : BitVec 64 := BitVec.ofInt 64 i.value

inductive Operand where
  | register (r : Register)
  | shifted (r : Register) (shift : Shift) (amount : Nat)
  | extended (e : ExtendedRegister)
  | immediate (i : Immediate)
  | shiftedImmediate (value shift : Nat)
  /-- A bit position, width or flag mask, always written in decimal. -/
  | count (n : Nat)
  | float (x : Binary64)
  | memory (m : MemoryRef)
  | pcRelative (offset : Int) (target : Address)
  | condition (c : Condition)
  | vector (reg : Nat) (arrangement : Arrangement)
  | element (reg : Nat) (size : ElementSize) (index : Nat)
  | systemRegister (r : SystemRegister)
  | controlRegister (n : Nat)
  /-- A barrier option, prefetch operation or field of the processor state. -/
  | named (name : String)
  deriving DecidableEq, Repr

namespace Operand

def ofInt (v : Int) : Operand := immediate ⟨v, true⟩

def ofNat (v : Nat) : Operand := immediate ⟨v, false⟩

/-- A shifted register. A left shift by zero is the register itself. -/
def ofShift (r : Register) (shift : Shift) (amount : Nat) : Operand :=
  if shift = .lsl ∧ amount = 0 then register r else shifted r shift amount

def isRegister : Operand → Bool
  | register _ => true
  | _ => false

def isImmediate : Operand → Bool
  | immediate _ | shiftedImmediate _ _ | float _ => true
  | _ => false

def isMemory : Operand → Bool
  | memory _ => true
  | _ => false

end Operand

end A64
