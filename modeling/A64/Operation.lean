/-! What an instruction does, in broad categories. -/

namespace A64

inductive Operation where
  | move
  | load
  | store
  | exchange
  | loadAddress
  | prefetch
  | add
  | sub
  | mul
  | div
  | neg
  | and
  | or
  | xor
  | not
  | shl
  | shr
  | sar
  | ror
  | bitField
  | compare
  | test
  | conditionalSelect
  | jump
  | conditionalJump
  | call
  | return
  | syscall
  | interrupt
  | nop
  | hint
  | barrier
  | system
  | atomicAdd
  | atomicLogic
  | atomicMinMax
  | compareExchange
  | floatArith
  | floatCompare
  | convert
  | vector
  | crypto
  | checksum
  | other
  deriving DecidableEq, Repr

namespace Operation

def all : List Operation :=
  [move, load, store, exchange, loadAddress, prefetch, add, sub, mul, div, neg, and, or, xor, not,
   shl, shr, sar, ror, bitField, compare, test, conditionalSelect, jump, conditionalJump, call,
   .return, syscall, interrupt, nop, hint, barrier, system, atomicAdd, atomicLogic, atomicMinMax,
   compareExchange, floatArith, floatCompare, convert, vector, crypto, checksum, other]

def name : Operation → String
  | move => "move"
  | load => "load"
  | store => "store"
  | exchange => "exchange"
  | loadAddress => "lea"
  | prefetch => "prefetch"
  | add => "add"
  | sub => "sub"
  | mul => "mul"
  | div => "div"
  | neg => "neg"
  | and => "and"
  | or => "or"
  | xor => "xor"
  | not => "not"
  | shl => "shl"
  | shr => "shr"
  | sar => "sar"
  | ror => "ror"
  | bitField => "bitfield"
  | compare => "cmp"
  | test => "test"
  | conditionalSelect => "csel"
  | jump => "jmp"
  | conditionalJump => "jcc"
  | call => "call"
  | .return => "ret"
  | syscall => "syscall"
  | interrupt => "int"
  | nop => "nop"
  | hint => "hint"
  | barrier => "barrier"
  | system => "system"
  | atomicAdd => "atomic-add"
  | atomicLogic => "atomic-logic"
  | atomicMinMax => "atomic-minmax"
  | compareExchange => "cmpxchg"
  | floatArith => "fp"
  | floatCompare => "fcmp"
  | convert => "cvt"
  | vector => "vector"
  | crypto => "crypto"
  | checksum => "crc"
  | other => "other"

end Operation

end A64
