import A64.Encoding.Field
import A64.Encoding.Form

/-! Extraction of a register from a pair. From twice the same register it is a rotation. -/

namespace A64.Encoding

structure Extract where
  wide : Bool
  lsb : BitVec 6
  rm : RegisterField
  rn : RegisterField
  rd : RegisterField
  deriving DecidableEq, Repr

namespace Extract

def ofWord (w : Word) : Except Refusal Extract :=
  let wide := w.bit 31
  if w.field 29 2 != 0 || w.bit 21 then malformed "unallocated extract opcode"
  else if w.bit 22 != wide || (!wide && 32 ≤ (w.field 10 6).toNat) then
    malformed "extract N or lsb mismatch"
  else .ok ⟨wide, w.field 10 6, w.rm, w.rn, w.rd⟩

def spelling (e : Extract) : Spelling :=
  let dst : Operand := .register (e.rd.gp e.wide)
  let first : Operand := .register (e.rn.gp e.wide)
  let second : Operand := .register (e.rm.gp e.wide)
  if e.rn = e.rm then spelled "ror" .ror [dst, first, .count e.lsb.toNat]
  else spelled "extr" .bitField [dst, first, second, .count e.lsb.toNat]

def form (e : Extract) : Form where
  toSpelling := e.spelling
  reads := .of [e.rn.gp e.wide, e.rm.gp e.wide]
  writes := .of [e.rd.gp e.wide]

end Extract

end A64.Encoding
