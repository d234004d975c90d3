import A64.Encoding.Field
import A64.Encoding.Form

/-! Bitfield moves. The three base instructions are never written themselves: shifts, extensions,
insertions and extractions cover all their fields. -/

namespace A64.Encoding

inductive BitfieldOp where
  | sbfm
  | bfm
  | ubfm
  deriving DecidableEq, Repr

structure Bitfield where
  wide : Bool
  op : BitfieldOp
  immr : BitVec 6
  imms : BitVec 6
  rn : RegisterField
  rd : RegisterField
  deriving DecidableEq, Repr

namespace Bitfield

def op? (b : BitVec 2) : Option BitfieldOp :=
  match b.toNat with
  | 0 => some .sbfm
  | 1 => some .bfm
  | 2 => some .ubfm
  | _ => none

def ofWord (w : Word) : Except Refusal Bitfield :=
  let wide := w.bit 31
  match op? (w.field 29 2) with
  | none => malformed "unallocated bitfield opcode"
  | some op =>
    if w.bit 22 != wide then malformed "bitfield N must match sf"
    else if !wide && (32 ≤ (w.field 16 6).toNat || 32 ≤ (w.field 10 6).toNat) then
      malformed "bitfield position exceeds register width"
    else .ok ⟨wide, op, w.field 16 6, w.field 10 6, w.rn, w.rd⟩

def width (e : Bitfield) : Nat := Register.width e.wide

def inserted (e : Bitfield) : List Operand :=
  [.count (e.width - e.immr.toNat), .count (e.imms.toNat + 1)]

def extracted (e : Bitfield) : List Operand :=
  [.count e.immr.toNat, .count (e.imms.toNat - e.immr.toNat + 1)]

def source (e : Bitfield) : Register := e.rn.gp e.wide

def result (e : Bitfield) : Register := e.rd.gp e.wide

def signedSpelling (e : Bitfield) : Spelling :=
  let dst : Operand := .register e.result
  let src : Operand := .register e.source
  let narrow : Operand := .register (e.rn.gp false)
  if e.imms.toNat + 1 = e.width then spelled "asr" .sar [dst, src, .count e.immr.toNat]
  else if e.imms < e.immr then spelled "sbfiz" .bitField (dst :: src :: e.inserted)
  else if e.immr = 0 ∧ e.imms = 7 then spelled "sxtb" .bitField [dst, narrow]
  else if e.immr = 0 ∧ e.imms = 15 then spelled "sxth" .bitField [dst, narrow]
  else if e.immr = 0 ∧ e.imms = 31 then spelled "sxtw" .bitField [dst, narrow]
  else spelled "sbfx" .bitField (dst :: src :: e.extracted)

def mergeSpelling (e : Bitfield) : Spelling :=
  let dst : Operand := .register e.result
  let src : Operand := .register e.source
  if e.imms < e.immr then
    if e.rn = 31 then spelled "bfc" .bitField (dst :: e.inserted)
    else spelled "bfi" .bitField (dst :: src :: e.inserted)
  else spelled "bfxil" .bitField (dst :: src :: e.extracted)

def unsignedSpelling (e : Bitfield) : Spelling :=
  let dst : Operand := .register e.result
  let src : Operand := .register e.source
  if e.imms.toNat + 1 ≠ e.width ∧ e.imms.toNat + 1 = e.immr.toNat then
    spelled "lsl" .shl [dst, src, .count (e.width - 1 - e.imms.toNat)]
  else if e.imms.toNat + 1 = e.width then spelled "lsr" .shr [dst, src, .count e.immr.toNat]
  else if e.imms < e.immr then spelled "ubfiz" .bitField (dst :: src :: e.inserted)
  else if e.wide = false ∧ e.immr = 0 ∧ e.imms = 7 then spelled "uxtb" .bitField [dst, src]
  else if e.wide = false ∧ e.immr = 0 ∧ e.imms = 15 then spelled "uxth" .bitField [dst, src]
  else spelled "ubfx" .bitField (dst :: src :: e.extracted)

def spelling (e : Bitfield) : Spelling :=
  match e.op with
  | .sbfm => e.signedSpelling
  | .bfm => e.mergeSpelling
  | .ubfm => e.unsignedSpelling

/-- Only a merge reads what it writes to. -/
def form (e : Bitfield) : Form where
  toSpelling := e.spelling
  reads := .of (if e.op = .bfm then [e.source, e.result] else [e.source])
  writes := .of [e.result]

end Bitfield

end A64.Encoding
