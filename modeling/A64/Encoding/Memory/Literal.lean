import A64.Encoding.Memory.Transfer

/-! Loads from an address relative to the program counter. -/

namespace A64.Encoding

structure LiteralLoad where
  mnemonic : String
  access : Access
  view : DataView
  words : BitVec 19
  rt : RegisterField
  deriving DecidableEq, Repr

namespace LiteralLoad

def kind? (simd : Bool) (opc : BitVec 2) : Option (String × Access × DataView) :=
  match simd, opc.toNat with
  | true, 0 => some ("ldr", .load, .float 32)
  | true, 1 => some ("ldr", .load, .float 64)
  | true, 2 => some ("ldr", .load, .float 128)
  | true, _ => none
  | false, 0 => some ("ldr", .load, .general false)
  | false, 1 => some ("ldr", .load, .general true)
  | false, 2 => some ("ldrsw", .load, .general true)
  | false, _ => some ("prfm", .prefetch, .general true)

def ofWord (w : Word) : Except Refusal LiteralLoad :=
  match kind? (w.bit 26) (w.field 30 2) with
  | some (mnemonic, access, view) => .ok ⟨mnemonic, access, view, w.field 5 19, w.rd⟩
  | none => malformed "unallocated literal load size"

def form (e : LiteralLoad) : Form :=
  let reference := some (Reference.displaced .addressIndex (4 * e.words.toInt))
  if e.access = .prefetch then
    { toSpelling := spelled e.mnemonic .prefetch [prefetchOperand e.rt], reference }
  else
    let data := e.view.register e.rt
    { toSpelling := spelled e.mnemonic .load [.register data], writes := .of [data], reference }

end LiteralLoad

end A64.Encoding
