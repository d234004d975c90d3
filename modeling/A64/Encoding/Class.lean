import A64.Word

/-! The top-level classes of the encoding space, told apart by bits 28 to 25 of a word. -/

namespace A64

inductive EncodingClass where
  | reserved
  | sme
  | unallocated
  | sve
  | dataImmediate
  | branchSystem
  | loadStore
  | dataRegister
  | simdFloat
  deriving DecidableEq, Repr

namespace EncodingClass

def all : List EncodingClass :=
  [reserved, sme, unallocated, sve, dataImmediate, branchSystem, loadStore, dataRegister, simdFloat]

def name : EncodingClass → String
  | reserved => "reserved"
  | sme => "sme"
  | unallocated => "unallocated"
  | sve => "sve"
  | dataImmediate => "data-processing (immediate)"
  | branchSystem => "branch/system"
  | loadStore => "load/store"
  | dataRegister => "data-processing (register)"
  | simdFloat => "simd&fp"

def ofWord (w : Word) : EncodingClass :=
  match (w.field 25 4).toNat with
  | 0 => if w.bit 31 then sme else reserved
  | 1 | 3 => unallocated
  | 2 => sve
  | 8 | 9 => dataImmediate
  | 10 | 11 => branchSystem
  | 5 | 13 => dataRegister
  | 7 | 15 => simdFloat
  | _ => loadStore

end EncodingClass

end A64
