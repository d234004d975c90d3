import A64.Encoding.Field
import A64.Encoding.Form

/-! Address generation: `adr` reaches bytes, `adrp` reaches pages. -/

namespace A64.Encoding

structure AddressGeneration where
  page : Bool
  distance : BitVec 21
  rd : RegisterField
  deriving DecidableEq, Repr

namespace AddressGeneration

def ofWord (w : Word) : AddressGeneration := ⟨w.bit 31, w.field 5 19 ++ w.field 29 2, w.rd⟩

def form (e : AddressGeneration) : Form where
  toSpelling :=
    spelled (if e.page then "adrp" else "adr") .loadAddress [.register (e.rd.gp true)]
  writes := .of [e.rd.gp true]
  reference := some <|
    if e.page then .page e.distance.toInt else .displaced .addressIndex e.distance.toInt

end AddressGeneration

end A64.Encoding
