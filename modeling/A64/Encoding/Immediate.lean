import A64.Encoding.Immediate.AddSub
import A64.Encoding.Immediate.AddressGeneration
import A64.Encoding.Immediate.Bitfield
import A64.Encoding.Immediate.Extract
import A64.Encoding.Immediate.Logical
import A64.Encoding.Immediate.MoveWide

/-! Data processing with an immediate. -/

namespace A64.Encoding

def immediateForm (w : Word) : Except Refusal Form :=
  match (w.field 23 3).toNat with
  | 0 | 1 => .ok (AddressGeneration.ofWord w).form
  | 2 => .ok (AddSubImmediate.ofWord w).form
  | 3 => unsupported
  | 4 => (LogicalImmediate.ofWord w).map (·.form)
  | 5 => (MoveWide.ofWord w).map (·.form)
  | 6 => (Bitfield.ofWord w).map (·.form)
  | _ => (Extract.ofWord w).map (·.form)

end A64.Encoding
