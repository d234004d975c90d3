import A64.Encoding.System.Access
import A64.Encoding.System.Barrier
import A64.Encoding.System.Hint
import A64.Encoding.System.ProcessorState

/-! System instructions. -/

namespace A64.Encoding

def quietSystemForm (w : Word) : Except Refusal Form :=
  let op1 := w.field 16 3
  let crm := w.field 8 4
  let op2 := w.field 5 3
  if w.rd ≠ 31 then unsupported
  else
    match (w.field 12 4).toNat with
    | 2 => if op1 = 3 then .ok (Hint.form ⟨crm ++ op2⟩) else unsupported
    | 3 => if op1 = 3 then Barrier.form ⟨crm, op2⟩ else unsupported
    | 4 => ProcessorState.form ⟨op1, crm, op2⟩
    | _ => unsupported

def systemForm (w : Word) : Except Refusal Form :=
  if w.field 22 2 ≠ 0 then malformed "unallocated system encoding"
  else
    match (w.field 19 2).toNat with
    | 0 => if w.bit 21 then malformed "unallocated system encoding" else quietSystemForm w
    | 1 =>
      .ok (SystemOperation.form
        ⟨w.bit 21, w.field 16 3, w.field 12 4, w.field 8 4, w.field 5 3, w.rd⟩)
    | _ => .ok (SystemMove.form ⟨w.bit 21, .ofField (w.field 5 15), w.rd⟩)

end A64.Encoding
