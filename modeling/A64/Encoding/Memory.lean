import A64.Encoding.Memory.Atomic
import A64.Encoding.Memory.Exclusive
import A64.Encoding.Memory.Literal
import A64.Encoding.Memory.Pair
import A64.Encoding.Memory.Single

/-! Loads and stores. -/

namespace A64.Encoding

def singleForm (w : Word) : Except Refusal Form :=
  if w.bit 24 then (unsignedOffset w).map (·.form)
  else if w.bit 21 then
    match (w.field 10 2).toNat with
    | 0 => if w.bit 26 then unsupported else (AtomicAccess.ofWord w).map (·.form)
    | 2 => (registerOffset w).map (·.form)
    | _ => unsupported
  else
    match (w.field 10 2).toNat with
    | 0 => (signedOffset w .unscaled .offset).map (·.form)
    | 1 => (signedOffset w .scaled .postIndex).map (·.form)
    | 2 => (signedOffset w .unprivileged .offset).map (·.form)
    | _ => (signedOffset w .scaled .preIndex).map (·.form)

def memoryForm (w : Word) : Except Refusal Form :=
  match (w.field 28 2).toNat with
  | 0 =>
    if w.bit 26 then
      if w.bit 31 then malformed "unallocated structure load/store" else unsupported
    else if w.bit 24 then unsupported
    else (ExclusiveAccess.ofWord w).map (·.form)
  | 1 => if w.bit 24 then unsupported else (LiteralLoad.ofWord w).map (·.form)
  | 2 => (PairTransfer.ofWord w).map (·.form)
  | _ => singleForm w

end A64.Encoding
