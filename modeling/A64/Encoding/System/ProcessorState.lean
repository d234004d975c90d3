import A64.Encoding.Form

/-! Instructions on the processor state: changes of the flags and writes to its other fields. -/

namespace A64.Encoding

structure ProcessorState where
  op1 : BitVec 3
  imm : BitVec 4
  op2 : BitVec 3
  deriving DecidableEq, Repr

namespace ProcessorState

def flagName? (e : ProcessorState) : Option String :=
  match e.op1.toNat, e.op2.toNat, e.imm.toNat with
  | 0, 0, 0 => some "cfinv"
  | 0, 1, 0 => some "xaflag"
  | 0, 2, 0 => some "axflag"
  | _, _, _ => none

def fieldName? (e : ProcessorState) : Option String :=
  match e.op1.toNat, e.op2.toNat with
  | 0, 3 => some "uao"
  | 0, 4 => some "pan"
  | 0, 5 => some "spsel"
  | 3, 1 => some "ssbs"
  | 3, 2 => some "dit"
  | 3, 4 => some "tco"
  | 3, 6 => some "daifset"
  | 3, 7 => some "daifclr"
  | _, _ => none

def form (e : ProcessorState) : Except Refusal Form :=
  match e.flagName?, e.fieldName? with
  | some name, _ =>
    .ok { toSpelling := spelled name .system [], reads := .flags, writes := .flags }
  | none, some field => .ok (.plain (spelled "msr" .system [.named field, .count e.imm.toNat]))
  | none, none => unsupported

end ProcessorState

end A64.Encoding
