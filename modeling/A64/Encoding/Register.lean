import A64.Encoding.Register.AddSub
import A64.Encoding.Register.Conditional
import A64.Encoding.Register.Logical
import A64.Encoding.Register.Source

/-! Data processing on registers. -/

namespace A64.Encoding

def registerForm (w : Word) : Except Refusal Form :=
  let op := (w.field 21 4).toNat
  if w.bit 28 then
    if 8 ≤ op then (ThreeSource.ofWord w).map (·.form)
    else
      match op with
      | 0 => if w.field 10 6 = 0 then .ok (AddSubCarry.ofWord w).form else unsupported
      | 2 => (ConditionalCompare.ofWord w).map (·.form)
      | 4 => (ConditionalSelect.ofWord w).map (·.form)
      | 6 => if w.bit 30 then (OneSource.ofWord w).map (·.form) else twoSourceForm w
      | _ => malformed "unallocated data processing register"
  else if op < 8 then (LogicalRegister.ofWord w).map (·.form)
  else if w.bit 21 then (AddSubExtended.ofWord w).map (·.form)
  else (AddSubShifted.ofWord w).map (·.form)

end A64.Encoding
