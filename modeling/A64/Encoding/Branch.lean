import A64.Encoding.Branch.Direct
import A64.Encoding.Branch.Exception
import A64.Encoding.Branch.Register
import A64.Encoding.System

/-! Branches, exceptions and system instructions. -/

namespace A64.Encoding

def branchForm (w : Word) : Except Refusal Form :=
  match (w.field 29 3).toNat with
  | 0 | 4 => .ok (BranchImmediate.ofWord w).form
  | 1 | 5 =>
    .ok (if w.bit 25 then (TestBranch.ofWord w).form else (CompareBranch.ofWord w).form)
  | 2 => (ConditionalBranch.ofWord w).map (·.form)
  | 6 =>
    if w.bit 25 then (BranchRegister.ofWord w).map (·.form)
    else if w.bit 24 then systemForm w
    else (ExceptionCall.ofWord w).map (·.form)
  | _ => malformed "unallocated branch encoding"

end A64.Encoding
