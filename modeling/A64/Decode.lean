import A64.Encoding.Branch
import A64.Encoding.Immediate
import A64.Encoding.Memory
import A64.Encoding.Register
import A64.Encoding.Vector
import A64.Error

/-! Decoding: from a word at an address to its instruction. -/

namespace A64

open Encoding in
/-- What a word says wherever it stands. -/
def formOf (w : Word) : Except Refusal Form :=
  match EncodingClass.ofWord w with
  | .reserved => malformed "reserved encoding space"
  | .unallocated => malformed "unallocated encoding space"
  | .sve | .sme => unsupported
  | .dataImmediate => immediateForm w
  | .branchSystem => branchForm w
  | .loadStore => memoryForm w
  | .dataRegister => registerForm w
  | .simdFloat => vectorForm w

def Refusal.error (r : Refusal) (w : Word) (a : Address) : DecodeError :=
  match r with
  | malformed reason => .malformed a w reason
  | unsupported => .unsupported a w (.ofWord w)

def decode (w : Word) (a : Address) : Except DecodeError Instruction :=
  match formOf w with
  | .ok f => .ok (f.place w a)
  | .error r => .error (r.error w a)

end A64
