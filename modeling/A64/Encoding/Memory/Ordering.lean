/-! Suffixes of the mnemonics of exclusive and atomic accesses. -/

namespace A64.Encoding

def sizeSuffix (size : BitVec 2) : String :=
  match size.toNat with
  | 0 => "b"
  | 1 => "h"
  | _ => ""

def orderingSuffix (acquire release : Bool) : String :=
  match acquire, release with
  | false, false => ""
  | true, false => "a"
  | false, true => "l"
  | true, true => "al"

end A64.Encoding
