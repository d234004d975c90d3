import A64.Encoding.Form

/-! Hints. A hint without a name of its own is written by its number. -/

namespace A64.Encoding

structure Hint where
  number : BitVec 7
  deriving DecidableEq, Repr

namespace Hint

def quiet? (n : Nat) : Option Spelling :=
  match n with
  | 0 => some (spelled "nop" .nop [])
  | 1 => some (spelled "yield" .hint [])
  | 2 => some (spelled "wfe" .hint [])
  | 3 => some (spelled "wfi" .hint [])
  | 4 => some (spelled "sev" .hint [])
  | 5 => some (spelled "sevl" .hint [])
  | 16 => some (spelled "esb" .barrier [])
  | 20 => some (spelled "csdb" .barrier [])
  | 32 => some (spelled "bti" .hint [])
  | 34 => some (spelled "bti" .hint [.named "c"])
  | 36 => some (spelled "bti" .hint [.named "j"])
  | 38 => some (spelled "bti" .hint [.named "jc"])
  | _ => none

/-- Hints that sign or authenticate the link register, with zero or the stack pointer as
modifier. -/
def pointer? (n : Nat) : Option (String × Bool) :=
  match n with
  | 24 => some ("paciaz", false)
  | 25 => some ("paciasp", true)
  | 26 => some ("pacibz", false)
  | 27 => some ("pacibsp", true)
  | 28 => some ("autiaz", false)
  | 29 => some ("autiasp", true)
  | 30 => some ("autibz", false)
  | 31 => some ("autibsp", true)
  | _ => none

def form (e : Hint) : Form :=
  match pointer? e.number.toNat with
  | some (name, withSp) =>
    { toSpelling := spelled name .hint []
      reads := .of (if withSp then [.lr, .sp] else [.lr])
      writes := .of [.lr] }
  | none =>
    .plain ((quiet? e.number.toNat).getD (spelled "hint" .hint [.count e.number.toNat]))

end Hint

end A64.Encoding
