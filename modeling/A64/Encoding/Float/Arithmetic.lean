import A64.Encoding.Float.Conversion

/-! Arithmetic on scalars. -/

namespace A64.Encoding

inductive FloatUnary where
  | keep (mnemonic : String) (operation : Operation)
  | convert (width : Nat)
  deriving DecidableEq, Repr

def floatUnary? (opcode : BitVec 6) : Option FloatUnary :=
  match opcode.toNat with
  | 0 => some (.keep "fmov" .move)
  | 1 => some (.keep "fabs" .floatArith)
  | 2 => some (.keep "fneg" .floatArith)
  | 3 => some (.keep "fsqrt" .floatArith)
  | 4 => some (.convert 32)
  | 5 => some (.convert 64)
  | 7 => some (.convert 16)
  | 8 => some (.keep "frintn" .floatArith)
  | 9 => some (.keep "frintp" .floatArith)
  | 10 => some (.keep "frintm" .floatArith)
  | 11 => some (.keep "frintz" .floatArith)
  | 12 => some (.keep "frinta" .floatArith)
  | 14 => some (.keep "frintx" .floatArith)
  | 15 => some (.keep "frinti" .floatArith)
  | _ => none

/-- Operations on one scalar. An unknown one is recognised by its structure only. -/
def floatOneSource (w : Word) (width : Nat) : Except Refusal Form :=
  match floatUnary? (w.field 15 6) with
  | some (.keep mnemonic operation) =>
    .ok (.plain (spelled mnemonic operation [w.rd.scalar width, w.rn.scalar width]))
  | some (.convert target) =>
    if target = width then malformed "fcvt to the same precision"
    else .ok (.plain (spelled "fcvt" .convert [w.rd.scalar target, w.rn.scalar width]))
  | none => .ok (.unnamed .floatArith)

def floatBinary? (opcode : BitVec 4) : Option String :=
  match opcode.toNat with
  | 0 => some "fmul"
  | 1 => some "fdiv"
  | 2 => some "fadd"
  | 3 => some "fsub"
  | 4 => some "fmax"
  | 5 => some "fmin"
  | 6 => some "fmaxnm"
  | 7 => some "fminnm"
  | 8 => some "fnmul"
  | _ => none

def floatTwoSource (w : Word) (width : Nat) : Except Refusal Form :=
  match floatBinary? (w.field 12 4) with
  | some mnemonic =>
    .ok (.plain (spelled mnemonic .floatArith
      [w.rd.scalar width, w.rn.scalar width, w.rm.scalar width]))
  | none => malformed "unallocated floating-point 2-source"

def fusedName (negate subtract : Bool) : String :=
  match negate, subtract with
  | false, false => "fmadd"
  | false, true => "fmsub"
  | true, false => "fnmadd"
  | true, true => "fnmsub"

def floatThreeSource (w : Word) : Except Refusal Form :=
  if w.bit 31 || w.bit 29 then malformed "unallocated floating-point 3-source"
  else
    (floatWidth w).map fun width =>
      .plain (spelled (fusedName (w.bit 21) (w.bit 15)) .floatArith
        [w.rd.scalar width, w.rn.scalar width, w.rm.scalar width, w.ra.scalar width])

end A64.Encoding
