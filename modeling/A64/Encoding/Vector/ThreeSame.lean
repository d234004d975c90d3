import A64.Encoding.Field
import A64.Encoding.Form

/-! Operations on three vectors of one arrangement. -/

namespace A64.Encoding

def threeVectors (w : Word) (mnemonic : String) (arrangement : Arrangement) : Form :=
  .plain (spelled mnemonic .vector
    [w.rd.lanes arrangement, w.rn.lanes arrangement, w.rm.lanes arrangement])

/-- The integer operations by opcode, signed and unsigned. Opcode 3 is the bitwise group. -/
def integerThreeSame : List (Option String × Option String) :=
  [(some "shadd", some "uhadd"),
   (some "sqadd", some "uqadd"),
   (some "srhadd", some "urhadd"),
   (none, none),
   (some "shsub", some "uhsub"),
   (some "sqsub", some "uqsub"),
   (some "cmgt", some "cmhi"),
   (some "cmge", some "cmhs"),
   (some "sshl", some "ushl"),
   (some "sqshl", some "uqshl"),
   (some "srshl", some "urshl"),
   (some "sqrshl", some "uqrshl"),
   (some "smax", some "umax"),
   (some "smin", some "umin"),
   (some "sabd", some "uabd"),
   (some "saba", some "uaba"),
   (some "add", some "sub"),
   (some "cmtst", some "cmeq"),
   (some "mla", some "mls"),
   (some "mul", some "pmul"),
   (some "smaxp", some "umaxp"),
   (some "sminp", some "uminp"),
   (some "sqdmulh", some "sqrdmulh"),
   (some "addp", none)]

def integerThreeSameName? (opcode : BitVec 5) (unsigned : Bool) : Option String :=
  integerThreeSame[opcode.toNat]?.bind fun names => if unsigned then names.2 else names.1

def narrowOnly : List Nat := [0, 2, 4, 12, 13, 14, 15, 18, 19, 20, 21]

/-- Whether an operation has no lanes of the given size. Polynomials are of bytes only, and
doubling products of halfwords and words. -/
def isReservedSize (opcode : BitVec 5) (unsigned : Bool) (size : BitVec 2) (full : Bool) : Bool :=
  if opcode == 19 && unsigned then size != 0
  else if opcode == 22 then size == 0 || size == 3
  else if narrowOnly.contains opcode.toNat then size == 3
  else size == 3 && !full

/-- The bitwise operations; the size field is part of the opcode. -/
def bitwiseName (unsigned : Bool) (size : BitVec 2) : String :=
  match unsigned, size.toNat with
  | false, 0 => "and"
  | false, 1 => "bic"
  | false, 2 => "orr"
  | false, _ => "orn"
  | true, 0 => "eor"
  | true, 1 => "bsl"
  | true, 2 => "bit"
  | true, _ => "bif"

/-- A disjunction of a vector with itself is a move. -/
def bitwiseForm (w : Word) : Form :=
  let arrangement : Arrangement := if w.bit 30 then .b16 else .b8
  if w.bit 29 = false ∧ w.field 22 2 = 2 ∧ w.rn = w.rm then
    .plain (spelled "mov" .move [w.rd.lanes arrangement, w.rn.lanes arrangement])
  else threeVectors w (bitwiseName (w.bit 29) (w.field 22 2)) arrangement

def floatThreeSameName? (u a : Bool) (opcode : BitVec 5) : Option String :=
  match u, a, opcode.toNat with
  | false, false, 24 => some "fmaxnm"
  | false, false, 25 => some "fmla"
  | false, false, 26 => some "fadd"
  | false, false, 27 => some "fmulx"
  | false, false, 28 => some "fcmeq"
  | false, false, 30 => some "fmax"
  | false, false, 31 => some "frecps"
  | false, true, 24 => some "fminnm"
  | false, true, 25 => some "fmls"
  | false, true, 26 => some "fsub"
  | false, true, 30 => some "fmin"
  | false, true, 31 => some "frsqrts"
  | true, false, 24 => some "fmaxnmp"
  | true, false, 26 => some "faddp"
  | true, false, 27 => some "fmul"
  | true, false, 28 => some "fcmge"
  | true, false, 29 => some "facge"
  | true, false, 30 => some "fmaxp"
  | true, false, 31 => some "fdiv"
  | true, true, 24 => some "fminnmp"
  | true, true, 26 => some "fabd"
  | true, true, 28 => some "fcmgt"
  | true, true, 29 => some "facgt"
  | true, true, 30 => some "fminp"
  | _, _, _ => none

def floatThreeSameForm (w : Word) : Except Refusal Form :=
  match floatThreeSameName? (w.bit 29) (w.bit 23) (w.field 11 5),
      Arrangement.ofFloat? (w.bit 22) (w.bit 30) with
  | none, _ => .ok (.unnamed .vector)
  | some _, none => malformed "reserved vector arrangement"
  | some mnemonic, some arrangement => .ok (threeVectors w mnemonic arrangement)

def integerThreeSameForm (w : Word) : Except Refusal Form :=
  let opcode := w.field 11 5
  let size := w.field 22 2
  match integerThreeSameName? opcode (w.bit 29) with
  | none => .ok (.unnamed .vector)
  | some mnemonic =>
    if isReservedSize opcode (w.bit 29) size (w.bit 30) then malformed "reserved vector arrangement"
    else .ok (threeVectors w mnemonic (.ofSize size (w.bit 30)))

def threeSameForm (w : Word) : Except Refusal Form :=
  let opcode := w.field 11 5
  if opcode = 3 then .ok (bitwiseForm w)
  else if 24 ≤ opcode.toNat then floatThreeSameForm w
  else integerThreeSameForm w

end A64.Encoding
