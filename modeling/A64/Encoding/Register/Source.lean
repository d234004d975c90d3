import A64.Encoding.Field
import A64.Encoding.Form

/-! Operations on one, two and three source registers. -/

namespace A64.Encoding

structure OneSource where
  mnemonic : String
  wide : Bool
  rn : RegisterField
  rd : RegisterField
  deriving DecidableEq, Repr

namespace OneSource

def name (opcode : BitVec 6) (wide : Bool) : Except Refusal String :=
  match opcode.toNat, wide with
  | 0, _ => .ok "rbit"
  | 1, _ => .ok "rev16"
  | 2, false => .ok "rev"
  | 2, true => .ok "rev32"
  | 3, true => .ok "rev"
  | 3, false => malformed "rev with 64-bit size on w register"
  | 4, _ => .ok "clz"
  | 5, _ => .ok "cls"
  | _, _ => unsupported

def ofWord (w : Word) : Except Refusal OneSource :=
  if w.bit 29 then malformed "unallocated 1-source encoding"
  else if w.field 16 5 ≠ 0 then unsupported
  else (name (w.field 10 6) (w.bit 31)).map fun mnemonic => ⟨mnemonic, w.bit 31, w.rn, w.rd⟩

def form (e : OneSource) : Form where
  toSpelling :=
    spelled e.mnemonic .bitField [.register (e.rd.gp e.wide), .register (e.rn.gp e.wide)]
  reads := .of [e.rn.gp e.wide]
  writes := .of [e.rd.gp e.wide]

end OneSource

inductive TwoSourceOp where
  | udiv
  | sdiv
  | lsl
  | lsr
  | asr
  | ror
  deriving DecidableEq, Repr

namespace TwoSourceOp

def ofCode? (b : BitVec 6) : Option TwoSourceOp :=
  match b.toNat with
  | 2 => some udiv
  | 3 => some sdiv
  | 8 => some lsl
  | 9 => some lsr
  | 10 => some asr
  | 11 => some ror
  | _ => none

def name : TwoSourceOp → String
  | udiv => "udiv"
  | sdiv => "sdiv"
  | lsl => "lsl"
  | lsr => "lsr"
  | asr => "asr"
  | ror => "ror"

def operation : TwoSourceOp → Operation
  | udiv | sdiv => .div
  | lsl => .shl
  | lsr => .shr
  | asr => .sar
  | ror => .ror

end TwoSourceOp

structure TwoSource where
  wide : Bool
  op : TwoSourceOp
  rm : RegisterField
  rn : RegisterField
  rd : RegisterField
  deriving DecidableEq, Repr

def TwoSource.form (e : TwoSource) : Form where
  toSpelling :=
    spelled e.op.name e.op.operation
      [.register (e.rd.gp e.wide), .register (e.rn.gp e.wide), .register (e.rm.gp e.wide)]
  reads := .of [e.rn.gp e.wide, e.rm.gp e.wide]
  writes := .of [e.rd.gp e.wide]

/-- A step of a checksum over the low `8 * 2 ^ size` bits of a register. -/
structure Checksum where
  castagnoli : Bool
  size : BitVec 2
  rm : RegisterField
  rn : RegisterField
  rd : RegisterField
  deriving DecidableEq, Repr

namespace Checksum

def sizeLetter (size : BitVec 2) : String :=
  match size.toNat with
  | 0 => "b"
  | 1 => "h"
  | 2 => "w"
  | _ => "x"

def data (e : Checksum) : Register := e.rm.gp (e.size = 3)

def form (e : Checksum) : Form where
  toSpelling :=
    spelled ("crc32" ++ (if e.castagnoli then "c" else "") ++ sizeLetter e.size) .checksum
      [.register (e.rd.gp false), .register (e.rn.gp false), .register e.data]
  reads := .of [e.rn.gp false, e.data]
  writes := .of [e.rd.gp false]

end Checksum

/-- The operations with two sources; opcodes 16 to 23 are checksums, whose width the data must
have. -/
def twoSourceForm (w : Word) : Except Refusal Form :=
  let wide := w.bit 31
  if w.bit 29 then unsupported
  else if w.field 13 3 = 2 then
    if wide = (w.field 10 2 == 3) then
      .ok (Checksum.form ⟨w.bit 12, w.field 10 2, w.rm, w.rn, w.rd⟩)
    else malformed "crc32 size does not match sf"
  else
    match TwoSourceOp.ofCode? (w.field 10 6) with
    | some op => .ok (TwoSource.form ⟨wide, op, w.rm, w.rn, w.rd⟩)
    | none => unsupported

/-- Products: of registers of one width with a sum, of narrow registers into a wide sum, and the high
half of a wide product. -/
inductive ProductKind where
  | same
  | signedLong
  | unsignedLong
  | signedHigh
  | unsignedHigh
  deriving DecidableEq, Repr

/-- `ra` holds what the product is added to, or subtracted from. The zero register there is left
out. -/
structure ThreeSource where
  wide : Bool
  kind : ProductKind
  subtract : Bool
  rm : RegisterField
  ra : RegisterField
  rn : RegisterField
  rd : RegisterField
  deriving DecidableEq, Repr

namespace ThreeSource

def kind? (opcode : BitVec 3) (subtract wide : Bool) : Option ProductKind :=
  match opcode.toNat, subtract, wide with
  | 0, _, _ => some .same
  | 1, _, true => some .signedLong
  | 5, _, true => some .unsignedLong
  | 2, false, true => some .signedHigh
  | 6, false, true => some .unsignedHigh
  | _, _, _ => none

def ofWord (w : Word) : Except Refusal ThreeSource :=
  if w.field 29 2 ≠ 0 then malformed "unallocated 3-source encoding"
  else
    match kind? (w.field 21 3) (w.bit 15) (w.bit 31) with
    | some kind => .ok ⟨w.bit 31, kind, w.bit 15, w.rm, w.ra, w.rn, w.rd⟩
    | none => malformed "unallocated 3-source encoding"

def names (e : ThreeSource) : String × Option String :=
  match e.kind, e.subtract with
  | .same, false => ("madd", some "mul")
  | .same, true => ("msub", some "mneg")
  | .signedLong, false => ("smaddl", some "smull")
  | .signedLong, true => ("smsubl", some "smnegl")
  | .unsignedLong, false => ("umaddl", some "umull")
  | .unsignedLong, true => ("umsubl", some "umnegl")
  | .signedHigh, _ => ("smulh", none)
  | .unsignedHigh, _ => ("umulh", none)

def isLong (e : ThreeSource) : Bool := e.kind == .signedLong || e.kind == .unsignedLong

def result (e : ThreeSource) : Register := e.rd.gp e.wide

def first (e : ThreeSource) : Register := e.rn.gp (e.wide && !e.isLong)

def second (e : ThreeSource) : Register := e.rm.gp (e.wide && !e.isLong)

def summand (e : ThreeSource) : Register := e.ra.gp e.wide

def spelling (e : ThreeSource) : Spelling :=
  let factors : List Operand := [.register e.result, .register e.first, .register e.second]
  match e.names with
  | (name, none) => spelled name .mul factors
  | (name, some short) =>
    if e.ra = 31 then spelled short .mul factors
    else spelled name .mul (factors ++ [.register e.summand])

def form (e : ThreeSource) : Form where
  toSpelling := e.spelling
  reads := .of [e.first, e.second, e.summand]
  writes := .of [e.result]

end ThreeSource

end A64.Encoding
