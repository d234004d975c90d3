import A64.Encoding.Field
import A64.Encoding.Form

/-! Moves of a 16-bit immediate into one quarter of a register. `movz` clears the rest, `movn` inverts
the whole, `movk` keeps the rest. -/

namespace A64.Encoding

inductive MoveOp where
  | movn
  | movz
  | movk
  deriving DecidableEq, Repr

def MoveOp.name : MoveOp → String
  | movn => "movn"
  | movz => "movz"
  | movk => "movk"

structure MoveWide where
  wide : Bool
  op : MoveOp
  quarter : BitVec 2
  imm : BitVec 16
  rd : RegisterField
  deriving DecidableEq, Repr

namespace MoveWide

def op? (b : BitVec 2) : Option MoveOp :=
  match b.toNat with
  | 0 => some .movn
  | 2 => some .movz
  | 3 => some .movk
  | _ => none

def ofWord (w : Word) : Except Refusal MoveWide :=
  match op? (w.field 29 2) with
  | none => malformed "unallocated move wide opcode"
  | some op =>
    if !w.bit 31 && 2 ≤ (w.field 21 2).toNat then malformed "move wide shift exceeds register width"
    else .ok ⟨w.bit 31, op, w.field 21 2, w.field 5 16, w.rd⟩

def shift (e : MoveWide) : Nat := 16 * e.quarter.toNat

def placed (e : MoveWide) : Nat := e.imm.toNat <<< e.shift

/-- The complement of the immediate in its place, as a signed number of the register's width. -/
def inverted (e : MoveWide) : Int := (~~~(BitVec.ofNat (Register.width e.wide) e.placed)).toInt

/-- Whether the instruction is written as `mov`. A shifted zero keeps its own name, and so does a
32-bit `movn` of `0xFFFF`, whose value a `movz` writes. -/
def isMove (e : MoveWide) : Bool :=
  !(e.imm == 0 && e.quarter != 0) &&
    match e.op with
    | .movz => true
    | .movn => e.wide || e.imm != 0xFFFF
    | .movk => false

def spelling (e : MoveWide) : Spelling :=
  let dst : Operand := .register (e.rd.gp e.wide)
  if e.isMove then
    spelled "mov" .move
      [dst, if e.op = .movn then .ofInt e.inverted else .ofNat e.placed]
  else spelled e.op.name .move [dst, .shiftedImmediate e.imm.toNat e.shift]

def form (e : MoveWide) : Form where
  toSpelling := e.spelling
  reads := if e.op = .movk then .of [e.rd.gp e.wide] else .empty
  writes := .of [e.rd.gp e.wide]

end MoveWide

end A64.Encoding
