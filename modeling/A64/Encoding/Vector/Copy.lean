import A64.Encoding.Field
import A64.Encoding.Form

/-! Copies between lanes and general registers. -/

namespace A64.Encoding

/-- A lane: the power of two of its bytes, and which one it is. -/
structure LaneSelect where
  sizeLog : Nat
  index : Nat
  deriving DecidableEq, Repr

namespace LaneSelect

/-- The lane of a five-bit field: its lowest set bit tells the size, the bits above it the index. -/
def ofField? (b : BitVec 5) : Option LaneSelect :=
  if b.getLsbD 0 then some ⟨0, (b.extractLsb' 1 4).toNat⟩
  else if b.getLsbD 1 then some ⟨1, (b.extractLsb' 2 3).toNat⟩
  else if b.getLsbD 2 then some ⟨2, (b.extractLsb' 3 2).toNat⟩
  else if b.getLsbD 3 then some ⟨3, (b.extractLsb' 4 1).toNat⟩
  else none

def size (l : LaneSelect) : ElementSize :=
  match l.sizeLog with
  | 0 => .b
  | 1 => .h
  | 2 => .s
  | _ => .d

def arrangement (l : LaneSelect) (full : Bool) : Arrangement :=
  .ofSize (BitVec.ofNat 2 l.sizeLog) full

def operand (l : LaneSelect) (n : RegisterField) : Operand := n.lane l.size l.index

end LaneSelect

/-- The name of a move from a lane to a general register. A lane as wide as the register needs no
extension. -/
def laneMoveName? (signed full : Bool) (sizeLog : Nat) : Option String :=
  match signed, full, sizeLog with
  | true, false, 0 | true, false, 1 => some "smov"
  | true, true, 0 | true, true, 1 | true, true, 2 => some "smov"
  | false, false, 0 | false, false, 1 => some "umov"
  | false, false, 2 | false, true, 3 => some "mov"
  | _, _, _ => none

def laneToGeneral (w : Word) (l : LaneSelect) (signed : Bool) : Except Refusal Form :=
  match laneMoveName? signed (w.bit 30) l.sizeLog with
  | some mnemonic =>
    .ok { toSpelling := spelled mnemonic .move [.register (w.rd.gp (w.bit 30)), l.operand w.rn]
          writes := .of [w.rd.gp (w.bit 30)] }
  | none => malformed "element move size mismatch"

def laneInsert (w : Word) (l : LaneSelect) : Except Refusal Form :=
  if w.bit 30 then
    .ok (.plain (spelled "mov" .move
      [l.operand w.rd, w.rn.lane l.size ((w.field 11 4).toNat >>> l.sizeLog)]))
  else malformed "element insert requires Q"

def duplicate (w : Word) (l : LaneSelect) (general : Bool) : Except Refusal Form :=
  let dst := w.rd.lanes (l.arrangement (w.bit 30))
  let src := w.rn.gp (l.sizeLog = 3)
  if l.sizeLog = 3 ∧ w.bit 30 = false then malformed "reserved vector arrangement"
  else if general then
    .ok { toSpelling := spelled "dup" .vector [dst, .register src], reads := .of [src] }
  else .ok (.plain (spelled "dup" .vector [dst, l.operand w.rn]))

def generalToLane (w : Word) (l : LaneSelect) : Form where
  toSpelling := spelled "mov" .move [l.operand w.rd, .register (w.rn.gp (l.sizeLog = 3))]
  reads := .of [w.rn.gp (l.sizeLog = 3)]

def copyForm (w : Word) : Except Refusal Form :=
  match LaneSelect.ofField? (w.field 16 5) with
  | none => malformed "reserved element size"
  | some l =>
    if w.bit 29 then laneInsert w l
    else
      match (w.field 11 4).toNat with
      | 0 => duplicate w l false
      | 1 => duplicate w l true
      | 3 => if w.bit 30 then .ok (generalToLane w l) else malformed "unallocated simd copy"
      | 5 => laneToGeneral w l true
      | 7 => laneToGeneral w l false
      | _ => malformed "unallocated simd copy"

end A64.Encoding
