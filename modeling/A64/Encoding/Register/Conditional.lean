import A64.Encoding.Field
import A64.Encoding.Form

/-! Comparisons and selections that depend on a condition. -/

namespace A64.Encoding

/-- A comparison that replaces the flags by `nzcv` if its condition fails. The second source is a
register or a number, both in the field `rm`. -/
structure ConditionalCompare where
  wide : Bool
  negative : Bool
  immediate : Bool
  rm : RegisterField
  condition : Condition
  rn : RegisterField
  nzcv : BitVec 4
  deriving DecidableEq, Repr

namespace ConditionalCompare

def ofWord (w : Word) : Except Refusal ConditionalCompare :=
  if !w.bit 29 || w.bit 10 || w.bit 4 then malformed "unallocated conditional compare"
  else .ok
    ⟨w.bit 31, !w.bit 30, w.bit 11, w.rm, .ofCode (w.field 12 4), w.rn, w.field 0 4⟩

def first (e : ConditionalCompare) : Register := e.rn.gp e.wide

def second (e : ConditionalCompare) : Register := e.rm.gp e.wide

def form (e : ConditionalCompare) : Form where
  toSpelling :=
    spelled (if e.negative then "ccmn" else "ccmp") .compare
      [.register e.first, if e.immediate then .count e.rm.toNat else .register e.second,
       .count e.nzcv.toNat, .condition e.condition]
  reads :=
    (RegisterSet.of (if e.immediate then [e.first] else [e.first, e.second])).insertFlags
  writes := .flags

end ConditionalCompare

inductive SelectOp where
  | csel
  | csinc
  | csinv
  | csneg
  deriving DecidableEq, Repr

namespace SelectOp

def ofBits (invert increment : Bool) : SelectOp :=
  match invert, increment with
  | false, false => csel
  | false, true => csinc
  | true, false => csinv
  | true, true => csneg

def name : SelectOp → String
  | csel => "csel"
  | csinc => "csinc"
  | csinv => "csinv"
  | csneg => "csneg"

end SelectOp

structure ConditionalSelect where
  wide : Bool
  op : SelectOp
  condition : Condition
  rm : RegisterField
  rn : RegisterField
  rd : RegisterField
  deriving DecidableEq, Repr

namespace ConditionalSelect

def ofWord (w : Word) : Except Refusal ConditionalSelect :=
  if w.bit 29 || w.bit 11 then malformed "unallocated conditional select"
  else .ok ⟨w.bit 31, .ofBits (w.bit 30) (w.bit 10), .ofCode (w.field 12 4), w.rm, w.rn, w.rd⟩

def result (e : ConditionalSelect) : Register := e.rd.gp e.wide

def first (e : ConditionalSelect) : Register := e.rn.gp e.wide

def second (e : ConditionalSelect) : Register := e.rm.gp e.wide

/-- Two equal sources under a condition that can fail. Such a selection is written with the opposite
condition. -/
def isAlias (e : ConditionalSelect) : Bool := e.rn == e.rm && !e.condition.isAlways

def alias? (e : ConditionalSelect) : Option (String × Bool) :=
  if e.isAlias then
    match e.op with
    | .csel => none
    | .csinc => some (if e.rn = 31 then ("cset", true) else ("cinc", false))
    | .csinv => some (if e.rn = 31 then ("csetm", true) else ("cinv", false))
    | .csneg => some ("cneg", false)
  else none

def operands (e : ConditionalSelect) : List Operand :=
  match e.alias? with
  | some (_, true) => [.register e.result, .condition e.condition.inverse]
  | some (_, false) => [.register e.result, .register e.first, .condition e.condition.inverse]
  | none =>
    [.register e.result, .register e.first, .register e.second, .condition e.condition]

def form (e : ConditionalSelect) : Form where
  toSpelling :=
    spelled ((e.alias?.map Prod.fst).getD e.op.name) .conditionalSelect e.operands
  reads := (RegisterSet.of [e.first, e.second]).insertFlags
  writes := .of [e.result]

end ConditionalSelect

end A64.Encoding
