import A64.Encoding.Form

/-! Barriers. -/

namespace A64.Encoding

/-- `domain` is the field that most barriers read as the reach of their effect. -/
structure Barrier where
  domain : BitVec 4
  op : BitVec 3
  deriving DecidableEq, Repr

namespace Barrier

def domainOperand (domain : BitVec 4) : Operand :=
  match domain.toNat with
  | 1 => .named "oshld"
  | 2 => .named "oshst"
  | 3 => .named "osh"
  | 5 => .named "nshld"
  | 6 => .named "nshst"
  | 7 => .named "nsh"
  | 9 => .named "ishld"
  | 10 => .named "ishst"
  | 11 => .named "ish"
  | 13 => .named "ld"
  | 14 => .named "st"
  | 15 => .named "sy"
  | n => .count n

/-- The number of a reach, left out if it is the whole system. -/
def numberUnlessSystem (domain : BitVec 4) : List Operand :=
  if domain = 15 then [] else [.count domain.toNat]

def spelling (e : Barrier) : Except Refusal Spelling :=
  match e.op.toNat with
  | 1 | 3 => unsupported
  | 2 => .ok (spelled "clrex" .barrier (numberUnlessSystem e.domain))
  | 4 =>
    .ok (if e.domain = 0 then spelled "ssbb" .barrier []
      else if e.domain = 4 then spelled "pssbb" .barrier []
      else spelled "dsb" .barrier [domainOperand e.domain])
  | 5 => .ok (spelled "dmb" .barrier [domainOperand e.domain])
  | 6 => .ok (spelled "isb" .barrier (numberUnlessSystem e.domain))
  | 7 => if e.domain = 0 then .ok (spelled "sb" .barrier []) else malformed "unallocated barrier encoding"
  | _ => malformed "unallocated barrier encoding"

def form (e : Barrier) : Except Refusal Form := e.spelling.map .plain

end Barrier

end A64.Encoding
