/-! Condition codes. -/

namespace A64

inductive Condition where
  | eq
  | ne
  | cs
  | cc
  | mi
  | pl
  | vs
  | vc
  | hi
  | ls
  | ge
  | lt
  | gt
  | le
  | al
  | nv
  deriving DecidableEq, Repr

namespace Condition

def all : List Condition := [eq, ne, cs, cc, mi, pl, vs, vc, hi, ls, ge, lt, gt, le, al, nv]

def code : Condition → BitVec 4
  | eq => 0
  | ne => 1
  | cs => 2
  | cc => 3
  | mi => 4
  | pl => 5
  | vs => 6
  | vc => 7
  | hi => 8
  | ls => 9
  | ge => 10
  | lt => 11
  | gt => 12
  | le => 13
  | al => 14
  | nv => 15

def ofCode (b : BitVec 4) : Condition := all.getD b.toNat nv

theorem code_ofCode (b : BitVec 4) : (ofCode b).code = b := by
  revert b
  decide

/-- The opposite condition: the lowest bit of its code is flipped. -/
def inverse (c : Condition) : Condition := ofCode (c.code ^^^ 1)

def isAlways : Condition → Bool
  | al | nv => true
  | _ => false

def suffix : Condition → String
  | eq => "eq"
  | ne => "ne"
  | cs => "cs"
  | cc => "cc"
  | mi => "mi"
  | pl => "pl"
  | vs => "vs"
  | vc => "vc"
  | hi => "hi"
  | ls => "ls"
  | ge => "ge"
  | lt => "lt"
  | gt => "gt"
  | le => "le"
  | al => "al"
  | nv => "nv"

end Condition

end A64
