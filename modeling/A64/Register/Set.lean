import A64.Register

/-! Sets of registers that an instruction reads or writes. Bits 0 to 31 of a mask are the general
registers, 31 being the stack pointer, and bit 32 is the flags; higher bits mean nothing. -/

namespace A64

inductive RegisterSet where
  /-- Every register, for effects that no finite set can state. -/
  | all
  | subset (mask : BitVec 64)
  deriving DecidableEq, Repr

namespace RegisterSet

def flagsBit : Nat := 32

def usable : BitVec 64 := 0x1FFFFFFFF#64

def empty : RegisterSet := .subset 0

def ofMask (mask : BitVec 64) : RegisterSet := .subset (mask &&& usable)

def mask? : RegisterSet → Option (BitVec 64)
  | .all => none
  | .subset m => some (m &&& usable)

def isAll : RegisterSet → Bool
  | .all => true
  | .subset _ => false

def isEmpty : RegisterSet → Bool
  | .all => false
  | .subset m => m &&& usable == 0

/-- Adds a general register by number. Numbers above 31 add nothing. -/
def insertIndex (s : RegisterSet) (i : Nat) : RegisterSet :=
  match s with
  | .all => .all
  | .subset m => if i ≤ 31 then .subset (m ||| BitVec.twoPow 64 i) else .subset m

def insert (s : RegisterSet) (r : Register) : RegisterSet :=
  match r.tracked? with
  | some i => s.insertIndex i
  | none => s

def insertAll (s : RegisterSet) (rs : List Register) : RegisterSet := rs.foldl insert s

def insertFlags : RegisterSet → RegisterSet
  | .all => .all
  | .subset m => .subset (m ||| BitVec.twoPow 64 flagsBit)

def of (rs : List Register) : RegisterSet := empty.insertAll rs

def withFlags (s : RegisterSet) (flags : Bool) : RegisterSet := if flags then s.insertFlags else s

def flags : RegisterSet := empty.insertFlags

def contains (s : RegisterSet) (i : Nat) : Bool :=
  match s with
  | .all => i ≤ 31
  | .subset m => i ≤ 31 && m.getLsbD i

def hasFlags : RegisterSet → Bool
  | .all => true
  | .subset m => m.getLsbD flagsBit

def union : RegisterSet → RegisterSet → RegisterSet
  | .subset a, .subset b => ofMask (a ||| b)
  | _, _ => .all

def indices (s : RegisterSet) : List Nat := (List.range 32).filter s.contains

def text (s : RegisterSet) : String :=
  if s.isAll then "all"
  else if s.isEmpty then "none"
  else ",".intercalate (s.indices.map Nat.repr ++ if s.hasFlags then ["nzcv"] else [])

end RegisterSet

end A64
