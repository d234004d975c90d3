/-! How a vector register is cut into lanes. -/

namespace A64

inductive ElementSize where
  | b
  | h
  | s
  | d
  | q
  deriving DecidableEq, Repr

namespace ElementSize

def all : List ElementSize := [b, h, s, d, q]

def bits : ElementSize → Nat
  | b => 8
  | h => 16
  | s => 32
  | d => 64
  | q => 128

def text : ElementSize → String
  | b => "b"
  | h => "h"
  | s => "s"
  | d => "d"
  | q => "q"

end ElementSize

inductive Arrangement where
  | b8
  | b16
  | h4
  | h8
  | s2
  | s4
  | d1
  | d2
  | q1
  deriving DecidableEq, Repr

namespace Arrangement

def all : List Arrangement := [b8, b16, h4, h8, s2, s4, d1, d2, q1]

/-- The arrangement of a size field in a half (`full = false`) or a whole register. -/
def ofSize (size : BitVec 2) (full : Bool) : Arrangement :=
  match size.toNat, full with
  | 0, false => b8
  | 0, true => b16
  | 1, false => h4
  | 1, true => h8
  | 2, false => s2
  | 2, true => s4
  | _, false => d1
  | _, true => d2

/-- The arrangement of floating-point lanes. One lane of a double has none. -/
def ofFloat? (double full : Bool) : Option Arrangement :=
  match double, full with
  | false, false => some s2
  | false, true => some s4
  | true, true => some d2
  | true, false => none

def element : Arrangement → ElementSize
  | b8 | b16 => .b
  | h4 | h8 => .h
  | s2 | s4 => .s
  | d1 | d2 => .d
  | q1 => .q

def text : Arrangement → String
  | b8 => "8b"
  | b16 => "16b"
  | h4 => "4h"
  | h8 => "8h"
  | s2 => "2s"
  | s4 => "4s"
  | d1 => "1d"
  | d2 => "2d"
  | q1 => "1q"

end Arrangement

end A64
