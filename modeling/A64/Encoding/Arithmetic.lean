import A64.Encoding.Form

/-! Sums and differences, the part that their encodings share. -/

namespace A64.Encoding

structure Arithmetic where
  wide : Bool
  subtract : Bool
  setFlags : Bool
  deriving DecidableEq, Repr

namespace Arithmetic

def ofWord (w : Word) : Arithmetic := ⟨w.bit 31, w.bit 30, w.bit 29⟩

def operation (e : Arithmetic) : Operation := if e.subtract then .sub else .add

def name (e : Arithmetic) : String :=
  match e.subtract, e.setFlags with
  | false, false => "add"
  | false, true => "adds"
  | true, false => "sub"
  | true, true => "subs"

def compareName (e : Arithmetic) : String := if e.subtract then "cmp" else "cmn"

def negateName (e : Arithmetic) : String := if e.setFlags then "negs" else "neg"

def carryName (e : Arithmetic) : String :=
  match e.subtract, e.setFlags with
  | false, false => "adc"
  | false, true => "adcs"
  | true, false => "sbc"
  | true, true => "sbcs"

def negateCarryName (e : Arithmetic) : String := if e.setFlags then "ngcs" else "ngc"

end Arithmetic

end A64.Encoding
