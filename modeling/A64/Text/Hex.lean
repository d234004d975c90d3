import A64.Word

/-! Hexadecimal text: written in lowercase after `0x`, read with an optional `0x` and an optional
plus sign in either case. -/

namespace A64.Hex

def digits (width n : Nat) : List Char := (Nat.toDigits 16 n).leftpad width '0'

def text (n : Nat) : String := "0x" ++ String.ofList (digits 1 n)

def wide (n : Nat) : String := "0x" ++ String.ofList (digits 8 n)

def byte (b : UInt8) : String := String.ofList (digits 2 b.toNat)

def value? (c : Char) : Option Nat :=
  if '0' ≤ c ∧ c ≤ '9' then some (c.toNat - '0'.toNat)
  else if 'a' ≤ c ∧ c ≤ 'f' then some (c.toNat - 'a'.toNat + 10)
  else if 'A' ≤ c ∧ c ≤ 'F' then some (c.toNat - 'A'.toNat + 10)
  else none

def accumulate? (n : Nat) : List Char → Option Nat
  | [] => some n
  | c :: cs => (value? c).bind fun d => accumulate? (16 * n + d) cs

def dropMark : List Char → List Char
  | '0' :: 'x' :: cs => cs
  | cs => cs

def dropPlus : List Char → List Char
  | '+' :: cs => cs
  | cs => cs

/-- A 64-bit number: `0x` may stand in front, then a plus sign, then at least one digit. -/
def read? (s : String) : Option Address :=
  match dropPlus (dropMark s.toList) with
  | [] => none
  | cs => (accumulate? 0 cs).bind fun n => if n < 1 <<< 64 then some (BitVec.ofNat 64 n) else none

end A64.Hex
