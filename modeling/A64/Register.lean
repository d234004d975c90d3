/-! Registers: the general registers, which share number 31 between the stack pointer and the zero
register, and the scalar and whole views of the vector registers. -/

namespace A64

inductive RegisterKind where
  | general
  | stackPointer
  | zero
  | scalar
  | vector
  deriving DecidableEq, Repr

structure Register where
  kind : RegisterKind
  index : Nat
  size : Nat
  deriving DecidableEq, Repr

namespace Register

def width (wide : Bool) : Nat := if wide then 64 else 32

/-- A general register, number 31 being the zero register. Only five bits of the number count. -/
def gp (wide : Bool) (n : Nat) : Register :=
  if n % 32 = 31 then ⟨.zero, 31, width wide⟩ else ⟨.general, n % 32, width wide⟩

/-- A general register, number 31 being the stack pointer. Only five bits of the number count. -/
def gpOrSp (wide : Bool) (n : Nat) : Register :=
  if n % 32 = 31 then ⟨.stackPointer, 31, width wide⟩ else ⟨.general, n % 32, width wide⟩

def x (n : Nat) : Register := gp true n

def w (n : Nat) : Register := gp false n

def xOrSp (n : Nat) : Register := gpOrSp true n

def sp : Register := ⟨.stackPointer, 31, 64⟩

def lr : Register := ⟨.general, 30, 64⟩

def float (size n : Nat) : Register := ⟨.scalar, n % 32, size⟩

def whole (n : Nat) : Register := ⟨.vector, n % 32, 128⟩

/-- The number under which register sets track a register: general registers and the stack pointer
have one, the zero register and the vector registers have none. -/
def tracked? (r : Register) : Option Nat :=
  match r.kind with
  | .general | .stackPointer => if r.index ≤ 31 then some r.index else none
  | _ => none

def isValid (r : Register) : Bool :=
  r.index ≤ 31 &&
    match r.kind with
    | .general => r.index != 31 && (r.size == 32 || r.size == 64)
    | .stackPointer | .zero => r.index == 31 && (r.size == 32 || r.size == 64)
    | .scalar => r.size == 8 || r.size == 16 || r.size == 32 || r.size == 64 || r.size == 128
    | .vector => true

def scalarLetter : Nat → String
  | 8 => "b"
  | 16 => "h"
  | 32 => "s"
  | 64 => "d"
  | _ => "q"

def text (r : Register) : String :=
  let wide := r.size != 32
  match r.kind with
  | .general => (if wide then "x" else "w") ++ r.index.repr
  | .stackPointer => if wide then "sp" else "wsp"
  | .zero => if wide then "xzr" else "wzr"
  | .scalar => scalarLetter r.size ++ r.index.repr
  | .vector => "v" ++ r.index.repr

end Register

end A64
