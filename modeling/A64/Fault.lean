/-! Faults of byte sources. -/

namespace A64

/-- The kind of a fault by its name. What interrupts a reader is no fault. -/
structure FaultKind where
  name : String
  ne_interrupted : name ≠ "Interrupted" := by decide
  deriving DecidableEq, Repr

namespace FaultKind

def other : FaultKind := { name := "Other" }

def unexpectedEnd : FaultKind := { name := "UnexpectedEof" }

end FaultKind

structure Fault where
  kind : FaultKind
  message : String
  deriving DecidableEq, Repr

/-- A source ended inside a word, of which it gave `n` bytes. -/
def Fault.partialWord (n : Nat) : Fault :=
  ⟨.unexpectedEnd, "partial instruction word: " ++ n.repr ++ " of 4 bytes"⟩

def Fault.noInstruction : Fault := ⟨.unexpectedEnd, "no instruction at offset"⟩

end A64
