import A64.Listing
import A64.Source

/-! Disassembly of the one word at an offset of a source. -/

namespace A64

structure Disassembled where
  instruction : Instruction
  assembly : String
  annotation : String
  deriving DecidableEq, Repr

def Disassembled.ofWord (a : Address) (w : Word) : Except DisassemblyError Disassembled :=
  match decode w a with
  | .error cause => .error (.ofDecode a cause)
  | .ok i =>
    match i.render .hex with
    | .error cause => .error (.ofRender a w cause)
    | .ok assembly => .ok ⟨i, assembly, i.annotation⟩

def Fault.misplaced (position : Address) : Fault :=
  ⟨.other, "seek landed at " ++ Hex.text position.toNat⟩

/-- Disassembles the word at `offset` as if it stood at the address `a`. The source has to land where it
was sent. -/
def disassembleAt {σ : Type} [Source σ] (s : σ) (offset a : Address) :
    Except DisassemblyError Disassembled × σ :=
  match Source.seek offset s with
  | (.error fault, s) => (.error (.seek offset fault), s)
  | (.ok position, s) =>
    if position ≠ offset then (.error (.seek offset (.misplaced position)), s)
    else
      match Source.readWord s with
      | (.error fault, s) => (.error (.read a fault), s)
      | (.ok none, s) => (.error (.read a .noInstruction), s)
      | (.ok (some w), s) => (Disassembled.ofWord a w, s)

end A64
