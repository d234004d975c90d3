import A64.Instruction

/-! Forms: what an encoding says of its instruction wherever it stands. Only a reference relative to
the program counter has to wait for the address, so decoding a word yields a form or a refusal, and
placing the form at an address yields the instruction. -/

namespace A64

inductive Refusal where
  | malformed (reason : String)
  | unsupported
  deriving DecidableEq, Repr

def malformed {α : Type} (reason : String) : Except Refusal α := .error (.malformed reason)

def unsupported {α : Type} : Except Refusal α := .error .unsupported

inductive Reference where
  | displaced (kind : PcRelative) (bytes : Int)
  /-- So many 4096-byte pages from the page of the instruction. -/
  | page (pages : Int)
  deriving DecidableEq, Repr

namespace Reference

def kind : Reference → PcRelative
  | displaced kind _ => kind
  | page _ => .addressPage

def target (a : Address) : Reference → Address
  | displaced _ bytes => a.advance bytes
  | page pages => a.page.advance (4096 * pages)

def operand (a : Address) (r : Reference) : Operand :=
  .pcRelative (r.target a - a).toInt (r.target a)

end Reference

/-- How an instruction is written, a reference relative to the program counter left out. -/
structure Spelling where
  mnemonic : Option String
  operation : Operation
  operands : List Operand
  deriving DecidableEq, Repr

def spelled (mnemonic : String) (operation : Operation) (operands : List Operand) : Spelling :=
  ⟨some mnemonic, operation, operands⟩

/-- How an instruction is written and what it does. A reference is written as the last operand. -/
structure Form extends Spelling where
  reads : RegisterSet := .empty
  writes : RegisterSet := .empty
  branch : Branch := .none
  reference : Option Reference := none
  deriving DecidableEq, Repr

namespace Form

def plain (s : Spelling) : Form := { toSpelling := s }

/-- A form that is recognised by its structure only. -/
def unnamed (operation : Operation) : Form := plain ⟨none, operation, []⟩

/-- Where a branch leads, zero if the form does not tell. -/
def branchTarget (f : Form) (a : Address) : Address :=
  match f.branch, f.reference with
  | .none, _ | _, none => 0
  | _, some r => r.target a

def place (f : Form) (w : Word) (a : Address) : Instruction where
  raw := w
  address := a
  encodingClass := .ofWord w
  operation := f.operation
  mnemonic := f.mnemonic
  operands := f.operands ++ (f.reference.map (Reference.operand a)).toList
  reads := f.reads
  writes := f.writes
  branch := f.branch
  branchTarget := f.branchTarget a
  pcRelative := (f.reference.map Reference.kind).getD .none
  pcRelativeTarget := (f.reference.map (Reference.target a)).getD 0

end Form

end A64
