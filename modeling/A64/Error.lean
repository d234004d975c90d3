import A64.Encoding.Class
import A64.Fault
import A64.Text.Hex

/-! What can go wrong with a word: it does not decode, it has no assembly text, or it could not be read
at all. -/

namespace A64

inductive DecodeError where
  /-- The pattern is reserved or unallocated. -/
  | malformed (address : Address) (word : Word) (reason : String)
  /-- The class is known, but this pattern of it is not. -/
  | unsupported (address : Address) (word : Word) (encodingClass : EncodingClass)
  deriving DecidableEq, Repr

namespace DecodeError

def word : DecodeError → Word
  | malformed _ w _ | unsupported _ w _ => w

def address : DecodeError → Address
  | malformed a _ _ | unsupported a _ _ => a

def message : DecodeError → String
  | malformed a w reason =>
    "malformed encoding " ++ Hex.wide w.toNat ++ " at " ++ Hex.text a.toNat ++ ": " ++ reason
  | unsupported a w c =>
    "unsupported " ++ c.name ++ " encoding " ++ Hex.wide w.toNat ++ " at " ++ Hex.text a.toNat

end DecodeError

inductive RenderError where
  | unnamed (address : Address) (word : Word) (encodingClass : EncodingClass)
  /-- The operand at `index` has no assembly text. -/
  | invalidOperand (address : Address) (word : Word) (index : Nat) (reason : String)
  deriving DecidableEq, Repr

def RenderError.message : RenderError → String
  | .unnamed a w c =>
    "no mnemonic for " ++ c.name ++ " encoding " ++ Hex.wide w.toNat ++ " at " ++ Hex.text a.toNat
  | .invalidOperand a w index reason =>
    "operand " ++ index.repr ++ " of " ++ Hex.wide w.toNat ++ " at " ++ Hex.text a.toNat ++ ": " ++
      reason

inductive DisassemblyError where
  /-- A low word, which is hardly ever code. -/
  | undefined (address : Address) (word : Word)
  | decode (address : Address) (word : Word) (cause : DecodeError)
  | render (address : Address) (word : Word) (cause : RenderError)
  | read (address : Address) (fault : Fault)
  | seek (offset : Address) (fault : Fault)
  deriving DecidableEq, Repr

namespace DisassemblyError

def undefinedBelow : Word := 0x10000

def ofDecode (address : Address) (cause : DecodeError) : DisassemblyError :=
  if cause.word < undefinedBelow then undefined address cause.word
  else decode address cause.word cause

def ofRender (address : Address) (word : Word) (cause : RenderError) : DisassemblyError :=
  if word < undefinedBelow then undefined address word else render address word cause

def isFatal : DisassemblyError → Bool
  | read _ _ | seek _ _ => true
  | _ => false

def word? : DisassemblyError → Option Word
  | undefined _ w | decode _ w _ | render _ w _ => some w
  | read _ _ | seek _ _ => none

def fault? : DisassemblyError → Option Fault
  | read _ f | seek _ f => some f
  | _ => none

def message : DisassemblyError → String
  | undefined a w => "undefined instruction: " ++ Hex.wide a.toNat ++ ": " ++ Hex.wide w.toNat
  | decode a w cause =>
    "failed to decode instruction: " ++ Hex.wide a.toNat ++ ": " ++ Hex.wide w.toNat ++ ": " ++
      cause.message
  | render a w cause =>
    "failed to disassemble instruction: " ++ Hex.wide a.toNat ++ ": " ++ Hex.wide w.toNat ++ ": " ++
      cause.message
  | read a fault => "failed to read instruction at " ++ Hex.wide a.toNat ++ ": " ++ fault.message
  | seek offset fault =>
    "failed to seek to offset " ++ Hex.text offset.toNat ++ ": " ++ fault.message

end DisassemblyError

end A64
