import A64.Annotation
import A64.Assembly
import A64.Decode
import A64.Log

/-! Listing records: one line for each word, which shows where the word stands, its bytes and its
assembly. -/

namespace A64

def byteText (w : Word) : String := " ".intercalate (w.bytes.map Hex.byte)

def listingLine (a : Address) (w : Word) (assembly : String) : String :=
  Hex.wide a.toNat ++ ":  " ++ byteText w ++ "\t" ++ assembly

/-- One word of a listing, or the fault that ended it. The annotation is empty unless the word was
written as assembly; the instruction is there once the word was decoded. -/
structure Record where
  text : String
  annotation : String
  instruction : Option Instruction
  error : Option DisassemblyError
  deriving DecidableEq, Repr

namespace Record

def isOk (r : Record) : Bool := r.error.isNone

def isFatal (r : Record) : Bool := r.error.any DisassemblyError.isFatal

def unknown (a : Address) (w : Word) (instruction : Option Instruction)
    (error : DisassemblyError) : Record :=
  ⟨listingLine a w "<unknown>", "", instruction, some error⟩

def ofFault (a : Address) (fault : Fault) : Record :=
  ⟨Hex.wide a.toNat ++ ":  <read error>", "", none, some (.read a fault)⟩

def ofWord (format : ImmediateFormat) (a : Address) (w : Word) : Record :=
  match decode w a with
  | .error cause => unknown a w none (.ofDecode a cause)
  | .ok i =>
    match i.render format with
    | .error cause => unknown a w (some i) (.ofRender a w cause)
    | .ok assembly => ⟨listingLine a w assembly, i.annotation, some i, none⟩

end Record

def Event.ofWord (format : ImmediateFormat) (a : Address) (w : Word) : List Event :=
  let refused :=
    match decode w a with
    | .error cause => (Event.ofRefusal? cause).toList
    | .ok _ => []
  refused ++ ((Record.ofWord format a w).error.map Event.wordFailed).toList

end A64
