import A64.Error

/-! Log events: what the program tells about its work, each with its level, the part of the program that
speaks, and its text. -/

namespace A64

/-- Levels from the most to the least urgent. -/
inductive LogLevel where
  | error
  | warn
  | info
  | debug
  | trace
  deriving DecidableEq, Repr

namespace LogLevel

def all : List LogLevel := [error, warn, info, debug, trace]

def rank : LogLevel → Nat
  | error => 1
  | warn => 2
  | info => 3
  | debug => 4
  | trace => 5

def name : LogLevel → String
  | error => "ERROR"
  | warn => "WARN"
  | info => "INFO"
  | debug => "DEBUG"
  | trace => "TRACE"

end LogLevel

inductive Event where
  | positionUnknown (fault : Fault)
  | listingStarted (origin base : Address)
  /-- A word of a class, or a pattern of it, that is not decoded. -/
  | wordUnsupported (word : Word) (address : Address) (encodingClass : EncodingClass)
  | wordFailed (error : DisassemblyError)
  | readFailed (offset : Address) (fault : Fault)
  | listingFinished (words : Nat)
  | instructionsStopped (error : DisassemblyError)
  | instructionsFinished (words : Nat)
  | fileOpened (file : String) (offset : Address)
  deriving DecidableEq, Repr

namespace Event

def level : Event → LogLevel
  | positionUnknown _ | readFailed _ _ => .error
  | wordFailed _ | instructionsStopped _ => .warn
  | fileOpened _ _ => .info
  | listingStarted _ _ | listingFinished _ | instructionsFinished _ => .debug
  | wordUnsupported _ _ _ => .trace

def target : Event → String
  | wordUnsupported _ _ _ => "armscope_disasm::arm64"
  | fileOpened _ _ => "armscope"
  | _ => "armscope_disasm::stream"

def message : Event → String
  | positionUnknown fault => "failed to query stream position: " ++ fault.message
  | listingStarted origin base =>
    "disassembly started at offset " ++ Hex.text origin.toNat ++ ", base " ++ Hex.text base.toNat
  | wordUnsupported w a c =>
    Hex.wide w.toNat ++ " at " ++ Hex.text a.toNat ++ ": unsupported " ++ c.name ++ " encoding"
  | wordFailed error => error.message
  | readFailed offset fault =>
    "failed to read instruction at offset " ++ Hex.text offset.toNat ++ ": " ++ fault.message
  | listingFinished n => "disassembly finished after " ++ n.repr ++ " words"
  | instructionsStopped error => "instruction stream stopped: " ++ error.message
  | instructionsFinished n => "instruction stream finished after " ++ n.repr ++ " words"
  | fileOpened file offset =>
    "disassembling " ++ file ++ " from offset " ++ Hex.text offset.toNat

def line (e : Event) : String := e.level.name ++ " [" ++ e.target ++ "] " ++ e.message

def ofRefusal? : DecodeError → Option Event
  | .unsupported a w c => some (wordUnsupported w a c)
  | .malformed _ _ _ => none

end Event

end A64
