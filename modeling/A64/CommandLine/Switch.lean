/-! The switches of the command line. -/

namespace A64.CommandLine

inductive Switch where
  | base
  | offset
  | count
  | decimal
  | annotate
  | logLevel
  | help
  | version
  deriving DecidableEq, Repr

namespace Switch

def all : List Switch := [base, offset, count, decimal, annotate, logLevel, help, version]

def letter? : Switch → Option Char
  | base => some 'b'
  | offset => some 'o'
  | count => some 'n'
  | decimal => some 'd'
  | annotate => some 'a'
  | logLevel => none
  | help => some 'h'
  | version => some 'V'

def name : Switch → String
  | base => "base"
  | offset => "offset"
  | count => "count"
  | decimal => "decimal"
  | annotate => "annotate"
  | logLevel => "log-level"
  | help => "help"
  | version => "version"

def value? : Switch → Option String
  | base => some "<BASE>"
  | offset => some "<OFFSET>"
  | count => some "<COUNT>"
  | logLevel => some "<LOG_LEVEL>"
  | decimal | annotate | help | version => none

def takesValue (s : Switch) : Bool := s.value?.isSome

def purpose : Switch → String
  | base => "Address of the first disassembled word (0 prints every address as 0) [default: 0]"
  | offset => "File offset to start at [default: 0]"
  | count => "Number of words to disassemble"
  | decimal => "Print value immediates in decimal"
  | annotate => "Append the register-usage annotation to each line"
  | logLevel => "Log specification, e.g. 'debug' or 'armscope_disasm=trace' [default: warn]"
  | help => "Print help"
  | version => "Print version"

def ofLetter? (c : Char) : Option Switch := all.find? fun s => s.letter? == some c

def ofName? (name : List Char) : Option Switch := all.find? fun s => s.name.toList == name

def helpLine (s : Switch) : String :=
  let letter := s.letter?.elim "    " fun c => "-" ++ c.toString ++ ", "
  let spelling := letter ++ "--" ++ s.name ++ s.value?.elim "" (" " ++ ·)
  "  " ++ String.ofList (spelling.toList.rightpad 29 ' ') ++ s.purpose

end Switch

end A64.CommandLine
