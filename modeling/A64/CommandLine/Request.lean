import A64.CommandLine.Switch
import A64.Stream
import A64.Text.Numeral

/-! Reading the command line. Arguments are taken in order and the first one that cannot stand decides;
a request for help or for the version ends the reading. -/

namespace A64.CommandLine

structure Invocation where
  file : String
  base : Address
  offset : Address
  count : Option Nat
  decimal : Bool
  annotate : Bool
  logLevel : String
  deriving DecidableEq, Repr

def Invocation.options (i : Invocation) : Options := ⟨i.base, .ofDecimal i.decimal⟩

inductive Request where
  | help
  | version
  | list (i : Invocation)
  deriving DecidableEq, Repr

inductive UsageError where
  | unknown (argument : String)
  | unneededValue (s : Switch)
  | missingValue (s : Switch)
  | badValue (s : Switch) (value : String)
  | repeated (s : Switch)
  | emptyFile
  | secondFile (argument : String)
  | missingFile
  deriving DecidableEq, Repr

def UsageError.message : UsageError → String
  | unknown argument => "error: unexpected argument '" ++ argument ++ "' found"
  | unneededValue s => "error: '--" ++ s.name ++ "' takes no value"
  | missingValue s => "error: '--" ++ s.name ++ "' requires a value"
  | badValue s value => "error: invalid value '" ++ value ++ "' for '--" ++ s.name ++ "'"
  | repeated s => "error: '--" ++ s.name ++ "' cannot be used multiple times"
  | emptyFile => "error: the file needs a name"
  | secondFile argument => "error: unexpected argument '" ++ argument ++ "' found"
  | missingFile => "error: no file was given"

structure Draft where
  file : Option String := none
  base : Option Address := none
  offset : Option Address := none
  count : Option Nat := none
  decimal : Bool := false
  annotate : Bool := false
  logLevel : Option String := none
  deriving DecidableEq, Repr

namespace Draft

def has (d : Draft) : Switch → Bool
  | .base => d.base.isSome
  | .offset => d.offset.isSome
  | .count => d.count.isSome
  | .decimal => d.decimal
  | .annotate => d.annotate
  | .logLevel => d.logLevel.isSome
  | .help | .version => false

def countBound : Nat := 1 <<< 64

/-- Notes a switch and its value, which flags do not look at. -/
def note (d : Draft) (s : Switch) (value : String) : Except UsageError Draft :=
  let checked {α : Type} (read : Option α) (put : α → Draft) : Except UsageError Draft :=
    match read with
    | some a => .ok (put a)
    | none => .error (.badValue s value)
  if d.has s then .error (.repeated s)
  else
    match s with
    | .base => checked (Hex.read? value) fun a => { d with base := some a }
    | .offset => checked (Hex.read? value) fun a => { d with offset := some a }
    | .count => checked (Numeral.readBelow? countBound value) fun n => { d with count := some n }
    | .logLevel => .ok { d with logLevel := some value }
    | .decimal => .ok { d with decimal := true }
    | .annotate => .ok { d with annotate := true }
    | .help | .version => .ok d

def noteFile (d : Draft) (argument : String) : Except UsageError Draft :=
  if d.file.isSome then .error (.secondFile argument)
  else if argument.isEmpty then .error .emptyFile
  else .ok { d with file := some argument }

def noteFiles (d : Draft) : List String → Except UsageError Draft
  | [] => .ok d
  | a :: as => (d.noteFile a).bind (·.noteFiles as)

def finish (d : Draft) : Except UsageError Request :=
  match d.file with
  | none => .error .missingFile
  | some file =>
    .ok (.list
      { file
        base := d.base.getD 0
        offset := d.offset.getD 0
        count := d.count
        decimal := d.decimal
        annotate := d.annotate
        logLevel := d.logLevel.getD "warn" })

end Draft

inductive Progress where
  | ready (d : Draft)
  /-- The next argument is the value of the switch. -/
  | awaiting (d : Draft) (s : Switch)
  | answered (r : Request)
  deriving DecidableEq, Repr

namespace Progress

/-- The value of a switch written behind its letter, an equals sign being optional. -/
def attached : List Char → List Char
  | '=' :: cs => cs
  | cs => cs

def ofLetters (d : Draft) : List Char → Except UsageError Progress
  | [] => .ok (.ready d)
  | c :: cs =>
    match Switch.ofLetter? c with
    | none => .error (.unknown ("-" ++ c.toString))
    | some .help => .ok (.answered .help)
    | some .version => .ok (.answered .version)
    | some s =>
      if s.takesValue then
        if cs.isEmpty then .ok (.awaiting d s)
        else (d.note s (String.ofList (attached cs))).map .ready
      else (d.note s "").bind (ofLetters · cs)

def ofName (d : Draft) (name : List Char) (value : Option (List Char)) :
    Except UsageError Progress :=
  match Switch.ofName? name with
  | none => .error (.unknown ("--" ++ String.ofList name))
  | some s =>
    match s.takesValue, value with
    | true, none => .ok (.awaiting d s)
    | true, some v => (d.note s (String.ofList v)).map .ready
    | false, some _ => .error (.unneededValue s)
    | false, none =>
      match s with
      | .help => .ok (.answered .help)
      | .version => .ok (.answered .version)
      | s => (d.note s "").map .ready

def behindSign (cs : List Char) : Option (List Char) :=
  match cs.dropWhile (· != '=') with
  | [] => none
  | _ :: v => some v

/-- One argument. A lone dash is an ordinary one. -/
def ofArgument (d : Draft) (argument : String) : Except UsageError Progress :=
  match argument.toList with
  | '-' :: '-' :: cs => ofName d (cs.takeWhile (· != '=')) (behindSign cs)
  | '-' :: c :: cs => ofLetters d (c :: cs)
  | _ => (d.noteFile argument).map .ready

end Progress

/-- Whether an argument is a switch or ends the switches, so that it cannot be a value. -/
def isSwitch (argument : String) : Bool :=
  match argument.toList with
  | '-' :: _ :: _ => true
  | _ => false

namespace Request

/-- Reads on from a draft. Behind two dashes there are no more switches. -/
def readFrom (d : Draft) : List String → Except UsageError Request
  | [] => d.finish
  | a :: as =>
    if a = "--" then (d.noteFiles as).bind Draft.finish
    else
      match Progress.ofArgument d a with
      | .error e => .error e
      | .ok (.answered r) => .ok r
      | .ok (.ready d) => readFrom d as
      | .ok (.awaiting d s) =>
        match as with
        | [] => .error (.missingValue s)
        | v :: as =>
          if isSwitch v then .error (.missingValue s)
          else
            match d.note s v with
            | .error e => .error e
            | .ok d => readFrom d as

def read (arguments : List String) : Except UsageError Request := readFrom {} arguments

end Request

end A64.CommandLine
