import A64.CommandLine.Report
import A64.CommandLine.Request
import A64.Log.Specification

/-! What the program does when it is called: its exit code, the lines it prints, the events it logs and
the report if it fails. -/

namespace A64.CommandLine

structure Outcome where
  status : Nat
  output : List String
  log : List Event
  report : Option Report

namespace Outcome

def success (output : List String) : Outcome := ⟨0, output, [], none⟩

def failure (report : Report) : Outcome := ⟨1, [], [], some report⟩

def version : Outcome := success ["armscope 0.1.0"]

def help : Outcome :=
  success
    (["An AArch64 disassembler for raw instruction words", "", "Usage: armscope [OPTIONS] <FILE>", "",
      "Arguments:", "  <FILE>  Path to a file of little-endian instruction words", "", "Options:"] ++
      Switch.all.map Switch.helpLine)

end Outcome

def recordLine (annotate : Bool) (r : Record) : String :=
  if annotate ∧ r.annotation ≠ "" then r.text ++ "\t; " ++ r.annotation else r.text

def listingReport (file : String) (error : DisassemblyError) : Report :=
  ⟨"Failed to disassemble " ++ file, error.message :: (error.fault?.map Fault.message).toList⟩

namespace Invocation

def listing {σ : Type} [Source σ] [Source.Ends σ] (i : Invocation) (s : σ) : Run Record :=
  let run := Listing.run i.options s
  i.count.elim run (Listing.cut · run)

/-- The outcome of a listing that has been started. A fatal record is reported, not printed. -/
def listed (i : Invocation) (spec : LogSpecification) (run : Run Record) : Outcome :=
  let events := .fileOpened i.file i.offset :: run.log
  let fatal := (run.items.find? Record.isFatal).bind Record.error
  { status := if fatal.isSome then 1 else 0
    output := (run.items.takeWhile (!·.isFatal)).map (recordLine i.annotate)
    log := events.filter spec.admits
    report := fatal.map (listingReport i.file) }

def outcome {σ : Type} [Source σ] [Source.Ends σ] (i : Invocation) (opened : Except Fault σ) : Outcome :=
  match LogSpecification.read i.logLevel with
  | .error defects =>
    .failure ⟨"Invalid log specification: " ++ i.logLevel,
      ["Failed to parse log specification: " ++ "; ".intercalate (defects.map LogDefect.message)]⟩
  | .ok spec =>
    match opened with
    | .error fault => .failure ⟨"Failed to open " ++ i.file, [fault.message]⟩
    | .ok s =>
      match Source.seek i.offset s with
      | (.error fault, _) =>
        .failure ⟨"Failed to seek to offset " ++ Hex.text i.offset.toNat, [fault.message]⟩
      | (.ok _, s) => i.listed spec (i.listing s)

end Invocation

def Request.outcome {σ : Type} [Source σ] [Source.Ends σ] (openPath : String → Except Fault σ) : Request → Outcome
  | .help => .help
  | .version => .version
  | .list i => i.outcome (openPath i.file)

end A64.CommandLine
