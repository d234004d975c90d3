import A64.CommandLine.Folder
import A64.CommandLine.Outcome

/-! The program: reads the command line and the file, prints the listing, and writes the log and the
report of a failure to standard error. -/

namespace A64.CommandLine

def faultOf : IO.Error → Fault
  | .noFileOrDirectory _ number text | .permissionDenied _ number text
  | .inappropriateType _ number text | .resourceExhausted _ number text
  | .invalidArgument _ number text | .noSuchThing _ number text
  | .resourceBusy number text | .hardwareFault number text | .otherError number text =>
    systemFault text number.toNat
  | e => ⟨.other, e.toString⟩

/-- The first offset that does not fit a file position. -/
def offsetLimit : Nat := 1 <<< 63

/-- Opens and reads a file. One that opens but cannot be read fails at its start. -/
def openFile (path : String) : IO (Except Fault Device) := do
  match ← (IO.FS.Handle.mk path .read).toBaseIO with
  | .error e => return .error (faultOf e)
  | .ok handle =>
    match ← handle.readBinToEnd.toBaseIO with
    | .error e => return .ok { openedFile offsetLimit #[] with failure := some (0, faultOf e) }
    | .ok bytes => return .ok (openedFile offsetLimit bytes.data)

def answer : Request → IO Outcome
  | .help => return .help
  | .version => return .version
  | .list i => return i.outcome (← openFile i.file)

def write (o : Outcome) : IO Unit := do
  for e in o.log do
    IO.eprintln e.line
  for l in o.output do
    IO.println l
  for l in (o.report.map Report.lines).getD [] do
    IO.eprintln l

def run (arguments : List String) : IO UInt32 := do
  match Request.read arguments with
  | .error e =>
    IO.eprintln e.message
    return 2
  | .ok request =>
    let outcome ← answer request
    write outcome
    return UInt32.ofNat outcome.status

end A64.CommandLine

def main (arguments : List String) : IO UInt32 := A64.CommandLine.run arguments
