import A64.Source.Device
import A64.Text.Pieces

/-! Folders of files, and what opening a path in one gives. -/

namespace A64.CommandLine

def systemFault (text : String) (number : Nat) : Fault :=
  ⟨.other, text ++ " (os error " ++ number.repr ++ ")"⟩

def notFound : Fault := systemFault "No such file or directory" 2

def notFolder : Fault := systemFault "Not a directory" 20

def isFolder : Fault := systemFault "Is a directory" 21

def invalidArgument : Fault := systemFault "Invalid argument" 22

/-- An open file, which stands at its start. Offsets from `limit` on are refused. -/
def openedFile (limit : Nat) (data : Array UInt8) : Device :=
  { data, seeking := .bounded limit invalidArgument }

def openedFolder (limit : Nat) : Device :=
  { openedFile limit #[] with failure := some (0, isFolder) }

/-- The files of a folder by name. Its file system refuses offsets from `limit` on. -/
structure Folder where
  files : List (String × Array UInt8)
  limit : Nat := 1 <<< 63

namespace Folder

/-- The steps of a path. Empty steps and single dots stay where they are. -/
def steps (path : List Char) : List String :=
  ((Text.pieces '/' path).map String.ofList).filter fun s => s ≠ "" ∧ s ≠ "."

/-- Opens a path that starts in the folder. A path that goes on behind a file leads nowhere. -/
def openRelative (f : Folder) (path : List Char) : Except Fault Device :=
  match steps path with
  | [] => .ok (openedFolder f.limit)
  | name :: rest =>
    match f.files.lookup name with
    | none => .error notFound
    | some data =>
      if rest.isEmpty ∧ name.toList.isSuffixOf path then .ok (openedFile f.limit data)
      else .error notFolder

def openPath (f : Folder) (path : String) : Except Fault Device :=
  match path.toList with
  | '/' :: _ => .error notFound
  | cs => f.openRelative cs

end Folder

end A64.CommandLine
