import A64.Text.Pieces

/-! Reports of failure: what failed, and the chain of causes below it. -/

namespace A64.CommandLine

structure Report where
  failure : String
  causes : List String
  deriving DecidableEq, Repr

namespace Report

/-- A text behind `head`, its further lines indented by `margin`. -/
def hanging (head margin text : String) : List String :=
  match (Text.pieces '\n' text.toList).map String.ofList with
  | [] => []
  | l :: ls => (head ++ l) :: ls.map (margin ++ ·)

def numbered (i : Nat) (cause : String) : List String :=
  hanging (String.ofList (i.repr.toList.leftpad 5 ' ') ++ ": ") "       " cause

def causeLines : List String → List String
  | [cause] => hanging "    " "    " cause
  | causes => (causes.mapIdx numbered).flatten

def lines (r : Report) : List String :=
  hanging "Error: " "" r.failure ++
    if r.causes.isEmpty then [] else "" :: "Caused by:" :: causeLines r.causes

end Report

end A64.CommandLine
