import A64.Instruction
import A64.Text.Hex

/-! Annotations: what an instruction reads and writes and where it goes, in one line. A segment with
nothing to say is left out. -/

namespace A64.Instruction

def segments (i : Instruction) : List String :=
  (if i.reads.isEmpty then [] else ["r:" ++ i.reads.text]) ++
  (if i.writes.isEmpty then [] else ["w:" ++ i.writes.text]) ++
  (i.pcRelative.label?.map ("pcrel:" ++ ·)).toList ++
  (if i.pcRelativeTarget = 0 then [] else ["t:" ++ Hex.text i.pcRelativeTarget.toNat]) ++
  (i.branch.label?.map ("br:" ++ ·)).toList

def annotation (i : Instruction) : String := ", ".intercalate i.segments

end A64.Instruction
