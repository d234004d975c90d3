import A64.Text.Blank
import A64.Text.Numeral
import A64.Text.Pattern.Flaw

/-! Reading a pattern from left to right: the place that has been reached, and whether blanks count there. -/

namespace A64.Text

/-- Text without leading blanks and comments. A comment runs from a number sign to the end of the line. -/
def dropLoose (inComment : Bool) : List Char → List Char
  | [] => []
  | c :: cs =>
    if inComment then dropLoose (c != '\n') cs
    else if isBlank c then dropLoose false cs
    else if c == '#' then dropLoose true cs
    else c :: cs

structure Reader where
  rest : List Char
  place : Nat := 0
  /-- Blanks and comments do not count. -/
  loose : Bool := false
  /-- The groups that have a name, and where it stands. -/
  names : List (List Char × Span) := []

namespace Reader

def next (r : Reader) : Reader :=
  match r.rest with
  | [] => r
  | _ :: cs => { r with rest := cs, place := r.place + 1 }

def skip (r : Reader) : Reader :=
  if r.loose then
    let cs := dropLoose false r.rest
    { r with rest := cs, place := r.place + (r.rest.length - cs.length) }
  else r

end Reader

abbrev Reading := StateT Reader (Except Flaw)

namespace Reading

def fail {α : Type} (kind : FlawKind) (span : Span) : Reading α := throw ⟨kind, span, none⟩

def place : Reading Nat := return (← get).place

def peek : Reading (Option Char) := return (← get).rest.head?

def atEnd : Reading Bool := return (← get).rest.isEmpty

def next : Reading Unit := modify Reader.next

def skip : Reading Unit := modify Reader.skip

def advance : Reading Unit := modify fun r => r.next.skip

def charSpan : Reading Span := do
  let start ← place
  return ⟨start, start + 1⟩

def spanFrom (start : Nat) : Reading Span := return ⟨start, ← place⟩

def hereSpan : Reading Span := do spanFrom (← place)

def expectMore (kind : FlawKind) (start : Nat) : Reading Unit := do
  if ← atEnd then fail kind (← spanFrom start)

def accept (s : String) : Reading Bool := do
  if s.toList.isPrefixOf (← get).rest then
    modify (Nat.repeat Reader.next s.toList.length)
    return true
  else return false

def acceptAny : List String → Reading Bool
  | [] => return false
  | s :: ss => do if ← accept s then return true else acceptAny ss

def atMost (n : Nat) (p : Char → Bool) : Reading (List Char) :=
  match n with
  | 0 => return []
  | n + 1 => do
    match ← peek with
    | some c =>
      if p c then
        advance
        return c :: (← atMost n p)
      else return []
    | none => return []

def run (p : Char → Bool) : Reading (List Char) := do atMost (← get).rest.length p

/-- A decimal number below 2³². What is wrong with it is told later, if it is still needed. -/
def decimal : Reading (Except Flaw Nat) := do
  let _ ← run isBlank
  let start ← place
  let digits ← run Char.isDigit
  let span ← spanFrom start
  let _ ← run isBlank
  if digits.isEmpty then return .error ⟨.countMissing, span, none⟩
  else
    match (Numeral.accumulate? 0 digits).filter (· < 1 <<< 32) with
    | some n => return .ok n
    | none => return .error ⟨.countTooLarge, span, none⟩

end Reading

end A64.Text
