import A64.Text.Hex
import A64.Text.Pattern.Reading
import A64.Text.Pattern.Written

/-! Reading escapes: characters that mean something, codes, properties and word boundaries. -/

namespace A64.Text.Atom

open Reading

def isMeta (c : Char) : Bool := "\\.+*?()|[]\x7b\x7d^$#&-~".toList.contains c

def isEscapable (c : Char) : Bool :=
  isMeta c || (c.toNat < 128 && !c.isAlphanum && c != '<' && c != '>')

def isHexDigit (c : Char) : Bool := CharClass.hexDigit.contains c

def ofCode (digits : List Char) (span : Span) : Reading Char :=
  match (Hex.accumulate? 0 digits).filter fun n => decide n.isValidChar with
  | some n => return Char.ofNat n
  | none => fail .hexValue span

def hexDigits (n : Nat) : Reading (List Char) :=
  match n with
  | 0 => return []
  | n + 1 => do
    match ← peek with
    | none => fail .escapeCut (← hereSpan)
    | some c =>
      if isHexDigit c then
        advance
        return c :: (← hexDigits n)
      else fail .hexDigit (← charSpan)

def fixedCode (width : Nat) : Reading Char := do
  let start ← place
  let digits ← hexDigits width
  ofCode digits (← spanFrom start)

def bracedCode : Reading Char := do
  let brace ← place
  advance
  let digits ← run isHexDigit
  match ← peek with
  | none => fail .escapeCut (← spanFrom brace)
  | some '\x7d' =>
    let span ← spanFrom (brace + 1)
    advance
    if digits.isEmpty then fail .hexMissing (← spanFrom brace) else ofCode digits span
  | some _ => fail .hexDigit (← charSpan)

def code (letter : Char) : Reading Atom := do
  advance
  match ← peek with
  | none => fail .escapeCut (← hereSpan)
  | some '\x7b' => return char (← bracedCode) false
  | some _ =>
    if letter == 'x' then return char (← fixedCode 2) true
    else return char (← fixedCode (if letter == 'u' then 4 else 8)) false

def propertyText (negated : Bool) : Reading Atom := do
  advance
  match ← peek with
  | none => fail .escapeCut (← hereSpan)
  | some '\x7b' =>
    advance
    let description ← run (· != '\x7d')
    if ← atEnd then fail .escapeCut (← hereSpan)
    next
    return property negated description
  | some c =>
    if c == '\\' then fail .propertyLetter (← charSpan)
    advance
    return property negated [c]

def isBoundaryChar (c : Char) : Bool := c.isAlpha || c == '-'

/-- The kind of word boundary that is named in braces. Braces with something else are left alone: they hold a
count. -/
def boundary (start : Nat) : Reading Look := do
  let brace ← get
  if brace.rest.head? != some '\x7b' then return .wordEdge
  advance
  if ← atEnd then fail .boundaryOpen (← spanFrom start)
  let first ← place
  let name ← run isBoundaryChar
  if name.isEmpty then
    set brace
    return .wordEdge
  if (← peek) != some '\x7d' then fail .boundaryUnclosed (← spanFrom brace.place)
  let span ← spanFrom first
  next
  match String.ofList name with
  | "start" => return .wordStart
  | "end" => return .wordEnd
  | "start-half" => return .noWordBefore
  | "end-half" => return .noWordAfter
  | _ => fail .boundaryUnknown span

def ofLetter (start : Nat) (c : Char) : Reading Atom := do
  match c with
  | 'a' => return char '\x07' false
  | 'f' => return char '\x0c' false
  | 't' => return char '\t' false
  | 'n' => return char '\n' false
  | 'r' => return char '\r' false
  | 'v' => return char '\x0b' false
  | 'd' | 's' | 'w' | 'D' | 'S' | 'W' => return letter c
  | 'A' => return look .textStart
  | 'z' => return look .textEnd
  | 'b' => return look (← boundary start)
  | 'B' => return look .noWordEdge
  | '<' => return look .wordStart
  | '>' => return look .wordEnd
  | _ => fail .escapeUnknown (← spanFrom start)

def escape : Reading Atom := do
  let start ← place
  next
  match ← peek with
  | none => fail .escapeCut (← spanFrom start)
  | some c =>
    if c.isDigit then fail .backreference ⟨start, (← place) + 1⟩
    else if c == 'x' || c == 'u' || c == 'U' then code c
    else if c == 'p' || c == 'P' then propertyText (c == 'P')
    else
      next
      if isEscapable c then return char c false else ofLetter start c

end A64.Text.Atom
