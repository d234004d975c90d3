import A64.Text.Pieces

/-! What can be wrong with a written pattern, where, and how it is shown. -/

namespace A64.Text

structure Span where
  start : Nat
  stop : Nat
  deriving DecidableEq, Repr

inductive FlawKind where
  | backreference
  | boundaryOpen
  | boundaryUnclosed
  | boundaryUnknown
  | bracketUnclosed
  | bracketEscape
  | bytesNotText
  | countMissing
  | countOrder
  | countTooLarge
  | countUnclosed
  | escapeCut
  | escapeUnknown
  | flagDangling
  | flagMissing
  | flagRepeated
  | flagUnknown
  | groupUnclosed
  | groupUnopened
  | hexDigit
  | hexMissing
  | hexValue
  | lookAround
  | nameChar
  | nameMissing
  | nameRepeated
  | nameUnclosed
  | negationRepeated
  | nesting
  | nothingRepeated
  | propertyLetter
  | propertyUnknown
  | propertyValueUnknown
  | rangeEnd
  | rangeOrder
  | unicodeNotAllowed
  deriving DecidableEq, Repr

def FlawKind.message : FlawKind → String
  | backreference => "backreferences are not supported"
  | boundaryOpen =>
    "found either the beginning of a special word boundary or a bounded repetition on a \\b with an " ++
      "opening brace, but no closing brace"
  | boundaryUnclosed =>
    "special word boundary assertion is either unclosed or contains an invalid character"
  | boundaryUnknown =>
    "unrecognized special word boundary assertion, valid choices are: start, end, start-half or end-half"
  | bracketUnclosed => "unclosed character class"
  | bracketEscape => "invalid escape sequence found in character class"
  | bytesNotText => "pattern can match invalid UTF-8"
  | countMissing => "repetition quantifier expects a valid decimal"
  | countOrder => "invalid repetition count range, the start must be <= the end"
  | countTooLarge => "decimal literal invalid"
  | countUnclosed => "unclosed counted repetition"
  | escapeCut => "incomplete escape sequence, reached end of pattern prematurely"
  | escapeUnknown => "unrecognized escape sequence"
  | flagDangling => "dangling flag negation operator"
  | flagMissing => "expected flag but got end of regex"
  | flagRepeated => "duplicate flag"
  | flagUnknown => "unrecognized flag"
  | groupUnclosed => "unclosed group"
  | groupUnopened => "unopened group"
  | hexDigit => "invalid hexadecimal digit"
  | hexMissing => "hexadecimal literal empty"
  | hexValue => "hexadecimal literal is not a Unicode scalar value"
  | lookAround => "look-around, including look-ahead and look-behind, is not supported"
  | nameChar => "invalid capture group character"
  | nameMissing => "empty capture group name"
  | nameRepeated => "duplicate capture group name"
  | nameUnclosed => "unclosed capture group name"
  | negationRepeated => "flag negation operator repeated"
  | nesting => "exceed the maximum number of nested parentheses/brackets (250)"
  | nothingRepeated => "repetition operator missing expression"
  | propertyLetter => "invalid Unicode character class"
  | propertyUnknown => "Unicode property not found"
  | propertyValueUnknown => "Unicode property value not found"
  | rangeEnd => "invalid range boundary, must be a literal"
  | rangeOrder => "invalid character class range, the start must be <= the end"
  | unicodeNotAllowed => "Unicode not allowed here"

/-- A flaw at a span. One that repeats something also has the span of its first occurrence. -/
structure Flaw where
  kind : FlawKind
  span : Span
  first : Option Span
  deriving DecidableEq, Repr

/-- A place in a text of lines, both counted from one. -/
structure LinePlace where
  line : Nat
  column : Nat
  deriving DecidableEq, Repr

def LinePlace.of (text : List Char) (place : Nat) : LinePlace :=
  ⟨(text.take place).count '\n' + 1, ((text.take place).reverse.takeWhile (· != '\n')).length + 1⟩

/-- The lines of a text. They end in a line feed, which a carriage return may precede; a last line that is
empty does not count. -/
def linesOf (text : List Char) : List (List Char) :=
  match (pieces '\n' text).reverse with
  | [] => []
  | last :: ended =>
    ended.reverse.map (fun l => if l.getLast? = some '\r' then l.dropLast else l) ++
      if last.isEmpty then [] else [last]

namespace Flaw

def spans (f : Flaw) : List Span := f.first.toList ++ [f.span]

def places (pattern : List Char) (f : Flaw) : List (LinePlace × LinePlace) :=
  f.spans.map fun s => (.of pattern s.start, .of pattern s.stop)

/-- The columns of a line that are pointed at. A span without columns points at the one where it starts. -/
def columns (pattern : List Char) (f : Flaw) (line : Nat) : List Nat :=
  (f.places pattern).flatMap fun (start, stop) =>
    if start.line = line ∧ stop.line = line then
      (List.range (max 1 (stop.column - start.column))).map (start.column + ·)
    else []

def carets (columns : List Nat) : List Char :=
  (List.range (columns.foldl max 0)).map fun i => if columns.contains (i + 1) then '^' else ' '

def margin (count line : Nat) : List Char :=
  if count ≤ 1 then [' ', ' ', ' ', ' ']
  else line.repr.toList.leftpad count.repr.length ' ' ++ [':', ' ']

def notedLine (pattern : List Char) (f : Flaw) (count line : Nat) (cs : List Char) : List String :=
  let columns := f.columns pattern line
  let head := margin count line
  String.ofList (head ++ cs) ::
    if columns.isEmpty then []
    else [String.ofList (List.replicate head.length ' ' ++ carets columns)]

def longSpan? : LinePlace × LinePlace → Option String
  | (start, stop) =>
    if start.line = stop.line then none
    else
      some ("on line " ++ start.line.repr ++ " (column " ++ start.column.repr ++ ") through line " ++
        stop.line.repr ++ " (column " ++ (stop.column - 1).repr ++ ")")

def divider : String := String.ofList (List.replicate 79 '~')

def report (pattern : List Char) (f : Flaw) : String :=
  let count := (pieces '\n' pattern).length
  let noted := ((linesOf pattern).mapIdx fun i cs => f.notedLine pattern count (i + 1) cs).flatten
  let shown :=
    if count ≤ 1 then noted
    else divider :: noted ++ divider :: (f.places pattern).filterMap longSpan?
  "\n".intercalate ("regex parse error:" :: shown ++ ["error: " ++ f.kind.message])

end Flaw

end A64.Text
