import A64.Text.Letter
import A64.Text.Pattern.Bracket
import A64.Text.Pattern.Footprint
import A64.Text.Pattern.Meaning

/-! Reading a pattern: sequences, alternatives, groups and repetitions. -/

namespace A64.Text

structure Item where
  written : Written
  span : Span

namespace Item

def isRepeatable (i : Item) : Bool :=
  match i.written with
  | .setMode _ => false
  | _ => true

end Item

/-- What has been read of a group: where it and its last branch start, the items of that branch and the
branches before it, both last first. -/
structure Level where
  start : Nat
  branchStart : Nat
  items : List Item := []
  branches : List Written := []

namespace Level

def startingAt (place : Nat) : Level := ⟨place, place, [], []⟩

def add (l : Level) (i : Item) : Level := { l with items := i :: l.items }

def branch (l : Level) (stop : Nat) : Written :=
  match l.items with
  | [] => .empty
  | [i] => i.written
  | last :: others =>
    .layer ⟨l.branchStart, stop⟩ (others.foldl (fun w i => .seq i.written w) last.written)

def written (l : Level) (stop : Nat) : Written :=
  match l.branches with
  | [] => l.branch stop
  | branches =>
    .layer ⟨l.start, stop⟩ (branches.foldl (fun w branch => .alt branch w) (l.branch stop))

def nextBranch (l : Level) (stop : Nat) : Level :=
  ⟨l.start, stop + 1, [], l.branch stop :: l.branches⟩

end Level

/-- A group that has been opened: where, what it remembers and sets, whether blanks count outside of it, and
what was read before it. -/
structure Group where
  start : Nat
  remembered : Bool
  letters : List Char
  loose : Bool
  outer : Level

namespace Written

open Reading

def small (c : Char) : Reading Written := do
  let start ← place
  match c with
  | '\\' =>
    let a ← Atom.escape
    return atom a (← spanFrom start)
  | '[' => return bracket (← Bracket.read).written
  | '.' =>
    next
    return dot (← spanFrom start)
  | '^' =>
    next
    return lineStart
  | '$' =>
    next
    return lineEnd
  | c =>
    next
    return atom (.char c false) (← spanFrom start)

/-- The sign that makes a repetition prefer few. It changes nothing for the question whether there is a
match. -/
def fewSign : Reading Unit := do
  if (← peek) == some '?' then next

def counts (start : Nat) : Reading (Nat × Option Nat) := do
  advance
  expectMore .countUnclosed start
  let least ← decimal
  expectMore .countUnclosed start
  if (← peek) == some ',' then
    advance
    expectMore .countUnclosed start
    if (← peek) == some '\x7d' then return (← least, none)
    else
      let n ← least
      let most ← decimal
      return (n, some (← most))
  else
    let n ← least
    return (n, some n)

def bracedCounts : Reading (Nat × Option Nat) := do
  let start ← place
  let (least, most) ← counts start
  if (← peek) != some '\x7d' then fail .countUnclosed (← spanFrom start)
  advance
  fewSign
  if most.any (· < least) then fail .countOrder (← spanFrom start)
  return (least, most)

def repetitionCounts (sign : Char) : Reading (Nat × Option Nat) := do
  if sign == '\x7b' then bracedCounts
  else
    next
    fewSign
    return if sign == '?' then (0, some 1) else if sign == '*' then (0, none) else (1, none)

def repetition (l : Level) (sign : Char) : Reading Level := do
  match l.items with
  | i :: items =>
    if !i.isRepeatable then fail .nothingRepeated (← hereSpan)
    let (least, most) ← repetitionCounts sign
    let span ← spanFrom i.span.start
    return { l with items := ⟨layer span (times i.written least most), span⟩ :: items }
  | [] => fail .nothingRepeated (← hereSpan)

def isNameChar (first : Bool) (c : Char) : Bool :=
  c == '_' || isLetter c || (!first && (c == '.' || c == '[' || c == ']' || isNumber c))

def nameChars (first : Bool) : Nat → Reading (List Char)
  | 0 => return []
  | n + 1 => do
    match ← peek with
    | none => return []
    | some c =>
      if c == '>' then return []
      else if isNameChar first c then
        next
        return c :: (← nameChars false n)
      else fail .nameChar (← charSpan)

/-- Reads the name of a group. Names are not used twice. -/
def groupName : Reading Unit := do
  let start ← place
  let name ← nameChars true (← get).rest.length
  if ← atEnd then fail .nameUnclosed (← hereSpan)
  let span ← spanFrom start
  next
  if name.isEmpty then fail .nameMissing ⟨start, start⟩
  match (← get).names.lookup name with
  | some first => throw ⟨.nameRepeated, span, some first⟩
  | none => modify fun r => { r with names := (name, span) :: r.names }

/-- Reads mode letters up to a colon or a closing parenthesis, after those that were `seen`, last first. -/
def modeLetters (seen : List (Char × Nat)) : Nat → Reading (List Char)
  | 0 => return (seen.map Prod.fst).reverse
  | n + 1 => do
    let start ← place
    let span : Span := ⟨start, start + 1⟩
    match ← peek with
    | none => fail .flagMissing (← hereSpan)
    | some c =>
      if c == ':' || c == ')' then
        match seen with
        | ('-', dash) :: _ => fail .flagDangling ⟨dash, dash + 1⟩
        | _ => return (seen.map Prod.fst).reverse
      else if c != '-' && !Mode.letters.contains c then fail .flagUnknown span
      else
        match seen.lookup c with
        | some first =>
          throw ⟨if c == '-' then .negationRepeated else .flagRepeated, span, some ⟨first, first + 1⟩⟩
        | none =>
          next
          if ← atEnd then fail .flagMissing (← hereSpan)
          modeLetters ((c, start) :: seen) n

def enter (g : Group) (groups : List Group) : Reading (Level × List Group) := do
  modify fun r => { r with loose := (Mode.setAll true { loose := g.loose } g.letters).loose }
  return (.startingAt (← place), g :: groups)

/-- Opens a group, or sets the mode for the rest of the one that is open. -/
def openGroup (l : Level) (groups : List Group) : Reading (Level × List Group) := do
  let start ← place
  let loose := (← get).loose
  advance
  if ← acceptAny ["?=", "?!", "?<=", "?<!"] then fail .lookAround (← spanFrom start)
  let inner ← place
  if ← acceptAny ["?P<", "?<"] then
    groupName
    enter ⟨start, true, [], loose, l⟩ groups
  else if ← accept "?" then
    if ← atEnd then fail .groupUnclosed ⟨start, start + 1⟩
    let letters ← modeLetters [] ((← get).rest.length + 1)
    let closed := (← peek) == some ')'
    next
    if closed && letters.isEmpty then fail .nothingRepeated ⟨inner, inner⟩
    let g : Group := ⟨start, false, letters, loose, l⟩
    if closed then
      let _ ← enter g groups
      return (l.add ⟨setMode letters, ← spanFrom start⟩, groups)
    else enter g groups
  else enter ⟨start, true, [], loose, l⟩ groups

def closeGroup (l : Level) (groups : List Group) : Reading (Level × List Group) := do
  match groups with
  | [] => fail .groupUnopened (← charSpan)
  | g :: groups =>
    let w := l.written (← place)
    modify fun r => { r with loose := g.loose }
    next
    let span ← spanFrom g.start
    return (g.outer.add ⟨layer span (group g.remembered g.letters w), span⟩, groups)

def step (l : Level) (groups : List Group) (c : Char) : Reading (Level × List Group) := do
  let start ← place
  match c with
  | '(' => openGroup l groups
  | ')' => closeGroup l groups
  | '|' =>
    next
    return (l.nextBranch start, groups)
  | '?' | '*' | '+' | '\x7b' => return (← repetition l c, groups)
  | c =>
    let w ← small c
    return (l.add ⟨w, ← spanFrom start⟩, groups)

/-- Reads to the end of the pattern. Every round takes a character at least. -/
def body : Nat → Level → List Group → Reading Written
  | n, l, groups => do
    skip
    match n, ← peek with
    | n + 1, some c =>
      let (l, groups) ← step l groups c
      body n l groups
    | _, _ =>
      match groups with
      | [] => return l.written (← place)
      | g :: _ => fail .groupUnclosed ⟨g.start, g.start + 1⟩

def read (text : List Char) : Except Flaw Written :=
  (StateT.run (body text.length (.startingAt 0) []) { rest := text }).map Prod.fst

end Written

inductive PatternFault where
  | flaw (f : Flaw)
  | tooLarge
  deriving DecidableEq, Repr

def PatternFault.report (pattern : List Char) : PatternFault → String
  | flaw f => f.report pattern
  | tooLarge => "Compiled regex exceeds size limit of " ++ Pattern.maximalBytes.repr ++ " bytes."

namespace Pattern

/-- What a text means as a pattern. Flaws of writing come before those of meaning. -/
def understand (text : List Char) : Except Flaw Pattern :=
  match Written.read text with
  | .error f => .error f
  | .ok w =>
    match w.nestingFlaw? with
    | some f => .error f
    | none => (w.meaning {}).map Prod.fst

def read (text : List Char) : Except PatternFault Pattern :=
  match understand text with
  | .error f => .error (.flaw f)
  | .ok p => if p.isTooLarge then .error .tooLarge else .ok p

end Pattern

end A64.Text
