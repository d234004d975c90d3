import A64.Text.Pattern.Atom

/-! Reading classes in brackets: members, ranges, named classes, brackets inside brackets, and the set
operations between them. -/

namespace A64.Text

namespace SetOperation

def all : List SetOperation := [intersection, difference, symmetricDifference]

def sign : SetOperation → List Char
  | intersection => ['&', '&']
  | difference => ['-', '-']
  | symmetricDifference => ['~', '~']

end SetOperation

structure Member where
  written : WrittenClass
  span : Span

/-- What has been read of a bracket: the members since the last operation, last first, where they start, and
the operation with what stands to the left of it. -/
structure Members where
  start : Nat
  members : List Member := []
  left : Option (SetOperation × Member) := none

namespace Members

def add (m : Members) (member : Member) : Members := { m with members := member :: m.members }

def joined (m : Members) : Member :=
  match m.members with
  | [] => ⟨.nothing, ⟨m.start, m.start⟩⟩
  | [member] => member
  | last :: others =>
    let span : Span := ⟨(others.getLast?.getD last).span.start, last.span.stop⟩
    ⟨.layer span (others.foldl (fun w member => .both member.written w) last.written), span⟩

/-- Everything so far as one. Operations are grouped to the left. -/
def total (m : Members) : Member :=
  match m.left with
  | none => m.joined
  | some (o, left) =>
    let span : Span := ⟨left.span.start, m.joined.span.stop⟩
    ⟨.layer span (.operation o left.written m.joined.written), span⟩

end Members

structure Bracket where
  span : Span
  negated : Bool
  outer : Members

namespace Bracket

open Reading

def plain (c : Char) : Reading Member := do
  let span ← charSpan
  advance
  return ⟨.atom (.char c false) span, span⟩

/-- Dashes at the start of a bracket stand for themselves. -/
def leadingDashes (start : Nat) : Nat → Members → Reading Members
  | 0, m => return m
  | n + 1, m => do
    if (← peek) == some '-' then
      let member ← plain '-'
      if ← atEnd then fail .bracketUnclosed ⟨start, start⟩
      leadingDashes start n (m.add member)
    else return m

/-- Opens a bracket inside `outer`. A closing bracket that comes first stands for itself. -/
def enter (outer : Members) : Reading (Bracket × Members) := do
  let start ← place
  advance
  expectMore .bracketUnclosed start
  let negated := (← peek) == some '^'
  if negated then
    advance
    expectMore .bracketUnclosed start
  let dashes ← leadingDashes start (← get).rest.length { start := ← place }
  if dashes.members.isEmpty && (← peek) == some ']' then
    let member ← plain ']'
    expectMore .bracketUnclosed start
    return (⟨← spanFrom start, negated, outer⟩, dashes.add member)
  else return (⟨← spanFrom start, negated, outer⟩, dashes)

def named? (cs : List Char) : Option (CharClass × Bool × List Char) :=
  match cs with
  | '[' :: ':' :: cs =>
    let negated := cs.head? == some '^'
    let cs := if negated then cs.tail else cs
    let name := cs.takeWhile (· != ':')
    match cs.drop name.length with
    | ':' :: ']' :: rest =>
      (CharClass.bracketNames.lookup (String.ofList name)).map fun k => (k, negated, rest)
    | _ => none
  | _ => none

def named : Reading (Option Member) := do
  let r ← get
  match named? r.rest with
  | none => return none
  | some (k, negated, rest) =>
    let stop := r.place + (r.rest.length - rest.length)
    set { r with rest := rest, place := stop }
    return some ⟨.named k negated ⟨r.place, stop⟩, ⟨r.place, stop⟩⟩

def atom : Reading (Atom × Span) := do
  let start ← place
  match ← peek with
  | some '\\' =>
    let a ← Atom.escape
    return (a, ← spanFrom start)
  | some c =>
    next
    return (.char c false, ← spanFrom start)
  | none => fail .bracketUnclosed (← hereSpan)

/-- An atom as a member. A condition on what stands around has no place in a bracket. -/
def ofAtom : Atom × Span → Reading Member
  | (.look _, span) => fail .bracketEscape span
  | (a, span) => return ⟨.atom a span, span⟩

def rangeEnd : Atom × Span → Reading (Char × Bool)
  | (.char c isByte, _) => return (c, isByte)
  | (_, span) => fail .rangeEnd span

/-- The character behind the next one that tells what a dash is. In the loose mode it is the first that is not
blank; a number sign is passed over, but not the comment behind it. -/
def behindDash (r : Reader) : Option Char :=
  if !r.loose then r.rest.tail.head?
  else
    match r.rest.tail.dropWhile isBlank with
    | '#' :: comment => (comment.dropWhile isBlank).head? <|> r.rest.tail.head?
    | c :: _ => some c
    | [] => r.rest.tail.head?

def isRange (r : Reader) : Bool :=
  r.rest.head? == some '-' && !(behindDash r == some ']' || behindDash r == some '-')

def item (innermost : Span) : Reading Member := do
  let first ← atom
  skip
  if ← atEnd then fail .bracketUnclosed innermost
  if isRange (← get) then
    advance
    if ← atEnd then fail .bracketUnclosed innermost
    let last ← atom
    let a ← rangeEnd first
    let z ← rangeEnd last
    let span : Span := ⟨first.2.start, last.2.stop⟩
    if z.1 < a.1 then fail .rangeOrder span
    return ⟨.range a z first.2 last.2, span⟩
  else ofAtom first

def operation? (r : Reader) : Option SetOperation :=
  SetOperation.all.find? fun o => o.sign.isPrefixOf r.rest

/-- Reads on in the bracket `b`, with `m` read of it, inside the brackets `around`. Every round takes a
character at least. -/
def body : Nat → Bracket → Members → List Bracket → Reading Member
  | 0, b, _, _ => fail .bracketUnclosed b.span
  | n + 1, b, m, around => do
    skip
    match ← peek with
    | none => fail .bracketUnclosed b.span
    | some '[' =>
      match ← named with
      | some member => body n b (m.add member) around
      | none =>
        let (inner, members) ← enter m
        body n inner members (b :: around)
    | some ']' =>
      next
      let span ← spanFrom b.span.start
      let closed : Member := ⟨.layer span (.bracket b.negated span m.total.written), span⟩
      match around with
      | [] => return closed
      | outer :: around => body n outer (b.outer.add closed) around
    | some _ =>
      match operation? (← get) with
      | some o =>
        next
        next
        body n b { start := ← place, left := some (o, m.total) } around
      | none =>
        let member ← item b.span
        body n b (m.add member) around

def read : Reading Member := do
  let fuel := (← get).rest.length
  let (b, m) ← enter { start := ← place }
  body fuel b m []

end Bracket

end A64.Text
