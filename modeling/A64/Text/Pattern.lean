import A64.Text.CharClass

/-! Patterns of text and the search for them. A search follows all places of the text at once: a list of
marks tells for each place, from the start to the end, whether a part of the pattern can have led there. -/

namespace A64.Text

inductive Look where
  | textStart
  | textEnd
  | lineStart
  | lineEnd
  /-- The start of a line that ends in a carriage return, a line feed or both. -/
  | anyLineStart
  | anyLineEnd
  | wordEdge
  | noWordEdge
  | wordStart
  | wordEnd
  | noWordBefore
  | noWordAfter
  deriving DecidableEq, Repr

namespace Look

/-- Whether it holds between `before` and `after`, where the ends of the text have no character. -/
def holds (before after : Option Char) : Look → Bool
  | textStart => before.isNone
  | textEnd => after.isNone
  | lineStart => before.all (· == '\n')
  | lineEnd => after.all (· == '\n')
  | anyLineStart => before.all (· == '\n') || (before == some '\r' && after != some '\n')
  | anyLineEnd => after.all (· == '\r') || (after == some '\n' && before != some '\r')
  | wordEdge => before.any CharClass.word.contains != after.any CharClass.word.contains
  | noWordEdge => before.any CharClass.word.contains == after.any CharClass.word.contains
  | wordStart => !before.any CharClass.word.contains && after.any CharClass.word.contains
  | wordEnd => before.any CharClass.word.contains && !after.any CharClass.word.contains
  | noWordBefore => !before.any CharClass.word.contains
  | noWordAfter => !after.any CharClass.word.contains

end Look

inductive Pattern where
  | empty
  | look (condition : Look)
  | one (members : CharClass)
  | seq (a b : Pattern)
  | alt (a b : Pattern)
  /-- A pattern whose match is remembered. -/
  | group (p : Pattern)
  /-- The pattern at least `least` times in a row, and at most `most` times. -/
  | times (p : Pattern) (least : Nat) (most : Option Nat)
  deriving DecidableEq, Repr

def places (text : List Char) : List (Option Char × Option Char) :=
  (none :: text.map some).zip (text.map some ++ [none])

/-- Does a step again and again, at most so many times. It stops when a step changes nothing. -/
def again (step : List Bool → List Bool) : Nat → List Bool → List Bool
  | 0, marks => marks
  | n + 1, marks => if step marks = marks then marks else again step n (step marks)

def joined (a b : List Bool) : List Bool := List.zipWith or a b

namespace Pattern

/-- The places to which a pattern leads from the marked ones. More repetitions than there are places lead
nowhere else. -/
def reach (text : List Char) : Pattern → List Bool → List Bool
  | empty, marks => marks
  | look condition, marks =>
    List.zipWith (fun marked place => marked && condition.holds place.1 place.2) marks (places text)
  | one members, marks => false :: List.zipWith (fun marked c => marked && members.contains c) marks text
  | seq a b, marks => b.reach text (a.reach text marks)
  | alt a b, marks => joined (a.reach text marks) (b.reach text marks)
  | group p, marks => p.reach text marks
  | times p least most, marks =>
    let bound := text.length + 1
    again (fun reached => joined reached (p.reach text reached))
      (most.elim bound fun n => min (n - least) bound)
      (again (fun reached => p.reach text reached) (min least bound) marks)

def occursIn (p : Pattern) (text : List Char) : Bool :=
  (p.reach text (List.replicate (text.length + 1) true)).any id

end Pattern

end A64.Text
