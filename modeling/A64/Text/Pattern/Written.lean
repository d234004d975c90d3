import A64.Text.Pattern
import A64.Text.Pattern.Flaw

/-! Patterns as they are written, before it is known what their parts mean. A layer is a part that counts for
how deep others lie inside it. -/

namespace A64.Text

inductive Atom where
  /-- A character, which may be given by the two digits of a byte. -/
  | char (c : Char) (isByte : Bool)
  /-- A class that is written as one letter, whose capital stands for all other characters. -/
  | letter (c : Char)
  | property (negated : Bool) (description : List Char)
  | look (condition : Look)
  deriving DecidableEq, Repr

inductive SetOperation where
  | intersection
  | difference
  | symmetricDifference
  deriving DecidableEq, Repr

inductive WrittenClass where
  | nothing
  | atom (a : Atom) (span : Span)
  /-- A range, with the ends and whether each is given as a byte. -/
  | range (first last : Char × Bool) (firstSpan lastSpan : Span)
  | named (members : CharClass) (negated : Bool) (span : Span)
  | both (a b : WrittenClass)
  | operation (o : SetOperation) (a b : WrittenClass)
  | bracket (negated : Bool) (span : Span) (a : WrittenClass)
  | layer (span : Span) (a : WrittenClass)
  deriving DecidableEq, Repr

inductive Written where
  | empty
  | setMode (letters : List Char)
  | atom (a : Atom) (span : Span)
  | dot (span : Span)
  | lineStart
  | lineEnd
  | bracket (a : WrittenClass)
  | seq (a b : Written)
  | alt (a b : Written)
  | times (a : Written) (least : Nat) (most : Option Nat)
  /-- A group, which may be remembered, and the mode letters for what is inside. -/
  | group (remembered : Bool) (letters : List Char) (a : Written)
  | layer (span : Span) (a : Written)
  deriving DecidableEq, Repr

def WrittenClass.layerAt? : WrittenClass → Nat → Option Span
  | layer span _, 0 => some span
  | layer _ a, depth + 1 => a.layerAt? depth
  | both a b, depth | operation _ a b, depth => a.layerAt? depth <|> b.layerAt? depth
  | bracket _ _ a, depth => a.layerAt? depth
  | _, _ => none

namespace Written

def layerAt? : Written → Nat → Option Span
  | layer span _, 0 => some span
  | layer _ a, depth + 1 => a.layerAt? depth
  | seq a b, depth | alt a b, depth => a.layerAt? depth <|> b.layerAt? depth
  | times a _ _, depth | group _ _ a, depth => a.layerAt? depth
  | bracket a, depth => a.layerAt? depth
  | _, _ => none

def maximalDepth : Nat := 250

def nestingFlaw? (w : Written) : Option Flaw :=
  (w.layerAt? maximalDepth).map fun span => ⟨.nesting, span, none⟩

end Written

end A64.Text
