import A64.Text.CharClass

/-! Properties of characters: the names they go by, and the class of the characters that have them. Members
are listed as far as ASCII and the letters that fold into it go. -/

namespace A64.Text

structure CharProperty where
  names : List String
  /-- The ranges of the listed members, as pairs of ends. -/
  listed : String
  /-- What the other members take when a pattern is compiled. -/
  bytes : Nat
  deriving DecidableEq, Repr

namespace CharProperty

def members (p : CharProperty) : CharClass := .beyond (.ofPairs p.listed.toList) p.bytes

/-- A name without what does not count in it: case, blanks, dashes and a leading `is`, unless that leaves the
one letter that is a name of its own. -/
def plain (name : List Char) : String :=
  let kept (cs : List Char) :=
    (cs.filter fun c => c.toNat < 128 && !(c == ' ' || c == '_' || c == '-')).map Char.toLower
  String.ofList
    (match name with
    | i :: s :: rest =>
      if i.toLower = 'i' ∧ s.toLower = 's' ∧ kept rest ≠ ['c'] then kept rest else kept name
    | _ => kept name)

def find? (table : List CharProperty) (name : String) : Option CharProperty :=
  table.find? fun p => p.names.contains name

end CharProperty

end A64.Text
