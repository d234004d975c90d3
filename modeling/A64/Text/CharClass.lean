/-! Classes of characters, as they are written in patterns: ranges, named classes, and what sets and letter
case make of them. -/

namespace A64.Text

inductive CharClass where
  | nothing
  | range (first last : Char)
  /-- A class of which only those members are listed that are ASCII characters or fold into them. The others
  take so many bytes when a pattern is compiled. -/
  | beyond (a : CharClass) (bytes : Nat)
  | either (a b : CharClass)
  | both (a b : CharClass)
  | without (a b : CharClass)
  | oneOf (a b : CharClass)
  | other (a : CharClass)
  /-- The characters of a class, and those that differ from one of them in case only. Without Unicode only
  ASCII letters have a case. -/
  | anyCase (unicode : Bool) (a : CharClass)
  deriving DecidableEq, Repr

/-- The letters outside ASCII that fold into it: the long s and the Kelvin sign. -/
def foldingLetters : List Char := ['\u017f', '\u212a']

def caseVariants (unicode : Bool) (c : Char) : List Char :=
  if unicode ∧ c ∈ ['s', 'S', '\u017f'] then ['s', 'S', '\u017f']
  else if unicode ∧ c ∈ ['k', 'K', '\u212a'] then ['k', 'K', '\u212a']
  else [c, c.toLower, c.toUpper]

namespace CharClass

def contains : CharClass → Char → Bool
  | nothing, _ => false
  | range first last, c => first ≤ c && c ≤ last
  | beyond a _, c => a.contains c
  | either a b, c => a.contains c || b.contains c
  | both a b, c => a.contains c && b.contains c
  | without a b, c => a.contains c && !b.contains c
  | oneOf a b, c => a.contains c != b.contains c
  | other a, c => !a.contains c
  | anyCase unicode a, c => (caseVariants unicode c).any fun d => a.contains d

def single (c : Char) : CharClass := range c c

def union (ks : List CharClass) : CharClass := ks.foldr either nothing

def ofText (s : String) : CharClass := union (s.toList.map single)

/-- The ranges whose ends are the first and second, the third and fourth character, and so on. -/
def ofPairs : List Char → CharClass
  | first :: last :: cs => either (range first last) (ofPairs cs)
  | _ => nothing

def anything : CharClass := other nothing

def lower : CharClass := range 'a' 'z'

def upper : CharClass := range 'A' 'Z'

def letter : CharClass := either upper lower

def digit : CharClass := range '0' '9'

def ascii : CharClass := range '\x00' '\x7f'

def control : CharClass := either (range '\x00' '\x1f') (single '\x7f')

def word : CharClass := union [letter, digit, single '_']

def wordLike : CharClass := beyond (union (word :: foldingLetters.map single)) 49460

def decimal : CharClass := beyond digit 5016

def blank : CharClass :=
  ofPairs
    ['\t', '\r', ' ', ' ', '\u0085', '\u0085', '\u00a0', '\u00a0', '\u1680', '\u1680', '\u2000', '\u200a',
     '\u2028', '\u2029', '\u202f', '\u202f', '\u205f', '\u205f', '\u3000', '\u3000']

def asciiBlank : CharClass := either (range '\t' '\r') (single ' ')

def hexDigit : CharClass := union [digit, range 'A' 'F', range 'a' 'f']

def graphic : CharClass := range '!' '~'

def bracketNames : List (String × CharClass) :=
  [("alnum", either letter digit), ("alpha", letter), ("ascii", ascii), ("blank", ofText "\t "),
   ("cntrl", control), ("digit", digit), ("graph", graphic), ("lower", lower),
   ("print", range ' ' '~'), ("punct", without graphic (either letter digit)),
   ("space", asciiBlank), ("upper", upper), ("word", word),
   ("xdigit", hexDigit)]

end CharClass

end A64.Text
