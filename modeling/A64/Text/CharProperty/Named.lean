import A64.Text.CharProperty.Break
import A64.Text.CharProperty.Category
import A64.Text.CharProperty.Script
import A64.Text.CharProperty.Trait

/-! Finding properties by name. -/

namespace A64.Text.CharProperty

/-- Names of properties that divide characters in another way and cannot be asked for. -/
def otherNames : List String :=
  ["bc", "bidiclass", "bidim", "bidimirrored", "bidimirroringglyph", "bidipairedbracket",
   "bidipairedbrackettype", "blk", "block", "bmg", "bpb", "bpt", "canonicalcombiningclass", "casefolding",
   "ccc", "ce", "cf", "changeswhennfkccasefolded", "compex", "compositionexclusion", "cwkcf",
   "decompositionmapping", "decompositiontype", "dm", "dt", "ea", "eastasianwidth", "equideo",
   "equivalentunifiedideograph", "expandsonnfc", "expandsonnfd", "expandsonnfkc", "expandsonnfkd",
   "fcnfkc", "fcnfkcclosure", "fullcompositionexclusion", "hangulsyllabletype", "hst", "incb",
   "indicconjunctbreak", "indicpositionalcategory", "indicsyllabiccategory", "inpc", "insc", "isc",
   "isocomment", "jamoshortname", "jg", "joininggroup", "joiningtype", "jsn", "jt", "lb", "lc",
   "linebreak", "lowercasemapping", "na", "na1", "name", "nfcqc", "nfcquickcheck", "nfdqc",
   "nfdquickcheck", "nfkccasefold", "nfkccf", "nfkcqc", "nfkcquickcheck", "nfkcscf", "nfkcsimplecasefold",
   "nfkdqc", "nfkdquickcheck", "nt", "numerictype", "numericvalue", "nv", "scf", "sfc",
   "simplecasefolding", "simplelowercasemapping", "simpletitlecasemapping", "simpleuppercasemapping",
   "slc", "stc", "suc", "tc", "titlecasemapping", "uc", "unicode1name", "uppercasemapping",
   "verticalorientation", "vo", "xonfc", "xonfd", "xonfkc", "xonfkd"]

def named? (name : String) : Option CharProperty :=
  find? traits name <|> find? categories name <|> find? scripts name

def vacant : List String := ["cs", "surrogate", "zzzz", "unknown", "hrkt", "katakanaorhiragana"]

def valueTables : List (List String × List CharProperty) :=
  [(["gc", "generalcategory"], categories), (["sc", "script"], scripts),
   (["scx", "scriptextensions"], scripts), (["age"], ages), (["gcb", "graphemeclusterbreak"], letterBreaks),
   (["wb", "wordbreak"], wordBreaks), (["sb", "sentencebreak"], sentenceBreaks)]

def valuesOf? (name : String) : Option (List CharProperty) :=
  match valueTables.find? fun entry => entry.1.contains name with
  | some (_, values) => some values
  | none => if otherNames.contains name || (find? traits name).isSome then some [] else none

end A64.Text.CharProperty
