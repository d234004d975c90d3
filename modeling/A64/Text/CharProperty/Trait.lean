import A64.Text.CharProperty

/-! Binary properties: what a character may be or not be. -/

namespace A64.Text.CharProperty

def traits : List CharProperty :=
  [⟨["ahex", "asciihexdigit"], "09AFaf", 0⟩,
   ⟨["alpha", "alphabetic"], "AZaz\u017f\u017f\u212a\u212a", 46732⟩, ⟨["bidic", "bidicontrol"], "", 272⟩,
   ⟨["ci", "caseignorable"], "''..::^^``", 24216⟩, ⟨["cased"], "AZaz\u017f\u017f\u212a\u212a", 10068⟩,
   ⟨["cwcf", "changeswhencasefolded"], "AZ\u017f\u017f\u212a\u212a", 24796⟩,
   ⟨["cwcm", "changeswhencasemapped"], "AZaz\u017f\u017f\u212a\u212a", 8164⟩,
   ⟨["cwl", "changeswhenlowercased"], "AZ\u212a\u212a", 24304⟩,
   ⟨["cwt", "changeswhentitlecased"], "az\u017f\u017f", 25180⟩,
   ⟨["cwu", "changeswhenuppercased"], "az\u017f\u017f", 25248⟩, ⟨["dash"], "--", 1464⟩,
   ⟨["di", "defaultignorablecodepoint"], "", 1412⟩, ⟨["dep", "deprecated"], "", 672⟩,
   ⟨["dia", "diacritic"], "^^``", 12268⟩, ⟨["emoji"], "##**09", 7488⟩,
   ⟨["ecomp", "emojicomponent"], "##**09", 736⟩, ⟨["emod", "emojimodifier"], "", 132⟩,
   ⟨["ebase", "emojimodifierbase"], "", 2080⟩, ⟨["epres", "emojipresentation"], "", 4792⟩,
   ⟨["extpict", "extendedpictographic"], "", 5008⟩, ⟨["ext", "extender"], "", 2436⟩,
   ⟨["grbase", "graphemebase"], " ~\u017f\u017f\u212a\u212a", 55768⟩,
   ⟨["grext", "graphemeextend"], "", 20024⟩, ⟨[], "", 0⟩, ⟨["hex", "hexdigit"], "09AFaf", 204⟩,
   ⟨["hyphen"], "--", 740⟩, ⟨["idsb", "idsbinaryoperator"], "", 136⟩,
   ⟨["idst", "idstrinaryoperator"], "", 100⟩,
   ⟨["idc", "idcontinue"], "09AZ__az\u017f\u017f\u212a\u212a", 49052⟩,
   ⟨["ids", "idstart"], "AZaz\u017f\u017f\u212a\u212a", 42564⟩, ⟨["ideo", "ideographic"], "", 3852⟩,
   ⟨["joinc", "joincontrol"], "", 100⟩, ⟨["loe", "logicalorderexception"], "", 476⟩,
   ⟨["lower", "lowercase"], "az\u017f\u017f", 28028⟩, ⟨["math"], "++<>^^||~~", 6824⟩,
   ⟨["nchar", "noncharactercodepoint"], "", 1928⟩, ⟨["patsyn", "patternsyntax"], "!/:@[^``\x7b~", 1548⟩,
   ⟨["patws", "patternwhitespace"], "\x09\x0d  ", 204⟩, ⟨["pcm", "prependedconcatenationmark"], "", 572⟩,
   ⟨["qmark", "quotationmark"], "\"\"''", 716⟩, ⟨["radical"], "", 340⟩,
   ⟨["ri", "regionalindicator"], "", 132⟩, ⟨["sterm", "sentenceterminal"], "!!..??", 5176⟩,
   ⟨["sd", "softdotted"], "ij", 2148⟩, ⟨["term", "terminalpunctuation"], "!!,,..:;??", 6656⟩,
   ⟨["uideo", "unifiedideograph"], "", 2712⟩, ⟨["upper", "uppercase"], "AZ\u212a\u212a", 26776⟩,
   ⟨["vs", "variationselector"], "", 436⟩, ⟨["wspace", "whitespace", "space"], "\x09\x0d  ", 544⟩,
   ⟨["xidc", "xidcontinue"], "09AZ__az\u017f\u017f\u212a\u212a", 49440⟩,
   ⟨["xids", "xidstart"], "AZaz\u017f\u017f\u212a\u212a", 42952⟩,
   ⟨["oalpha", "otheralphabetic"], "", 14000⟩, ⟨["odi", "otherdefaultignorablecodepoint"], "", 500⟩,
   ⟨["ogrext", "othergraphemeextend"], "", 1500⟩, ⟨["oidc", "otheridcontinue"], "", 400⟩,
   ⟨["oids", "otheridstart"], "", 300⟩, ⟨["olower", "otherlowercase"], "", 1500⟩,
   ⟨["omath", "othermath"], "^^", 4500⟩, ⟨["oupper", "otheruppercase"], "", 300⟩,
   ⟨["idsu", "idsunaryoperator"], "", 100⟩, ⟨["idcompatmathcontinue"], "", 500⟩,
   ⟨["idcompatmathstart"], "", 400⟩, ⟨["mcm", "modifiercombiningmark"], "", 500⟩]

end A64.Text.CharProperty
