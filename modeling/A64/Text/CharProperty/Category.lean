import A64.Text.CharProperty

/-! General categories: what a character is. -/

namespace A64.Text.CharProperty

def categories : List CharProperty :=
  [⟨["any"], "\x00\x7f\u017f\u017f\u212a\u212a", 696⟩,
   ⟨["assigned"], "\x00\x7f\u017f\u017f\u212a\u212a", 50704⟩, ⟨["ascii"], "\x00\x7f", 0⟩,
   ⟨["c", "other"], "\x00\x1f\x7f\x7f", 42888⟩, ⟨["cc", "control", "cntrl"], "\x00\x1f\x7f\x7f", 68⟩,
   ⟨["cf", "format"], "", 1720⟩, ⟨["cn", "unassigned"], "", 42308⟩, ⟨["co", "privateuse"], "", 800⟩,
   ⟨["l", "letter"], "AZaz\u017f\u017f\u212a\u212a", 42428⟩,
   ⟨["lc", "casedletter"], "AZaz\u017f\u017f\u212a\u212a", 9272⟩,
   ⟨["ll", "lowercaseletter"], "az\u017f\u017f", 27400⟩, ⟨["lm", "modifierletter"], "", 4920⟩,
   ⟨["lo", "otherletter"], "", 34012⟩, ⟨["lt", "titlecaseletter"], "", 488⟩,
   ⟨["lu", "uppercaseletter"], "AZ\u212a\u212a", 26296⟩, ⟨["m", "mark", "combiningmark"], "", 18668⟩,
   ⟨["mc", "spacingmark"], "", 10208⟩, ⟨["me", "enclosingmark"], "", 404⟩,
   ⟨["mn", "nonspacingmark"], "", 19248⟩, ⟨["n", "number"], "09", 9648⟩,
   ⟨["nd", "decimalnumber", "digit"], "09", 5016⟩, ⟨["nl", "letternumber"], "", 1048⟩,
   ⟨["no", "othernumber"], "", 5036⟩,
   ⟨["p", "punctuation", "punct"], "!#%*,/:;?@[]__\x7b\x7b\x7d\x7d", 11496⟩,
   ⟨["pc", "connectorpunctuation"], "__", 440⟩, ⟨["pd", "dashpunctuation"], "--", 1292⟩,
   ⟨["pe", "closepunctuation"], "))]]\x7d\x7d", 3332⟩, ⟨["pf", "finalpunctuation"], "", 488⟩,
   ⟨["pi", "initialpunctuation"], "", 524⟩, ⟨["po", "otherpunctuation"], "!#%'**,,./:;?@\\\\", 10860⟩,
   ⟨["ps", "openpunctuation"], "(([[\x7b\x7b", 3472⟩, ⟨["s", "symbol"], "$$++<>^^``||~~", 15476⟩,
   ⟨["sc", "currencysymbol"], "$$", 1620⟩, ⟨["sk", "modifiersymbol"], "^^``", 1884⟩,
   ⟨["sm", "mathsymbol"], "++<>||~~", 3752⟩, ⟨["so", "othersymbol"], "", 13024⟩,
   ⟨["z", "separator"], "  ", 508⟩, ⟨["zl", "lineseparator"], "", 100⟩,
   ⟨["zp", "paragraphseparator"], "", 100⟩, ⟨["zs", "spaceseparator"], "  ", 472⟩]

end A64.Text.CharProperty
