import A64.Text.CharProperty

/-! Properties for cutting text into letters, words and sentences, and the age of characters. -/

namespace A64.Text.CharProperty

def letterBreaks : List CharProperty :=
  [⟨["cn", "control"], "\x00\x09\x0b\x0c\x0e\x1f\x7f\x7f", 1348⟩, ⟨["cr"], "\x0d\x0d", 0⟩,
   ⟨["ex", "extend"], "", 19568⟩, ⟨["l"], "", 268⟩, ⟨["lf"], "\x0a\x0a", 0⟩, ⟨["lv"], "", 20092⟩,
   ⟨["lvt"], "", 25492⟩, ⟨["pp", "prepend"], "", 1116⟩, ⟨["ri", "regionalindicator"], "", 132⟩,
   ⟨["sm", "spacingmark"], "", 9248⟩, ⟨["t"], "", 268⟩, ⟨["v"], "", 336⟩, ⟨["zwj"], "", 100⟩]

def wordBreaks : List CharProperty :=
  [⟨["cr"], "\x0d\x0d", 0⟩, ⟨["dq", "doublequote"], "\"\"", 0⟩, ⟨["ex", "extendnumlet"], "__", 476⟩,
   ⟨["extend"], "", 18448⟩, ⟨["fo", "format"], "", 1616⟩, ⟨["hl", "hebrewletter"], "", 488⟩,
   ⟨["ka", "katakana"], "", 1224⟩, ⟨["le", "aletter"], "AZaz\u017f\u017f\u212a\u212a", 34704⟩,
   ⟨["lf"], "\x0a\x0a", 0⟩, ⟨["mb", "midnumlet"], "..", 340⟩, ⟨["ml", "midletter"], "::", 608⟩,
   ⟨["mn", "midnum"], ",,;;", 784⟩, ⟨["nl", "newline"], "\x0b\x0c", 168⟩, ⟨["nu", "numeric"], "09", 4576⟩,
   ⟨["ri", "regionalindicator"], "", 132⟩, ⟨["sq", "singlequote"], "''", 0⟩, ⟨["wsegspace"], "  ", 404⟩,
   ⟨["zwj"], "", 100⟩]

def sentenceBreaks : List CharProperty :=
  [⟨["at", "aterm"], "..", 268⟩, ⟨["cl", "close"], "\"\"')[[]]\x7b\x7b\x7d\x7d", 2304⟩,
   ⟨["cr"], "\x0d\x0d", 0⟩, ⟨["ex", "extend"], "", 18348⟩, ⟨["fo", "format"], "", 1652⟩,
   ⟨["le", "oletter"], "", 34472⟩, ⟨["lf"], "\x0a\x0a", 0⟩, ⟨["lo", "lower"], "az\u017f\u017f", 27712⟩,
   ⟨["nu", "numeric"], "09", 4576⟩, ⟨["sc", "scontinue"], ",-::", 1060⟩, ⟨["se", "sep"], "", 168⟩,
   ⟨["sp"], "\x09\x09\x0b\x0c  ", 472⟩, ⟨["st", "sterm"], "!!??", 5104⟩,
   ⟨["up", "upper"], "AZ\u212a\u212a", 26568⟩]

/-- The characters that were there at an age. ASCII always was. -/
def ages : List CharProperty :=
  [⟨["1.1", "v11"], "\x00\x7f\u017f\u017f\u212a\u212a", 16708⟩,
   ⟨["2.0", "v20"], "\x00\x7f\u017f\u017f\u212a\u212a", 19328⟩,
   ⟨["2.1", "v21"], "\x00\x7f\u017f\u017f\u212a\u212a", 19328⟩,
   ⟨["3.0", "v30"], "\x00\x7f\u017f\u017f\u212a\u212a", 23180⟩,
   ⟨["3.1", "v31"], "\x00\x7f\u017f\u017f\u212a\u212a", 26008⟩,
   ⟨["3.2", "v32"], "\x00\x7f\u017f\u017f\u212a\u212a", 25900⟩,
   ⟨["4.0", "v40"], "\x00\x7f\u017f\u017f\u212a\u212a", 26768⟩,
   ⟨["4.1", "v41"], "\x00\x7f\u017f\u017f\u212a\u212a", 28492⟩,
   ⟨["5.0", "v50"], "\x00\x7f\u017f\u017f\u212a\u212a", 29216⟩,
   ⟨["5.1", "v51"], "\x00\x7f\u017f\u017f\u212a\u212a", 30628⟩,
   ⟨["5.2", "v52"], "\x00\x7f\u017f\u017f\u212a\u212a", 33128⟩,
   ⟨["6.0", "v60"], "\x00\x7f\u017f\u017f\u212a\u212a", 35104⟩,
   ⟨["6.1", "v61"], "\x00\x7f\u017f\u017f\u212a\u212a", 37028⟩,
   ⟨["6.2", "v62"], "\x00\x7f\u017f\u017f\u212a\u212a", 37028⟩,
   ⟨["6.3", "v63"], "\x00\x7f\u017f\u017f\u212a\u212a", 37028⟩,
   ⟨["7.0", "v70"], "\x00\x7f\u017f\u017f\u212a\u212a", 41344⟩,
   ⟨["8.0", "v80"], "\x00\x7f\u017f\u017f\u212a\u212a", 42380⟩,
   ⟨["9.0", "v90"], "\x00\x7f\u017f\u017f\u212a\u212a", 44044⟩,
   ⟨["10.0", "v100"], "\x00\x7f\u017f\u017f\u212a\u212a", 45248⟩,
   ⟨["11.0", "v110"], "\x00\x7f\u017f\u017f\u212a\u212a", 46280⟩,
   ⟨["12.0", "v120"], "\x00\x7f\u017f\u017f\u212a\u212a", 47144⟩,
   ⟨["12.1", "v121"], "\x00\x7f\u017f\u017f\u212a\u212a", 47008⟩,
   ⟨["13.0", "v130"], "\x00\x7f\u017f\u017f\u212a\u212a", 48008⟩,
   ⟨["14.0", "v140"], "\x00\x7f\u017f\u017f\u212a\u212a", 48796⟩,
   ⟨["15.0", "v150"], "\x00\x7f\u017f\u017f\u212a\u212a", 49828⟩,
   ⟨["15.1", "v151"], "\x00\x7f\u017f\u017f\u212a\u212a", 50000⟩,
   ⟨["16.0", "v160"], "\x00\x7f\u017f\u017f\u212a\u212a", 51732⟩]

end A64.Text.CharProperty
