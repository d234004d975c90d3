import A64.Text.CharProperty

/-! Scripts: the writing system that a character belongs to. -/

namespace A64.Text.CharProperty

def scripts : List CharProperty :=
  [⟨["adlm", "adlam"], "", 272⟩, ⟨["aghb", "caucasianalbanian"], "", 236⟩, ⟨["ahom"], "", 272⟩,
   ⟨["arab", "arabic"], "", 3516⟩, ⟨["armi", "imperialaramaic"], "", 168⟩, ⟨["armn", "armenian"], "", 376⟩,
   ⟨["avst", "avestan"], "", 168⟩, ⟨["bali", "balinese"], "", 204⟩, ⟨["bamu", "bamum"], "", 368⟩,
   ⟨["bass", "bassavah"], "", 168⟩, ⟨["batk", "batak"], "", 136⟩, ⟨["beng", "bengali"], "", 636⟩,
   ⟨["bhks", "bhaiksuki"], "", 308⟩, ⟨["bopo", "bopomofo"], "", 236⟩, ⟨["brah", "brahmi"], "", 272⟩,
   ⟨["brai", "braille"], "", 100⟩, ⟨["bugi", "buginese"], "", 136⟩, ⟨["buhd", "buhid"], "", 100⟩,
   ⟨["cakm", "chakma"], "", 236⟩, ⟨["cans", "canadianaboriginal"], "", 368⟩, ⟨["cari", "carian"], "", 200⟩,
   ⟨["cham"], "", 240⟩, ⟨["cher", "cherokee"], "", 372⟩, ⟨["chrs", "chorasmian"], "", 200⟩,
   ⟨["copt", "coptic", "qaac"], "", 272⟩, ⟨["cpmn", "cyprominoan"], "", 200⟩,
   ⟨["cprt", "cypriot"], "", 312⟩, ⟨["cyrl", "cyrillic"], "", 1180⟩, ⟨["deva", "devanagari"], "", 472⟩,
   ⟨["diak", "divesakuru"], "", 452⟩, ⟨["dogr", "dogra"], "", 132⟩, ⟨["dsrt", "deseret"], "", 200⟩,
   ⟨["dupl", "duployan"], "", 376⟩, ⟨["egyp", "egyptianhieroglyphs"], "", 472⟩,
   ⟨["elba", "elbasan"], "", 132⟩, ⟨["elym", "elymaic"], "", 132⟩, ⟨["ethi", "ethiopic"], "", 1952⟩,
   ⟨["gara", "garay"], "", 272⟩, ⟨["geor", "georgian"], "", 588⟩, ⟨["glag", "glagolitic"], "", 444⟩,
   ⟨["gong", "gunjalagondi"], "", 380⟩, ⟨["gonm", "masaramgondi"], "", 416⟩, ⟨["goth", "gothic"], "", 200⟩,
   ⟨["gran", "grantha"], "", 704⟩, ⟨["grek", "greek"], "", 2180⟩, ⟨["gujr", "gujarati"], "", 636⟩,
   ⟨["gukh", "gurungkhema"], "", 132⟩, ⟨["guru", "gurmukhi"], "", 708⟩, ⟨["hang", "hangul"], "", 1392⟩,
   ⟨["hani", "han"], "", 3556⟩, ⟨["hano", "hanunoo"], "", 100⟩, ⟨["hatr", "hatran"], "", 204⟩,
   ⟨["hebr", "hebrew"], "", 520⟩, ⟨["hira", "hiragana"], "", 676⟩,
   ⟨["hluw", "anatolianhieroglyphs"], "", 200⟩, ⟨["hmng", "pahawhhmong"], "", 412⟩,
   ⟨["hmnp", "nyiakengpuachuehmong"], "", 272⟩, ⟨["hung", "oldhungarian"], "", 236⟩,
   ⟨["ital", "olditalic"], "", 168⟩, ⟨["java", "javanese"], "", 240⟩, ⟨["kali", "kayahli"], "", 136⟩,
   ⟨["kana", "katakana"], "", 1156⟩, ⟨["kawi"], "", 272⟩, ⟨["khar", "kharoshthi"], "", 452⟩,
   ⟨["khmr", "khmer"], "", 308⟩, ⟨["khoj", "khojki"], "", 236⟩, ⟨["kits", "khitansmallscript"], "", 336⟩,
   ⟨["knda", "kannada"], "", 600⟩, ⟨["krai", "kiratrai"], "", 132⟩, ⟨["kthi", "kaithi"], "", 236⟩,
   ⟨["lana", "taitham"], "", 380⟩, ⟨["laoo", "lao"], "", 492⟩,
   ⟨["latn", "latin"], "AZaz\u017f\u017f\u212a\u212a", 2544⟩, ⟨["lepc", "lepcha"], "", 240⟩,
   ⟨["limb", "limbu"], "", 276⟩, ⟨["lina", "lineara"], "", 304⟩, ⟨["linb", "linearb"], "", 516⟩,
   ⟨["lisu"], "", 232⟩, ⟨["lyci", "lycian"], "", 132⟩, ⟨["lydi", "lydian"], "", 168⟩,
   ⟨["mahj", "mahajani"], "", 132⟩, ⟨["maka", "makasar"], "", 132⟩, ⟨["mand", "mandaic"], "", 136⟩,
   ⟨["mani", "manichaean"], "", 168⟩, ⟨["marc", "marchen"], "", 272⟩, ⟨["medf", "medefaidrin"], "", 200⟩,
   ⟨["mend", "mendekikakui"], "", 236⟩, ⟨["merc", "meroiticcursive"], "", 272⟩,
   ⟨["mero", "meroitichieroglyphs"], "", 132⟩, ⟨["mlym", "malayalam"], "", 384⟩, ⟨["modi"], "", 236⟩,
   ⟨["mong", "mongolian"], "", 476⟩, ⟨["mroo", "mro"], "", 204⟩, ⟨["mtei", "meeteimayek"], "", 204⟩,
   ⟨["mult", "multani"], "", 276⟩, ⟨["mymr", "myanmar"], "", 468⟩, ⟨["nagm", "nagmundari"], "", 132⟩,
   ⟨["nand", "nandinagari"], "", 272⟩, ⟨["narb", "oldnortharabian"], "", 132⟩,
   ⟨["nbat", "nabataean"], "", 168⟩, ⟨["newa"], "", 236⟩, ⟨["nkoo", "nko"], "", 104⟩,
   ⟨["nshu", "nushu"], "", 368⟩, ⟨["ogam", "ogham"], "", 100⟩, ⟨["olck", "olchiki"], "", 100⟩,
   ⟨["onao", "olonal"], "", 168⟩, ⟨["orkh", "oldturkic"], "", 200⟩, ⟨["orya", "oriya"], "", 636⟩,
   ⟨["osge", "osage"], "", 236⟩, ⟨["osma", "osmanya"], "", 168⟩, ⟨["ougr", "olduyghur"], "", 200⟩,
   ⟨["palm", "palmyrene"], "", 132⟩, ⟨["pauc", "paucinhau"], "", 132⟩, ⟨["perm", "oldpermic"], "", 132⟩,
   ⟨["phag", "phagspa"], "", 100⟩, ⟨["phli", "inscriptionalpahlavi"], "", 168⟩,
   ⟨["phlp", "psalterpahlavi"], "", 204⟩, ⟨["phnx", "phoenician"], "", 168⟩, ⟨["plrd", "miao"], "", 340⟩,
   ⟨["prti", "inscriptionalparthian"], "", 168⟩, ⟨["rjng", "rejang"], "", 204⟩,
   ⟨["rohg", "hanifirohingya"], "", 168⟩, ⟨["runr", "runic"], "", 204⟩, ⟨["samr", "samaritan"], "", 136⟩,
   ⟨["sarb", "oldsoutharabian"], "", 132⟩, ⟨["saur", "saurashtra"], "", 204⟩,
   ⟨["sgnw", "signwriting"], "", 272⟩, ⟨["shaw", "shavian"], "", 132⟩, ⟨["shrd", "sharada"], "", 200⟩,
   ⟨["sidd", "siddham"], "", 236⟩, ⟨["sind", "khudawadi"], "", 236⟩, ⟨["sinh", "sinhala"], "", 660⟩,
   ⟨["sogd", "sogdian"], "", 200⟩, ⟨["sogo", "oldsogdian"], "", 132⟩, ⟨["sora", "sorasompeng"], "", 168⟩,
   ⟨["soyo", "soyombo"], "", 200⟩, ⟨["sund", "sundanese"], "", 168⟩, ⟨["sunu", "sunuwar"], "", 168⟩,
   ⟨["sylo", "sylotinagri"], "", 100⟩, ⟨["syrc", "syriac"], "", 308⟩, ⟨["tagb", "tagbanwa"], "", 172⟩,
   ⟨["takr", "takri"], "", 200⟩, ⟨["tale", "taile"], "", 136⟩, ⟨["talu", "newtailue"], "", 276⟩,
   ⟨["taml", "tamil"], "", 876⟩, ⟨["tang", "tangut"], "", 536⟩, ⟨["tavt", "taiviet"], "", 204⟩,
   ⟨["telu", "telugu"], "", 600⟩, ⟨["tfng", "tifinagh"], "", 240⟩, ⟨["tglg", "tagalog"], "", 136⟩,
   ⟨["thaa", "thaana"], "", 68⟩, ⟨["thai"], "", 168⟩, ⟨["tibt", "tibetan"], "", 520⟩,
   ⟨["tirh", "tirhuta"], "", 236⟩, ⟨["tnsa", "tangsa"], "", 268⟩, ⟨["todr", "todhri"], "", 132⟩,
   ⟨["toto"], "", 132⟩, ⟨["tutg", "tulutigalari"], "", 560⟩, ⟨["ugar", "ugaritic"], "", 168⟩,
   ⟨["vaii", "vai"], "", 168⟩, ⟨["vith", "vithkuqi"], "", 452⟩, ⟨["wara", "warangciti"], "", 236⟩,
   ⟨["wcho", "wancho"], "", 168⟩, ⟨["xpeo", "oldpersian"], "", 236⟩, ⟨["xsux", "cuneiform"], "", 508⟩,
   ⟨["yezi", "yezidi"], "", 204⟩, ⟨["yiii", "yi"], "", 272⟩, ⟨["zanb", "zanabazarsquare"], "", 200⟩,
   ⟨["zinh", "inherited", "qaai"], "", 2344⟩, ⟨["zyyy", "common"], "\x00@[`\x7b\x7f", 12436⟩]

end A64.Text.CharProperty
