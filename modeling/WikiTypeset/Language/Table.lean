import WikiTypeset.Bidi.Class

/-!
# Languages, scripts and fonts

The tables behind the language set-up: which typesetting language a language code stands for, which script
and direction a language is written in, and which font sets a language or a script.
-/

namespace WikiTypeset.Language

/-- A font family with its options. `cjk` families are managed by a package of their own; a family without
`latin` has no usable Latin glyphs. -/
structure Font where
  name : String
  options : String := ""
  cjk : Bool := false
  latin : Bool := true
  deriving DecidableEq, Repr

/-- Options for families that lack bold and slanted faces. -/
def fakeStyles : String := "AutoFakeBold=1.5,AutoFakeSlant=0.2"

/-- The font of the parts of a document that are in no particular script. -/
def defaultFont : Font := { name := "FreeSerif" }

/-- The font of a script, if one is configured. -/
def scriptFont? : String → Option Font
  | "default" => some defaultFont
  | "Arabic" => some { name := "Amiri" }
  | "Devanagari" => some { name := "Nakula", options := fakeStyles, latin := false }
  | "Hebrew" => some { name := "Linux Libertine O" }
  | "Latin" => some { name := "Linux Libertine O" }
  | "Malayalam" => some { name := "Rachana", options := fakeStyles, latin := false }
  | _ => none

/-- The font of a language that does not use the font of its script. -/
def languageFont? : String → Option Font
  | "vietnamese" => some { name := "Linux Libertine O", options := "Language=Vietnamese" }
  | "urdu" => some { name := "Nafees", options := fakeStyles, latin := false }
  | "farsi" => some { name := "Nazli", latin := false }
  | "chinese" => some {
      name := "AR PL UMing CN"
      options := "BoldFont=Droid Sans Fallback,ItalicFont=AR PL UKai CN," ++
        "Language=Chinese Simplified,CJKShape=Simplified"
      cjk := true }
  | "japanese" => some {
      name := "IPAexMincho", options := "BoldFont=Droid Sans Fallback,AutoFakeSlant=0.2", cjk := true }
  | "korean" => some {
      name := "Baekmuk Batang", options := "BoldFont=Baekmuk Headline,AutoFakeSlant=0.2", cjk := true }
  | _ => none

/-- The script and direction of a language. -/
structure Writing where
  language : String
  script : String
  direction : Direction
  deriving DecidableEq, Repr

/-- The languages that are not written in the Latin script, or need their script named. -/
def writings : List Writing :=
  [⟨"amharic", "Ethiopic", .ltr⟩, ⟨"arabic", "Arabic", .rtl⟩, ⟨"armenian", "Armenian", .ltr⟩,
   ⟨"bengali", "Bengali", .ltr⟩, ⟨"bulgarian", "Cyrillic", .ltr⟩, ⟨"hans", "CJK", .ltr⟩,
   ⟨"hant", "CJK", .ltr⟩, ⟨"hanp", "Latin", .ltr⟩, ⟨"coptic", "Coptic", .ltr⟩, ⟨"divehi", "Thaana", .rtl⟩,
   ⟨"farsi", "Arabic", .rtl⟩, ⟨"greek", "Greek", .ltr⟩, ⟨"gujarati", "Gujarati", .ltr⟩,
   ⟨"hebrew", "Hebrew", .rtl⟩, ⟨"hindi", "Devanagari", .ltr⟩, ⟨"japanese", "Kana", .ltr⟩,
   ⟨"kannada", "Kannada", .ltr⟩, ⟨"korean", "Hangul", .ltr⟩, ⟨"lao", "Lao", .ltr⟩,
   ⟨"malayalam", "Malayalam", .ltr⟩, ⟨"marathi", "Devanagari", .ltr⟩, ⟨"nko", "N'ko", .rtl⟩,
   ⟨"oriya", "Oriya", .ltr⟩, ⟨"punjabi", "Gurmukhi", .ltr⟩, ⟨"russian", "Cyrillic", .ltr⟩,
   ⟨"sanskrit", "Devanagari", .ltr⟩, ⟨"serbian", "Cyrillic", .ltr⟩, ⟨"syriac", "Syriac", .rtl⟩,
   ⟨"tamil", "Tamil", .ltr⟩, ⟨"telugu", "Telugu", .ltr⟩, ⟨"thai", "Thai", .ltr⟩,
   ⟨"tibetan", "Tibetan", .ltr⟩, ⟨"ukrainian", "Cyrillic", .ltr⟩, ⟨"urdu", "Arabic", .rtl⟩]

/-- The typesetting language of a language code, with its options. -/
structure CodeEntry where
  code : String
  language : String
  options : String
  deriving DecidableEq, Repr

/-- The language codes that are supported. -/
def codeTable : List CodeEntry :=
  [⟨"sq", "albanian", ""⟩, ⟨"am", "amharic", ""⟩, ⟨"ar", "arabic", ""⟩, ⟨"und-Arab", "arabic", ""⟩,
   ⟨"hy", "armenian", ""⟩, ⟨"ast", "asturian", ""⟩, ⟨"id", "bahasai", ""⟩, ⟨"ms", "bahasam", ""⟩,
   ⟨"eu", "basque", ""⟩, ⟨"bn", "bengali", ""⟩, ⟨"pt-BR", "brazil", ""⟩, ⟨"br", "breton", ""⟩,
   ⟨"bg", "bulgarian", ""⟩, ⟨"ca", "catalan", ""⟩, ⟨"cop", "coptic", ""⟩, ⟨"hr", "croatian", ""⟩,
   ⟨"cs", "czech", ""⟩, ⟨"da", "danish", ""⟩, ⟨"dv", "divehi", ""⟩, ⟨"nl", "dutch", ""⟩,
   ⟨"en", "english", ""⟩, ⟨"eo", "esperanto", ""⟩, ⟨"et", "estonian", ""⟩, ⟨"fa", "farsi", ""⟩,
   ⟨"fi", "finnish", ""⟩, ⟨"fr", "french", ""⟩, ⟨"fur", "friulan", ""⟩, ⟨"gl", "galician", ""⟩,
   ⟨"de", "german", ""⟩, ⟨"el", "greek", ""⟩, ⟨"el-latn", "greek", "numerals=arabic"⟩,
   ⟨"grc", "greek", "variant=ancient"⟩, ⟨"gu", "gujarati", ""⟩, ⟨"he", "hebrew", ""⟩, ⟨"hi", "hindi", ""⟩,
   ⟨"is", "icelandic", ""⟩, ⟨"ie", "interlingua", ""⟩, ⟨"ga", "irish", ""⟩, ⟨"it", "italian", ""⟩,
   ⟨"kn", "kannada", ""⟩, ⟨"lo", "lao", ""⟩, ⟨"la", "latin", ""⟩, ⟨"Latn", "latin", ""⟩,
   ⟨"lv", "latvian", ""⟩, ⟨"lt", "lithuanian", ""⟩, ⟨"dsb", "lsorbian", ""⟩, ⟨"hu", "magyar", ""⟩,
   ⟨"ml", "malayalam", ""⟩, ⟨"mr", "marathi", ""⟩, ⟨"nqo", "nko", ""⟩, ⟨"no", "norsk", ""⟩,
   ⟨"nn", "nynorsk", ""⟩, ⟨"oc", "occitan", ""⟩, ⟨"or", "oriya", ""⟩, ⟨"pa", "punjabi", ""⟩,
   ⟨"pmsq", "piedmontese", ""⟩, ⟨"pl", "polish", ""⟩, ⟨"pt", "portuges", ""⟩, ⟨"ro", "romanian", ""⟩,
   ⟨"rm", "romansh", ""⟩, ⟨"ru", "russian", ""⟩, ⟨"sme", "samin", ""⟩, ⟨"sa", "sanskrit", ""⟩,
   ⟨"sa-Latn", "sanskrit", ""⟩, ⟨"gd", "scottish", ""⟩, ⟨"sr", "serbian", ""⟩, ⟨"sk", "slovak", ""⟩,
   ⟨"sl", "slovenian", ""⟩, ⟨"es", "spanish", ""⟩, ⟨"sv", "swedish", ""⟩, ⟨"syc", "syriac", ""⟩,
   ⟨"ta", "tamil", ""⟩, ⟨"te", "telugu", ""⟩, ⟨"th", "thai", ""⟩, ⟨"bo", "tibetan", ""⟩,
   ⟨"tr", "turkish", ""⟩, ⟨"tk", "turkmen", ""⟩, ⟨"uk", "ukrainian", ""⟩, ⟨"ur", "urdu", ""⟩,
   ⟨"hsb", "usorbian", ""⟩, ⟨"vi", "vietnamese", ""⟩, ⟨"cy", "welsh", ""⟩, ⟨"ja", "japanese", ""⟩,
   ⟨"zh-Hans", "hans", ""⟩, ⟨"zh-Hant", "hant", ""⟩, ⟨"zh-Latn-pinyin", "hanp", ""⟩, ⟨"ko", "korean", ""⟩]

end WikiTypeset.Language
