import WikiTypeset.Language.Lookup

/-!
# Language set-up of a document

The preamble fragment that declares the languages a document uses, the fonts of those that have one of their
own, and the fonts of their scripts. Every language, script and font is declared once, in the order in which
the codes first need it. Main definition: `render`.
-/

namespace WikiTypeset.Language.Setup

/-- The codes of a document in order, its main language first and each once. -/
def usedCodes (main : String) (used : List String) : List String := (main :: used).eraseDups

/-- The line that names the main language. -/
def mainLine (main : Language) : String :=
  "\\setdefaultlanguage[" ++ main.options ++ "]\x7b" ++ main.name ++ "\x7d"

/-- The names of the languages besides the main one, each once. -/
def otherNames (main : String) (codes : List String) : List String :=
  ((codes.filter (· != main)).map fun code => (ofCode code).name).eraseDups

/-- The line that names the other languages; none if there are no others. -/
def otherLines (main : String) (codes : List String) : List String :=
  match otherNames main codes with
  | [] => []
  | names => ["\\setotherlanguages\x7b" ++ String.intercalate "," names ++ "\x7d"]

/-- The options of a font after the script, with a comma in front. -/
def furtherOptions (font : Font) : String := if font.options.isEmpty then "" else "," ++ font.options

/-- The lines that declare a language's own font. -/
def languageFontLines (l : Language) (font : Font) : List String :=
  let options := "[Script=" ++ l.script ++ furtherOptions font ++ "]\x7b" ++ font.name ++ "\x7d"
  if font.cjk then
    ["\\setCJKfamilyfont\x7b" ++ l.name ++ "\x7d" ++ options,
      "\\newcommand\x7b\\" ++ l.name ++ "font\x7d\x7b\\CJKfamily\x7b" ++ l.name ++ "\x7d\x7d"]
  else ["\\newfontfamily\\" ++ l.name ++ "font" ++ options]

/-- The languages of the codes, each name once. -/
def distinctLanguages (codes : List String) : List Language :=
  codes.foldl (fun ls code =>
    let l := ofCode code
    if ls.any (·.name == l.name) then ls else ls ++ [l]) []

/-- The lines that declare the languages' own fonts. -/
def languageLines (codes : List String) : List String :=
  (distinctLanguages codes).flatMap fun l =>
    match languageFont? l.name with
    | some font => languageFontLines l font
    | none => []

/-- The scripts of the codes, each once; a language whose font lacks Latin glyphs needs the Latin script too. -/
def scripts (codes : List String) : List String :=
  (codes.flatMap fun code =>
    let l := ofCode code
    if l.latinCoverage then [l.script] else [l.script, "Latin"]).eraseDups

/-- The scripts of the right-to-left languages. -/
def rtlScripts (codes : List String) : List String :=
  codes.filterMap fun code =>
    let l := ofCode code
    if l.direction = .rtl then some l.script else none

/-- The lines that declare a script's font: with the script's features, and for a right-to-left script also a
plain variant for embedded left-to-right text. -/
def scriptLines (rtl : Bool) (script : String) : List String :=
  match scriptFont? script with
  | none => []
  | some font =>
    ("\\newfontfamily\\" ++ script.toLower ++ "font[Script=" ++ script ++ furtherOptions font ++ "]\x7b" ++
        font.name ++ "\x7d") ::
      if rtl then ["\\newfontfamily\\LTR" ++ script.toLower ++ "font\x7b" ++ font.name ++ "\x7d"] else []

/-- The lines of the set-up. -/
def setupLines (main : String) (used : List String) : List String :=
  let codes := usedCodes main used
  let language := ofCode main
  mainLine language :: otherLines main codes ++ ["\\usepackage\x7bbidi\x7d"] ++ languageLines codes ++
    (scripts codes).flatMap (fun s => scriptLines ((rtlScripts codes).contains s) s) ++
    (ltrFontCommand? language).toList

/-- The text of the set-up. -/
def render (main : String) (used : List String) : String :=
  String.join ((setupLines main used).map (· ++ "\n"))

end WikiTypeset.Language.Setup
