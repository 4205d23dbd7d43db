import WikiTypeset.Language.Table
import WikiTypeset.Log

/-!
# Languages by code

A language code resolves to the facts that typesetting needs. An unknown code stands for its primary subtag,
and for English if that is unknown too. Main definitions: `Language.ofCode` and `ltrFontCommand?`.
-/

namespace WikiTypeset

/-- The facts about a language that typesetting needs: `name` in font commands, `environment` around blocks. -/
structure Language where
  code : String
  name : String
  environment : String
  direction : Direction
  script : String
  options : String := ""
  latinCoverage : Bool := true
  deriving DecidableEq, Repr

namespace Language

/-- The language of documents that name none. -/
def defaultCode : String := "en"

/-- The table entry of a language code. -/
def row? (code : String) : Option CodeEntry := codeTable.find? (·.code == code)

/-- Whether the code itself is in the table. -/
def isKnown (code : String) : Bool := (row? code).isSome

/-- A language code up to its first hyphen. -/
def primarySubtag (code : String) : String := String.ofList (code.toList.takeWhile (· != '-'))

/-- The code that stands for `code`: itself if known, else its primary subtag, else English. -/
def resolvedCode (code : String) : String :=
  if isKnown code then code
  else if isKnown (primarySubtag code) then primarySubtag code
  else defaultCode

/-- The font that sets a language: its own, or that of its script. -/
def fontOf? (name script : String) : Option Font := languageFont? name <|> scriptFont? script

/-- The environment that switches a block to a language. -/
def environmentOf (name : String) : String := if name = "arabic" then "Arabic" else name

/-- The language of a table entry. -/
def ofEntry (e : CodeEntry) : Language :=
  let (script, direction) := match writings.find? (·.language == e.language) with
    | some w => (w.script, w.direction)
    | none => ("Latin", .ltr)
  { code := e.code
    name := e.language
    environment := environmentOf e.language
    direction
    script
    options := e.options
    latinCoverage := ((fontOf? e.language script).map (·.latin)).getD true }

/-- The language that a code stands for. -/
def ofCode (code : String) : Language :=
  match row? (resolvedCode code) with
  | some e => ofEntry e
  | none => { code := defaultCode, name := "english", environment := "english", direction := .ltr, script := "Latin" }

/-- The language's font, if one is configured. -/
def font? (l : Language) : Option Font := fontOf? l.name l.script

/-- The command that sets embedded left-to-right text of a right-to-left language in a plain variant of the
script's font. Other languages need none. -/
def ltrFontCommand? (l : Language) : Option String :=
  if l.direction = .rtl ∧ (scriptFont? l.script).isSome then
    some ("\\renewcommand\x7b\\LTRfont\x7d\x7b\\LTR" ++ l.script.toLower ++ "font\x7d")
  else none

/-- The record that a first look at an unknown code leaves. -/
def unknownCodeRecord (code : String) : LogRecord :=
  ⟨.warning, .languages, "Language support not found for " ++ code⟩

/-- The codes that a warning has been given for, after one more look-up, and the warning that it gives. -/
def noteLookup (warned : List String) (code : String) : List String × Log :=
  if isKnown code || warned.contains code then (warned, [])
  else (code :: warned, [unknownCodeRecord code])

/-- The warnings of several look-ups in a row. -/
def noteLookups (warned : List String) : List String → List String × Log
  | [] => (warned, [])
  | code :: codes =>
    let (warned, log) := noteLookup warned code
    let (warned, rest) := noteLookups warned codes
    (warned, log ++ rest)

end Language

end WikiTypeset
