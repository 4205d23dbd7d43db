import WikiTypeset.Latex.UrlSpan
import WikiTypeset.Text.Segment

/-!
# Escaped text

The form in which TeX sets a text literally. The ten special characters are escaped; newlines are normalised,
no-break spaces become ties, straight quotes are curled, and a hyphen before a number becomes a minus sign.
URLs are wrapped so that they break across lines, and Latin words can be set in a font of their own.

Main definitions: `escapeText`, `escapeWithUrls`, `TextStyle.escape`, `escapeUrl`, `escapeFileName`.
-/

namespace WikiTypeset.Latex

open Text

/-- The literal form of a character, for the ten characters that are special to TeX. -/
def specialForm? : Char → Option String
  | '\\' => some "\\textbackslash\x7b\x7d"
  | '\x7b' => some "\\\x7b"
  | '\x7d' => some "\\\x7d"
  | '$' => some "\\$"
  | '%' => some "\\%"
  | '&' => some "\\&"
  | '#' => some "\\#"
  | '_' => some "\\_"
  | '~' => some "\\textasciitilde\x7b\x7d"
  | '^' => some "\\textasciicircum\x7b\x7d"
  | _ => none

/-- `s` with every special character in its literal form. -/
def escapeSpecials (s : List Char) : List Char :=
  s.flatMap fun c => match specialForm? c with
    | some form => form.toList
    | none => [c]

/-- Every run of line feeds shortened to one. -/
def collapseNewlines : List Char → List Char
  | [] => []
  | c :: s => if c = '\n' && s.head? == some '\n' then collapseNewlines s else c :: collapseNewlines s

/-- `s` without one line feed at its end. -/
def dropFinalNewline (s : List Char) : List Char := if s.getLast? == some '\n' then s.dropLast else s

/-- Single line feeds between lines, none at the start and one fewer at the end. -/
def tidyNewlines (s : List Char) : List Char :=
  dropFinalNewline ((collapseNewlines (normalizeNewlines s)).dropWhile (· == '\n'))

/-- No-break spaces as ties. -/
def setTies (s : List Char) : List Char := s.map fun c => if c = '\u00A0' then '~' else c

/-- A straight quote before a word and after a blank, a parenthesis or nothing opens. -/
def openQuotes (previous : Option Char) : List Char → List Char
  | [] => []
  | c :: s =>
    let opens := c == '"' && (previous.map fun p => isBlank p || p == '(').getD true &&
      (s.head?.map isWord).getD false
    (if opens then '\u201C' else c) :: openQuotes (some c) s

/-- Whether a quote may close after `c`. -/
def endsQuoted (c : Char) : Bool := isWord c || c == '.' || c == ','

/-- Whether a quote may close before `c`. -/
def followsQuoted (c : Char) : Bool := isBlank c || ['.', ',', '\u2014', ')'].contains c

/-- A straight quote after a word, a point or a comma, and before a blank, punctuation or the end, closes. The
character after a closing quote allows no other quote to close. -/
def closeQuotes (previous : Option Char) : List Char → List Char
  | [] => []
  | c :: s =>
    if c == '"' && (previous.map endsQuoted).getD false then
      match s with
      | [] => ['\u201D']
      | n :: rest =>
        if followsQuoted n then '\u201D' :: n :: closeQuotes none rest else '"' :: closeQuotes (some '"') (n :: rest)
    else c :: closeQuotes (some c) s

/-- The first straight apostrophe after an s, or between a word and an s, is curled. -/
def setApostrophe : List Char → List Char
  | [] => []
  | [c] => [c]
  | c :: d :: s =>
    if d = '\'' && (c == 's' || (isWord c && s.head? == some 's')) then c :: '\u2019' :: s
    else c :: setApostrophe (d :: s)

/-- A character of a number. -/
def isNumberChar (c : Char) : Bool := isAsciiDigit c || c == '.'

/-- Where a scan for minus signs stands. -/
inductive MinusState
  /-- After a character that a minus sign may follow. -/
  | ready
  /-- After a character that a minus sign may not follow. -/
  | blocked
  /-- In the number after a minus sign. -/
  | number
  deriving DecidableEq, Repr

/-- A hyphen that no word character precedes becomes a minus sign if a number follows. -/
def setMinus (state : MinusState) : List Char → List Char
  | [] => []
  | c :: s =>
    if state = .number && isNumberChar c then c :: setMinus .number s
    else if state = .ready && c == '-' && (s.head?.map isNumberChar).getD false then
      "$-$".toList ++ setMinus .number s
    else c :: setMinus (if isWord c then .blocked else .ready) s

/-- The TeX form of a text in which no URLs are looked for. -/
def escapeText (s : List Char) : List Char :=
  setMinus .ready (setApostrophe (closeQuotes none (openQuotes none (setTies (tidyNewlines (escapeSpecials s))))))

/-- The TeX form of a text, its URLs wrapped in a command that lets them break. -/
def escapeWithUrls (s : List Char) : List Char :=
  (segments urlLength? s).flatMap fun piece =>
    let escaped := escapeText piece.text
    if piece.marked && !escaped.isEmpty then "\\nolinkurl\x7b".toList ++ escaped ++ ['\x7d'] else escaped

/-- A letter of the Latin script, in the blocks that hold nearly all of them. -/
def isLatin (c : Char) : Bool :=
  isAsciiLetter c || ('\u00C0' ≤ c && c ≤ '\u024F') || ('\u1E00' ≤ c && c ≤ '\u1EFF')

/-- A printable ASCII character that is no letter; such characters stay with the Latin words around them. -/
def isLatinSeparator (c : Char) : Bool := ' ' ≤ c && c ≤ '~' && !isAsciiLetter c

/-- The length of the stretch of Latin words at the start of a text: it begins and ends with a Latin letter. -/
def latinLength? (_ : Option Char) (s : List Char) : Option Nat :=
  if (s.head?.map isLatin).getD false then
    let run := s.takeWhile fun c => isLatin c || isLatinSeparator c
    some (run.reverse.dropWhile (! isLatin ·)).length
  else none

/-- How text is escaped: whether URLs are looked for, and whether Latin words need a font of their own. -/
structure TextStyle where
  urls : Bool := true
  latinFont : Bool := false
  deriving DecidableEq, Repr

/-- The TeX form of a text without regard to fonts. -/
def TextStyle.escapePlain (style : TextStyle) (s : List Char) : List Char :=
  if style.urls then escapeWithUrls s else escapeText s

/-- The TeX form of a text in the given style. -/
def TextStyle.escape (style : TextStyle) (s : List Char) : List Char :=
  if style.latinFont then
    (segments latinLength? s).flatMap fun piece =>
      if piece.marked then "\x7b\\latinfont ".toList ++ style.escapePlain piece.text ++ ['\x7d']
      else style.escapePlain piece.text
  else style.escapePlain s

/-- A backslash before every character that satisfies `p`. -/
def backslashed (p : Char → Bool) (s : List Char) : List Char := s.flatMap fun c => if p c then ['\\', c] else [c]

/-- The form of a URL inside a link command. -/
def escapeUrl (s : List Char) : List Char := backslashed (fun c => c == '#' || c == '%' || c == '\\') s

/-- The form of a file name inside an image command. -/
def escapeFileName (s : List Char) : List Char := backslashed (fun c => c == '%' || c == '\\' || c == '_') s

/-- The TeX form of a string with its URLs wrapped. -/
def escapeString (s : String) : String := String.ofList (escapeWithUrls s.toList)

end WikiTypeset.Latex
