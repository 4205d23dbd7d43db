import WikiTypeset.Html.EntityTable
import WikiTypeset.Text.Blank
import WikiTypeset.Text.CharClass
import WikiTypeset.Text.Ranges

/-!
# Character references

References to characters by name or number. In text a name counts with or without a semicolon, and an unknown name
stands for itself. In attribute values a few old names also count at the start of longer words, and numbers of
characters that no document may hold stand for nothing.
-/

namespace WikiTypeset.Html

open Text

/-- The code points of a table entry. -/
def codePoints (s : List Char) : List Char :=
  (splitWhere (· == '+') s).map fun digits => Char.ofNat (digitsValue 16 digits)

/-- The named characters: each name with what it stands for. -/
def entities : List (List Char × List Char) :=
  entityLines.flatMap fun line =>
    (words line.toList).map fun entry =>
      let name := entry.takeWhile (· != '=')
      (name, codePoints (entry.drop (name.length + 1)))

/-- The names that need no semicolon in attribute values. -/
def legacyNames : List (List Char) := legacyLines.flatMap fun line => words line.toList

/-- What a name stands for. -/
def entity? (name : List Char) : Option (List Char) := (entities.find? (·.1 == name)).map (·.2)

/-- What the numbers 128 to 159 stand for in references, where that is not the control character itself. -/
def windowsCharacters : List (Nat × Char) :=
  [(0x80, '\u20AC'), (0x82, '\u201A'), (0x83, '\u0192'), (0x84, '\u201E'), (0x85, '\u2026'), (0x86, '\u2020'),
    (0x87, '\u2021'), (0x88, '\u02C6'), (0x89, '\u2030'), (0x8A, '\u0160'), (0x8B, '\u2039'), (0x8C, '\u0152'),
    (0x8E, '\u017D'), (0x91, '\u2018'), (0x92, '\u2019'), (0x93, '\u201C'), (0x94, '\u201D'), (0x95, '\u2022'),
    (0x96, '\u2013'), (0x97, '\u2014'), (0x98, '\u02DC'), (0x99, '\u2122'), (0x9A, '\u0161'), (0x9B, '\u203A'),
    (0x9C, '\u0153'), (0x9E, '\u017E'), (0x9F, '\u0178')]

/-- The character of a number in a reference; a number of no character stands for the replacement character. -/
def numbered (n : Nat) : Char :=
  match windowsCharacters.find? (·.1 == n) with
  | some (_, c) => c
  | none => if n = 0 || 0x10FFFF < n || (0xD800 ≤ n && n ≤ 0xDFFF) then '\uFFFD' else Char.ofNat n

/-- Whether no document may hold the character of a number: most controls, and the noncharacters. -/
def isExcluded (n : Nat) : Bool :=
  inRanges [(0x1, 0x8), (0xB, 0xB), (0xE, 0x1F), (0x7F, 0x7F), (0xFDD0, 0xFDEF)] n || n % 0x10000 ≥ 0xFFFE

/-- The digits of a numeric reference after its number sign, with their base, and what follows them. -/
def numericReference? (s : List Char) : Option (Nat × List Char) :=
  match s with
  | 'x' :: t | 'X' :: t =>
    let digits := t.takeWhile isHexDigit
    if digits.isEmpty then none else some (digitsValue 16 digits, t.drop digits.length)
  | _ =>
    let digits := s.takeWhile isAsciiDigit
    if digits.isEmpty then none else some (digitsValue 10 digits, s.drop digits.length)

/-- A text without a semicolon at its start. -/
def dropSemicolon : List Char → List Char
  | ';' :: s => s
  | s => s

/-- A character of a name in an attribute value. -/
def isNameChar (c : Char) : Bool := c ∉ ['\t', '\n', '\x0c', ' ', '<', '&', '#', ';']

/-- The old name that a word begins with, the longest one, with what follows it. A whole word is not meant. -/
def legacyStart? (word : List Char) : Option (List Char × List Char) :=
  (List.range (word.length - 2)).findSome? fun i =>
    let n := word.length - 1 - i
    let name := word.take n
    if legacyNames.contains name then some (name, word.drop n) else none

/-- The characters that a reference in an attribute value stands for, and the text after the reference. The
ampersand has been read. -/
def attributeReference (s : List Char) : List Char × List Char :=
  match s with
  | '#' :: t =>
    match numericReference? t with
    | none => (['&'], s)
    | some (n, rest) =>
      let c := numbered n
      (if isExcluded n && n ≤ 0x10FFFF then [] else [c], dropSemicolon rest)
  | _ =>
    let name := (s.takeWhile isNameChar).take 32
    let rest := s.drop name.length
    if name.isEmpty then (['&'], s)
    else
      let closed := rest.head? == some ';'
      let word := if closed then name ++ [';'] else name
      let rest := if closed then rest.drop 1 else rest
      match (if closed || legacyNames.contains name then entity? name else none) with
      | some cs => (cs, rest)
      | none =>
        match legacyStart? word with
        | some (start, tail) => ((entity? start).getD [] ++ tail, rest)
        | none => ('&' :: word, rest)

/-- An attribute value with its references resolved, given a bound on their number. -/
def resolveUpTo : Nat → List Char → List Char
  | 0, s => s
  | _, [] => []
  | fuel + 1, c :: s =>
    if c = '&' then
      let (cs, rest) := attributeReference s
      cs ++ resolveUpTo fuel rest
    else c :: resolveUpTo fuel s

/-- An attribute value with its references resolved. -/
def resolveReferences (s : List Char) : List Char := resolveUpTo s.length s

end WikiTypeset.Html
