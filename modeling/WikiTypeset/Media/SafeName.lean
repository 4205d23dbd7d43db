import WikiTypeset.Text.CharClass

/-!
# Safe file names

A file name that TeX reads without trouble: ASCII letters, digits, colons and hyphens, one dot before the
extension, and at most 64 characters, counted from the end so that the extension survives.
-/

namespace WikiTypeset.Media

open Text

/-- The longest safe name. -/
def safeLength : Nat := 64

/-- A character that a safe name keeps. -/
def isSafe (c : Char) : Bool := isAsciiAlphanumeric c || c == '.' || c == ':'

/-- Every run of unsafe characters replaced by one hyphen; `afterUnsafe` says that such a run is under way. -/
def hyphenated (afterUnsafe : Bool) : List Char → List Char
  | [] => []
  | c :: s =>
    if isSafe c then c :: hyphenated false s
    else if afterUnsafe then hyphenated true s
    else '-' :: hyphenated true s

/-- The extension of a name: its last dot and at least one character after it, or nothing. -/
def extension (s : List Char) : List Char :=
  let tail := s.reverse.takeWhile (· != '.')
  if tail.isEmpty || tail.length == s.length then [] else '.' :: tail.reverse

/-- Dots replaced by hyphens. -/
def undotted (s : List Char) : List Char := s.map fun c => if c = '.' then '-' else c

/-- The safe form of a file name. -/
def safeName (name : List Char) : List Char :=
  let clean := hyphenated false name
  let ext := extension clean
  let full := undotted (clean.take (clean.length - ext.length)) ++ ext
  full.drop (full.length - safeLength)

end WikiTypeset.Media
