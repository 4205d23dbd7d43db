import WikiTypeset.Text.Ranges

/-!
# Blank characters

The characters that separate words: the ASCII spaces and separators, the next-line control, and the space,
line and paragraph separators of Unicode. Words, trimmed texts and lines are cut at them.
-/

namespace WikiTypeset.Text

/-- The blank code points, in ascending ranges. -/
def blankRanges : List (Nat × Nat) :=
  [(0x9, 0xD), (0x1C, 0x20), (0x85, 0x85), (0xA0, 0xA0), (0x1680, 0x1680), (0x2000, 0x200A),
   (0x2028, 0x2029), (0x202F, 0x202F), (0x205F, 0x205F), (0x3000, 0x3000)]

/-- Whether `c` separates words. -/
def isBlank (c : Char) : Bool := inRanges blankRanges c.toNat

/-- `s` without the blank characters at its start. -/
def trimStart (s : List Char) : List Char := s.dropWhile isBlank

/-- `s` without the blank characters at its end. -/
def trimEnd (s : List Char) : List Char := (s.reverse.dropWhile isBlank).reverse

/-- `s` without the blank characters at either end. -/
def trim (s : List Char) : List Char := trimEnd (trimStart s)

/-- The pieces of `s` between the characters that satisfy `p`; always one more than there are such characters. -/
def splitWhere (p : Char → Bool) : List Char → List (List Char)
  | [] => [[]]
  | c :: s =>
    if p c then [] :: splitWhere p s
    else match splitWhere p s with
      | [] => [[c]]
      | w :: ws => (c :: w) :: ws

/-- The maximal runs of characters that are not blank. -/
def words (s : List Char) : List (List Char) := (splitWhere isBlank s).filter (! ·.isEmpty)

/-- The characters that end a line: every vertical separator, alone or as the pair CR LF. -/
def isLineEnd (c : Char) : Bool :=
  inRanges [(0xA, 0xD), (0x1C, 0x1E), (0x85, 0x85), (0x2028, 0x2029)] c.toNat

/-- The lines of a text without their ends; a line end at the very end opens no further line. -/
def lines (s : List Char) : List (List Char) :=
  let rec go (line : List Char) : List Char → List (List Char)
    | [] => if line.isEmpty then [] else [line.reverse]
    | '\r' :: '\n' :: s => line.reverse :: go [] s
    | c :: s => if isLineEnd c then line.reverse :: go [] s else go (c :: line) s
  go [] s

/-- The texts of `parts` with `sep` between neighbours. -/
def joinWith (sep : List Char) : List (List Char) → List Char
  | [] => []
  | [w] => w
  | w :: ws => w ++ sep ++ joinWith sep ws

/-- Every line end written as a single line feed: CR LF and CR become LF. -/
def normalizeNewlines : List Char → List Char
  | [] => []
  | '\r' :: '\n' :: s => '\n' :: normalizeNewlines s
  | c :: s => (if c = '\r' then '\n' else c) :: normalizeNewlines s

end WikiTypeset.Text
