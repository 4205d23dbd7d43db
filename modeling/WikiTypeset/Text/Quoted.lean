import WikiTypeset.Bidi.ClassTable
import WikiTypeset.Text.Ranges

/-!
# Quoted text

The form in which messages quote a text: between single quotes, or double quotes where the text itself has
single quotes and no double ones, with backslash escapes for the quote, the backslash and all characters
that print nothing.
-/

namespace WikiTypeset.Text

/-- Assigned code points that have no glyph of their own: controls, format characters, private use and all
separators but the space. -/
def unprintableRanges : List (Nat × Nat) :=
  [(0x0, 0x1F), (0x7F, 0xA0), (0xAD, 0xAD), (0x600, 0x605), (0x61C, 0x61C), (0x6DD, 0x6DD), (0x70F, 0x70F),
   (0x890, 0x891), (0x8E2, 0x8E2), (0x1680, 0x1680), (0x180E, 0x180E), (0x2000, 0x200F), (0x2028, 0x202F),
   (0x205F, 0x2064), (0x2066, 0x206F), (0x3000, 0x3000), (0xE000, 0xF8FF), (0xFEFF, 0xFEFF),
   (0xFFF9, 0xFFFB), (0x110BD, 0x110BD), (0x110CD, 0x110CD), (0x13430, 0x13438), (0x1BCA0, 0x1BCA3),
   (0x1D173, 0x1D17A), (0xE0001, 0xE0001), (0xE0020, 0xE007F), (0xF0000, 0xFFFFD), (0x100000, 0x10FFFD)]

/-- Whether `c` prints as itself: it is assigned and no control, format character or foreign separator. -/
def isPrintable (c : Char) : Bool := (Bidi.assignedClass c).isSome && !inRanges unprintableRanges c.toNat

/-- The lower-case hexadecimal digits of `n`, with zeros in front up to `width` digits. -/
def hexDigits (width n : Nat) : List Char :=
  let digits := Nat.toDigits 16 n
  List.replicate (width - digits.length) '0' ++ digits

/-- One character of a quoted text. -/
def quoteChar (delimiter c : Char) : List Char :=
  if c = delimiter || c = '\\' then ['\\', c]
  else if c = '\n' then ['\\', 'n']
  else if c = '\r' then ['\\', 'r']
  else if c = '\t' then ['\\', 't']
  else if isPrintable c then [c]
  else if c.toNat < 0x100 then '\\' :: 'x' :: hexDigits 2 c.toNat
  else if c.toNat < 0x10000 then '\\' :: 'u' :: hexDigits 4 c.toNat
  else '\\' :: 'U' :: hexDigits 8 c.toNat

/-- The mark that stands around the quoted form of `s`. -/
def quoteMark (s : List Char) : Char := if s.contains '\'' && !s.contains '"' then '"' else '\''

/-- The quoted form of `s`. -/
def quoted (s : List Char) : List Char :=
  let mark := quoteMark s
  mark :: s.flatMap (quoteChar mark) ++ [mark]

/-- The quoted form of a string. -/
def quotedString (s : String) : String := String.ofList (quoted s.toList)

/-- A list of strings in square brackets, each quoted. -/
def quotedList (xs : List String) : String := "[" ++ String.intercalate ", " (xs.map quotedString) ++ "]"

end WikiTypeset.Text
