import WikiTypeset.Text.LetterTable

/-!
# Letters, digits and word characters

The classes of characters that the text rules of the library ask for, over all of Unicode.
-/

namespace WikiTypeset.Text

/-- Whether `c` is a letter of some script. -/
def isLetter (c : Char) : Bool := inRanges letterRanges c.toNat

/-- Whether `c` is a decimal digit of some script. -/
def isDecimal (c : Char) : Bool := inRanges decimalRanges c.toNat

/-- Whether `c` belongs to a word: a letter, a number or the underscore. -/
def isWord (c : Char) : Bool := c == '_' || isLetter c || inRanges numberRanges c.toNat

/-- Whether `c` is one of the ASCII digits. -/
def isAsciiDigit (c : Char) : Bool := '0' ≤ c && c ≤ '9'

/-- Whether `c` is one of the ASCII letters. -/
def isAsciiLetter (c : Char) : Bool := ('a' ≤ c && c ≤ 'z') || ('A' ≤ c && c ≤ 'Z')

/-- Whether `c` is an ASCII letter or digit. -/
def isAsciiAlphanumeric (c : Char) : Bool := isAsciiLetter c || isAsciiDigit c

/-- Whether `c` is a hexadecimal digit. -/
def isHexDigit (c : Char) : Bool := isAsciiDigit c || ('a' ≤ c && c ≤ 'f') || ('A' ≤ c && c ≤ 'F')

/-- The value of a hexadecimal digit, and zero for any other character. -/
def hexValue (c : Char) : Nat :=
  if isAsciiDigit c then c.toNat - 48
  else if 'a' ≤ c && c ≤ 'f' then c.toNat - 87
  else if 'A' ≤ c && c ≤ 'F' then c.toNat - 55
  else 0

/-- The value of a decimal digit of any script: its distance from the zero of its ten. -/
def decimalValue (c : Char) : Nat :=
  match decimalRanges.find? fun r => r.1 ≤ c.toNat && c.toNat ≤ r.2 with
  | some r => (c.toNat - r.1) % 10
  | none => 0

/-- The number that a row of digits writes in the given base. -/
def digitsValue (base : Nat) (digits : List Char) : Nat :=
  digits.foldl (fun n c => n * base + hexValue c) 0

end WikiTypeset.Text
