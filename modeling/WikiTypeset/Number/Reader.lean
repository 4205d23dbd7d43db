import WikiTypeset.Number.Double
import WikiTypeset.Text.Blank
import WikiTypeset.Text.CharClass
import WikiTypeset.Text.LowerCase

/-!
# Doubles from decimal text

A decimal number has a sign, digits with at most one point, and an exponent, all but the digits optional. Digits of
any script count, single underscores may stand between digits, and blanks around the number do not count. Main
definition: `Double.read?`.
-/

namespace WikiTypeset.Double

open Text

/-- A blank that may stand around a number. -/
def isMargin (c : Char) : Bool := isBlank c && !inRanges [(0x1C, 0x1F)] c.toNat

/-- A text without margins. -/
def withoutMargins (s : List Char) : List Char := ((s.dropWhile isMargin).reverse.dropWhile isMargin).reverse

/-- The ASCII digit for a digit of any script; other characters are unchanged. -/
def asciiDigit (c : Char) : Char := if isDecimal c then Char.ofNat (48 + decimalValue c) else c

/-- A text without the underscores between digits; none if an underscore stands elsewhere. -/
def joinDigits? (afterDigit : Bool) : List Char → Option (List Char)
  | [] => some []
  | '_' :: c :: s =>
    if afterDigit && isAsciiDigit c then (joinDigits? true s).map (c :: ·) else none
  | c :: s => if c = '_' then none else (joinDigits? (isAsciiDigit c) s).map (c :: ·)

/-- The sign at the start of a text, and the text after it. -/
def splitSign : List Char → Bool × List Char
  | '-' :: s => (true, s)
  | '+' :: s => (false, s)
  | s => (false, s)

/-- An exponent that makes up a whole text; the empty text is the exponent zero. -/
def exponent? (s : List Char) : Option Int :=
  match s with
  | [] => some 0
  | c :: t =>
    if c = 'e' || c = 'E' then
      let (negative, ds) := splitSign t
      if ds.isEmpty || !ds.all isAsciiDigit then none
      else
        let n : Int := digitsValue 10 ds
        some (if negative then -n else n)
    else none

/-- A number without a sign. -/
def magnitude? (negative : Bool) (s : List Char) : Option Double :=
  let word := String.ofList (s.map asciiLower)
  if word = "inf" || word = "infinity" then some (infinite negative)
  else if word = "nan" then some nan
  else
    let whole := s.takeWhile isAsciiDigit
    let rest := s.drop whole.length
    let (places, rest) := match rest with
      | '.' :: t => (t.takeWhile isAsciiDigit, t.dropWhile isAsciiDigit)
      | rest => ([], rest)
    if whole.isEmpty && places.isEmpty then none
    else (exponent? rest).map fun e => ofDecimal negative (digitsValue 10 (whole ++ places)) (e - places.length)

/-- The double that a text writes, if it writes one. -/
def read? (s : List Char) : Option Double :=
  (joinDigits? false ((withoutMargins s).map asciiDigit)).bind fun s =>
    let (negative, s) := splitSign s
    magnitude? negative s

end WikiTypeset.Double
