import WikiTypeset.Number.Reader

/-!
# Whole numbers from decimal text

A whole number has an optional sign and digits of any script, at most 4300 of them. Single underscores may stand
between digits, and blanks around the number do not count. Main definition: `Whole.read?`.
-/

namespace WikiTypeset.Whole

open Text

/-- The most digits that a number may have. -/
def digitLimit : Nat := 4300

/-- The whole number that a text writes, if it writes one. -/
def read? (s : List Char) : Option Int :=
  (Double.joinDigits? false ((Double.withoutMargins s).map Double.asciiDigit)).bind fun s =>
    let (negative, digits) := Double.splitSign s
    if digits.isEmpty || !digits.all isAsciiDigit || digitLimit < digits.length then none
    else
      let n : Int := digitsValue 10 digits
      some (if negative then -n else n)

end WikiTypeset.Whole
