import WikiTypeset.Number.Double

/-!
# Decimal text of doubles

A double is written with the fewest digits that read back as the same double, or with a fixed number of places.
-/

namespace WikiTypeset.Double

/-- A decimal number `digits * 10 ^ exponent`. -/
structure Decimal where
  digits : Nat
  exponent : Int
  deriving DecidableEq, Repr

/-- The numerator and denominator of a decimal number. -/
def Decimal.fraction (d : Decimal) : Nat × Nat :=
  if 0 ≤ d.exponent then (d.digits * Nat.pow 10 d.exponent.toNat, 1) else (d.digits, Nat.pow 10 (-d.exponent).toNat)

/-- How far apart two fractions are. -/
def distance (a b : Nat × Nat) : Nat × Nat :=
  let x := a.1 * b.2
  let y := b.1 * a.2
  (if x ≤ y then y - x else x - y, a.2 * b.2)

/-- Whether a fraction is less than another or equal to it. -/
def fractionLe (a b : Nat × Nat) : Bool := a.1 * b.2 ≤ b.1 * a.2

/-- The neighbours of a fraction on the grid of multiples of `10 ^ exponent`, from below and from above. -/
def neighbours (x : Nat × Nat) (exponent : Int) : List Decimal :=
  let below :=
    if 0 ≤ exponent then x.1 / (x.2 * Nat.pow 10 exponent.toNat) else x.1 * Nat.pow 10 (-exponent).toNat / x.2
  [⟨below, exponent⟩, ⟨below + 1, exponent⟩]

/-- The decimal exponent of a positive fraction: `10 ^ e ≤ x < 10 ^ (e + 1)`. -/
def decimalExponent (x : Nat × Nat) : Int :=
  let whole := x.1 / x.2
  if 0 < whole then ((Nat.toDigits 10 whole).length : Int) - 1
  else
    -- the quotient of the denominator tells how many zeros follow the point
    let zeros := (Nat.toDigits 10 (x.2 / x.1)).length
    if x.2 ≤ x.1 * Nat.pow 10 (zeros - 1) then -((zeros : Int) - 1) else -(zeros : Int)

/-- The nearer of two neighbours that read back, if one does. -/
def nearestHit? (x : Nat × Nat) (reads : Decimal → Bool) (candidates : List Decimal) : Option Decimal :=
  match candidates.filter reads with
  | [] => none
  | [d] => some d
  | d :: e :: _ => some (if fractionLe (distance x d.fraction) (distance x e.fraction) then d else e)

/-- The shortest decimal number that reads back as the positive double `mantissa * 2 ^ exponent`. -/
def shortest (mantissa : Nat) (exponent : Int) : Decimal :=
  let x := fraction mantissa exponent
  let e := decimalExponent x
  let reads (d : Decimal) : Bool := ofDecimal false d.digits d.exponent == finite false mantissa exponent
  ((List.range 17).findSome? fun (n : Nat) => nearestHit? x reads (neighbours x (e - n))).getD ⟨0, 0⟩

/-- The digits of a number without zeros at the end, and the number of zeros left out. -/
def significant (n : Nat) : List Char × Nat :=
  let digits := Nat.toDigits 10 n
  let zeros := (digits.reverse.takeWhile (· == '0')).length
  (digits.take (digits.length - zeros), zeros)

/-- A positive number by its significant digits and the place of its point, counted from the first digit:
positional from four zeros after the point up to sixteen digits before it, with an exponent of at least two digits
elsewhere. -/
def decimalText (digits : List Char) (point : Int) : List Char :=
  if -4 < point ∧ point ≤ 16 then
    if point ≤ 0 then "0.".toList ++ List.replicate (-point).toNat '0' ++ digits
    else
      let n := point.toNat
      let whole := digits.take n ++ List.replicate (n - digits.length) '0'
      let places := digits.drop n
      whole ++ '.' :: (if places.isEmpty then ['0'] else places)
  else
    let e := point - 1
    let size := Nat.toDigits 10 e.natAbs
    let places := digits.drop 1
    digits.take 1 ++ (if places.isEmpty then [] else '.' :: places) ++ 'e' :: (if e < 0 then '-' else '+') ::
      List.replicate (2 - size.length) '0' ++ size

/-- The shortest text of a double that reads back. -/
def text : Double → String
  | finite negative m e =>
    let body :=
      if m = 0 then "0.0".toList
      else
        let d := shortest m e
        let (digits, zeros) := significant d.digits
        decimalText digits (digits.length + zeros + d.exponent)
    String.ofList (if negative then '-' :: body else body)
  | infinite negative => if negative then "-inf" else "inf"
  | nan => "nan"

/-- A double with a fixed number of places; a half goes to the even neighbour. -/
def fixedText (places : Nat) : Double → String
  | finite negative m e =>
    let (num, den) := fraction m e
    let digits := Nat.toDigits 10 (roundHalfEven (num * Nat.pow 10 places) den)
    let digits := List.replicate (places + 1 - digits.length) '0' ++ digits
    let whole := digits.take (digits.length - places)
    let fractional := digits.drop (digits.length - places)
    let body := if places = 0 then whole else whole ++ '.' :: fractional
    String.ofList (if negative then '-' :: body else body)
  | infinite negative => if negative then "-inf" else "inf"
  | nan => "nan"

end WikiTypeset.Double
