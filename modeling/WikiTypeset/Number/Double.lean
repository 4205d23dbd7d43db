/-!
# Double-precision numbers

Binary numbers with 53 bits of precision, as exact values: every operation gives the double nearest to the exact
result, and a tie goes to the even mantissa. Main definitions: `Double`, `Double.nearest`, and the operations.
-/

namespace WikiTypeset

/-- The whole number nearest to `num / den`; a half goes to the even neighbour. -/
def roundHalfEven (num den : Nat) : Nat :=
  let q := num / den
  let r := num % den
  if 2 * r < den then q
  else if den < 2 * r then q + 1
  else q + q % 2

/-- A double: a signed number `mantissa * 2 ^ exponent`, an infinity, or no number. -/
inductive Double
  | finite (negative : Bool) (mantissa : Nat) (exponent : Int)
  | infinite (negative : Bool)
  | nan
  deriving DecidableEq, Repr, Inhabited

namespace Double

/-- Zero. -/
def zero : Double := finite false 0 0

/-- The numerator and denominator of `mantissa * 2 ^ exponent`. -/
def fraction (mantissa : Nat) (exponent : Int) : Nat × Nat :=
  if 0 ≤ exponent then (mantissa * Nat.pow 2 exponent.toNat, 1) else (mantissa, Nat.pow 2 (-exponent).toNat)

/-- The nearest whole number to `num / den / 2 ^ exponent`. -/
def scaled (num den : Nat) (exponent : Int) : Nat :=
  if 0 ≤ exponent then roundHalfEven num (den * Nat.pow 2 exponent.toNat)
  else roundHalfEven (num * Nat.pow 2 (-exponent).toNat) den

/-- The exponent of the unit in the last place at `num / den`: the mantissa has 53 bits, unless that would take an
exponent below the least one. -/
def unitExponent (num den : Nat) : Int :=
  let guess : Int := (num.log2 : Int) - den.log2 - 52
  let (n, d) := fraction 1 (guess + 52)
  -- the quotient lies between half and twice the power of two of the guess
  max (-1074) (if num * d < den * n then guess - 1 else guess)

/-- The double nearest to `num / den`, where `den` is not zero. -/
def nearest (negative : Bool) (num den : Nat) : Double :=
  if num = 0 then finite negative 0 0
  else
    let e := unitExponent num den
    let m := scaled num den e
    if Nat.pow 2 53 ≤ m then
      if 971 ≤ e then infinite negative else finite negative (m / 2) (e + 1)
    else if 971 < e then infinite negative
    else finite negative m e

/-- The double nearest to `digits * 10 ^ exponent`. -/
def ofDecimal (negative : Bool) (digits : Nat) (exponent : Int) : Double :=
  let size : Int := (Nat.toDigits 10 digits).length + exponent
  if digits = 0 || size < -400 then finite negative 0 0
  else if 400 < size then infinite negative
  else if 0 ≤ exponent then nearest negative (digits * Nat.pow 10 exponent.toNat) 1
  else nearest negative digits (Nat.pow 10 (-exponent).toNat)

/-- The double nearest to a whole number. -/
def ofInt (n : Int) : Double := nearest (decide (n < 0)) n.natAbs 1

/-- The exact value of a double that has one. -/
def toRat? : Double → Option Rat
  | finite negative m e =>
    let (n, d) := fraction m e
    some (if negative then -((n : Rat) / d) else (n : Rat) / d)
  | _ => none

/-- The double nearest to an exact value; `negativeZero` is the sign of a zero. -/
def ofRat (negativeZero : Bool) (x : Rat) : Double :=
  nearest (if x.num = 0 then negativeZero else decide (x.num < 0)) x.num.natAbs x.den

/-- Whether the sign is negative. -/
def isNegative : Double → Bool
  | finite negative _ _ | infinite negative => negative
  | nan => false

/-- Whether the number is a zero. -/
def isZero : Double → Bool
  | finite _ m _ => m = 0
  | _ => false

/-- The sum. -/
def add (x y : Double) : Double :=
  match x.toRat?, y.toRat? with
  | some a, some b => ofRat (x.isNegative && y.isNegative) (a + b)
  | some _, none => y
  | none, some _ => x
  | none, none => if x = y then x else nan

/-- The product. -/
def mul (x y : Double) : Double :=
  let negative := x.isNegative != y.isNegative
  match x.toRat?, y.toRat? with
  | some a, some b => ofRat negative (a * b)
  | _, _ => if x = nan || y = nan || x.isZero || y.isZero then nan else infinite negative

/-- The quotient; a division by zero gives no number. -/
def div (x y : Double) : Double :=
  let negative := x.isNegative != y.isNegative
  match x, y, x.toRat?, y.toRat? with
  | _, _, some a, some b => if b = 0 then nan else ofRat negative (a / b)
  | infinite _, _, _, some _ => infinite negative
  | _, infinite _, some _, _ => finite negative 0 0
  | _, _, _, _ => nan

instance : Add Double := ⟨add⟩
instance : Mul Double := ⟨mul⟩
instance : Div Double := ⟨div⟩
instance : IntCast Double := ⟨ofInt⟩

/-- Whether `x` is at most `y`; nothing is comparable to what is no number. -/
def le : Double → Double → Bool
  | nan, _ | _, nan => false
  | infinite true, _ | _, infinite false => true
  | infinite false, _ | _, infinite true => false
  | x, y =>
    match x.toRat?, y.toRat? with
    | some a, some b => a ≤ b
    | _, _ => false

end Double

end WikiTypeset
