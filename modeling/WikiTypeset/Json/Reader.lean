import WikiTypeset.Json.Value
import WikiTypeset.Text.CharClass

/-!
# Structured values from text

The reader accepts one value with blanks around it. Of two fields with one name the later value counts, at the place
of the earlier. Infinities and the absence of a number are accepted by name. Main definition: `Json.read?`.
-/

namespace WikiTypeset.Json

open Text

/-- The blanks between the marks of a value. -/
def isGap (c : Char) : Bool := c == ' ' || c == '\t' || c == '\n' || c == '\r'

/-- A text without gaps at its start. -/
def skipGaps (s : List Char) : List Char := s.dropWhile isGap

/-- The number of four hexadecimal digits at the start of a text, and the text after them. -/
def fourDigits? (s : List Char) : Option (Nat × List Char) :=
  let digits := s.take 4
  if digits.length = 4 && digits.all isHexDigit then some (digitsValue 16 digits, s.drop 4) else none

/-- The character of an escape by number, whose first four digits are `n`; the two halves of a pair make one
character, and a half without the other is replaced. -/
def escapedNumber (n : Nat) (s : List Char) : Char × List Char :=
  if 0xD800 ≤ n && n < 0xDC00 then
    match s with
    | '\\' :: 'u' :: t =>
      match fourDigits? t with
      | some (m, rest) =>
        if 0xDC00 ≤ m && m < 0xE000 then (Char.ofNat (0x10000 + (n - 0xD800) * 0x400 + (m - 0xDC00)), rest)
        else ('\uFFFD', s)
      | none => ('\uFFFD', s)
    | _ => ('\uFFFD', s)
  else if 0xDC00 ≤ n && n < 0xE000 then ('\uFFFD', s)
  else (Char.ofNat n, s)

/-- The character of an escape after its backslash, and the text after it. -/
def escaped? : List Char → Option (Char × List Char)
  | '"' :: s => some ('"', s)
  | '\\' :: s => some ('\\', s)
  | '/' :: s => some ('/', s)
  | 'b' :: s => some ('\x08', s)
  | 'f' :: s => some ('\x0c', s)
  | 'n' :: s => some ('\n', s)
  | 'r' :: s => some ('\r', s)
  | 't' :: s => some ('\t', s)
  | 'u' :: s => (fourDigits? s).map fun (n, rest) => escapedNumber n rest
  | _ => none

/-- The rest of a text in quotes, up to and without its closing quote, and what follows; `read` holds, in reverse,
what has been read. The first argument bounds the number of characters. -/
def quotedRest? : Nat → List Char → List Char → Option (List Char × List Char)
  | 0, _, _ => none
  | _, _, [] => none
  | fuel + 1, read, c :: s =>
    if c = '"' then some (read.reverse, s)
    else if c = '\\' then (escaped? s).bind fun (d, rest) => quotedRest? fuel (d :: read) rest
    else if c.toNat < 0x20 then none
    else quotedRest? fuel (c :: read) s

/-- A text in quotes, after its opening quote. -/
def string? (s : List Char) : Option (String × List Char) :=
  (quotedRest? (s.length + 1) [] s).map fun (cs, rest) => (String.ofList cs, rest)

/-- The digits at the start of a text, and the text after them. -/
def digits (s : List Char) : List Char × List Char := (s.takeWhile isAsciiDigit, s.dropWhile isAsciiDigit)

/-- The places after a point, if a point and a digit follow. -/
def places (s : List Char) : List Char × List Char :=
  match s with
  | '.' :: t => if (digits t).1.isEmpty then ([], s) else digits t
  | _ => ([], s)

/-- The exponent, if one follows. -/
def exponent? (s : List Char) : Option Int × List Char :=
  match s with
  | c :: t =>
    if c = 'e' || c = 'E' then
      let (negative, u) := match t with
        | '-' :: u => (true, u)
        | '+' :: u => (false, u)
        | u => (false, u)
      let (ds, rest) := digits u
      if ds.isEmpty then (none, s)
      else
        let n : Int := digitsValue 10 ds
        (some (if negative then -n else n), rest)
    else (none, s)
  | [] => (none, s)

/-- A number after its sign: a whole number has no leading zeros, and counts as real if it has places or an
exponent. -/
def number (negative : Bool) (s : List Char) : Option (Json × List Char) :=
  let (whole, rest) := match s with
    | '0' :: rest => (['0'], rest)
    | s => digits s
  if whole.isEmpty then none
  else
    let (ps, rest) := places rest
    let (e?, rest) := exponent? rest
    if ps.isEmpty && e?.isNone then
      let n : Int := digitsValue 10 whole
      some (int (if negative then -n else n), rest)
    else
      some (real (.ofDecimal negative (digitsValue 10 (whole ++ ps)) (e?.getD 0 - ps.length)), rest)

/-- The values that are written as words. -/
def wordValues : List (List Char × Json) :=
  [("null".toList, null), ("true".toList, bool true), ("false".toList, bool false), ("NaN".toList, real .nan),
   ("Infinity".toList, real (.infinite false)), ("-Infinity".toList, real (.infinite true))]

/-- A value written as a word. -/
def word? (s : List Char) : Option (Json × List Char) :=
  (wordValues.find? fun (w, _) => w.isPrefixOf s).map fun (w, v) => (v, s.drop w.length)

/-- An object's fields with one more. -/
def addField (fields : List (String × Json)) (name : String) (v : Json) : List (String × Json) :=
  if fields.any (·.1 == name) then fields.map fun f => if f.1 == name then (name, v) else f
  else fields ++ [(name, v)]

mutual

/-- A value at the start of a text, and the text after it. The first argument bounds the number of steps. -/
def value? : Nat → List Char → Option (Json × List Char)
  | 0, _ => none
  | fuel + 1, s =>
    match s with
    | '"' :: t => (string? t).map fun (x, rest) => (text x, rest)
    | '[' :: t =>
      match skipGaps t with
      | ']' :: rest => some (list [], rest)
      | u => items? fuel [] u
    | '\x7b' :: t =>
      match skipGaps t with
      | '\x7d' :: rest => some (object [], rest)
      | u => fields? fuel [] u
    | s =>
      match word? s with
      | some found => some found
      | none =>
        match s with
        | '-' :: t => number true t
        | s => number false s

/-- The items of a list from the next one on. -/
def items? : Nat → List Json → List Char → Option (Json × List Char)
  | 0, _, _ => none
  | fuel + 1, read, s =>
    match value? fuel s with
    | none => none
    | some (v, rest) =>
      match skipGaps rest with
      | ',' :: t => items? fuel (v :: read) (skipGaps t)
      | ']' :: t => some (list (v :: read).reverse, t)
      | _ => none

/-- The fields of an object from the next one on. -/
def fields? : Nat → List (String × Json) → List Char → Option (Json × List Char)
  | 0, _, _ => none
  | fuel + 1, read, s =>
    match s with
    | '"' :: t =>
      match string? t with
      | none => none
      | some (name, rest) =>
        match skipGaps rest with
        | ':' :: t =>
          match value? fuel (skipGaps t) with
          | none => none
          | some (v, rest) =>
            let read := addField read name v
            match skipGaps rest with
            | ',' :: t => fields? fuel read (skipGaps t)
            | '\x7d' :: t => some (object read, t)
            | _ => none
        | _ => none
    | _ => none

end

/-- The value that a text writes, if it writes one. -/
def read? (s : List Char) : Option Json :=
  match value? (s.length + 1) (skipGaps s) with
  | some (v, rest) => if (skipGaps rest).isEmpty then some v else none
  | none => none

end WikiTypeset.Json
