import WikiTypeset.Text.Blank
import WikiTypeset.Text.CharClass

/-!
# URLs in running text

A liberal recogniser of URLs. One begins at a word boundary with a scheme and a colon, with `www.`, or with a
host name and a slash. Its body consists of characters that are neither blank nor brackets, and of
parenthesised groups that hold such characters and, one level deeper, further groups. It ends in a group or
in a character that is no punctuation. Letters are compared without regard to case. Main definition:
`urlLength?`.
-/

namespace WikiTypeset.Latex

open Text

/-- A character of a URL outside parentheses. -/
def isUrlChar (c : Char) : Bool := !isBlank c && c ∉ ['(', ')', '<', '>']

/-- A character that a URL may end in. -/
def isUrlEnd (c : Char) : Bool :=
  isUrlChar c &&
    c ∉ ['\x60', '!', '[', ']', '\x7b', '\x7d', ';', ':', '\'', '"', '.', ',', '?', '«', '»', '“', '”', '‘', '’']

/-- A letter of a scheme or host name: an ASCII letter, or one of the four that differ from one only in case. -/
def isUrlLetter (c : Char) : Bool :=
  isAsciiLetter c || ['\u0130', '\u0131', '\u017F', '\u212A'].contains c

/-- Where a scan stands inside a parenthesised group. -/
inductive GroupState
  /-- In the group itself. -/
  | outer
  /-- Just inside a group within the group. -/
  | innerStart
  /-- Further inside a group within the group. -/
  | inner
  deriving DecidableEq, Repr

/-- The length of the rest of a parenthesised group, its closing parenthesis included. -/
def groupLength? : GroupState → List Char → Option Nat
  | _, [] => none
  | .outer, c :: s =>
    if c = ')' then some 1
    else if c = '(' then (groupLength? .innerStart s).map (· + 1)
    else if isUrlChar c then (groupLength? .outer s).map (· + 1)
    else none
  | .innerStart, c :: s => if isUrlChar c then (groupLength? .inner s).map (· + 1) else none
  | .inner, c :: s =>
    if c = ')' then (groupLength? .outer s).map (· + 1)
    else if isUrlChar c then (groupLength? .inner s).map (· + 1)
    else none

/-- The length of the parenthesised group at the start of a text. -/
def openGroupLength? : List Char → Option Nat
  | '(' :: s => (groupLength? .outer s).map (· + 1)
  | _ => none

/-- The length of the longest start of `s` that ends in a character a URL may end in. -/
def lengthToEnd? (s : List Char) : Option Nat :=
  let rest := s.reverse.dropWhile fun c => !isUrlEnd c
  if rest.isEmpty then none else some rest.length

/-- The length of the last part of a URL: a group or a single character. -/
def endLength? : List Char → Option Nat
  | [] => none
  | c :: s => if c = '(' then openGroupLength? (c :: s) else if isUrlEnd c then some 1 else none

/-- The length of the body of a URL: at least one run of characters or group, then the last part. A run gives
back characters only when nothing after it can be the last part. -/
def bodyLength? : List Char → Option Nat
  | [] => none
  | c :: s =>
    if isUrlChar c then
      let run := s.takeWhile isUrlChar
      let rest := s.dropWhile isUrlChar
      match bodyLength? rest <|> openGroupLength? rest with
      | some n => some (1 + run.length + n)
      | none => (lengthToEnd? run).map (1 + ·)
    else if c = '(' then
      (groupLength? .outer s).bind fun n =>
        let rest := s.drop n
        (bodyLength? rest <|> endLength? rest).map (1 + n + ·)
    else none
  termination_by s => s.length
  decreasing_by
    · have := (List.dropWhile_sublist isUrlChar (l := s)).length_le
      simp only [List.length_cons]; omega
    · simp only [List.length_drop, List.length_cons]; omega

/-- The lengths of a scheme with its colon and up to three slashes, or one letter, digit or percent sign. -/
def schemeLengths : List Char → List Nat
  | [] => []
  | c :: s =>
    let name := s.takeWhile fun c => isWord c || c == '-'
    match s.drop name.length with
    | ':' :: rest =>
      let n := name.length + 2
      if !isUrlLetter c || name.isEmpty then []
      else match rest with
        | '/' :: '/' :: '/' :: _ => [n + 3, n + 2, n + 1]
        | '/' :: '/' :: _ => [n + 2, n + 1]
        | '/' :: _ => [n + 1]
        | d :: _ => if isUrlLetter d || isAsciiDigit d || d == '%' then [n + 1] else []
        | [] => []
    | _ => []

/-- The length of `www`, at most three digits and a point. -/
def wwwLengths (s : List Char) : List Nat :=
  if (s.take 3).map toLowerW != ['w', 'w', 'w'] then []
  else
    let digits := (s.drop 3).takeWhile isDecimal
    if digits.length ≤ 3 && (s.drop (3 + digits.length)).head? == some '.' then [4 + digits.length] else []
where
  /-- The small letter for the one letter that matters here. -/
  toLowerW (c : Char) : Char := if c = 'W' then 'w' else c

/-- The length of a host name that ends in two to four letters after its last point, with the slash after it. -/
def hostLengths (s : List Char) : List Nat :=
  let host := s.takeWhile fun c => isUrlLetter c || isAsciiDigit c || c == '.' || c == '-'
  let domain := host.reverse.takeWhile (· != '.')
  if (s.drop host.length).head? == some '/' && domain.all isUrlLetter && 2 ≤ domain.length && domain.length ≤ 4
      && domain.length + 2 ≤ host.length then
    [host.length + 1]
  else []

/-- Whether a word begins or ends between `previous` and the start of `s`. -/
def atWordBoundary (previous : Option Char) (s : List Char) : Bool :=
  (previous.map isWord).getD false != (s.head?.map isWord).getD false

/-- The length of the URL that begins at the start of `s`, which follows `previous`. -/
def urlLength? (previous : Option Char) (s : List Char) : Option Nat :=
  if atWordBoundary previous s then
    (schemeLengths s ++ wwwLengths s ++ hostLengths s).findSome? fun n => (bodyLength? (s.drop n)).map (n + ·)
  else none

end WikiTypeset.Latex
