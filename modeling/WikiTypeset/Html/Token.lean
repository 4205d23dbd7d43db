import WikiTypeset.Html.Entity
import WikiTypeset.Text.LowerCase

/-!
# Tokens of markup

Markup is read leniently into tags, texts and comments: what cannot be read as anything else is text. The text of
scripts and style sheets reaches up to their end tag. The end of the input is looked at twice: what is incomplete
at first is text at last. Main definition: `tokens`.
-/

namespace WikiTypeset.Html

open Text

/-- A token of markup. -/
inductive Token
  | startTag (name : String) (attributes : List (String × String)) (closed : Bool)
  | endTag (name : String)
  | text (s : List Char)
  | literal (s : List Char)
  | comment (s : List Char)
  deriving DecidableEq, Repr

/-- Why markup could not be read. -/
inductive MarkupError
  /-- A marked section has no known kind. -/
  | badSection
  deriving DecidableEq, Repr

/-- The places of `s` where `p` holds of the rest, up to the first: the text before it and the rest from it on. -/
def splitAt? (p : List Char → Bool) : List Char → Option (List Char × List Char)
  | [] => if p [] then some ([], []) else none
  | c :: s => if p (c :: s) then some ([], c :: s) else (splitAt? p s).map fun (a, b) => (c :: a, b)

/-- The text before the first character `c`, and the text after it. -/
def splitAtChar? (c : Char) (s : List Char) : Option (List Char × List Char) :=
  (splitAt? (fun t => t.head? == some c) s).map fun (a, b) => (a, b.drop 1)

/-! ### Tags -/

/-- A character of a tag name after its first letter. -/
def isTagChar (c : Char) : Bool := c ∉ ['\t', '\n', '\r', '\x0c', ' ', '/', '>', '\x00']

/-- Whether a text begins with a blank or a slash that separates attributes. -/
def isSeparated : List Char → Bool
  | [] => false
  | c :: s => isBlank c || (c == '/' && s.head? != some '>')

/-- Skips blanks and slashes; a slash before a closing angle bracket stays. -/
def skipSeparators : List Char → List Char
  | [] => []
  | c :: s => if isSeparated (c :: s) then skipSeparators s else c :: s

/-- Whether a character is a quote. -/
def isQuote (c : Char) : Bool := c == '\'' || c == '"'

/-- A value without quotes, and the text after it. -/
def bareValue (s : List Char) : List Char × List Char :=
  let value := s.takeWhile fun c => c != '>' && !isBlank c
  (value, s.drop value.length)

/-- The value of an attribute, from the blanks before its equals sign on, and the text after it. A quote that is not
closed is no quote: then blanks before it make the value empty, and a second equals sign begins the value. -/
def attributeValue? (s : List Char) : Option (List Char × List Char) :=
  let s := s.dropWhile isBlank
  let equals := s.takeWhile (· == '=')
  let s := s.drop equals.length
  let blanks := s.takeWhile isBlank
  let u := s.drop blanks.length
  if equals.isEmpty then none
  else match u with
    | [] => some ([], [])
    | q :: t =>
      if !isQuote q then some (bareValue u)
      else match splitAtChar? q t, blanks.getLast? with
        | some quoted, _ => some quoted
        | none, some b => some ([], b :: u)
        | none, none => if equals.length < 2 then none else some (bareValue ('=' :: u))

/-- An attribute at the start of a text, whether another one may follow at once, and the text after it. One may
follow a quote. -/
def attribute? (s : List Char) : Option ((List Char × List Char) × Bool × List Char) :=
  match s with
  | [] => none
  | c :: t =>
    if isBlank c || c = '/' || c = '>' then none
    else
      let tail := t.takeWhile fun d => !isBlank d && d != '/' && d != '=' && d != '>'
      let rest := t.drop tail.length
      match attributeValue? rest with
      | some (value, rest) => some ((c :: tail, value), true, rest)
      | none => some ((c :: tail, []), isQuote (tail.getLast?.getD c), rest)

/-- The attributes at the start of a text and what follows them, given a bound on their number. An attribute may begin
after a separator, or where `mayBegin` says so. -/
def attributes : Nat → (mayBegin : Bool) → List Char → List (List Char × List Char) × List Char
  | 0, _, s => ([], s)
  | fuel + 1, mayBegin, s =>
    let start := skipSeparators s
    if !(mayBegin || isSeparated s) then ([], start)
    else match attribute? start with
      | none => ([], start)
      | some (a, mayFollow, rest) =>
        let (as, rest) := attributes fuel mayFollow rest
        (a :: as, rest)

/-- What became of a place in the input. -/
inductive Outcome
  /-- Tokens were read, and what follows them. -/
  | read (tokens : List Token) (rest : List Char)
  /-- The construct at this place does not end. -/
  | incomplete
  deriving DecidableEq, Repr

/-- A start tag, given a bound on the number of its attributes. The angle bracket has been read; `s` begins with a
letter. A tag that ends in something else than an angle bracket is text. -/
def startTag (fuel : Nat) (s : List Char) : Outcome :=
  let name := s.takeWhile isTagChar
  let (pairs, rest) := attributes fuel (isQuote (name.getLast?.getD '<')) (s.drop name.length)
  let tag (closed : Bool) : Token :=
    .startTag (String.ofList (lower name))
      (pairs.map fun (name, value) => (String.ofList (lower name), String.ofList (resolveReferences value))) closed
  match rest with
  | '>' :: rest => .read [tag false] rest
  | '/' :: '>' :: rest => .read [tag true] rest
  | c :: t =>
    if c = '/' || c = '=' || isAsciiLetter c then .incomplete
    else .read [.text ('<' :: s.take (s.length - rest.length))] (c :: t)
  | [] => .incomplete

/-- A character of the name in an end tag after its first letter. -/
def isEndTagChar (c : Char) : Bool := isAsciiAlphanumeric c || ['-', '.', ':', '_'].contains c

/-- The name in a well-formed end tag, and the text after the tag. The angle bracket and slash have been read. -/
def plainEndTag? (s : List Char) : Option (List Char × List Char) :=
  match s.dropWhile isBlank with
  | c :: t =>
    if isAsciiLetter c then
      let tail := t.takeWhile isEndTagChar
      match (t.drop tail.length).dropWhile isBlank with
      | '>' :: rest => some (c :: tail, rest)
      | _ => none
    else none
  | [] => none

/-- An end tag outside scripts and style sheets. The angle bracket and slash have been read. -/
def endTag (s : List Char) : Outcome :=
  match splitAtChar? '>' s with
  | none => .incomplete
  | some (content, rest) =>
    match plainEndTag? s with
    | some (name, rest) => .read [.endTag (String.ofList (lower name))] rest
    | none =>
      if (s.head?.map isAsciiLetter).getD false then
        .read [.endTag (String.ofList (lower (s.takeWhile isTagChar)))] rest
      else if s.head? == some '>' then .read [] rest
      else .read [.comment content] rest

/-! ### Comments, declarations and sections -/

/-- Whether a text begins with the given marks, each followed by any blanks, and a closing angle bracket. -/
def beginsWithMarks : List Char → List Char → Bool
  | [], s => s.head? == some '>'
  | m :: ms, s =>
    match s with
    | c :: t => c = m && beginsWithMarks ms (t.dropWhile isBlank)
    | [] => false

/-- The text before an ending of marks, and the text after the ending. -/
def upToMarks? (marks : List Char) (s : List Char) : Option (List Char × List Char) :=
  (splitAt? (beginsWithMarks marks) s).bind fun (content, rest) =>
    (splitAtChar? '>' rest).map fun (_, rest) => (content, rest)

/-- Whether a text begins with the two hyphens that end a comment, and then a closing angle bracket. -/
def endsComment (s : List Char) : Bool :=
  match s with
  | '-' :: '-' :: t => (t.dropWhile isBlank).head? == some '>'
  | _ => false

/-- A comment. Its start has been read. -/
def comment (s : List Char) : Outcome :=
  match splitAt? endsComment s with
  | some (content, rest) => .read [.comment content] ((rest.dropWhile (· != '>')).drop 1)
  | none => .incomplete

/-- A character of the name of a section after its first letter. -/
def isSectionChar (c : Char) : Bool := isAsciiAlphanumeric c || ['-', '_', '.'].contains c

/-- A marked section. Its angle bracket, exclamation mark and square bracket have been read. -/
def markedSection (s : List Char) : Except MarkupError Outcome :=
  match s with
  | [] => .ok .incomplete
  | c :: _ =>
    let name := if isAsciiLetter c then s.takeWhile isSectionChar else []
    if name.isEmpty then .error .badSection
    else if ((s.drop name.length).dropWhile isBlank).isEmpty then .ok .incomplete
    else
      let kind := String.ofList (name.map asciiLower)
      let content? :=
        if ["temp", "cdata", "ignore", "include", "rcdata"].contains kind then some (upToMarks? [']', ']'] s)
        else if ["if", "else", "endif"].contains kind then some (upToMarks? [']'] s)
        else none
      match content? with
      | none => .error .badSection
      | some none => .ok .incomplete
      | some (some (content, rest)) =>
        if (content.take 6).map asciiLower == "cdata[".toList then .ok (.read [.literal (content.drop 6)] rest)
        else .ok (.read [.comment content] rest)

/-- A declaration. Its angle bracket and exclamation mark have been read. -/
def declaration (s : List Char) : Except MarkupError Outcome :=
  match s with
  | '-' :: '-' :: t => .ok (comment t)
  | '[' :: t => markedSection t
  | _ =>
    let isDoctype := (s.take 7).map asciiLower == "doctype".toList
    match splitAtChar? '>' (if isDoctype then s.drop 7 else s) with
    | none => .ok .incomplete
    | some (content, rest) => .ok (.read [.comment content] rest)

/-- A processing instruction. Its angle bracket and question mark have been read. -/
def instruction (s : List Char) : Outcome :=
  match splitAtChar? '>' s with
  | none => .incomplete
  | some (content, rest) => .read [.comment content] rest

/-! ### Text -/

/-- The text before the end tag of a script or style sheet, which is `name`, and the text from the tag on. -/
def upToEndTag? (name : String) (s : List Char) : Option (List Char × List Char) :=
  splitAt? (fun t =>
    match t with
    | '<' :: '/' :: t =>
      let t := t.dropWhile isBlank
      (t.take name.length).map asciiLower == name.toList &&
        ((t.drop name.length).dropWhile isBlank).head? == some '>'
    | _ => false) s

/-- A numeric reference in text, after its number sign. The character after the digits may be no hexadecimal
digit, and must be there. -/
def textNumber? (s : List Char) : Option (Char × List Char) :=
  match numericReference? s with
  | some (n, c :: rest) => if isHexDigit c then none else some (numbered n, dropSemicolon (c :: rest))
  | _ => none

/-- A character of a name in text after its first letter. -/
def isReferenceChar (c : Char) : Bool := isAsciiAlphanumeric c || c == '-' || c == '.'

/-- A name in text after an ampersand, and the text after it. Some character must follow the name; at the end of
the input that is a hyphen or point of the name itself. -/
def referenceName? (s : List Char) : Option (List Char × List Char) :=
  match s with
  | [] => none
  | c :: t =>
    if !isAsciiLetter c then none
    else
      let tail := t.takeWhile isReferenceChar
      let rest := t.drop tail.length
      if !rest.isEmpty then some (c :: tail, rest)
      else
        let ending := tail.reverse.takeWhile isAsciiAlphanumeric
        if ending.length == tail.length then none
        else
          let n := tail.length - ending.length - 1
          some (c :: tail.take n, t.drop n)

/-- What a name in text stands for. -/
def namedText (name : List Char) : List Char := (entity? name).getD ('&' :: name)

/-- The state of the reader: what is left of the input, and the script or style sheet that is open. -/
structure Input where
  rest : List Char
  script : Option String := none
  deriving DecidableEq, Repr

/-- One step of the reader: tokens with the state after them, and whether it goes on from there. -/
structure Step where
  tokens : List Token
  input : Input
  goesOn : Bool
  deriving DecidableEq, Repr

/-- The step at an angle bracket that begins nothing complete: nothing before the end of the input is known, and
text once it is. -/
def incompleteStep (final : Bool) (input : Input) : Step :=
  if !final then ⟨[], input, false⟩
  else
    let s := input.rest.drop 1
    let text := match splitAtChar? '>' s with
      | some (content, _) => content ++ ['>']
      | none =>
        match splitAtChar? '<' s with
        | some (content, _) => content
        | none => []
    ⟨[.text ('<' :: text)], { input with rest := s.drop text.length }, true⟩

/-- The step at an angle bracket. -/
def bracketStep (fuel : Nat) (final : Bool) (input : Input) (s : List Char) : Except MarkupError Step := do
  let outcome ← match s with
    | '/' :: t => pure (some (endTag t))
    | '!' :: t => some <$> declaration t
    | '?' :: t => pure (some (instruction t))
    | c :: _ => pure (if isAsciiLetter c then some (startTag fuel s) else none)
    | [] => pure none
  match outcome with
  | some .incomplete => return incompleteStep final input
  | some (.read tokens rest) =>
    let script := match tokens with
      | [.startTag name _ false] => if name = "script" || name = "style" then some name else none
      | _ => none
    return ⟨tokens, ⟨rest, script⟩, true⟩
  | none => if s.isEmpty then return ⟨[], input, false⟩ else return ⟨[.text ['<']], { input with rest := s }, true⟩

/-- The step at an ampersand. -/
def ampersandStep (final : Bool) (input : Input) (s : List Char) : Step :=
  match s with
  | '#' :: t =>
    match textNumber? t with
    | some (c, rest) => ⟨[.text [c]], { input with rest }, true⟩
    | none => if t.contains ';' then ⟨[.text ['&', '#']], { input with rest := t }, false⟩ else ⟨[], input, false⟩
  | _ =>
    match referenceName? s with
    | some (name, rest) => ⟨[.text (namedText name)], { input with rest := dropSemicolon rest }, true⟩
    | none =>
      if (s.head?.map isAsciiLetter).getD false then
        if final && s.length == 1 then ⟨[], { input with rest := s }, false⟩ else ⟨[], input, false⟩
      else if s.isEmpty then ⟨[], input, false⟩
      else ⟨[.text ['&']], { input with rest := s }, true⟩

/-- One step of the reader, given a bound on the length of the input; `final` says that the input is known to end
here. -/
def step (fuel : Nat) (final : Bool) (input : Input) : Except MarkupError Step :=
  match input.script with
  | some name =>
    match upToEndTag? name input.rest with
    | none => .ok ⟨[], input, false⟩
    | some (text, rest) =>
      .ok ⟨(if text.isEmpty then [] else [.text text]) ++ [.endTag name], ⟨(rest.dropWhile (· != '>')).drop 1, none⟩,
        true⟩
  | none =>
    let text := input.rest.takeWhile fun c => c != '<' && c != '&'
    if !text.isEmpty then .ok ⟨[.text text], { input with rest := input.rest.drop text.length }, true⟩
    else match input.rest with
      | '<' :: s => bracketStep fuel final input s
      | '&' :: s => .ok (ampersandStep final input s)
      | _ => .ok ⟨[], input, false⟩

/-- Steps until one does not go on, given a bound on their number. -/
def steps (final : Bool) : Nat → Input → Except MarkupError (List Token × Input)
  | 0, input => .ok ([], input)
  | fuel + 1, input => do
    let s ← step fuel final input
    if s.goesOn then
      let (tokens, input) ← steps final fuel s.input
      return (s.tokens ++ tokens, input)
    else return (s.tokens, s.input)

/-- The tokens of markup. -/
def tokens (s : List Char) : Except MarkupError (List Token) := do
  let (first, input) ← steps false (s.length + 1) { rest := s }
  let (second, input) ← steps true (input.rest.length + 1) input
  let last := if input.script.isNone && !input.rest.isEmpty then [.text input.rest] else []
  return first ++ second ++ last

end WikiTypeset.Html
