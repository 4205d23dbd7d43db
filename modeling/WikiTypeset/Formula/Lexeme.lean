import WikiTypeset.Text.Blank
import WikiTypeset.Text.CharClass

/-!
# Lexemes of formulas

A formula is read as a row of lexemes: commands, brackets, ends and starts of environments and of nested math,
ligatures, and single characters. Blanks before a lexeme are skipped; two line feeds in a row among them are a
lexeme of their own. Main definition: `scan`.
-/

namespace WikiTypeset.Formula

open Text

/-- The two kinds of brackets that enclose arguments. -/
inductive Bracket
  | brace
  | square
  deriving DecidableEq, Repr

/-- A lexeme of a formula. -/
inductive Lexeme
  /-- An ordinary character. -/
  | char (c : Char)
  /-- Two line feeds in a row. -/
  | paragraph
  /-- An alignment mark, a tie, or characters that are set as one. -/
  | ligature (s : List Char)
  /-- A backslash with a word of letters, or with one other character. -/
  | command (name : List Char)
  | opening (bracket : Bracket)
  | closing (bracket : Bracket)
  /-- The start of inline or display math. -/
  | mathStart (display : Bool)
  /-- The end of inline or display math. -/
  | mathEnd (display : Bool)
  | envStart (name : List Char)
  | envEnd (name : List Char)
  deriving DecidableEq, Repr

/-- A lexeme, with the input from its first character on and the input after it. -/
structure Scanned where
  lexeme : Lexeme
  start : List Char
  rest : List Char
  deriving DecidableEq, Repr

/-- Whether the commands that start and end environments are read with the name of the environment, and whether
square brackets enclose. -/
structure ScanMode where
  environments : Bool := true
  squares : Bool := false
  deriving DecidableEq, Repr

/-- What stands after the blanks at the start of an input. -/
inductive AfterBlanks
  | paragraph (rest : List Char)
  | input (rest : List Char)
  deriving DecidableEq, Repr

/-- Skips blanks, up to two line feeds in a row; `afterNewline` says that the last one was a line feed. -/
def skipBlanks (afterNewline : Bool) : List Char → AfterBlanks
  | [] => .input []
  | c :: s =>
    if c = '\n' && afterNewline then .paragraph s
    else if isBlank c then skipBlanks (c = '\n') s
    else .input (c :: s)

/-- Skips the blanks after a command word, but not two line feeds in a row. -/
def skipSpace : List Char → List Char
  | [] => []
  | c :: s =>
    if c = '\n' && s.head? == some '\n' then c :: s
    else if isBlank c then skipSpace s
    else c :: s

/-- The characters of the name of an environment. -/
def isEnvChar (c : Char) : Bool := isWord c || ['*', ' ', '.', '-'].contains c

/-- The name of an environment in braces, and the input after it. -/
def envName? (s : List Char) : Option (List Char × List Char) :=
  match s.dropWhile isBlank with
  | '\x7b' :: s =>
    let name := s.takeWhile isEnvChar
    match s.drop name.length with
    | '\x7d' :: rest => if name.isEmpty then none else some (name, rest)
    | _ => none
  | _ => none

/-- The ligatures and special characters, longer ones first. -/
def ligatures : List (List Char) :=
  ["---".toList, "--".toList, ['\x60', '\x60'], ['\'', '\''], ['!', '\x60'], ['?', '\x60'], ['~'], ['&']]

/-- Why an input could not be read as a lexeme. -/
inductive ScanError
  /-- The command for an environment is not followed by a name in braces. -/
  | badEnvironment
  deriving DecidableEq, Repr

/-- The name of the command that begins after a backslash, and the input after it with the blanks that a command
word swallows. -/
def commandName (s : List Char) : List Char × List Char × List Char :=
  let word := s.takeWhile isLetter
  if word.isEmpty then (s.take 1, s.drop 1, s.drop 1)
  else (word, s.drop word.length, skipSpace (s.drop word.length))

/-- The lexeme that a backslash begins. `start` is the input from the backslash on, `s` the input after it. -/
def scanCommand (mode : ScanMode) (start s : List Char) : Except ScanError Scanned :=
  let (name, after, rest) := commandName s
  match name with
  | ['['] => .ok ⟨.mathStart true, start, after⟩
  | [']'] => .ok ⟨.mathEnd true, start, after⟩
  | ['('] => .ok ⟨.mathStart false, start, after⟩
  | [')'] => .ok ⟨.mathEnd false, start, after⟩
  | _ =>
    if mode.environments && (name == "begin".toList || name == "end".toList) then
      match envName? after with
      | some (env, rest) =>
        .ok ⟨if name == "begin".toList then .envStart env else .envEnd env, start, rest⟩
      | none => .error .badEnvironment
    else .ok ⟨.command name, start, rest⟩

/-- The next lexeme of an input; none at its end, where a lone backslash counts as the end. -/
def scan (mode : ScanMode) (s : List Char) : Except ScanError (Option Scanned) :=
  match skipBlanks false s with
  | .paragraph rest => .ok (some ⟨.paragraph, '\n' :: '\n' :: rest, rest⟩)
  | .input [] => .ok none
  | .input (c :: rest) =>
    let start := c :: rest
    match c with
    | '\\' => if rest.isEmpty then .ok none else (scanCommand mode start rest).map some
    | '\x7b' => .ok (some ⟨.opening .brace, start, rest⟩)
    | '\x7d' => .ok (some ⟨.closing .brace, start, rest⟩)
    | _ =>
      if mode.squares && c == '[' then .ok (some ⟨.opening .square, start, rest⟩)
      else if mode.squares && c == ']' then .ok (some ⟨.closing .square, start, rest⟩)
      else match ligatures.find? fun l => l.isPrefixOf start with
        | some l => .ok (some ⟨.ligature l, start, start.drop l.length⟩)
        | none => .ok (some ⟨.char c, start, rest⟩)

end WikiTypeset.Formula
