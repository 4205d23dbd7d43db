import WikiTypeset.Formula.Lexeme
import WikiTypeset.Formula.Signature

/-!
# Structure of formulas

A formula read as a tree: commands with their arguments, groups, environments and nested math. Reading fails
where something is closed that is not the innermost open thing, where the input ends inside something, and where
a mandatory argument is missing. Main definitions: `Node` and `read`.
-/

namespace WikiTypeset.Formula

/-- A part of a formula. -/
inductive Node
  | text (s : List Char)
  /-- A command with its arguments; a command that is itself an argument has none. -/
  | command (name : List Char) (args : List Node)
  | group (bracket : Bracket) (body : List Node)
  | math (display : Bool) (body : List Node)
  | environment (name : List Char) (args body : List Node)
  /-- Characters that are not read as lexemes. -/
  | verbatim (s : List Char)
  /-- An optional argument that is missing. -/
  | absent
  deriving Repr, Inhabited

/-- Why a formula has no structure. -/
inductive StructureError
  /-- The input ended inside something, or before a mandatory argument. -/
  | endOfInput
  /-- Something was closed that is not the innermost open thing. -/
  | mismatch
  | badEnvironment
  /-- The end of an environment where an argument is due. -/
  | endAsArgument
  /-- The closing delimiter of verbatim text is missing. -/
  | openVerbatim
  /-- The input ended before the delimiter of verbatim text. -/
  | noDelimiter
  /-- The formula is nested more deeply than its length allows. -/
  | tooDeep
  deriving DecidableEq, Repr

/-- What ends a row of nodes. -/
inductive Stop
  | endOfInput
  | closing (bracket : Bracket)
  | envEnd (name : List Char)
  | mathEnd (display : Bool)
  deriving DecidableEq, Repr

/-- The next lexeme, with the errors of structures. -/
def next (mode : ScanMode) (s : List Char) : Except StructureError (Option Scanned) :=
  match scan mode s with
  | .ok t => .ok t
  | .error .badEnvironment => .error .badEnvironment

/-- Verbatim text between two equal characters. -/
def readVerb (s : List Char) : Except StructureError (Node × List Char) :=
  match s.dropWhile Text.isBlank with
  | [] => .error .noDelimiter
  | delimiter :: s =>
    let content := s.takeWhile (· != delimiter)
    match s.drop content.length with
    | [] => .error .openVerbatim
    | _ :: rest => .ok (.command "verb".toList [.verbatim content], rest)

/-- The end of a verbatim environment. -/
def verbatimEnd : List Char := "\\end\x7bverbatim\x7d".toList

/-- The text before the end of a verbatim environment, and the input from there on. -/
def readVerbatim : List Char → Except StructureError (List Char × List Char)
  | [] => .error .openVerbatim
  | c :: s =>
    if verbatimEnd.isPrefixOf (c :: s) then .ok ([], c :: s)
    else (readVerbatim s).map fun (content, rest) => (c :: content, rest)

mutual

/-- Reads nodes up to `stop`, which is consumed. -/
def readNodes : Nat → Stop → List Char → Except StructureError (List Node × List Char)
  | 0, _, _ => .error .tooDeep
  | fuel + 1, stop, s => do
    match ← next { squares := stop = .closing .square } s with
    | none => if stop = .endOfInput then return ([], []) else throw .endOfInput
    | some t =>
      let continued (node : Node) (rest : List Char) : Except StructureError (List Node × List Char) := do
        let (nodes, rest) ← readNodes fuel stop rest
        return (node :: nodes, rest)
      match t.lexeme with
      | .char c => continued (.text [c]) t.rest
      | .paragraph => continued (.text ['\n', '\n']) t.rest
      | .ligature l => continued (.text l) t.rest
      | .closing bracket => if stop = .closing bracket then return ([], t.rest) else throw .mismatch
      | .envEnd name => if stop = .envEnd name then return ([], t.rest) else throw .mismatch
      | .mathEnd display => if stop = .mathEnd display then return ([], t.rest) else throw .mismatch
      | .opening bracket =>
        let (body, rest) ← readNodes fuel (.closing bracket) t.rest
        continued (.group bracket body) rest
      | .mathStart display =>
        let (body, rest) ← readNodes fuel (.mathEnd display) t.rest
        continued (.math display body) rest
      | .envStart name =>
        let (args, rest) ←
          if name = "verbatim".toList then do
            let (content, rest) ← readVerbatim t.rest
            pure ([.verbatim content], rest)
          else readArgs fuel (environmentSignature (String.ofList name)) t.rest
        let (body, rest) ← readNodes fuel (.envEnd name) rest
        continued (.environment name args body) rest
      | .command name =>
        if name = "verb".toList then do
          let (node, rest) ← readVerb t.rest
          continued node rest
        else do
          let (args, rest) ← readArgs fuel (commandSignature (String.ofList name)) t.rest
          continued (.command name args) rest

/-- Reads the arguments of a signature. -/
def readArgs : Nat → Signature → List Char → Except StructureError (List Node × List Char)
  | 0, _, _ => .error .tooDeep
  | fuel + 1, signature, s =>
    match signature.args with
    | [] => .ok ([], s)
    | kind :: kinds => do
      let (arg, rest) ← readArg fuel signature.tight kind s
      let (args, rest) ← readArgs fuel { signature with args := kinds } rest
      return (arg :: args, rest)

/-- Reads one argument. A closing brace where a mandatory argument is due is an empty argument and stays. -/
def readArg : Nat → Bool → ArgKind → List Char → Except StructureError (Node × List Char)
  | 0, _, _, _ => .error .tooDeep
  | fuel + 1, tight, kind, s => do
    match kind with
    | .star =>
      match ← next {} s with
      | none => throw .endOfInput
      | some t => if t.lexeme = .char '*' then return (.text ['*'], t.rest) else return (.absent, s)
    | .optional =>
      if tight && (s.head?.map Text.isBlank).getD false then return (.absent, s)
      match ← next { environments := false, squares := true } s with
      | some ⟨.opening .square, _, rest⟩ =>
        let (body, rest) ← readNodes fuel (.closing .square) rest
        return (.group .square body, rest)
      | _ => return (.absent, s)
    | .mandatory =>
      match ← next { environments := false } s with
      | none => throw .endOfInput
      | some t =>
        match t.lexeme with
        | .char c => return (.text [c], t.rest)
        | .paragraph => return (.text ['\n', '\n'], t.rest)
        | .ligature l => return (.text l, t.rest)
        | .opening bracket =>
          let (body, rest) ← readNodes fuel (.closing bracket) t.rest
          return (.group bracket body, rest)
        | .closing _ => return (.text [], t.start)
        | .command name => if name = "end".toList then throw .endAsArgument else return (.command name [], t.rest)
        | .mathStart display => return (.command (if display then ['['] else ['(']) [], t.rest)
        | .mathEnd display => return (.command (if display then [']'] else [')']) [], t.rest)
        | .envStart name | .envEnd name => return (.command name [], t.rest)

end

/-- The structure of a formula. -/
def read (s : List Char) : Except StructureError (List Node) :=
  (readNodes (8 * (s.length + 1)) .endOfInput s).map (·.1)

mutual

/-- The names of the commands in a node. -/
def Node.commandNames : Node → List (List Char)
  | .command name args => name :: commandNamesOf args
  | .group _ body | .math _ body => commandNamesOf body
  | .environment _ args body => commandNamesOf args ++ commandNamesOf body
  | .text _ | .verbatim _ | .absent => []

/-- The names of the commands in a row of nodes. -/
def commandNamesOf : List Node → List (List Char)
  | [] => []
  | n :: ns => n.commandNames ++ commandNamesOf ns

end

end WikiTypeset.Formula
