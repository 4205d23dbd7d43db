import WikiTypeset.Formula.Dialect
import WikiTypeset.Formula.Tree
import WikiTypeset.Text.Quoted

/-!
# Checked formulas

A formula may be typeset if its braces balance, no comment, math shift or parameter character stands in it
unescaped, its structure can be read, and it holds no forbidden command. It is then restated from the dialect
and put in braces. Main definition: `check`.
-/

namespace WikiTypeset.Formula

open Text

/-- Braces opened and not closed after `s`, if `depth` were open before it and none is closed that is not open. A
backslash makes the next character literal. -/
def braceDepth? (escaped : Bool) (depth : Nat) : List Char → Option Nat
  | [] => some depth
  | c :: s =>
    if escaped then braceDepth? false depth s
    else if c = '\\' then braceDepth? true depth s
    else if c = '\x7b' then braceDepth? false (depth + 1) s
    else if c = '\x7d' then if depth = 0 then none else braceDepth? false (depth - 1) s
    else braceDepth? false depth s

/-- Whether every brace of a formula is closed, and none is closed that is not open. -/
def bracesBalanced (s : List Char) : Bool := braceDepth? false 0 s == some 0

/-- A character that a formula may hold only behind a backslash. -/
def isStray (c : Char) : Bool := c == '$' || c == '%' || c == '#'

/-- The stray character at the start of a text, after pairs of backslashes. -/
def strayAfterPairs? : List Char → Option Char
  | '\\' :: '\\' :: s => strayAfterPairs? s
  | c :: _ => if isStray c then some c else none
  | [] => none

/-- The first stray character that pairs of backslashes lead to from a place that follows no backslash. -/
def strayFrom? (previous : Option Char) : List Char → Option Char
  | [] => none
  | c :: s =>
    if previous = some '\\' then strayFrom? (some c) s
    else strayAfterPairs? (c :: s) <|> strayFrom? (some c) s

/-- The first stray character of a formula. -/
def stray? (s : List Char) : Option Char := strayFrom? none s

/-- Why a formula cannot be typeset. -/
inductive Rejection
  | empty
  | unbalancedBraces
  | strayCharacter (c : Char)
  | structural (cause : StructureError)
  | forbidden (command : String)
  deriving DecidableEq, Repr

namespace Rejection

/-- The code of the kind of rejection: E for characters, S for structure, F for commands. -/
def code : Rejection → String
  | empty | structural _ => "S"
  | unbalancedBraces | strayCharacter _ => "E"
  | forbidden _ => "F"

/-- The wording of a rejection. -/
def details : Rejection → String
  | empty => "empty formula"
  | unbalancedBraces => "unbalanced braces"
  | strayCharacter c => "unexpected " ++ String.ofList (quoted [c])
  | structural _ => "malformed formula"
  | forbidden command => "forbidden command \\" ++ command

end Rejection

/-- A formula that can be typeset, with the packages it needs. -/
structure Accepted where
  output : List Char
  required : List String
  deriving DecidableEq, Repr

/-- Whether a formula needs only the given packages. -/
def Accepted.supportedBy (a : Accepted) (packages : List String) : Bool := a.required.all packages.contains

/-- The forbidden command, first in the alphabet, among command names. -/
def forbiddenAmong? (names : List (List Char)) : Option String :=
  forbiddenCommands.find? fun command => names.contains command.toList

/-- The packages that commands need, in alphabetical order. -/
def requiredBy (names : List (List Char)) : List String :=
  packages.filter fun p => names.any fun name => packageOf? (String.ofList name) == some p

/-- Checks a formula, and restates it if it can be typeset. -/
def check (source : List Char) : Except Rejection Accepted :=
  let s := trim source
  if s.isEmpty then .error .empty
  else if !bracesBalanced s then .error .unbalancedBraces
  else match stray? s with
    | some c => .error (.strayCharacter c)
    | none =>
      match read s with
      | .error cause => .error (.structural cause)
      | .ok nodes =>
        let names := commandNamesOf nodes ++ commandWords s
        match forbiddenAmong? names with
        | some command => .error (.forbidden command)
        | none => .ok { output := '\x7b' :: standardize s ++ ['\x7d'], required := requiredBy names }

end WikiTypeset.Formula
