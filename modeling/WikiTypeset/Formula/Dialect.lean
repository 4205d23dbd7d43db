import WikiTypeset.Text.CharClass
import WikiTypeset.Text.Segment

/-!
# The dialect of wiki formulas

Wiki formulas use a few commands beyond standard LaTeX, some commands that need a package, and must not use
commands that leave math or touch files. `standardize` spells the dialect in standard commands; `commandWords` lists the
command words that a formula seems to hold, wherever a backslash stands before a letter.
-/

namespace WikiTypeset.Formula

open Text

/-- Commands that are unsafe or meaningless in a formula, in alphabetical order. -/
def forbiddenCommands : List String :=
  ["catcode", "csname", "def", "edef", "expandafter", "gdef", "immediate", "include", "input", "let",
    "newcommand", "openin", "openout", "read", "renewcommand", "special", "usepackage", "write", "xdef"]

/-- Commands of the dialect with their standard spelling. -/
def dialectCommands : List (String × String) :=
  [("Alpha", "\\mathrm\x7bA\x7d"), ("Beta", "\\mathrm\x7bB\x7d"), ("Epsilon", "\\mathrm\x7bE\x7d"),
    ("Zeta", "\\mathrm\x7bZ\x7d"), ("Eta", "\\mathrm\x7bH\x7d"), ("Iota", "\\mathrm\x7bI\x7d"),
    ("Kappa", "\\mathrm\x7bK\x7d"), ("Mu", "\\mathrm\x7bM\x7d"), ("Nu", "\\mathrm\x7bN\x7d"),
    ("Rho", "\\mathrm\x7bP\x7d"), ("Tau", "\\mathrm\x7bT\x7d"), ("Chi", "\\mathrm\x7bX\x7d"),
    ("C", "\\mathbb\x7bC\x7d"), ("Complex", "\\mathbb\x7bC\x7d"), ("H", "\\mathbb\x7bH\x7d"),
    ("N", "\\mathbb\x7bN\x7d"), ("natnums", "\\mathbb\x7bN\x7d"), ("Q", "\\mathbb\x7bQ\x7d"),
    ("R", "\\mathbb\x7bR\x7d"), ("Reals", "\\mathbb\x7bR\x7d"), ("reals", "\\mathbb\x7bR\x7d"),
    ("Z", "\\mathbb\x7bZ\x7d"), ("alef", "\\aleph"), ("alefsym", "\\aleph"), ("and", "\\land"),
    ("ang", "\\angle"), ("bull", "\\bullet"), ("clubs", "\\clubsuit"), ("dArr", "\\Downarrow"),
    ("darr", "\\downarrow"), ("diamonds", "\\diamondsuit"), ("empty", "\\emptyset"), ("exist", "\\exists"),
    ("hArr", "\\Leftrightarrow"), ("harr", "\\leftrightarrow"), ("hearts", "\\heartsuit"), ("image", "\\Im"),
    ("infin", "\\infty"), ("isin", "\\in"), ("lArr", "\\Leftarrow"), ("larr", "\\leftarrow"),
    ("lrarr", "\\leftrightarrow"), ("Lrarr", "\\Leftrightarrow"), ("O", "\\emptyset"), ("or", "\\lor"),
    ("part", "\\partial"), ("plusmn", "\\pm"), ("rArr", "\\Rightarrow"), ("rarr", "\\rightarrow"),
    ("real", "\\Re"), ("sdot", "\\cdot"), ("spades", "\\spadesuit"), ("sub", "\\subset"),
    ("sube", "\\subseteq"), ("supe", "\\supseteq"), ("thetasym", "\\vartheta"), ("uArr", "\\Uparrow"),
    ("uarr", "\\uparrow"), ("weierp", "\\wp")]

/-- Commands that need a package beyond those for standard math. -/
def packageCommands : List (String × String) :=
  [("bcancel", "cancel"), ("cancel", "cancel"), ("cancelto", "cancel"), ("xcancel", "cancel"),
    ("euro", "eurosym"), ("geneuro", "eurosym"), ("Coppa", "teubner"), ("coppa", "teubner"),
    ("Digamma", "teubner"), ("Koppa", "teubner"), ("koppa", "teubner"), ("Sampi", "teubner"),
    ("sampi", "teubner"), ("Stigma", "teubner"), ("stigma", "teubner"), ("varstigma", "teubner"),
    ("ce", "mhchem"), ("pu", "mhchem")]

/-- The packages that commands may need, in alphabetical order. -/
def packages : List String := ["cancel", "eurosym", "mhchem", "teubner"]

/-- The length of a backslash with the ASCII letters after it, if there are any. -/
def commandLength? (_ : Option Char) : List Char → Option Nat
  | '\\' :: s =>
    let word := s.takeWhile isAsciiLetter
    if word.isEmpty then none else some (word.length + 1)
  | _ => none

/-- The words that follow a backslash. -/
def commandWords (s : List Char) : List (List Char) :=
  ((segments commandLength? s).filter (·.marked)).map fun piece => piece.text.drop 1

/-- The standard spelling of a command of the dialect. -/
def standardSpelling? (word : String) : Option String :=
  (dialectCommands.find? (·.1 == word)).map (·.2)

/-- A formula with the commands of the dialect in their standard spelling. -/
def standardize (s : List Char) : List Char :=
  (segments commandLength? s).flatMap fun piece =>
    if piece.marked then
      match standardSpelling? (String.ofList (piece.text.drop 1)) with
      | some spelling => spelling.toList
      | none => piece.text
    else piece.text

/-- The package that a command needs. -/
def packageOf? (word : String) : Option String :=
  (packageCommands.find? (·.1 == word)).map (·.2)

end WikiTypeset.Formula
