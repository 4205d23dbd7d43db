import WikiTypeset.Latex.Escape
import WikiTypeset.Bidi.Class

/-!
# Decorations and pieces of output

A decoration is a fragment of LaTeX that belongs to a place in the text still to be written. A piece is what has
been written: a stretch of text with the style it is escaped in, or a command. `Piece.latex` is the only place
where pieces become characters.
-/

namespace WikiTypeset.Latex

/-- What a decoration does at its place. -/
inductive DecorationKind
  /-- A fragment that is written as it stands. -/
  | raw
  /-- The start of inline formatting. -/
  | startInline
  /-- The end of inline formatting. -/
  | endInline
  /-- The start of an environment. -/
  | startBlock
  /-- The end of an environment. -/
  | endBlock
  /-- The end of the text; a mark that is never written. -/
  | endOfText
  deriving DecidableEq, Repr

namespace DecorationKind

/-- The name of the kind in messages. -/
def name : DecorationKind → String
  | raw => "raw"
  | startInline => "start-inline"
  | endInline => "end-inline"
  | startBlock => "start-block"
  | endBlock => "end-block"
  | endOfText => "end"

/-- The kind with the given name. -/
def ofName? : String → Option DecorationKind
  | "raw" => some raw
  | "start-inline" => some startInline
  | "end-inline" => some endInline
  | "start-block" => some startBlock
  | "end-block" => some endBlock
  | "end" => some endOfText
  | _ => none

end DecorationKind

/-- The marks around the content of inline formatting. -/
structure Delimiters where
  opening : String := "\x7b"
  closing : String := "\x7d"
  deriving DecidableEq, Repr

/-- A fragment tied to an offset in the pending text. `value` is the command of inline formatting, without its
opening delimiter, and the fragment itself otherwise. -/
structure Decoration where
  kind : DecorationKind
  value : String := ""
  delimiters : Delimiters := {}
  pos : Nat := 0
  deriving DecidableEq, Repr

namespace Decoration

/-- Whether the decoration ends a region. -/
def isEnd (d : Decoration) : Bool := d.kind = .endInline || d.kind = .endBlock

/-- The start of inline formatting by a command. -/
def startInline (command : String) (delimiters : Delimiters := {}) : Decoration :=
  { kind := .startInline, value := command, delimiters }

/-- The end of inline formatting by a command. -/
def endInline (command : String) (delimiters : Delimiters := {}) : Decoration :=
  { kind := .endInline, value := command, delimiters }

/-- A fragment that is written as it stands. -/
def raw (value : String) : Decoration := { kind := .raw, value }

end Decoration

/-- The command that starts an environment. -/
def beginCommand (env : String) (options : String) : String :=
  "\\begin\x7b" ++ env ++ "\x7d" ++ if options.isEmpty then "" else "[" ++ options ++ "]"

/-- The command that ends an environment. -/
def endCommand (env : String) : String := "\\end\x7b" ++ env ++ "\x7d"

/-- The name of a direction inside commands. -/
def directionSuffix : Direction → String
  | .ltr => "LTR"
  | .rtl => "RTL"

/-- Something written to the output. -/
inductive Piece
  /-- Text, escaped in a style. -/
  | text (style : TextStyle) (source : List Char)
  /-- The start of inline formatting; its command and opening delimiter are written. -/
  | openInline (command : String) (delimiters : Delimiters)
  /-- The closing delimiter of inline formatting. -/
  | closeInline (delimiter : String)
  /-- A fragment that stands for itself. -/
  | fragment (value : String)
  /-- The start or end of an environment. -/
  | block (value : String)
  /-- A change of the ambient direction. -/
  | setDirection (direction : Direction)
  /-- A note that a direction is taken to be in force from here on; nothing is written. -/
  | assumeDirection (direction : NamedDirection)
  /-- The start of a run against the ambient direction; left-to-right runs drop script-specific features. -/
  | openRun (direction : Direction)
  /-- The end of such a run. -/
  | closeRun
  /-- The end of a line. -/
  | newline
  /-- The blank line that ends a paragraph. -/
  | paragraphEnd
  /-- A hard line break. -/
  | lineBreak
  deriving DecidableEq, Repr

/-- The characters of a piece. -/
def Piece.latex : Piece → List Char
  | text style source => style.escape source
  | openInline command delimiters => command.toList ++ delimiters.opening.toList
  | closeInline delimiter => delimiter.toList
  | fragment value => value.toList
  | block value => value.toList
  | setDirection direction => "\\set".toList ++ (directionSuffix direction).toList ++ ['\n']
  | assumeDirection _ => []
  | openRun .rtl => "\\RLE\x7b".toList
  | openRun .ltr => "\\LRE\x7b\\LTRfont ".toList
  | closeRun => ['\x7d']
  | newline => ['\n']
  | paragraphEnd => ['\n']
  | lineBreak => "\\\\\n".toList

/-- The characters of a row of pieces. -/
def latexOf (pieces : List Piece) : List Char := pieces.flatMap Piece.latex

end WikiTypeset.Latex
