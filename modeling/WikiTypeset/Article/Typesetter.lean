import WikiTypeset.Html.Place
import WikiTypeset.Html.Token
import WikiTypeset.Language.Lookup
import WikiTypeset.Latex.Emitter
import WikiTypeset.Log
import WikiTypeset.Options.Article
import WikiTypeset.Reference.Parts

/-!
# The state of typesetting a document

A typesetter walks the tree of a document and drives an emitter. It knows the language and direction of the place
where it is, the list around it, and whether it is in a heading or a figure. Main definitions: `Typesetter`,
`Typeset` and the basic actions.
-/

namespace WikiTypeset.Article

open Html Latex

/-- The kinds of lists around a place. -/
inductive ListKind
  /-- A list with bullets. -/
  | bullets
  /-- A numbered list. -/
  | numbers
  /-- A list of terms and definitions. -/
  | terms
  /-- A list of definitions alone, which only indents. -/
  | indent
  deriving DecidableEq, Repr

/-- The name of a kind of list. -/
def ListKind.name : ListKind → String
  | bullets => "ul"
  | numbers => "ol"
  | terms => "dl"
  | indent => "blockquote"

/-- The list around a place. -/
structure ListContext where
  kind? : Option ListKind := none
  /-- A term has been set. -/
  sawTerm : Bool := false
  deriving DecidableEq, Repr

/-- Why a document could not be typeset. -/
inductive ArticleError
  | emit (cause : EmitError)
  | markup (cause : MarkupError)
  | reference (cause : Reference.ReferenceError)
  /-- The delimiter of a literal part of a formula is missing at its end. -/
  | formulaEnded
  /-- The name of a template cannot stand in a selector. -/
  | badTemplateName
  /-- The options of an image are no list. -/
  | badImageOptions
  /-- The walk went deeper than the tree. -/
  | exhausted
  deriving DecidableEq, Repr

/-- The wording of an error, for those that are worded. -/
def ArticleError.message : ArticleError → String
  | emit cause => cause.message
  | markup .badSection => "unknown marked section"
  | reference cause => cause.message
  | formulaEnded => "string index out of range"
  | badTemplateName => "malformed selector"
  | badImageOptions => "image options are no list"
  | exhausted => "the walk went deeper than the tree"

/-- The state of a walk. -/
structure Typesetter where
  options : ArticleOptions
  emitter : Emitter
  /-- The language of the place. -/
  language : String
  /-- The direction of the place. -/
  direction : Direction
  /-- The languages switched to, in the order of their first use. -/
  used : List String := []
  /-- The image templates that have been set. -/
  templates : List String := []
  list : ListContext := {}
  /-- In the short form of a heading, where neither links nor options are allowed. -/
  inHeading : Bool := false
  headingDepth : Nat := 0
  /-- In a figure, which holds no other. -/
  inFloat : Bool := false
  /-- The language codes that a warning has been given for. -/
  warned : List String := []
  /-- What has been logged, the latest record first. -/
  records : List LogRecord := []

/-- An action of a typesetter. -/
abbrev Typeset (α : Type) := Action Typesetter ArticleError α

/-- What has been logged, in order. -/
def Typesetter.log (t : Typesetter) : Log := t.records.reverse

namespace Typeset

/-- An action of the emitter. -/
def emit {α : Type} (a : Emit α) : Typeset α :=
  Action.within (·.emitter) (fun t e => { t with emitter := e }) .emit a

/-- Logs records. -/
def note (log : Log) : Typeset Unit := modify fun t => { t with records := log.reverse ++ t.records }

/-- Logs a record about the document. -/
def say (level : LogLevel) (text : String) : Typeset Unit := note [⟨level, .articles, text⟩]

/-- The language of a code; an unknown code is warned about once. -/
def lookup (code : String) : Typeset Language := do
  let (warned, log) := Language.noteLookup (← get).warned code
  modify fun t => { t with warned }
  note log
  return Language.ofCode code

/-- Writes text. -/
def write (s : List Char) : Typeset Unit := emit (Emit.write s)

/-- Writes a fragment that stands for itself. -/
def fragment (value : String) : Typeset Unit := emit (Emit.record (.raw value))

/-- Runs content inside inline formatting. -/
def wrap (command : String) (content : Typeset Unit) : Typeset Unit := do
  emit (Emit.record (.startInline command))
  Action.finishing content (emit (Emit.record (.endInline command)))

/-- Runs content in which no inline formatting is open. -/
def isolated (content : Typeset Unit) : Typeset Unit := do
  let saved ← emit Emit.enterIsolation
  let checked : Typeset Unit := do
    content
    emit Emit.checkIsolation
  Action.finishing checked (emit (Emit.leaveIsolation saved))

/-- Begins the environment of a language. -/
def beginLanguage (l : Language) : Typeset Unit := emit (Emit.beginEnv l.environment l.options)

/-- Sets the variant of the font for embedded left-to-right text, where the language has one. -/
def updateLtrFont (l : Language) : Typeset Unit := do
  match l.ltrFontCommand? with
  | some command =>
    fragment command
    emit Emit.envBreak
    emit Emit.resetLine
  | none => pure ()

/-- Sets a mark after which content starts afresh. -/
def mark (value : String) : Typeset Unit := do
  fragment value
  emit Emit.dirBreak
  emit Emit.resetLine

/-- Goes one level deeper into lists for a part. -/
def inList (content : Typeset Unit) (restore : Typesetter → Typesetter) : Typeset Unit := do
  let change (n : Int) (t : Typesetter) : Typesetter :=
    { t with emitter := { t.emitter with inList := t.emitter.inList + n } }
  modify (change 1)
  Action.finishing content (modify fun t => restore (change (-1) t))

end Typeset

/-- Something to be typeset: an element at its place, or a text. -/
inductive Content
  | element (place : Place)
  | text (kind : TextKind) (s : List Char)

/-- What an element contains, in order. -/
def contentsOf (p : Place) : List Content := go [] p.element.children
where
  /-- The contents that nodes are, given their earlier siblings. -/
  go (before : List Node) : List Node → List Content
    | [] => []
    | .element name attributes children :: ns =>
      .element (.mk ⟨name, attributes, children⟩ before (some p)) ::
        go (.element name attributes children :: before) ns
    | .text kind s :: ns => .text kind s :: go (.text kind s :: before) ns

/-- How to typeset one piece of content. -/
abbrev Visit := Content → Typeset Unit

/-- Typesets the contents of an element in order. -/
def visitChildren (visit : Visit) (p : Place) : Typeset Unit := (contentsOf p).forM visit

/-- Typesets the contents of an element inside inline formatting. -/
def visitWrapped (visit : Visit) (command : String) (p : Place) : Typeset Unit :=
  Typeset.wrap command (visitChildren visit p)

end WikiTypeset.Article
