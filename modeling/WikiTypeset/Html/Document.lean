import WikiTypeset.Html.Node
import WikiTypeset.Html.Token

/-!
# Documents from markup

A document is built from tokens without any knowledge of which elements may stand where: an element is open until
its end tag, or the end tag of an element around it, or the end of the input. Main definition: `document`.
-/

namespace WikiTypeset.Html

open Text

/-- The elements that have no content and are closed where they start. -/
def contentless : List String :=
  ["area", "base", "br", "col", "embed", "hr", "img", "input", "keygen", "link", "menuitem", "meta", "param",
   "source", "track", "wbr", "basefont", "bgsound", "command", "frame", "image", "isindex", "nextid", "spacer"]

/-- The elements in which blank text stays as it is. -/
def preformatted : List String := ["pre", "textarea"]

/-- The elements whose text is not text of the document. -/
def textHolders : List String := ["rt", "rp", "style", "script", "template"]

/-- Whether an attribute of an element holds a list of words. -/
def holdsWords (element name : String) : Bool :=
  ["class", "accesskey", "dropzone"].contains name ||
    match element with
    | "a" | "link" => name = "rel" || name = "rev"
    | "td" | "th" => name = "headers"
    | "form" => name = "accept-charset"
    | "object" => name = "archive"
    | "area" => name = "rel"
    | "icon" => name = "sizes"
    | "iframe" => name = "sandbox"
    | "output" => name = "for"
    | _ => false

/-- The attributes of a tag: of two with one name, the place of the first and the value of the last. -/
def distinctAttributes (pairs : List (String × String)) : List (String × String) :=
  pairs.foldl (fun seen p =>
    if seen.any (·.1 == p.1) then seen.map fun q => if q.1 == p.1 then p else q else seen ++ [p]) []

/-- The attributes of an element from those of its tag. -/
def attributesOf (element : String) (pairs : List (String × String)) : List Attribute :=
  (distinctAttributes pairs).map fun (name, value) =>
    ⟨name, if holdsWords element name then .words ((words value.toList).map String.ofList) else .text value⟩

/-- An element that has not ended. Its children so far stand with the latest first. -/
structure OpenElement where
  name : String
  attributes : List Attribute
  children : List Node := []

/-- A document under construction. -/
structure Builder where
  /-- The open elements, the innermost first. -/
  elements : List OpenElement := []
  /-- The finished nodes outside all open elements, the latest first. -/
  top : List Node := []
  /-- The text since the last tag or comment, the latest piece first. -/
  pending : List (List Char) := []
  /-- The names of contentless elements that were closed where they started, each once for every one of them whose
  end tag may still come. -/
  closed : List String := []

namespace Builder

/-- Adds a finished node to the innermost open element. -/
def add (b : Builder) (n : Node) : Builder :=
  match b.elements with
  | [] => { b with top := n :: b.top }
  | e :: es => { b with elements := { e with children := n :: e.children } :: es }

/-- A text as it stands in the document: blank text is one line feed or one space, if blanks do not count here. -/
def condensed (b : Builder) (s : List Char) : List Char :=
  if b.elements.any (preformatted.contains ·.name) then s
  else if s.all [' ', '\n', '\t', '\x0c', '\r'].contains then
    if s.contains '\n' then ['\n'] else [' ']
  else s

/-- Finishes a text of the given kind. -/
def addText (b : Builder) (kind : TextKind) (s : List Char) : Builder :=
  let kind := if kind = .plain && b.elements.any (textHolders.contains ·.name) then .embedded else kind
  b.add (.text kind (b.condensed s))

/-- Finishes the text since the last tag or comment. -/
def flushText (b : Builder) : Builder :=
  match b.pending with
  | [] => b
  | pieces => { b with pending := [] }.addText .plain pieces.reverse.flatten

/-- Closes the innermost open element. -/
def closeInnermost (b : Builder) : Builder :=
  match b.elements with
  | [] => b
  | e :: es => { b with elements := es }.add (.element e.name e.attributes e.children.reverse)

/-- Closes the `n` innermost open elements. -/
def closeMany : Nat → Builder → Builder
  | 0, b => b
  | n + 1, b => closeMany n b.closeInnermost

/-- Ends the innermost open element of a name, with all that is open inside it; nothing if there is none. -/
def close (b : Builder) (name : String) : Builder :=
  let b := b.flushText
  match b.elements.findIdx? (·.name == name) with
  | some i => closeMany (i + 1) b
  | none => b

/-- The end tag of a name. For a contentless element it belongs to one that has been closed already. -/
def endTag (b : Builder) (name : String) : Builder :=
  if b.closed.contains name then { b with closed := b.closed.erase name } else b.close name

/-- The start of an element. -/
def startTag (b : Builder) (name : String) (attributes : List (String × String)) : Builder :=
  let b := b.flushText
  { b with elements := { name, attributes := attributesOf name attributes } :: b.elements }

/-- The document after one more token. -/
def step (b : Builder) : Token → Builder
  | .startTag name attributes true => (b.startTag name attributes).endTag name
  | .startTag name attributes false =>
    let b := b.startTag name attributes
    if contentless.contains name then
      let b := b.close name
      { b with closed := name :: b.closed }
    else b
  | .endTag name => b.endTag name
  | .text s => { b with pending := s :: b.pending }
  | .literal s => b.flushText.addText .literal s
  | .comment s => b.flushText.addText .comment s

/-- The nodes of the document when all is closed. -/
def finish (b : Builder) : List Node :=
  let b := b.flushText
  (closeMany b.elements.length b).top.reverse

end Builder

/-- The document that markup describes, as an element around its nodes. -/
def document (markup : List Char) : Except MarkupError Element := do
  let tokens ← tokens markup
  return { name := rootName, children := (tokens.foldl Builder.step {}).finish }

end WikiTypeset.Html
