import WikiTypeset.Html.Node
import WikiTypeset.Json.Reader
import WikiTypeset.Log
import WikiTypeset.Text.LowerCase

/-!
# Annotations of elements

What the attributes of an element say about it: metadata in structured form, and whether the element is shown at
all. Main definitions: `Element.metadata`, `Element.isHidden` and `Element.isMultipleImage`.
-/

namespace WikiTypeset.Html

open Text

/-- The record of metadata that cannot be read. -/
def malformedRecord (name element : String) : LogRecord :=
  ⟨.debug, .markup, "Ignoring malformed " ++ name ++ " attribute on <" ++ element ++ ">"⟩

namespace Element

/-- The metadata in an attribute. A record tells of metadata that cannot be read. -/
def metadata (e : Element) (name : String) : Option Json × Log :=
  let raw := match e.value? name with
    | some (.text s) => s
    | some (.words ws) => if ws.isEmpty then "" else quotedList ws
    | none => ""
  if raw.isEmpty then (none, [])
  else match Json.read? raw.toList with
    | some v => (some v, [])
    | none => (none, [malformedRecord name e.name])

/-- The templates that show several images side by side. -/
def multipleImageTemplates : List String := ["./Template:Triple_image", "./Template:Double_image"]

/-- The name of the template that made an element, in its metadata. -/
def templateName? (v : Json) : Option Json :=
  match v.field? "parts" with
  | some (.list (part :: _)) => part.path? ["template", "target", "href"]
  | _ => none

/-- Whether the element comes from a template that shows several images, and what reading its metadata logs. -/
def isMultipleImage (e : Element) : Bool × Log :=
  if e.attr? "typeof" = some "mw:Transclusion" then
    let (data, log) := e.metadata "data-mw"
    match data.bind templateName? with
    | some (.text name) => (multipleImageTemplates.contains name, log)
    | _ => (false, log)
  else (false, [])

/-- The classes of what surrounds the content of a page. -/
def hiddenClasses : List String := ["infobox", "navbox", "rellink", "dablink", "toplink", "metadata"]

/-- Whether `c` is a given small letter or a variant of it: its capital, a dotless or dotted i, or a long s. -/
def isLetterVariant (letter c : Char) : Bool :=
  lowerChar c = letter || (letter = 'i' && (c = '\u0131' || c = '\u0130')) || (letter = 's' && c = '\u017F')

/-- The text after a word at the start of `s`, in any case of letters. -/
def afterWord? : List Char → List Char → Option (List Char)
  | [], s => some s
  | _, [] => none
  | l :: ls, c :: s => if isLetterVariant l c then afterWord? ls s else none

/-- Whether a style rule switches the display off. -/
def switchesOff (s : List Char) : Bool :=
  match afterWord? "display".toList (trimStart s) with
  | none => false
  | some rest =>
    match trimStart rest with
    | ':' :: rest =>
      match afterWord? "none".toList (trimStart rest) with
      | none => false
      | some rest => (trimStart rest).isEmpty
    | _ => false

/-- Whether a rule of a style switches the display off; semicolons stand between rules. -/
def switchesDisplayOff (style : List Char) : Bool := (splitWhere (· == ';') style).any switchesOff

/-- Whether the element is not shown in print, and what reading its metadata logs. -/
def isHidden (e : Element) : Bool × Log :=
  let (multiple, log) := e.isMultipleImage
  let hidden := !multiple &&
    (e.classes.contains "noprint" || switchesDisplayOff (e.attr "style").toList ||
      hiddenClasses.any e.classes.contains)
  (hidden, log)

/-- The elements that begin a paragraph of their own. -/
def paragraphElements : List String :=
  ["blockquote", "body", "center", "div", "dl", "figure", "h1", "h2", "h3", "h4", "h5", "h6", "ol", "p", "table", "ul"]

/-- Whether the element begins a paragraph. -/
def isParagraph (e : Element) : Bool := paragraphElements.contains e.name

end Element

end WikiTypeset.Html
