import WikiTypeset.Bidi.Class
import WikiTypeset.Html.Annotation

/-!
# Roles of elements

Every element of a document has one role, which decides how it is typeset. What hides an element comes first, then
a change of language, then a change of direction, then its annotations, and its name last; an element without a
role of its own stands for its children. Main definition: `roleOf`.
-/

namespace WikiTypeset.Article

open Html Text

/-- How an element is typeset. -/
inductive Role
  | hidden
  | language
  | direction
  | image
  | math
  | references
  | multipleImage
  | citation
  | backLink
  | anchor
  | paragraph
  | heading
  | inline
  | script
  | lineBreak
  | wordBreak
  | environment
  | list
  | descriptionList
  | term
  | definition
  | listItem
  | table
  | figure
  | div
  | children
  deriving DecidableEq, Repr

/-- The name of a role. -/
def Role.name : Role → String
  | hidden => "hidden"
  | language => "language"
  | direction => "direction"
  | image => "image"
  | math => "math"
  | references => "references"
  | multipleImage => "multiple-image"
  | citation => "citation"
  | backLink => "back-link"
  | anchor => "anchor"
  | paragraph => "paragraph"
  | heading => "heading"
  | inline => "inline"
  | script => "script"
  | lineBreak => "line-break"
  | wordBreak => "word-break"
  | environment => "environment"
  | list => "list"
  | descriptionList => "description-list"
  | term => "term"
  | definition => "definition"
  | listItem => "list-item"
  | table => "table"
  | figure => "figure"
  | div => "div"
  | children => "children"

/-- The role that an annotation of the type gives. -/
def typeRole? : String → Option Role
  | "mw:Image" | "mw:Image/Thumb" | "mw:File" | "mw:File/Thumb" => some .image
  | "mw:Extension/math" => some .math
  | "mw:Extension/references" => some .references
  | _ => none

/-- The role that an annotation of the relation gives. -/
def relationRole? : String → Option Role
  | "dc:references" => some .citation
  | "mw:referencedBy" => some .backLink
  | _ => none

/-- The role that the name of an element gives. -/
def nameRole? : String → Option Role
  | "a" => some .anchor
  | "p" => some .paragraph
  | "h1" | "h2" | "h3" | "h4" | "h5" | "h6" => some .heading
  | "b" | "strong" | "i" | "em" | "small" => some .inline
  | "sub" | "sup" => some .script
  | "br" => some .lineBreak
  | "wbr" => some .wordBreak
  | "blockquote" | "center" => some .environment
  | "ul" | "ol" => some .list
  | "dl" => some .descriptionList
  | "dt" => some .term
  | "dd" => some .definition
  | "li" => some .listItem
  | "table" => some .table
  | "figure" => some .figure
  | "div" => some .div
  | _ => none

/-- The elements that are known to stand for their children. -/
def transparentElements : List String :=
  ["[document]", "abbr", "body", "cite", "code", "html", "span", "section", "main", "article", "bdi", "font", "u"]

/-- The words of an attribute. -/
def attributeWords (e : Element) (name : String) : List String :=
  (words (e.attr name).toList).map String.ofList

/-- The language of an element inside text of the given language. -/
def languageOf (current : String) (e : Element) : String :=
  let lang := e.attr "lang"
  if lang.isEmpty then current else lang

/-- The direction of an element inside text of the given direction. -/
def directionOf (current : Direction) (e : Element) : Direction :=
  (Direction.ofName? (lowerString (e.attr "dir"))).getD current

/-- The record of an element without a role. -/
def unhandledRecord (name : String) : LogRecord :=
  ⟨.debug, .articles, "Rendering children of unhandled <" ++ name ++ ">"⟩

/-- The role that the name of an element gives, with a record of a name that is not known. -/
def roleByName (e : Element) : Role × Log :=
  match nameRole? e.name with
  | some role => (role, [])
  | none => (.children, if transparentElements.contains e.name then [] else [unhandledRecord e.name])

/-- The role of an element inside text of the given language and direction, and what finding it logs. -/
def roleOf (language : String) (direction : Direction) (e : Element) : Role × Log :=
  let (hidden, log) := e.isHidden
  if hidden then (.hidden, log)
  else if languageOf language e ≠ language then (.language, log)
  else if directionOf direction e ≠ direction then (.direction, log)
  else match (attributeWords e "typeof").findSome? typeRole? with
    | some role => (role, log)
    | none =>
      let (multiple, again) := e.isMultipleImage
      let log := log ++ again
      if multiple then (.multipleImage, log)
      else match (attributeWords e "rel").findSome? relationRole? with
        | some role => (role, log)
        | none =>
          let (role, more) := roleByName e
          (role, log ++ more)

end WikiTypeset.Article
