import WikiTypeset.Article.Prose
import WikiTypeset.Html.Selector
import WikiTypeset.Files.Tree
import WikiTypeset.Number.Reader

/-!
# Figures

Images are set as figures with their captions. An image is left out if it is an icon, if its file is not known or
of a format that cannot be shown, or if it stands inside another figure. Templates that show several images in a
table are taken apart.
-/

namespace WikiTypeset.Article

open Html Latex Text Typeset

/-- The size in pixels up to which an image is an icon. -/
def iconSize : Double := .ofInt 16

/-- A size in pixels; what is no number counts as zero. -/
def dimension (value : String) : Double := (Double.read? value.toList).getD .zero

/-- Whether an image has a size, and is small both ways. -/
def isIcon (img : Element) : Bool :=
  let height := dimension (img.attr "height")
  let width := dimension (img.attr "width")
  !(height.isZero && width.isZero) && height.le iconSize && width.le iconSize

/-- The first image of a resource inside an element. -/
def imageIn? (p : Place) : Option Element :=
  (p.select (.anywhere { name? := some "img", attributes := [.present "resource"] })).head?.map (·.element)

/-! ### Files -/

/-- Whether a text ends in one of some words, in any case of letters; a line feed at the end does not count. -/
def endsInAny (endings : List String) (s : List Char) : Bool :=
  let ends (s : List Char) : Bool := endings.any fun ending =>
    let tail := s.drop (s.length - ending.length)
    s.length ≥ ending.length && Element.afterWord? ending.toList tail = some []
  ends s || (s.getLast? == some '\n' && ends s.dropLast)

/-- The endings of image files that cannot be shown. -/
def skippedFormats : List String := [".svg", ".gif", ".ogg", ".ogv"]

/-- The digits after an equals sign at the end of a text; a line feed at the end does not count. -/
def pageNumber? (s : List Char) : Option (List Char) :=
  let number (s : List Char) : Option (List Char) :=
    let digits := (s.reverse.takeWhile isDecimal).reverse
    if !digits.isEmpty && (s.take (s.length - digits.length)).getLast? == some '=' then some digits else none
  match number s with
  | some digits => some digits
  | none => if s.getLast? == some '\n' then number s.dropLast else none

/-- The page that an option of an image asks for. -/
def pageOption? (option : Json) : Option (List Char) :=
  match option.field? "ck" with
  | some (.text "page") => pageNumber? (((option.field? "ak").map (·.display)).getD "").toList
  | _ => none

/-- The page that the metadata of an image asks for: the last one that any option names. -/
def pageAsked (data? : Option Json) : Except ArticleError (List Char) := do
  let options ← match data?.bind (·.field? "optList") with
    | none => pure []
    | some v =>
      if !v.isTruthy then pure []
      else match v with
        | .list items => pure items
        | .text _ | .object _ => pure []
        | _ => throw .badImageOptions
  return ((options.filterMap pageOption?).getLast?).getD ['1']

/-- The file of the page that an image shows; the first page stands in for one that does not exist. -/
def pageFile (e : Element) (filename : String) : Typeset String := do
  let (data?, log) := e.metadata "data-parsoid"
  note log
  let page ← match pageAsked data? with
    | .ok page => pure (String.ofList page)
    | .error cause => throw cause
  let path := Files.joinPath filename (page ++ ".pdf")
  match (← get).options.imageFiles? with
  | some files =>
    if page ≠ "1" && !Files.pathExists files path then
      say .info ("Page " ++ page ++ " of " ++ filename ++ " not found, using page 1")
      return Files.joinPath filename "1.pdf"
    else return path
  | none => return path

/-! ### Figures -/

/-- Typesets the caption of a figure. -/
def visitCaption (visit : Visit) (caption : Place) : Typeset Unit := do
  let t ← get
  let own ← lookup t.language
  let context := t.emitter.contextDir
  let switch := t.language ≠ t.options.lang
  if switch then
    beginLanguage own
    updateLtrFont own
    emit (Emit.assumeDirection own.direction)
  fragment "\\small\\itshape\n"
  visitChildren visit caption
  if switch then
    emit (Emit.endEnv own.environment)
    emit (Emit.assumeDirection context)

/-- Sets the figure of a file with its caption. -/
def setFigure (visit : Visit) (filename : String) (caption? : Option Place) : Typeset Unit := do
  emit (Emit.beginEnv "figure" "tbh!")
  emit (Emit.beginEnv "center")
  fragment ("\\includegraphics[width=0.95\\columnwidth]\x7b" ++
    String.ofList (escapeFileName filename.toList) ++ "\x7d")
  emit (Emit.endEnv "center")
  match caption? with
  | some caption => visitCaption visit caption
  | none => pure ()
  emit (Emit.endEnv "figure")

/-- Typesets the image in an element as a figure. A caption inside the element goes before another one. -/
def visitFigure (visit : Visit) (p : Place) (otherCaption? : Option Place) : Typeset Unit := do
  match imageIn? p with
  | none => return
  | some img =>
    let caption? := p.children.find? (·.element.name == "figcaption") <|> otherCaption?
    let t ← get
    let resource := String.ofList (← resolved t.options.baseUrl (img.attr "resource"))
    let filename := ((t.options.imageMap.find? (·.1 == resource)).map (·.2)).getD ""
    if filename.isEmpty then say .info ("Skipping " ++ resource ++ " (download/convert)")
    else if endsInAny skippedFormats filename.toList then say .info ("Skipping " ++ resource ++ " (format)")
    else if t.inFloat then say .info ("Skipping " ++ resource ++ " (nested float)")
    else
      let isDocument := (lowerString resource).endsWith ".pdf"
      let filename ← if isDocument then pageFile p.element filename else pure filename
      modify fun t => { t with inFloat := true }
      Action.finishing (setFigure visit filename caption?) (modify fun t => { t with inFloat := false })

/-- Typesets an image unless it is an icon. -/
def visitImage (visit : Visit) (p : Place) : Typeset Unit := do
  match imageIn? p with
  | none => return
  | some img =>
    if isIcon img then say .debug ("Skipping icon-sized image " ++ img.attr "resource")
    else visitFigure visit p none

/-! ### Templates with several images -/

/-- The rows of the table that a template has made. -/
def templateRows (about : List Char) : Selector :=
  .inside (.anywhere { name? := some "table", attributes := [.equals "about" about] }) { name? := some "tr" }

/-- The images of the table that a template has made. -/
def templateImages (about : List Char) : Selector :=
  .childOf (.childOf (templateRows about) { name? := some "td" })
    { attributes := [.equals "typeof" "mw:Image".toList] }

/-- The captions of that table, each in a row after the row of its image. -/
def templateCaptions (about : List Char) : Selector :=
  .childOf (.childOf (.after (templateRows about) { name? := some "tr" }) { name? := some "td" })
    { attributes := [.equals "class" "thumbcaption".toList] }

/-- Typesets images with their captions, as long as there are captions. -/
def visitFigures (visit : Visit) : List Place → List Place → Typeset Unit
  | [], _ => pure ()
  | image :: images, [] => do
    visitFigure visit image none
    visitFigures visit images []
  | image :: images, caption :: captions => do
    visitFigure visit image (some caption)
    visitFigures visit images captions

/-- Typesets the images of a template, which stand in tables around the element. -/
def visitMultipleImage (visit : Visit) (p : Place) : Typeset Unit := do
  let about := p.element.attr "about"
  modify fun t =>
    { t with templates := if t.templates.contains about then t.templates else t.templates ++ [about] }
  let scope := p.parent?.getD p
  match quotedSelectorText? about.toList with
  | none => throw .badTemplateName
  | some name =>
    visitFigures visit (scope.select (templateImages name)) (scope.select (templateCaptions name))

/-- A table is left out; one that a template has made has been set already. -/
def visitTable (p : Place) : Typeset Unit := do
  let t ← get
  let known := ((p.element.attr? "about").map t.templates.contains).getD false
  unless known do say .debug "Skipping table"

end WikiTypeset.Article
