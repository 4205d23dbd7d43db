import WikiTypeset.Article.Walk
import WikiTypeset.Html.BaseReference
import WikiTypeset.Html.Document

/-!
# Whole documents

A document is typeset with a title of its own, if it is given one, and then its body. Main definitions: `typeset`
and `Result`.
-/

namespace WikiTypeset.Article

open Html Latex Typeset

/-- A typesetter at the start of a document. -/
def start (options : ArticleOptions) (direction : NamedDirection) (warned : List String) : Typesetter :=
  let fresh : Typesetter :=
    { options, emitter := Emitter.start direction, language := options.lang, direction := options.direction, warned }
  let prepare : Typeset Unit := do
    let l ← lookup options.lang
    emit (Emit.setCoverage l.latinCoverage)
  (prepare.perform fresh).2

/-- The heading that shows a title in a language. -/
def titleHeading (title lang : String) : Element :=
  { name := "h1"
    children := [.element "span" [⟨"lang", .text lang⟩] [.text .plain title.toList]] }

/-- The place of the body of a document: its body element, or all of it where it has none. -/
def bodyPlace (document : Element) : Place :=
  let root := Place.root document
  match root.descendants.find? (·.element.name == "body") with
  | some p => p
  | none =>
    let body : Element := { name := "body", children := document.children }
    .mk body [] (some (.root { document with children := [body.toNode] }))

/-- A body that names its language and direction: where it does not, the language is that of the article, and the
direction that of the language. -/
def withLanguage (body : Element) (lang : String) : Typeset Element := do
  let body := if (body.attr "lang").isEmpty then body.withAttr "lang" (.text lang) else body
  if (body.attr "dir").isEmpty then
    let l ← lookup (body.attr "lang")
    return body.withAttr "dir" (.text l.direction.name)
  else return body

/-- Typesets a document with its title, and closes the emitter. -/
def typesetDocument (document : Element) (title? : Option String) (articleLanguage : String) : Typeset Unit := do
  match title? with
  | some title => visit (.root (titleHeading title articleLanguage))
  | none => pure ()
  let p := bodyPlace document
  let body ← withLanguage p.element articleLanguage
  visit (.mk body p.before p.parent?)
  emit Emit.paragraphBreak
  emit Emit.flush
  note [⟨.debug, .emitter, "Formatter flushed"⟩]

/-- Typesets the nodes of a fragment of markup. -/
def typesetFragment (markup : List Char) : Typeset Unit := do
  match document markup with
  | .error cause => throw (.markup cause)
  | .ok document =>
    let root := Place.root document
    (contentsOf root).forM (visitFrom (depthBound root))

/-- What became of a document: the languages that it uses or the cause of the failure, with what has been written and
logged in either case. -/
structure Result where
  outcome : Except ArticleError (List String)
  pieces : List Piece
  log : Log
  /-- The language codes that have been warned about, so far. -/
  warned : List String

/-- The LaTeX that has been written. -/
def Result.latex (r : Result) : String := String.ofList (latexOf r.pieces)

/-- Typesets markup. An article without a language of its own is in that of the collection. -/
def typeset (markup : List Char) (options : ArticleOptions) (title? : Option String) (articleLanguage? : Option String)
    (warned : List String) : Result :=
  match document markup with
  | .error cause => { outcome := .error (.markup cause), pieces := [], log := [], warned }
  | .ok document =>
    let options := options.withBase (baseReference document)
    let lang := match articleLanguage? with
      | some lang => if lang.isEmpty then options.lang else lang
      | none => options.lang
    let (result, t) :=
      (typesetDocument document title? lang).perform (start options (.known options.direction) warned)
    { outcome := result.map fun _ => t.used
      pieces := t.emitter.output
      log := t.log
      warned := t.warned }

end WikiTypeset.Article
