import WikiTypeset.Article.Switch
import WikiTypeset.Latex.Escape
import WikiTypeset.Reference.Resolve

/-!
# Running text

Paragraphs, breaks, inline formatting, links and headings.
-/

namespace WikiTypeset.Article

open Html Latex Text Typeset

/-- Typesets an element as a paragraph. -/
def visitParagraph (visit : Visit) (p : Place) : Typeset Unit := do
  emit Emit.paragraphBreak
  visitChildren visit p
  emit Emit.paragraphBreak

/-- Typesets an element on lines of its own. -/
def visitDiv (visit : Visit) (p : Place) : Typeset Unit := do
  emit Emit.lineBreak
  visitChildren visit p
  emit Emit.lineBreak

/-- The command of an inline element. -/
def inlineCommand : String → String
  | "b" | "strong" => "\\textbf"
  | "i" | "em" => "\\emph"
  | "sub" => "\\textsubscript"
  -- the starred form sets brackets correctly
  | "sup" => "\\textsuperscript*"
  | _ => "\\textsmall"

/-- Typesets an inline element by the command of a name. -/
def visitInline (visit : Visit) (name : String) (p : Place) : Typeset Unit :=
  visitWrapped visit (inlineCommand name) p

/-- The number that is all that an element contains, if that is so. -/
def soleNumber? (e : Element) : Option (List Char) :=
  match e.children with
  | [.text kind s] =>
    if (kind = .plain || kind = .literal) && !s.isEmpty && s.all isAsciiDigit then some s else none
  | _ => none

/-- Typesets a subscript or superscript; a number is set as a formula. -/
def visitScript (visit : Visit) (name : String) (p : Place) : Typeset Unit := do
  match soleNumber? p.element with
  | some digits =>
    let sign := if name = "sup" then "^" else "_"
    fragment ("$" ++ sign ++ "\x7b" ++ String.ofList digits ++ "\x7d$")
  | none => visitInline visit name p

/-- The reference of a link inside a document with the given base. -/
def resolved (base target : String) : Typeset (List Char) :=
  match Reference.resolve base.toList target.toList with
  | .ok s => pure s
  | .error cause => throw (.reference cause)

/-- Typesets a link, which is none in the short form of a heading or around an image. -/
def visitAnchor (visit : Visit) (p : Place) : Typeset Unit := do
  let href := p.element.attr "href"
  let t ← get
  if href.isEmpty || t.inHeading || p.element.descendants.any (·.name == "img") then
    visitChildren visit p
  else
    match href.toList with
    | '#' :: target => visitWrapped visit ("\\hyperlink\x7b" ++ String.ofList target ++ "\x7d") p
    | _ =>
      let url ← resolved t.options.baseUrl href
      visitWrapped visit ("\\href\x7b" ++ String.ofList (escapeUrl url) ++ "\x7d") p

/-! ### Headings -/

/-- The sectioning commands, the highest level first; what lies deeper shares the last one. -/
def sectionCommands : List String :=
  ["chapter", "section", "subsection", "subsubsection", "paragraph", "subparagraph"]

/-- The sectioning command of a level. -/
def sectionCommand (level : Nat) : String := sectionCommands.getD level "subparagraph"

/-- The level of a heading: documents of a collection without chapters begin one level higher, and so does the
attribution of one with chapters. -/
def headingLevel (o : ArticleOptions) (e : Element) : Nat :=
  let level := digitsValue 10 (e.name.toList.drop 1)
  if o.isAttribution = o.hasChapters then level - 1 else level

/-- Typesets the text of a heading; inside a heading in the language of the collection, it keeps its own. -/
def visitHeadingText (visit : Visit) (p : Place) (own : Language) (switch : Bool) : Typeset Unit := do
  emit Emit.dirBreak
  if !switch then
    emit Emit.resetLine
    visitChildren visit p
    emit Emit.dirBreak
  else
    let t ← get
    wrap (languageCommand own (!t.inHeading)) do
      emit (Emit.assumeDirection own.direction)
      emit (Emit.switchDirection (← get).direction)
      emit Emit.resetLine
      visitChildren visit p
    -- the command must close before the runs are written
    emit Emit.dirBreak

/-- Changes how deep the emitter is in text for the table of contents. -/
def deepenToc (n : Int) (t : Typesetter) : Typesetter :=
  { t with emitter := { t.emitter with inToc := t.emitter.inToc + n } }

/-- Typesets a heading: a short form for the table of contents, and the heading itself. -/
def visitHeading (visit : Visit) (p : Place) : Typeset Unit := do
  let t ← get
  let level := headingLevel t.options p.element
  -- the title of a lone document is set already, and headings do not nest
  if (t.options.singleItem && level = 0) || t.inHeading || t.headingDepth ≠ 0 then return
  emit Emit.paragraphBreak
  let toc ← lookup t.options.lang
  let own ← lookup t.language
  let context := (← get).emitter.contextDir
  let switch := t.language ≠ t.options.lang
  if switch then
    beginLanguage toc
    updateLtrFont toc
    emit (Emit.assumeDirection toc.direction)
  modify fun t => { t with headingDepth := t.headingDepth + 1 }
  let short : Typeset Unit := do
    fragment ("\\" ++ sectionCommand level ++ "[")
    visitHeadingText visit p own switch
  let body : Typeset Unit := isolated do
    modify fun t => deepenToc 1 { t with inHeading := true }
    Action.finishing short (modify (deepenToc (-1)))
    fragment "]\x7b"
    modify fun t => { t with inHeading := false }
    visitHeadingText visit p own switch
    fragment "\x7d"
  inList body fun t => { t with inHeading := false, headingDepth := t.headingDepth - 1 }
  if switch then
    emit (Emit.endEnv toc.environment)
    emit (Emit.assumeDirection context)
    emit (Emit.switchDirection (← get).direction)
  emit Emit.paragraphBreak

end WikiTypeset.Article
