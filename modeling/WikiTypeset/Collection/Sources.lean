import WikiTypeset.Article.Page
import WikiTypeset.Bundle.Store
import WikiTypeset.Collection.Header
import WikiTypeset.Language.Setup
import WikiTypeset.Media.Preparation

/-!
# The LaTeX of a collection

The main file holds the head and a command for each article, which reads the file of that article; a third kind of
file sets up the languages. Articles are looked up in the store of documents, and their languages in the store of
sites. Main definition: `Collection.writeSources`.
-/

namespace WikiTypeset.Collection

open Files

/-- A part of the outline that has to be there. -/
def asked {α : Type} : Outline.Asked α → Work α
  | .ok x => pure x
  | .error fault => throw (.shape fault)

/-- A result that has to be there. -/
def got {α : Type} : Except Failure α → Work α
  | .ok x => pure x
  | .error e => throw e

/-- What all articles of a collection share. -/
structure Setting where
  outline : Json
  build : Path
  language : String
  /-- The options of an article; that of the attribution sets one more. -/
  options : ArticleOptions
  documents : Store
  sites : Store

/-- How far the writing has come. -/
structure Progress where
  /-- The number of columns that is in force. -/
  columns : Json
  /-- The languages that are used, each once. -/
  used : List String

/-- Writes a text to the main file. -/
def writeMain (build : Path) (s : String) : Work Unit := Work.appendText (mainFile build) s

/-- The language of the collection, which is looked up first. -/
def languageOf : Json → Work Language
  | .text code => Work.lookup code
  | v => do
    match v with
    | .list _ | .object _ => throw (.shape (.noName v))
    | v =>
      Work.note [Language.unknownCodeRecord v.display]
      throw (.shape (.noMember v "split"))

/-- The image files of a bundle, as far as anything stands where its images should be. -/
def imageFiles (build : Path) : Work (List String) := do
  let w ← get
  match w.tree.locate w.here (Workspace.imagesIn build) with
  | .ok place => return w.tree.filesBelow place
  | .error _ => return []

/-- What the articles share, with the stores open. -/
def openSetting (outline : Json) (build : Path) (images : List (String × String)) (o : ConversionOptions)
    (layout : Layout) : Work Setting := do
  let language ← languageOf layout.language
  let options : ArticleOptions := {
    lang := layout.language.display
    direction := language.direction
    imageMap := images
    imageFiles? := some (← imageFiles build)
    singleItem := layout.singleItem
    hasChapters := layout.hasChapters
    parindent := o.parindent }
  let documents ← Store.ofPath ((Workspace.bundleIn build).child "parsoid.db")
  let sites ← Store.ofPath ((Workspace.bundleIn build).child "siteinfo.db")
  return { outline, build, language := options.lang, options, documents, sites }

/-! ### Languages of articles -/

/-- The element of a list at a number; negative numbers count from the end. -/
def elementAt? (items : List Json) (n : Int) : Option Json :=
  let n := if n < 0 then n + items.length else n
  if n < 0 then none else items[n.toNat]?

/-- The wiki that an item names, in the list or object of the wikis. -/
def wikiAt? (wikis wiki : Json) : Option Json :=
  match wikis, wiki with
  | .list items, .int n => elementAt? items n
  | .list items, .bool b => elementAt? items (if b then 1 else 0)
  | .object _, .text name => wikis.field? name
  | _, _ => none

/-- The field of a value that may itself say nothing. -/
def fieldIfAny (v : Json) (name : String) : Outline.Asked Json :=
  if v.isTruthy then Outline.fieldOf v name else .ok .null

/-- A value as the text of an attribute; the words of a list are joined by spaces. -/
def attributeText : Json → Outline.Asked String
  | .list items => return String.intercalate " " (← items.mapM fun
      | .text s => .ok s
      | v => .error (.notText v))
  | v => .ok v.display

/-- The language of the site of an article; without one, that of the collection. -/
def articleLanguage (s : Setting) (wiki : Json) : Work String := do
  let wikis := (s.outline.field? "wikis").getD .null
  match (wikiAt? wikis wiki).bind (·.field? "baseurl") with
  | none =>
    Work.say .warning .collection ("No wiki " ++ wiki.quoted ++ " in metabook, using the collection language")
    return s.language
  | some address =>
    let site := (← got (s.sites.value? address)).getD .null
    let general ← asked (fieldIfAny site "general")
    let lang ← asked (fieldIfAny general "lang")
    if lang.isTruthy then asked (attributeText lang) else return s.language

/-! ### Articles -/

/-- Typesets a document into a file, and gives the languages that it uses. What has been written stays, should the
document fail. -/
def writeDocument (file : Path) (markup : String) (o : ArticleOptions) (title? : Option String)
    (lang : String) : Work (List String) := do
  let r := Article.typeset markup.toList o title? (some lang) (← get).warned
  modify fun w => { w with warned := r.warned }
  Work.note r.log
  Work.writeText file r.latex
  match r.outcome with
  | .ok used => return used
  | .error e => throw (.article e)

/-- The languages of a document added to those that are used. -/
def Progress.using (p : Progress) (used : List String) : Progress := { p with used := (p.used ++ used).eraseDups }

/-- The wiki of an item; without one, the first. -/
def wikiOf (item : Json) : Json := (item.field? "wiki").getD (.int 0)

/-- The key of an article in the store of documents. -/
def documentKey (wiki revision : Json) : String :=
  if wiki.isTruthy then wiki.display ++ "|" ++ revision.display else revision.display

/-- The file of an article. -/
def articleFile (build : Path) (wiki revision : Json) : Path :=
  (Workspace.latexIn build).child (wiki.display ++ "-" ++ revision.display ++ ".tex")

/-- Writes an article. -/
def writeArticle (s : Setting) (p : Progress) (item : Json) : Work Progress := do
  let wiki := wikiOf item
  let revision ← asked (Outline.fieldOf item "revision")
  let title ← asked (Outline.fieldOf item "title")
  Work.report (.step 1 (some "Processing article") title)
  let file := articleFile s.build wiki revision
  match ← got (s.documents.text? (.text (documentKey wiki revision))) with
  | none => throw (.articleMissing title revision)
  | some markup =>
    writeMain s.build (inputLine file ++ "\n")
    Work.writeText file ""
    let lang ← articleLanguage s wiki
    let title ← asked (Outline.textOf item "title")
    return p.using (← writeDocument file markup s.options (some title) lang)

/-- The file that tells who wrote the articles. -/
def attributionFile (build : Path) : Path := (Workspace.bundleIn build).child "attribution.html"

/-- Writes who wrote the articles, if the bundle tells. -/
def writeAttribution (s : Setting) (p : Progress) : Work Progress := do
  let source := attributionFile s.build
  if ← Work.pathIsTaken source then
    writeMain s.build "\\attributions\n"
    Work.report (.step 1 (some "Processing attribution") (.text ""))
    let markup ← Work.readText source
    let file := (Workspace.latexIn s.build).child "attribution.tex"
    writeMain s.build (inputLine file ++ "\n")
    Work.writeText file ""
    let lang ← articleLanguage s (.int 0)
    return p.using (← writeDocument file markup { s.options with isAttribution := true } none lang)
  else
    Work.report (.step 1 (some "Processing attribution (skipped)") .null)
    return p

/-- Writes an item of a chapter, which has to be an article. -/
def writeChild (s : Setting) (p : Progress) (item : Json) : Work Progress := do
  let type ← asked (Outline.fieldOf item "type")
  if type.same (.text "article") then writeArticle s p item
  else
    Work.say .warning .collection ("Unknown item type '" ++ type.display ++ "' inside chapter, ignoring")
    return p

/-- Changes the number of columns, if an item asks for another than the one in force. -/
def switchColumns (s : Setting) (p : Progress) (item : Json) : Work Progress := do
  match item.field? "columns" with
  | none => return p
  | some columns =>
    if columns.same p.columns then return p
    let command := if columns.same (.int 1) then "\\onecolumn\n" else "\\twocolumn\n"
    writeMain s.build command
    return { p with columns }

/-- Writes a chapter. -/
def writeChapter (s : Setting) (p : Progress) (item : Json) : Work Progress := do
  Work.report (.step 1 (some "Processing chapter") (← asked (Outline.fieldOf item "title")))
  let p ← switchColumns s p item
  let title ← asked (Outline.textOf item "title")
  writeMain s.build ("\\chapter\x7b" ++ Latex.escapeString title ++ "\x7d\n")
  (← asked (Outline.itemsOf item)).foldlM (writeChild s) p

/-- Writes an item of the collection. -/
def writeItem (s : Setting) (p : Progress) (item : Json) : Work Progress := do
  let type ← asked (Outline.fieldOf item "type")
  if type.same (.text "article") then writeArticle s p item
  else if type.same (.text "chapter") then writeChapter s p item
  else
    Work.say .warning .collection ("Unknown item type '" ++ type.display ++ "', ignoring")
    return p

/-- Opens the stage of the collection, with a step for the outline, each item, and the attribution. -/
def announce (outline : Json) : Work Unit := do
  if (← get).watched then
    let items ← asked (Outline.countItems outline)
    Work.stage (items + 1) "Processing collection"
    Work.report (.step 1 none (← asked (Outline.fieldOf outline "title")))

/-- Writes the LaTeX of a collection into a build directory, and gives the languages that it uses. -/
def writeSources (outline : Json) (build : Path) (images : Media.ImageMap) (o : ConversionOptions) :
    Work (List String) := do
  announce outline
  let (head, layout) ← asked (Header.ofOutline outline build o)
  Work.writeText (mainFile build) head
  let s ← openSetting outline build images.byText o layout
  let items ← asked (Outline.itemsOf outline)
  let p ← items.foldlM (writeItem s) { columns := .int layout.columns, used := [s.language] }
  let p ← writeAttribution s p
  writeMain build "\\end\x7bdocument\x7d"
  Work.writeText (languagesFile build) (Language.Setup.render s.language p.used)
  let names := p.used.mergeSort fun a b => a ≤ b
  Work.say .info .collection
    ("Wrote LaTeX for " ++ toString names.length ++ " languages: " ++ String.intercalate ", " names)
  return p.used

end WikiTypeset.Collection
