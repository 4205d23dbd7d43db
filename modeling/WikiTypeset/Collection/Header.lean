import WikiTypeset.Bundle.Outline
import WikiTypeset.Bundle.Workspace
import WikiTypeset.Language.Table
import WikiTypeset.Latex.Escape

/-!
# The head of a collection

The preamble and front matter of the main file. The outline and the options decide the document class, the columns,
the title page and the table of contents. Main definitions: `Layout`, `Header.ofOutline`.
-/

namespace WikiTypeset.Collection

open Files Latex

/-- What the articles have to know about the document that they are part of. -/
structure Layout where
  columns : Nat
  hasChapters : Bool
  /-- The collection is one article, or none; its document class has no chapters. -/
  singleItem : Bool
  language : Json
  deriving Repr

/-- The file with the set-up of the languages. -/
def languagesFile (build : Path) : Path := build.child "languages.tex"

/-- The main file. -/
def mainFile (build : Path) : Path := build.child "output.tex"

/-- The command that reads a file. -/
def inputLine (file : Path) : String := "\\input\x7b" ++ file.toText ++ "\x7d"

namespace Header

/-- The command for a number of columns. -/
def columnsWord (columns : Nat) : String := if columns = 1 then "onecolumn" else "twocolumn"

/-- The class of the document: an article if there is a single item, else a report, which has chapters. -/
def className (singleItem : Bool) : String := if singleItem then "article" else "report"

/-- The line that names the class of the document with its options. -/
def classLine (columns : Nat) (titlePage singleItem : Bool) : String :=
  "\\documentclass[10pt," ++ columnsWord columns ++ ",twoside,fleqn" ++ (if titlePage then ",titlepage" else "") ++
    "]\x7b" ++ className singleItem ++ "\x7d"

/-- The font of texts whose script has none of its own. -/
def mainFontLine : String :=
  "\\setmainfont[" ++ Language.defaultFont.options ++ "]\x7b" ++ Language.defaultFont.name ++ "\x7d"

/-- The lines of the preamble that all documents of a class share. -/
def preambleLines (columns : Nat) (titlePage singleItem : Bool) : List String :=
  ["%!TEX TS-program = xelatex",
    "%!TEX encoding = UTF-8 Unicode",
    "",
    classLine columns titlePage singleItem,
    "\\pagestyle\x7bheadings\x7d",
    "\\usepackage\x7bfontspec, xunicode, polyglossia, graphicx, xltxtra\x7d",
    "\\usepackage\x7bamsmath,amsthm,amstext,amssymb\x7d",
    "\\usepackage[usenames]\x7bxcolor\x7d",
    "\\definecolor\x7blinkcolor\x7d\x7brgb\x7d\x7b.27,0,0\x7d",
    "\\definecolor\x7bcitecolor\x7d\x7brgb\x7d\x7b0,0,.27\x7d",
    "\\usepackage[unicode,colorlinks,breaklinks,allcolors=linkcolor,linkcolor=citecolor]\x7bhyperref\x7d",
    "\\urlstyle\x7bsame\x7d",
    mainFontLine,
    "\\newcommand\x7b\\LTRfont\x7d\x7b\x7d",
    "\\newcommand\x7b\\textsmall\x7d[1]\x7b\x7b\\small #1\x7d\x7d",
    -- smaller type and one column for attributions
    "\\newcommand\x7b\\attributions\x7d\x7b\\renewcommand\x7b\\textsmall\x7d[1]\x7b\x7b\\scriptsize ##1\x7d\x7d" ++
      "\\footnotesize\\onecolumn\x7d",
    "\\date\x7b\x7d\\author\x7b\x7d"]

/-- The line that separates paragraphs by space where they are not indented. -/
def spacingLines (parindent : Bool) : List String :=
  if parindent then [] else ["\\setlength\x7b\\parindent\x7d\x7b0pt\x7d\\setlength\x7b\\parskip\x7d\x7b5pt\x7d"]

/-- The lines that name the title, and with it the subtitle if there is one. -/
def titleLines (title : String) (subtitle? : Option String) : List String :=
  let subtitle := match subtitle? with
    | some s => " \\\\ " ++ escapeString s
    | none => ""
  ["\\hypersetup\x7bpdftitle=\x7b" ++ escapeString title ++ "\x7d\x7d",
    "\\title\x7b\x7b\\Huge " ++ escapeString title ++ "\x7d" ++ subtitle ++ "\x7d"]

/-- The lines of the table of contents. -/
def contentsLines (hasContents : Bool) : List String :=
  if hasContents then
    ["\\pagenumbering\x7broman\x7d\\tableofcontents\\newpage", "\\pagenumbering\x7barabic\x7d"]
  else []

/-- The lines of the summary, if there is one. -/
def summaryLines : Option String → List String
  | some s => ["\\begin\x7babstract\x7d", escapeString s, "\\end\x7babstract\x7d"]
  | none => []

/-- Whether an item is a chapter. -/
def isChapter (item : Json) : Outline.Asked Bool := return (← Outline.fieldOf item "type").same (.text "chapter")

/-- The layout that the outline and the options ask for. -/
def layout (outline : Json) (items : List Json) (o : ConversionOptions) : Outline.Asked Layout := do
  let oneColumn := o.oneColumn || (← Outline.fieldOf outline "columns").same (.int 1)
  let hasChapters ← items.anyM isChapter
  let named ← Outline.fieldOf outline "lang"
  return {
    columns := if oneColumn then 1 else 2
    hasChapters
    singleItem := !hasChapters && items.length ≤ 1
    language := match o.lang? with
      | some lang => .text lang
      | none => if named.isTruthy then named else .text Language.defaultCode }

/-- Whether there is a table of contents: as the options say, else as the outline says, else if there are several
items. -/
def hasContents (outline : Json) (items : List Json) (o : ConversionOptions) : Bool :=
  match o.toc?, outline.field? "toc" with
  | some toc, _ => toc
  | none, some (.bool toc) => toc
  | none, _ => 1 < items.length

/-- The title of the collection; without one, that of its only item. -/
def titleOf (outline : Json) (items : List Json) : Outline.Asked String := do
  let title ← Outline.textOf outline "title"
  match items with
  | [item] => if title.isEmpty then Outline.textOf item "title" else return title
  | _ => return title

/-- A text that is there and not empty. -/
def textIfAny (outline : Json) (name : String) : Outline.Asked (Option String) := do
  let s ← Outline.textOf outline name
  return if s.isEmpty then none else some s

/-- The head of the main file, and the layout of the document. -/
def ofOutline (outline : Json) (build : Path) (o : ConversionOptions) : Outline.Asked (String × Layout) := do
  let items ← Outline.itemsOf outline
  let layout ← layout outline items o
  let hasContents := hasContents outline items o
  let title ← titleOf outline items
  let subtitle? ← textIfAny outline "subtitle"
  let summary? ← textIfAny outline "summary"
  let lines := preambleLines layout.columns hasContents layout.singleItem ++ spacingLines o.parindent ++
    [inputLine (languagesFile build)] ++ titleLines title subtitle? ++
    ["\\graphicspath\x7b\x7b" ++ (Workspace.imagesIn build).toText ++ "/\x7d\x7d",
      "\\begin\x7bdocument\x7d\\maketitle"] ++
    contentsLines hasContents ++ summaryLines summary?
  return (String.join (lines.map (· ++ "\n")), layout)

end Header

end WikiTypeset.Collection
