import WikiTypeset.Files.Path
import WikiTypeset.Options.Setting

/-!
# Options for conversions

How a bundle is converted: where it is and where the result goes, the layout of the paper, and how much of the work
is done. Main definitions: `ConversionOptions`, `ConversionOptions.ofSettings`.
-/

namespace WikiTypeset

open Files Options

/-- The sizes of paper. -/
inductive PaperSize
  | letter
  | a4
  deriving DecidableEq, Repr, Inhabited

namespace PaperSize

/-- The name of a paper size. -/
def name : PaperSize → String
  | letter => "letter"
  | a4 => "a4"

/-- The paper size of a name. -/
def ofName? : String → Option PaperSize
  | "letter" => some letter
  | "a4" => some a4
  | _ => none

end PaperSize

/-- Options for one conversion. -/
structure ConversionOptions where
  /-- The archive or directory that holds the bundle. -/
  bundle : Path
  /-- The file for the result; without one it goes to the standard output. -/
  output? : Option Path := none
  size : PaperSize := .letter
  /-- Whether there is a table of contents; where this is not said, the bundle decides. -/
  toc? : Option Bool := none
  /-- The text is set in one column. -/
  oneColumn : Bool := false
  /-- Paragraphs are indented. -/
  parindent : Bool := false
  /-- The language of the collection; where this is not said, the bundle decides. -/
  lang? : Option String := none
  /-- The result is LaTeX, and is not compiled. -/
  latexOnly : Bool := false
  /-- The directory in which the build directory is made. -/
  temporary? : Option Path := none
  /-- The build directory is kept, and errors are passed on. -/
  debug : Bool := false
  /-- The metadata of JPEG images is left as it is. -/
  keepMetadata : Bool := false
  /-- How many images may be converted at a time. -/
  workers : Int := 5
  deriving Repr

namespace ConversionOptions

/-- A setting that is a path. -/
def pathSetting (name : String) (v : Json) : Except OptionsError Path := return Path.ofText (← textSetting name v)

/-- A setting that may be left open. -/
def openSetting {α : Type} (read : Json → Except OptionsError α) : Json → Except OptionsError (Option α)
  | .null => .ok none
  | v => (read v).map some

/-- What settings say about the options that are checked last. -/
structure Unchecked where
  options : ConversionOptions
  size : Json := .text PaperSize.letter.name
  workers : Json := .int 5
  lang : Json := .null

/-- One setting taken over. -/
def Unchecked.set (u : Unchecked) (name : String) (v : Json) : Except OptionsError Unchecked := do
  let o := u.options
  match name with
  | "bundle" => return { u with options := { o with bundle := ← pathSetting name v } }
  | "output" => return { u with options := { o with output? := ← openSetting (pathSetting name) v } }
  | "tmpdir" => return { u with options := { o with temporary? := ← openSetting (pathSetting name) v } }
  | "size" => return { u with size := v }
  | "max_workers" => return { u with workers := v }
  | "lang" => return { u with lang := v }
  | "toc" => return { u with options := { o with toc? := ← openSetting (fun v => .ok (flagSetting v)) v } }
  | "onecolumn" => return { u with options := { o with oneColumn := flagSetting v } }
  | "parindent" => return { u with options := { o with parindent := flagSetting v } }
  | "latex_only" => return { u with options := { o with latexOnly := flagSetting v } }
  | "debug" => return { u with options := { o with debug := flagSetting v } }
  | "skip_jpegtran" => return { u with options := { o with keepMetadata := flagSetting v } }
  | _ => throw (.unknownName name)

/-- The size of paper that a setting names. -/
def checkSize : Json → Except OptionsError PaperSize
  | .text s => (PaperSize.ofName? s).elim (.error (.badPaperSize (.text s))) .ok
  | v => .error (.badPaperSize v)

/-- The number of workers that a setting gives, which is positive. -/
def checkWorkers (v : Json) : Except OptionsError Int :=
  match v.whole? with
  | some n => if n ≤ 0 then .error (.badWorkers v) else .ok n
  | none => .error (.badKind "max_workers")

/-- The language that a setting names, which is not empty. -/
def checkLanguage (v : Json) : Except OptionsError (Option String) :=
  match v with
  | .null => .ok none
  | v => if v.isTruthy then (textSetting "lang" v).map some else .error .noLanguage

/-- The options after the checks: first the size of paper, then the workers, then the language. -/
def Unchecked.check (u : Unchecked) : Except OptionsError ConversionOptions := do
  let size ← checkSize u.size
  let workers ← checkWorkers u.workers
  let lang? ← checkLanguage u.lang
  return { u.options with size, workers, lang? }

/-- The options with some of them set anew. -/
def update (o : ConversionOptions) (settings : Settings) : Except OptionsError ConversionOptions := do
  let lang : Json := match o.lang? with
    | some s => .text s
    | none => .null
  let start : Unchecked := { options := o, size := .text o.size.name, workers := .int o.workers, lang }
  let u ← settings.foldlM (fun u (name, v) => u.set name v) start
  u.check

/-- The options for a bundle that settings describe. -/
def ofSettings (bundle : Path) (settings : Settings) : Except OptionsError ConversionOptions :=
  update { bundle } settings

end ConversionOptions

end WikiTypeset
