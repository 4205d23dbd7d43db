import WikiTypeset.CommandLine.Diagnostics
import WikiTypeset.Conversion.Convert

/-!
# A run of the command line

A run converts a bundle, or one document. It ends with a status; of failures that have none, it leaves the
cause. Main definitions: `Session.run`, `Session.Ending`.
-/

namespace WikiTypeset.CommandLine

open Files Options

/-- The options of the conversion that the arguments ask for. -/
def Arguments.conversion (a : Arguments) (bundle : String) : Except OptionsError ConversionOptions := do
  let workers ← ConversionOptions.checkWorkers (.int a.workers)
  let lang? ← ConversionOptions.checkLanguage (a.lang?.elim .null .text)
  return {
    bundle := .ofText bundle
    output? := a.output?
    size := a.size
    toc? := a.toc?
    oneColumn := a.oneColumn
    parindent := a.parindent
    lang?
    latexOnly := a.latexOnly
    temporary? := a.temporary?
    debug := a.debug
    keepMetadata := a.keepMetadata
    workers }

/-- The bundle that the arguments name. -/
def Arguments.source (a : Arguments) : Option Path := a.bundle?.map .ofText

/-- All files and directories that the arguments name. -/
def Arguments.paths (a : Arguments) : List Path :=
  [a.source, a.output?, a.temporary?, a.html?, a.logFile?.map .ofText].filterMap id

namespace Session

/-- Tells the user of an error. -/
def complain (text : String) : Work Unit := Work.tell (.line ("Error: " ++ text))

/-- Typesets one document as LaTeX. -/
def typesetDocument (a : Arguments) (html : Path) : Work Nat := do
  match ← (Work.readText html).attempt with
  | .error e =>
    complain ("cannot read " ++ html.toText ++ ": " ++ e.message)
    return FailureKind.file.exitStatus
  | .ok markup =>
    let code := match a.lang? with
      | some lang => if lang.isEmpty then Language.defaultCode else lang
      | none => Language.defaultCode
    let language ← Work.lookup code
    let options : ArticleOptions := { lang := code, direction := language.direction, parindent := a.parindent }
    let r := Article.typeset markup.toList options none none (← get).warned
    modify fun w => { w with warned := r.warned }
    Work.note r.log
    match r.outcome with
    | .error e => throw (.article e)
    | .ok used =>
      match a.output? with
      | some file => Work.writeText file r.latex
      | none => Work.print r.latex
      let names := used.mergeSort fun a b => a ≤ b
      Work.say .info .commandLine
        ("Languages used: " ++ if names.isEmpty then "none" else String.intercalate ", " names)
      return 0

/-- Converts the bundle that the arguments name. -/
def convertNamed (a : Arguments) : Work Nat := do
  let bundle := a.bundle?.getD ""
  if bundle.isEmpty then
    complain "a bundle file or directory is required"
    return FailureKind.validation.exitStatus
  unless ← Work.pathIsTaken (.ofText bundle) do
    complain ("bundle not found: " ++ bundle)
    return FailureKind.file.exitStatus
  match a.conversion bundle with
  | .error e =>
    complain e.message
    return FailureKind.validation.exitStatus
  | .ok options => convert options

/-- Opens the log file, if there is to be one. -/
def openLog (a : Arguments) : Work (Option Path) := do
  match a.logFile? with
  | none => return none
  | some name =>
    if name.isEmpty then return none
    let file ← Work.absolute (.ofText name)
    match ← (Work.appendText file "").attempt with
    | .ok () =>
      Work.say .info .root ("Logging to file: " ++ name)
      return some file
    | .error e =>
      Work.say .warning .root ("Could not open log file " ++ name ++ ": " ++ e.message)
      return none

/-- Does what the arguments ask for. A failure with a status of its own is told, and ends the run with it. -/
def obey (a : Arguments) : Work Nat := do
  let work := match a.html? with
    | some html => typesetDocument a html
    | none => convertNamed a
  match ← work.attempt with
  | .ok status => return status
  | .error e =>
    if e.kind = .other then throw e
    if a.debug then Work.say .error .commandLine "Conversion failed"
    else complain e.message
    return e.kind.exitStatus

/-- How a run ends. -/
structure Ending where
  /-- The status, or the cause of a failure that has none. -/
  status : Except Failure Nat
  output : String
  errors : List String
  workshop : Workshop
  /-- What helps a user whose words make no sense. -/
  advice : String := ""

/-- The text that tells the version. -/
def versionText : String := "wiki2latex 0.3.0\n"

/-- The text that tells how the command line is used. -/
def usageText : String :=
  "usage: wiki2latex [option ...] [bundle]\noptions:\n" ++
    String.join (optionEntries.map fun o =>
      "  " ++ String.intercalate ", " o.names ++ (if o.effect.takesValue then " VALUE" else "") ++ "\n")

/-- The ending of a run that does no work. -/
def stopped (why : Stop) (w : Workshop) : Ending :=
  match why with
  | .version => ⟨.ok 0, versionText, [], w, ""⟩
  | .help => ⟨.ok 0, usageText, [], w, ""⟩
  | .usage => ⟨.ok 2, "", [], w, usageText⟩

/-- Runs the command line in a workshop. -/
def run (words : List String) (w : Workshop) : Ending :=
  match Arguments.read words with
  | .error why => stopped why w
  | .ok a =>
    let d := Diagnostics.ofArguments a w.time
    let (logFile, w) := (openLog a).perform w
    let (status, w) := (obey a).perform w
    let log := String.join ((d.logLines w.log).map (· ++ "\n"))
    let w := match logFile with
      | .ok (some file) => ((Work.appendText file log).perform w).2
      | _ => w
    { status, output := w.output, errors := d.lines conversionStages w.notices, workshop := w }

/-- What words ask for; of words that ask for nothing, the usual. -/
def argumentsOf (words : List String) : Arguments := (Arguments.read words).toOption.getD {}

end Session

end WikiTypeset.CommandLine
