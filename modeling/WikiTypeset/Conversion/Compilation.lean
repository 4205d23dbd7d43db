import WikiTypeset.Collection.Header

/-!
# Compiling

The driver is the file that the compiler starts from; it reads the main file of the collection. The compiler runs
until its log asks for no further run. Main definitions: `Compilation.driver`, `needsRerun`, `compile`.
-/

namespace WikiTypeset.Compilation

open Files

/-- The name of the driver and of what is made from it, without endings. -/
def jobName : String := "document"

/-- The text of the driver. -/
def driver (build : Path) : String := Collection.inputLine (Collection.mainFile build) ++ "\n"

/-- Whether a text occurs in another. -/
def occursIn (s : List Char) : List Char → Bool
  | [] => s.isEmpty
  | c :: t => s.isPrefixOf (c :: t) || occursIn s t

/-- The texts by which a log asks for another run. -/
def rerunSigns : List String := ["No file output.toc.", "Package hyperref Warning: Rerun"]

/-- Whether a log asks for another run. -/
def needsRerun (log : String) : Bool := rerunSigns.any fun sign => occursIn sign.toList log.toList

/-- How many lines of a log an error shows. -/
def excerptLength : Nat := 20

/-- The last lines of a log. -/
def excerpt (log : String) : String :=
  let lines := (Text.lines log.toList).map String.ofList
  String.intercalate "\n" (lines.drop (lines.length - excerptLength))

/-- How often the compiler runs at most. -/
def passLimit : Nat := 3

/-- Writes the result to the output that the options name. -/
def writeOutput (c : Content) (o : ConversionOptions) : Work Unit := do
  match o.output? with
  | none => Work.print (c.text?.getD "")
  | some file =>
    let w ← get
    match w.tree.locate w.here file >>= (w.tree.write · c) with
    | .ok tree => set { w with tree }
    | .error fault => throw (.cannotWrite { fault, path := file.toText })

/-- The log of the last run; the empty text if there is none. -/
def readLog (build : Path) : Work String := do
  let file := build.child (jobName ++ ".log")
  if ← Work.pathIsTaken file then Work.readText file else return ""

/-- Runs the compiler for the `n`-th time and on, as long as its log asks for it and `left` runs are left. -/
def runPasses (build : Path) (command : List String) (n : Nat) : Nat → Work Unit
  | 0 =>
    Work.say .warning .compiler ("xelatex still requests a rerun after " ++ toString passLimit ++ " passes")
  | left + 1 => do
    Work.say .info .compiler ("Running xelatex (pass " ++ toString n ++ ")")
    let status ← Work.runCompiler build jobName command
    if status ≠ 0 then throw (.compilerFailed status (excerpt (← readLog build)))
    if needsRerun (← readLog build) then runPasses build command (n + 1) left

/-- Compiles the collection in a build directory, and gives the PDF. -/
def makePdf (build : Path) (size : PaperSize) : Work Content := do
  match (← get).programs.find? "xelatex" with
  | none =>
    throw (.dependency "compiler" ["xelatex"]
      (some "xelatex is required to build a PDF; use --latex to emit LaTeX instead"))
  | some program =>
    let source := jobName ++ ".tex"
    Work.writeText (build.child source) (driver build)
    let command :=
      [program, "-interaction=nonstopmode", "-halt-on-error", "-papersize=" ++ size.name, source]
    runPasses build command 1 passLimit
    let pdf := build.child (jobName ++ ".pdf")
    unless ← Work.pathIsTaken pdf do throw (.noPdf (excerpt (← readLog build)))
    Work.readContent pdf

/-- Gives out the driver, or the PDF that it compiles to. -/
def compile (build : Path) (o : ConversionOptions) : Work Unit := do
  Work.stage 0 "Compiling PDF"
  if o.latexOnly then writeOutput (.text (driver build)) o
  else writeOutput (← makePdf build o.size) o

end WikiTypeset.Compilation
