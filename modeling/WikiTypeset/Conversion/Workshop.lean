import WikiTypeset.Action
import WikiTypeset.Conversion.Failure
import WikiTypeset.Progress.Reporter

/-!
# The place of work

A conversion works on a tree of files, runs programs, and tells what it does. A workshop is all that such work starts
from and leaves behind. Main definitions: `Workshop`, `Work` and its basic actions.
-/

namespace WikiTypeset

open Files Progress

/-- What a program that is asked to convert an image comes to. -/
inductive ProgramOutcome
  | succeeds
  | fails (status : Int)
  /-- There is no such program. -/
  | missing
  deriving DecidableEq, Repr

/-- What one run of the compiler leaves. -/
structure CompilerPass where
  log? : Option String := none
  pdf? : Option String := none
  status : Int := 0
  deriving DecidableEq, Repr, Inhabited

/-- The programs that can be run. -/
structure Programs where
  /-- Where a program is installed. -/
  find? : String → Option String := fun _ => none
  /-- What a program comes to that converts images; none of them touches another file than it is asked to write. -/
  outcome : String → ProgramOutcome := fun _ => .missing
  /-- What the runs of the compiler leave; the last one stands for all later runs. -/
  passes : List CompilerPass := []

/-- Something that work tells. -/
inductive Notice
  | record (r : LogRecord)
  | report (r : Report)
  /-- A line for the user. -/
  | line (s : String)
  deriving Repr

/-- All that work starts from and leaves behind. -/
structure Workshop where
  tree : Tree
  /-- The current directory. -/
  here : List String
  /-- The directory for temporary files. -/
  temporary : Path
  programs : Programs := {}
  /-- Whether anyone asks for progress. -/
  watched : Bool := true
  /-- What stands for the time in what is told, as no clock is read. -/
  time : String := "now"
  /-- What stands for durations. -/
  duration : String := "no time"
  /-- The beginning of every fresh word. -/
  freshStem : String := "rnd"
  /-- How many fresh words have been drawn. -/
  drawn : Nat := 0
  /-- The commands that have been run, the latest first. -/
  commands : List (List String) := []
  /-- What has been told, the latest first. -/
  told : List Notice := []
  /-- What has been written to the standard output, the latest first. -/
  printed : List String := []
  /-- The language codes that a warning has been given for. -/
  warned : List String := []

namespace Workshop

/-- What has been told, in order. -/
def notices (w : Workshop) : List Notice := w.told.reverse

/-- The records that have been logged, in order. -/
def log (w : Workshop) : Log :=
  w.notices.filterMap fun
    | .record r => some r
    | _ => none

/-- The reports of progress, in order. -/
def reports (w : Workshop) : List Report :=
  w.notices.filterMap fun
    | .report r => some r
    | _ => none

/-- The text on the standard output. -/
def output (w : Workshop) : String := String.join w.printed.reverse

end Workshop

/-- Work that may fail. -/
abbrev Work (α : Type) := Action Workshop Failure α

namespace Work

/-- Tells something. -/
def tell (n : Notice) : Work Unit := modify fun w => { w with told := n :: w.told }

/-- Logs records. -/
def note (log : Log) : Work Unit := log.forM fun r => tell (.record r)

/-- Logs a record. -/
def say (level : LogLevel) (source : LogSource) (text : String) : Work Unit := tell (.record ⟨level, source, text⟩)

/-- Reports progress, if anyone asks for it. -/
def report (r : Report) : Work Unit := do if (← get).watched then tell (.report r)

/-- Opens a stage. -/
def stage (length : Nat) (message : String) : Work Unit := report (.stage length (some message) .null)

/-- Writes to the standard output. -/
def print (s : String) : Work Unit := modify fun w => { w with printed := s :: w.printed }

/-- The language of a code; an unknown code is warned about once. -/
def lookup (code : String) : Work Language := do
  let (warned, log) := Language.noteLookup (← get).warned code
  modify fun w => { w with warned }
  note log
  return Language.ofCode code

/-! ### Files -/

/-- The action of a function of the tree on the place where a path leads; its faults are told of that path. -/
def onFile {α : Type} (p : Path) (f : Tree → List String → Except FileFault α) : Work α := do
  let w ← get
  match w.tree.locate w.here p >>= f w.tree with
  | .ok x => return x
  | .error fault => throw (.file { fault, path := p.toText })

/-- A change of the tree at the place where a path leads. -/
def changeFile (p : Path) (f : Tree → List String → Except FileFault Tree) : Work Unit := do
  let tree ← onFile p f
  modify fun w => { w with tree }

/-- What stands where a path leads. A path that leads nowhere is no failure, unless a name in it is too long. -/
def entry? (p : Path) : Work (Option Entry) := do
  let w ← get
  match w.tree.locate w.here p with
  | .ok place => return w.tree.entry place
  | .error .nameTooLong => throw (.file { fault := .nameTooLong, path := p.toText })
  | .error _ => return none

/-- Whether something stands where a path leads. -/
def pathIsTaken (p : Path) : Work Bool := return (← entry? p).isSome

/-- Makes a directory. -/
def makeDirectory (p : Path) : Work Unit := changeFile p fun t place => t.makeDirectory place

/-- Writes a text file. -/
def writeText (p : Path) (s : String) : Work Unit := changeFile p fun t place => t.write place (.text s)

/-- Writes at the end of a text file, which is made if there is none. -/
def appendText (p : Path) (s : String) : Work Unit :=
  changeFile p fun t place =>
    let before := ((t.content? place).bind (·.text?)).getD ""
    t.write place (.text (before ++ s))

/-- The text with every line end as a line feed. -/
def plainLines (s : String) : String := String.ofList (Text.normalizeNewlines s.toList)

/-- What a file holds. -/
def readContent (p : Path) : Work Content := onFile p fun t place => t.read place

/-- The text of a file, with every line end as a line feed. -/
def readText (p : Path) : Work String := return plainLines ((← readContent p).text?.getD "")

/-- Removes a file. -/
def removeFile (p : Path) : Work Unit := changeFile p fun t place => t.unlink place

/-- Removes what stands where a path leads with all below it; a path that leads nowhere is no failure. -/
def removeAll (p : Path) : Work Unit := do
  let w ← get
  match w.tree.locate w.here p with
  | .ok place => set { w with tree := w.tree.removeAll place }
  | .error _ => return

/-- Moves a file. -/
def moveFile (p q : Path) : Work Unit := do
  let w ← get
  let moved := do
    let source ← w.tree.locate w.here p
    let target ← w.tree.locate w.here q
    w.tree.move source target
  match moved with
  | .ok tree => set { w with tree }
  | .error fault => throw (.file { fault, path := p.toText, target? := some q.toText })

/-! ### Fresh names -/

/-- The `n`-th fresh word. -/
def freshWord (stem : String) (n : Nat) : String := stem ++ toString n

/-- Draws the first fresh word whose name in a directory is not taken. Of as many words as there are entries in
the tree, and one more, one is always free. -/
def drawName (directory : Path) (name : String → String) : Work String := do
  let w ← get
  let isFree (n : Nat) : Bool :=
    match w.tree.locate w.here (directory.child (name (freshWord w.freshStem n))) with
    | .ok place => !w.tree.isTaken place
    | .error _ => true
  let numbers := (List.range (w.tree.entries.length + 1)).map (w.drawn + 1 + ·)
  let n := (numbers.find? isFree).getD (w.drawn + 1)
  set { w with drawn := n }
  return name (freshWord w.freshStem n)

/-- The path as seen from the root. -/
def absolute (p : Path) : Work Path := return { root := "/", names := p.resolve (← get).here }

/-- Makes a directory with a fresh name. -/
def makeFreshDirectory (parent : Path) (start : String) : Work Path := do
  let p := parent.child (← drawName parent (start ++ ·))
  makeDirectory p
  return p

/-- Makes an empty file with a fresh name. -/
def makeFreshFile (directory : Path) (start ending : String) : Work Path := do
  let directory ← absolute directory
  let p := directory.child (← drawName directory (start ++ · ++ ending))
  writeText p ""
  return p

/-! ### Programs -/

/-- Runs a program that converts an image. -/
def run (command : List String) : Work Unit := do
  modify fun w => { w with commands := command :: w.commands }
  let name := command.headD ""
  match (← get).programs.outcome name with
  | .succeeds => return
  | .fails status => throw (.program command status)
  | .missing => throw (.file { fault := .notFound, path := name })

/-- What the next run of the compiler leaves, and what later runs leave. -/
def nextPass : List CompilerPass → CompilerPass × List CompilerPass
  | [] => ({}, [])
  | [pass] => (pass, [pass])
  | pass :: passes => (pass, passes)

/-- Runs the compiler in a directory, and gives its status. -/
def runCompiler (directory : Path) (job : String) (command : List String) : Work Int := do
  let w ← get
  let (pass, passes) := nextPass w.programs.passes
  set { w with commands := command :: w.commands, programs := { w.programs with passes } }
  match pass.log? with
  | some s => writeText (directory.child (job ++ ".log")) s
  | none => pure ()
  match pass.pdf? with
  | some s => writeText (directory.child (job ++ ".pdf")) s
  | none => pure ()
  return pass.status

end Work

end WikiTypeset
