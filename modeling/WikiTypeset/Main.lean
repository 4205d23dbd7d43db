import WikiTypeset.CommandLine.Session
import WikiTypeset.Files.Change

/-!
# The program

Reads the files that the arguments name, runs the command line on them, and changes the files as the run has changed
its tree. It starts no other program, so that all of them count as missing.
-/

namespace WikiTypeset.Program

open CommandLine Files

/-- The text of a place. -/
def textOf (place : List String) : String := Path.toText { root := "/", names := place }

/-- What stands at a place, and below it if all is wanted. A place that cannot be read is left out. -/
partial def load (isDeep : Bool) (place : List String) : IO (List (List String × Entry)) := do
  try
    let path ← IO.FS.realPath (textOf place)
    if ← path.isDir then
      if isDeep then
        let inside ← (← path.readDir).toList.mapM fun e => load isDeep (place ++ [e.fileName])
        return (place, .directory) :: inside.flatten
      return [(place, .directory)]
    return [(place, .file (.bytes (← IO.FS.readBinFile path)))]
  catch _ => return []

/-- The tree of what the arguments name, with the directories on the way. -/
def loadTree (a : Arguments) (here : List String) (temporary : Path) : IO Tree := do
  let bundle := a.source.map (·.resolve here)
  let places := (temporary :: a.paths).flatMap (·.places here)
  let way ← (places.filter (· ∉ bundle)).mapM (load false)
  let inside ← bundle.toList.mapM (load true)
  return { entries := way.flatten ++ inside.flatten }

/-- Does a step on the files. -/
def perform : Change → IO Unit
  | .removeFile place => IO.FS.removeFile (textOf place)
  | .removeDirectory place => IO.FS.removeDir (textOf place)
  | .makeDirectory place => IO.FS.createDir (textOf place)
  | .writeFile place (.text s) => IO.FS.writeFile (textOf place) s
  | .writeFile place (.bytes b) => IO.FS.writeBinFile (textOf place) b
  | .writeFile _ _ => pure ()

/-- Runs the command line. -/
def run (words : List String) : IO UInt32 := do
  let here := (Path.ofText (← IO.currentDir).toString).names
  let temporary := Path.ofText ((← IO.getEnv "TMPDIR").getD "/tmp")
  let tree ← loadTree (Session.argumentsOf words) here temporary
  let time := toString (← IO.monoMsNow)
  let e := Session.run words { tree, here, temporary, time, duration := "0.00s", freshStem := time ++ "-" }
  (tree.changesTo e.workshop.tree).forM perform
  IO.print e.output
  e.errors.forM IO.eprintln
  IO.eprint e.advice
  match e.status with
  | .ok status => return status.toUInt32
  | .error failure =>
    IO.eprintln failure.message
    return 1

end WikiTypeset.Program

/-- The entry of the program. -/
def main (words : List String) : IO UInt32 := WikiTypeset.Program.run words
