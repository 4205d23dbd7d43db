import WikiTypeset.Bundle.Outline
import WikiTypeset.Bundle.Workspace
import WikiTypeset.Collection.Sources
import WikiTypeset.Conversion.Compilation
import WikiTypeset.Media.Preparation
import WikiTypeset.Media.Tools

/-!
# Converting a bundle

A conversion unpacks a bundle into a build directory, prepares its images, writes the LaTeX of the collection, and
compiles it. The build directory goes when all is done, unless someone wants to see it. Main definition: `convert`.
-/

namespace WikiTypeset

open Files

/-- The stages of a conversion. -/
def conversionStages : Int := 4

/-- Logs that work is done. -/
def sayDone (name : String) : Work Unit := do
  Work.say .debug .conversion (name ++ " completed in " ++ (← get).duration)

/-- Logs that work is done, if it has been. -/
def timed {α : Type} (name : String) (work : Work α) : Work α := do
  let x ← work
  sayDone name
  return x

/-- Whether the build directory stays: the driver reads it, and whoever looks for an error wants it. -/
def ConversionOptions.keepsBuild (o : ConversionOptions) : Bool := o.debug || o.latexOnly

/-- Removes a build directory, or says where it stays. -/
def leaveBuild (o : ConversionOptions) (build : Path) : Work Unit :=
  if o.keepsBuild then Work.say .info .conversion ("Build files kept in " ++ build.toText)
  else Work.removeAll build

/-- Warns of missing programs. -/
def warnOfMissingTools : Work Unit := do
  (Media.missingTools (← get).programs).forM fun tool =>
    Work.say .warning .conversion (tool.name ++ " not found; " ++ tool.purpose ++ " will fail")

/-- The stages that follow when the outline is known. -/
def produce (o : ConversionOptions) (build : Path) (outline : Json) : Work Unit := do
  warnOfMissingTools
  let images ← timed "Processing media" (Media.prepareImages build o)
  let _ ← timed "Generating LaTeX" (Collection.writeSources outline build images o)
  timed "Compiling" (Compilation.compile build o)
  Work.stage 0 "Done"

/-- The status of work: zero, or one if it fails; the failure is logged, or passed on to whoever looks for it. -/
def statusOf (o : ConversionOptions) (work : Work Unit) : Work Nat := do
  match ← work.attempt with
  | .ok () => return 0
  | .error e =>
    if o.debug then throw e
    Work.say .error .conversion ("Error: " ++ e.message)
    return 1

/-- The work in a build directory, from the outline on. -/
def workIn (o : ConversionOptions) (build : Path) : Work Unit := do
  let outline ← Outline.load (Workspace.bundleIn build)
  sayDone "Preparing workspace"
  produce o build outline

/-- Converts a bundle, and gives the status. -/
def convert (o : ConversionOptions) : Work Nat := do
  match ← (Workspace.prepare o).attempt with
  | .error e => statusOf o (throw e)
  | .ok build => (statusOf o (workIn o build)).finishing (leaveBuild o build)

end WikiTypeset
