import WikiTypeset.CommandLine.Arguments
import WikiTypeset.Conversion.Workshop

/-!
# What the user is told

Records of the log, from a level on, and on request the events of progress, as lines in the order of time. A log file
gets the same records. Main definitions: `Diagnostics.lines`, `Diagnostics.logLines`.
-/

namespace WikiTypeset.CommandLine

open Progress

/-- What the user wants to be told. -/
structure Diagnostics where
  /-- The level from which records are shown. -/
  threshold : LogLevel
  /-- Records show their time and source. -/
  trace : Bool
  /-- Events of progress are shown. -/
  showsProgress : Bool
  /-- What stands for the time. -/
  time : String

namespace Diagnostics

/-- What arguments ask to be told. Tracing shows all records; a verbose run shows one level more than usual. -/
def ofArguments (a : Arguments) (time : String) : Diagnostics where
  threshold := if a.trace then .debug else if a.verbose && a.logLevel = .warning then .info else a.logLevel
  trace := a.trace
  showsProgress := a.verbose && !a.rich
  time := time

/-- The line of a record. -/
def recordLine (d : Diagnostics) (r : LogRecord) : String :=
  if d.trace then "[" ++ d.time ++ "] [" ++ r.level.name ++ "] [" ++ r.source.name ++ "] " ++ r.text
  else r.level.name ++ ": " ++ r.text

/-- The lines of notices, with progress as a reporter reckons it. -/
def linesFrom (d : Diagnostics) (r : Reporter Double) : List Notice → List String
  | [] => []
  | .record x :: notices =>
    if x.level.reaches d.threshold then d.recordLine x :: d.linesFrom r notices else d.linesFrom r notices
  | .report x :: notices =>
    let (r, event) := r.take x
    if d.showsProgress then event.text :: d.linesFrom r notices else d.linesFrom r notices
  | .line s :: notices => s :: d.linesFrom r notices

/-- The lines that the user is told. -/
def lines (d : Diagnostics) (stages : Int) (notices : List Notice) : List String :=
  d.linesFrom (Reporter.start stages) notices

/-- The lines of the log file. -/
def logLines (d : Diagnostics) (log : Log) : List String :=
  (log.filter (·.level.reaches d.threshold)).map d.recordLine

end Diagnostics

end WikiTypeset.CommandLine
