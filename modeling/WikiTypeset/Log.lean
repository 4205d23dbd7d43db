/-!
# Log records

What the library reports about its work besides its results: records of four levels, each from a part of the
library that has a name of its own.
-/

namespace WikiTypeset

/-- How serious a record is. -/
inductive LogLevel
  | debug
  | info
  | warning
  | error
  deriving DecidableEq, Repr, Inhabited

namespace LogLevel

/-- The name of the level in printed records. -/
def name : LogLevel → String
  | debug => "DEBUG"
  | info => "INFO"
  | warning => "WARNING"
  | error => "ERROR"

/-- The level with the given printed name. -/
def ofName? : String → Option LogLevel
  | "DEBUG" => some debug
  | "INFO" => some info
  | "WARNING" => some warning
  | "ERROR" => some error
  | _ => none

/-- The levels in ascending order of seriousness. -/
def rank : LogLevel → Nat
  | debug => 0
  | info => 1
  | warning => 2
  | error => 3

/-- Whether a record of level `l` is shown where records from `threshold` on are. -/
def reaches (l threshold : LogLevel) : Bool := threshold.rank ≤ l.rank

end LogLevel

/-- The parts of the library that write records. -/
inductive LogSource
  | languages
  | emitter
  | articles
  | markup
  | collection
  | bundle
  | media
  | compiler
  | conversion
  | commandLine
  | root
  deriving DecidableEq, Repr, Inhabited

/-- The name of the source in traced records. -/
def LogSource.name : LogSource → String
  | languages => "wiki2latex.languages"
  | emitter => "wiki2latex.formatter"
  | articles => "wiki2latex.visitor"
  | markup => "wiki2latex.utils.dom"
  | collection => "wiki2latex.collection"
  | bundle => "wiki2latex.bundle"
  | media => "wiki2latex.media"
  | compiler => "wiki2latex.compiler"
  | conversion => "wiki2latex.api"
  | commandLine => "wiki2latex.cli"
  | root => "root"

/-- A record of the log. -/
structure LogRecord where
  level : LogLevel
  source : LogSource
  text : String
  deriving DecidableEq, Repr

/-- The records in order of time. -/
abbrev Log := List LogRecord

end WikiTypeset
