import WikiTypeset.Latex.Emitter

/-!
# Programs of emitter operations

The operations of an emitter as data, with the content of wrapped and isolated parts as programs of their own.
-/

namespace WikiTypeset.Latex

/-- An operation of an emitter. -/
inductive Operation
  | write (text : List Char)
  | record (d : Decoration)
  | wrap (command : String) (delimiters : Delimiters) (content : List Operation)
  | isolated (content : List Operation)
  | beginEnv (env options : String)
  | endEnv (env : String)
  | switchDirection (direction : NamedDirection)
  | assumeDirection (direction : NamedDirection)
  /-- Content after which the ambient direction is assumed that was assumed before it. -/
  | resuming (content : List Operation)
  | setCoverage (latinCoverage : Bool)
  | deepenList (n : Int)
  | deepenToc (n : Int)
  | paragraphBreak
  | lineBreak
  | envBreak
  | dirBreak
  | resetLine
  | flush

instance : Inhabited Operation := ⟨.flush⟩

mutual

/-- Performs an operation. -/
def Operation.perform : Operation → Emit Unit
  | .write text => Emit.write text
  | .record d => Emit.record d
  | .wrap command delimiters content => Emit.wrap command (performAll content) delimiters
  | .isolated content => Emit.isolated (performAll content)
  | .beginEnv env options => Emit.beginEnv env options
  | .endEnv env => Emit.endEnv env
  | .switchDirection direction => Emit.switchDirection direction
  | .assumeDirection direction => Emit.assumeDirection direction
  | .resuming content => do
    let direction := (← get).contextDir
    performAll content
    Emit.assumeDirection direction
  | .setCoverage latinCoverage => Emit.setCoverage latinCoverage
  | .deepenList n => modify fun e => { e with inList := e.inList + n }
  | .deepenToc n => modify fun e => { e with inToc := e.inToc + n }
  | .paragraphBreak => Emit.paragraphBreak
  | .lineBreak => Emit.lineBreak
  | .envBreak => Emit.envBreak
  | .dirBreak => Emit.dirBreak
  | .resetLine => Emit.resetLine
  | .flush => Emit.flush

/-- Performs a program. -/
def performAll : List Operation → Emit Unit
  | [] => pure ()
  | o :: os => do
    o.perform
    performAll os

end

end WikiTypeset.Latex
