import WikiTypeset.Article.Typesetter
import WikiTypeset.Formula.Check
import WikiTypeset.Html.Annotation

/-!
# Formulas in documents

A formula is typeset from the source in its metadata, in the line or on lines of its own. One that is broken or
needs a package that is not loaded is left out, with a record that says why.
-/

namespace WikiTypeset.Article

open Html Latex Typeset

/-- Whether the metadata of a formula asks for lines of its own. -/
def asksForDisplay (data : Json) : Bool :=
  match data.path? ["attrs", "display"] with
  | some (.text s) => s = "block"
  | _ => false

/-- Sets the LaTeX of a formula. -/
def setFormula (display : Bool) (output : String) : Typeset Unit := do
  if display then
    emit (Emit.beginEnv "equation*")
    fragment output
    emit (Emit.endEnv "equation*")
  else
    fragment ("$" ++ output ++ "$")
    emit Emit.envBreak

/-- Typesets a formula. -/
def visitMath (display : Bool) (e : Element) : Typeset Unit := do
  emit Emit.envBreak
  let (data?, log) := e.metadata "data-mw"
  note log
  match data?.bind fun data => (data.path? ["body", "extsrc"]).map (data, ·) with
  | none => say .info "Skipping math without source"
  | some (data, source) =>
    match Formula.check source.display.toList with
    | .error (.structural .noDelimiter) => throw .formulaEnded
    | .error reason => say .info ("Skipping broken math " ++ source.quoted ++ ": " ++ reason.details)
    | .ok formula =>
      if formula.supportedBy (← get).options.mathPackages then
        setFormula (display || asksForDisplay data) (String.ofList formula.output)
      else
        say .info ("Skipping math " ++ source.quoted ++ ": needs " ++ String.intercalate ", " formula.required)

end WikiTypeset.Article
