import WikiTypeset.Article.Role
import WikiTypeset.Article.Typesetter

/-!
# Changes of language and direction

An element in another language or direction is entered twice: first the change takes effect, and then the element is
typeset as if it had always been so.
-/

namespace WikiTypeset.Article

open Html Latex Typeset

/-- The command that sets inline text in a language. -/
def languageCommand (l : Language) (withOptions : Bool) : String :=
  "\\text" ++ l.name ++ if withOptions && !l.options.isEmpty then "[" ++ l.options ++ "]" else ""

/-- Typesets an element in its own language. -/
def visitLanguage (visit : Visit) (p : Place) : Typeset Unit := do
  let lang := p.element.attr "lang"
  let t ← get
  let context := t.emitter.contextDir
  modify fun t => { t with used := if t.used.contains lang then t.used else t.used ++ [lang] }
  let previous ← lookup t.language
  let l ← lookup lang
  modify fun t => { t with language := lang }
  let body : Typeset Unit := do
    if t.inHeading then
      visit (.element p)
    else if p.element.isParagraph then
      beginLanguage l
      updateLtrFont l
      emit (Emit.setCoverage l.latinCoverage)
      emit (Emit.assumeDirection l.direction)
      visit (.element p)
      emit (Emit.endEnv l.environment)
      emit (Emit.setCoverage previous.latinCoverage)
      emit (Emit.assumeDirection context)
    else
      wrap (languageCommand l true) do
        emit (Emit.assumeDirection l.direction)
        emit (Emit.setCoverage l.latinCoverage)
        visit (.element p)
      emit (Emit.setCoverage previous.latinCoverage)
      emit (Emit.assumeDirection context)
  Action.finishing body (modify fun s => { s with language := t.language })

/-- Typesets an element in its own direction. -/
def visitDirection (visit : Visit) (p : Place) : Typeset Unit := do
  let t ← get
  let direction := directionOf t.direction p.element
  modify fun t => { t with direction }
  let body : Typeset Unit := do
    if t.inHeading then visit (.element p)
    else
      emit (Emit.switchDirection direction)
      visit (.element p)
      emit (Emit.switchDirection t.direction)
  Action.finishing body (modify fun s => { s with direction := t.direction })

end WikiTypeset.Article
