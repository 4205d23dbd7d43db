import WikiTypeset.Article.Figures
import WikiTypeset.Article.Lists
import WikiTypeset.Article.Role

/-!
# The walk through a document

Every element is typeset by its role, and every text is written. The walk carries a bound on how deep it goes, since
a change of language or direction enters an element again, and a template with several images leads into tables
beside it; `depthBound` is large enough for every tree. Main definitions: `visitFrom` and `visit`.
-/

namespace WikiTypeset.Article

open Html Latex Typeset

/-- Typesets an element by its role, with `visit` for what it contains. -/
def visitAs (visit : Visit) (role : Role) (p : Place) : Typeset Unit :=
  match role with
  | .hidden | .backLink => pure ()
  | .language => visitLanguage visit p
  | .direction => visitDirection visit p
  | .image => visitImage visit p
  | .math => visitMath false p.element
  | .references => visitReferences visit p
  | .multipleImage => visitMultipleImage visit p
  | .citation => visitScript visit "sup" p
  | .anchor => visitAnchor visit p
  | .paragraph => visitParagraph visit p
  | .heading => visitHeading visit p
  | .inline => visitInline visit p.element.name p
  | .script => visitScript visit p.element.name p
  | .lineBreak => emit Emit.lineBreak
  | .wordBreak => write ['\u200B']
  | .environment => visitEnvironment visit p
  | .list => visitList visit p
  | .descriptionList => visitDescriptionList visit p
  | .term => visitTerm visit p
  | .definition => visitDefinition visit p
  | .listItem => visitListItem visit p
  | .table => visitTable p
  | .figure => visitFigure visit p none
  | .div => visitDiv visit p
  | .children => visitChildren visit p

/-- Typesets content, given a bound on the depth of the walk. -/
def visitFrom : Nat → Visit
  | 0, _ => throw .exhausted
  | _ + 1, .text kind s => if kind = .plain || kind = .literal then write s else pure ()
  | depth + 1, .element p => do
    let t ← get
    let (role, log) := roleOf t.language t.direction p.element
    note log
    visitAs (visitFrom depth) role p

/-- The place at the root of the tree that a place is in. -/
def rootOf (p : Place) : Place := p.ancestors.getLast?.getD p

/-- A bound on the depth of a walk that begins at a place. An element is entered at most three times in a row: for a
change of language, for a change of direction, and as itself. Inside a figure no further table is led into. -/
def depthBound (p : Place) : Nat := 6 * (rootOf p).element.toNode.height + 8

/-- Typesets an element. -/
def visit (p : Place) : Typeset Unit := visitFrom (depthBound p) (.element p)

end WikiTypeset.Article
