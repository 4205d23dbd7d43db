import WikiTypeset.Article.Formulas
import WikiTypeset.Article.Prose

/-!
# Lists

Lists with bullets or numbers, lists of terms and definitions, and reference lists. Every list that LaTeX knows as
one begins with an item: where the document has other content first, an empty item is set before it.
-/

namespace WikiTypeset.Article

open Html Latex Text Typeset

/-- Sets an item without a label of its own. -/
def emptyItem : Typeset Unit := mark "\\item\x7b\x7d"

/-- The environment of a block element. -/
def blockEnvironment : String → String
  | "center" => "center"
  | "blockquote" => "quotation"
  | "ul" => "itemize"
  | _ => "enumerate"

/-- Typesets an element as an environment. -/
def visitEnvironment (visit : Visit) (p : Place) : Typeset Unit := do
  let env := blockEnvironment p.element.name
  emit (Emit.beginEnv env)
  visitChildren visit p
  emit (Emit.endEnv env)

/-- Whether a node is an element of the given name. -/
def startsWith (name : String) (first : Node) : Bool := first.isNamed name

/-- Typesets a list with bullets or numbers; an empty one is left out. -/
def visitList (visit : Visit) (p : Place) : Typeset Unit := do
  match p.element.firstShown? with
  | none => return
  | some first =>
    let env := blockEnvironment p.element.name
    emit (Emit.beginEnv env)
    let saved := (← get).list
    let kind := if p.element.name = "ul" then ListKind.bullets else .numbers
    modify fun t => { t with list := { kind? := some kind } }
    let body : Typeset Unit := do
      unless startsWith "li" first do emptyItem
      visitChildren visit p
      emit (Emit.endEnv env)
    inList body fun t => { t with list := saved }

/-- Typesets an item of a list, which is a paragraph outside lists. -/
def visitListItem (visit : Visit) (p : Place) : Typeset Unit := do
  match (← get).list.kind? with
  | some .bullets | some .numbers =>
    emit Emit.envBreak
    emptyItem
    visitChildren visit p
  | _ => visitParagraph visit p

/-! ### Terms and definitions -/

/-- Whether the list has a term. -/
def hasTerm (e : Element) : Bool := e.elementChildren.any (·.name == "dt")

/-- The formula that is all that an item contains, if that is so. -/
def soleFormula? (p : Place) : Option Place :=
  match p.children with
  | [q] => if q.element.attr? "typeof" = some "mw:Extension/math" then some q else none
  | _ => none

/-- The formulas of a list whose items are formulas and nothing else; such a list only indents them. -/
def indentedFormulas? (p : Place) : Option (List Place) :=
  if p.children.isEmpty then none else p.children.mapM soleFormula?

/-- The environment of a list of definitions: with terms, or one that indents. -/
def definitionEnvironment (o : ArticleOptions) (terms : Bool) : String :=
  if terms then "description" else if o.parindent then "quotation" else "quote"

/-- Typesets a list of terms and definitions; an empty one is left out. -/
def visitDescriptionList (visit : Visit) (p : Place) : Typeset Unit := do
  match p.element.firstShown? with
  | none => return
  | some first =>
    let terms := hasTerm p.element
    match if terms then none else indentedFormulas? p with
    | some formulas => formulas.forM fun q => visitMath true q.element
    | none =>
      let saved := (← get).list
      modify fun t => { t with list := { kind? := some (if terms then .terms else .indent) } }
      let env := definitionEnvironment (← get).options terms
      let content : Typeset Unit := do
        if terms && !startsWith "dt" first then
          emptyItem
          modify fun t => { t with list := { t.list with sawTerm := true } }
        visitChildren visit p
        emit (Emit.endEnv env)
      let body : Typeset Unit := do
        emit (Emit.beginEnv env)
        if terms then inList content id else content
      Action.finishing body (modify fun t => { t with list := saved })

/-- The greatest length of a term that is set without a box of its own. -/
def longTermLength : Nat := 60

/-- Typesets a term, which is a paragraph outside lists of terms. -/
def visitTerm (visit : Visit) (p : Place) : Typeset Unit := do
  if (← get).list.kind? ≠ some .terms then visitParagraph visit p
  else
    let long := longTermLength < p.element.textContent.length
    modify fun t => { t with list := { t.list with sawTerm := false } }
    emit Emit.envBreak
    fragment "\\item["
    if long then fragment "\\parbox\x7b\\columnwidth\x7d\x7b"
    emit Emit.dirBreak
    emit Emit.resetLine
    visitChildren visit p
    emit Emit.dirBreak
    if long then fragment "\x7d"
    fragment "]"
    emit Emit.dirBreak
    modify fun t => { t with list := { t.list with sawTerm := true } }

/-- Typesets a definition, which is a paragraph outside lists of terms. One that follows no term is an item. -/
def visitDefinition (visit : Visit) (p : Place) : Typeset Unit := do
  if (← get).list.kind? ≠ some .terms then visitParagraph visit p
  else
    match p.shownBefore? with
    | none => pure ()
    | some previous =>
      unless startsWith "dt" previous do
        emit Emit.envBreak
        emptyItem
    visitChildren visit p

/-! ### Reference lists -/

/-- The label of the reference with a number, which links may lead to. -/
def referenceLabel (number : Nat) (id : String) : String :=
  let name := escapeString ("[" ++ toString number ++ "]")
  if id.isEmpty then "\x7b" ++ name ++ "\x7d" else "\\hypertarget\x7b" ++ id ++ "\x7d\x7b" ++ name ++ "\x7d"

/-- Typesets references from a number on. -/
def visitReferencesFrom (visit : Visit) : Nat → List Place → Typeset Unit
  | _, [] => pure ()
  | number, p :: ps => do
    emit Emit.envBreak
    mark ("\\item[" ++ referenceLabel number (p.element.attr "id") ++ "]\x7b\x7d")
    visitChildren visit p
    visitReferencesFrom visit (number + 1) ps

/-- Typesets a list of references; an empty one is left out. -/
def visitReferences (visit : Visit) (p : Place) : Typeset Unit := do
  let references := p.children
  unless references.isEmpty do
    emit (Emit.beginEnv "enumerate")
    inList (do
      fragment "\\small\n"
      visitReferencesFrom visit 1 references
      emit (Emit.endEnv "enumerate")) id

end WikiTypeset.Article
