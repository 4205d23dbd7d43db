import WikiTypeset.Article.Walk
import WikiTypeset.Proofs.Html.Surroundings

/-!
# The texts of documents

The texts of an element that are typeset, in order: all that is not blank below it, apart from what is left out with an
element of its own, and twice what stands in a heading. `textsOf` gives them in two ways: as they are typeset, and with
the text that is lost beside the formulas of a list, or in a line break.
-/

namespace WikiTypeset.Article

open Html

/-- The role of an element by what it is, whatever the language and the direction around it. -/
def ownRole (e : Element) : Role := (roleOf (languageOf "" e) (directionOf .ltr e) e).1

/-- Whether an item is one formula, texts aside. -/
def isFormulaItem (item : Element) : Bool :=
  match item.elementChildren with
  | [x] => x.attr? "typeof" = some "mw:Extension/math"
  | _ => false

/-- Whether a list of definitions has formulas for its items, so that it only indents them. -/
def isFormulaList (e : Element) : Bool :=
  !hasTerm e && !e.elementChildren.isEmpty && e.elementChildren.all isFormulaItem

/-- Whether a heading is left out: in another heading, or because it would repeat the title of a lone document. -/
def isUntitled (o : ArticleOptions) (headed : Bool) (e : Element) : Bool :=
  (o.singleItem && headingLevel o e = 0) || headed

/-- The role of an element by its annotations and its name, if it is shown. -/
def plainRole (e : Element) : Role :=
  match (attributeWords e "typeof").findSome? typeRole? with
  | some role => role
  | none =>
    if e.isMultipleImage.1 then .multipleImage
    else match (attributeWords e "rel").findSome? relationRole? with
      | some role => role
      | none => (roleByName e).1

theorem roleOf_eq (language : String) (direction : Direction) (e : Element) :
    (roleOf language direction e).1 =
      if e.isHidden.1 then .hidden else if languageOf language e ≠ language then .language
      else if directionOf direction e ≠ direction then .direction else plainRole e := by
  unfold roleOf plainRole
  rcases e.isHidden with ⟨hidden, log⟩
  rcases e.isMultipleImage with ⟨multiple, again⟩
  rcases roleByName e with ⟨role, more⟩
  dsimp only
  repeat' split
  all_goals first | rfl | simp_all

theorem ownRole_eq (e : Element) : ownRole e = if e.isHidden.1 then .hidden else plainRole e := by
  have hlanguage : languageOf (languageOf "" e) e = languageOf "" e := by
    by_cases hlang : (e.attr "lang").isEmpty = true
    · simp [languageOf, hlang]
    · simp [languageOf, hlang]
  have hdirection : directionOf (directionOf .ltr e) e = directionOf .ltr e := by
    unfold directionOf
    cases Direction.ofName? (Text.lowerString (e.attr "dir")) <;> rfl
  rw [ownRole, roleOf_eq, hlanguage, hdirection]
  simp

/-- The role of an element anywhere is its own, unless the element changes the language or the direction. -/
theorem roleOf_own (language : String) (direction : Direction) (e : Element) :
    (roleOf language direction e).1 = .language ∨ (roleOf language direction e).1 = .direction ∨
      (roleOf language direction e).1 = ownRole e := by
  rw [roleOf_eq, ownRole_eq]
  by_cases hhidden : e.isHidden.1 = true
  · simp [hhidden]
  · by_cases hl : languageOf language e = language
    · by_cases hd : directionOf direction e = direction
      · simp [hhidden, hl, hd]
      · simp [hhidden, hl, hd]
    · simp [hhidden, hl]

mutual

/-- The texts of a node, in a heading or outside. If all texts count as `whole`, then those in line breaks do, and those
beside the formulas of a list that only indents them. -/
def textsOf (o : ArticleOptions) (whole headed : Bool) : Node → List (List Char)
  | .text kind s => if (Node.text kind s).isVoid then [] else [s]
  | .element name attributes children =>
    match ownRole ⟨name, attributes, children⟩ with
    | .hidden | .backLink | .math | .table | .image | .figure | .multipleImage => []
    | .lineBreak => if whole then allTextsOf o whole headed children else []
    | .wordBreak => ['\u200B'] :: if whole then allTextsOf o whole headed children else []
    | .references => itemTextsOf o whole headed children
    | .heading =>
      if isUntitled o headed ⟨name, attributes, children⟩ then []
      else allTextsOf o whole true children ++ allTextsOf o whole true children
    | .descriptionList =>
      if isFormulaList ⟨name, attributes, children⟩ && !whole then [] else allTextsOf o whole headed children
    | _ => allTextsOf o whole headed children

/-- The texts of nodes. -/
def allTextsOf (o : ArticleOptions) (whole headed : Bool) : List Node → List (List Char)
  | [] => []
  | n :: ns => textsOf o whole headed n ++ allTextsOf o whole headed ns

/-- The texts in the elements among the nodes, which are items. -/
def itemTextsOf (o : ArticleOptions) (whole headed : Bool) : List Node → List (List Char)
  | [] => []
  | .element _ _ children :: ns => allTextsOf o whole headed children ++ itemTextsOf o whole headed ns
  | .text _ _ :: ns => itemTextsOf o whole headed ns

end

/-- The texts of an element go by its own role. -/
theorem textsOf_toNode (o : ArticleOptions) (whole headed : Bool) (e : Element) :
    textsOf o whole headed e.toNode = match ownRole e with
    | .hidden | .backLink | .math | .table | .image | .figure | .multipleImage => []
    | .lineBreak => if whole then allTextsOf o whole headed e.children else []
    | .wordBreak => ['\u200B'] :: if whole then allTextsOf o whole headed e.children else []
    | .references => itemTextsOf o whole headed e.children
    | .heading =>
      if isUntitled o headed e then [] else allTextsOf o whole true e.children ++ allTextsOf o whole true e.children
    | .descriptionList => if isFormulaList e && !whole then [] else allTextsOf o whole headed e.children
    | _ => allTextsOf o whole headed e.children := by
  obtain ⟨name, attributes, children⟩ := e
  rw [Element.toNode, textsOf]

variable {o : ArticleOptions} {whole headed : Bool}

theorem ownRole_likens {e e' : Element} (h : e.Likens e') : ownRole e = ownRole e' := by
  have hwords : ∀ name, name ≠ "lang" → name ≠ "dir" → attributeWords e name = attributeWords e' name := by
    intro name hl hd
    rw [attributeWords, attributeWords, h.attr name hl hd]
  have hname : roleByName e = roleByName e' := by rw [roleByName, roleByName, h.name]
  rw [ownRole_eq, ownRole_eq, h.isHidden, plainRole, plainRole, hwords "typeof" (by decide) (by decide),
    hwords "rel" (by decide) (by decide), h.isMultipleImage, hname]

/-- The texts of an element do not depend on its language and direction. -/
theorem textsOf_likens {e e' : Element} (h : e.Likens e') (hchildren : e.children = e'.children) :
    textsOf o whole headed e.toNode = textsOf o whole headed e'.toNode := by
  have huntitled : isUntitled o headed e = isUntitled o headed e' := by
    rw [isUntitled, isUntitled, headingLevel, headingLevel, h.name]
  have hlist : isFormulaList e = isFormulaList e' := by
    rw [isFormulaList, isFormulaList, hasTerm, hasTerm, Element.elementChildren, Element.elementChildren, hchildren]
  rw [textsOf_toNode, textsOf_toNode, ownRole_likens h, huntitled, hlist, hchildren]

/-- Nodes that show nothing have no text. -/
theorem allTextsOf_of_void {ns : List Node} (h : ∀ n ∈ ns, n.isVoid = true) : allTextsOf o whole headed ns = [] := by
  induction ns with
  | nil => rfl
  | cons n ns ih =>
    obtain ⟨hn, hns⟩ := List.forall_mem_cons.1 h
    cases n with
    | element => cases hn
    | text kind s => simp [allTextsOf, textsOf, hn, ih hns]

theorem allTextsOf_of_empty {e : Element} (h : e.firstShown? = none) : allTextsOf o whole headed e.children = [] := by
  refine allTextsOf_of_void fun n hn => ?_
  have hvoid := List.find?_eq_none.1 h n hn
  simpa using hvoid

end WikiTypeset.Article
