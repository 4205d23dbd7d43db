import WikiTypeset.Proofs.Article.Blocks
import WikiTypeset.Proofs.Html.Hidden

/-!
# Where hidden content is looked at

A walk passes over the content of hidden elements, but some ways of typesetting look at what is below an element without
a walk. `isClear` says that what is seen in this way stands outside hidden elements. Main statement:
`visitFrom_cleared`, by which such a walk goes the same way when hidden content is taken out.
-/

namespace WikiTypeset.Article

open Html Latex Typeset

/-! ### What is looked at -/

/-- The images in an element, and their captions, stand outside hidden elements. -/
def figureIsClear (p : Place) : Bool :=
  (p.select (.anywhere { name? := some "img", attributes := [.present "resource"] })).head?.all (·.isExposed) &&
    (p.children.find? (·.element.name == "figcaption")).all (! ·.element.isHidden.1)

/-- The images and captions of a template stand outside hidden elements. -/
def imagesAreClear (p : Place) : Bool :=
  match quotedSelectorText? (p.element.attr "about").toList with
  | none => true
  | some name =>
    ((p.parent?.getD p).select (templateImages name)).all (fun q => q.isOpen && figureIsClear q) &&
      ((p.parent?.getD p).select (templateCaptions name)).all (·.isOpen)

/-- Whether what is looked at below a place, other than by a walk, stands outside hidden elements: the image in a link,
the text of a term, the formulas of a list that only indents them, the items of references, and the images and captions of
figures. -/
def isClear (p : Place) : Bool :=
  match ownRole p.element with
  | .anchor => p.element.cleared.descendants.any (·.name == "img") == p.element.descendants.any (·.name == "img")
  | .term =>
    decide (longTermLength < p.element.cleared.textContent.length) ==
      decide (longTermLength < p.element.textContent.length)
  | .descriptionList => !isFormulaList p.element || p.children.all (! ·.element.isHidden.1)
  | .references => p.children.all (! ·.element.isHidden.1)
  | .image | .figure => figureIsClear p
  | .multipleImage => imagesAreClear p
  | _ => true

/-- All that a walk may come to from a place is clear, unless it is hidden. -/
def IsClearAround (p : Place) : Prop := ∀ q ∈ p.surroundings, q.isOpen = true → isClear q = true

/-- A place where a walk may go on: it is open, and all around it is clear. -/
def IsClearing (p : Place) : Prop := IsClearAround p ∧ p.isOpen = true

/-- The content in the cleared tree. -/
def Content.cleared : Content → Content
  | .element p => .element p.cleared
  | .text kind s => .text kind s

/-- The content is not in a hidden element, and all around it is clear. -/
def Content.IsClear : Content → Prop
  | .element p => IsClearAround p ∧ p.isExposed = true
  | .text _ _ => True

variable {visit : Visit} {p q : Place}

theorem IsClearAround.child (h : IsClearAround p) (hq : q ∈ p.children) : IsClearAround q :=
  fun r hr => h r (Place.surroundings_child hq hr)

theorem IsClearAround.parent (h : IsClearAround p) (hq : p.parent? = some q) : IsClearAround q :=
  fun r hr => h r (Place.surroundings_parent hq hr)

theorem IsClearAround.descendant (h : IsClearAround p) (hq : q ∈ p.descendants) : IsClearAround q :=
  fun r hr => h r (Place.surroundings_descendant hq hr)

theorem contentsOf_cleared (h : p.element.isHidden.1 = false) : contentsOf p.cleared = (contentsOf p).map Content.cleared := by
  have hgo : ∀ before ns, contentsOf.go p.cleared (before.map Node.cleared) (ns.map Node.cleared) =
      (contentsOf.go p before ns).map Content.cleared := by
    intro before ns
    induction ns generalizing before with
    | nil => rfl
    | cons n ns ih =>
      have hrest := ih (n :: before)
      cases n with
      | text kind s =>
        rw [List.map_cons, Node.cleared] at hrest ⊢
        exact congrArg (Content.text kind s :: ·) hrest
      | element name attributes children =>
        rw [List.map_cons, Node.cleared, Node.allCleared_eq] at hrest ⊢
        simp only [contentsOf.go, List.map_cons, Content.cleared, Place.mk_cleared, Option.map_some, hrest]
        rfl
  rw [contentsOf, Place.element_cleared, Element.children_cleared h]
  exact hgo [] p.element.children

theorem mem_children_of_mem_contentsOf (h : .element q ∈ contentsOf p) : q ∈ p.children := by
  have hgo : ∀ before ns, Content.element q ∈ contentsOf.go p before ns → q ∈ Place.children.go p before ns := by
    intro before ns
    induction ns generalizing before with
    | nil => nofun
    | cons n ns ih =>
      intro hmem
      cases n with
      | text kind s =>
        rcases List.mem_cons.1 hmem with hmem | hmem
        · cases hmem
        · exact ih _ hmem
      | element name attributes children =>
        rcases List.mem_cons.1 hmem with hmem | hmem
        · cases hmem
          exact List.mem_cons_self
        · exact List.mem_cons_of_mem _ (ih _ hmem)
  exact hgo [] p.element.children h

theorem contents_clear (h : IsClearing p) : ∀ c ∈ contentsOf p, c.IsClear := by
  intro c hc
  cases c with
  | text kind s => exact trivial
  | element q =>
    have hq := mem_children_of_mem_contentsOf hc
    exact ⟨h.1.child hq, (Place.isExposed_of_isParent (Place.isParent_of_mem_children hq)).trans h.2⟩

/-- The visit of content that is clear is not changed by clearing. -/
def Overlooks (visit : Visit) : Prop := ∀ c : Content, c.IsClear → visit c.cleared = visit c

theorem visitChildren_cleared (hv : Overlooks visit) (h : IsClearing p) :
    visitChildren visit p.cleared = visitChildren visit p := by
  have hall : ∀ cs : List Content, (∀ c ∈ cs, c.IsClear) → (cs.map Content.cleared).forM visit = cs.forM visit := by
    intro cs hcs
    induction cs with
    | nil => rfl
    | cons c cs ih =>
      obtain ⟨hc, hcs⟩ := List.forall_mem_cons.1 hcs
      show (visit c.cleared >>= fun _ => (cs.map Content.cleared).forM visit) = (visit c >>= fun _ => cs.forM visit)
      rw [hv c hc, ih hcs]
  rw [visitChildren, contentsOf_cleared (Place.isHidden_of_isOpen h.2)]
  exact hall _ (contents_clear h)

/-! ### Running text -/

section RunningText

variable (h : visitChildren visit p.cleared = visitChildren visit p)
include h

theorem visitWrapped_cleared (command : String) : visitWrapped visit command p.cleared = visitWrapped visit command p := by
  rw [visitWrapped, h]
  rfl

theorem visitInline_cleared (name : String) : visitInline visit name p.cleared = visitInline visit name p :=
  visitWrapped_cleared h _

theorem visitScript_cleared (hopen : p.isOpen = true) (name : String) :
    visitScript visit name p.cleared = visitScript visit name p := by
  have hnumber : soleNumber? p.cleared.element = soleNumber? p.element := by
    rw [soleNumber?, soleNumber?, Place.element_cleared, Element.children_cleared (Place.isHidden_of_isOpen hopen)]
    rcases p.element.children with _ | ⟨⟨_⟩ | ⟨kind, s⟩, _ | ⟨n, ns⟩⟩
    all_goals simp [Node.cleared]
  rw [visitScript, visitScript, hnumber, visitInline_cleared h]

theorem visitAnchor_cleared (hclear : p.element.cleared.descendants.any (·.name == "img") =
    p.element.descendants.any (·.name == "img")) : visitAnchor visit p.cleared = visitAnchor visit p := by
  simp only [visitAnchor, Place.element_cleared, Element.attr_cleared, hclear, h, visitWrapped_cleared h]

theorem visitParagraph_cleared : visitParagraph visit p.cleared = visitParagraph visit p := by
  rw [visitParagraph, visitParagraph, h]

theorem visitHeading_cleared : visitHeading visit p.cleared = visitHeading visit p := by
  have htext : ∀ own switch, visitHeadingText visit p.cleared own switch = visitHeadingText visit p own switch := by
    intro own switch
    rw [visitHeadingText, visitHeadingText, h]
  have hlevel : ∀ o, headingLevel o p.cleared.element = headingLevel o p.element := by
    intro o
    rw [Place.element_cleared]
    rfl
  simp only [visitHeading, htext, hlevel]

theorem visitEnvironment_cleared : visitEnvironment visit p.cleared = visitEnvironment visit p := by
  simp only [visitEnvironment, Place.element_cleared, Element.name_cleared, h]

theorem visitDiv_cleared : visitDiv visit p.cleared = visitDiv visit p := by
  rw [visitDiv, visitDiv, h]

theorem visitListItem_cleared : visitListItem visit p.cleared = visitListItem visit p := by
  rw [visitListItem, visitListItem, h, visitParagraph_cleared h]

theorem visitList_cleared (hopen : p.isOpen = true) : visitList visit p.cleared = visitList visit p := by
  rw [visitList, visitList, Place.element_cleared, Element.firstShown?_cleared (Place.isHidden_of_isOpen hopen)]
  cases p.element.firstShown? with
  | none => rfl
  | some first =>
    simp only [Option.map_some, Element.name_cleared, startsWith, Node.isNamed_cleared, h]
    rfl

theorem visitTerm_cleared (hclear : decide (longTermLength < p.element.cleared.textContent.length) =
    decide (longTermLength < p.element.textContent.length)) : visitTerm visit p.cleared = visitTerm visit p := by
  have hlong := propext (decide_eq_decide.1 hclear)
  simp only [visitTerm, Place.element_cleared, hlong, h, visitParagraph_cleared h]

theorem visitDefinition_cleared : visitDefinition visit p.cleared = visitDefinition visit p := by
  rw [visitDefinition, visitDefinition, Place.shownBefore?_cleared, h, visitParagraph_cleared h]
  cases p.shownBefore? with
  | none => rfl
  | some previous =>
    simp only [Option.map_some, startsWith, Node.isNamed_cleared]
    rfl

omit h in
theorem isFormulaItem_cleared {item : Element} (hshown : item.isHidden.1 = false) :
    isFormulaItem item.cleared = isFormulaItem item := by
  rw [isFormulaItem, isFormulaItem, Element.elementChildren_cleared hshown]
  rcases item.elementChildren with _ | ⟨x, _ | ⟨y, ys⟩⟩ <;> rfl

omit h in
/-- Clearing makes no list one of formulas. -/
theorem isFormulaList_of_cleared {e : Element} (hshown : e.isHidden.1 = false) (hlist : isFormulaList e.cleared = true) :
    isFormulaList e = true := by
  have hitem : ∀ item : Element, isFormulaItem item.cleared = true → isFormulaItem item = true := by
    intro item hitem
    cases hhidden : item.isHidden.1 with
    | false => rwa [← isFormulaItem_cleared hhidden]
    | true => simp [isFormulaItem, Element.elementChildren, Element.cleared, hhidden] at hitem
  have hnames : hasTerm e.cleared = hasTerm e := by
    rw [hasTerm, hasTerm, Element.elementChildren_cleared hshown, List.any_map]
    rfl
  rw [isFormulaList, hnames, Element.elementChildren_cleared hshown, List.isEmpty_map, List.all_map] at hlist
  simp only [isFormulaList, Bool.and_eq_true, List.all_eq_true] at hlist ⊢
  exact ⟨hlist.1, fun item hmem => hitem item (hlist.2 item hmem)⟩

omit h in
theorem indentedFormulas?_cleared (hopen : p.isOpen = true) (hclear : ∀ q ∈ p.children, q.element.isHidden.1 = false) :
    indentedFormulas? p.cleared = (indentedFormulas? p).map (·.map Place.cleared) := by
  have hitem : ∀ q : Place, q.element.isHidden.1 = false → soleFormula? q.cleared = (soleFormula? q).map Place.cleared := by
    intro q hshown
    rw [soleFormula?, soleFormula?, Place.children_cleared hshown]
    rcases q.children with _ | ⟨r, _ | ⟨r', rs⟩⟩
    · rfl
    · by_cases hmath : r.element.attr? "typeof" = some "mw:Extension/math" <;> simp [hmath]
    · rfl
  have hall : ∀ qs : List Place, (∀ q ∈ qs, q.element.isHidden.1 = false) →
      (qs.map Place.cleared).mapM soleFormula? = (qs.mapM soleFormula?).map (·.map Place.cleared) := by
    intro qs hqs
    induction qs with
    | nil => rfl
    | cons q qs ih =>
      obtain ⟨hq, hqs⟩ := List.forall_mem_cons.1 hqs
      rw [List.map_cons, List.mapM_cons, List.mapM_cons, hitem q hq, ih hqs]
      cases soleFormula? q <;> cases qs.mapM soleFormula? <;> rfl
  rw [indentedFormulas?, indentedFormulas?, Place.children_cleared (Place.isHidden_of_isOpen hopen), List.isEmpty_map,
    hall _ hclear]
  split <;> rfl

/-- A list that is typeset as formulas has no hidden items. -/
theorem visitDescriptionList_cleared (hopen : p.isOpen = true)
    (hclear : (!isFormulaList p.element || p.children.all (! ·.element.isHidden.1)) = true) :
    visitDescriptionList visit p.cleared = visitDescriptionList visit p := by
  have hshown := Place.isHidden_of_isOpen hopen
  have hterm : hasTerm p.element.cleared = hasTerm p.element := by
    rw [hasTerm, hasTerm, Element.elementChildren_cleared hshown, List.any_map]
    rfl
  have hformulas : (if hasTerm p.element then none else indentedFormulas? p.cleared) =
      (if hasTerm p.element then none else indentedFormulas? p).map (·.map Place.cleared) := by
    cases hlist : isFormulaList p.element with
    | true =>
      rw [hlist, Bool.not_true, Bool.false_or, List.all_eq_true] at hclear
      rw [indentedFormulas?_cleared hopen fun q hq => by simpa using hclear q hq]
      split <;> rfl
    | false =>
      have hnone := (indentedFormulas?_isSome p).trans hlist
      have hnone' := indentedFormulas?_isSome p.cleared
      rw [Place.element_cleared, hterm, Bool.eq_false_iff.2 fun hcleared =>
        absurd (isFormulaList_of_cleared hshown hcleared) (by simp [hlist])] at hnone'
      rw [Option.isSome_eq_false_iff, Option.isNone_iff_eq_none] at hnone hnone'
      rw [hnone, hnone']
      rfl
  have hmath : ∀ qs : List Place, (qs.map Place.cleared).forM (fun q => visitMath true q.element) =
      qs.forM fun q => visitMath true q.element := by
    intro qs
    induction qs with
    | nil => rfl
    | cons q qs ih =>
      show (visitMath true q.cleared.element >>= fun _ => _) = _
      rw [ih, Place.element_cleared]
      rfl
  rw [visitDescriptionList, visitDescriptionList, Place.element_cleared, Element.firstShown?_cleared hshown, hterm]
  cases p.element.firstShown? with
  | none => rfl
  | some first =>
    simp only [Option.map_some, hformulas, startsWith, Node.isNamed_cleared, h]
    cases (if hasTerm p.element then none else indentedFormulas? p) with
    | none => rfl
    | some formulas => exact hmath formulas

end RunningText

/-! ### Reference lists -/

theorem visitReferences_cleared (hv : Overlooks visit) (h : IsClearing p)
    (hclear : p.children.all (! ·.element.isHidden.1) = true) : visitReferences visit p.cleared = visitReferences visit p := by
  obtain ⟨haround, hopen⟩ := h
  have hitem : ∀ q ∈ p.children, visitChildren visit q.cleared = visitChildren visit q := by
    intro q hq
    have hshown := List.all_eq_true.1 hclear q hq
    have hexposed : q.isExposed = true :=
      (Place.isExposed_of_isParent (Place.isParent_of_mem_children hq)).trans hopen
    exact visitChildren_cleared hv ⟨haround.child hq, by rw [Place.isOpen, hshown, hexposed]; rfl⟩
  have hall : ∀ (qs : List Place) (number : Nat), qs ⊆ p.children →
      visitReferencesFrom visit number (qs.map Place.cleared) = visitReferencesFrom visit number qs := by
    intro qs
    induction qs with
    | nil => exact fun _ _ => rfl
    | cons q qs ih =>
      intro number hqs
      obtain ⟨hq, hqs⟩ := List.cons_subset.1 hqs
      rw [List.map_cons, visitReferencesFrom, visitReferencesFrom, hitem q hq, ih _ hqs, Place.element_cleared,
        Element.attr_cleared]
  simp only [visitReferences, Place.children_cleared (Place.isHidden_of_isOpen hopen), List.isEmpty_map,
    hall _ 1 (List.Subset.refl _)]

/-! ### Figures -/

theorem imageIn?_cleared (hopen : p.isOpen = true) (hclear : (p.select (.anywhere { name? := some "img", attributes :=
    [.present "resource"] })).head?.all (·.isExposed) = true) : imageIn? p.cleared = (imageIn? p).map Element.cleared := by
  rw [imageIn?, imageIn?, Place.select_cleared hopen]
  generalize p.select (.anywhere { name? := some "img", attributes := [.present "resource"] }) = images at hclear
  cases images with
  | nil => rfl
  | cons q qs =>
    have hq : q.isExposed = true := hclear
    simp [List.filter_cons_of_pos hq]

theorem visitCaption_cleared (hv : Overlooks visit) (h : IsClearing p) :
    visitCaption visit p.cleared = visitCaption visit p := by
  rw [visitCaption, visitCaption, visitChildren_cleared hv h]

theorem setFigure_cleared (hv : Overlooks visit) (filename : String) {caption? : Option Place}
    (hcaption : ∀ caption ∈ caption?, IsClearing caption) :
    setFigure visit filename (caption?.map Place.cleared) = setFigure visit filename caption? := by
  cases caption? with
  | none => rfl
  | some caption =>
    simp only [setFigure, Option.map_some, visitCaption_cleared hv (hcaption caption rfl)]

/-- A caption in an element, or else another one. -/
theorem visitFigure_cleared (hv : Overlooks visit) (h : IsClearing p) (hclear : figureIsClear p = true)
    (other? : Option Place) (hother : ∀ caption ∈ other?, IsClearing caption) :
    visitFigure visit p.cleared (other?.map Place.cleared) = visitFigure visit p other? := by
  obtain ⟨haround, hopen⟩ := h
  obtain ⟨himage, hcaption⟩ := Bool.and_eq_true_iff.1 hclear
  have hfound : (p.cleared.children.find? (·.element.name == "figcaption") <|> other?.map Place.cleared) =
      (p.children.find? (·.element.name == "figcaption") <|> other?).map Place.cleared := by
    rw [Place.children_cleared (Place.isHidden_of_isOpen hopen), List.find?_map]
    simp only [Function.comp_def, Place.element_cleared, Element.name_cleared]
    cases p.children.find? (·.element.name == "figcaption") <;> rfl
  have hcaptions : ∀ caption ∈ (p.children.find? (·.element.name == "figcaption") <|> other?), IsClearing caption := by
    intro caption hmem
    cases hchild : p.children.find? (·.element.name == "figcaption") with
    | none =>
      rw [hchild] at hmem
      exact hother caption hmem
    | some q =>
      rw [hchild] at hmem hcaption
      cases hmem
      have hq := List.mem_of_find?_eq_some hchild
      refine ⟨haround.child hq, ?_⟩
      rw [Place.isOpen, Place.isExposed_of_isParent (Place.isParent_of_mem_children hq), hopen, Bool.and_true]
      exact hcaption
  rw [visitFigure, visitFigure, imageIn?_cleared hopen himage, hfound]
  cases imageIn? p with
  | none => rfl
  | some img =>
    simp only [Option.map_some, Element.attr_cleared, setFigure_cleared hv _ hcaptions, Place.element_cleared]
    rfl

theorem visitImage_cleared (hv : Overlooks visit) (h : IsClearing p) (hclear : figureIsClear p = true) :
    visitImage visit p.cleared = visitImage visit p := by
  have hfigure : visitFigure visit p.cleared none = visitFigure visit p none :=
    visitFigure_cleared hv h hclear none nofun
  rw [visitImage, visitImage, imageIn?_cleared h.2 (Bool.and_eq_true_iff.1 hclear).1, hfigure]
  cases imageIn? p <;> rfl

theorem visitFigures_cleared (hv : Overlooks visit) {images captions : List Place}
    (himages : ∀ q ∈ images, IsClearing q ∧ figureIsClear q = true) (hcaptions : ∀ q ∈ captions, IsClearing q) :
    visitFigures visit (images.map Place.cleared) (captions.map Place.cleared) = visitFigures visit images captions := by
  induction images generalizing captions with
  | nil => rfl
  | cons image images ih =>
    obtain ⟨⟨himage, hclear⟩, himages⟩ := List.forall_mem_cons.1 himages
    cases captions with
    | nil =>
      have hfigure : visitFigure visit image.cleared none = visitFigure visit image none :=
        visitFigure_cleared hv himage hclear none nofun
      have hrest := ih himages (List.forall_mem_nil _)
      rw [List.map_nil] at hrest ⊢
      rw [List.map_cons, visitFigures, visitFigures, hfigure, hrest]
    | cons caption captions =>
      obtain ⟨hcaption, hcaptions⟩ := List.forall_mem_cons.1 hcaptions
      have hfigure : visitFigure visit image.cleared (some caption.cleared) = visitFigure visit image (some caption) :=
        visitFigure_cleared hv himage hclear (some caption) fun _ hmem => Option.mem_some.1 hmem ▸ hcaption
      rw [List.map_cons, List.map_cons, visitFigures, visitFigures, hfigure, ih himages hcaptions]

theorem visitMultipleImage_cleared (hv : Overlooks visit) (h : IsClearing p) (hclear : imagesAreClear p = true) :
    visitMultipleImage visit p.cleared = visitMultipleImage visit p := by
  have hscope : p.cleared.parent?.getD p.cleared = (p.parent?.getD p).cleared := by
    rw [Place.parent?_cleared]
    cases p.parent? <;> rfl
  obtain ⟨haround, hopen⟩ : IsClearing (p.parent?.getD p) := by
    cases hparent : p.parent? with
    | none => exact h
    | some q =>
      refine ⟨h.1.parent hparent, ?_⟩
      rw [Option.getD_some, ← Place.isExposed_of_parent hparent]
      exact (Bool.and_eq_true_iff.1 h.2).2
  rw [visitMultipleImage, visitMultipleImage, hscope, Place.element_cleared, Element.attr_cleared]
  unfold imagesAreClear at hclear
  cases hname : quotedSelectorText? (p.element.attr "about").toList with
  | none => rfl
  | some name =>
    simp only [hname, Bool.and_eq_true, List.all_eq_true] at hclear
    obtain ⟨himages, hcaptions⟩ := hclear
    have hselect : ∀ s : Selector, (∀ q ∈ (p.parent?.getD p).select s, q.isOpen = true) →
        (p.parent?.getD p).cleared.select s = ((p.parent?.getD p).select s).map Place.cleared := by
      intro s hs
      rw [Place.select_cleared hopen, List.filter_eq_self.2 fun q hq => (Bool.and_eq_true_iff.1 (hs q hq)).2]
    have hbelow : ∀ (s : Selector), ∀ q ∈ (p.parent?.getD p).select s, IsClearAround q :=
      fun s q hq => haround.descendant ((List.mem_filter.1 hq).1)
    have hfigures := visitFigures_cleared hv (fun q hq => ⟨⟨hbelow _ q hq, (himages q hq).1⟩, (himages q hq).2⟩)
      fun q hq => ⟨hbelow _ q hq, hcaptions q hq⟩
    rw [← hselect _ fun q hq => (himages q hq).1, ← hselect _ hcaptions] at hfigures
    simp only [hfigures]

/-! ### The walk -/

theorem visitLanguage_cleared (h : visit (.element p.cleared) = visit (.element p)) :
    visitLanguage visit p.cleared = visitLanguage visit p := by
  simp only [visitLanguage, Place.element_cleared, Element.attr_cleared, h]
  rfl

theorem visitDirection_cleared (h : visit (.element p.cleared) = visit (.element p)) :
    visitDirection visit p.cleared = visitDirection visit p := by
  simp only [visitDirection, Place.element_cleared, h]
  rfl

theorem visitAs_cleared (hv : Overlooks visit) (h : IsClearing p) {role : Role}
    (hrole : role = .language ∨ role = .direction ∨ role = ownRole p.element) :
    visitAs visit role p.cleared = visitAs visit role p := by
  have hself : visit (.element p.cleared) = visit (.element p) :=
    hv (.element p) ⟨h.1, (Bool.and_eq_true_iff.1 h.2).2⟩
  have hchildren := visitChildren_cleared hv h
  have hclear := h.1 p p.mem_surroundings_self h.2
  rcases hrole with rfl | rfl | rfl
  · exact visitLanguage_cleared hself
  · exact visitDirection_cleared hself
  · unfold isClear at hclear
    cases hown : ownRole p.element
    all_goals rw [hown] at hclear
    case hidden | backLink | lineBreak | wordBreak => rfl
    case language => exact visitLanguage_cleared hself
    case direction => exact visitDirection_cleared hself
    case math => rw [visitAs, visitAs, Place.element_cleared]; rfl
    case table => rw [visitAs, visitAs, visitTable, visitTable, Place.element_cleared]; rfl
    case image => exact visitImage_cleared hv h hclear
    case figure => exact visitFigure_cleared hv h hclear none nofun
    case multipleImage => exact visitMultipleImage_cleared hv h hclear
    case references => exact visitReferences_cleared hv h hclear
    case citation => exact visitScript_cleared hchildren h.2 _
    case anchor => exact visitAnchor_cleared hchildren (eq_of_beq hclear)
    case paragraph => exact visitParagraph_cleared hchildren
    case heading => exact visitHeading_cleared hchildren
    case inline =>
      rw [visitAs, visitAs, Place.element_cleared]
      exact visitInline_cleared hchildren _
    case script =>
      rw [visitAs, visitAs, Place.element_cleared]
      exact visitScript_cleared hchildren h.2 _
    case environment => exact visitEnvironment_cleared hchildren
    case list => exact visitList_cleared hchildren h.2
    case descriptionList => exact visitDescriptionList_cleared hchildren h.2 hclear
    case term => exact visitTerm_cleared hchildren (eq_of_beq hclear)
    case definition => exact visitDefinition_cleared hchildren
    case listItem => exact visitListItem_cleared hchildren
    case div => exact visitDiv_cleared hchildren
    case children => exact hchildren

/-- However deep a walk goes, it goes the same way when hidden content is taken out. -/
theorem visitFrom_cleared (depth : Nat) : Overlooks (visitFrom depth) := by
  induction depth with
  | zero =>
    intro c _
    cases c <;> rfl
  | succ depth ih =>
    intro c hc
    cases c with
    | text kind s => rfl
    | element p =>
      obtain ⟨haround, hexposed⟩ := hc
      have hvisit : ∀ language direction,
          visitAs (visitFrom depth) (roleOf language direction p.element).1 p.cleared =
            visitAs (visitFrom depth) (roleOf language direction p.element).1 p := by
        intro language direction
        cases hhidden : p.element.isHidden.1 with
        | true =>
          rw [roleOf_eq, if_pos hhidden]
          rfl
        | false =>
          have hopen : p.isOpen = true := by rw [Place.isOpen, hhidden, hexposed]; rfl
          exact visitAs_cleared ih ⟨haround, hopen⟩ (roleOf_own language direction p.element)
      rw [Content.cleared, visitFrom_succ, visitBy, visitBy, Place.element_cleared]
      refine bind_congr fun t => ?_
      exact congrArg (fun a => note (roleOf t.language t.direction p.element).2 >>= fun _ => a)
        (hvisit t.language t.direction)

end WikiTypeset.Article
