import WikiTypeset.Proofs.Article.Hiding
import WikiTypeset.Proofs.Article.Origins
import WikiTypeset.Proofs.Article.Visits

/-!
# Documents without their hidden content

A cleared tree may be less high, and then its walk has a lower bound; but no walk of a document comes to its bound. So a
document in which all that is looked at stands outside hidden elements is typeset as if nothing stood inside them. Main
statement: `typeset_of_cleared`.
-/

namespace WikiTypeset.Html

mutual

theorem height_cleared_le (n : Node) : n.cleared.height ≤ n.height := by
  cases n with
  | text kind s => rw [Node.cleared]
  | element name attributes children =>
    rw [Node.cleared]
    show Node.height.heights (if _ then [] else Node.allCleared children) + 1 ≤ Node.height.heights children + 1
    refine Nat.succ_le_succ ?_
    split
    · exact Nat.zero_le _
    · exact heights_cleared_le children

theorem heights_cleared_le (ns : List Node) : Node.height.heights (Node.allCleared ns) ≤ Node.height.heights ns := by
  cases ns with
  | nil => rw [Node.allCleared]
  | cons n ns =>
    have hfirst := height_cleared_le n
    have hrest := heights_cleared_le ns
    rw [Node.allCleared, Node.height.heights, Node.height.heights]
    omega

end

end WikiTypeset.Html

namespace WikiTypeset.Article

open Action Html Latex Typeset

theorem depthBound_cleared_le (p : Place) : depthBound p.cleared ≤ depthBound p := by
  have hroot : rootOf p.cleared = (rootOf p).cleared := by
    rw [rootOf, rootOf, Place.ancestors_cleared, List.getLast?_map]
    cases p.ancestors.getLast? <;> rfl
  have hle := height_cleared_le (rootOf p).element.toNode
  rw [← Element.toNode_cleared] at hle
  rw [depthBound, depthBound, hroot, Place.element_cleared]
  omega

/-! ### The body -/

theorem withAttr_cleared (e : Element) {name : String} (h : name = "lang" ∨ name = "dir") (value : AttrValue) :
    e.cleared.withAttr name value = (e.withAttr name value).cleared := by
  have hhidden : (e.withAttr name value).isHidden = e.isHidden := (e.likens_withAttr h value).isHidden
  have hcleared : (e.withAttr name value).cleared = { e.withAttr name value with children := e.cleared.children } := by
    rw [Element.cleared, hhidden, Element.children_withAttr]
    rfl
  rw [hcleared]
  unfold Element.withAttr
  rw [show e.cleared.attributes = e.attributes from rfl]
  split <;> rfl

theorem withLanguage_cleared {α : Type} (e : Element) (lang : String) (f : Element → Typeset α) :
    (withLanguage e.cleared lang >>= f) = (withLanguage e lang >>= fun body => f body.cleared) := by
  have hdirection : ∀ body : Element, ((do
        if (body.attr "dir").isEmpty then
          let l ← lookup (body.attr "lang")
          return body.cleared.withAttr "dir" (.text l.direction.name)
        else return body.cleared) >>= f) = ((do
        if (body.attr "dir").isEmpty then
          let l ← lookup (body.attr "lang")
          return body.withAttr "dir" (.text l.direction.name)
        else return body) >>= fun body => f body.cleared) := by
    intro body
    split
    · simp [withAttr_cleared body (.inr rfl)]
    · simp
  have hlang := withAttr_cleared e (.inl rfl) (.text lang)
  simp only [withLanguage, Element.attr_cleared, hlang]
  split
  · exact hdirection (e.withAttr "lang" (.text lang))
  · exact hdirection e

/-- The typesetting of a body. -/
def bodyText (p : Place) (lang : String) : Typeset Unit := do
  let body ← withLanguage p.element lang
  visit (.mk body p.before p.parent?)
  emit Emit.paragraphBreak

theorem documentText_eq (document : Element) (title? : Option String) (lang : String) :
    documentText document title? lang = (titleText title? lang >>= fun _ => bodyText (bodyPlace document) lang) := by
  cases title? <;> simp [documentText, titleText, bodyText]

/-- The place of a body that names its language and direction. -/
def namedPlace (p : Place) (lang : String) : Place := .mk (namedBody p.element lang) p.before p.parent?

theorem isExposed_named (p : Place) (lang : String) : (namedPlace p lang).isExposed = p.isExposed := by
  obtain ⟨e, before, parent?⟩ := p
  cases parent? with
  | none => rw [namedPlace, Place.isExposed, Place.isExposed, Place.parent?, Place.ancestors, Place.ancestors]
  | some p => rw [namedPlace, Place.isExposed, Place.isExposed, Place.parent?, Place.ancestors, Place.ancestors]

/-- The bound of a walk is the greater the more hidden content there is. -/
theorem visit_retraces {p : Place} (h : IsClearAround p) (hexposed : p.isExposed = true) {t : Typesetter} (ht : t.AtEase) :
    Retraces (· = .exhausted) (visit p.cleared) (visit p) t := by
  obtain ⟨hs, stack, hcoherent⟩ := ht
  have hbound := Nat.add_sub_of_le (depthBound_cleared_le p)
  have hcleared : visit p.cleared = visitFrom (depthBound p.cleared) (.element p) :=
    visitFrom_cleared _ (.element p) ⟨h, hexposed⟩
  rw [hcleared, visit, ← hbound]
  exact (visitFrom_composes (C := (· = .exhausted)) _ _ (.inr rfl) (.element p) t _ rfl hs stack hcoherent).2

theorem bodyText_retraces {p : Place} {lang : String} (h : IsClearAround (namedPlace p lang))
    (hexposed : (namedPlace p lang).isExposed = true) {t : Typesetter} (ht : t.AtEase) :
    Retraces (· = .exhausted) (bodyText p.cleared lang) (bodyText p lang) t := by
  have hbody : bodyText p.cleared lang = (withLanguage p.element lang >>= fun body => do
      visit (Place.mk body p.before p.parent?).cleared
      emit Emit.paragraphBreak) := by
    rw [bodyText, Place.element_cleared, Place.before_cleared, Place.parent?_cleared, withLanguage_cleared]
    simp only [Place.mk_cleared]
  rw [hbody]
  refine (Retraces.refl _ t).bind fun body t₁ hperform => ?_
  obtain ⟨rfl, hsetting, hemitter⟩ := (withLanguage_silent p.element lang t).ok hperform
  refine (visit_retraces h hexposed ?_).bind fun _ t₂ _ => .refl _ t₂
  exact ⟨hsetting ▸ ht.1, hemitter ▸ ht.2⟩

/-! ### Documents -/

/-- Whether all that is looked at in a document stands outside hidden elements: its body, the base of its references, and
what is looked at below any element of the body that is not inside a hidden one. -/
def documentIsClear (document : Element) (lang : String) : Bool :=
  !document.isHidden.1 && ((Place.root document).descendants.find? (·.element.name == "body")).all (·.isExposed) &&
    ((Place.root document).select baseSelector).head?.all (·.isExposed) &&
    (namedPlace (bodyPlace document) lang).surroundings.all fun q => !q.isOpen || isClear q

variable {document : Element} {lang : String}

theorem isOpen_root (hshown : document.isHidden.1 = false) : (Place.root document).isOpen = true := by
  have hnone : (Place.root document).ancestors = [] := by rw [Place.root, Place.ancestors]
  rw [Place.isOpen, Place.isExposed, hnone]
  simp [Place.root, Place.element, hshown]

theorem root_cleared (document : Element) : (Place.root document).cleared = Place.root document.cleared := by
  rw [Place.root, Place.mk_cleared]
  rfl

/-- What is found first stays the first if it is exposed. -/
theorem find?_exposed {ps : List Place} {test : Place → Bool} (h : (ps.find? test).all (·.isExposed) = true) :
    (ps.filter (·.isExposed)).find? test = ps.find? test := by
  induction ps with
  | nil => rfl
  | cons p ps ih =>
    cases htest : test p with
    | true =>
      rw [List.find?_cons_of_pos htest] at h ⊢
      have hp : p.isExposed = true := h
      rw [List.filter_cons_of_pos hp, List.find?_cons_of_pos htest]
    | false =>
      rw [List.find?_cons_of_neg (by simp [htest])] at h ⊢
      rw [← ih h, List.filter_cons]
      split
      · rw [List.find?_cons_of_neg (by simp [htest])]
      · rfl

theorem bodyPlace_cleared (hshown : document.isHidden.1 = false)
    (hbody : ((Place.root document).descendants.find? (·.element.name == "body")).all (·.isExposed) = true) :
    bodyPlace document.cleared = (bodyPlace document).cleared ∧ (bodyPlace document).isExposed = true := by
  have hfound : (Place.root document.cleared).descendants.find? (·.element.name == "body") =
      ((Place.root document).descendants.find? (·.element.name == "body")).map Place.cleared := by
    rw [← root_cleared, Place.descendants_cleared (isOpen_root hshown), List.find?_map, ← find?_exposed hbody]
    simp only [Function.comp_def, Place.element_cleared, Element.name_cleared]
  unfold bodyPlace
  simp only [hfound]
  cases hplace : (Place.root document).descendants.find? (·.element.name == "body") with
  | some p =>
    rw [hplace] at hbody
    exact ⟨rfl, hbody⟩
  -- Without a body element, all of the document is put into one that is not hidden.
  | none =>
    let body : Element := { name := "body", children := document.children }
    let around : Element := { document with children := [body.toNode] }
    have hbare : body.cleared = { name := "body", children := document.cleared.children } := by
      rw [Element.children_cleared hshown]
      rfl
    have haround : around.cleared = { document.cleared with children := [body.cleared.toNode] } := by
      have hchildren : around.cleared.children = [body.cleared.toNode] := by
        rw [Element.toNode_cleared]
        exact Element.children_cleared hshown
      rw [← hchildren]
      rfl
    have hopen : (Place.root around).isOpen = true := isOpen_root hshown
    refine ⟨?_, (Place.isExposed_of_parent rfl).trans hopen⟩
    show Place.mk _ [] (some (.root _)) = (Place.mk body [] (some (.root around))).cleared
    rw [Place.mk_cleared, Option.map_some, root_cleared, haround, hbare]
    rfl

theorem baseReference_cleared (hshown : document.isHidden.1 = false)
    (hbase : ((Place.root document).select baseSelector).head?.all (·.isExposed) = true) :
    baseReference document.cleared = baseReference document := by
  rw [baseReference, baseReference, ← root_cleared, Place.select_cleared (isOpen_root hshown)]
  generalize (Place.root document).select baseSelector = bases at hbase
  cases bases with
  | nil => rfl
  | cons p ps =>
    have hp : p.isExposed = true := hbase
    simp only [List.filter_cons_of_pos hp, List.map_cons, Place.element_cleared, Element.attr_cleared]

/-- A document that is clear is typeset as if nothing stood inside its hidden elements. -/
theorem typesetDocument_cleared (h : documentIsClear document lang = true) (title? : Option String)
    (options : ArticleOptions) (warned : List String) :
    (typesetDocument document.cleared title? lang).perform (start options (.known options.direction) warned) =
      (typesetDocument document title? lang).perform (start options (.known options.direction) warned) := by
  simp only [documentIsClear, Bool.and_eq_true, Bool.not_eq_true', List.all_eq_true, Bool.or_eq_true] at h
  obtain ⟨⟨⟨hshown, hbody⟩, -⟩, haround⟩ := h
  obtain ⟨hplace, hexposed⟩ := bodyPlace_cleared hshown hbody
  have hclear : IsClearAround (namedPlace (bodyPlace document) lang) := by
    intro q hq hopen
    simpa [hopen] using haround q hq
  have hnamed : (namedPlace (bodyPlace document) lang).isExposed = true := (isExposed_named _ lang).trans hexposed
  have htitle := titleText_atEase title? lang (start_atEase options warned)
  have hretraces : Retraces (· = .exhausted) (typesetDocument document.cleared title? lang)
      (typesetDocument document title? lang) (start options (.known options.direction) warned) := by
    rw [typesetDocument_eq, typesetDocument_eq, documentText_eq, documentText_eq, hplace]
    refine Retraces.bind ((Retraces.refl _ _).bind fun _ t hperform => ?_) fun _ t _ => .refl _ t
    exact bodyText_retraces hclear hnamed (htitle.ok hperform)
  rcases hretraces with heq | ⟨c, t, hfail, rfl⟩
  · exact heq.symm
  -- The walk of the cleared document does not come to its bound.
  · have horigins := typesetDocument_origins document.cleared title? lang options (.known options.direction) warned
    obtain ⟨hstems, -⟩ := horigins.error hfail
    cases hstems with
    | element _ hstops => cases hstops

/-- Two documents that differ in nothing but the content of hidden elements, and in which all that is looked at stands
outside them, are typeset to the same. -/
theorem typeset_of_cleared {markup markup' : List Char} {document document' : Element}
    (hparsed : Html.document markup = .ok document) (hparsed' : Html.document markup' = .ok document')
    (hsame : document.cleared = document'.cleared) (options : ArticleOptions) (title? language? : Option String)
    (warned : List String) (hclear : documentIsClear document (articleLanguage options language?) = true)
    (hclear' : documentIsClear document' (articleLanguage options language?) = true) :
    typeset markup options title? language? warned = typeset markup' options title? language? warned := by
  have hbase : ∀ d : Element, documentIsClear d (articleLanguage options language?) = true →
      baseReference d.cleared = baseReference d := by
    intro d hd
    simp only [documentIsClear, Bool.and_eq_true, Bool.not_eq_true'] at hd
    exact baseReference_cleared hd.1.1.1 hd.1.2
  rw [typeset_eq hparsed, typeset_eq hparsed', ← hbase document hclear, ← hbase document' hclear',
    ← typesetDocument_cleared hclear, ← typesetDocument_cleared hclear', hsame]

/-- A term with a note that is not printed. -/
def notedTerm (note : List Node) : Element :=
  { name := "[document]"
    children := [.element "dl" [] [.element "dt" [] [.text .plain ['a'],
      .element "span" [⟨"class", .words ["noprint"]⟩] note]]] }

/-- Whatever the note says, the term is the same. -/
theorem notedTerm_same :
    Html.document "<dl><dt>a<span class='noprint'>x</span></dt></dl>".toList =
        .ok (notedTerm [.text .plain ['x']]) ∧
      Html.document "<dl><dt>a<span class='noprint'><b>y</b></span></dt></dl>".toList =
        .ok (notedTerm [.element "b" [] [.text .plain ['y']]]) ∧
      typeset "<dl><dt>a<span class='noprint'>x</span></dt></dl>".toList {} none none [] =
        typeset "<dl><dt>a<span class='noprint'><b>y</b></span></dt></dl>".toList {} none none [] := by
  have hparsed : Html.document "<dl><dt>a<span class='noprint'>x</span></dt></dl>".toList =
      .ok (notedTerm [.text .plain ['x']]) := by rfl
  have hparsed' : Html.document "<dl><dt>a<span class='noprint'><b>y</b></span></dt></dl>".toList =
      .ok (notedTerm [.element "b" [] [.text .plain ['y']]]) := by rfl
  have hsame : (notedTerm [.text .plain ['x']]).cleared =
      (notedTerm [.element "b" [] [.text .plain ['y']]]).cleared := by rfl
  exact ⟨hparsed, hparsed', typeset_of_cleared hparsed hparsed' hsame {} none none [] (by decide +kernel)
    (by decide +kernel)⟩

/-- A reference that is not printed. -/
def hiddenReference (content : List Node) : Element :=
  { name := "[document]"
    children := [.element "ol" [⟨"typeof", .text "mw:Extension/references"⟩]
      [.element "li" [⟨"class", .words ["noprint"]⟩] content]] }

/-- What it says is printed all the same. -/
theorem hiddenReference_differs :
    Html.document "<ol typeof='mw:Extension/references'><li class='noprint'>x</li></ol>".toList =
        .ok (hiddenReference [.text .plain ['x']]) ∧
      Html.document "<ol typeof='mw:Extension/references'><li class='noprint'></li></ol>".toList =
        .ok (hiddenReference []) ∧
      (hiddenReference [.text .plain ['x']]).cleared = (hiddenReference []).cleared ∧
      (typeset "<ol typeof='mw:Extension/references'><li class='noprint'>x</li></ol>".toList {} none none []).latex ≠
        (typeset "<ol typeof='mw:Extension/references'><li class='noprint'></li></ol>".toList {} none none []).latex :=
  ⟨by rfl, by rfl, by rfl, by decide +kernel⟩

end WikiTypeset.Article
