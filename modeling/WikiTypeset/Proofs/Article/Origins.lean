import WikiTypeset.Proofs.Article.Documents
import WikiTypeset.Proofs.Article.Walks

/-!
# Documents come from their elements

The typesetting of a whole document is tame. All that is written comes from the elements of the document, from its text
and title, and from the languages that it is said to use; and if it fails, then for one of its elements or for a text
that cannot be analysed, and never for the bound of a walk. Main statement: `typesetDocument_origins`.
-/

namespace WikiTypeset.Article

open Action Html Latex Typeset

/-! ### What a document is typeset from -/

/-- The element is one of the document, apart from its language and direction, or has no attribute beside them. -/
def IsElementOf (document e : Element) : Prop :=
  ∃ e', (e' ∈ document.toNode.elements ∨ e'.attributes = [] ∧ e'.name ≠ "img") ∧ e.Likens e'

/-- What a document with a title is typeset from. -/
def sourceOf (document : Element) (title? : Option String) (options : ArticleOptions) : Source where
  element := IsElementOf document
  char c := c ∈ document.textContent ∨ (∃ title, title? = some title ∧ c ∈ title.toList) ∨ c = ' ' ∨ c = '\u200B'
  options := options
  blank := .inr (.inr (.inl rfl))
  wordBreak := .inr (.inr (.inr rfl))

theorem isElementOf_of_mem {document e : Element} (h : e ∈ document.toNode.elements) : IsElementOf document e :=
  ⟨e, .inl h, .refl e⟩

theorem isElementOf_of_bare {document e : Element} (h : e.attributes = []) (hname : e.name ≠ "img") :
    IsElementOf document e :=
  ⟨e, .inr ⟨h, hname⟩, .refl e⟩

variable {document : Element} {title? : Option String} {options : ArticleOptions}

theorem Stops.likens {e e' : Element} {c : ArticleError} (h : Stops options e c) (he : e.Likens e') :
    Stops options e' c := by
  have hhref := he.attr "href" (by decide) (by decide)
  have hresource := he.attr "resource" (by decide) (by decide)
  have habout := he.attr "about" (by decide) (by decide)
  cases h with
  | link hname hempty htarget h =>
    exact .link (he.name ▸ hname) (hhref ▸ hempty) (hhref ▸ htarget) (hhref ▸ h)
  | image hname h => exact .image (he.name ▸ hname) (hresource ▸ h)
  | formula hdata hsource h =>
    exact .formula (he.metadata "data-mw" (by decide) (by decide) ▸ hdata) hsource h
  | template h hname => exact .template (he.isMultipleImage ▸ h) (habout ▸ hname)
  | imageOptions h =>
    exact .imageOptions (he.metadata "data-parsoid" (by decide) (by decide) ▸ h)

/-- Nothing stops the typesetting of an element without attributes, unless it is an image. -/
theorem not_stops_of_bare {e : Element} (h : e.attributes = []) (hname : e.name ≠ "img") (c : ArticleError) :
    ¬ Stops options e c := by
  intro hstops
  cases hstops with
  | link _ hempty _ _ => exact hempty (Element.attr_of_bare h "href")
  | image himg _ => exact hname himg
  | formula hdata _ _ =>
    rw [Element.metadata_of_bare h] at hdata
    cases hdata
  | template hmultiple _ => simp [Element.isMultipleImage, Element.attr?, Element.value?, h] at hmultiple
  | imageOptions hoptions =>
    rw [Element.metadata_of_bare h] at hoptions
    cases hoptions

/-- A document is stopped by an element of its own. -/
theorem Stops.of_isElementOf {e : Element} {c : ArticleError} (h : Stops options e c) (he : IsElementOf document e) :
    ∃ e' ∈ document.toNode.elements, Stops options e' c := by
  obtain ⟨e', he' | ⟨hbare, hname⟩, hlikens⟩ := he
  · exact ⟨e', he', h.likens hlikens⟩
  · exact absurd (h.likens hlikens) (not_stops_of_bare hbare hname c)

/-! ### Places of a document -/

theorem rootOf_eq_of_isParent {p q : Place} (h : p.IsParent q) : rootOf q = rootOf p := by
  rw [rootOf, rootOf, h.ancestors, List.getLast?_cons]
  rfl

/-- What is around a place and how high, with another element of the same children in its place. -/
theorem height_rootOf_exchange {e e' : Element} (h : e'.children = e.children) (before : List Node)
    (parent? : Option Place) :
    (rootOf (.mk e' before parent?)).element.toNode.height = (rootOf (.mk e before parent?)).element.toNode.height := by
  cases parent? with
  | none =>
    show Node.height.heights e'.children + 1 = Node.height.heights e.children + 1
    rw [h]
  | some p =>
    have hparent : ∀ e : Element, Place.ancestors (.mk e before (some p)) = p :: p.ancestors := fun e => by
      rw [Place.ancestors]
    rw [rootOf, rootOf, hparent, hparent, List.getLast?_cons]
    rfl

variable {k : Source} {codes : List String} {f : Frame} {p : Place}

theorem bears_exchange {stock : Stock} {H : Nat} {e e' : Element} (h : e'.children = e.children) {before : List Node}
    {parent? : Option Place} (hp : Place.Bears stock H (.mk e before parent?)) :
    Place.Bears stock H (.mk e' before parent?) := by
  have hholds := hp.holds
  have hancestors : Place.ancestors (.mk e' before parent?) = Place.ancestors (.mk e before parent?) := by
    cases parent? <;> rw [Place.ancestors, Place.ancestors]
  intro q hq
  rcases List.mem_cons.1 hq with rfl | hq
  · refine ⟨?_, ?_, ?_⟩
    · have hle := hholds.height_le
      show Node.height.heights e'.children + 1 ≤ H
      rw [h]
      exact hle
    · show ∀ x ∈ elementsOf e'.children, stock.element x
      rw [h]
      exact hholds.below
    · show ∀ c ∈ Node.textContent.contents e'.children, stock.char c
      rw [h]
      exact hholds.text
  · exact hp q (List.mem_cons_of_mem _ (hancestors ▸ hq))

/-- The bound of a walk is large enough. -/
theorem visit_tame (hp : p.Bears k.toStock (rootOf p).element.toNode.height) (he : k.element p.element)
    (hmain : k.options.lang ∈ codes) (hl : f.language ∈ codes) : Tame k codes f (Article.visit p) := by
  refine visitFrom_tame k _ (depthBound p) (.element p) codes f ⟨hp, he⟩ ?_ hmain hl
  have hturns := f.turns_le p.element
  have hle := hp.holds.height_le
  have hreserve : f.reserve (rootOf p).element.toNode.height ≤ 3 * (rootOf p).element.toNode.height + 3 := by
    unfold Frame.reserve
    split <;> omega
  show f.turns p.element + 3 * p.element.toNode.height + f.reserve _ ≤ 6 * (rootOf p).element.toNode.height + 8
  omega

theorem root_holds (document : Element) (title? : Option String) (options : ArticleOptions) :
    document.Holds (sourceOf document title? options).toStock document.toNode.height where
  height_le := Nat.le_refl _
  below x hx := isElementOf_of_mem (by rw [document.elements_eq]; exact List.mem_cons_of_mem _ hx)
  text c hc := .inl hc

theorem bears_root {stock : Stock} {H : Nat} {e : Element} (h : e.Holds stock H) : (Place.root e).Bears stock H := by
  have hancestors : (Place.root e).ancestors = [] := by rw [Place.root, Place.ancestors]
  intro q hq
  rw [hancestors] at hq
  obtain rfl := List.mem_singleton.1 hq
  exact h

theorem rootOf_root (e : Element) : rootOf (.root e) = .root e := by
  have hancestors : (Place.root e).ancestors = [] := by rw [Place.root, Place.ancestors]
  rw [rootOf, hancestors]
  rfl

theorem titleHeading_holds (document : Element) (title lang : String) (options : ArticleOptions) :
    (titleHeading title lang).Holds (sourceOf document (some title) options).toStock
      (titleHeading title lang).toNode.height where
  height_le := Nat.le_refl _
  below x hx := by
    obtain rfl : x = { name := "span", attributes := [⟨"lang", .text lang⟩], children := [.text .plain title.toList] } := by
      simpa [titleHeading, Element.descendants, elementsOf, Node.elements] using hx
    let bare : Element := { name := "span", children := [.text .plain title.toList] }
    exact ⟨bare, .inr ⟨rfl, by simp [bare]⟩, bare.likens_withAttr (.inl rfl) (.text lang)⟩
  text c hc := by
    have hc : c ∈ title.toList := by
      simpa [titleHeading, Element.textContent, Element.toNode, Node.textContent, Node.textContent.contents] using hc
    exact .inr (.inl ⟨title, rfl, hc⟩)

/-- The body of a document comes from the document, and the bound of its walk is large enough. -/
theorem bodyPlace_bears (document : Element) (title? : Option String) (options : ArticleOptions) :
    (bodyPlace document).Bears (sourceOf document title? options).toStock
      (rootOf (bodyPlace document)).element.toNode.height ∧ IsElementOf document (bodyPlace document).element := by
  have hroot := bears_root (root_holds document title? options)
  unfold bodyPlace
  dsimp only
  split
  · rename_i p hfound
    have hp := List.mem_of_find?_eq_some hfound
    obtain ⟨r, hr, hparent⟩ := Place.exists_parent
      (fun _ _ hq hr => (rootOf_eq_of_isParent hr).trans hq) (rootOf_root document) hp
    have hheight : rootOf p = .root document := (rootOf_eq_of_isParent hparent).trans hr
    rw [hheight]
    exact hroot.descendant hp
  -- Without a body element, all of the document is put into one that has no attributes.
  · let body : Element := { name := "body", children := document.children }
    let around : Element := { document with children := [body.toNode] }
    have hholds : around.Holds (sourceOf document title? options).toStock around.toNode.height := by
      refine ⟨Nat.le_refl _, ?_, ?_⟩
      · have hbelow : around.descendants = body :: document.descendants := by
          simp [around, body, Element.descendants, elementsOf, Node.elements, Element.toNode]
        rw [hbelow]
        exact List.forall_mem_cons.2 ⟨isElementOf_of_bare rfl (by simp [body]), (root_holds document title? options).below⟩
      · have htext : around.textContent = document.textContent := by
          simp [around, body, Element.textContent, Element.toNode, Node.textContent, Node.textContent.contents]
        rw [htext]
        exact (root_holds document title? options).text
    have hparent : (Place.root around).IsParent (.mk body [] (some (.root around))) :=
      ⟨rfl, List.mem_singleton_self _⟩
    rw [rootOf_eq_of_isParent hparent, rootOf_root]
    exact (bears_root hholds).child hparent

/-! ### Whole documents -/

/-- The language and direction of a body are set in its attributes. -/
theorem withLanguage_bind {α : Type} {f' : Frame} {E : Frame → Prop} {body : Element} {lang : String}
    {g : Element → Typeset α}
    (hg : ∀ body' : Element, body'.Likens body → body'.children = body.children → Leads k codes f f' E (g body')) :
    Leads k codes f f' E (withLanguage body lang >>= g) := by
  have hdirection : ∀ body' : Element, body'.Likens body → body'.children = body.children →
      Leads k codes f f' E ((do
        if (body'.attr "dir").isEmpty then
          let l ← lookup (body'.attr "lang")
          return body'.withAttr "dir" (.text l.direction.name)
        else return body') >>= g) := by
    intro body' hlikens hchildren
    split
    · rw [bind_assoc]
      refine Leads.lookup_bind ?_
      rw [pure_bind]
      exact hg _ ((body'.likens_withAttr (.inr rfl) _).trans hlikens) ((body'.children_withAttr _ _).trans hchildren)
    · rw [pure_bind]
      exact hg body' hlikens hchildren
  unfold withLanguage
  split
  · exact hdirection _ (body.likens_withAttr (.inl rfl) _) (body.children_withAttr _ _)
  · exact hdirection body (.refl body) rfl

theorem documentText_tame (document : Element) (title? : Option String) (lang : String) {options : ArticleOptions}
    (hmain : options.lang ∈ codes) (hl : f.language ∈ codes) :
    Tame (sourceOf document title? options) codes f (documentText document title? lang) := by
  have hbody : Tame (sourceOf document title? options) codes f (do
      let body ← withLanguage (bodyPlace document).element lang
      visit (.mk body (bodyPlace document).before (bodyPlace document).parent?)
      emit Emit.paragraphBreak) := by
    obtain ⟨hbears, hin⟩ := bodyPlace_bears document title? options
    rcases hplace : bodyPlace document with ⟨e, before, parent?⟩
    rw [hplace] at hbears hin
    refine withLanguage_bind fun body hlikens hchildren => ?_
    refine Leads.bind (visit_tame ?_ ?_ hmain hl) fun _ => Tame.emit fun _ _ => steady_paragraphBreak
    · rw [Place.before, Place.parent?, height_rootOf_exchange hchildren]
      exact bears_exchange hchildren hbears
    · obtain ⟨e', he', hlike⟩ := hin
      exact ⟨e', he', hlikens.trans hlike⟩
  cases title? with
  | none => exact hbody
  | some title =>
    refine (visit_tame ?_ ?_ hmain hl).bind fun _ => hbody
    · rw [rootOf_root]
      exact bears_root (titleHeading_holds document title lang options)
    · exact isElementOf_of_bare rfl (by simp [Place.root, Place.element, titleHeading])

/-- A typesetter starts with nothing that is not in its source. -/
theorem start_meets (k : Source) (direction : NamedDirection) (warned : List String) :
    ∃ f, (start k.options direction warned).Meets k [k.options.lang] f ∧ f.language = k.options.lang := by
  let fresh : Typesetter :=
    { options := k.options, emitter := Emitter.start direction, language := k.options.lang
      direction := k.options.direction, warned }
  have hfresh : fresh.Meets k [k.options.lang] fresh.frame :=
    ⟨rfl, start_draws _ direction, rfl, List.Subset.refl _⟩
  have hprepare : Tame k [k.options.lang] fresh.frame (do
      let l ← lookup k.options.lang
      emit (Emit.setCoverage l.latinCoverage)) :=
    Leads.lookup_bind (setCoverage_tame (List.mem_singleton_self _))
  exact ⟨_, Leaves.ok (a := do
      let l ← lookup k.options.lang
      emit (Emit.setCoverage l.latinCoverage)) (hprepare fresh hfresh) rfl, rfl⟩

/-- What a document is typeset to comes from the document, also as far as its typesetting gets if it fails; then the
cause comes from the document too. -/
theorem typesetDocument_origins (document : Element) (title? : Option String) (lang : String)
    (options : ArticleOptions) (direction : NamedDirection) (warned : List String) :
    Leaves (typesetDocument document title? lang) (start options direction warned)
      (fun _ t => t.options = options ∧ t.emitter.Draws (supply (sourceOf document title? options) t.codes))
      fun c t => Stems (sourceOf document title? options) c ∧
        t.emitter.Draws (supply (sourceOf document title? options) t.codes) := by
  obtain ⟨f, hstart, hl⟩ := start_meets (sourceOf document title? options) direction warned
  have hmain : options.lang ∈ [options.lang] := List.mem_singleton_self _
  have htext := documentText_tame (f := f) document title? lang hmain (hl ▸ hmain)
  have hall := htext.bind fun _ => (Tame.emit fun _ _ => steady_flush).bind fun _ =>
    Tame.note [⟨.debug, .emitter, "Formatter flushed"⟩]
  rw [typesetDocument_eq]
  exact (hall _ hstart).imp (fun _ t ht => ⟨ht.options, ht.draws⟩) fun c _ ⟨hc, _, _, ht⟩ => ⟨hc, ht.draws⟩

end WikiTypeset.Article
