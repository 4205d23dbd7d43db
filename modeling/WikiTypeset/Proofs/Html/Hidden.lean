import WikiTypeset.Html.Annotation
import WikiTypeset.Proofs.Html.Surroundings

/-!
# Hidden content

A tree is cleared by taking out all that is inside its hidden elements; these stay themselves, with nothing in them. What
a place shows of itself, of its parents and of its siblings does not change, so that a selector finds in the cleared tree
what it finds outside hidden elements: `Place.select_cleared`.
-/

namespace WikiTypeset.Html

mutual

/-- The node with nothing left inside hidden elements. -/
def Node.cleared : Node → Node
  | .element name attributes children =>
    .element name attributes (if (Element.mk name attributes children).isHidden.1 then [] else Node.allCleared children)
  | .text kind s => .text kind s

/-- The nodes with nothing left inside hidden elements. -/
def Node.allCleared : List Node → List Node
  | [] => []
  | n :: ns => n.cleared :: Node.allCleared ns

end

theorem Node.allCleared_eq (ns : List Node) : Node.allCleared ns = ns.map Node.cleared := by
  induction ns with
  | nil => rfl
  | cons n ns ih => rw [Node.allCleared, ih, List.map_cons]

@[simp] theorem Node.isVoid_cleared (n : Node) : n.cleared.isVoid = n.isVoid := by
  cases n with
  | element name attributes children =>
    rw [Node.cleared]
    rfl
  | text kind s => rw [Node.cleared]

@[simp] theorem Node.isNamed_cleared (n : Node) (name : String) : n.cleared.isNamed name = n.isNamed name := by
  cases n with
  | element name attributes children =>
    rw [Node.cleared]
    rfl
  | text kind s => rw [Node.cleared]

/-- The first node that shows something stays it. -/
theorem find?_shown_cleared (ns : List Node) :
    (ns.map Node.cleared).find? (! ·.isVoid) = (ns.find? (! ·.isVoid)).map Node.cleared := by
  rw [List.find?_map]
  congr 2
  funext n
  simp

namespace Element

variable {e : Element}

/-- The element with nothing left inside hidden elements. -/
def cleared (e : Element) : Element :=
  { e with children := if e.isHidden.1 then [] else e.children.map Node.cleared }

@[simp] theorem name_cleared (e : Element) : e.cleared.name = e.name := rfl

@[simp] theorem attr?_cleared (e : Element) (name : String) : e.cleared.attr? name = e.attr? name := rfl

@[simp] theorem attr_cleared (e : Element) (name : String) : e.cleared.attr name = e.attr name := rfl

@[simp] theorem metadata_cleared (e : Element) (name : String) : e.cleared.metadata name = e.metadata name := rfl

@[simp] theorem isHidden_cleared (e : Element) : e.cleared.isHidden = e.isHidden := rfl

theorem toNode_cleared (e : Element) : e.cleared.toNode = e.toNode.cleared := by
  rw [toNode, toNode, Node.cleared, Node.allCleared_eq]
  rfl

theorem children_cleared (h : e.isHidden.1 = false) : e.cleared.children = e.children.map Node.cleared := by
  simp [cleared, h]

theorem elementChildren_cleared (h : e.isHidden.1 = false) :
    e.cleared.elementChildren = e.elementChildren.map Element.cleared := by
  rw [elementChildren, elementChildren, children_cleared h, List.filterMap_map, List.map_filterMap]
  congr 1
  funext n
  cases n with
  | text kind s => rfl
  | element name attributes children =>
    rw [Function.comp_apply, Node.cleared, Node.allCleared_eq]
    rfl

theorem firstShown?_cleared (h : e.isHidden.1 = false) : e.cleared.firstShown? = e.firstShown?.map Node.cleared := by
  rw [firstShown?, children_cleared h, find?_shown_cleared]
  rfl

end Element

namespace Place

/-! ### Places in cleared trees -/

/-- The place in the cleared tree. -/
def cleared : Place → Place
  | mk e before none => mk e.cleared (before.map Node.cleared) none
  | mk e before (some p) => mk e.cleared (before.map Node.cleared) (some p.cleared)

variable {p q : Place}

theorem mk_cleared (e : Element) (before : List Node) (parent? : Option Place) :
    (mk e before parent?).cleared = mk e.cleared (before.map Node.cleared) (parent?.map cleared) := by
  cases parent? <;> rw [cleared] <;> rfl

@[simp] theorem element_cleared (p : Place) : p.cleared.element = p.element.cleared := by
  obtain ⟨e, before, parent?⟩ := p
  rw [mk_cleared]
  rfl

@[simp] theorem before_cleared (p : Place) : p.cleared.before = p.before.map Node.cleared := by
  obtain ⟨e, before, parent?⟩ := p
  rw [mk_cleared]
  rfl

@[simp] theorem parent?_cleared (p : Place) : p.cleared.parent? = p.parent?.map cleared := by
  obtain ⟨e, before, parent?⟩ := p
  rw [mk_cleared]
  rfl

theorem ancestors_cleared : ∀ p : Place, p.cleared.ancestors = p.ancestors.map cleared
  | mk e before none => by rw [cleared, ancestors, ancestors, List.map_nil]
  | mk e before (some p) => by rw [cleared, ancestors, ancestors, List.map_cons, ancestors_cleared p]

theorem shownBefore?_cleared (p : Place) : p.cleared.shownBefore? = p.shownBefore?.map Node.cleared := by
  rw [shownBefore?, before_cleared, find?_shown_cleared]
  rfl

theorem previousElement?_cleared (p : Place) : p.cleared.previousElement? = p.previousElement?.map cleared := by
  have hgo : ∀ ns : List Node, previousElement?.go p.cleared (ns.map Node.cleared) =
      (previousElement?.go p ns).map cleared := by
    intro ns
    induction ns with
    | nil => rfl
    | cons n ns ih =>
      cases n with
      | text kind s =>
        rw [List.map_cons, Node.cleared]
        exact ih
      | element name attributes children =>
        rw [List.map_cons, Node.cleared, Node.allCleared_eq]
        simp only [previousElement?.go, Option.map_some, mk_cleared, parent?_cleared]
        rfl
  rw [previousElement?, before_cleared, hgo]
  rfl

/-- A selector describes a place by what no clearing changes. -/
theorem holds_cleared (s : Selector) (p : Place) : s.holds p.cleared = s.holds p := by
  have htest : ∀ (test : ElementTest) (p : Place), test.holds p.cleared.element = test.holds p.element := by
    intro test p
    rw [element_cleared]
    rfl
  induction s generalizing p with
  | anywhere test => exact htest test p
  | inside outer test ih =>
    rw [Selector.holds, Selector.holds, htest, ancestors_cleared, List.any_map]
    congr 2
    funext q
    exact ih q
  | childOf outer test ih =>
    rw [Selector.holds, Selector.holds, htest, parent?_cleared]
    cases p.parent? with
    | none => rfl
    | some q => simp [ih]
  | after earlier test ih =>
    rw [Selector.holds, Selector.holds, htest, previousElement?_cleared]
    cases p.previousElement? with
    | none => rfl
    | some q => simp [ih]

/-! ### Places outside hidden elements -/

/-- Whether no element around the place is hidden. -/
def isExposed (p : Place) : Bool := p.ancestors.all fun q => !q.element.isHidden.1

/-- Whether neither the element at the place is hidden nor any element around it. -/
def isOpen (p : Place) : Bool := !p.element.isHidden.1 && p.isExposed

theorem isHidden_of_isOpen (h : p.isOpen = true) : p.element.isHidden.1 = false := by
  rw [isOpen, Bool.and_eq_true, Bool.not_eq_true'] at h
  exact h.1

theorem isExposed_of_parent (h : q.parent? = some p) : q.isExposed = p.isOpen := by
  obtain ⟨e, before, parent?⟩ := q
  obtain rfl : parent? = some p := h
  rw [isExposed, ancestors, List.all_cons]
  rfl

theorem isExposed_of_isParent (h : p.IsParent q) : q.isExposed = p.isOpen := isExposed_of_parent h.parent

/-- Nothing inside a hidden element is exposed. -/
theorem not_isExposed_below (h : p.isOpen = false) {before ns : List Node} (hns : ns ⊆ p.element.children) :
    ∀ q ∈ ofNodes p before ns, q.isExposed = false := by
  intro q hq
  have hchild : ∀ q r : Place, q.isOpen = false → q.IsParent r → r.isOpen = false := by
    intro q r hclosed hparent
    rw [isOpen, isExposed_of_isParent hparent, hclosed, Bool.and_false]
  obtain ⟨r, hr, hparent⟩ := exists_parent_ofNodes hchild h before ns hns q hq
  rw [isExposed_of_isParent hparent, hr]

theorem children_go_cleared (p : Place) (before ns : List Node) :
    children.go p.cleared (before.map Node.cleared) (ns.map Node.cleared) = (children.go p before ns).map cleared := by
  induction ns generalizing before with
  | nil => rfl
  | cons n ns ih =>
    cases n with
    | text kind s =>
      have hrest := ih (.text kind s :: before)
      rw [List.map_cons, Node.cleared] at hrest ⊢
      exact hrest
    | element name attributes children =>
      have hrest := ih (.element name attributes children :: before)
      rw [List.map_cons, Node.cleared, Node.allCleared_eq] at hrest ⊢
      simp only [Place.children.go, List.map_cons, mk_cleared, Option.map_some, hrest]
      rfl

theorem children_cleared (h : p.element.isHidden.1 = false) : p.cleared.children = p.children.map cleared := by
  rw [children, element_cleared, Element.children_cleared h]
  exact children_go_cleared p [] p.element.children

mutual

theorem ofNode_cleared {p : Place} (h : p.isOpen = true) (before : List Node) (n : Node) (hn : n ∈ p.element.children) :
    ofNode p.cleared (before.map Node.cleared) n.cleared = ((ofNode p before n).filter isExposed).map cleared := by
  cases n with
  | text kind s =>
    rw [Node.cleared, ofNode, ofNode]
    rfl
  | element name attributes children =>
    let here := mk ⟨name, attributes, children⟩ before (some p)
    have hparent : p.IsParent here := ⟨rfl, hn⟩
    have hexposed : here.isExposed = true := (isExposed_of_isParent hparent).trans h
    have hhere : here.cleared = mk (Element.cleared ⟨name, attributes, children⟩) (before.map Node.cleared)
        (some p.cleared) := mk_cleared _ _ _
    have hbelow : ofNodes here.cleared [] here.element.cleared.children =
        ((ofNodes here [] children).filter isExposed).map cleared := by
      cases hhidden : here.element.isHidden.1 with
      | true =>
        have hclosed : here.isOpen = false := by rw [isOpen, hhidden]; rfl
        have hnone : (ofNodes here [] children).filter isExposed = [] := by
          rw [List.filter_eq_nil_iff]
          intro q hq
          simp [not_isExposed_below hclosed (List.Subset.refl _) q hq]
        rw [hnone, Element.cleared, if_pos hhidden, ofNodes]
        rfl
      | false =>
        have hopen : here.isOpen = true := by rw [isOpen, hhidden, hexposed]; rfl
        rw [Element.children_cleared hhidden]
        exact ofNodes_cleared hopen [] children (List.Subset.refl _)
    rw [hhere] at hbelow
    rw [Node.cleared, Node.allCleared_eq, ofNode, ofNode, List.filter_cons_of_pos hexposed, List.map_cons, hhere]
    exact congrArg _ hbelow

theorem ofNodes_cleared {p : Place} (h : p.isOpen = true) (before ns : List Node) (hns : ns ⊆ p.element.children) :
    ofNodes p.cleared (before.map Node.cleared) (ns.map Node.cleared) =
      ((ofNodes p before ns).filter isExposed).map cleared := by
  cases ns with
  | nil =>
    rw [List.map_nil, ofNodes, ofNodes]
    rfl
  | cons n ns =>
    obtain ⟨hn, hns⟩ := List.cons_subset.1 hns
    have hfirst := ofNode_cleared h before n hn
    have hrest := ofNodes_cleared h (n :: before) ns hns
    rw [List.map_cons] at hrest ⊢
    rw [ofNodes, ofNodes, hfirst, hrest, List.filter_append, List.map_append]

end

/-- What is below a place in the cleared tree is what is exposed below it. -/
theorem descendants_cleared (h : p.isOpen = true) :
    p.cleared.descendants = (p.descendants.filter isExposed).map cleared := by
  rw [descendants, element_cleared, Element.children_cleared (isHidden_of_isOpen h)]
  exact ofNodes_cleared h [] p.element.children (List.Subset.refl _)

theorem select_cleared (h : p.isOpen = true) (s : Selector) :
    p.cleared.select s = ((p.select s).filter isExposed).map cleared := by
  have hholds : s.holds ∘ cleared = s.holds := funext fun q => holds_cleared s q
  rw [select, select, descendants_cleared h, List.filter_map, hholds, List.filter_filter, List.filter_filter]
  simp only [Bool.and_comm]

/-! ### All that a walk may come to -/

theorem mem_ofNodes_of_mem_go {before ns : List Node} (hq : q ∈ Place.children.go p before ns) :
    q ∈ ofNodes p before ns ∧ q.descendants ⊆ ofNodes p before ns := by
  induction ns generalizing before with
  | nil => cases hq
  | cons n ns ih =>
    rw [ofNodes]
    cases n with
    | text kind s =>
      obtain ⟨hmem, hbelow⟩ := ih hq
      exact ⟨List.mem_append_right _ hmem, List.subset_append_of_subset_right _ hbelow⟩
    | element name attributes children =>
      rw [ofNode]
      rcases List.mem_cons.1 hq with rfl | hq
      · exact ⟨by simp, fun r hr => by simp [show r ∈ ofNodes _ [] children from hr]⟩
      · obtain ⟨hmem, hbelow⟩ := ih hq
        exact ⟨List.mem_append_right _ hmem, List.subset_append_of_subset_right _ hbelow⟩

/-- A child is below its parent, and so is what is below the child. -/
theorem mem_descendants_of_mem_children (h : q ∈ p.children) : q ∈ p.descendants ∧ q.descendants ⊆ p.descendants :=
  mem_ofNodes_of_mem_go h

mutual

theorem forall_ofNode {P : Place → Prop} (hchild : ∀ q r, P q → r ∈ q.children → P r) (p : Place)
    (before : List Node) (n : Node) (hn : ∀ q ∈ Place.children.go p before [n], P q) : ∀ q ∈ ofNode p before n, P q := by
  cases n with
  | text kind s =>
    rw [ofNode]
    nofun
  | element name attributes children =>
    have hhere := hn _ (List.mem_singleton_self _)
    have hbelow := forall_ofNodes hchild (mk ⟨name, attributes, children⟩ before (some p)) [] children
      fun r hr => hchild _ r hhere hr
    rw [ofNode]
    exact List.forall_mem_cons.2 ⟨hhere, hbelow⟩

theorem forall_ofNodes {P : Place → Prop} (hchild : ∀ q r, P q → r ∈ q.children → P r) (p : Place)
    (before ns : List Node) (hns : ∀ q ∈ Place.children.go p before ns, P q) : ∀ q ∈ ofNodes p before ns, P q := by
  cases ns with
  | nil =>
    rw [ofNodes]
    nofun
  | cons n ns =>
    have hfirst : ∀ q ∈ Place.children.go p before [n], P q := by
      intro q hq
      refine hns q ?_
      cases n with
      | text kind s => cases hq
      | element name attributes children =>
        obtain rfl := List.mem_singleton.1 hq
        exact List.mem_cons_self
    have hrest : ∀ q ∈ Place.children.go p (n :: before) ns, P q := by
      intro q hq
      refine hns q ?_
      cases n with
      | text kind s => exact hq
      | element name attributes children => exact List.mem_cons_of_mem _ hq
    rw [ofNodes]
    exact List.forall_mem_append.2
      ⟨forall_ofNode hchild p before n hfirst, forall_ofNodes hchild p (n :: before) ns hrest⟩

end

/-- What holds of a place and passes to children holds of all that is below. -/
theorem forall_descendants {P : Place → Prop} (hchild : ∀ q r, P q → r ∈ q.children → P r) (hp : P p) :
    ∀ q ∈ p.descendants, P q :=
  forall_ofNodes hchild p [] p.element.children fun r hr => hchild p r hp hr

/-- The places that a walk may come to from a place: those below it, and those below the places around it. -/
def surroundings (p : Place) : List Place := (p :: p.ancestors).flatMap fun r => r :: r.descendants

theorem mem_surroundings_self (p : Place) : p ∈ p.surroundings := by simp [surroundings]

theorem surroundings_parent (h : p.parent? = some q) : q.surroundings ⊆ p.surroundings := by
  obtain ⟨e, before, parent?⟩ := p
  obtain rfl : parent? = some q := h
  simp [surroundings, ancestors]

theorem surroundings_child (h : q ∈ p.children) : q.surroundings ⊆ p.surroundings := by
  obtain ⟨hmem, hbelow⟩ := mem_descendants_of_mem_children h
  intro r hr
  rw [surroundings, (isParent_of_mem_children h).ancestors, List.flatMap_cons, List.mem_append] at hr
  rcases hr with hr | hr
  · rw [surroundings, List.flatMap_cons, List.mem_append]
    left
    refine List.mem_cons_of_mem _ ?_
    rcases List.mem_cons.1 hr with rfl | hr
    · exact hmem
    · exact hbelow hr
  · exact hr

theorem surroundings_descendant (h : q ∈ p.descendants) : q.surroundings ⊆ p.surroundings := by
  have hchild : ∀ q r : Place, q.surroundings ⊆ p.surroundings → r ∈ q.children → r.surroundings ⊆ p.surroundings :=
    fun q r hq hr => List.Subset.trans (surroundings_child hr) hq
  exact forall_descendants hchild (List.Subset.refl _) q h

end Place

end WikiTypeset.Html
