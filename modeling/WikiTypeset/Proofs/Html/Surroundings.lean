import WikiTypeset.Html.Annotation
import WikiTypeset.Html.Selector

/-!
# What lies below and around a place

An element may be given another language and another direction. It stays like the one that it was: its name, and all that
its other attributes say. A walk may go down from a place, and through the parent of a place to all that is below the
parent. `Place.Bears` says of everything that can be reached in this way that it comes from a stock of elements and
characters and is not higher than a bound. It passes to the places below: `Place.Bears.child` and
`Place.Bears.descendant`.
-/

namespace WikiTypeset.Html

open Text

/-! ### Elements that are alike -/

/-- The elements have the same name and the same attributes, language and direction apart. -/
structure Element.Likens (e e' : Element) : Prop where
  name : e.name = e'.name
  value? : ∀ name, name ≠ "lang" → name ≠ "dir" → e.value? name = e'.value? name

namespace Element

variable {e e' e'' : Element}

theorem Likens.refl (e : Element) : e.Likens e := ⟨rfl, fun _ _ _ => rfl⟩

theorem Likens.trans (h : e.Likens e') (h' : e'.Likens e'') : e.Likens e'' :=
  ⟨h.name.trans h'.name, fun name hl hd => (h.value? name hl hd).trans (h'.value? name hl hd)⟩

theorem Likens.attr (h : e.Likens e') (name : String) (hl : name ≠ "lang") (hd : name ≠ "dir") :
    e.attr name = e'.attr name := by
  rw [Element.attr, Element.attr, attr?, attr?, h.value? name hl hd]

theorem Likens.metadata (h : e.Likens e') (name : String) (hl : name ≠ "lang") (hd : name ≠ "dir") :
    e.metadata name = e'.metadata name := by
  rw [Element.metadata, Element.metadata, h.value? name hl hd, h.name]

theorem Likens.isMultipleImage (h : e.Likens e') : e.isMultipleImage = e'.isMultipleImage := by
  rw [Element.isMultipleImage, Element.isMultipleImage, attr?, attr?, h.value? "typeof" (by decide) (by decide),
    h.metadata "data-mw" (by decide) (by decide)]

theorem Likens.isHidden (h : e.Likens e') : e.isHidden = e'.isHidden := by
  rw [Element.isHidden, Element.isHidden, h.isMultipleImage, classes, classes, h.value? "class" (by decide) (by decide),
    h.attr "style" (by decide) (by decide)]

theorem attr_of_bare (h : e.attributes = []) (name : String) : e.attr name = "" := by
  simp [Element.attr, attr?, Element.value?, h]

theorem metadata_of_bare (h : e.attributes = []) (name : String) : e.metadata name = (none, []) := by
  simp [Element.metadata, Element.value?, h]

theorem value?_withAttr (e : Element) {name other : String} (h : other ≠ name) (value : AttrValue) :
    (e.withAttr name value).value? other = e.value? other := by
  have hset : ∀ as : List Attribute,
      ((as.map fun a => if a.name == name then { a with value } else a).find? (·.name == other)).map (·.value) =
        (as.find? (·.name == other)).map (·.value) := by
    intro as
    induction as with
    | nil => rfl
    | cons a as ih =>
      rw [List.map_cons]
      by_cases hname : a.name = name
      · have hother : (name == other) = false := by simpa using h.symm
        simpa [hname, hother] using ih
      · by_cases hfound : a.name = other
        · simp [hfound, h]
        · simpa [hname, hfound] using ih
  have hnew : (name == other) = false := by simpa using h.symm
  unfold withAttr Element.value?
  split
  · exact hset e.attributes
  · simp [List.find?_append, hnew]

theorem likens_withAttr (e : Element) {name : String} (h : name = "lang" ∨ name = "dir") (value : AttrValue) :
    (e.withAttr name value).Likens e := by
  refine ⟨?_, fun other hl hd => value?_withAttr e ?_ value⟩
  · unfold withAttr
    split <;> rfl
  · rcases h with rfl | rfl
    · exact hl
    · exact hd

theorem children_withAttr (e : Element) (name : String) (value : AttrValue) :
    (e.withAttr name value).children = e.children := by
  unfold withAttr
  split <;> rfl

end Element

/-! ### Elements below nodes -/

theorem mem_elementsOf {e : Element} {n : Node} {ns : List Node} (hn : n ∈ ns) (he : e ∈ n.elements) :
    e ∈ elementsOf ns := by
  induction ns with
  | nil => cases hn
  | cons m ms ih =>
    rw [elementsOf, List.mem_append]
    rcases List.mem_cons.1 hn with rfl | hn
    · exact .inl he
    · exact .inr (ih hn)

theorem Element.mem_elements (e : Element) : e ∈ e.toNode.elements := by
  simp [Element.toNode, Node.elements]

theorem Element.elements_eq (e : Element) : e.toNode.elements = e :: e.descendants := by
  simp [Element.toNode, Node.elements, Element.descendants]

theorem Element.mem_descendants {e e' : Element} (h : e.toNode ∈ e'.children) : e ∈ e'.descendants :=
  mem_elementsOf h e.mem_elements

/-- What is below a child is below the parent. -/
theorem Element.descendants_subset {e e' : Element} (h : e.toNode ∈ e'.children) : e.descendants ⊆ e'.descendants := by
  intro x hx
  refine mem_elementsOf h ?_
  rw [e.elements_eq]
  exact List.mem_cons_of_mem e hx

theorem height_le_heights {n : Node} {ns : List Node} (h : n ∈ ns) : n.height ≤ Node.height.heights ns := by
  induction ns with
  | nil => cases h
  | cons m ms ih =>
    rw [Node.height.heights]
    rcases List.mem_cons.1 h with rfl | h
    · omega
    · have hle := ih h
      omega

/-- The text of a child is text of the parent. -/
theorem textContent_subset {n : Node} {ns : List Node} (h : n ∈ ns) :
    n.textContent ⊆ Node.textContent.contents ns := by
  induction ns with
  | nil => cases h
  | cons m ms ih =>
    rw [Node.textContent.contents]
    rcases List.mem_cons.1 h with rfl | h
    · exact List.subset_append_left _ _
    · exact List.Subset.trans (ih h) (List.subset_append_right _ _)

/-- A child is less high than its parent. -/
theorem Element.height_lt {e : Element} {n : Node} (h : n ∈ e.children) : n.height < e.toNode.height := by
  have hle := height_le_heights h
  show n.height < Node.height.heights e.children + 1
  omega

namespace Place

/-- The element at `q` is a child of the one at `p`. -/
structure IsParent (p q : Place) : Prop where
  parent : q.parent? = some p
  mem : q.element.toNode ∈ p.element.children

theorem IsParent.ancestors {p q : Place} (h : p.IsParent q) : q.ancestors = p :: p.ancestors := by
  obtain ⟨e, before, parent?⟩ := q
  obtain rfl : parent? = some p := h.parent
  rw [Place.ancestors]

end Place

/-- What may be found in a tree. -/
structure Stock where
  element : Element → Prop
  char : Char → Prop

/-- The tree is no higher than `H`, and what is below its root comes from the stock. -/
structure Element.Holds (k : Stock) (H : Nat) (e : Element) : Prop where
  height_le : e.toNode.height ≤ H
  below : ∀ x ∈ e.descendants, k.element x
  text : ∀ c ∈ e.textContent, k.char c

theorem Element.Holds.child {k : Stock} {H : Nat} {e e' : Element} (h : e'.Holds k H) (he : e.toNode ∈ e'.children) :
    e.Holds k H where
  height_le := by
    have hlt := Element.height_lt he
    have hle := h.height_le
    omega
  below x hx := h.below x (Element.descendants_subset he hx)
  text c hc := h.text c (textContent_subset he hc)

namespace Place

/-- The trees at a place and around it are no higher than `H`, and what is below their roots comes from the stock. -/
def Bears (k : Stock) (H : Nat) (p : Place) : Prop := ∀ q ∈ p :: p.ancestors, q.element.Holds k H

variable {k : Stock} {H : Nat} {p q : Place}

namespace Bears

theorem holds (h : p.Bears k H) : p.element.Holds k H := h p (List.mem_cons_self ..)

theorem child (h : p.Bears k H) (hq : p.IsParent q) : q.Bears k H ∧ k.element q.element := by
  refine ⟨?_, h.holds.below _ (Element.mem_descendants hq.mem)⟩
  intro r hr
  rw [hq.ancestors] at hr
  rcases List.mem_cons.1 hr with rfl | hr
  · exact h.holds.child hq.mem
  · exact h r hr

theorem parent (h : p.Bears k H) (hq : p.parent? = some q) : q.Bears k H := by
  obtain ⟨e, before, parent?⟩ := p
  obtain rfl : parent? = some q := hq
  intro r hr
  refine h r (List.mem_cons_of_mem _ ?_)
  rw [Place.ancestors]
  exact hr

end Bears

mutual

theorem exists_parent_ofNode {P : Place → Prop} (hchild : ∀ q r, P q → q.IsParent r → P r) {p : Place} (hp : P p)
    (before : List Node) (n : Node) (hn : n ∈ p.element.children) : ∀ q ∈ ofNode p before n, ∃ r, P r ∧ r.IsParent q := by
  cases n with
  | text kind s =>
    rw [ofNode]
    nofun
  | element name attributes children =>
    have hhere : p.IsParent (mk ⟨name, attributes, children⟩ before (some p)) := ⟨rfl, hn⟩
    have hbelow := exists_parent_ofNodes hchild (hchild _ _ hp hhere) [] children (List.Subset.refl _)
    intro q hq
    rw [ofNode] at hq
    rcases List.mem_cons.1 hq with rfl | hq
    · exact ⟨p, hp, hhere⟩
    · exact hbelow q hq

theorem exists_parent_ofNodes {P : Place → Prop} (hchild : ∀ q r, P q → q.IsParent r → P r) {p : Place} (hp : P p)
    (before ns : List Node) (hns : ns ⊆ p.element.children) :
    ∀ q ∈ ofNodes p before ns, ∃ r, P r ∧ r.IsParent q := by
  cases ns with
  | nil =>
    rw [ofNodes]
    nofun
  | cons n ns =>
    obtain ⟨hn, hns⟩ := List.cons_subset.1 hns
    have hfirst := exists_parent_ofNode hchild hp before n hn
    have hrest := exists_parent_ofNodes hchild hp (n :: before) ns hns
    intro q hq
    rw [ofNodes] at hq
    rcases List.mem_append.1 hq with hq | hq
    · exact hfirst q hq
    · exact hrest q hq

end

/-- What holds of a place and passes to children holds of the parent of every place below. -/
theorem exists_parent {P : Place → Prop} (hchild : ∀ q r, P q → q.IsParent r → P r) (hp : P p)
    (hq : q ∈ p.descendants) : ∃ r, P r ∧ r.IsParent q :=
  exists_parent_ofNodes hchild hp [] _ (List.Subset.refl _) q hq

/-- What is known at a place is known below it. -/
theorem Bears.descendant (h : p.Bears k H) (hq : q ∈ p.descendants) : q.Bears k H ∧ k.element q.element := by
  obtain ⟨r, hr, hparent⟩ := exists_parent (fun _ _ h hparent => (Bears.child h hparent).1) h hq
  exact hr.child hparent

theorem isParent_of_mem_go (before : List Node) {ns : List Node} (hns : ns ⊆ p.element.children)
    (hq : q ∈ children.go p before ns) : p.IsParent q := by
  induction ns generalizing before with
  | nil => cases hq
  | cons n ns ih =>
    obtain ⟨hn, hrest⟩ := List.cons_subset.1 hns
    cases n with
    | text kind s => exact ih _ hrest hq
    | element name attributes children =>
      rcases List.mem_cons.1 hq with rfl | hq
      · exact ⟨rfl, hn⟩
      · exact ih _ hrest hq

theorem isParent_of_mem_children (hq : q ∈ p.children) : p.IsParent q :=
  isParent_of_mem_go [] (List.Subset.refl _) hq

end Place

end WikiTypeset.Html
