import WikiTypeset.Html.Node

/-!
# Places in a tree

A place is an element together with what surrounds it: its earlier siblings and the place of its parent.
Main definitions: `Place`, `Place.ancestors`, `Place.descendants`.
-/

namespace WikiTypeset.Html

/-- An element in its tree: its earlier siblings, the nearest first, and the place of its parent. -/
inductive Place
  | mk (element : Element) (before : List Node) (parent? : Option Place)
  deriving Inhabited

namespace Place

/-- The element at the place. -/
def element : Place → Element
  | mk e _ _ => e

/-- The earlier siblings of the element, the nearest first. -/
def before : Place → List Node
  | mk _ b _ => b

/-- The place of the parent. -/
def parent? : Place → Option Place
  | mk _ _ p => p

/-- The place of the root of a tree. -/
def root (e : Element) : Place := mk e [] none

/-- The places around a place, from the parent outwards. -/
def ancestors : Place → List Place
  | mk _ _ none => []
  | mk _ _ (some p) => p :: p.ancestors

/-- The place of the nearest earlier sibling that is an element. -/
def previousElement? (p : Place) : Option Place := go p.before
where
  /-- The first element among the nodes. -/
  go : List Node → Option Place
    | [] => none
    | .element name attributes children :: rest => some (mk ⟨name, attributes, children⟩ rest p.parent?)
    | .text _ _ :: rest => go rest

/-- The nearest earlier sibling that shows something. -/
def shownBefore? (p : Place) : Option Node := p.before.find? (! ·.isVoid)

mutual

/-- The places in document order from a node on, given its parent and its earlier siblings. -/
def ofNode (parent : Place) (before : List Node) : Node → List Place
  | .element name attributes children =>
    let here := mk ⟨name, attributes, children⟩ before (some parent)
    here :: ofNodes here [] children
  | .text _ _ => []

/-- The places in document order below a parent, from some of its children on. -/
def ofNodes (parent : Place) (before : List Node) : List Node → List Place
  | [] => []
  | n :: ns => ofNode parent before n ++ ofNodes parent (n :: before) ns

end

/-- The places below a place in document order. -/
def descendants (p : Place) : List Place := ofNodes p [] p.element.children

/-- The places of the child elements. -/
def children (p : Place) : List Place := go [] p.element.children
where
  /-- The places of the elements among the nodes, given their earlier siblings. -/
  go (before : List Node) : List Node → List Place
    | [] => []
    | .element name attributes children :: ns =>
      mk ⟨name, attributes, children⟩ before (some p) :: go (.element name attributes children :: before) ns
    | n :: ns => go (n :: before) ns

end Place

end WikiTypeset.Html
