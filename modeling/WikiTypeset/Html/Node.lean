import WikiTypeset.Text.Blank

/-!
# Markup trees

The tree of a marked-up document: elements with attributes, and texts. Main definitions: `Node`, `Element`, and the
look at an element's attributes and children.
-/

namespace WikiTypeset.Html

open Text

/-- What a text of a tree is. -/
inductive TextKind
  /-- Text of the document. -/
  | plain
  /-- Text of the document in a literal section. -/
  | literal
  /-- Comments, declarations and instructions. -/
  | comment
  /-- The text of scripts, style sheets, templates and ruby annotations. -/
  | embedded
  deriving DecidableEq, Repr

/-- The value of an attribute: a text, or the words of an attribute that holds a list of words. -/
inductive AttrValue
  | text (s : String)
  | words (ws : List String)
  deriving DecidableEq, Repr, Inhabited

/-- The value as one text; words are joined by spaces. -/
def AttrValue.toText : AttrValue → String
  | text s => s
  | words ws => String.intercalate " " ws

/-- A named attribute. -/
structure Attribute where
  name : String
  value : AttrValue
  deriving DecidableEq, Repr, Inhabited

/-- A node of a markup tree. -/
inductive Node
  | element (name : String) (attributes : List Attribute) (children : List Node)
  | text (kind : TextKind) (content : List Char)
  deriving Inhabited, Repr

/-- An element of a markup tree. -/
structure Element where
  name : String
  attributes : List Attribute := []
  children : List Node := []
  deriving Inhabited, Repr

/-- The name of the root that holds the nodes of a document. -/
def rootName : String := "[document]"

namespace Node

/-- The node as an element, if it is one. -/
def element? : Node → Option Element
  | element name attributes children => some ⟨name, attributes, children⟩
  | text _ _ => none

/-- Whether the node is an element. -/
def isElement : Node → Bool
  | element .. => true
  | text .. => false

/-- Whether the node is text of the document, as opposed to comments and embedded text. -/
def isText : Node → Bool
  | text .plain _ | text .literal _ => true
  | _ => false

/-- Whether the node is an element with the given name. -/
def isNamed (name : String) : Node → Bool
  | element n _ _ => n == name
  | text _ _ => false

/-- Whether the node shows nothing: blank text, or a comment or embedded text. -/
def isVoid : Node → Bool
  | element .. => false
  | text .plain content | text .literal content => content.all isBlank
  | text _ _ => true

/-- The height of the tree below and including the node. -/
def height : Node → Nat
  | element _ _ children => heights children + 1
  | text _ _ => 1
where
  /-- The greatest height among nodes. -/
  heights : List Node → Nat
    | [] => 0
    | n :: ns => max n.height (heights ns)

/-- The text of the document below and including the node. -/
def textContent : Node → List Char
  | element _ _ children => contents children
  | text .plain content | text .literal content => content
  | text _ _ => []
where
  /-- The text of the document below nodes. -/
  contents : List Node → List Char
    | [] => []
    | n :: ns => n.textContent ++ contents ns

end Node

namespace Element

/-- The element as a node. -/
def toNode (e : Element) : Node := .element e.name e.attributes e.children

/-- The value of an attribute. -/
def value? (e : Element) (name : String) : Option AttrValue :=
  (e.attributes.find? (·.name == name)).map (·.value)

/-- The value of an attribute as one text. -/
def attr? (e : Element) (name : String) : Option String := (e.value? name).map (·.toText)

/-- The value of an attribute as one text, empty if the attribute is missing. -/
def attr (e : Element) (name : String) : String := (e.attr? name).getD ""

/-- The element with an attribute set. -/
def withAttr (e : Element) (name : String) (value : AttrValue) : Element :=
  if e.attributes.any (·.name == name) then
    { e with attributes := e.attributes.map fun a => if a.name == name then { a with value } else a }
  else { e with attributes := e.attributes ++ [⟨name, value⟩] }

/-- The classes of the element. -/
def classes (e : Element) : List String :=
  match e.value? "class" with
  | some (.words ws) => ws
  | some (.text s) => (words s.toList).map String.ofList
  | none => []

/-- The children that are elements. -/
def elementChildren (e : Element) : List Element := e.children.filterMap (·.element?)

/-- The first child that shows something. -/
def firstShown? (e : Element) : Option Node := e.children.find? (! ·.isVoid)

/-- The first child element with the given name. -/
def childNamed? (e : Element) (name : String) : Option Element := e.elementChildren.find? (·.name == name)

/-- The text of the document below the element. -/
def textContent (e : Element) : List Char := e.toNode.textContent

end Element

/-- The nearest earlier sibling that shows something, among earlier siblings of which the nearest comes first. -/
def shownBefore? (before : List Node) : Option Node := before.find? (! ·.isVoid)

mutual

/-- The elements below a node in document order, the node itself included. -/
def Node.elements : Node → List Element
  | .element name attributes children => ⟨name, attributes, children⟩ :: elementsOf children
  | .text _ _ => []

/-- The elements below and including the nodes, in document order. -/
def elementsOf : List Node → List Element
  | [] => []
  | n :: ns => n.elements ++ elementsOf ns

end

/-- The elements below an element in document order. -/
def Element.descendants (e : Element) : List Element := elementsOf e.children

end WikiTypeset.Html
