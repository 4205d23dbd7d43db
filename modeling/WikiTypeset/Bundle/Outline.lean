import WikiTypeset.Conversion.Workshop
import WikiTypeset.Json.Reader

/-!
# Outlines

The outline of a collection: an object with items, which are articles, and chapters with items of their own. Outlines
come from elsewhere, so that what is asked of one may not be there. Main definitions: `Outline.load`,
`Outline.fieldOf`, `Outline.itemsOf`, `Outline.countItems`.
-/

namespace WikiTypeset.Outline

open Files

/-- What may be asked of an outline and not be there. -/
abbrev Asked (α : Type) := Except ShapeFault α

/-- The value of a field; nothing if an object does not have it. -/
def fieldOf (v : Json) (name : String) : Asked Json :=
  match v with
  | .object _ => .ok ((v.field? name).getD .null)
  | v => .error (.noMember v "get")

/-- Whether an object has a field. -/
def hasField (v : Json) (name : String) : Bool := (v.field? name).isSome

/-- The values that a value consists of: those of a list, the names of an object, the characters of a text. -/
def elementsOf : Json → Asked (List Json)
  | .list items => .ok items
  | .object fields => .ok (fields.map fun (name, _) => .text name)
  | .text s => .ok (s.toList.map fun c => .text c.toString)
  | v => .error (.noItems v)

/-- The items of an object; what says nothing counts as no items. -/
def itemsOf (v : Json) : Asked (List Json) := do
  let items ← fieldOf v "items"
  if items.isTruthy then elementsOf items else return []

/-- A field that is a text; what says nothing counts as the empty text. -/
def textOf (v : Json) (name : String) : Asked String := do
  match ← fieldOf v name with
  | .text s => return s
  | v => if v.isTruthy then throw (.notText v) else return ""

mutual

/-- The number of items in an outline or an item, the whole itself counted. -/
def countItems : Json → Asked Nat
  | .object fields => do return 1 + (← countField fields)
  | v => .error (.noMember v "get")

/-- The number of items in the field of that name. -/
def countField : List (String × Json) → Asked Nat
  | [] => .ok 0
  | (name, v) :: fields => if name = "items" then countChildren v else countField fields

/-- The number of items that a value consists of. -/
def countChildren : Json → Asked Nat
  | .list items => countAll items
  | v =>
    if !v.isTruthy then .ok 0
    else match elementsOf v with
      | .ok (element :: _) => .error (.noMember element "get")
      | .ok [] => .ok 0
      | .error fault => .error fault

/-- The number of items in a row. -/
def countAll : List Json → Asked Nat
  | [] => .ok 0
  | item :: items => do return (← countItems item) + (← countAll items)

end

/-- The outline that a text writes: an object, which is given empty items if it has none. -/
def read (s : String) : Except Failure Json :=
  match Json.read? s.toList with
  | none => .error .badOutline
  | some (.object fields) =>
    .ok (.object (if fields.any (·.1 == "items") then fields else fields ++ [("items", .list [])]))
  | some _ => .error .outlineNotObject

/-- The file of the outline in a bundle. -/
def fileName : String := "metabook.json"

/-- The outline of an unpacked bundle. -/
def load (bundle : Path) : Work Json := do
  let p := bundle.child fileName
  let w ← get
  let text ← match w.tree.locate w.here p >>= w.tree.read with
    | .ok content => pure (Work.plainLines (content.text?.getD ""))
    | .error .notFound => throw .noOutline
    | .error fault => throw (.file { fault, path := p.toText })
  match read text with
  | .ok outline => return outline
  | .error e => throw e

end WikiTypeset.Outline
