import WikiTypeset.Number.Shortest
import WikiTypeset.Text.Quoted

/-!
# Structured values

The values of the metadata that bundles and attributes carry: nothing, truth values, numbers, texts, lists, and
objects whose fields have names. Main definitions: `Json`, its fields, and its text in messages.
-/

namespace WikiTypeset

/-- A structured value. The names of an object's fields are distinct. -/
inductive Json
  | null
  | bool (b : Bool)
  | int (n : Int)
  | real (x : Double)
  | text (s : String)
  | list (items : List Json)
  | object (fields : List (String × Json))
  deriving Inhabited, Repr

namespace Json

/-- The value of a field; nothing but objects has any. -/
def field? (v : Json) (name : String) : Option Json :=
  match v with
  | object fields => (fields.find? (·.1 == name)).map (·.2)
  | _ => none

/-- The value at the end of a path of field names. -/
def path? (v : Json) : List String → Option Json
  | [] => some v
  | name :: names => (v.field? name).bind (·.path? names)

/-- The text that the value is, if it is one. -/
def text? : Json → Option String
  | text s => some s
  | _ => none

/-- The list that the value is, if it is one. -/
def list? : Json → Option (List Json)
  | list items => some items
  | _ => none

/-- Whether the value says something: nothing, falsehood, zero, and what is empty does not. -/
def isTruthy : Json → Bool
  | null => false
  | bool b => b
  | int n => n != 0
  | real x => !x.isZero
  | text s => !s.isEmpty
  | list items => !items.isEmpty
  | object fields => !fields.isEmpty

/-- The number that the value counts as; truth counts as one, falsehood as zero. -/
def number? : Json → Option Double
  | bool b => some (.ofInt (if b then 1 else 0))
  | int n => some (.ofInt n)
  | real x => some x
  | _ => none

/-- The whole number that the value counts as. -/
def whole? : Json → Option Int
  | bool b => some (if b then 1 else 0)
  | int n => some n
  | real x => x.toRat?.bind fun r => if r.den = 1 then some r.num else none
  | _ => none

/-- Whether two numbers are equal in exact arithmetic. -/
def sameNumber (a b : Json) : Bool :=
  match a.whole?, b.whole? with
  | some m, some n => m = n
  | none, none =>
    match a.number?, b.number? with
    | some x, some y => x = y && x != .nan
    | _, _ => false
  | _, _ => false

mutual

/-- Whether two values are equal: numbers by their value, objects whatever the order of their fields. -/
def same : Json → Json → Bool
  | null, null => true
  | text s, text t => s == t
  | list xs, list ys => sameItems xs ys
  | object fs, object gs => fs.length == gs.length && sameFields fs gs
  | a, b => sameNumber a b

/-- Whether two lists are equal. -/
def sameItems : List Json → List Json → Bool
  | [], [] => true
  | x :: xs, y :: ys => same x y && sameItems xs ys
  | _, _ => false

/-- Whether every field of the first object is in the second with an equal value. -/
def sameFields : List (String × Json) → List (String × Json) → Bool
  | [], _ => true
  | (name, x) :: fs, gs =>
    (match gs.find? (·.1 == name) with
      | some (_, y) => same x y
      | none => false) && sameFields fs gs

end

mutual

/-- The form in which messages quote a value. -/
def quoted : Json → String
  | null => "None"
  | bool b => if b then "True" else "False"
  | int n => toString n
  | real x => x.text
  | text s => Text.quotedString s
  | list items => "[" ++ String.intercalate ", " (quotedItems items) ++ "]"
  | object fields => "\x7b" ++ String.intercalate ", " (quotedFields fields) ++ "\x7d"

/-- The quoted forms of the items of a list. -/
def quotedItems : List Json → List String
  | [] => []
  | x :: xs => x.quoted :: quotedItems xs

/-- The quoted forms of the fields of an object. -/
def quotedFields : List (String × Json) → List String
  | [] => []
  | (name, x) :: fs => (Text.quotedString name ++ ": " ++ x.quoted) :: quotedFields fs

end

/-- The value as text: a text as it is, and any other value in its quoted form. -/
def display : Json → String
  | text s => s
  | v => v.quoted

end Json

end WikiTypeset
