import WikiTypeset.Bundle.TableFile
import WikiTypeset.Conversion.Workshop
import WikiTypeset.Json.Reader

/-!
# Stores

A store keeps structured values by their keys, which are texts. Main definitions: `Store`, `Store.ofPath`,
`Store.text?`, `Store.value?` and `Store.entries`.
-/

namespace WikiTypeset

open Files

/-- An open store: where it is, and its keys with the texts of their values. What is wrong with its file shows when
it is read. -/
structure Store where
  path : Path
  rows : Except StoreFault (List (String × String))

namespace Store

/-- The rows that a file holds as a store. -/
def rowsOf : Content → Except StoreFault (List (String × String))
  | .rows rows => .ok rows
  | .bytes b => TableFile.rows b
  | .text s => .error (if s.isEmpty then .noTable else .notStore)
  | .archive _ => .error .notStore

/-- Opens the store at a path. -/
def ofPath (path : Path) : Work Store := do
  match ← Work.entry? path with
  | some (.file content) => return { path, rows := rowsOf content }
  | _ => throw (.storeMissing path)

/-- The rows of a store that can be read. -/
def readRows (s : Store) : Except Failure (List (String × String)) := s.rows.mapError .badStore

/-- Whether a whole number has a place in a store: 64 bits have to hold it. -/
def isStorable (n : Int) : Bool := n.bmod (Nat.pow 2 64) = n

/-- The text of a key; numbers are keys as well as their texts, and nothing is the key of anything. -/
def keyText? : Json → Except Failure (Option String)
  | .null => .ok none
  | .bool b => .ok (some (if b then "1" else "0"))
  | .int n => if isStorable n then .ok (some (toString n)) else .error (.largeStoreKey n)
  | .real x => .ok (some x.text)
  | .text s => .ok (some s)
  | v => .error (.badStoreKey v)

/-- The text of the value of a key. -/
def text? (s : Store) (key : Json) : Except Failure (Option String) := do
  let rows ← s.readRows
  let key? ← keyText? key
  return key?.bind fun key => (rows.find? (·.1 == key)).map (·.2)

/-- The value that the text of a row writes. -/
def readValue (s : Store) (key : Json) (value : String) : Except Failure Json :=
  match Json.read? value.toList with
  | some v => .ok v
  | none => .error (.badStoreValue key (s.path.names.getLast?.getD ""))

/-- The value of a key. -/
def value? (s : Store) (key : Json) : Except Failure (Option Json) := do
  match ← s.text? key with
  | some value => return some (← s.readValue key value)
  | none => return none

/-- How many keys there are. -/
def count (s : Store) : Except Failure Nat := return (← s.readRows).length

/-- The rows in the order of their keys. -/
def sortedRows (s : Store) : Except Failure (List (String × String)) :=
  return (← s.readRows).mergeSort fun a b => a.1 ≤ b.1

/-- The keys with their values, in order, up to the first value that is not well formed; and that failure. -/
def valuesOf (s : Store) : List (String × String) → List (String × Json) × Except Failure Unit
  | [] => ([], .ok ())
  | (key, value) :: rows =>
    match s.readValue (.text key) value with
    | .ok v =>
      let (entries, result) := s.valuesOf rows
      ((key, v) :: entries, result)
    | .error e => ([], .error e)

/-- The keys with their values, in order, as far as they are well formed. -/
def readableEntries (s : Store) : List (String × Json) × Except Failure Unit :=
  match s.sortedRows with
  | .ok rows => s.valuesOf rows
  | .error e => ([], .error e)

/-- The keys with their values, in order. -/
def entries (s : Store) : Except Failure (List (String × Json)) := do
  let (entries, result) := s.readableEntries
  result
  return entries

end Store

end WikiTypeset
