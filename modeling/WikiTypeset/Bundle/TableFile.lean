import WikiTypeset.Conversion.Failure
import WikiTypeset.Files.Bytes

/-!
# Files of stores

The file format of stores. A file is a row of pages; a table is a tree of pages, whose leaves hold records. The table
of the first page lists the others; that of a store has a key and a value in each record. Main definition:
`TableFile.rows`.
-/

namespace WikiTypeset.TableFile

open Files Bytes

/-- A value in a record. -/
inductive Cell
  | null
  | whole (n : Int)
  | text (s : String)
  /-- A value that stores do not hold. -/
  | other

/-- A value as a text. -/
def Cell.text? : Cell → Option String
  | whole n => some (toString n)
  | text s => some s
  | _ => none

/-- A number of one to nine bytes, and the place behind it. All bytes but the last have their high bit set; a ninth
byte counts in full. -/
def varying? (b : ByteArray) : Nat → (i value : Nat) → Option (Nat × Nat)
  | 0, i, value => (b[i]?).map fun x => (256 * value + x.toNat, i + 1)
  | left + 1, i, value => do
    let x ← b[i]?
    if x < 128 then some (128 * value + x.toNat, i + 1) else varying? b left (i + 1) (128 * value + (x.toNat - 128))

/-- A number of one to nine bytes at a place, and the place behind it. -/
def number? (b : ByteArray) (i : Nat) : Option (Nat × Nat) := varying? b 8 i 0

/-- The whole number in bytes, the high byte first, its first bit the sign. -/
def whole? (b : ByteArray) (i length : Nat) : Option Cell :=
  (bigEndian? b i length).map fun n => .whole ((n : Int).bmod (Nat.pow 256 length))

/-- The value of a type at a place, and its length. -/
def cell? (b : ByteArray) (i : Nat) (type : Nat) : Option (Cell × Nat) :=
  match type with
  | 0 => some (.null, 0)
  | 1 | 2 | 3 | 4 => (whole? b i type).map (·, type)
  | 5 => (whole? b i 6).map (·, 6)
  | 6 => (whole? b i 8).map (·, 8)
  | 7 => some (.other, 8)
  | 8 => some (.whole 0, 0)
  | 9 => some (.whole 1, 0)
  | 10 | 11 => none
  | n =>
    let length := (n - 12) / 2
    if n % 2 = 0 then some (.other, length)
    else do
      let s ← String.fromUTF8? (← slice? b i length)
      return (.text s, length)

/-- The types in the head of a record, from one place up to another. -/
def types? (b : ByteArray) (stop : Nat) : Nat → Nat → Option (List Nat)
  | 0, _ => some []
  | fuel + 1, i =>
    if stop ≤ i then some []
    else do
      let (type, i) ← number? b i
      return type :: (← types? b stop fuel i)

/-- The values of types from a place on. -/
def cells? (b : ByteArray) : List Nat → Nat → Option (List Cell)
  | [], _ => some []
  | type :: types, i => do
    let (cell, length) ← cell? b i type
    return cell :: (← cells? b types (i + length))

/-- The values in a record: its head tells their types. -/
def record? (b : ByteArray) : Option (List Cell) := do
  let (stop, i) ← number? b 0
  cells? b (← types? b stop b.size i) stop

/-- A file by its pages. -/
structure Pages where
  bytes : ByteArray
  size : Nat
  /-- How many bytes of a page are used. -/
  used : Nat

namespace Pages

/-- The words at the start of every file. -/
def signature : ByteArray := "SQLite format 3\x00".toUTF8

/-- The pages of a file. -/
def ofBytes? (b : ByteArray) : Option Pages := do
  if b.extract 0 16 != signature then none
  let size ← bigEndian? b 16 2
  let size := if size = 1 then 65536 else size
  let unused ← b[20]?
  if size < 512 then none
  return { bytes := b, size, used := size - unused.toNat }

/-- Where a page begins; pages are counted from one on. -/
def start (p : Pages) (page : Nat) : Nat := (page - 1) * p.size

/-- The bytes of a record that overflows its page, from a page on. -/
def overflow? (p : Pages) : Nat → (page length : Nat) → Option ByteArray
  | 0, _, _ => none
  | fuel + 1, page, length =>
    if length = 0 then some .empty
    else do
      if page = 0 then none
      let next ← bigEndian? p.bytes (p.start page) 4
      let here ← slice? p.bytes (p.start page + 4) (min length (p.used - 4))
      return here ++ (← p.overflow? fuel next (length - here.size))

/-- How many bytes of a record stand in its leaf. -/
def localLength (p : Pages) (length : Nat) : Nat :=
  let most := p.used - 35
  let least := (p.used - 12) * 32 / 255 - 23
  let fitting := least + (length - least) % (p.used - 4)
  if length ≤ most then length else if fitting ≤ most then fitting else least

/-- The record at a place of a leaf. -/
def recordAt? (p : Pages) (i : Nat) : Option (List Cell) := do
  let (length, i) ← number? p.bytes i
  let (_, i) ← number? p.bytes i
  let here := p.localLength length
  let first ← slice? p.bytes i here
  if here = length then record? first
  else
    let page ← bigEndian? p.bytes (i + here) 4
    record? (first ++ (← p.overflow? (p.bytes.size / p.size + 1) page (length - here)))

/-- How deep the tree of a table may be. -/
def depthLimit : Nat := 20

/-- The records of the tree that begins with a page. -/
def records? (p : Pages) : Nat → Nat → Option (List (List Cell))
  | 0, _ => none
  | depth + 1, page => do
    if page = 0 then none
    let head := p.start page + (if page = 1 then 100 else 0)
    let kind ← p.bytes[head]?
    let count ← bigEndian? p.bytes (head + 3) 2
    let cellPlace (pointers n : Nat) : Option Nat :=
      (bigEndian? p.bytes (pointers + 2 * n) 2).map (p.start page + ·)
    if kind = 13 then (List.range count).mapM fun n => do p.recordAt? (← cellPlace (head + 8) n)
    else if kind = 5 then
      let children ← (List.range count).mapM fun n => do bigEndian? p.bytes (← cellPlace (head + 12) n) 4
      let last ← bigEndian? p.bytes (head + 8) 4
      return (← (children ++ [last]).mapM fun child => p.records? depth child).flatten
    else none

/-- The records of the table whose tree begins with a page. -/
def table? (p : Pages) (page : Nat) : Option (List (List Cell)) := p.records? depthLimit page

end Pages

/-- The name of the table of a store. -/
def tableName : String := "kv_table"

/-- The first page of the table of a store, as a record of the list of tables tells it. -/
def firstPage? : List Cell → Option Nat
  | .text "table" :: .text name :: _ :: .whole page :: _ => if name = tableName then some page.toNat else none
  | _ => none

/-- The key and value of a record. -/
def row? : List Cell → Option (String × String)
  | key :: value :: _ => do return (← key.text?, ← value.text?)
  | _ => none

/-- The keys and values of the store in a file. -/
def rows (b : ByteArray) : Except StoreFault (List (String × String)) :=
  if b.isEmpty then .error .noTable
  else
    match (do let p ← Pages.ofBytes? b; return (p, ← p.table? 1)) with
    | none => .error .notStore
    | some (p, tables) =>
      match tables.findSome? firstPage? with
      | none => .error .noTable
      | some page =>
        match p.table? page with
        | some records => .ok (records.filterMap row?)
        | none => .error .notStore

end WikiTypeset.TableFile
