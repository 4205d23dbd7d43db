import WikiTypeset.Text.Blank

/-!
# Paths

A path is a row of names, from the root or from wherever it is read. Empty names and single dots in its text mean
nothing. Main definitions: `Path`, `Path.ofText` and `Path.toText`.
-/

namespace WikiTypeset.Files

open Text

/-- A path: the slashes of its root, if it has one, and its names. -/
structure Path where
  root : String := ""
  names : List String := []
  deriving DecidableEq, Repr, Inhabited

namespace Path

/-- The names in the text of a path. -/
def namesIn (s : String) : List String :=
  ((splitWhere (· == '/') s.toList).filter fun name => !name.isEmpty && name != ['.']).map String.ofList

/-- The root in the text of a path. Two slashes are a root of their own; more are as good as one. -/
def rootIn (s : String) : String :=
  match s.toList with
  | '/' :: '/' :: '/' :: _ => "/"
  | '/' :: '/' :: _ => "//"
  | '/' :: _ => "/"
  | _ => ""

/-- The path that a text writes. -/
def ofText (s : String) : Path := ⟨rootIn s, namesIn s⟩

/-- The text of a path; the path of no names is a dot. -/
def toText (p : Path) : String :=
  if p.root.isEmpty && p.names.isEmpty then "." else p.root ++ String.intercalate "/" p.names

/-- Whether the path begins at the root. -/
def isAbsolute (p : Path) : Bool := !p.root.isEmpty

/-- A path followed by another; one that begins at the root stands for itself. -/
def join (p q : Path) : Path := if q.isAbsolute then q else { p with names := p.names ++ q.names }

/-- A path followed by the path that a text writes. -/
def child (p : Path) (s : String) : Path := p.join (ofText s)

/-- The names that a path leads along from a directory; a step to the parent takes the last name back. -/
def resolve (here : List String) (p : Path) : List String :=
  p.names.foldl (fun names name => if name = ".." then names.dropLast else names ++ [name])
    (if p.isAbsolute then [] else here)

/-- The places that a path leads past from a directory, with all places above them. -/
def places (here : List String) (p : Path) : List (List String) :=
  let stops := (List.range (p.names.length + 1)).map fun n => resolve here { p with names := p.names.take n }
  (stops.flatMap fun place => (List.range (place.length + 1)).map place.take).eraseDups

end Path

/-- The texts of two paths joined by a slash; an absolute one stands for itself. -/
def joinPath (a b : String) : String :=
  if b.toList.head? == some '/' then b
  else if a.isEmpty || a.toList.getLast? == some '/' then a ++ b
  else a ++ "/" ++ b

end WikiTypeset.Files
