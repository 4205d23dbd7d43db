import WikiTypeset.Files.Path
import WikiTypeset.Text.Quoted

/-!
# Trees of files

A tree of directories and files. What a file holds is known as far as it matters: its text, its bytes, the rows of a
store, or the members of an archive. Main definitions: `Tree`, and what can be done to it.
-/

namespace WikiTypeset.Files

/-- What a file holds. -/
inductive Content
  | text (s : String)
  | bytes (b : ByteArray)
  /-- The keys and values of a store. -/
  | rows (rows : List (String × String))
  /-- The members of an archive by their paths. -/
  | archive (members : List (String × Content))
  deriving Inhabited

/-- The text that a file holds; a file of another kind has none. -/
def Content.text? : Content → Option String
  | text s => some s
  | bytes b => String.fromUTF8? b
  | _ => none

/-- What stands at a place of a tree. -/
inductive Entry
  | directory
  | file (content : Content)
  deriving Inhabited

/-- What can be wrong about a path. -/
inductive FileFault
  | notFound
  | taken
  | notDirectory
  | isDirectory
  /-- A directory cannot be moved into itself. -/
  | invalid
  | nameTooLong
  deriving DecidableEq, Repr

/-- A fault with the path it is about, and the second path of an action on two. -/
structure FileError where
  fault : FileFault
  path : String
  target? : Option String := none
  deriving DecidableEq, Repr

/-- The number and wording of a fault. -/
def FileFault.message : FileFault → String
  | notFound => "[Errno 2] No such file or directory"
  | taken => "[Errno 17] File exists"
  | notDirectory => "[Errno 20] Not a directory"
  | isDirectory => "[Errno 21] Is a directory"
  | invalid => "[Errno 22] Invalid argument"
  | nameTooLong => "[Errno 36] File name too long"

/-- The wording of a fault with its paths. -/
def FileError.message (e : FileError) : String :=
  e.fault.message ++ ": " ++ Text.quotedString e.path ++
    match e.target? with
    | some target => " -> " ++ Text.quotedString target
    | none => ""

/-- A tree: what stands at the places that are taken, the root aside. -/
structure Tree where
  entries : List (List String × Entry) := []
  deriving Inhabited

namespace Tree

/-- What stands at a place. -/
def entry (t : Tree) (p : List String) : Option Entry :=
  if p.isEmpty then some .directory else (t.entries.find? (·.1 == p)).map (·.2)

/-- Whether something stands at a place. -/
def isTaken (t : Tree) (p : List String) : Bool := (t.entry p).isSome

/-- Whether a directory stands at a place. -/
def isDirectory (t : Tree) (p : List String) : Bool :=
  match t.entry p with
  | some .directory => true
  | _ => false

/-- What the file at a place holds. -/
def content? (t : Tree) (p : List String) : Option Content :=
  match t.entry p with
  | some (.file c) => some c
  | _ => none

/-- The tree with an entry at a place. -/
def put (t : Tree) (p : List String) (e : Entry) : Tree :=
  if t.entries.any (·.1 == p) then
    { t with entries := t.entries.map fun x => if x.1 == p then (p, e) else x }
  else { t with entries := t.entries ++ [(p, e)] }

/-- The tree without what stands at a place. -/
def remove (t : Tree) (p : List String) : Tree := { t with entries := t.entries.filter (·.1 != p) }

/-- The tree without what stands at a place and below it. -/
def removeAll (t : Tree) (p : List String) : Tree := { t with entries := t.entries.filter (!p.isPrefixOf ·.1) }

/-- What stands below a place, by its path from there. -/
def below (t : Tree) (p : List String) : List (List String × Entry) :=
  t.entries.filterMap fun (q, e) =>
    if p.isPrefixOf q && p.length < q.length then some (q.drop p.length, e) else none

/-- The files below a place, by the text of their paths from there. -/
def filesBelow (t : Tree) (p : List String) : List String :=
  (t.below p).filterMap fun (q, e) =>
    match e with
    | .file _ => some (String.intercalate "/" q)
    | .directory => none

/-- What keeps a path from leading to a place where something may be made. -/
def fault? (t : Tree) (p : List String) : Option FileFault :=
  let parents := (List.range p.length).map p.take
  match parents.find? fun q => !t.isDirectory q with
  | some q => some (if t.isTaken q then .notDirectory else .notFound)
  | none => if p.any fun name => 255 < name.utf8ByteSize then some .nameTooLong else none

/-- Where names lead from a directory. Every place that they go on from has to be a directory. -/
def walk (t : Tree) : List String → List String → Except FileFault (List String)
  | here, [] => .ok here
  | here, name :: names =>
    if !t.isDirectory here then .error (if t.isTaken here then .notDirectory else .notFound)
    else if 255 < name.utf8ByteSize then .error .nameTooLong
    else t.walk (if name = ".." then here.dropLast else here ++ [name]) names

/-- Where a path leads from a directory. -/
def locate (t : Tree) (here : List String) (p : Path) : Except FileFault (List String) :=
  t.walk (if p.isAbsolute then [] else here) p.names

/-- Makes a directory. -/
def makeDirectory (t : Tree) (p : List String) : Except FileFault Tree :=
  match t.fault? p with
  | some fault => .error fault
  | none => if t.isTaken p then .error .taken else .ok (t.put p .directory)

/-- Writes a file, in place of one that stands there. -/
def write (t : Tree) (p : List String) (c : Content) : Except FileFault Tree :=
  match t.fault? p with
  | some fault => .error fault
  | none => if t.isDirectory p then .error .isDirectory else .ok (t.put p (.file c))

/-- Reads a file. -/
def read (t : Tree) (p : List String) : Except FileFault Content :=
  match t.fault? p with
  | some fault => .error fault
  | none =>
    match t.entry p with
    | some (.file c) => .ok c
    | some .directory => .error .isDirectory
    | none => .error .notFound

/-- The tree with what stands at a place and below it standing at another. -/
def rebase (t : Tree) (p q : List String) : Tree :=
  { t with entries := t.entries.map fun (r, e) => (if p.isPrefixOf r then q ++ r.drop p.length else r, e) }

/-- Moves what stands at a place, in place of a file that stands at the target. -/
def move (t : Tree) (p q : List String) : Except FileFault Tree :=
  match t.entry p, t.fault? q, t.entry q with
  | none, _, _ => .error ((t.fault? p).getD .notFound)
  | _, some fault, _ => .error fault
  | some (.file _), _, some .directory => .error .isDirectory
  | some .directory, _, some (.file _) => .error .notDirectory
  | some _, _, _ =>
    if p == q then .ok t
    else if p.isPrefixOf q then .error .invalid
    else .ok ((t.remove q).rebase p q)

/-- Removes a file. -/
def unlink (t : Tree) (p : List String) : Except FileFault Tree :=
  match t.entry p with
  | some (.file _) => .ok (t.remove p)
  | some .directory => .error .isDirectory
  | none => .error ((t.fault? p).getD .notFound)

/-- The directories on the way to a place, the place itself aside. -/
def withParents (t : Tree) (p : List String) : Tree :=
  (List.range p.length).foldl (fun t n => if t.isTaken (p.take n) then t else t.put (p.take n) .directory) t

/-- The paths from a place of all that stands below it, in order; those of directories end in a slash. -/
def listing (t : Tree) (p : List String) : List String :=
  ((t.below p).map fun (q, e) =>
    let s := String.intercalate "/" q
    match e with
    | .directory => s ++ "/"
    | .file _ => s).mergeSort (fun a b => a ≤ b)

end Tree

/-- Where names lead from a directory of the files; nothing outside it is known. -/
def follow? (files : List (List String)) : List String → List String → Option (List String)
  | here, [] => some here
  | here, name :: names =>
    if !(here.isEmpty || files.any fun file => here.isPrefixOf file && here.length < file.length) then none
    else if name = ".." then if here.isEmpty then none else follow? files here.dropLast names
    else follow? files (here ++ [name]) names

/-- Whether a path leads to one of the files or to a directory that holds one. -/
def pathExists (files : List String) (path : String) : Bool :=
  let files := files.map Path.namesIn
  !(Path.ofText path).isAbsolute &&
    match follow? files [] (Path.namesIn path) with
    | some names => files.any names.isPrefixOf
    | none => false

end WikiTypeset.Files
