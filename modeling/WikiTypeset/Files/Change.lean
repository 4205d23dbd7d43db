import WikiTypeset.Files.Tree

/-!
# Changes of trees

What has to be done to one tree of files to make it another. Main definition: `Tree.changesTo`.
-/

namespace WikiTypeset.Files

/-- A step from one tree to another, by the place that it is about. -/
inductive Change
  | removeFile (place : List String)
  | removeDirectory (place : List String)
  | makeDirectory (place : List String)
  | writeFile (place : List String) (content : Content)

/-- Whether two files are known to hold the same. -/
def Content.same : Content → Content → Bool
  | text s, text t => s == t
  | bytes a, bytes b => a == b
  | _, _ => false

/-- Whether what stands at a place may stay when an entry is to stand there. -/
def Entry.same : Entry → Entry → Bool
  | directory, directory => true
  | file c, file d => c.same d
  | _, _ => false

/-- Whether two entries are of one kind. -/
def Entry.sameKind : Entry → Entry → Bool
  | directory, directory | file _, file _ => true
  | _, _ => false

/-- Entries in an order in which every directory comes before what stands in it. -/
def fromTop (entries : List (List String × Entry)) : List (List String × Entry) :=
  entries.mergeSort fun a b => a.1.length ≤ b.1.length

/-- The steps that make one tree another: first all is removed that has no place there, then the rest is made. -/
def Tree.changesTo (t u : Tree) : List Change :=
  let leaves := fromTop (t.entries.filter fun (p, e) => !(u.entry p).any e.sameKind)
  let comes := fromTop (u.entries.filter fun (p, e) => !(t.entry p).any e.same)
  (leaves.reverse.map fun (p, e) =>
    match e with
    | .directory => .removeDirectory p
    | .file _ => .removeFile p) ++
  comes.map fun (p, e) =>
    match e with
    | .directory => .makeDirectory p
    | .file c => .writeFile p c

end WikiTypeset.Files
