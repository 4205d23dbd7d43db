import WikiTypeset.Conversion.Workshop
import WikiTypeset.Files.Archive
import WikiTypeset.Options.Conversion

/-!
# Build directories

A bundle is brought into a fresh build directory: an archive is unpacked there, and the files of a directory are
linked. If that fails, nothing of the build directory stays. Main definitions: `Workspace.prepare` and the places in
a build directory.
-/

namespace WikiTypeset.Workspace

open Files

/-- The bundle in a build directory. -/
def bundleIn (build : Path) : Path := build.child "bundle"

/-- The LaTeX of the articles in a build directory. -/
def latexIn (build : Path) : Path := build.child "latex"

/-- The images of the bundle in a build directory. -/
def imagesIn (build : Path) : Path := (bundleIn build).child "images"

/-- The names on the way to a member of an archive; steps to nowhere and to the parent do not count. -/
def memberNames (name : String) : List String := (Path.namesIn name).filter (· != "..")

/-- Makes the directories on the way to a place, as far as nothing stands there. -/
def withWay (t : Tree) (place : List String) : Except FileFault Tree :=
  ((List.range place.length).map fun n => place.take n).foldlM (fun t p =>
    if t.isTaken p then .ok t else t.makeDirectory p) t

/-- Unpacks a member of an archive below a place. A name that ends in a slash is that of a directory. -/
def unpackMember (t : Tree) (place : List String) (name : String) (c : Content) : Except FileError Tree :=
  let target := place ++ memberNames name
  let unpacked := do
    let t ← withWay t target
    if name.endsWith "/" then
      if t.isDirectory target then .ok t else t.makeDirectory target
    else t.write target c
  unpacked.mapError fun fault => { fault, path := Path.toText ⟨"/", target⟩ }

/-- Unpacks an archive below a place. -/
def unpack (t : Tree) (place : List String) (members : List (String × Content)) : Except FileError Tree :=
  members.foldlM (fun t (name, c) => unpackMember t place name c) t

/-- The members of an archive. -/
def membersOf? : Entry → Option (List (String × Content))
  | .file (.archive members) => some members
  | .file (.bytes b) => (Archive.members? b).map fun members => members.map fun (name, b) => (name, .bytes b)
  | _ => none

/-- Links all that stands below a place to a second place, where a directory is made for it. -/
def link (t : Tree) (source target : List String) : Except FileFault Tree := do
  (t.below source).foldlM (fun t (names, e) => .ok (t.put (target ++ names) e)) (← t.makeDirectory target)

/-- Brings a bundle into a build directory. -/
def populate (source build : Path) : Work Unit := do
  Work.makeDirectory (latexIn build)
  let bundle := bundleIn build
  match ← Work.entry? source with
  | some .directory =>
    Work.stage 0 "Creating work space"
    let w ← get
    let linked := do
      let place ← w.tree.locate w.here source
      link w.tree place (← w.tree.locate w.here bundle)
    match linked with
    | .ok tree => set { w with tree }
    | .error fault => throw (.cannotLink { fault, path := bundle.toText })
  | entry? =>
    Work.stage 0 "Unpacking content bundle"
    Work.makeDirectory bundle
    match entry?.bind membersOf? with
    | some members =>
      let w ← get
      let unpacked : Except FileError Tree := do
        let place ← (w.tree.locate w.here bundle).mapError fun fault => ⟨fault, bundle.toText, none⟩
        unpack w.tree place members
      match unpacked with
      | .ok tree => set { w with tree }
      | .error e => throw (.file e)
    | none => throw (.badArchive source)

/-- Does work, and removes a build directory if it fails. -/
def orRemove (build : Path) (work : Work Unit) : Work Unit :=
  Action.of fun w =>
    match work.perform w with
    | (.ok (), w) => (.ok (), w)
    | (.error e, w) => (.error e, ((Work.removeAll build).perform w).2)

/-- Makes a build directory that holds the bundle. -/
def prepare (o : ConversionOptions) : Work Path := do
  let source ← Work.absolute o.bundle
  unless ← Work.pathIsTaken source do throw (.bundleMissing o.bundle)
  let parent := o.temporary?.getD (← get).temporary
  let build ← Work.makeFreshDirectory parent "wiki2latex-"
  Work.say .debug .bundle ("Build directory: " ++ build.toText)
  orRemove build (populate source build)
  return build

end WikiTypeset.Workspace
