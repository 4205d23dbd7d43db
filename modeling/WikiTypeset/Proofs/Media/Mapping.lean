import WikiTypeset.Proofs.Media.Contents

/-!
# The map of images names what the entries named

Images that need no converter are renamed one after the other among the names that the others have, or are given. If no
image that is there is listed twice under a name that is not safe, every safe name that is listed is there, and what is
listed and not there is not a name that another image may get, then the map gives every resource a file with the content
that an entry of the resource named before, and leaves out none that was there.
-/

namespace WikiTypeset.Media

open Action Files Progress Workshop

/-! ### How long safe names are -/

theorem utf8ByteSize_ofList {s : List Char} (h : ∀ c ∈ s, c.utf8Size = 1) : (String.ofList s).utf8ByteSize = s.length := by
  induction s with
  | nil => rfl
  | cons c s ih =>
    obtain ⟨hc, hs⟩ := List.forall_mem_cons.1 h
    rw [String.ofList_cons, String.utf8ByteSize_append, String.utf8ByteSize_singleton, hc, ih hs, List.length_cons]
    omega

theorem utf8Size_of_isSafe {c : Char} (h : isSafe c = true ∨ c = '-') : c.utf8Size = 1 := by
  rw [Char.utf8Size_eq_one_iff]
  rcases h with h | rfl
  · simp only [isSafe, Text.isAsciiAlphanumeric, Text.isAsciiLetter, Text.isAsciiDigit, Bool.or_eq_true, Bool.and_eq_true,
      decide_eq_true_eq, beq_iff_eq, Char.le_def, UInt32.le_iff_toNat_le] at h ⊢
    rcases h with (((h | h) | h) | rfl) | rfl
    · exact h.2.trans (by decide)
    · exact h.2.trans (by decide)
    · exact h.2.trans (by decide)
    · decide
    · decide
  · decide

theorem utf8ByteSize_safeForm (name : String) : (safeForm name).utf8ByteSize ≤ safeLength := by
  rw [safeForm, utf8ByteSize_ofList fun c hc => utf8Size_of_isSafe (mem_safeName hc), safeName, List.length_drop]
  omega

/-! ### The images' place -/

/-- The images' place of a build directory. -/
def imagesPlace (build : Path) (w : Workshop) : List String := (Workspace.imagesIn build).resolve w.here

/-- What has a name among the images. -/
def imageEntry (build : Path) (w : Workshop) (name : String) : Option Entry := w.tree.entry (imagesPlace build w ++ [name])

/-- The images' place is there, in a tree as on a disk. -/
structure IsOpen (build : Path) (w : Workshop) : Prop where
  plain : w.IsPlain
  sound : w.tree.IsSound
  located : w.tree.locate w.here (Workspace.imagesIn build) = .ok (imagesPlace build w)
  directory : w.tree.isDirectory (imagesPlace build w) = true

/-- Something among the images has been made or moved. -/
structure Continues (w w' : Workshop) : Prop where
  here : w'.here = w.here
  freshStem : w'.freshStem = w.freshStem
  sound : w'.tree.IsSound
  directories : ∀ q, w'.tree.isDirectory q = w.tree.isDirectory q
  entries : w'.tree.entries.length ≤ w.tree.entries.length + 1
  drawn : w'.drawn ≤ w.drawn + w.tree.entries.length + 1

variable {build : Path} {w w₁ w' : Workshop} {old wanted name : String} {target : Path}

theorem imagesPlace_congr (h : w'.here = w.here) : imagesPlace build w' = imagesPlace build w := by
  unfold imagesPlace
  rw [h]

theorem Continues.refl (h : w.tree.IsSound) : Continues w w where
  here := rfl
  freshStem := rfl
  sound := h
  directories _ := rfl
  entries := Nat.le_succ _
  drawn := by omega

theorem Continues.isOpen (hw : IsOpen build w) (h : Continues w w') : IsOpen build w' where
  plain := ⟨h.here ▸ hw.plain.here, h.freshStem ▸ hw.plain.fresh⟩
  sound := h.sound
  located := by
    rw [h.here, imagesPlace_congr h.here]
    exact Tree.locate_of_directories (fun q hq => (h.directories q).trans hq) hw.located
  directory := by
    rw [h.directories, imagesPlace_congr h.here]
    exact hw.directory

namespace IsOpen

theorem locate_child (h : IsOpen build w) (hname : Path.IsFileName name) (hshort : name.utf8ByteSize ≤ 255) :
    w.tree.locate w.here ((Workspace.imagesIn build).child name) = .ok (imagesPlace build w ++ [name]) :=
  Tree.locate_child hname h.located h.directory hshort

theorem short_of_entry (h : IsOpen build w) {e : Entry} (he : imageEntry build w name = some e) :
    name.utf8ByteSize ≤ 255 :=
  h.sound.name_short (Option.isSome_iff_exists.2 ⟨e, he⟩) (List.mem_append_right _ (List.mem_singleton_self name))

theorem entryAt?_child (h : IsOpen build w) (hname : Path.IsFileName name) :
    w.entryAt? ((Workspace.imagesIn build).child name) = imageEntry build w name := by
  unfold Workshop.entryAt?
  cases hlocate : w.tree.locate w.here ((Workspace.imagesIn build).child name) with
  | ok place =>
    rw [Tree.eq_of_locate hlocate, hname.resolve_child]
    rfl
  | error fault =>
    cases hentry : imageEntry build w name with
    | none => rfl
    | some e =>
      rw [h.locate_child hname (h.short_of_entry hentry)] at hlocate
      cases hlocate

end IsOpen

/-! ### Renaming one image -/

/-- A name that an image may be given for a wanted one. -/
def Given (wanted stem name : String) : Prop := name = wanted ∨ ∃ n, name = Work.freshName "" wanted stem n

theorem Given.isFileName {stem : String} (h : Given wanted stem name) (hwanted : Path.IsFileName wanted)
    (hstem : '/' ∉ stem.toList) : Path.IsFileName name := by
  rcases h with rfl | ⟨n, rfl⟩
  · exact hwanted
  · exact Work.isFileName_freshName (by decide) hstem hwanted.plain n

/-- Every name that can be drawn next for a wanted one is short enough. -/
def HasRoom (w : Workshop) (wanted : String) : Prop :=
  wanted.utf8ByteSize ≤ 255 ∧ ∀ n, Work.IsNext w n → (Work.freshName "" wanted w.freshStem n).utf8ByteSize ≤ 255

/-- A name has been found that nothing had, and nothing but an empty file has been made under it. -/
structure Finds (build : Path) (wanted : String) (w : Workshop) (target : Path) (name : String) (w₁ : Workshop) : Prop
    extends Continues w w₁ where
  given : Given wanted w.freshStem name
  free : imageEntry build w name = none
  others : ∀ x, x ≠ name → imageEntry build w₁ x = imageEntry build w x
  located : w₁.tree.locate w₁.here target = .ok (imagesPlace build w ++ [name])
  fault : w₁.tree.fault? (imagesPlace build w ++ [name]) = none

theorem Found.finds (h : IsOpen build w) (hwanted : Path.IsFileName wanted) (hroom : HasRoom w wanted)
    (hfound : Found (Workspace.imagesIn build) wanted w target name w₁) : Finds build wanted w target name w₁ := by
  cases hfound with
  | free hfree =>
    exact {
      toContinues := .refl h.sound
      given := .inl rfl
      free := h.entryAt?_child hwanted ▸ hfree
      others := fun _ _ => rfl
      located := h.locate_child hwanted hroom.1
      fault := h.sound.fault?_child h.directory hroom.1 }
  | @fresh n hnext hfree hfault =>
    have hname : Path.IsFileName (Work.freshName "" wanted w.freshStem n) :=
      Work.isFileName_freshName (by decide) h.plain.fresh hwanted.plain n
    have hfree : w.tree.entry (imagesPlace build w ++ [Work.freshName "" wanted w.freshStem n]) = none := hfree
    have hmakes : w.tree.Makes (imagesPlace build w ++ [Work.freshName "" wanted w.freshStem n]) (.file (.text ""))
        (w.tree.put (imagesPlace build w ++ [Work.freshName "" wanted w.freshStem n]) (.file (.text ""))) :=
      ⟨rfl, by simp, by rw [Tree.isDirectory, hfree], fun _ hn => Tree.isDirectory_of_fault? hfault hn⟩
    have hsound := h.sound.put (e := .file (.text "")) (by simp) hfree hfault
    have hplace := hmakes.isDirectory h.directory
    exact {
      here := rfl
      freshStem := rfl
      sound := hsound
      directories := fun _ => hmakes.isDirectory_eq
      entries := by
        show (w.tree.put (imagesPlace build w ++ _) _).entries.length ≤ _
        rw [Tree.put_of_free (by simp) hfree, List.length_append]
        exact Nat.le_refl _
      drawn := hnext.upper
      given := .inr ⟨n, rfl⟩
      free := hfree
      others := fun x hx => hmakes.entry_of_ne (show imagesPlace build w ++ [x] ≠ _ by simpa using hx)
      located := hsound.locate_in hplace (Path.not_mem_resolve h.plain.here) hname (hroom.2 n hnext)
      fault := hsound.fault?_child hplace (hroom.2 n hnext) }

/-- The image has got a name that nothing had, and no other name among the images means anything else than before. -/
structure Gives (build : Path) (old wanted : String) (w : Workshop) (name : String) (w' : Workshop) : Prop
    extends Continues w w' where
  given : Given wanted w.freshStem name
  free : imageEntry build w name = none
  moved : ∃ c, imageEntry build w old = some (.file c) ∧ imageEntry build w' name = some (.file c)
  others : ∀ x, x ≠ name → x ≠ old → imageEntry build w' x = imageEntry build w x

/-- There is no such image, and at most an empty file has been made. -/
structure Misses (build : Path) (old wanted : String) (w w' : Workshop) : Prop extends Continues w w' where
  missing : imageEntry build w old = none
  others : ∀ x, imageEntry build w' x = imageEntry build w x ∨
    imageEntry build w x = none ∧ Given wanted w.freshStem x

theorem not_prefix_of_ne {root : List String} {x y : String} (h : x ≠ y) : ¬ root ++ [y] <+: root ++ [x] := by
  intro hprefix
  have heq := hprefix.eq_of_length (by simp)
  exact h (by simpa using heq.symm)

namespace Finds

theorem not_directory (h : Finds build wanted w target name w₁) :
    w₁.tree.isDirectory (imagesPlace build w ++ [name]) = false := by
  rw [h.directories, Tree.isDirectory, show w.tree.entry _ = none from h.free]

theorem entry_other (h : Finds build wanted w target name w₁) (hne : old ≠ name) :
    w₁.tree.entry (imagesPlace build w ++ [old]) = imageEntry build w old := by
  rw [← h.others old hne, imageEntry, imagesPlace_congr h.here]

/-- What is moved to the name that has been found has been given it. -/
theorem gives (h : Finds build wanted w target name w₁) (hne : old ≠ name)
    (hfile : imageEntry build w old ≠ some .directory) {t' : Tree}
    (hmoved : w₁.tree.move (imagesPlace build w ++ [old]) (imagesPlace build w ++ [name]) = .ok t') :
    Gives build old wanted w name { w₁ with tree := t' } := by
  have hentry := h.entry_other hne
  obtain ⟨⟨e, he⟩, -⟩ := Tree.eq_of_move hmoved
  rw [he] at hentry
  have hnofile : w₁.tree.isDirectory (imagesPlace build w ++ [old]) = false := by
    rw [Bool.eq_false_iff]
    intro hdirectory
    rw [Tree.isDirectory_iff, he] at hdirectory
    exact hfile (hentry.symm.trans hdirectory)
  have hrelocates : w₁.tree.Relocates (imagesPlace build w ++ [old]) (imagesPlace build w ++ [name]) t' := {
    sound := h.sound
    moves := hmoved
    other := by simpa using hne
    free := h.not_directory }
  cases e with
  | directory => exact absurd hentry.symm hfile
  | file c =>
    have hplace : imagesPlace build { w₁ with tree := t' } = imagesPlace build w := imagesPlace_congr h.here
    exact {
      here := h.here
      freshStem := h.freshStem
      sound := hrelocates.isSound
      directories := fun q => (hrelocates.isDirectory_eq hnofile).trans (h.directories q)
      entries := hrelocates.entries_length.trans h.entries
      drawn := h.drawn
      given := h.given
      free := h.free
      moved := by
        have htarget := hrelocates.entry_target []
        rw [List.append_nil, List.append_nil, he] at htarget
        exact ⟨c, hentry.symm, by rw [imageEntry, hplace, htarget]⟩
      others := fun x hname hx => by
        rw [← h.entry_other hname, imageEntry, hplace]
        exact hrelocates.entry_elsewhere (not_prefix_of_ne hx) (not_prefix_of_ne hname) }

/-- A file that is there can be moved to the name that has been found. -/
theorem exists_move (h : Finds build wanted w target name w₁) {c : Content}
    (hbefore : imageEntry build w old = some (.file c)) :
    ∃ t', w₁.tree.move (imagesPlace build w ++ [old]) (imagesPlace build w ++ [name]) = .ok t' := by
  have hne : old ≠ name := by
    rintro rfl
    exact nomatch hbefore.symm.trans h.free
  exact Tree.exists_move_of_file ((h.entry_other hne).trans hbefore) h.fault h.not_directory fun hprefix =>
    absurd hprefix (not_prefix_of_ne hne.symm)

/-- Where there is no image to be moved, nothing but the name has come of it. -/
theorem misses (h : Finds build wanted w target name w₁) (hmissing : imageEntry build w old = none) :
    Misses build old wanted w w₁ := by
  refine { toContinues := h.toContinues, missing := hmissing, others := fun x => ?_ }
  by_cases hx : x = name
  · exact .inr (hx ▸ ⟨h.free, h.given⟩)
  · exact .inl (h.others x hx)

end Finds

/-- An image that is there gets a name; one that is not there, under a name that it may not be given, gets none. -/
theorem renameFile_gives (h : IsOpen build w) (hold : Path.IsFileName old) (hwanted : Path.IsFileName wanted)
    (hroom : HasRoom w wanted) (hfile : imageEntry build w old ≠ some .directory)
    (hunclaimed : imageEntry build w old = none → ¬ Given wanted w.freshStem old) :
    Leaves (renameFile (Workspace.imagesIn build) old wanted) w (fun name w' => Gives build old wanted w name w')
      fun e w' => e.isConverterFault = true ∧ Misses build old wanted w w' := by
  refine (renameFile_leaves hwanted h.plain h.sound).imp (fun name w' hrenamed => ?_) fun e w' hnot => ?_
  · obtain ⟨hfound, -, htarget, hmoved⟩ := hrenamed
    rename_i target w₁ t'
    have hfinds := hfound.finds h hwanted hroom
    have hsource : ((Workspace.imagesIn build).child old).resolve w₁.here = imagesPlace build w ++ [old] := by
      rw [hold.resolve_child, hfinds.here]
      rfl
    rw [hsource, ← Except.ok.inj (hfinds.located.symm.trans htarget)] at hmoved
    refine hfinds.gives ?_ hfile hmoved
    rintro rfl
    exact hunclaimed hfinds.free hfinds.given
  · obtain ⟨hfault, hnot⟩ := hnot
    refine ⟨hfault, ?_⟩
    cases hnot with
    | unknown hnowhere => exact absurd (h.locate_child hwanted hroom.1) (hnowhere _)
    | unnamed hnext hlong => exact absurd (hlong h.directory) (Nat.not_lt.2 (hroom.2 _ hnext))
    | @unmoved target name _ hfound hnot =>
      have hfinds := hfound.finds h hwanted hroom
      cases hbefore : imageEntry build w old with
      | none => exact hfinds.misses hbefore
      | some e =>
        cases e with
        | directory => exact absurd hbefore hfile
        | file c =>
          obtain ⟨t', hmove⟩ := hfinds.exists_move hbefore
          have hlocate := (hfinds.isOpen h).locate_child hold (h.short_of_entry hbefore)
          rw [imagesPlace_congr hfinds.here] at hlocate
          exact absurd hmove (hnot _ _ t' hlocate hfinds.located)

/-! ### Preparing one image that needs no converter -/

/-- The file that an entry names, if it names one by a text. -/
def Listed.file (image : Listed) : String :=
  match image.name with
  | .text s => s
  | _ => ""

/-- Images of the type are included as they are. -/
def isIncluded : Json → Bool
  | .text type =>
    type != "image/gif" && !type.startsWith "image/svg" && type != "image/jpeg" && type != "application/pdf"
  | v => !v.isTruthy

/-- The entry names a file among the images by a text, under a key that can stand in the map, and the image needs no
converter. -/
structure Listed.IsPlain (image : Listed) : Prop where
  name : image.name = .text image.file
  file : Path.IsFileName image.file
  key : (∀ items, image.key ≠ .list items) ∧ ∀ fields, image.key ≠ .object fields
  included : isIncluded ((image.info.field? "mime").getD .null) = true

/-- What comes of preparing an image. -/
inductive Comes (build : Path) (file : String) (w : Workshop) : Except Failure String → Workshop → Prop
  | kept (safe : safeForm file = file) : Comes build file w (.ok file) w
  | given {name : String} {w' : Workshop} (unsafeName : safeForm file ≠ file)
      (gives : Gives build file (safeForm file) w name w') : Comes build file w (.ok name) w'
  | missed {e : Failure} {w' : Workshop} (unsafeName : safeForm file ≠ file) (fault : e.isConverterFault = true)
      (misses : Misses build file (safeForm file) w w') : Comes build file w (.error e) w'

/-- An image that is included as it is keeps its name. -/
theorem convertAs_of_isIncluded {mime : Json} (h : isIncluded mime = true) (directory : Path) (keepMetadata : Bool)
    (name : String) : convertAs directory keepMetadata mime name = pure name := by
  cases mime with
  | text type =>
    simp only [isIncluded, Bool.and_eq_true, bne_iff_ne, Bool.not_eq_true'] at h
    obtain ⟨⟨⟨hgif, hsvg⟩, hjpeg⟩, hpdf⟩ := h
    simp [convertAs, hgif, hsvg, hjpeg, hpdf]
  | _ =>
    simp only [isIncluded, Bool.not_eq_true'] at h
    simp [convertAs, h]

theorem prepareImage_comes {file : String} {mime : Json} (h : IsOpen build w) (hfile : Path.IsFileName file)
    (hroom : HasRoom w (safeForm file)) (hnodirectory : imageEntry build w file ≠ some .directory)
    (hunclaimed : safeForm file ≠ file → imageEntry build w file = none → ¬ Given (safeForm file) w.freshStem file)
    (hmime : isIncluded mime = true) (keepMetadata : Bool) :
    Leaves (prepareImage (Workspace.imagesIn build) keepMetadata (.text file) mime) w
      (fun name w' => Comes build file w (.ok name) w') fun e w' => Comes build file w (.error e) w' := by
  rw [prepareImage_text]
  split
  · rename_i hsafe
    rw [convertAs_of_isIncluded hmime]
    exact Leaves.of_pure (.kept hsafe)
  · rename_i hunsafe
    have hwanted : Path.IsFileName (safeForm file) := isFileName_safeForm hfile.ne_empty
    refine ((renameFile_gives h hfile hwanted hroom hnodirectory (hunclaimed hunsafe)).imp (fun _ _ h => h) fun _ _ h =>
      .missed hunsafe h.1 h.2).bind fun name _ h => ?_
    rw [convertAs_of_isIncluded hmime]
    exact Leaves.of_pure (.given hunsafe h)

/-! ### Preparing images one after the other -/

/-- The images do not get into each other's way: a safe name that is listed is that of a file; an image that is there is
listed once under a name that is not safe; and an image that is not there is not listed under a name that is made from the
safe form of another one. -/
structure AreApart (build : Path) (w : Workshop) (images : List Listed) : Prop where
  files : ∀ image ∈ images, imageEntry build w image.file ≠ some .directory
  present : ∀ image ∈ images, safeForm image.file = image.file → ∃ c, imageEntry build w image.file = some (.file c)
  once : images.Pairwise fun a b => a.file = b.file → safeForm a.file = a.file ∨ imageEntry build w a.file = none
  unclaimed : ∀ image ∈ images, imageEntry build w image.file = none → ∀ other ∈ images, safeForm other.file ≠ other.file →
    ¬ Given (safeForm other.file) w.freshStem image.file

/-- An image that has been prepared and was there has a file with its content, under a name that none is listed under that
is still to be renamed; otherwise the preparation has failed. -/
inductive Settled (build : Path) (w₀ : Workshop) (rest : List Listed) (w : Workshop) :
    Listed × Except Failure String → Prop
  | given {image : Listed} {name : String} {c : Content} (before : imageEntry build w₀ image.file = some (.file c))
      (now : imageEntry build w name = some (.file c)) (isName : Path.IsFileName name)
      (apart : ∀ other ∈ rest, safeForm other.file ≠ other.file → other.file ≠ name) :
      Settled build w₀ rest w (image, .ok name)
  | missed {image : Listed} {e : Failure} (before : imageEntry build w₀ image.file = none)
      (fault : e.isConverterFault = true) : Settled build w₀ rest w (image, .error e)

namespace Settled

variable {w₀ : Workshop} {rest : List Listed} {x : Listed × Except Failure String}

theorem fault (h : Settled build w₀ rest w x) {e : Failure} (he : x.2 = .error e) : e.isConverterFault = true := by
  cases h with
  | given _ _ _ _ => cases he
  | missed _ hfault =>
    cases he
    exact hfault

theorem holds (h : Settled build w₀ rest w x) {file : String} (hfile : x.2 = .ok file) :
    Path.IsFileName file ∧
      ∃ c, imageEntry build w₀ x.1.file = some (.file c) ∧ imageEntry build w file = some (.file c) := by
  cases h with
  | given before now isName _ =>
    cases hfile
    exact ⟨isName, _, before, now⟩
  | missed _ _ => cases hfile

theorem exists_file (h : Settled build w₀ rest w x) (hthere : imageEntry build w₀ x.1.file ≠ none) :
    ∃ file, x.2 = .ok file := by
  cases h with
  | given _ _ _ _ => exact ⟨_, rfl⟩
  | missed before _ => exact absurd before hthere

end Settled

/-- How far the images have been prepared: those that are done are settled, and those that are not are as they were. -/
structure Prepared (build : Path) (w₀ : Workshop) (total : Nat) (done : List (Listed × Except Failure String))
    (rest : List Listed) (w : Workshop) : Prop where
  isOpen : IsOpen build w
  here : w.here = w₀.here
  freshStem : w.freshStem = w₀.freshStem
  entries : w.tree.entries.length ≤ w₀.tree.entries.length + done.length
  drawn : w.drawn ≤ w₀.drawn + done.length * (w₀.tree.entries.length + total + 1)
  ahead : ∀ image ∈ rest, imageEntry build w image.file = imageEntry build w₀ image.file
  settled : ∀ x ∈ done, Settled build w₀ rest w x

section Prepared

variable {w₀ : Workshop} {total : Nat} {done : List (Listed × Except Failure String)} {rest images : List Listed}
  {image : Listed} {result : Except Failure String}

/-- What is settled stays so through what leaves its file alone. -/
theorem Settled.next {x : Listed × Except Failure String} (h : Settled build w₀ (image :: rest) w x)
    (hkept : ∀ name c, imageEntry build w name = some (.file c) →
      (safeForm image.file ≠ image.file → image.file ≠ name) → imageEntry build w' name = some (.file c)) :
    Settled build w₀ rest w' x := by
  cases h with
  | given before now isName apart =>
    refine .given before (hkept _ _ now fun hunsafe => ?_) isName fun other hother => ?_
    · exact apart image List.mem_cons_self hunsafe
    · exact apart other (List.mem_cons_of_mem _ hother)
  | missed before fault => exact .missed before fault

/-- Work on the next image leaves the files alone that have been given. -/
theorem Comes.keeps (h : Comes build image.file w result w') {c : Content}
    (hbefore : imageEntry build w name = some (.file c)) (hname : safeForm image.file ≠ image.file → image.file ≠ name) :
    imageEntry build w' name = some (.file c) := by
  cases h with
  | kept _ => exact hbefore
  | given hunsafe hgives =>
    have hne : name ≠ _ := fun heq => nomatch (heq ▸ hbefore).symm.trans hgives.free
    rw [hgives.others name hne (hname hunsafe).symm, hbefore]
  | missed hunsafe _ hmisses =>
    rcases hmisses.others name with heq | ⟨hnone, -⟩
    · rw [heq, hbefore]
    · exact nomatch hbefore.symm.trans hnone

theorem Comes.ahead (h : Comes build image.file w result w') (hprepared : Prepared build w₀ total done (image :: rest) w)
    (hapart : AreApart build w₀ images) (hlisted : ∀ x ∈ image :: rest, x ∈ images)
    (honce : ∀ other ∈ rest, image.file = other.file →
      safeForm image.file = image.file ∨ imageEntry build w₀ image.file = none) {other : Listed} (hother : other ∈ rest) :
    imageEntry build w' other.file = imageEntry build w₀ other.file := by
  have himage := hprepared.ahead image List.mem_cons_self
  have hbefore := hprepared.ahead other (List.mem_cons_of_mem _ hother)
  have hunclaimed : imageEntry build w other.file = none → safeForm image.file ≠ image.file →
      ¬ Given (safeForm image.file) w.freshStem other.file := fun hnone hunsafe =>
    hprepared.freshStem ▸ hapart.unclaimed other (hlisted other (List.mem_cons_of_mem _ hother)) (hbefore ▸ hnone) image
      (hlisted image List.mem_cons_self) hunsafe
  cases h with
  | kept _ => exact hbefore
  | given hunsafe hgives =>
    rw [hgives.others, hbefore]
    · intro heq
      exact hunclaimed (heq ▸ hgives.free) hunsafe (heq ▸ hgives.given)
    · intro heq
      obtain ⟨c, hc, -⟩ := hgives.moved
      rcases honce other hother heq.symm with hsafe | hnone
      · exact hunsafe hsafe
      · exact nomatch hc.symm.trans (himage.trans hnone)
  | missed hunsafe _ hmisses =>
    rcases hmisses.others other.file with heq | ⟨hnone, hgiven⟩
    · rw [heq, hbefore]
    · exact absurd hgiven (hunclaimed hnone hunsafe)

theorem Comes.continues (h : Comes build image.file w result w') (hw : IsOpen build w) : Continues w w' := by
  cases h with
  | kept _ => exact .refl hw.sound
  | given _ hgives => exact hgives.toContinues
  | missed _ _ hmisses => exact hmisses.toContinues

/-- The next image is settled by what comes of it. -/
theorem Comes.settled (h : Comes build image.file w result w') (hprepared : Prepared build w₀ total done (image :: rest) w)
    (hapart : AreApart build w₀ images) (hlisted : ∀ x ∈ image :: rest, x ∈ images)
    (hfile : Path.IsFileName image.file) : Settled build w₀ rest w' (image, result) := by
  have himage := hprepared.ahead image List.mem_cons_self
  cases h with
  | kept hsafe =>
    obtain ⟨c, hc⟩ := hapart.present image (hlisted image List.mem_cons_self) hsafe
    refine .given hc (himage.trans hc) hfile fun other _ hunsafe heq => hunsafe ?_
    rw [heq, hsafe]
  | given hunsafe hgives =>
    obtain ⟨c, hc, hnow⟩ := hgives.moved
    have hname := hgives.given.isFileName (isFileName_safeForm hfile.ne_empty) hprepared.isOpen.plain.fresh
    refine .given (himage ▸ hc) hnow hname fun other hother _ heq => ?_
    have hother := List.mem_cons_of_mem image hother
    refine hapart.unclaimed other (hlisted other hother) ?_ image (hlisted image List.mem_cons_self) hunsafe ?_
    · rw [← hprepared.ahead other hother, heq, hgives.free]
    · rw [heq, ← hprepared.freshStem]
      exact hgives.given
  | missed _ hfault hmisses => exact .missed (himage ▸ hmisses.missing) hfault

/-- One more image has been prepared. -/
theorem Prepared.next (h : Prepared build w₀ total done (image :: rest) w) (hapart : AreApart build w₀ images)
    (hlisted : ∀ x ∈ image :: rest, x ∈ images)
    (honce : ∀ other ∈ rest, image.file = other.file →
      safeForm image.file = image.file ∨ imageEntry build w₀ image.file = none)
    (hcount : done.length < total) (hfile : Path.IsFileName image.file) (hcomes : Comes build image.file w result w') :
    Prepared build w₀ total (done ++ [(image, result)]) rest w' := by
  have hcontinues := hcomes.continues h.isOpen
  have hentries := h.entries
  have hdrawn := h.drawn
  have hmore := hcontinues.entries
  have hdrew := hcontinues.drawn
  exact {
    isOpen := hcontinues.isOpen h.isOpen
    here := hcontinues.here.trans h.here
    freshStem := hcontinues.freshStem.trans h.freshStem
    entries := by
      rw [List.length_append, List.length_singleton]
      omega
    drawn := by
      rw [List.length_append, List.length_singleton, Nat.succ_mul]
      omega
    ahead := fun _ hother => hcomes.ahead h hapart hlisted honce hother
    settled := fun x hx => by
      rcases List.mem_append.1 hx with hx | hx
      · exact (h.settled x hx).next fun name c hbefore hname => hcomes.keeps hbefore hname
      · exact List.mem_singleton.1 hx ▸ hcomes.settled h hapart hlisted hfile }

/-- The largest number of a fresh word that is drawn for so many images. -/
def lastDraw (w : Workshop) (count : Nat) : Nat := w.drawn + count * (w.tree.entries.length + count + 1)

/-- A fresh word leaves room for a safe name behind it. -/
def LeavesRoom (word : String) : Prop := word.utf8ByteSize + safeLength ≤ 255

theorem Prepared.hasRoom (h : Prepared build w₀ total done (image :: rest) w)
    (hroom : ∀ n ≤ lastDraw w₀ total, LeavesRoom (Work.freshWord w₀.freshStem n)) (hcount : done.length < total)
    (file : String) : HasRoom w (safeForm file) := by
  have hsafe := utf8ByteSize_safeForm file
  refine ⟨hsafe.trans (by decide), fun n hn => ?_⟩
  have hentries := h.entries
  have hdrawn := h.drawn
  have hupper := hn.upper
  have hsteps := Nat.mul_le_mul_right (w₀.tree.entries.length + total + 1) (Nat.succ_le_of_lt hcount)
  rw [Nat.succ_mul] at hsteps
  have hword := hroom n (by unfold lastDraw; omega)
  rw [LeavesRoom, ← h.freshStem] at hword
  rw [Work.freshName, String.utf8ByteSize_append, String.empty_append]
  omega

theorem attemptListed_comes (h : Prepared build w₀ total done (image :: rest) w) (hplain : image.IsPlain)
    (hapart : AreApart build w₀ images) (himage : image ∈ images)
    (hroom : ∀ n ≤ lastDraw w₀ total, LeavesRoom (Work.freshWord w₀.freshStem n)) (hcount : done.length < total)
    (keepMetadata : Bool) {F : Failure → Workshop → Prop} :
    Leaves (attemptListed (Workspace.imagesIn build) keepMetadata image) w
      (fun result w' => Comes build image.file w result w') F := by
  have hahead := h.ahead image List.mem_cons_self
  have hprepare := prepareImage_comes h.isOpen hplain.file (h.hasRoom hroom hcount _)
    (hahead ▸ hapart.files image himage)
    (fun hunsafe hnone => h.freshStem ▸ hapart.unclaimed image himage (hahead ▸ hnone) image himage hunsafe)
    hplain.included keepMetadata
  rw [← hplain.name] at hprepare
  refine hprepare.attempt.imp_left fun result w' hresult => ?_
  cases result with
  | ok name => exact hresult.1 name rfl
  | error e => exact hresult.2 e rfl

/-- Prepared one after the other, all images are settled in the end. -/
theorem mapM_prepared (hplain : ∀ image ∈ images, image.IsPlain) (hapart : AreApart build w₀ images)
    (hroom : ∀ n ≤ lastDraw w₀ images.length, LeavesRoom (Work.freshWord w₀.freshStem n)) (keepMetadata : Bool)
    (h : Prepared build w₀ images.length done rest w) (hlisted : ∀ x ∈ rest, x ∈ images)
    (honce : rest.Pairwise fun a b => a.file = b.file → safeForm a.file = a.file ∨ imageEntry build w₀ a.file = none)
    (hcount : done.length + rest.length = images.length) {F : Failure → Workshop → Prop} :
    Leaves (rest.mapM fun image =>
        return (image, ← attemptListed (Workspace.imagesIn build) keepMetadata image)) w
      (fun results w' => results.map (·.1) = rest ∧ Prepared build w₀ images.length (done ++ results) [] w') F := by
  induction rest generalizing done w with
  | nil => exact Leaves.of_pure ⟨rfl, by simpa using h⟩
  | cons image rest ih =>
    rw [List.length_cons] at hcount
    obtain ⟨honceHere, honceLater⟩ := List.pairwise_cons.1 honce
    have hhere := hlisted image List.mem_cons_self
    rw [List.mapM_cons]
    have hattempt := attemptListed_comes h (hplain image hhere) hapart hhere hroom (by omega) keepMetadata (F := F)
    refine (hattempt.bind fun result w₁ h₁ => Leaves.of_pure (P := fun x w' => x.1 = image ∧
      Prepared build w₀ images.length (done ++ [x]) rest w') ⟨rfl, ?_⟩).bind fun x w₁ h₁ => ?_
    · exact h.next hapart hlisted honceHere (by omega) (hplain image hhere).file h₁
    · obtain ⟨hx, hprepared⟩ := h₁
      have hrest := ih hprepared (fun y hy => hlisted y (List.mem_cons_of_mem _ hy)) honceLater
        (by rw [List.length_append, List.length_singleton]; omega)
      refine hrest.bind fun results w₂ h₂ => Leaves.of_pure ⟨?_, ?_⟩
      · rw [List.map_cons, hx, h₂.1]
      · rw [List.append_cons]
        exact h₂.2

end Prepared

/-! ### The map -/

/-- A key of the map is that of an entry. -/
def Names (key : Json) (image : Listed) : Prop := key = image.key ∨ key.same image.key = true

theorem mem_put {m : ImageMap} {key : Json} {file : String} {x : Json × String} (h : x ∈ m.put key file) :
    x ∈ m ∨ x.2 = file ∧ (x.1 = key ∨ x.1.same key = true) := by
  unfold ImageMap.put at h
  split at h
  · obtain ⟨⟨k, f⟩, hmem, rfl⟩ := List.mem_map.1 h
    dsimp only
    split
    · rename_i hsame
      exact .inr ⟨rfl, .inr hsame⟩
    · exact .inl hmem
  · rcases List.mem_append.1 h with h | h
    · exact .inl h
    · obtain rfl := List.mem_singleton.1 h
      exact .inr ⟨rfl, .inl rfl⟩

theorem exists_put (m : ImageMap) (key : Json) (file : String) :
    ∃ k, (k, file) ∈ m.put key file ∧ (k = key ∨ k.same key = true) := by
  unfold ImageMap.put
  split
  · rename_i hany
    obtain ⟨⟨k, f⟩, hmem, hsame⟩ := List.any_eq_true.1 hany
    have hsame : k.same key = true := hsame
    exact ⟨k, List.mem_map.2 ⟨(k, f), hmem, by simp [hsame]⟩, .inr hsame⟩
  · exact ⟨key, List.mem_append_right _ (List.mem_singleton_self _), .inl rfl⟩

theorem key_put {m : ImageMap} {k : Json} {f : String} (h : (k, f) ∈ m) (key : Json) (file : String) :
    ∃ f', (k, f') ∈ m.put key file := by
  unfold ImageMap.put
  split
  · by_cases hsame : k.same key = true
    · exact ⟨file, List.mem_map.2 ⟨(k, f), h, by simp [hsame]⟩⟩
    · exact ⟨f, List.mem_map.2 ⟨(k, f), h, by simp [hsame]⟩⟩
  · exact ⟨f, List.mem_append_left _ h⟩

/-- The work has only told something. -/
def OnlyTells (w w' : Workshop) : Prop := w' = { w with told := w'.told }

theorem OnlyTells.trans {w₂ : Workshop} (h : OnlyTells w w₁) (h₁ : OnlyTells w₁ w₂) : OnlyTells w w₂ := by
  unfold OnlyTells at *
  rw [h₁, h]

theorem OnlyTells.imageEntry (h : OnlyTells w w') : imageEntry build w' name = imageEntry build w name := by
  rw [h]
  rfl

theorem say_onlyTells (level : LogLevel) (source : LogSource) (text : String) (w : Workshop)
    {F : Failure → Workshop → Prop} : Leaves (Work.say level source text) w (fun _ w' => OnlyTells w w') F :=
  Leaves.of_modify rfl

theorem report_onlyTells (r : Report) (w : Workshop) {F : Failure → Workshop → Prop} :
    Leaves (Work.report r) w (fun _ w' => OnlyTells w w') F := by
  refine Leaves.get_bind ?_
  split
  · exact Leaves.of_modify rfl
  · exact Leaves.of_pure rfl

theorem forM_report_onlyTells {γ : Type} (r : γ → Report) (xs : List γ) (w : Workshop) {F : Failure → Workshop → Prop} :
    Leaves (xs.forM fun x => Work.report (r x)) w (fun _ w' => OnlyTells w w') F := by
  induction xs generalizing w with
  | nil => exact Leaves.of_pure rfl
  | cons x xs ih =>
    have hx : Leaves (Work.report (r x)) w (fun _ w' => OnlyTells w w') F := report_onlyTells (r x) w
    exact hx.bind fun _ w₁ h₁ => (ih w₁).imp_left fun _ _ h₂ => h₁.trans h₂

/-- An image whose preparation has failed as conversions may is left out of the map; another one is entered. -/
theorem enter_enters {m : ImageMap} {image : Listed} {result : Except Failure String} (hplain : image.IsPlain)
    (hfault : ∀ e, result = .error e → e.isConverterFault = true) (w : Workshop) {F : Failure → Workshop → Prop} :
    Leaves (enter m image result) w
      (fun m' w' => OnlyTells w w' ∧ (∀ x ∈ m', x ∈ m ∨ result = .ok x.2 ∧ Names x.1 image) ∧
        (∀ x ∈ m, ∃ file, (x.1, file) ∈ m') ∧ ∀ file, result = .ok file → ∃ x ∈ m', Names x.1 image) F := by
  unfold enter
  cases result with
  | ok file =>
    have hput : Leaves (pure (m.put image.key file) : Work ImageMap) w
        (fun m' w' => OnlyTells w w' ∧ (∀ x ∈ m', x ∈ m ∨ (.ok file : Except Failure String) = .ok x.2 ∧ Names x.1 image) ∧
          (∀ x ∈ m, ∃ file, (x.1, file) ∈ m') ∧
          ∀ name, (.ok file : Except Failure String) = .ok name → ∃ x ∈ m', Names x.1 image) F := by
      refine Leaves.of_pure ⟨rfl, fun x hx => ?_, fun x hx => key_put hx _ _, fun _ _ => ?_⟩
      · exact (mem_put hx).imp_right fun h => ⟨congrArg _ h.1.symm, h.2⟩
      · obtain ⟨k, hmem, hnames⟩ := exists_put m image.key file
        exact ⟨_, hmem, hnames⟩
    dsimp only
    split
    · rename_i items hkey
      exact absurd hkey (hplain.key.1 items)
    · rename_i fields hkey
      exact absurd hkey (hplain.key.2 fields)
    · exact hput
  | error e =>
    dsimp only
    rw [if_neg (by simp [hfault e rfl])]
    refine (say_onlyTells _ _ _ w).bind fun _ w' h => Leaves.of_pure ⟨h, fun x hx => .inl hx, fun x hx => ⟨x.2, hx⟩, nofun⟩

/-- The map holds what has been entered, and nothing else. -/
theorem foldlM_enters {results : List (Listed × Except Failure String)} {m : ImageMap}
    (hplain : ∀ x ∈ results, x.1.IsPlain) (hfault : ∀ x ∈ results, ∀ e, x.2 = .error e → e.isConverterFault = true)
    (w : Workshop) {F : Failure → Workshop → Prop} :
    Leaves (results.foldlM (fun m (image, result) => enter m image result) m) w
      (fun m' w' => OnlyTells w w' ∧ (∀ x ∈ m', x ∈ m ∨ ∃ r ∈ results, r.2 = .ok x.2 ∧ Names x.1 r.1) ∧
        (∀ x ∈ m, ∃ file, (x.1, file) ∈ m') ∧
        ∀ r ∈ results, ∀ file, r.2 = .ok file → ∃ x ∈ m', Names x.1 r.1) F := by
  induction results generalizing m w with
  | nil => exact Leaves.of_pure ⟨rfl, fun x hx => .inl hx, fun x hx => ⟨x.2, hx⟩, by simp⟩
  | cons r results ih =>
    obtain ⟨hplainHere, hplainLater⟩ := List.forall_mem_cons.1 hplain
    obtain ⟨hfaultHere, hfaultLater⟩ := List.forall_mem_cons.1 hfault
    rw [List.foldlM_cons]
    refine (enter_enters hplainHere hfaultHere w).bind fun m₁ w₁ h₁ => (ih hplainLater hfaultLater w₁).imp_left ?_
    rintro m₂ w₂ ⟨htold, hfrom, hkeys, hall⟩
    obtain ⟨htold₁, hfrom₁, hkeys₁, hall₁⟩ := h₁
    refine ⟨htold₁.trans htold, fun x hx => ?_, fun x hx => ?_, fun y hy file hfile => ?_⟩
    · rcases hfrom x hx with hx | ⟨y, hy, hfile⟩
      · exact (hfrom₁ x hx).imp_right fun h => ⟨r, List.mem_cons_self, h⟩
      · exact .inr ⟨y, List.mem_cons_of_mem _ hy, hfile⟩
    · obtain ⟨file, hfile⟩ := hkeys₁ x hx
      exact hkeys (x.1, file) hfile
    · rcases List.mem_cons.1 hy with rfl | hy
      · obtain ⟨x, hx, hnames⟩ := hall₁ file hfile
        obtain ⟨file', hfile'⟩ := hkeys x hx
        exact ⟨_, hfile', hnames⟩
      · exact hall y hy file hfile

/-! ### All images of a bundle -/

theorem exists_of_storeAt? {p : Path} {store : Store} (h : w.storeAt? p = some store) :
    ∃ c, w.entryAt? p = some (.file c) ∧ store = { path := p, rows := Store.rowsOf c } := by
  unfold Workshop.storeAt? at h
  split at h
  · rename_i c hentry
    exact ⟨c, hentry, (Option.some.inj h).symm⟩
  · cases h

theorem located_of_entryAt? {p : Path} {e : Entry} (h : w.entryAt? p = some e) :
    w.tree.locate w.here p = .ok (p.resolve w.here) ∧ w.tree.entry (p.resolve w.here) = some e := by
  unfold Workshop.entryAt? at h
  cases hlocate : w.tree.locate w.here p with
  | ok place =>
    rw [hlocate] at h
    obtain rfl := Tree.eq_of_locate hlocate
    exact ⟨rfl, h⟩
  | error fault =>
    rw [hlocate] at h
    cases h

/-- Preparing the images that the entries of a store list. -/
def prepareEntries (build : Path) (o : ConversionOptions) (entries : List (String × Json)) : Work ImageMap := do
  Work.stage entries.length "Processing media files"
  entries.forM fun (_, info) =>
    let name := (info.field? "filename").getD .null
    Work.report (.step 1 none (if name.isTruthy then name else .text ""))
  let images := entries.filterMap fun (key, info) => listed? key info
  let results ← images.mapM fun image =>
    return (image, ← attemptListed (Workspace.imagesIn build) o.keepMetadata image)
  let m ← results.foldlM (fun m (image, result) => enter m image result) []
  Work.say .info .media ("Prepared " ++ toString m.length ++ " of " ++ toString images.length ++ " images")
  return m

theorem perform_pathIsTaken {p : Path} {e : Entry} (h : w.entryAt? p = some e) :
    (Work.pathIsTaken p).perform w = (.ok true, w) := by
  have hfinds := Work.pathIsTaken_finds p w
  rcases hrun : (Work.pathIsTaken p).perform w with ⟨e | taken, w'⟩
  · exact absurd (located_of_entryAt? h).1 ((hfinds.error hrun).2.2 _)
  · obtain ⟨rfl, rfl⟩ := hfinds.ok hrun
    rw [h]
    rfl

theorem perform_ofPath {p : Path} {store : Store} (h : w.storeAt? p = some store) :
    (Store.ofPath p).perform w = (.ok store, w) := by
  obtain ⟨c, hentry, rfl⟩ := exists_of_storeAt? h
  have hplace := located_of_entryAt? hentry
  unfold Store.ofPath Work.entry?
  rw [perform_bind, perform_bind, perform_get]
  dsimp only
  rw [hplace.1]
  dsimp only
  rw [perform_pure, hplace.2]
  rfl

/-- Preparing the images of a bundle is preparing those that the entries of its store list. -/
theorem perform_prepareImages {build : Path} {o : ConversionOptions} {store : Store} {entries : List (String × Json)}
    (hstore : w.storeAt? ((Workspace.bundleIn build).child storeName) = some store)
    (hentries : store.entries = .ok entries) :
    (prepareImages build o).perform w = (prepareEntries build o entries).perform w := by
  obtain ⟨c, hentry, -⟩ := exists_of_storeAt? hstore
  unfold prepareImages
  dsimp only
  rw [perform_bind, perform_pathIsTaken hentry]
  dsimp only
  rw [if_pos rfl, perform_bind, perform_ofPath hstore]
  dsimp only
  rw [hentries]
  rfl

/-- Before an image has been prepared, all are as they were. -/
theorem Prepared.start {images : List Listed} (hplain : w.IsPlain) (hsound : w.tree.IsSound)
    (himages : w.entryAt? (Workspace.imagesIn build) = some .directory) :
    Prepared build w images.length [] images w where
  isOpen := ⟨hplain, hsound, (located_of_entryAt? himages).1, Tree.isDirectory_iff.2 (located_of_entryAt? himages).2⟩
  here := rfl
  freshStem := rfl
  entries := Nat.le_refl _
  drawn := by simp
  ahead _ _ := rfl
  settled := nofun

/-- Every resource in the map has a file that holds what one of its entries named before, and the key of every entry
whose file was there is in the map. -/
structure PointsToOwn (build : Path) (w : Workshop) (m : ImageMap) (w' : Workshop) : Prop where
  own : ∀ x ∈ m, ∃ image ∈ imagesListed build w, Names x.1 image ∧ Path.IsFileName x.2 ∧
    ∃ c, imageEntry build w image.file = some (.file c) ∧ imageEntry build w' x.2 = some (.file c)
  all : ∀ image ∈ imagesListed build w, imageEntry build w image.file ≠ none → ∃ x ∈ m, Names x.1 image

theorem prepareEntries_maps {o : ConversionOptions} {entries : List (String × Json)}
    (heq : entries.filterMap (fun (key, info) => listed? key info) = imagesListed build w) (hplain : w.IsPlain)
    (hsound : w.tree.IsSound) (himages : w.entryAt? (Workspace.imagesIn build) = some .directory)
    (hlisted : ∀ image ∈ imagesListed build w, image.IsPlain) (hapart : AreApart build w (imagesListed build w))
    (hroom : ∀ n ≤ lastDraw w (imagesListed build w).length, LeavesRoom (Work.freshWord w.freshStem n)) :
    Leaves (prepareEntries build o entries) w (fun m w' => PointsToOwn build w m w') fun _ _ => False := by
  unfold prepareEntries
  refine (report_onlyTells _ _).bind fun _ w₁ h₁ => (forM_report_onlyTells _ _ _).bind fun _ w₂ h₂ => ?_
  obtain ⟨told, rfl⟩ : ∃ told, w₂ = { w with told := told } := ⟨_, h₁.trans h₂⟩
  rw [heq]
  have hapart' : AreApart build { w with told := told } (imagesListed build w) :=
    ⟨hapart.files, hapart.present, hapart.once, hapart.unclaimed⟩
  have hstart : Prepared build { w with told := told } (imagesListed build w).length [] (imagesListed build w)
      { w with told := told } := .start ⟨hplain.here, hplain.fresh⟩ hsound himages
  refine (mapM_prepared hlisted hapart' hroom o.keepMetadata hstart (fun _ h => h) hapart.once (by simp)).bind
    fun results w₃ h₃ => ?_
  obtain ⟨hresults, hprepared⟩ := h₃
  have hfrom : ∀ r ∈ results, r.1 ∈ imagesListed build w := fun r hr => hresults ▸ List.mem_map_of_mem hr
  have hfault : ∀ r ∈ results, ∀ e, r.2 = .error e → e.isConverterFault = true := fun r hr e he =>
    (hprepared.settled r hr).fault he
  refine (foldlM_enters (fun r hr => hlisted r.1 (hfrom r hr)) hfault w₃).bind fun m w₄ h₄ => ?_
  obtain ⟨htold₄, hentered, -, hkeys⟩ := h₄
  refine (say_onlyTells _ _ _ w₄).bind fun _ w₅ h₅ => Leaves.of_pure ⟨fun x hx => ?_, fun image himage hthere => ?_⟩
  · obtain hx | ⟨r, hr, hfile, hnames⟩ := hentered x hx
    · cases hx
    · obtain ⟨hname, c, hbefore, hnow⟩ := (hprepared.settled r hr).holds hfile
      exact ⟨r.1, hfrom r hr, hnames, hname, c, hbefore, (htold₄.trans h₅).imageEntry.trans hnow⟩
  · obtain ⟨r, hr, rfl⟩ := List.mem_map.1 (hresults.symm ▸ himage)
    obtain ⟨file, hfile⟩ := (hprepared.settled r hr).exists_file hthere
    exact hkeys r hr file hfile

/-- Where the images of a bundle do not get into each other's way and need no converter, preparing them gives a map that
points every resource to a file with the content of one that an entry of the resource named before, and that has the key
of every entry whose file was there. -/
theorem prepareImages_maps (build : Path) (o : ConversionOptions) (w : Workshop) (hplain : w.IsPlain)
    (hsound : w.tree.IsSound) (himages : w.entryAt? (Workspace.imagesIn build) = some .directory)
    (hstore : ∃ store entries, w.storeAt? ((Workspace.bundleIn build).child storeName) = some store ∧
      store.entries = .ok entries)
    (hlisted : ∀ image ∈ imagesListed build w, image.IsPlain) (hapart : AreApart build w (imagesListed build w))
    (hroom : ∀ n ≤ lastDraw w (imagesListed build w).length, LeavesRoom (Work.freshWord w.freshStem n)) :
    ∃ m w', (prepareImages build o).perform w = (.ok m, w') ∧ PointsToOwn build w m w' := by
  obtain ⟨store, entries, hstore, hentries⟩ := hstore
  have hmaps := prepareEntries_maps (o := o) (imagesListed_eq hstore hentries) hplain hsound himages hlisted hapart hroom
  rw [perform_prepareImages hstore hentries]
  rcases hrun : (prepareEntries build o entries).perform w with ⟨e | m, w'⟩
  · exact (hmaps.error hrun).elim
  · exact ⟨m, w', rfl, hmaps.ok hrun⟩

/-! ### Two images of which one takes the name of the other -/

/-- An entry of a picture in the store of images. -/
def pictureInfo (file : String) : Json := .object [("filename", .text file), ("mime", .text "image/png")]

/-- The store of two pictures; the safe form of the first name is the second name. -/
def pictureRows : List (String × String) :=
  [("http://a", "\x7b\"filename\":\"a b.png\",\"mime\":\"image/png\"\x7d"),
    ("http://b", "\x7b\"filename\":\"a-b.png\",\"mime\":\"image/png\"\x7d")]

def pictureEntries : List (String × Json) := [("http://a", pictureInfo "a b.png"), ("http://b", pictureInfo "a-b.png")]

/-- What the entries list. -/
def pictures : List Listed :=
  [⟨.text "http://a", pictureInfo "a b.png", .text "a b.png"⟩, ⟨.text "http://b", pictureInfo "a-b.png", .text "a-b.png"⟩]

/-- A workshop with the store of the two pictures, and files. -/
def pictureWorkshop (files : List (List String × Entry)) : Workshop where
  tree := { entries := sampleDirectories ++ files ++ [(["t", "bundle", "imageinfo.db"], .file (.rows pictureRows))] }
  here := []
  temporary := sampleBuild

/-- The file of the first picture. -/
def firstFile : List String × Entry := (["t", "bundle", "images", "a b.png"], .file (.text "A"))

/-- The file of the second picture. -/
def secondFile : List String × Entry := (["t", "bundle", "images", "a-b.png"], .file (.text "B"))

theorem entries_pictureRows (p : Path) : Store.entries { path := p, rows := .ok pictureRows } = .ok pictureEntries := by
  have hsorted : Store.sortedRows { path := p, rows := .ok pictureRows } = .ok pictureRows :=
    congrArg Except.ok (List.mergeSort_of_pairwise (by decide +kernel))
  have hfirst : Json.read? "\x7b\"filename\":\"a b.png\",\"mime\":\"image/png\"\x7d".toList =
      some (pictureInfo "a b.png") := by
    simp only [String.reduceToList]
    rfl
  have hsecond : Json.read? "\x7b\"filename\":\"a-b.png\",\"mime\":\"image/png\"\x7d".toList =
      some (pictureInfo "a-b.png") := by
    simp only [String.reduceToList]
    rfl
  unfold Store.entries Store.readableEntries
  rw [hsorted]
  simp only [pictureRows, Store.valuesOf, Store.readValue, hfirst, hsecond]
  rfl

theorem imagesListed_of_pictureRows {w : Workshop}
    (h : w.storeAt? ((Workspace.bundleIn sampleBuild).child storeName) =
      some { path := (Workspace.bundleIn sampleBuild).child storeName, rows := .ok pictureRows }) :
    imagesListed sampleBuild w = pictures := by
  have hfirst : isAddress "http://a" = true := by decide +kernel
  have hsecond : isAddress "http://b" = true := by decide +kernel
  rw [← imagesListed_eq h (entries_pictureRows _)]
  simp [pictureEntries, pictures, listed?, pictureInfo, Json.field?, Json.isTruthy, hfirst, hsecond]

theorem isPlain_pictures : ∀ image ∈ pictures, image.IsPlain := by
  intro image himage
  rcases List.mem_cons.1 himage with rfl | himage
  · exact ⟨rfl, ⟨⟨by decide, by decide⟩, by decide, by decide⟩, ⟨nofun, nofun⟩, by decide +kernel⟩
  · obtain rfl := List.mem_singleton.1 himage
    exact ⟨rfl, ⟨⟨by decide, by decide⟩, by decide, by decide⟩, ⟨nofun, nofun⟩, by decide +kernel⟩

theorem isSound_pictureWorkshop : (pictureWorkshop [firstFile, secondFile]).tree.IsSound where
  grounded := Tree.isGrounded_of_entries (by decide +kernel)
  nodup := by decide +kernel
  short := by decide +kernel

/-- Where both pictures are there, the first one gets a fresh name, and each resource has its own picture. -/
theorem bothPictures_map :
    ∃ m w', (prepareImages sampleBuild { bundle := ⟨"", []⟩ }).perform (pictureWorkshop [firstFile, secondFile]) =
        (.ok m, w') ∧ m.byText = [("http://a", "rnd1a-b.png"), ("http://b", "a-b.png")] ∧
      PointsToOwn sampleBuild (pictureWorkshop [firstFile, secondFile]) m w' := by
  have hstore : (pictureWorkshop [firstFile, secondFile]).storeAt? ((Workspace.bundleIn sampleBuild).child storeName) =
      some { path := (Workspace.bundleIn sampleBuild).child storeName, rows := .ok pictureRows } := rfl
  have hlisted := imagesListed_of_pictureRows hstore
  have hfirst : imageEntry sampleBuild (pictureWorkshop [firstFile, secondFile]) "a b.png" =
      some (.file (.text "A")) := rfl
  have hsecond : imageEntry sampleBuild (pictureWorkshop [firstFile, secondFile]) "a-b.png" =
      some (.file (.text "B")) := rfl
  have hthere : ∀ image ∈ pictures, ∃ c,
      imageEntry sampleBuild (pictureWorkshop [firstFile, secondFile]) image.file = some (.file c) := by
    intro image himage
    rcases List.mem_cons.1 himage with rfl | himage
    · exact ⟨_, hfirst⟩
    · obtain rfl := List.mem_singleton.1 himage
      exact ⟨_, hsecond⟩
  have hapart : AreApart sampleBuild (pictureWorkshop [firstFile, secondFile]) pictures := {
    files := fun image himage => by
      obtain ⟨c, hc⟩ := hthere image himage
      rw [hc]
      nofun
    present := fun image himage _ => hthere image himage
    once := List.pairwise_pair.2 fun heq => absurd heq (by decide)
    unclaimed := fun image himage hnone => by
      obtain ⟨c, hc⟩ := hthere image himage
      exact nomatch hc.symm.trans hnone }
  have hroom : ∀ n ≤ 18, LeavesRoom (Work.freshWord "rnd" n) := by
    unfold LeavesRoom
    decide +kernel
  have hmap : ((prepareEntries sampleBuild { bundle := ⟨"", []⟩ } pictureEntries).perform
      (pictureWorkshop [firstFile, secondFile])).1.toOption.map (·.byText) =
        some [("http://a", "rnd1a-b.png"), ("http://b", "a-b.png")] := by decide +kernel
  obtain ⟨m, w', hrun, hpoints⟩ := prepareImages_maps sampleBuild { bundle := ⟨"", []⟩ }
    (pictureWorkshop [firstFile, secondFile]) ⟨by decide, by decide⟩ isSound_pictureWorkshop rfl
    ⟨_, _, hstore, entries_pictureRows _⟩ (hlisted ▸ isPlain_pictures) (hlisted ▸ hapart) (hlisted ▸ hroom)
  refine ⟨m, w', hrun, ?_, hpoints⟩
  rw [← perform_prepareImages hstore (entries_pictureRows _), hrun] at hmap
  exact Option.some.inj hmap

theorem mem_of_byText {m : ImageMap} {key file : String} (h : (key, file) ∈ m.byText) : (.text key, file) ∈ m := by
  obtain ⟨⟨k, f⟩, hmem, heq⟩ := List.mem_filterMap.1 h
  cases k with
  | text s =>
    cases heq
    exact hmem
  | _ => cases heq

/-- Where the second picture is not there, the first one gets its name, and both resources have the first picture. -/
theorem onePicture_misleads :
    ∃ m w', (prepareImages sampleBuild { bundle := ⟨"", []⟩ }).perform (pictureWorkshop [firstFile]) = (.ok m, w') ∧
      m.byText = [("http://a", "a-b.png"), ("http://b", "a-b.png")] ∧
      (∀ image ∈ imagesListed sampleBuild (pictureWorkshop [firstFile]), image.IsPlain) ∧
      ¬ PointsToOwn sampleBuild (pictureWorkshop [firstFile]) m w' := by
  have hstore : (pictureWorkshop [firstFile]).storeAt? ((Workspace.bundleIn sampleBuild).child storeName) =
      some { path := (Workspace.bundleIn sampleBuild).child storeName, rows := .ok pictureRows } := rfl
  have hlisted := imagesListed_of_pictureRows hstore
  have hmap : ((prepareEntries sampleBuild { bundle := ⟨"", []⟩ } pictureEntries).perform
      (pictureWorkshop [firstFile])).1.toOption.map (·.byText) =
        some [("http://a", "a-b.png"), ("http://b", "a-b.png")] := by decide +kernel
  have hsecond : imageEntry sampleBuild (pictureWorkshop [firstFile]) "a-b.png" = none := rfl
  rw [perform_prepareImages hstore (entries_pictureRows _)]
  rcases hrun : (prepareEntries sampleBuild { bundle := ⟨"", []⟩ } pictureEntries).perform (pictureWorkshop [firstFile])
    with ⟨e | m, w'⟩
  · rw [hrun] at hmap
    cases hmap
  · rw [hrun] at hmap
    have hbyText : m.byText = [("http://a", "a-b.png"), ("http://b", "a-b.png")] := Option.some.inj hmap
    refine ⟨m, w', rfl, hbyText, hlisted ▸ isPlain_pictures, fun hpoints => ?_⟩
    have hmem : (.text "http://b", "a-b.png") ∈ m := mem_of_byText (by rw [hbyText]; simp)
    obtain ⟨image, himage, hnames, -, c, hbefore, -⟩ := hpoints.own _ hmem
    rw [hlisted] at himage
    rcases List.mem_cons.1 himage with rfl | himage
    · rcases hnames with hkey | hkey
      · exact absurd hkey (by simp)
      · exact absurd hkey (by simp [Json.same])
    · obtain rfl := List.mem_singleton.1 himage
      exact nomatch hbefore.symm.trans hsecond

end WikiTypeset.Media
