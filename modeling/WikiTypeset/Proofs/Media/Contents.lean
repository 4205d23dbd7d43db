import WikiTypeset.Proofs.Conversion.Fresh
import WikiTypeset.Proofs.Media.Preparation

/-!
# Preparing images loses none of them

Where no program succeeds, all that preparing images does to files is to make empty ones where nothing stood, to make
directories, and to move what an entry names to a place that is free or that such an empty file takes. So the files below
the images' place that are not empty hold what they held before, whatever the entries name, and wherever the preparation of
an image breaks off.
-/

namespace WikiTypeset.Media

open Action Files Progress Workshop

/-! ### Safe names are names of files -/

theorem hyphenated_ne_nil {s : List Char} (h : s ≠ []) : hyphenated false s ≠ [] := by
  cases s with
  | nil => exact absurd rfl h
  | cons c s =>
    unfold hyphenated
    split
    · simp
    · simp

theorem getLast?_safeName {name : List Char} (h : name ≠ []) : ∃ c, (safeName name).getLast? = some c ∧ c ≠ '.' := by
  have hfull : ∃ c, (undotted ((hyphenated false name).take
      ((hyphenated false name).length - (extension (hyphenated false name)).length)) ++
        extension (hyphenated false name)).getLast? = some c ∧ c ≠ '.' := by
    rcases extension_cases (hyphenated false name) with hext | ⟨tail, hext, htail⟩
    · have hne : undotted (hyphenated false name) ≠ [] := fun hnil => hyphenated_ne_nil h (List.map_eq_nil_iff.1 hnil)
      rw [hext, List.length_nil, Nat.sub_zero, List.take_length, List.append_nil]
      exact ⟨_, List.getLast?_eq_some_getLast hne, (mem_undotted (List.getLast_mem hne)).1⟩
    · have hne : tail ≠ [] := by
        rintro rfl
        exact extension_ne_dot _ hext
      rw [hext, List.getLast?_append, List.getLast?_cons, List.getLast?_eq_some_getLast hne]
      exact ⟨_, rfl, (htail _ (List.getLast_mem hne)).2⟩
  obtain ⟨c, hc, hdot⟩ := hfull
  refine ⟨c, ?_, hdot⟩
  have hpos := List.length_pos_of_mem (List.mem_of_getLast? hc)
  unfold safeName
  dsimp only
  rw [List.getLast?_drop, if_neg, hc]
  simp only [safeLength]
  omega

theorem isFileName_safeForm {name : String} (h : name ≠ "") : Path.IsFileName (safeForm name) := by
  have hne : name.toList ≠ [] := fun hnil => h (String.toList_eq_nil_iff.1 hnil)
  obtain ⟨c, hc, hdot⟩ := getLast?_safeName hne
  have hplain := (isName_safeForm name).plain
  exact Path.isFileName_of_mem hplain (String.toList_ofList ▸ List.mem_of_getLast? hc) hdot

theorem isFileName_marked {name : String} (h : Path.IsName name) : Path.IsFileName ("X" ++ name) := by
  refine Path.isFileName_of_mem (isName_marked h).plain (c := 'X') ?_ (by decide)
  rw [String.toList_append]
  exact List.mem_append_left _ (by decide)

/-! ### Finding a name for a file -/

/-- A name has been found for a file: the one that is wanted where nothing has it, or that of a fresh file. -/
inductive Found (images : Path) (wanted : String) (w : Workshop) : Path → String → Workshop → Prop
  | free (h : w.entryAt? (images.child wanted) = none) : Found images wanted w (images.child wanted) wanted w
  | fresh {n : Nat} (hnext : Work.IsNext w n)
      (hfree : w.tree.entry (images.resolve w.here ++ [Work.freshName "" wanted w.freshStem n]) = none)
      (hfault : w.tree.fault? (images.resolve w.here ++ [Work.freshName "" wanted w.freshStem n]) = none) :
      Found images wanted w
        (Path.child ⟨"/", images.resolve w.here⟩ (Work.freshName "" wanted w.freshStem n))
        (Work.freshName "" wanted w.freshStem n)
        { w with
          tree := w.tree.put (images.resolve w.here ++ [Work.freshName "" wanted w.freshStem n]) (.file (.text ""))
          drawn := n }

/-- What has an old name has been moved to where a found name leads. -/
inductive Renamed (images : Path) (old wanted : String) (w : Workshop) : String → Workshop → Prop
  | intro {target : Path} {name : String} {w₁ : Workshop} {t' : Tree} (found : Found images wanted w target name w₁)
      (source : w₁.tree.locate w₁.here (images.child old) = .ok ((images.child old).resolve w₁.here))
      (located : w₁.tree.locate w₁.here target = .ok (target.resolve w₁.here))
      (moved : w₁.tree.move ((images.child old).resolve w₁.here) (target.resolve w₁.here) = .ok t') :
      Renamed images old wanted w name { w₁ with tree := t' }

/-- How a file does not get another name. -/
inductive NotRenamed (images : Path) (old wanted : String) (w : Workshop) : Workshop → Prop
  /-- It cannot be told whether the name is free. -/
  | unknown (h : ∀ place, w.tree.locate w.here (images.child wanted) ≠ .ok place) : NotRenamed images old wanted w w
  /-- No fresh file can be made. -/
  | unnamed {n : Nat} (hnext : Work.IsNext w n)
      (hlong : w.tree.isDirectory (images.resolve w.here) = true →
        255 < (Work.freshName "" wanted w.freshStem n).utf8ByteSize) :
      NotRenamed images old wanted w { w with drawn := n }
  | unmoved {target : Path} {name : String} {w₁ : Workshop} (found : Found images wanted w target name w₁)
      (h : ∀ place place' t', w₁.tree.locate w₁.here (images.child old) = .ok place →
        w₁.tree.locate w₁.here target = .ok place' → w₁.tree.move place place' ≠ .ok t') :
      NotRenamed images old wanted w w₁

variable {images target : Path} {old wanted name : String} {w w₁ : Workshop}

theorem fileName_child (h : Path.IsFileName name) : fileName (images.child name) = name := by
  rw [h.child_eq, fileName, List.getLast?_concat]
  rfl

theorem moveTo_leaves (hfound : Found images wanted w target name w₁) (hname : fileName target = name) :
    Leaves (do
        Work.moveFile (images.child old) target
        return fileName target) w₁
      (fun name w' => Renamed images old wanted w name w')
      fun e w' => e.isConverterFault = true ∧ NotRenamed images old wanted w w' := by
  have hmove := (Work.moveFile_leaves (images.child old) target w₁).imp (fun _ _ h => h) fun e w' h =>
    (⟨h.2.1, h.1 ▸ .unmoved hfound h.2.2⟩ : e.isConverterFault = true ∧ NotRenamed images old wanted w w')
  refine hmove.bind fun _ w₂ h₂ => Leaves.of_pure ?_
  obtain ⟨⟨hsource, htarget, hmoved⟩, hw₂⟩ := h₂
  rw [hname, hw₂]
  exact .intro hfound hsource htarget hmoved

/-- A file gets another name by a move to where a name that has been found leads. -/
theorem renameFile_leaves (hwanted : Path.IsFileName wanted) (hplain : w.IsPlain) (hsound : w.tree.IsSound) :
    Leaves (renameFile images old wanted) w (fun name w' => Renamed images old wanted w name w')
      fun e w' => e.isConverterFault = true ∧ NotRenamed images old wanted w w' := by
  unfold renameFile
  refine ((Work.pathIsTaken_finds _ w).imp (fun _ _ h => h) fun e w' h => ?_).bind fun taken w' h => ?_
  · obtain ⟨rfl, hfault, hnowhere⟩ := h
    exact ⟨hfault, .unknown hnowhere⟩
  obtain ⟨htaken, rfl⟩ := h
  cases taken with
  | false => exact moveTo_leaves (.free (by simpa using htaken.symm)) (fileName_child hwanted)
  | true =>
    have hempty : '/' ∉ "".toList := by decide
    refine ((Work.makeFreshFile_makes hempty hwanted.plain hplain hsound).imp (fun _ _ h => h) fun e w₂ h₂ => ?_).bind
      fun target w₂ h₂ => ?_
    · obtain ⟨hfault, n, hnext, rfl, hlong⟩ := h₂
      exact ⟨hfault, .unnamed hnext hlong⟩
    · obtain ⟨n, rfl, hnext, hfree, hfault, rfl⟩ := h₂
      exact moveTo_leaves (.fresh hnext hfree hfault)
        (fileName_child (Work.isFileName_freshName hempty hplain.fresh hwanted.plain n))

/-! ### What the images' place holds -/

/-- No program succeeds, and in the images' place of a tree as on a disk the files that are not empty hold the given
contents. -/
structure Houses (build : Path) (start : List String) (contents : Multiset Content) (w : Workshop) : Prop where
  plain : w.IsPlain
  sound : w.tree.IsSound
  unaided : ∀ program, w.programs.outcome program ≠ .succeeds
  here : w.here = start
  contents : w.tree.contentsBelow ((Workspace.imagesIn build).resolve start) = contents

/-- What the images' place holds has stayed the same. -/
def housing (build : Path) (start : List String) (contents : Multiset Content) : Alteration Workshop where
  rel w w' := Houses build start contents w → Houses build start contents w'
  refl _ h := h
  trans h h' hw := h' (h hw)

variable {build : Path} {start : List String} {contents : Multiset Content}

theorem Houses.congr {w' : Workshop} (h : Houses build start contents w) (htree : w'.tree = w.tree)
    (hhere : w'.here = w.here) (hstem : w'.freshStem = w.freshStem) (hprograms : w'.programs = w.programs) :
    Houses build start contents w' where
  plain := ⟨hhere ▸ h.plain.here, hstem ▸ h.plain.fresh⟩
  sound := htree ▸ h.sound
  unaided := hprograms ▸ h.unaided
  here := hhere.trans h.here
  contents := htree ▸ h.contents

theorem Houses.of_tree {t : Tree} (h : Houses build start contents w) (hsound : t.IsSound)
    (hcontents : t.contentsBelow ((Workspace.imagesIn build).resolve start) =
      w.tree.contentsBelow ((Workspace.imagesIn build).resolve start)) :
    Houses build start contents { w with tree := t } where
  plain := ⟨h.plain.here, h.plain.fresh⟩
  sound := hsound
  unaided := h.unaided
  here := h.here
  contents := hcontents.trans h.contents

theorem housing_of_leaves {α : Type} {a : Work α} (h : ∀ w, Houses build start contents w →
    Leaves a w (fun _ w' => Houses build start contents w') fun _ w' => Houses build start contents w') :
    Moves (housing build start contents) a := by
  intro w
  by_cases hw : Houses build start contents w
  · exact (h w hw).imp (fun _ _ h => ⟨trivial, fun _ => h⟩) fun _ _ h _ => h
  · exact (Leaves.trivial a w).imp (fun _ _ _ => ⟨trivial, fun h => absurd h hw⟩) fun _ _ _ h => absurd h hw

theorem say_housing (level : LogLevel) (source : LogSource) (text : String) :
    Moves (housing build start contents) (Work.say level source text) :=
  MovesWith.of_modify fun _ h => h.congr rfl rfl rfl rfl

theorem report_housing (r : Report) : Moves (housing build start contents) (Work.report r) := by
  refine MovesWith.get_bind fun w => ?_
  split
  · exact MovesWith.of_modify fun _ h => h.congr rfl rfl rfl rfl
  · exact MovesWith.of_pure trivial

/-- After a program that does not succeed, nothing is done. -/
theorem runTool_housing {α : Type} (command : List String) (rest : Unit → Work α) :
    Moves (housing build start contents) (runTool command >>= rest) := by
  refine housing_of_leaves fun w hw => ?_
  have hrun : Leaves (runTool command) w (fun _ _ => False) fun _ w' => Houses build start contents w' := by
    refine ((say_housing .debug .media _ w).imp (fun _ _ h => h.2 hw) fun _ _ h => h hw).bind fun _ w₁ h₁ => ?_
    refine Leaves.bind (M := fun _ w' => Houses build start contents w')
      (Leaves.of_modify (h₁.congr rfl rfl rfl rfl)) fun _ w₂ h₂ => Leaves.get_bind ?_
    cases houtcome : w₂.programs.outcome (command.headD "") with
    | succeeds => exact absurd houtcome (h₂.unaided _)
    | fails status => exact Leaves.of_throw h₂
    | missing => exact Leaves.of_throw h₂
  exact hrun.bind fun _ _ h => h.elim

/-- The images' place has room for a directory, or an empty file, where nothing is. -/
theorem Houses.put {place : List String} {e : Entry} (h : Houses build start contents w) (hplace : place ≠ [])
    (hfree : w.tree.entry place = none) (hfault : w.tree.fault? place = none) (he : e.held? = none) :
    Houses build start contents { w with tree := w.tree.put place e } :=
  h.of_tree (h.sound.put hplace hfree hfault) (Tree.contentsBelow_put hplace hfree he _)

theorem makeFreshFile_housing {stem ending : String} (hstem : '/' ∉ stem.toList) (hending : '/' ∉ ending.toList)
    (directory : Path) : Moves (housing build start contents) (Work.makeFreshFile directory stem ending) := by
  refine housing_of_leaves fun w hw => ?_
  refine (Work.makeFreshFile_makes hstem hending hw.plain hw.sound).imp (fun _ w' h => ?_) fun _ w' h => ?_
  · obtain ⟨n, -, -, hfree, hfault, rfl⟩ := h
    exact (hw.put (by simp) hfree hfault rfl).congr rfl rfl rfl rfl
  · obtain ⟨-, n, -, rfl, -⟩ := h
    exact hw.congr rfl rfl rfl rfl

theorem makeDirectory_housing (p : Path) : Moves (housing build start contents) (Work.makeDirectory p) := by
  refine housing_of_leaves fun w hw => ?_
  refine (Work.changeFile_leaves p _ w).imp (fun _ w' h => ?_) fun _ w' h => h ▸ hw
  obtain ⟨⟨-, hmade⟩, hw'⟩ := h
  obtain ⟨hmakes, hfree⟩ := Tree.makes_of_makeDirectory hmade
  rw [hw', hmakes.eq]
  exact hw.put hmakes.ne_nil hfree (Tree.fault?_of_makeDirectory hmade) rfl

/-! ### Renaming keeps what the images' place holds -/

/-- A text without a slash leads to something in a directory, or to that or its parent. -/
theorem isBelow_or_above {s : String} (h : '/' ∉ s.toList) (images : Path) (here : List String) :
    Path.IsBelow (images.resolve here) ((images.child s).resolve here) ∨
      (images.child s).resolve here <+: images.resolve here := by
  by_cases hup : s = ".."
  · right
    have hchild : images.child s = { images with names := images.names ++ [".."] } := by
      rw [hup]
      rfl
    rw [hchild, Path.resolve_eq, List.foldl_append]
    exact List.dropLast_prefix _
  · rw [Path.resolve_child (Path.IsName.descends ⟨h, hup⟩)]
    by_cases hnames : (Path.ofText s).names = []
    · right
      rw [hnames, List.append_nil]
    · exact .inl (Path.isBelow_append hnames)

/-- A name that has been found is free, or that of an empty file, and nothing else has changed. -/
theorem Found.houses (hfound : Found (Workspace.imagesIn build) wanted w target name w₁)
    (hwanted : Path.IsFileName wanted) (h : Houses build start contents w) :
    Houses build start contents w₁ ∧ (w₁.tree.locate w₁.here target = .ok (target.resolve w₁.here) →
      w₁.tree.IsSpare (target.resolve w₁.here) ∧
      Path.IsBelow ((Workspace.imagesIn build).resolve w₁.here) (target.resolve w₁.here)) := by
  have hbelow : ∀ (root : List String) (name : String), Path.IsBelow root (root ++ [name]) := fun _ _ =>
    Path.isBelow_append (List.cons_ne_nil _ _)
  cases hfound with
  | free hfree =>
    refine ⟨h, fun hlocate => ⟨fun e he => ?_, ?_⟩⟩
    · rw [Workshop.entryAt?, hlocate] at hfree
      cases he.symm.trans hfree
    · rw [hwanted.resolve_child]
      exact hbelow _ _
  | @fresh n hnext hfree hfault =>
    have hempty : '/' ∉ "".toList := by decide
    have hname := Work.isFileName_freshName hempty h.plain.fresh hwanted.plain n
    refine ⟨(h.put (by simp) hfree hfault rfl).congr rfl rfl rfl rfl, fun hlocate => ?_⟩
    rw [hname.resolve_child, Path.resolve_absolute h.plain.here]
    refine ⟨fun e he => ⟨.text "", ?_, rfl⟩, hbelow _ _⟩
    rw [Tree.entry_put_self (by simp)] at he
    exact (Option.some.inj he).symm

theorem renameFile_housing (hold : '/' ∉ old.toList) (hwanted : Path.IsFileName wanted) :
    Moves (housing build start contents) (renameFile (Workspace.imagesIn build) old wanted) := by
  refine housing_of_leaves fun w hw => ?_
  refine (renameFile_leaves hwanted hw.plain hw.sound).imp (fun name w' h => ?_) fun _ w' h => ?_
  · obtain ⟨hfound, hsource, htarget, hmoved⟩ := h
    rename_i w₁ t'
    obtain ⟨hw₁, hspare⟩ := hfound.houses hwanted hw
    obtain ⟨hspare, hbelow⟩ := hspare htarget
    rcases isBelow_or_above hold (Workspace.imagesIn build) w₁.here with hsource | hsource
    · refine hw₁.of_tree (hw₁.sound.move hmoved hspare.not_isDirectory) ?_
      rw [← hw₁.here]
      exact Tree.contentsBelow_move hw₁.sound hmoved hspare hsource hbelow
    · refine absurd hmoved (Tree.not_moves_into (hsource.trans hbelow.1) fun heq => ?_)
      exact hbelow.2 (List.IsPrefix.eq_of_length_le (heq ▸ hsource) hbelow.1.length_le)
  · obtain ⟨-, hnot⟩ := h
    cases hnot with
    | unknown _ => exact hw
    | unnamed _ _ => exact hw.congr rfl rfl rfl rfl
    | unmoved hfound _ => exact (hfound.houses hwanted hw).1

theorem renameFile_named (hold : '/' ∉ old.toList) (hwanted : Path.IsFileName wanted) :
    MovesWith (housing build start contents) Path.IsName (renameFile (Workspace.imagesIn build) old wanted) := by
  intro w
  have hname : MovesWith (inside build False) Path.IsName (renameFile (Workspace.imagesIn build) old wanted) :=
    renameFile_inside False.elim hwanted.toIsName
  exact ((renameFile_housing hold hwanted w).and (hname w)).imp (fun _ _ h => ⟨h.2.1, h.1.2⟩) fun _ _ h => h.1

/-! ### Preparing images keeps what their place holds -/

theorem runTool_moves (command : List String) : Moves (housing build start contents) (runTool command) := by
  have h : Moves (housing build start contents) (runTool command >>= pure) := runTool_housing command pure
  rwa [bind_pure] at h

theorem convertGif_housing {name : String} (h : Path.IsName name) :
    Moves (housing build start contents) (convertGif (Workspace.imagesIn build) name) :=
  (makeFreshFile_housing (slash_not_mem_stemOf h ".gif") (by decide) _).bind fun _ _ => runTool_housing _ _

theorem convertSvg_housing {name : String} (h : Path.IsName name) :
    Moves (housing build start contents) (convertSvg (Workspace.imagesIn build) name) := by
  refine (makeFreshFile_housing (slash_not_mem_stemOf h ".svg") (by decide) _).bind fun target _ => ?_
  refine (runTool_moves _).attempt.bind fun result _ => ?_
  cases result with
  | ok _ => exact MovesWith.of_pure trivial
  | error e =>
    dsimp only
    split
    · exact MovesWith.of_throw
    · exact (say_housing _ _ _).bind fun _ _ => runTool_housing _ _

theorem convertJpeg_housing {name : String} (h : Path.IsName name) (keepMetadata : Bool) :
    Moves (housing build start contents) (convertJpeg (Workspace.imagesIn build) name keepMetadata) := by
  have hdensity : Moves (housing build start contents) (do
      runTool ["mogrify", "-density", jpegDensity, ((Workspace.imagesIn build).child name).toText]
      return name) := runTool_housing _ _
  unfold convertJpeg
  cases keepMetadata with
  | true => exact hdensity
  | false =>
    refine (renameFile_housing h.plain (isFileName_marked h)).bind fun marked _ => ?_
    exact runTool_housing _ _

theorem separatePdf_housing {name : String} (h : Path.IsName name) :
    Moves (housing build start contents) (separatePdf (Workspace.imagesIn build) name) :=
  (renameFile_housing h.plain (isFileName_marked h)).bind fun _ _ =>
    (makeDirectory_housing _).bind fun _ _ => runTool_housing _ _

theorem prepareImage_housing {name : Json} (h : ∀ s, name = .text s → '/' ∉ s.toList) (mime : Json) (keepMetadata : Bool) :
    Moves (housing build start contents) (prepareImage (Workspace.imagesIn build) keepMetadata name mime) := by
  refine prepareImage_moves (fun s hs hunsafe => renameFile_named (h s hs) (isFileName_safeForm ?_))
    (fun _ => convertGif_housing) (fun _ => convertSvg_housing) (fun _ hs => convertJpeg_housing hs keepMetadata)
    (fun _ => separatePdf_housing) mime
  rintro rfl
  exact hunsafe (by decide)

theorem leaves_of_housing {α : Type} {a : Work α} {w : Workshop} (h : Moves (housing build start contents) a)
    (hw : Houses build start contents w) :
    Leaves a w (fun _ w' => Houses build start contents w') fun _ w' => Houses build start contents w' :=
  (h w).imp (fun _ _ h => h.2 hw) fun _ _ h => h hw

theorem prepareImages_houses {w : Workshop} (o : ConversionOptions) (hw : Houses build start contents w)
    (hnames : ∀ image ∈ imagesListed build w, ∀ s, image.name = .text s → '/' ∉ s.toList) :
    Leaves (prepareImages build o) w (fun _ w' => Houses build start contents w')
      fun _ w' => Houses build start contents w' := by
  unfold prepareImages
  refine ((Work.pathIsTaken_leaves _ w).imp (fun _ _ h => h) fun _ _ h => h ▸ hw).bind fun taken _ h => ?_
  obtain ⟨-, rfl⟩ := h
  cases taken with
  | false =>
    refine leaves_of_housing ((say_housing _ _ _).bind fun _ _ => ?_) hw
    exact (report_housing _).bind fun _ _ => MovesWith.of_pure trivial
  | true =>
    refine ((Store.ofPath_leaves _ _).imp (fun _ _ h => h) fun _ _ h => h ▸ hw).bind fun store w₁ h => ?_
    obtain ⟨hstore, rfl⟩ := h
    refine Leaves.lift_bind (fun entries hentries => leaves_of_housing ?_ hw) fun _ _ => hw
    have hlisted := imagesListed_eq hstore hentries
    refine (report_housing _).bind fun _ _ => (MovesWith.forM fun _ _ => report_housing _).bind fun _ _ => ?_
    refine (MovesWith.mapM fun image himage => ?_).bind fun results _ => ?_
    · exact (prepareImage_housing (hnames image (hlisted ▸ himage)) _ _).attempt.bind fun _ _ => MovesWith.of_pure trivial
    · refine (MovesWith.foldlM ?_ []).bind fun m _ => (say_housing _ _ _).bind fun _ _ => MovesWith.of_pure trivial
      rintro m ⟨image, result⟩ -
      exact enter_moves say_housing m image result

/-- Preparing images loses none of them: whatever the entries of their store name, if no program succeeds, the files below
the images' place that are not empty hold in the end what they held before, whether or not the preparation comes to a
result; and the tree is as on a disk still. -/
theorem prepareImages_contents (build : Path) (o : ConversionOptions) (w : Workshop) (hplain : w.IsPlain)
    (hsound : w.tree.IsSound) (hprograms : ∀ program, w.programs.outcome program ≠ .succeeds)
    (hnames : ∀ image ∈ imagesListed build w, ∀ s, image.name = .text s → '/' ∉ s.toList) :
    Leaves (prepareImages build o) w
      (fun _ w' => w'.tree.IsSound ∧ w'.tree.contentsBelow ((Workspace.imagesIn build).resolve w.here) =
        w.tree.contentsBelow ((Workspace.imagesIn build).resolve w.here))
      fun _ w' => w'.tree.IsSound ∧ w'.tree.contentsBelow ((Workspace.imagesIn build).resolve w.here) =
        w.tree.contentsBelow ((Workspace.imagesIn build).resolve w.here) :=
  (prepareImages_houses o ⟨hplain, hsound, hprograms, rfl, rfl⟩ hnames).imp (fun _ _ h => ⟨h.sound, h.contents⟩)
    fun _ _ h => ⟨h.sound, h.contents⟩

/-- A build directory. -/
def sampleBuild : Path := ⟨"/", ["t"]⟩

/-- The places of a bundle with images in the sample build directory. -/
def sampleDirectories : List (List String × Entry) :=
  [(["t"], .directory), (["t", "bundle"], .directory), (["t", "bundle", "images"], .directory)]

/-- A workshop without programs, with a GIF whose safe name is that of another one. -/
def crowdedWorkshop : Workshop where
  tree :=
    { entries := sampleDirectories ++
        [(["t", "bundle", "images", "a b.gif"], .file (.text "A")),
          (["t", "bundle", "images", "a-b.gif"], .file (.text "B")),
          (["t", "bundle", "imageinfo.db"],
            .file (.rows [("http://a", "\x7b\"filename\":\"a b.gif\",\"mime\":\"image/gif\"\x7d")]))] }
  here := []
  temporary := sampleBuild

theorem isSound_crowdedWorkshop : crowdedWorkshop.tree.IsSound where
  grounded := Tree.isGrounded_of_entries (by decide +kernel)
  nodup := by decide +kernel
  short := by decide +kernel

/-- The GIF gets a fresh name and cannot be converted; both are there in the end, and an empty file. -/
theorem crowdedWorkshop_contents :
    ∃ m w', (prepareImages sampleBuild { bundle := ⟨"", []⟩ }).perform crowdedWorkshop = (.ok m, w') ∧ m.byText = [] ∧
      w'.tree.filesBelow ["t", "bundle", "images"] = ["rnd1a-b.gif", "a-b.gif", "rnd1a-brnd2.png"] ∧
      w'.tree.contentsBelow ["t", "bundle", "images"] =
        crowdedWorkshop.tree.contentsBelow ["t", "bundle", "images"] := by
  have hplain : crowdedWorkshop.IsPlain := ⟨by decide, by decide⟩
  have hnames : ((imagesListed sampleBuild crowdedWorkshop).all fun image =>
      image.name.text?.all fun s => !s.toList.contains '/') = true := by decide +kernel
  have hkept := prepareImages_contents sampleBuild { bundle := ⟨"", []⟩ } crowdedWorkshop hplain isSound_crowdedWorkshop
    (fun _ => nofun) fun image himage s hs => by
      have h := List.all_eq_true.1 hnames image himage
      rw [hs] at h
      simpa [Json.text?] using h
  have hmap : ((prepareImages sampleBuild { bundle := ⟨"", []⟩ }).perform crowdedWorkshop).1.toOption.map
      (·.byText) = some [] := by decide +kernel
  have hfiles : ((prepareImages sampleBuild { bundle := ⟨"", []⟩ }).perform crowdedWorkshop).2.tree.filesBelow
      ["t", "bundle", "images"] = ["rnd1a-b.gif", "a-b.gif", "rnd1a-brnd2.png"] := by decide +kernel
  have hroot : (Workspace.imagesIn sampleBuild).resolve crowdedWorkshop.here = ["t", "bundle", "images"] := by
    decide +kernel
  rcases hrun : (prepareImages sampleBuild { bundle := ⟨"", []⟩ }).perform crowdedWorkshop with ⟨e | m, w'⟩
  · rw [hrun] at hmap
    cases hmap
  · rw [hrun] at hmap hfiles
    obtain ⟨-, hcontents⟩ := hkept.ok hrun
    rw [hroot] at hcontents
    exact ⟨m, w', rfl, Option.some.inj hmap, hfiles, hcontents⟩

end WikiTypeset.Media
