import WikiTypeset.Media.Preparation
import WikiTypeset.Proofs.Bundle.Workspace
import WikiTypeset.Proofs.Media.SafeNames

/-!
# What preparing images leaves alone

A safe name is a single name, so what is made of an image stands among the images of the bundle. The stage of the
images has a step for each entry of their store.
-/

namespace WikiTypeset.Media

open Action Files Progress Workshop

/-! ### Safe names -/

/-- The safe form of a file name. -/
def safeForm (name : String) : String := String.ofList (safeName name.toList)

theorem isName_safeForm (name : String) : Path.IsName (safeForm name) where
  plain := by
    rw [safeForm, String.toList_ofList]
    exact (safeName_plain _).1
  ne_up := by
    intro h
    have hcount := (safeName_plain name.toList).2
    have hup : safeName name.toList = "..".toList := by rw [← h, safeForm, String.toList_ofList]
    rw [hup] at hcount
    exact absurd hcount (by decide)

theorem isName_marked {name : String} (h : Path.IsName name) : Path.IsName ("X" ++ name) where
  plain := by
    rw [String.toList_append, List.mem_append, not_or]
    exact ⟨by decide, h.plain⟩
  ne_up := by
    intro heq
    have hhead : ("X" ++ name).toList.head? = "..".toList.head? := by rw [heq]
    rw [String.toList_append] at hhead
    cases hhead

theorem mem_withoutEnding {c : Char} {ending s : List Char} {skip : Nat} (h : c ∈ withoutEnding ending skip s) :
    c ∈ s := by
  induction s generalizing skip with
  | nil =>
    unfold withoutEnding at h
    cases h
  | cons d s ih =>
    cases skip with
    | succ skip => exact List.mem_cons_of_mem _ (ih h)
    | zero =>
      unfold withoutEnding at h
      split at h
      · exact List.mem_cons_of_mem _ (ih h)
      · rcases List.mem_cons.1 h with rfl | h
        · exact List.mem_cons_self
        · exact List.mem_cons_of_mem _ (ih h)

theorem slash_not_mem_stemOf {name : String} (h : Path.IsName name) (ending : String) :
    '/' ∉ (stemOf ending name).toList := by
  rw [stemOf, String.toList_ofList]
  exact fun hslash => h.plain (mem_withoutEnding hslash)

/-! ### Images -/

section Images

variable {build : Path} {P : Prop}

theorem leadsInside_imagesIn : Work.LeadsInside build P (Workspace.imagesIn build) :=
  Workspace.leadsInside_bundleIn.child fun _ => by decide

theorem leadsInside_image {name : String} (h : Path.IsName name) :
    Work.LeadsInside build P ((Workspace.imagesIn build).child name) :=
  leadsInside_imagesIn.child fun _ => h.descends

theorem runTool_inside (command : List String) : Moves (inside build P) (runTool command) :=
  (Work.inside_of_unmoved (Work.say_unmoved _ _ _)).bind fun _ _ => Work.run_inside command

/-- The name of an image by its path, which is that of the directory if the path has no name more. -/
theorem isName_fileName {name : String} (h : Path.IsName name) :
    Path.IsName (fileName ((Workspace.imagesIn build).child name)) := by
  have himages : (Workspace.imagesIn build).names.getLast? = some "images" := Path.getLast?_child _ (by decide)
  have hnames : ((Workspace.imagesIn build).child name).names =
      (Workspace.imagesIn build).names ++ (Path.ofText name).names := by
    unfold Path.child Path.join
    rw [h.descends.isAbsolute]
    rfl
  rw [fileName, hnames, List.getLast?_append, himages]
  cases hlast : (Path.ofText name).names.getLast? with
  | none => exact ⟨by decide, by decide⟩
  | some last =>
    rw [Option.some_or, Option.getD_some, h.names_subset last (List.mem_of_getLast? hlast)]
    exact h

theorem isName_fileName_of_last {p : Path} {name : String} (hlast : p.names.getLast? = some name)
    (h : Path.IsName name) : Path.IsName (fileName p) := by
  rw [fileName, hlast]
  exact h

/-- The move of a file of the images to where a path leads from the start. -/
theorem moveTo_goes {old : String} (hold : P → (Path.ofText old).Descends) {target : Path} {w w₁ : Workshop}
    (hw : w.Goes build P [] w₁)
    (htarget : P → w.IsPlain → Path.IsBelow (build.resolve w.here) (target.resolve w.here))
    (hname : Path.IsName (fileName target)) :
    Leaves (do
        Work.moveFile ((Workspace.imagesIn build).child old) target
        return fileName target) w₁
      (fun x w' => Path.IsName x ∧ w.Goes build P [] w') fun _ w' => w.Goes build P [] w' := by
  have hplain : w₁.IsPlain → w.IsPlain := fun h => ⟨hw.tells.here ▸ h.here, hw.tells.freshStem ▸ h.fresh⟩
  have hmove : Leaves (Work.moveFile ((Workspace.imagesIn build).child old) target) w₁
      (fun _ w' => w.Goes build P [] w') fun _ w' => w.Goes build P [] w' := by
    have hgoes : Leaves (Work.moveFile ((Workspace.imagesIn build).child old) target) w₁
        (fun _ w' => w₁.Goes build P [] w') fun _ w' => w₁.Goes build P [] w' := by
      refine Work.moveFile_goes (fun hP _ => ?_) fun hP hplain₁ => ?_
      · exact leadsInside_imagesIn.child hold hP w₁.here
      · rw [hw.tells.here]
        exact htarget hP (hplain hplain₁)
    exact hgoes.imp (fun _ _ h => hw.append h) fun _ _ h => hw.append h
  exact hmove.bind fun _ _ h => Leaves.of_pure ⟨hname, h⟩

/-- A file of the images can get any name that is one. -/
theorem renameFile_inside {old new : String} (hold : P → (Path.ofText old).Descends) (hnew : Path.IsName new) :
    MovesWith (inside build P) Path.IsName (renameFile (Workspace.imagesIn build) old new) := by
  intro w
  unfold renameFile
  refine ((Work.pathIsTaken_leaves _ w).imp (fun _ _ h => h) fun _ _ h => ?_).bind fun taken w₁ h₁ => ?_
  · subst h
    exact .of_unmoved (.refl _)
  obtain ⟨-, rfl⟩ := h₁
  cases taken with
  | true =>
    have himages : Work.LeadsInside build P (Workspace.imagesIn build) := leadsInside_imagesIn
    have hempty : '/' ∉ "".toList := by decide
    refine (Work.makeFreshFile_leaves himages hempty hnew.plain w₁).bind fun target w₂ h₂ => ?_
    obtain ⟨hgoes, htarget, name, hlast, hname⟩ := h₂
    exact moveTo_goes hold hgoes htarget (isName_fileName_of_last hlast hname)
  | false =>
    exact moveTo_goes hold (.of_unmoved (.refl w₁)) (fun hP _ => leadsInside_image hnew hP w₁.here) (isName_fileName hnew)

/-- A fresh file for what an image is converted to. -/
theorem makeTarget_inside {name : String} (h : Path.IsName name) (ending : String) {extension : String}
    (hextension : '/' ∉ extension.toList) :
    Moves (inside build P) (Work.makeFreshFile (Workspace.imagesIn build) (stemOf ending name) extension) :=
  fun w => (Work.makeFreshFile_leaves leadsInside_imagesIn (slash_not_mem_stemOf h ending) hextension w).imp_left
    fun _ _ h => ⟨trivial, h.1⟩

theorem convertGif_inside {name : String} (h : Path.IsName name) :
    Moves (inside build P) (convertGif (Workspace.imagesIn build) name) :=
  (makeTarget_inside h ".gif" (by decide)).bind fun _ _ =>
    (runTool_inside _).bind fun _ _ => MovesWith.of_pure trivial

theorem convertSvg_inside {name : String} (h : Path.IsName name) :
    Moves (inside build P) (convertSvg (Workspace.imagesIn build) name) := by
  refine (makeTarget_inside h ".svg" (by decide)).bind fun target _ => ?_
  refine (runTool_inside _).attempt.bind fun result _ => ?_
  cases result with
  | ok _ => exact MovesWith.of_pure trivial
  | error e =>
    dsimp only
    split
    · exact MovesWith.of_throw
    · exact (Work.inside_of_unmoved (Work.say_unmoved _ _ _)).bind fun _ _ =>
        (runTool_inside _).bind fun _ _ => MovesWith.of_pure trivial

theorem convertJpeg_inside {name : String} (h : Path.IsName name) (keepMetadata : Bool) :
    Moves (inside build P) (convertJpeg (Workspace.imagesIn build) name keepMetadata) := by
  have hdensity : Moves (inside build P) (do
      runTool ["mogrify", "-density", jpegDensity, ((Workspace.imagesIn build).child name).toText]
      return name) :=
    (runTool_inside _).bind fun _ _ => MovesWith.of_pure trivial
  unfold convertJpeg
  cases keepMetadata with
  | true => exact hdensity
  | false =>
    refine (renameFile_inside (fun _ => h.descends) (isName_marked h)).bind fun marked hmarked => ?_
    refine (runTool_inside _).bind fun _ _ => ?_
    exact (Work.removeFile_inside (leadsInside_image hmarked)).bind fun _ _ => hdensity

theorem separatePdf_inside {name : String} (h : Path.IsName name) :
    Moves (inside build P) (separatePdf (Workspace.imagesIn build) name) := by
  refine (renameFile_inside (fun _ => h.descends) (isName_marked h)).bind fun marked hmarked => ?_
  refine (Work.makeDirectory_inside (leadsInside_image h)).bind fun _ _ => ?_
  refine (runTool_inside _).bind fun _ _ => ?_
  exact (Work.removeFile_inside (leadsInside_image hmarked)).bind fun _ _ => MovesWith.of_pure trivial

/-- An image is converted as its type says. -/
def convertAs (directory : Path) (keepMetadata : Bool) (mime : Json) (name : String) : Work String :=
  match mime with
  | .text type =>
    if type = "image/gif" then convertGif directory name
    else if type.startsWith "image/svg" then convertSvg directory name
    else if type = "image/jpeg" then convertJpeg directory name keepMetadata
    else if type = "application/pdf" then separatePdf directory name
    else return name
  | v => if v.isTruthy then throw (.shape (.noMember v "startswith")) else return name

/-- An image is prepared by giving it a safe name, unless it has one, and converting it. -/
theorem prepareImage_text (directory : Path) (keepMetadata : Bool) (s : String) (mime : Json) :
    prepareImage directory keepMetadata (.text s) mime =
      if safeForm s = s then convertAs directory keepMetadata mime s
      else renameFile directory s (safeForm s) >>= convertAs directory keepMetadata mime := by
  simp only [prepareImage, safeForm, pure_bind]
  rfl

/-- What renaming an image and each of the conversions keep to, preparing an image keeps to. -/
theorem prepareImage_moves {c : Alteration Workshop} {directory : Path} {keepMetadata : Bool} {name : Json}
    (hrename : ∀ s, name = .text s → safeForm s ≠ s → MovesWith c Path.IsName (renameFile directory s (safeForm s)))
    (hgif : ∀ s, Path.IsName s → Moves c (convertGif directory s))
    (hsvg : ∀ s, Path.IsName s → Moves c (convertSvg directory s))
    (hjpeg : ∀ s, Path.IsName s → Moves c (convertJpeg directory s keepMetadata))
    (hpdf : ∀ s, Path.IsName s → Moves c (separatePdf directory s)) (mime : Json) :
    Moves c (prepareImage directory keepMetadata name mime) := by
  have hconvert : ∀ s, Path.IsName s → Moves c (convertAs directory keepMetadata mime s) := by
    intro s hs
    unfold convertAs
    split
    · split
      · exact hgif s hs
      · split
        · exact hsvg s hs
        · split
          · exact hjpeg s hs
          · split
            · exact hpdf s hs
            · exact MovesWith.of_pure trivial
    · split
      · exact MovesWith.of_throw
      · exact MovesWith.of_pure trivial
  cases name with
  | text s =>
    rw [prepareImage_text]
    split
    · rename_i hsafe
      exact hconvert s (hsafe ▸ isName_safeForm s)
    · rename_i hunsafe
      exact (hrename _ rfl hunsafe).bind hconvert
  | _ => exact MovesWith.of_throw

theorem prepareImage_inside {name : Json} (h : P → ∀ s, name = .text s → (Path.ofText s).Descends) (mime : Json)
    (keepMetadata : Bool) :
    Moves (inside build P) (prepareImage (Workspace.imagesIn build) keepMetadata name mime) :=
  prepareImage_moves (fun s hs _ => renameFile_inside (fun hP => h hP s hs) (isName_safeForm s))
    (fun _ => convertGif_inside) (fun _ => convertSvg_inside) (fun _ hs => convertJpeg_inside hs keepMetadata)
    (fun _ => separatePdf_inside) mime

/-- What saying something keeps to, entering an image into the map keeps to. -/
theorem enter_moves {c : Alteration Workshop} (hsay : ∀ level source text, Moves c (Work.say level source text))
    (m : ImageMap) (image : Listed) (result : Except Failure String) : Moves c (enter m image result) := by
  unfold enter
  split
  · split
    · exact MovesWith.of_throw
    · exact MovesWith.of_throw
    · exact MovesWith.of_pure trivial
  · split
    · exact MovesWith.of_throw
    · exact (hsay _ _ _).bind fun _ _ => MovesWith.of_pure trivial

/-- The images that the bundle in a build directory lists. -/
def imagesListed (build : Path) (w : Workshop) : List Listed :=
  match w.storeAt? ((Workspace.bundleIn build).child storeName) with
  | some store => (store.entries.toOption.getD []).filterMap fun (key, info) => listed? key info
  | none => []

theorem imagesListed_eq {w : Workshop} {store : Store} {entries : List (String × Json)}
    (hstore : w.storeAt? ((Workspace.bundleIn build).child storeName) = some store)
    (hentries : store.entries = .ok entries) :
    entries.filterMap (fun (key, info) => listed? key info) = imagesListed build w := by
  simp [imagesListed, hstore, hentries, Except.toOption]

/-- Preparing images is a stage with a step for each entry of their store. -/
theorem prepareImages_proceeds {w : Workshop} (o : ConversionOptions)
    (hnames : P → ∀ image ∈ imagesListed build w, ∀ s, image.name = .text s → (Path.ofText s).Descends) :
    ProceedsAt build P 1 w (fun _ _ => True) (prepareImages build o) := by
  unfold prepareImages
  refine ProceedsAt.bind_look (Work.pathIsTaken_leaves _ w) fun taken _ => ?_
  cases taken with
  | false =>
    exact ProceedsAt.bind_inside (Work.inside_of_unmoved (Work.say_unmoved _ _ _)) fun _ _ _ =>
      ProceedsAt.of_stage _ (MovesWith.of_pure trivial)
  | true =>
    refine ProceedsAt.bind_look (Store.ofPath_leaves _ w) fun store hstore => ?_
    refine ProceedsAt.bind_lift fun entries hentries => ?_
    have hlisted := imagesListed_eq hstore hentries
    refine ProceedsAt.of_steps (fun _ => .intro none _) _ ?_
    refine (MovesWith.mapM fun image himage => ?_).bind fun results _ => ?_
    · have hname : P → ∀ s, image.name = .text s → (Path.ofText s).Descends :=
        fun hP => hnames hP image (hlisted ▸ himage)
      exact ((prepareImage_inside hname _ o.keepMetadata).attempt).bind fun _ _ => MovesWith.of_pure trivial
    · refine (Work.inside_of_unmoved (MovesWith.foldlM ?_ [])).bind fun m _ => ?_
      · rintro m ⟨image, result⟩ -
        exact enter_moves Work.say_unmoved m image result
      · exact (Work.inside_of_unmoved (Work.say_unmoved _ _ _)).bind fun _ _ => MovesWith.of_pure trivial

end Images

end WikiTypeset.Media
