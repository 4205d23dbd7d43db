import WikiTypeset.Proofs.Conversion.Course

/-!
# What a conversion leaves behind

A conversion that comes to its end leaves its output, and a build directory just if the driver refers to it. One that
fails leaves all as it was, unless it was to keep the build directory for a driver: then the directory stays, though
there is no driver. Main statement: `convert_clears`.
-/

namespace WikiTypeset

open Action Files Progress Workshop

/-- All stands as it did. -/
def Workshop.Restored (w w' : Workshop) : Prop := ∀ q, w'.tree.entry q = w.tree.entry q

/-- A conversion comes to make a build directory and to bring its bundle there. -/
def Prepares (o : ConversionOptions) (w : Workshop) : Prop :=
  ∃ build w₁, (Workspace.prepare o).perform w = (.ok build, w₁)

/-- The build directory that a conversion has made stands. -/
def BuildStays (o : ConversionOptions) (w w' : Workshop) : Prop :=
  ∃ build w₁, (Workspace.prepare o).perform w = (.ok build, w₁) ∧ w'.tree.isDirectory (build.resolve w.here) = true

/-- The place is in the build directory that a conversion has made. -/
def InBuild (o : ConversionOptions) (w : Workshop) (q : List String) : Prop :=
  ∃ build w₁, (Workspace.prepare o).perform w = (.ok build, w₁) ∧ build.resolve w.here <+: q

/-- The place is that of the output. -/
def IsOutput (o : ConversionOptions) (w : Workshop) (q : List String) : Prop :=
  ∃ file, o.output? = some file ∧ q = file.resolve w.here

/-- What a conversion leaves, by its status. -/
structure Clears (o : ConversionOptions) (w : Workshop) (status : Nat) (w' : Workshop) : Prop where
  zero_or_one : status = 0 ∨ status = 1
  failed : status = 1 → (w.Restored w' ↔ ¬ (o.latexOnly = true ∧ Prepares o w))
  stays : status = 0 → (BuildStays o w w' ↔ o.latexOnly = true)
  elsewhere : ∀ q, ¬ (o.latexOnly = true ∧ InBuild o w q) → ¬ (status = 0 ∧ IsOutput o w q) →
    w'.tree.entry q = w.tree.entry q

section Clearing

variable {o : ConversionOptions} {build : Path} {w w₁ w₂ w₃ w' : Workshop} {bs : List (List Report)}

/-- What is known of the build directory while there is work in it. -/
structure Built (build : Path) (w w₂ : Workshop) : Prop where
  here : w₂.here = w.here
  opens : Tree.Opens (build.resolve w.here) w.tree w₂.tree
  located : w₂.tree.locate w.here build = .ok (build.resolve w.here)

theorem built_of_passes (hplain : w.IsPlain) (hgrounded : w.tree.IsGrounded)
    (hprepare : (Workspace.prepare o).perform w = (.ok build, w₁)) (hpasses : Passes build True bs w₁ w₂) :
    Built build w w₂ := by
  obtain ⟨⟨b, -, htells⟩, hlocated, hopens⟩ := (Workspace.prepare_leaves o w).ok hprepare
  have hinside := hpasses.goes.elsewhere trivial (htells.isPlain hplain)
  rw [htells.here] at hinside
  have hall := (hopens hplain).then hinside
  exact ⟨hpasses.goes.tells.here.trans htells.here, hall, hall.locate hgrounded hlocated⟩

theorem keepsBuild_eq (hdebug : o.debug = false) : o.keepsBuild = o.latexOnly := by
  rw [ConversionOptions.keepsBuild, hdebug, Bool.false_or]

theorem buildStays_iff (hprepare : (Workspace.prepare o).perform w = (.ok build, w₁)) :
    BuildStays o w w' ↔ w'.tree.isDirectory (build.resolve w.here) = true := by
  constructor
  · rintro ⟨build', w₁', hprepare', h⟩
    rw [hprepare] at hprepare'
    cases hprepare'
    exact h
  · exact fun h => ⟨build, w₁, hprepare, h⟩

/-- A build directory that is not kept goes with all that is in it. -/
theorem IsLeft.tree_eq (hleft : IsLeft o build w₃ w') (hkeeps : o.keepsBuild = false) (hbuilt : Built build w w₂)
    (hhere : w₃.here = w₂.here) (hdirectories : ∀ q, w₃.tree.isDirectory q = w₂.tree.isDirectory q) :
    w'.tree = w₃.tree.removeAll (build.resolve w.here) := by
  rw [IsLeft, if_neg (by simp [hkeeps])] at hleft
  refine hleft.2 _ ?_
  rw [hhere, hbuilt.here]
  exact Tree.locate_of_directories (fun q hq => (hdirectories q).trans hq) hbuilt.located

/-- A conversion that fails leaves all as it was, unless the build directory is to stay. -/
theorem Course.failed_clears (hdebug : o.debug = false) (hplain : w.IsPlain) (hgrounded : w.tree.IsGrounded)
    (h : Course True o w false w') : w.Restored w' ↔ ¬ (o.latexOnly = true ∧ Prepares o w) := by
  cases h with
  | unprepared hfails hsaid =>
    obtain ⟨-, hrestored⟩ := (Workspace.prepare_leaves o w).error hfails
    refine iff_of_true (fun q => ?_) ?_
    · rw [hsaid.tree]
      exact hrestored hplain hgrounded q
    · rintro ⟨-, build, w₁, hprepare⟩
      rw [hfails] at hprepare
      cases hprepare
  | @failed build _ w₁ _ w₃ _ hprepare hlength hpasses hsaid hleft =>
    have hbuilt := built_of_passes hplain hgrounded hprepare hpasses
    cases hlatex : o.latexOnly with
    | true =>
      -- The directory is still there.
      have hkeeps : o.keepsBuild = true := by rw [keepsBuild_eq hdebug, hlatex]
      rw [IsLeft, if_pos hkeeps] at hleft
      refine iff_of_false (fun hrestored => ?_) fun hnot => hnot ⟨rfl, build, w₁, hprepare⟩
      have hstays := Tree.isDirectory_iff.1 hbuilt.opens.directory
      rw [← hsaid.tree, ← hleft.tree, hrestored, hbuilt.opens.free] at hstays
      cases hstays
    | false =>
      have hkeeps : o.keepsBuild = false := by rw [keepsBuild_eq hdebug, hlatex]
      have htree := hleft.tree_eq hkeeps hbuilt hsaid.here fun q => by rw [hsaid.tree]
      refine iff_of_true (fun q => ?_) (by simp)
      rw [htree, hsaid.tree]
      exact hbuilt.opens.entry_removeAll hgrounded q

theorem Course.ended_stays (hdebug : o.debug = false) (hplain : w.IsPlain) (hgrounded : w.tree.IsGrounded)
    (h : Course True o w true w') : BuildStays o w w' ↔ o.latexOnly = true := by
  cases h with
  | @ended build _ w₁ w₂ w₃ _ hprepare hlength hpasses hcloses hleft =>
    have hbuilt := built_of_passes hplain hgrounded hprepare hpasses
    rw [buildStays_iff hprepare]
    cases hlatex : o.latexOnly with
    | true =>
      have hkeeps : o.keepsBuild = true := by rw [keepsBuild_eq hdebug, hlatex]
      rw [IsLeft, if_pos hkeeps] at hleft
      refine iff_of_true ?_ rfl
      rw [hleft.tree, hcloses.directories]
      exact hbuilt.opens.directory
    | false =>
      have hkeeps : o.keepsBuild = false := by rw [keepsBuild_eq hdebug, hlatex]
      have htree := hleft.tree_eq hkeeps hbuilt hcloses.tells.here hcloses.directories
      have hne : build.resolve w.here ≠ [] := by
        intro hnil
        have hfree := hbuilt.opens.free
        rw [hnil] at hfree
        cases hfree
      refine iff_of_false (fun hstays => ?_) (by simp)
      rw [Tree.isDirectory_iff, htree, Tree.entry_removeAll hne, if_pos List.prefix_rfl] at hstays
      cases hstays

/-- What has changed in the end is in the build directory that stays, or is the output. -/
theorem Course.elsewhere {finished : Bool} (hdebug : o.debug = false) (hplain : w.IsPlain)
    (hgrounded : w.tree.IsGrounded) (h : Course True o w finished w') {q : List String}
    (hbuild : ¬ (o.latexOnly = true ∧ InBuild o w q)) (houtput : ¬ (finished = true ∧ IsOutput o w q)) :
    w'.tree.entry q = w.tree.entry q := by
  cases hfinished : finished with
  | false =>
    subst hfinished
    by_cases hkept : o.latexOnly = true ∧ Prepares o w
    · cases h with
      | unprepared hfails _ =>
        obtain ⟨-, build, w₁, hprepare⟩ := hkept
        rw [hfails] at hprepare
        cases hprepare
      | @failed build _ w₁ _ w₃ _ hprepare _ hpasses hsaid hleft =>
        have hbuilt := built_of_passes hplain hgrounded hprepare hpasses
        rw [IsLeft, if_pos (by rw [keepsBuild_eq hdebug, hkept.1])] at hleft
        rw [hleft.tree, hsaid.tree]
        exact hbuilt.opens.elsewhere q fun hin => hbuild ⟨hkept.1, build, w₁, hprepare, hin⟩
    · exact (h.failed_clears hdebug hplain hgrounded).2 hkept q
  | true =>
    subst hfinished
    cases h with
    | @ended build _ w₁ w₂ w₃ _ hprepare _ hpasses hcloses hleft =>
      have hbuilt := built_of_passes hplain hgrounded hprepare hpasses
      have hdelivered : w₃.tree.entry q = w₂.tree.entry q := by
        refine hcloses.elsewhere q fun file hfile heq => houtput ⟨rfl, file, hfile, ?_⟩
        rw [heq, hbuilt.here]
      cases hlatex : o.latexOnly with
      | true =>
        rw [IsLeft, if_pos (by rw [keepsBuild_eq hdebug, hlatex])] at hleft
        rw [hleft.tree, hdelivered]
        exact hbuilt.opens.elsewhere q fun hin => hbuild ⟨hlatex, build, w₁, hprepare, hin⟩
      | false =>
        have hkeeps : o.keepsBuild = false := by rw [keepsBuild_eq hdebug, hlatex]
        have htree := hleft.tree_eq hkeeps hbuilt hcloses.tells.here hcloses.directories
        rw [← hbuilt.opens.entry_removeAll hgrounded q, htree]
        by_cases hnil : q = []
        · subst hnil
          rfl
        · rw [Tree.entry_removeAll hnil, Tree.entry_removeAll hnil, hdelivered]

end Clearing

/-- A conversion that is not debugged comes to a status, and clears up by it: after a failure all is as it was, unless
the build directory was to be kept for LaTeX only, and had been prepared; after success that directory stays exactly for
LaTeX only. Nothing changes elsewhere but the output. -/
theorem convert_clears (o : ConversionOptions) (w : Workshop) (hdebug : o.debug = false) (hplain : w.IsPlain)
    (hgrounded : w.tree.IsGrounded)
    (hnames : ∀ build w₁, (Workspace.prepare o).perform w = (.ok build, w₁) → LeadsDown build w₁) :
    ∃ status w', (convert o).perform w = (.ok status, w') ∧ Clears o w status w' := by
  have hcourse := convert_course o w fun _ : True => hnames
  rcases hperform : (convert o).perform w with ⟨e | status, w'⟩
  · obtain ⟨hdebugged, -⟩ := hcourse.error hperform
    rw [hdebug] at hdebugged
    cases hdebugged
  · refine ⟨status, w', rfl, ?_⟩
    rcases hcourse.ok hperform with ⟨rfl, h⟩ | ⟨rfl, -, h⟩
    · refine ⟨Or.inl rfl, nofun, fun _ => h.ended_stays hdebug hplain hgrounded, fun q hbuild houtput => ?_⟩
      exact h.elsewhere hdebug hplain hgrounded hbuild fun ⟨_, hq⟩ => houtput ⟨rfl, hq⟩
    · refine ⟨Or.inr rfl, fun _ => h.failed_clears hdebug hplain hgrounded, nofun, fun q hbuild _ => ?_⟩
      exact h.elsewhere hdebug hplain hgrounded hbuild nofun

/-- A directory with an outline of one article, and nothing that belongs to it. -/
def outlineWorkshop : Workshop where
  tree := ⟨[(["T"], .directory), (["c"], .directory), (["c", "metabook.json"],
    .file (.text "\x7b\"items\": [\x7b\"type\": \"article\", \"title\": \"A\", \"revision\": 1\x7d]\x7d"))]⟩
  here := []
  temporary := ⟨"/", ["T"]⟩

set_option maxRecDepth 100000 in
/-- A conversion that fails after its build directory has been prepared, and is not to keep it. -/
theorem convert_clears_outlineWorkshop :
    Prepares { bundle := ⟨"", ["c"]⟩ } outlineWorkshop ∧
      ∃ w', (convert { bundle := ⟨"", ["c"]⟩ }).perform outlineWorkshop = (.ok 1, w') ∧ outlineWorkshop.Restored w' := by
  have hplain : outlineWorkshop.IsPlain := ⟨by decide, by decide⟩
  have hgrounded : outlineWorkshop.tree.IsGrounded := Tree.isGrounded_of_entries (by decide)
  have hprepared : ((Workspace.prepare { bundle := ⟨"", ["c"]⟩ }).perform outlineWorkshop).1.toOption.isSome = true := by
    decide +kernel
  have hstatus : ((convert { bundle := ⟨"", ["c"]⟩ }).perform outlineWorkshop).1.toOption = some 1 := by decide +kernel
  have hdown : LeadsDown (((Workspace.prepare { bundle := ⟨"", ["c"]⟩ }).perform outlineWorkshop).1.toOption.getD default)
      ((Workspace.prepare { bundle := ⟨"", ["c"]⟩ }).perform outlineWorkshop).2 := by decide +kernel
  have hnames : ∀ build w₁, (Workspace.prepare { bundle := ⟨"", ["c"]⟩ }).perform outlineWorkshop = (.ok build, w₁) →
      LeadsDown build w₁ := by
    intro build w₁ hprepare
    rw [hprepare] at hdown
    exact hdown
  have hprepares : Prepares { bundle := ⟨"", ["c"]⟩ } outlineWorkshop := by
    rcases hprepare : (Workspace.prepare { bundle := ⟨"", ["c"]⟩ }).perform outlineWorkshop with ⟨e | build, w₁⟩
    · rw [hprepare] at hprepared
      cases hprepared
    · exact ⟨build, w₁, hprepare⟩
  obtain ⟨status, w', hperform, hclears⟩ := convert_clears { bundle := ⟨"", ["c"]⟩ } outlineWorkshop rfl hplain hgrounded hnames
  rw [hperform] at hstatus
  cases hstatus
  exact ⟨hprepares, w', hperform, (hclears.failed rfl).2 (by simp)⟩

/-- A directory without an outline. -/
def emptyWorkshop : Workshop where
  tree := ⟨[(["T"], .directory), (["c"], .directory)]⟩
  here := []
  temporary := ⟨"/", ["T"]⟩

set_option maxRecDepth 100000 in
/-- For LaTeX only, a conversion that fails leaves its build directory. -/
theorem latexOnly_leaves_build :
    ∃ w', (convert { bundle := ⟨"", ["c"]⟩, latexOnly := true }).perform emptyWorkshop = (.ok 1, w') ∧
      ¬ emptyWorkshop.Restored w' := by
  have hstatus : ((convert { bundle := ⟨"", ["c"]⟩, latexOnly := true }).perform emptyWorkshop).1.toOption = some 1 := by
    decide +kernel
  have hstays : ((convert { bundle := ⟨"", ["c"]⟩, latexOnly := true }).perform emptyWorkshop).2.tree.isDirectory
      ["T", "wiki2latex-rnd1"] = true := by decide +kernel
  have hfree : emptyWorkshop.tree.isDirectory ["T", "wiki2latex-rnd1"] = false := by decide +kernel
  rcases hperform : (convert { bundle := ⟨"", ["c"]⟩, latexOnly := true }).perform emptyWorkshop with ⟨e | status, w'⟩
  · rw [hperform] at hstatus
    cases hstatus
  · rw [hperform] at hstatus hstays
    cases hstatus
    refine ⟨w', rfl, fun hrestored => ?_⟩
    rw [Tree.isDirectory_congr (hrestored _), hfree] at hstays
    cases hstays

end WikiTypeset
