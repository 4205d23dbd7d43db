import WikiTypeset.Proofs.Bundle.Workspace
import WikiTypeset.Proofs.Collection.Course

/-!
# The steps of writing a collection

The stage of the collection announces as many steps as its outline has items, the outline itself and the attribution
counted. The items are counted wherever they are nested, while steps are told of the articles that are reached, and of
chapters: there are never more of them. Main statement: `writeSources_proceeds`.
-/

namespace WikiTypeset.Collection

open Action Files Workshop
open WikiTypeset.Progress (Report IsStep IsStage)

/-! ### Counting items -/

/-- What is counted for a field are the items that it is read as. -/
theorem countAll_of_countChildren {v : Json} {n : Nat} (h : Outline.countChildren v = .ok n) :
    Outline.countAll (if v.isTruthy then (Outline.elementsOf v).toOption.getD [] else []) = .ok n := by
  unfold Outline.countChildren at h
  split at h
  · rename_i items
    cases items with
    | nil => exact h
    | cons item items => exact h
  · by_cases htrue : v.isTruthy = true
    · rw [if_neg (by simp [htrue])] at h
      rw [if_pos htrue]
      split at h
      · cases h
      · rename_i hempty
        rw [hempty]
        exact h
      · cases h
    · rw [if_pos (by simpa using htrue)] at h
      rw [if_neg htrue]
      exact h

theorem countField_eq (fields : List (String × Json)) :
    Outline.countField fields = match fields.find? (·.1 == "items") with
      | some (_, v) => Outline.countChildren v
      | none => .ok 0 := by
  induction fields with
  | nil => rw [Outline.countField, List.find?_nil]
  | cons field fields ih =>
    obtain ⟨name, v⟩ := field
    rw [Outline.countField, List.find?_cons]
    by_cases hname : name = "items"
    · rw [if_pos hname, beq_iff_eq.2 hname]
    · rw [if_neg hname, ih, beq_false_of_ne hname]

/-- An item counts for itself, and for its own items. -/
theorem countAll_childrenOf {item : Json} {n : Nat} (h : Outline.countItems item = .ok n) :
    ∃ total, Outline.countAll (childrenOf item) = .ok total ∧ n = 1 + total := by
  unfold Outline.countItems at h
  split at h
  · rename_i fields
    cases hfield : Outline.countField fields with
    | error fault =>
      rw [hfield] at h
      cases h
    | ok total =>
      rw [hfield] at h
      refine ⟨total, ?_, (Except.ok.inj h).symm⟩
      rw [countField_eq] at hfield
      have hitems : Outline.itemsOf (.object fields) =
          let items := (((fields.find? (·.1 == "items")).map (·.2)).getD .null)
          if items.isTruthy then Outline.elementsOf items else .ok [] := rfl
      unfold childrenOf
      rw [hitems]
      cases hfind : fields.find? (·.1 == "items") with
      | none =>
        rw [hfind] at hfield
        exact hfield
      | some field =>
        rw [hfind] at hfield
        have hcount := countAll_of_countChildren hfield
        dsimp only [Option.map_some, Option.getD_some]
        split
        · rename_i htrue
          rwa [if_pos htrue] at hcount
        · rename_i htrue
          rwa [if_neg htrue] at hcount
  · cases h

theorem countAll_cons {item : Json} {items : List Json} {total : Nat}
    (h : Outline.countAll (item :: items) = .ok total) :
    ∃ m n, Outline.countItems item = .ok m ∧ Outline.countAll items = .ok n ∧ total = m + n := by
  unfold Outline.countAll at h
  obtain ⟨m, hm, h⟩ := Formula.exists_of_bind h
  obtain ⟨n, hn, h⟩ := Formula.exists_of_bind h
  exact ⟨m, n, hm, hn, (Except.ok.inj h).symm⟩

theorem one_le_of_countItems {item : Json} {n : Nat} (h : Outline.countItems item = .ok n) : 1 ≤ n := by
  obtain ⟨total, -, rfl⟩ := countAll_childrenOf h
  omega

/-- Every item in a row counts for one at least. -/
theorem length_le_of_countAll {items : List Json} {total : Nat} (h : Outline.countAll items = .ok total) :
    items.length ≤ total := by
  induction items generalizing total with
  | nil => exact Nat.zero_le _
  | cons item items ih =>
    obtain ⟨m, n, hm, hn, rfl⟩ := countAll_cons h
    have hitem := one_le_of_countItems hm
    have hrest := ih hn
    rw [List.length_cons]
    omega

/-! ### Steps -/

def reportsOf (ds : List Deed) : List Report := ds.filterMap Deed.report?

/-- The deeds report single steps, no more than a number of them. -/
def Steps (n : Nat) (ds : List Deed) : Prop := (∀ report ∈ reportsOf ds, IsStep report) ∧ (reportsOf ds).length ≤ n

namespace Steps

variable {m n : Nat} {ds ds' : List Deed}

theorem nil : Steps 0 [] := ⟨List.forall_mem_nil _, Nat.zero_le 0⟩

theorem mono (h : Steps m ds) (hmn : m ≤ n) : Steps n ds := ⟨h.1, h.2.trans hmn⟩

theorem append (h : Steps m ds) (h' : Steps n ds') : Steps (m + n) (ds ++ ds') := by
  unfold Steps reportsOf
  rw [List.filterMap_append, List.length_append]
  exact ⟨List.forall_mem_append.2 ⟨h.1, h'.1⟩, Nat.add_le_add h.2 h'.2⟩

theorem cons {d : Deed} (hd : d.report? = none) (h : Steps n ds) : Steps n (d :: ds) := by
  unfold Steps reportsOf
  rw [List.filterMap_cons_none hd]
  exact h

theorem report {message? : Option String} {file : Json} (h : Steps n ds) :
    Steps (1 + n) (.report (.step 1 message? file) :: ds) := by
  have hone : Steps 1 [.report (.step 1 message? file)] :=
    ⟨List.forall_mem_cons.2 ⟨.intro message? file, List.forall_mem_nil _⟩, Nat.le_refl 1⟩
  exact hone.append h

theorem flatMap {items : List Json} {f : Json → List Deed} (h : ∀ item ∈ items, Steps 1 (f item)) :
    Steps items.length (items.flatMap f) := by
  induction items with
  | nil => exact nil
  | cons item items ih =>
    rw [List.forall_mem_cons] at h
    rw [List.flatMap_cons, List.length_cons, Nat.add_comm]
    exact h.1.append (ih h.2)

end Steps

variable {s : Setting}

theorem documentDeeds_steps (r : Rendering) : Steps 0 (documentDeeds r) :=
  .cons rfl (.cons rfl (.cons rfl .nil))

theorem articleDeeds_steps (s : Setting) (item : Json) : Steps 1 (articleDeeds s item) :=
  .report (documentDeeds_steps _)

theorem attributionDeeds_steps (s : Setting) (attribution? : Option String) :
    Steps 1 (attributionDeeds s attribution?) := by
  cases attribution? with
  | none => exact .report .nil
  | some markup => exact .cons rfl (.report (documentDeeds_steps _))

theorem chapterDeeds_steps (s : Setting) (columns item : Json) :
    Steps (1 + (childrenOf item).length) (chapterDeeds s columns item) := by
  have hcolumns : Steps 0 (columnsDeeds columns item) := by
    unfold columnsDeeds
    split
    · exact .nil
    · split
      · exact .nil
      · exact .cons rfl .nil
  have hchildren : Steps (childrenOf item).length ((childrenOf item).flatMap (childDeeds s)) := by
    refine Steps.flatMap fun child _ => ?_
    unfold childDeeds
    split
    · exact articleDeeds_steps s child
    · exact Steps.nil.mono (Nat.zero_le 1)
  have hbody := hcolumns.append (Steps.cons (d := .line (.chapter (titleOf item))) rfl hchildren)
  rw [Nat.zero_add] at hbody
  exact .report hbody

/-- An item has no more steps than it counts for. -/
theorem itemDeeds_steps (s : Setting) (columns : Json) {item : Json} {n : Nat} (h : Outline.countItems item = .ok n) :
    Steps n (itemDeeds s columns item).1 := by
  obtain ⟨total, hchildren, rfl⟩ := countAll_childrenOf h
  have hlength := length_le_of_countAll hchildren
  unfold itemDeeds
  split
  · exact (articleDeeds_steps s item).mono (Nat.le_add_right 1 total)
  · split
    · exact (chapterDeeds_steps s columns item).mono (Nat.add_le_add_left hlength 1)
    · exact Steps.nil.mono (Nat.zero_le _)

theorem itemsDeeds_steps (s : Setting) (columns : Json) {items : List Json} {total : Nat}
    (h : Outline.countAll items = .ok total) : Steps total (itemsDeeds s columns items) := by
  induction items generalizing columns total with
  | nil => exact Steps.nil.mono (Nat.zero_le total)
  | cons item items ih =>
    obtain ⟨m, n, hm, hn, rfl⟩ := countAll_cons h
    exact (itemDeeds_steps s columns hm).append (ih _ hn)

/-- Behind its opening, the stage has a step for the outline, one for the attribution, and those of the items. -/
theorem bodyDeeds_steps (s : Setting) (columns : Json) {outline : Json} {n : Nat}
    (h : Outline.countItems outline = .ok n) (attribution? : Option String) :
    Steps n (bodyDeeds s columns outline attribution?) := by
  obtain ⟨total, hchildren, rfl⟩ := countAll_childrenOf h
  have hend : Steps 0 [.line .ending] := .cons rfl .nil
  have hbody := (itemsDeeds_steps s columns hchildren).append ((attributionDeeds_steps s attribution?).append hend)
  rwa [Nat.add_zero, Nat.add_comm] at hbody

variable {build : Path} {w w₁ : Workshop} {outline : Json} {images : List (String × String)} {o : ConversionOptions}

/-- All that a run reports, if someone watches, is its stage; and nothing, if its items cannot be counted. -/
theorem deedsOf_reports (hw : w.watched = true) (language : String) (used : List String) :
    reportsOf (deedsOf outline build images o w ++ [.setup language used]) = [] ∧ isCounted outline w = false ∨
      IsStage (reportsOf (deedsOf outline build images o w ++ [.setup language used])) := by
  cases hcount : Outline.countItems outline with
  | error fault =>
    have hcounted : isCounted outline w = false := by simp [isCounted, hw, hcount, Except.toOption]
    refine Or.inl ⟨?_, hcounted⟩
    rw [deedsOf, if_neg (by simp [hcounted])]
    rfl
  | ok n =>
    have hcounted : isCounted outline w = true := by simp [isCounted, hcount, Except.toOption]
    have hsetup : Steps 0 [.setup language used] := .cons rfl .nil
    obtain ⟨rest, hrest, hsteps⟩ : ∃ rest, deedsOf outline build images o w = announceDeeds outline ++ rest ∧
        Steps n rest := by
      rw [deedsOf, if_pos hcounted]
      refine ⟨_, rfl, ?_⟩
      split
      · exact Steps.nil.mono (Nat.zero_le n)
      · refine .cons rfl ?_
        split
        · exact Steps.nil.mono (Nat.zero_le n)
        · exact bodyDeeds_steps _ _ hcount _
    right
    have hall : Steps (1 + n) (.report (.step 1 none (givenTitle outline)) :: (rest ++ [.setup language used])) :=
      .report (hsteps.append hsetup)
    have hopening : reportsOf (deedsOf outline build images o w ++ [.setup language used]) =
        .stage (n + 1 : Nat) (some "Processing collection") .null ::
          reportsOf (.report (.step 1 none (givenTitle outline)) :: (rest ++ [.setup language used])) := by
      rw [hrest, announceDeeds, hcount]
      rfl
    rw [hopening]
    refine .intro hall.1 ?_
    have hlength := hall.2
    omega

theorem Enacts.tells {ds : List Deed} (h : Enacts build w ds w₁) : w.Tells (reportsOf ds) w₁ where
  here := h.here
  freshStem := h.freshStem
  watched := h.watched
  reports := h.reports

/-! ### Places -/

def fileNameOf (item : Json) : String := (wikiOf item).display ++ "-" ++ (revisionOf item).display ++ ".tex"

variable {P : Prop}

theorem documentsOf_inside {s : Setting} (hbuild : s.build = build)
    (hnames : P → ∀ item ∈ reached outline, (Path.ofText (fileNameOf item)).Descends) (attribution? : Option String) :
    ∀ r ∈ documentsOf s outline attribution?, Work.LeadsInside build P r.file := by
  subst hbuild
  intro r hr
  rcases List.mem_append.1 hr with hr | hr
  · obtain ⟨item, hitem, rfl⟩ := List.mem_map.1 hr
    rw [renderingOf_file]
    exact Workspace.leadsInside_latexIn.child fun hP => hnames hP item hitem
  · obtain ⟨markup, -, rfl⟩ : ∃ markup, attribution? = some markup ∧ attributionRendering s markup = r := by
      simpa [Option.map_eq_some_iff] using hr
    exact Workspace.leadsInside_latexIn.child fun _ => by decide

theorem isBelow_mainPlace {here : List String} : Path.IsBelow (build.resolve here) (mainPlace build here) := by
  rw [mainPlace_eq]
  exact Path.isBelow_append (List.cons_ne_nil _ _)

theorem Deed.Serves.isBelow {rs : List Rendering} {chapters : Prop} {d : Deed} (h : d.Serves rs chapters) (hP : P)
    (hrs : ∀ r ∈ rs, Work.LeadsInside build P r.file) {here q : List String} (hq : d.place? build here = some q) :
    Path.IsBelow (build.resolve here) q := by
  cases h with
  | report _ => cases hq
  | line _ =>
    cases hq
    exact isBelow_mainPlace
  | clear hr =>
    cases hq
    exact hrs _ hr hP here
  | document hr =>
    cases hq
    exact hrs _ hr hP here
  | setup _ _ =>
    cases hq
    rw [setupPlace_eq]
    exact Path.isBelow_append (List.cons_ne_nil _ _)

/-- All that a run writes is below its build directory, if the names of the files of the articles lead down. -/
theorem deedsOf_isBelow (hP : P) (hnames : P → ∀ item ∈ reached outline, (Path.ofText (fileNameOf item)).Descends)
    {language : String} {used : List String} {d : Deed}
    (hd : d ∈ deedsOf outline build images o w ++ [.setup language used]) {here q : List String}
    (hq : d.place? build here = some q) : Path.IsBelow (build.resolve here) q := by
  rw [List.mem_append, List.mem_singleton] at hd
  rcases hd with hd | rfl
  · rcases mem_deedsOf hd with ⟨r, rfl⟩ | ⟨head, layout, -, rfl | ⟨s, hs, hserves⟩⟩
    · cases hq
    · cases hq
      exact isBelow_mainPlace
    · exact hserves.isBelow hP (documentsOf_inside (settingOf_build hs) hnames _) hq
  · cases hq
    rw [setupPlace_eq]
    exact Path.isBelow_append (List.cons_ne_nil _ _)

/-! ### Runs -/

/-- What a run has done is inside its build directory. -/
theorem Enacts.goes {language : String} {used : List String} {done : List Deed}
    (h : Enacts build w done w₁) (hdone : done <+: deedsOf outline build images o w ++ [.setup language used])
    (hnames : P → ∀ item ∈ reached outline, (Path.ofText (fileNameOf item)).Descends) :
    w.Goes build P (reportsOf done) w₁ where
  tells := h.tells
  elsewhere hP _ q hq := by
    rw [h.tree]
    exact entry_foldl_act fun d hd hplace => hq (deedsOf_isBelow hP hnames (hdone.subset hd) hplace)

/-- Writing a collection is a stage, with no more steps than it announces. -/
theorem writeSources_proceeds (outline : Json) (images : Media.ImageMap) (o : ConversionOptions) (w : Workshop)
    (hnames : P → ∀ item ∈ reached outline, (Path.ofText (fileNameOf item)).Descends) :
    ProceedsAt build P 1 w (fun _ _ => True) (writeSources outline build images o) := by
  refine (writeSources_concludes outline build images o w).imp (fun used w₁ h => ?_) fun cause w₁ h => ?_
  · obtain ⟨⟨head, layout, s, hfinds⟩, language, used, h⟩ := h
    have hgoes := h.goes List.prefix_rfl hnames
    refine ⟨trivial, ?_⟩
    by_cases hw : w.watched = true
    · have hreports : reportsOf (deedsOf outline build images.byText o w ++ [.setup language used]) = [] ∧
          isCounted outline w = false ∨
            IsStage (reportsOf (deedsOf outline build images.byText o w ++ [.setup language used])) :=
        deedsOf_reports hw language used
      rcases hreports with ⟨-, hcounted⟩ | hstage
      · exact absurd hfinds.counted (by simp [hcounted])
      · exact ⟨[_], rfl, List.forall_mem_singleton.2 hstage, by simpa using hgoes⟩
    · refine ⟨[[.stage (0 : Nat) none .null]], rfl, List.forall_mem_singleton.2 (.empty 0 none .null), ?_⟩
      exact ⟨hgoes.tells.of_unwatched hw _, hgoes.elsewhere⟩
  · obtain ⟨language, used, done, hdone, h⟩ := h
    have hgoes := h.goes hdone hnames
    have htold : reportsOf done <+: reportsOf (deedsOf outline build images.byText o w ++ [.setup language used]) :=
      hdone.filterMap _
    by_cases hw : w.watched = true
    · have hcases : reportsOf done = [] ∨ IsStage (reportsOf done) := by
        rcases deedsOf_reports hw language used with ⟨hnone, -⟩ | hstage
        · rw [hnone, List.prefix_nil] at htold
          exact Or.inl htold
        · exact hstage.told htold
      rcases hcases with hnone | hstage
      · rw [hnone] at hgoes
        exact ⟨[], Nat.zero_le 1, .of_goes hgoes⟩
      · exact ⟨[_], Nat.le_refl 1, List.forall_mem_singleton.2 hstage, by simpa using hgoes⟩
    · exact ⟨[], Nat.zero_le 1, List.forall_mem_nil _, hgoes.tells.of_unwatched hw [], hgoes.elsewhere⟩

end WikiTypeset.Collection
