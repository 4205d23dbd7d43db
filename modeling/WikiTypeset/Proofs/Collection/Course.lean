import WikiTypeset.Proofs.Collection.Deeds

/-!
# The course of writing a collection

What a run finds when it begins decides what it does: which stores are opened, which images there are, and whether there
is an attribution. Nothing that is written before changes them, as it is written to files with TeX. Main statement:
`writeSources_concludes`.
-/

namespace WikiTypeset.Collection

open Action Files

variable {build : Path} {here : List String} {w w₁ : Workshop} {s : Setting} {ds : List Deed} {t : Tree}

/-! ### What deeds serve -/

/-- The deed is done behind the head, for one of the documents or for none; chapters are named only where there may be
some. -/
inductive Deed.Serves (rs : List Rendering) (chapters : Prop) : Deed → Prop
  | report (r : Progress.Report) : Serves rs chapters (.report r)
  | line {l : MainLine} (h : ∀ title, l = .chapter title → chapters) : Serves rs chapters (.line l)
  | clear {r : Rendering} (h : r ∈ rs) : Serves rs chapters (.clear r.file)
  | document {r : Rendering} (h : r ∈ rs) : Serves rs chapters (.document r)
  | setup (language : String) (used : List String) : Serves rs chapters (.setup language used)

section Serving

variable {rs : List Rendering} {chapters : Prop}

theorem documentDeeds_serve {r : Rendering} (hr : r ∈ rs) : ∀ d ∈ documentDeeds r, d.Serves rs chapters := by
  intro d hd
  simp only [documentDeeds, List.mem_cons, List.not_mem_nil, or_false] at hd
  rcases hd with rfl | rfl | rfl
  · exact .line nofun
  · exact .clear hr
  · exact .document hr

theorem articleDeeds_serve {item : Json} (h : renderingOf s item ∈ rs) :
    ∀ d ∈ articleDeeds s item, d.Serves rs chapters :=
  List.forall_mem_cons.2 ⟨.report _, documentDeeds_serve h⟩

theorem attributionDeeds_serve {attribution? : Option String}
    (h : ∀ markup, attribution? = some markup → attributionRendering s markup ∈ rs) :
    ∀ d ∈ attributionDeeds s attribution?, d.Serves rs chapters := by
  cases attribution? with
  | none => exact List.forall_mem_cons.2 ⟨.report _, List.forall_mem_nil _⟩
  | some markup =>
    exact List.forall_mem_cons.2 ⟨.line nofun, List.forall_mem_cons.2 ⟨.report _, documentDeeds_serve (h markup rfl)⟩⟩

theorem columnsDeeds_serve (columns item : Json) : ∀ d ∈ columnsDeeds columns item, d.Serves rs chapters := by
  unfold columnsDeeds
  split
  · exact List.forall_mem_nil _
  · split
    · exact List.forall_mem_nil _
    · exact List.forall_mem_cons.2 ⟨.line nofun, List.forall_mem_nil _⟩

theorem itemDeeds_serve {item : Json} (columns : Json) (h : ∀ article ∈ articlesOf item, renderingOf s article ∈ rs)
    (hchapter : hasType "chapter" item = true → chapters) :
    ∀ d ∈ (itemDeeds s columns item).1, d.Serves rs chapters := by
  unfold itemDeeds
  unfold articlesOf at h
  split
  · rename_i harticle
    rw [if_pos harticle] at h
    exact articleDeeds_serve (h item List.mem_cons_self)
  · rename_i harticle
    rw [if_neg harticle] at h
    split
    · rename_i htype
      rw [if_pos htype] at h
      intro d hd
      simp only [chapterDeeds, List.mem_cons, List.mem_append, List.mem_flatMap] at hd
      rcases hd with rfl | hd | rfl | ⟨child, hchild, hd⟩
      · exact .report _
      · exact columnsDeeds_serve columns item d hd
      · exact .line fun _ _ => hchapter htype
      · unfold childDeeds at hd
        split at hd
        · rename_i harticle
          exact articleDeeds_serve (h child (List.mem_filter.2 ⟨hchild, harticle⟩)) d hd
        · cases hd
    · exact List.forall_mem_nil _

theorem itemsDeeds_serve {items : List Json} (columns : Json)
    (h : ∀ article ∈ items.flatMap articlesOf, renderingOf s article ∈ rs)
    (hchapter : ∀ item ∈ items, hasType "chapter" item = true → chapters) :
    ∀ d ∈ itemsDeeds s columns items, d.Serves rs chapters := by
  induction items generalizing columns with
  | nil => exact List.forall_mem_nil _
  | cons item items ih =>
    rw [List.flatMap_cons] at h
    rw [List.forall_mem_cons] at hchapter
    intro d hd
    rw [itemsDeeds, List.mem_append] at hd
    rcases hd with hd | hd
    · exact itemDeeds_serve columns (fun article ha => h article (List.mem_append_left _ ha)) hchapter.1 d hd
    · exact ih _ (fun article ha => h article (List.mem_append_right _ ha)) hchapter.2 d hd

theorem bodyDeeds_serve (s : Setting) (columns outline : Json) (attribution? : Option String) :
    ∀ d ∈ bodyDeeds s columns outline attribution?, d.Serves (documentsOf s outline attribution?)
      (∃ item ∈ childrenOf outline, hasType "chapter" item = true) := by
  intro d hd
  simp only [bodyDeeds, List.mem_append, List.mem_singleton] at hd
  rcases hd with hd | hd | rfl
  · refine itemsDeeds_serve columns (fun article ha => ?_) (fun item hitem htype => ⟨item, hitem, htype⟩) d hd
    exact List.mem_append_left _ (List.mem_map_of_mem ha)
  · refine attributionDeeds_serve (fun markup hmarkup => ?_) d hd
    exact List.mem_append_right _ (by simp [hmarkup])
  · exact .line nofun

end Serving

/-! ### Places -/

/-- The place that a deed writes to. -/
def Deed.place? (build : Path) (here : List String) : Deed → Option (List String)
  | report _ => none
  | head _ => some (mainPlace build here)
  | line _ => some (mainPlace build here)
  | clear file => some (file.resolve here)
  | document r => some (r.file.resolve here)
  | setup _ _ => some (setupPlace build here)

/-- A deed changes nothing but the place that it writes to. -/
theorem Deed.entry_act {d : Deed} {q : List String} (h : d.place? build here ≠ some q) :
    (d.act build here t).entry q = t.entry q := by
  have hput : ∀ {p e}, some p ≠ some q → (t.put p e).entry q = t.entry q :=
    fun hp => Tree.entry_put_of_ne fun hq => hp (hq ▸ rfl)
  cases d with
  | report _ => rfl
  | head _ => exact hput h
  | line _ => exact hput h
  | clear _ => exact hput h
  | document _ => exact hput h
  | setup _ _ => exact hput h

/-- What stands below a place stays if nothing is written there. -/
theorem below_foldl_act {q : List String} (h : ∀ d ∈ ds, ∀ p, d.place? build here = some p → ¬ q <+: p) :
    (ds.foldl (Deed.act build here) t).below q = t.below q := by
  induction ds generalizing t with
  | nil => rfl
  | cons d ds ih =>
    rw [List.forall_mem_cons] at h
    rw [List.foldl_cons, ih h.2]
    cases d with
    | report _ => rfl
    | head _ => exact Tree.below_put (h.1 _ rfl)
    | line _ => exact Tree.below_put (h.1 _ rfl)
    | clear _ => exact Tree.below_put (h.1 _ rfl)
    | document _ => exact Tree.below_put (h.1 _ rfl)
    | setup _ _ => exact Tree.below_put (h.1 _ rfl)

theorem entry_foldl_act {q : List String} (h : ∀ d ∈ ds, d.place? build here ≠ some q) :
    (ds.foldl (Deed.act build here) t).entry q = t.entry q := by
  induction ds generalizing t with
  | nil => rfl
  | cons d ds ih =>
    rw [List.forall_mem_cons] at h
    rw [List.foldl_cons, ih h.2, Deed.entry_act h.1]

theorem mainPlace_eq (build : Path) (here : List String) : mainPlace build here = build.resolve here ++ ["output.tex"] :=
  Path.resolve_name (by decide) (by decide)

theorem setupPlace_eq (build : Path) (here : List String) :
    setupPlace build here = build.resolve here ++ ["languages.tex"] :=
  Path.resolve_name (by decide) (by decide)

theorem mainPlace_ne_nil : mainPlace build here ≠ [] := by
  rw [mainPlace_eq]
  exact List.append_ne_nil_of_right_ne_nil _ (List.cons_ne_nil _ _)

theorem mainPlace_ne_setupPlace : mainPlace build here ≠ setupPlace build here := by
  intro h
  rw [mainPlace_eq, setupPlace_eq] at h
  have hlast := congrArg List.getLast? h
  rw [List.getLast?_concat, List.getLast?_concat] at hlast
  simp at hlast

theorem isTex_mainPlace (build : Path) (here : List String) : Path.IsTex (mainPlace build here) := by
  rw [mainPlace_eq]
  exact ⟨"output", List.getLast?_concat⟩

theorem isTex_setupPlace (build : Path) (here : List String) : Path.IsTex (setupPlace build here) := by
  rw [setupPlace_eq]
  exact ⟨"languages", List.getLast?_concat⟩

theorem isTex_renderingOf (s : Setting) (item : Json) : Path.IsTex ((renderingOf s item).file.resolve here) :=
  Path.isTex_child _ _

theorem isTex_attributionRendering (s : Setting) (markup : String) :
    Path.IsTex ((attributionRendering s markup).file.resolve here) :=
  Path.isTex_child _ "attribution"

theorem isTex_documentsOf (outline : Json) (attribution? : Option String) :
    ∀ r ∈ documentsOf s outline attribution?, Path.IsTex (r.file.resolve here) := by
  intro r hr
  rcases List.mem_append.1 hr with hr | hr
  · obtain ⟨article, -, rfl⟩ := List.mem_map.1 hr
    exact isTex_renderingOf s article
  · obtain ⟨markup, -, rfl⟩ : ∃ markup, attribution? = some markup ∧ attributionRendering s markup = r := by
      simpa [Option.map_eq_some_iff] using hr
    exact isTex_attributionRendering s markup

theorem Deed.Serves.isTex {rs : List Rendering} {chapters : Prop} {d : Deed} (h : d.Serves rs chapters)
    (hrs : ∀ r ∈ rs, Path.IsTex (r.file.resolve here)) {q : List String} (hq : d.place? build here = some q) :
    Path.IsTex q := by
  cases h with
  | report _ => cases hq
  | line _ =>
    cases hq
    exact isTex_mainPlace build here
  | clear hr =>
    cases hq
    exact hrs _ hr
  | document hr =>
    cases hq
    exact hrs _ hr
  | setup _ _ =>
    cases hq
    exact isTex_setupPlace build here

/-- What stands where no deed writes stays. -/
theorem Enacts.entryAt? (h : Enacts build w ds w₁) {p : Path}
    (hp : ∀ d ∈ ds, d.place? build w.here ≠ some (p.resolve w.here)) : w₁.entryAt? p = w.entryAt? p := by
  unfold Workshop.entryAt?
  rw [h.here, Tree.locate_toOption h.directories]
  cases hlocate : w.tree.locate w.here p with
  | error fault => rfl
  | ok place =>
    obtain rfl := Tree.eq_of_locate hlocate
    show w₁.tree.entry (p.resolve w.here) = w.tree.entry (p.resolve w.here)
    rw [h.tree, entry_foldl_act hp]

/-! ### What a run finds -/

/-- The image files of the bundle in a build directory. -/
def imageFilesAt (w : Workshop) (build : Path) : List String :=
  ((w.tree.locate w.here (Workspace.imagesIn build)).toOption.map w.tree.filesBelow).getD []

/-- The stores of documents and sites of the bundle in a build directory. -/
def documentStore (build : Path) : Path := (Workspace.bundleIn build).child "parsoid.db"

def siteStore (build : Path) : Path := (Workspace.bundleIn build).child "siteinfo.db"

/-- What all articles of a collection share, as a run finds it. -/
def settingOf (outline : Json) (build : Path) (images : List (String × String)) (o : ConversionOptions)
    (layout : Layout) (w : Workshop) : Option Setting :=
  match layout.language, w.storeAt? (documentStore build), w.storeAt? (siteStore build) with
  | .text code, some documents, some sites =>
    some {
      outline
      build
      language := code
      options := {
        lang := code
        direction := (Language.ofCode code).direction
        imageMap := images
        imageFiles? := some (imageFilesAt w build)
        singleItem := layout.singleItem
        hasChapters := layout.hasChapters
        parindent := o.parindent }
      documents
      sites }
  | _, _, _ => none

theorem imageFiles_leaves (build : Path) (w : Workshop) {F : Failure → Workshop → Prop} :
    Leaves (imageFiles build) w (fun files w' => files = imageFilesAt w build ∧ w' = w) F := by
  refine Leaves.get_bind ?_
  unfold imageFilesAt
  cases w.tree.locate w.here (Workspace.imagesIn build) with
  | ok place => exact Leaves.of_pure ⟨rfl, rfl⟩
  | error fault => exact Leaves.of_pure ⟨rfl, rfl⟩

theorem languageOf_moves (v : Json) :
    MovesWith Workshop.unmoved (fun l => ∃ code, v = .text code ∧ l = Language.ofCode code) (languageOf v) := by
  unfold languageOf
  split
  · rename_i code
    exact (Work.lookup_unmoved code).mono fun l hl => ⟨code, rfl, hl⟩
  · split
    · exact MovesWith.of_throw
    · exact MovesWith.of_throw
    · exact (Work.note_unmoved _).bind fun _ _ => MovesWith.of_throw

theorem openSetting_leaves (outline : Json) (build : Path) (images : List (String × String)) (o : ConversionOptions)
    (layout : Layout) (w : Workshop) :
    Leaves (openSetting outline build images o layout) w
      (fun s w' => settingOf outline build images o layout w = some s ∧ w.Unmoved w') fun _ w' => w.Unmoved w' := by
  refine (languageOf_moves layout.language w).bind fun language w₁ h₁ => ?_
  obtain ⟨⟨code, hcode, rfl⟩, hmoved⟩ := h₁
  have himages : imageFilesAt w₁ build = imageFilesAt w build := by
    unfold imageFilesAt
    rw [hmoved.tree, hmoved.here]
  have hstore : ∀ p, w₁.storeAt? p = w.storeAt? p := by
    intro p
    unfold Workshop.storeAt?
    rw [hmoved.entryAt?]
  refine (imageFiles_leaves build w₁).bind fun files w₂ h₂ => ?_
  obtain ⟨rfl, rfl⟩ := h₂
  refine ((Store.ofPath_leaves (documentStore build) w₂).imp (fun _ _ h => h) fun _ _ h => h ▸ hmoved).bind
    fun documents w₃ h₃ => ?_
  obtain ⟨hdocuments, rfl⟩ := h₃
  refine ((Store.ofPath_leaves (siteStore build) w₃).imp (fun _ _ h => h) fun _ _ h => h ▸ hmoved).bind fun sites w₄ h₄ => ?_
  obtain ⟨hsites, rfl⟩ := h₄
  refine Leaves.of_pure ⟨?_, hmoved⟩
  rw [hstore] at hdocuments hsites
  simp [settingOf, hcode, hdocuments, hsites, himages, Json.display]

/-! ### Runs -/

/-- Deeds that write to files with TeX leave the attribution of the bundle as it is. -/
theorem Enacts.attributionText? (h : Enacts build w ds w₁)
    (htex : ∀ d ∈ ds, ∀ q, d.place? build w.here = some q → Path.IsTex q) :
    attributionText? build w₁ = attributionText? build w := by
  unfold Collection.attributionText?
  rw [h.entryAt? fun d hd hplace => ?_]
  exact Path.not_isTex_name (by decide) (by decide) (by decide) (htex d hd _ hplace)

/-- The deeds for the document that tells who wrote the articles. -/
theorem writeAttributionDocument_performs (s : Setting) (p : Progress) (markup : String) :
    Performs s.build (documentDeeds (attributionRendering s markup))
      (fun _ => languageFor s (.int 0) = .ok (attributionRendering s markup).lang) (do
        writeMain s.build (inputLine (attributionRendering s markup).file ++ "\n")
        Work.writeText (attributionRendering s markup).file ""
        let lang ← articleLanguage s (.int 0)
        return p.using (← writeDocument (attributionRendering s markup).file markup
          (attributionRendering s markup).options none lang)) := by
  refine (writeMain_performs (.input (attributionRendering s markup).file) rfl).bind_deed fun _ _ => ?_
  have hclear : Performs s.build [.clear (attributionRendering s markup).file] (fun _ => True)
      (Work.writeText (attributionRendering s markup).file "") := writeText_performs rfl fun _ _ => rfl
  refine hclear.bind_deed fun _ _ => Performs.bind_moves (articleLanguage_moves s _) fun lang hlang => ?_
  obtain rfl : (attributionRendering s markup).lang = lang := by simp [attributionRendering, hlang, Except.toOption]
  exact (writeDocument_performs (attributionRendering s markup)).bind_rest fun _ _ => Performs.of_pure hlang

theorem writeAttribution_performs (s : Setting) (p : Progress) (w : Workshop) :
    PerformsAt s.build (attributionDeeds s (attributionText? s.build w)) w
      (fun _ _ => ∀ markup, attributionText? s.build w = some markup →
        languageFor s (.int 0) = .ok (attributionRendering s markup).lang) (writeAttribution s p) := by
  have htaken : (w.entryAt? (attributionFile s.build)).isSome = (attributionText? s.build w).isSome := by
    rw [attributionText?, Option.isSome_map]
  refine PerformsAt.bind_look (Work.pathIsTaken_leaves _ w) fun taken h => ?_
  rw [h, htaken]
  cases hattribution : attributionText? s.build w with
  | none =>
    have hskip : Performs s.build (attributionDeeds s none) (fun _ => True) (do
        Work.report (.step 1 (some "Processing attribution (skipped)") .null)
        return p) := (report_performs _).bind_rest fun _ _ => Performs.of_pure trivial
    refine (hskip w).imp_left fun _ _ h => ⟨fun markup hmarkup => ?_, h.2⟩
    cases hmarkup
  | some markup =>
    refine (writeMain_performs .attributions rfl w).bind_deed fun _ w₁ _ h₁ => ?_
    refine (report_performs _ w₁).bind_deed fun _ w₂ _ h₂ => ?_
    -- The line of the main file does not change what is read of the attribution.
    have hread : attributionText? s.build w₂ = some markup := by
      rw [(h₁.append h₂).attributionText? ?_, hattribution]
      intro d hd q hq
      simp only [List.mem_append, List.mem_singleton] at hd
      rcases hd with rfl | rfl
      · cases hq
        exact isTex_mainPlace _ _
      · cases hq
    refine PerformsAt.bind_look (Work.readText_leaves _ w₂) fun text htext => ?_
    obtain ⟨content, hcontent, htext⟩ := htext
    rw [attributionText?, hcontent] at hread
    obtain rfl : text = markup := htext.trans (Option.some.inj hread)
    refine (writeAttributionDocument_performs s p text w₂).imp_left fun _ _ h => ⟨fun markup hmarkup => ?_, h.2⟩
    cases hmarkup
    exact h.1

/-! ### The whole -/

/-- The items can be counted, or no one watches. -/
def isCounted (outline : Json) (w : Workshop) : Bool := !w.watched || (Outline.countItems outline).toOption.isSome

theorem announce_performs (outline : Json) (w : Workshop) :
    PerformsAt build (announceDeeds outline) w
      (fun _ _ => isCounted outline w = true) (announce outline) := by
  refine Leaves.get_bind ?_
  by_cases hw : w.watched = true
  · rw [if_pos hw]
    have hstage : Performs build (announceDeeds outline) (fun _ => isCounted outline w = true) (do
        let items ← asked (Outline.countItems outline)
        Work.stage (items + 1) "Processing collection"
        Work.report (.step 1 none (← asked (Outline.fieldOf outline "title")))) := by
      refine Performs.bind_moves (asked_moves _) fun n hn => ?_
      unfold announceDeeds
      rw [hn]
      refine (report_performs _).bind_deed fun _ _ => Performs.bind_moves (asked_moves _) fun title htitle => ?_
      obtain rfl : givenTitle outline = title := by simp [givenTitle, htitle, Except.toOption]
      exact (report_performs _).mono fun _ _ => by simp [isCounted, hn, Except.toOption]
    exact hstage w
  · rw [if_neg hw]
    have hnone : (announceDeeds outline).foldl (Deed.act build w.here) w.tree = w.tree := by
      unfold announceDeeds
      split <;> rfl
    refine Leaves.of_pure ⟨by simp [isCounted, hw], hnone.symm, rfl, rfl, rfl, ?_, fun _ => rfl⟩
    rw [if_neg hw, List.append_nil]

/-- The deeds of a run that finds what the workshop has, up to the end of the main file. -/
def deedsOf (outline : Json) (build : Path) (images : List (String × String)) (o : ConversionOptions)
    (w : Workshop) : List Deed :=
  if isCounted outline w then
    announceDeeds outline ++ match Header.ofOutline outline build o with
      | .error _ => []
      | .ok (head, layout) =>
        .head head :: match settingOf outline build images o layout w with
          | none => []
          | some s => bodyDeeds s (.int layout.columns) outline (attributionText? build w)
  else []

/-- A run finds all that it asks for. -/
structure Finds (outline : Json) (build : Path) (images : List (String × String)) (o : ConversionOptions)
    (w : Workshop) (head : String) (layout : Layout) (s : Setting) : Prop where
  counted : isCounted outline w = true
  head : Header.ofOutline outline build o = .ok (head, layout)
  setting : settingOf outline build images o layout w = some s
  articles : ∀ article ∈ reached outline, s.Has article
  attribution : ∀ markup, attributionText? build w = some markup →
    languageFor s (.int 0) = .ok (attributionRendering s markup).lang

theorem Finds.deedsOf_eq {outline : Json} {images : List (String × String)} {o : ConversionOptions} {head : String}
    {layout : Layout} (h : Finds outline build images o w head layout s) :
    deedsOf outline build images o w = announceDeeds outline ++
      .head head :: bodyDeeds s (.int layout.columns) outline (attributionText? build w) := by
  simp only [deedsOf, if_pos h.counted, h.head, h.setting]

theorem announceDeeds_report {outline : Json} {d : Deed} (hd : d ∈ announceDeeds outline) : ∃ r, d = .report r := by
  unfold announceDeeds at hd
  split at hd
  · simp only [List.mem_cons, List.not_mem_nil, or_false] at hd
    rcases hd with rfl | rfl
    · exact ⟨_, rfl⟩
    · exact ⟨_, rfl⟩
  · cases hd

/-- What a deed of a run is: a report, the head, or one behind the head. -/
theorem mem_deedsOf {outline : Json} {images : List (String × String)} {o : ConversionOptions} {d : Deed}
    (hd : d ∈ deedsOf outline build images o w) :
    (∃ r, d = .report r) ∨ ∃ head layout, Header.ofOutline outline build o = .ok (head, layout) ∧
      (d = .head head ∨ ∃ s, settingOf outline build images o layout w = some s ∧
        d.Serves (documentsOf s outline (attributionText? build w))
          (∃ item ∈ childrenOf outline, hasType "chapter" item = true)) := by
  unfold deedsOf at hd
  split at hd
  · rcases List.mem_append.1 hd with hd | hd
    · exact Or.inl (announceDeeds_report hd)
    · split at hd
      · cases hd
      · rename_i head layout hhead
        refine Or.inr ⟨head, layout, hhead, ?_⟩
        rcases List.mem_cons.1 hd with rfl | hd
        · exact Or.inl rfl
        · split at hd
          · cases hd
          · rename_i s hs
            exact Or.inr ⟨s, hs, bodyDeeds_serve s _ outline _ d hd⟩
  · cases hd

/-- The documents of a run that finds what the workshop has. -/
def documentsAt (outline : Json) (build : Path) (images : List (String × String)) (o : ConversionOptions)
    (layout : Layout) (w : Workshop) : List Rendering :=
  match settingOf outline build images o layout w with
  | some s => documentsOf s outline (attributionText? build w)
  | none => []

theorem foldl_announceDeeds (outline : Json) (t : Tree) :
    (announceDeeds outline).foldl (Deed.act build here) t = t := by
  unfold announceDeeds
  split <;> rfl

/-- The deeds of a run with a head that have been done, if it fails, end before the head or behind it. -/
theorem done_cases {outline : Json} {images : List (String × String)} {o : ConversionOptions} {head language : String}
    {layout : Layout} {used : List String} {done : List Deed}
    (hhead : Header.ofOutline outline build o = .ok (head, layout)) (hcounted : isCounted outline w = true)
    (hdone : done <+: deedsOf outline build images o w ++ [.setup language used]) :
    done <+: announceDeeds outline ∨ ∃ body, done = announceDeeds outline ++ .head head :: body ∧
      ∀ d ∈ body, d.Serves (documentsAt outline build images o layout w)
        (∃ item ∈ childrenOf outline, hasType "chapter" item = true) := by
  obtain ⟨left, hleft⟩ := hdone
  rw [deedsOf, if_pos hcounted, hhead, List.append_assoc] at hleft
  rcases List.append_eq_append_iff.1 hleft with ⟨more, hmore, -⟩ | ⟨rest, hrest, hfrom⟩
  · left
    rw [hmore]
    exact List.prefix_append done more
  · cases rest with
    | nil =>
      left
      exact ⟨[], by simpa using hrest⟩
    | cons d body =>
      right
      rw [List.cons_append, List.cons_append, List.cons.injEq] at hfrom
      obtain ⟨rfl, hbody⟩ := hfrom
      refine ⟨body, hrest, fun d hd => ?_⟩
      have hmem : d ∈ body ++ left := List.mem_append_left _ hd
      rw [← hbody, List.mem_append, List.mem_singleton] at hmem
      rcases hmem with hmem | rfl
      · unfold documentsAt
        cases hs : settingOf outline build images o layout w with
        | none =>
          rw [hs] at hmem
          cases hmem
        | some s =>
          rw [hs] at hmem
          exact bodyDeeds_serve s _ outline _ d hmem
      · exact .setup language used

/-- The head and what is told before it do not change what is found. -/
theorem Enacts.settingOf_eq (h : Enacts build w ds w₁)
    (hds : ∀ d ∈ ds, ∀ q, d.place? build w.here = some q → q = mainPlace build w.here) (outline : Json)
    (images : List (String × String)) (o : ConversionOptions) (layout : Layout) :
    settingOf outline build images o layout w₁ = settingOf outline build images o layout w := by
  have htex : ∀ d ∈ ds, ∀ q, d.place? build w.here = some q → Path.IsTex q := by
    intro d hd q hq
    rw [hds d hd q hq]
    exact isTex_mainPlace build w.here
  have hdocuments : w₁.storeAt? (documentStore build) = w.storeAt? (documentStore build) := by
    refine Workshop.storeAt?_congr (h.entryAt? fun d hd hq => ?_)
    exact Path.not_isTex_name (by decide) (by decide) (by decide) (htex d hd _ hq)
  have hsites : w₁.storeAt? (siteStore build) = w.storeAt? (siteStore build) := by
    refine Workshop.storeAt?_congr (h.entryAt? fun d hd hq => ?_)
    exact Path.not_isTex_name (by decide) (by decide) (by decide) (htex d hd _ hq)
  have himages : imageFilesAt w₁ build = imageFilesAt w build := by
    unfold imageFilesAt
    rw [h.here, Tree.locate_toOption h.directories]
    cases hlocate : w.tree.locate w.here (Workspace.imagesIn build) with
    | error fault => rfl
    | ok place =>
      obtain rfl := Tree.eq_of_locate hlocate
      have hbelow : w₁.tree.below ((Workspace.imagesIn build).resolve w.here) =
          w.tree.below ((Workspace.imagesIn build).resolve w.here) := by
        rw [h.tree]
        refine below_foldl_act fun d hd q hq hbelow => ?_
        rw [hds d hd q hq, mainPlace_eq, Workspace.imagesIn, Path.resolve_name (by decide) (by decide),
          Workspace.bundleIn, Path.resolve_name (by decide) (by decide)] at hbelow
        have hlength := hbelow.length_le
        simp only [List.length_append, List.length_singleton] at hlength
        omega
      simp only [Except.toOption, Option.map_some, Option.getD_some, Tree.filesBelow, hbelow]
  unfold settingOf
  rw [hdocuments, hsites, himages]

/-- The work does the deeds, and then writes the set-up of the languages, and what `P` says has been found; if it fails,
it has done the deeds up to some point. -/
def Concludes {α : Type} (build : Path) (ds : List Deed) (w : Workshop) (P : Prop) (a : Work α) : Prop :=
  Leaves a w (fun _ w' => P ∧ ∃ language used, Enacts build w (ds ++ [.setup language used]) w')
    fun _ w' => ∃ language used done, done <+: ds ++ [.setup language used] ∧ Enacts build w done w'

section Concluding

variable {α β : Type} {a : Work α} {f : α → Work β} {P : Prop} {ds' : List Deed}

theorem PerformsAt.concludes {Q : α → Workshop → Prop} (ha : PerformsAt build ds w Q a)
    (hf : ∀ x w', Q x w' → Enacts build w ds w' → Concludes build ds' w' P (f x)) :
    Concludes build (ds ++ ds') w P (a >>= f) := by
  refine Leaves.bind (M := fun x w' => Q x w' ∧ Enacts build w ds w') (ha.imp (fun _ _ h => h) fun _ _ h => ?_)
    fun x w₁ h₁ => ?_
  · obtain ⟨done, hdone, henacts⟩ := h
    exact ⟨"", [], done, hdone.trans ((List.prefix_append ds ds').trans (List.prefix_append _ _)), henacts⟩
  · obtain ⟨hx, h₁⟩ := h₁
    refine (hf x w₁ hx h₁).imp (fun _ w₂ h₂ => ?_) fun _ w₂ h₂ => ?_
    · obtain ⟨hP, language, used, h₂⟩ := h₂
      refine ⟨hP, language, used, ?_⟩
      rw [List.append_assoc]
      exact h₁.append h₂
    · obtain ⟨language, used, done, hdone, h₂⟩ := h₂
      refine ⟨language, used, ds ++ done, ?_, h₁.append h₂⟩
      rw [List.append_assoc]
      exact (List.prefix_append_right_inj ds).2 hdone

/-- Work whose last deed is to write the set-up. -/
theorem PerformsAt.concludes_setup {language : String} {used : List String} {Q : α → Workshop → Prop} (hP : P)
    (ha : PerformsAt build [.setup language used] w Q a) : Concludes build [] w P a :=
  ha.imp (fun _ _ h => ⟨hP, language, used, h.2⟩) fun _ _ h => ⟨language, used, h⟩

end Concluding

theorem settingOf_build {outline : Json} {images : List (String × String)} {o : ConversionOptions} {layout : Layout}
    (h : settingOf outline build images o layout w = some s) : s.build = build := by
  unfold settingOf at h
  split at h
  · cases h
    rfl
  · cases h

theorem openSetting_performs (outline : Json) (build : Path) (images : List (String × String)) (o : ConversionOptions)
    (layout : Layout) (w : Workshop) :
    PerformsAt build [] w (fun s _ => settingOf outline build images o layout w = some s)
      (openSetting outline build images o layout) :=
  (openSetting_leaves outline build images o layout w).imp (fun _ _ h => ⟨h.1, .of_unmoved h.2⟩)
    fun _ _ h => ⟨[], List.nil_prefix, .of_unmoved h⟩

/-- The deeds up to the head write to the main file only. -/
theorem headDeeds_place {outline : Json} {head : String} {d : Deed} (hd : d ∈ announceDeeds outline ++ [.head head])
    {q : List String} (hq : d.place? build here = some q) : q = mainPlace build here := by
  rw [List.mem_append, List.mem_singleton] at hd
  rcases hd with hd | rfl
  · obtain ⟨r, rfl⟩ := announceDeeds_report hd
    cases hq
  · exact (Option.some.inj hq).symm

/-- A run does all that it is to do; or, if it fails, what it is to do up to some point. -/
theorem writeSources_concludes (outline : Json) (build : Path) (images : Media.ImageMap) (o : ConversionOptions)
    (w : Workshop) :
    Concludes build (deedsOf outline build images.byText o w) w
      (∃ head layout s, Finds outline build images.byText o w head layout s)
      (writeSources outline build images o) := by
  by_cases hcounted : isCounted outline w = true
  · rw [deedsOf, if_pos hcounted]
    refine (announce_performs outline w).concludes fun _ w₁ _ h₁ => ?_
    refine (Performs.of_moves (asked_moves _) w₁).concludes fun r w₂ hhead h₂ => ?_
    obtain ⟨head, layout⟩ := r
    rw [hhead]
    have hwrite : Performs build [.head head] (fun _ => True) (Work.writeText (mainFile build) head) :=
      writeText_performs rfl fun _ _ => rfl
    refine (hwrite w₂).concludes fun _ w₃ _ h₃ => ?_
    have hbefore : Enacts build w (announceDeeds outline ++ [.head head]) w₃ := by
      simpa using (h₁.append h₂).append h₃
    refine (openSetting_performs outline build images.byText o layout w₃).concludes fun s w₄ hs h₄ => ?_
    rw [hbefore.settingOf_eq fun d hd q hq => headDeeds_place hd hq] at hs
    rw [hs]
    obtain rfl := settingOf_build hs
    refine (Performs.of_moves (asked_moves _) w₄).concludes fun items w₅ hitems h₅ => ?_
    obtain rfl : childrenOf outline = items := by simp [childrenOf, hitems, Except.toOption]
    refine (writeItems_performs rfl _ w₅).concludes fun p w₆ harticles h₆ => ?_
    have hsofar : Enacts s.build w (announceDeeds outline ++ [.head head] ++
        itemsDeeds s (.int layout.columns) (childrenOf outline)) w₆ := by
      simpa using ((hbefore.append h₄).append h₅).append h₆
    have hattribution : attributionText? s.build w₆ = attributionText? s.build w := by
      refine hsofar.attributionText? fun d hd q hq => ?_
      rcases List.mem_append.1 hd with hd | hd
      · rw [headDeeds_place hd hq]
        exact isTex_mainPlace _ _
      · have hserves : d.Serves (documentsOf s outline none) True :=
          itemsDeeds_serve _ (fun article ha => List.mem_append_left _ (List.mem_map_of_mem ha)) (fun _ _ _ => trivial) d hd
        exact hserves.isTex (isTex_documentsOf outline none) hq
    rw [← hattribution]
    refine (writeAttribution_performs s p w₆).concludes fun p₁ w₇ hlang h₇ => ?_
    refine (writeMain_performs .ending rfl w₇).concludes fun _ w₈ _ h₈ => ?_
    have hfinds : Finds outline s.build images.byText o w head layout s := by
      refine ⟨hcounted, hhead, hs, harticles, ?_⟩
      rw [← hattribution]
      exact hlang
    have hsetup : Performs s.build [.setup s.language p₁.used] (fun _ => True)
        (Work.writeText (languagesFile s.build) (Language.Setup.render s.language p₁.used)) :=
      writeText_performs rfl fun _ _ => rfl
    have hend : Performs s.build [.setup s.language p₁.used] (fun _ => True) (do
        Work.writeText (languagesFile s.build) (Language.Setup.render s.language p₁.used)
        let names := p₁.used.mergeSort fun a b => a ≤ b
        Work.say .info .collection
          ("Wrote LaTeX for " ++ toString names.length ++ " languages: " ++ String.intercalate ", " names)
        return p₁.used) :=
      hsetup.bind_rest fun _ _ => Performs.bind_moves (Work.say_unmoved _ _ _) fun _ _ => Performs.of_pure trivial
    exact (hend w₈).concludes_setup ⟨head, layout, s, hfinds⟩
  · rw [deedsOf, if_neg hcounted]
    have hnone : announceDeeds outline = [] := by
      unfold announceDeeds
      unfold isCounted at hcounted
      split
      · rename_i n hn
        simp [hn, Except.toOption] at hcounted
      · rfl
    have hannounce : PerformsAt build (announceDeeds outline) w (fun _ _ => isCounted outline w = true)
        (announce outline) := announce_performs outline w
    rw [hnone] at hannounce
    exact hannounce.concludes fun _ _ h _ => absurd h hcounted

end WikiTypeset.Collection
