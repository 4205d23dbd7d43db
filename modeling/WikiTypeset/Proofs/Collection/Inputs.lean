import WikiTypeset.Proofs.Collection.Course

/-!
# What the main file reads

The main file reads the files of the documents in their order: one for each article that is reached, and one that tells
who wrote them. Such a file is named for the wiki and the revision of its article, while what it holds depends on the
title and the language too; of the documents that are written to one file, the last prevails. Main statement:
`inputs_hold_iff`.
-/

namespace WikiTypeset.Collection

open Action Files

variable {build : Path} {here : List String} {w w' : Workshop} {s : Setting} {ds ds' : List Deed} {t : Tree}
variable {rs rs' : List Rendering}

/-- The file that a line of the main file reads. -/
def MainLine.input? : MainLine → Option Path
  | input file => some file
  | _ => none

/-- The line that a deed adds to the main file. -/
def Deed.line? : Deed → Option MainLine
  | line l => some l
  | _ => none

/-- The files that the main file reads after some deeds. -/
def inputsOf (ds : List Deed) : List Path := (ds.filterMap Deed.line?).filterMap MainLine.input?

/-- What stands at a place after documents have been written to their files, one after another. -/
def heldAt (here q : List String) (rs : List Rendering) (e : Option Entry) : Option Entry :=
  rs.foldl (fun e r => if r.file.resolve here = q then some (.file (.text r.latex)) else e) e

/-! ### The last document of a file -/

theorem heldAt_of_apart {q : List String} {e : Option Entry} (h : ∀ r ∈ rs, r.file.resolve here ≠ q) :
    heldAt here q rs e = e := by
  induction rs generalizing e with
  | nil => rfl
  | cons r rs ih =>
    rw [List.forall_mem_cons] at h
    unfold heldAt at ih ⊢
    rw [List.foldl_cons, if_neg h.1]
    exact ih h.2

theorem heldAt_append {q : List String} {e : Option Entry} :
    heldAt here q (rs ++ rs') e = heldAt here q rs' (heldAt here q rs e) :=
  List.foldl_append

/-- The last document of a file is the one that it holds. -/
theorem heldAt_last {before after : List Rendering} {r : Rendering} {e : Option Entry}
    (h : ∀ r' ∈ after, r'.file.resolve here ≠ r.file.resolve here) :
    heldAt here (r.file.resolve here) (before ++ r :: after) e = some (.file (.text r.latex)) := by
  have hself : heldAt here (r.file.resolve here) [r] (heldAt here (r.file.resolve here) before e) =
      some (.file (.text r.latex)) := if_pos rfl
  rw [List.append_cons, heldAt_append, heldAt_of_apart h, heldAt_append, hself]

theorem heldAt_cases (q : List String) (rs : List Rendering) (e : Option Entry) :
    (heldAt here q rs e = e ∧ ∀ r ∈ rs, r.file.resolve here ≠ q) ∨
      ∃ r ∈ rs, r.file.resolve here = q ∧ heldAt here q rs e = some (.file (.text r.latex)) := by
  induction rs generalizing e with
  | nil => exact Or.inl ⟨rfl, List.forall_mem_nil _⟩
  | cons r rs ih =>
    have hcons : heldAt here q (r :: rs) e =
        heldAt here q rs (if r.file.resolve here = q then some (.file (.text r.latex)) else e) := rfl
    rcases ih (if r.file.resolve here = q then some (.file (.text r.latex)) else e) with ⟨hheld, hapart⟩ | hlater
    · by_cases hr : r.file.resolve here = q
      · rw [if_pos hr] at hheld hcons
        exact Or.inr ⟨r, List.mem_cons_self, hr, hcons.trans hheld⟩
      · rw [if_neg hr] at hheld hcons
        exact Or.inl ⟨hcons.trans hheld, List.forall_mem_cons.2 ⟨hr, hapart⟩⟩
    · obtain ⟨r', hr', hplace, hheld⟩ := hlater
      exact Or.inr ⟨r', List.mem_cons_of_mem r hr', hplace, hcons.trans hheld⟩

/-- Each file holds its own documents exactly if documents of one file have the same LaTeX. -/
theorem heldAt_own_iff (here : List String) (e : List String → Option Entry) :
    (∀ r ∈ rs, heldAt here (r.file.resolve here) rs (e (r.file.resolve here)) = some (.file (.text r.latex))) ↔
      ∀ r ∈ rs, ∀ r' ∈ rs, r.file.resolve here = r'.file.resolve here → r.latex = r'.latex := by
  constructor
  · intro h r hr r' hr' hplace
    have hheld := h r hr
    rw [hplace, h r' hr'] at hheld
    simpa using hheld.symm
  · intro h r hr
    rcases heldAt_cases (r.file.resolve here) rs (e (r.file.resolve here)) with ⟨-, hapart⟩ | ⟨r', hr', hplace, hheld⟩
    · exact absurd rfl (hapart r hr)
    · rw [hheld, h r hr r' hr' hplace.symm]

/-! ### Deeds that write documents -/

/-- The deeds write the documents, and the main file reads them in that order. -/
structure Renders (build : Path) (here : List String) (ds : List Deed) (rs : List Rendering) : Prop where
  inputs : inputsOf ds = rs.map Rendering.file
  entry : ∀ t q, q ≠ mainPlace build here → (ds.foldl (Deed.act build here) t).entry q = heldAt here q rs (t.entry q)

namespace Renders

theorem append (h : Renders build here ds rs) (h' : Renders build here ds' rs') :
    Renders build here (ds ++ ds') (rs ++ rs') where
  inputs := by
    have hinputs : inputsOf (ds ++ ds') = inputsOf ds ++ inputsOf ds' := by
      simp only [inputsOf, List.filterMap_append]
    rw [hinputs, h.inputs, h'.inputs, List.map_append]
  entry t q hq := by rw [List.foldl_append, h'.entry _ q hq, h.entry t q hq, heldAt_append]

/-- Deeds that touch the main file only, and make it read nothing. -/
theorem of_main (hinputs : inputsOf ds = []) (h : ∀ d ∈ ds, ∀ q, d.place? build here = some q → q = mainPlace build here) :
    Renders build here ds [] where
  inputs := hinputs
  entry _ q hq := entry_foldl_act fun d hd hplace => hq (h d hd q hplace)

theorem nil : Renders build here [] [] := of_main rfl (List.forall_mem_nil _)

theorem report (r : Progress.Report) : Renders build here [.report r] [] := by
  refine of_main rfl fun d hd q hq => ?_
  obtain rfl := List.mem_singleton.1 hd
  cases hq

theorem line {l : MainLine} (hl : l.input? = none) : Renders build here [.line l] [] := by
  refine of_main ?_ fun d hd q hq => ?_
  · simp [inputsOf, Deed.line?, hl]
  · obtain rfl := List.mem_singleton.1 hd
    exact (Option.some.inj hq).symm

theorem document {r : Rendering} (hr : Path.IsTex (r.file.resolve here)) : Renders build here (documentDeeds r) [r] where
  inputs := rfl
  entry t q hq := by
    have hne : r.file.resolve here ≠ [] := by
      obtain ⟨name, hname⟩ := hr
      intro hnil
      rw [hnil] at hname
      cases hname
    simp only [documentDeeds, List.foldl_cons, List.foldl_nil, Deed.act, heldAt]
    by_cases hplace : r.file.resolve here = q
    · subst hplace
      rw [Tree.entry_put_self hne, if_pos rfl]
    · have hne : q ≠ r.file.resolve here := fun h => hplace h.symm
      rw [Tree.entry_put_of_ne hne, Tree.entry_put_of_ne hne, Tree.entry_put_of_ne hq, if_neg hplace]

end Renders

theorem articleDeeds_render (item : Json) : Renders build here (articleDeeds s item) [renderingOf s item] :=
  (Renders.report _).append (Renders.document (isTex_renderingOf s item))

theorem attributionDeeds_render (attribution? : Option String) :
    Renders build here (attributionDeeds s attribution?) (attribution?.map (attributionRendering s)).toList := by
  cases attribution? with
  | none => exact Renders.report _
  | some markup =>
    have hdocument : Renders build here (documentDeeds (attributionRendering s markup))
        [attributionRendering s markup] := Renders.document (isTex_attributionRendering s markup)
    exact (Renders.line rfl).append ((Renders.report _).append hdocument)

theorem childrenDeeds_render (children : List Json) :
    Renders build here (children.flatMap (childDeeds s))
      ((children.filter (hasType "article")).map (renderingOf s)) := by
  induction children with
  | nil => exact Renders.nil
  | cons child children ih =>
    rw [List.flatMap_cons, childDeeds]
    by_cases htype : hasType "article" child = true
    · rw [if_pos htype, List.filter_cons_of_pos htype]
      exact (articleDeeds_render child).append ih
    · rw [if_neg htype, List.filter_cons_of_neg htype]
      exact ih

theorem columnsDeeds_render (columns item : Json) : Renders build here (columnsDeeds columns item) [] := by
  unfold columnsDeeds
  split
  · exact Renders.nil
  · split
    · exact Renders.nil
    · exact Renders.line rfl

theorem chapterDeeds_render (columns item : Json) :
    Renders build here (chapterDeeds s columns item)
      (((childrenOf item).filter (hasType "article")).map (renderingOf s)) := by
  have hchapter : Renders build here [.line (.chapter (titleOf item))] [] := Renders.line rfl
  exact (Renders.report _).append
    ((columnsDeeds_render columns item).append (hchapter.append (childrenDeeds_render (childrenOf item))))

theorem itemDeeds_render (columns item : Json) :
    Renders build here (itemDeeds s columns item).1 ((articlesOf item).map (renderingOf s)) := by
  unfold itemDeeds articlesOf
  by_cases harticle : hasType "article" item = true
  · rw [if_pos harticle, if_pos harticle]
    exact articleDeeds_render item
  · rw [if_neg harticle, if_neg harticle]
    by_cases hchapter : hasType "chapter" item = true
    · rw [if_pos hchapter, if_pos hchapter]
      exact chapterDeeds_render columns item
    · rw [if_neg hchapter, if_neg hchapter]
      exact Renders.nil

theorem itemsDeeds_render (columns : Json) (items : List Json) :
    Renders build here (itemsDeeds s columns items) ((items.flatMap articlesOf).map (renderingOf s)) := by
  induction items generalizing columns with
  | nil => exact Renders.nil
  | cons item items ih =>
    rw [itemsDeeds, List.flatMap_cons, List.map_append]
    exact (itemDeeds_render columns item).append (ih _)

theorem bodyDeeds_render (columns outline : Json) (attribution? : Option String) :
    Renders build here (bodyDeeds s columns outline attribution?) (documentsOf s outline attribution?) := by
  have hending : Renders build here [.line .ending] [] := Renders.line rfl
  have hlast : Renders build here (attributionDeeds s attribution? ++ [.line .ending])
      (attribution?.map (attributionRendering s)).toList := by
    have h := (attributionDeeds_render (s := s) attribution?).append hending
    rwa [List.append_nil] at h
  exact (itemsDeeds_render columns (childrenOf outline)).append hlast

/-! ### The main file -/

/-- What the main file holds grows by the lines, as long as no document is written to it. -/
theorem main_entry {chapters : Prop} {head : String} (hds : ∀ d ∈ ds, d.Serves rs chapters)
    (hrs : ∀ r ∈ rs, r.file.resolve here ≠ mainPlace build here)
    (ht : t.entry (mainPlace build here) = some (.file (.text head))) :
    (ds.foldl (Deed.act build here) t).entry (mainPlace build here) =
      some (.file (.text (head ++ String.join ((ds.filterMap Deed.line?).map MainLine.text)))) := by
  induction ds generalizing t head with
  | nil => simpa using ht
  | cons d ds ih =>
    rw [List.forall_mem_cons] at hds
    obtain ⟨hd, hds⟩ := hds
    rw [List.foldl_cons]
    have hstays : ∀ {r e}, r ∈ rs → (t.put (r.file.resolve here) e).entry (mainPlace build here) =
        some (.file (.text head)) := by
      intro r e hr
      rw [Tree.entry_put_of_ne fun h => hrs r hr h.symm, ht]
    cases hd with
    | report r => exact ih hds ht
    | @line l _ =>
      have hgrows : ((Deed.line l).act build here t).entry (mainPlace build here) =
          some (.file (.text (head ++ l.text))) := by
        rw [Deed.act, Tree.entry_put_self mainPlace_ne_nil]
        simp [textAt, Tree.content?, ht, Content.text?]
      rw [ih hds hgrows]
      simp [Deed.line?, String.join_cons, String.append_assoc]
    | clear hr => exact ih hds (hstays hr)
    | document hr => exact ih hds (hstays hr)
    | setup language used => exact ih hds ((Tree.entry_put_of_ne mainPlace_ne_setupPlace).trans ht)

/-! ### Runs -/

/-- No document is written to the main file, nor to the set-up of the languages. -/
def KeptApart (build : Path) (here : List String) (rs : List Rendering) : Prop :=
  ∀ r ∈ rs, r.file.resolve here ≠ mainPlace build here ∧ r.file.resolve here ≠ setupPlace build here

/-- Behind its head, the main file reads the files of the documents, in order, and no other file. -/
def ReadsAll (t : Tree) (build : Path) (here : List String) (head : String) (rs : List Rendering) : Prop :=
  ∃ lines : List MainLine,
    t.content? (mainPlace build here) = some (.text (head ++ String.join (lines.map MainLine.text))) ∧
      lines.filterMap MainLine.input? = rs.map Rendering.file

/-- The file of a document holds its LaTeX. -/
def Holds (t : Tree) (here : List String) (r : Rendering) : Prop :=
  t.content? (r.file.resolve here) = some (.text r.latex)

theorem content?_eq_iff {q : List String} {c : Content} : t.content? q = some c ↔ t.entry q = some (.file c) := by
  unfold Tree.content?
  split
  · rename_i h
    simp [h]
  · rename_i h
    constructor
    · intro hnone
      cases hnone
    · intro hentry
      exact absurd hentry (h c)

/-- What a run that succeeds leaves at each place but that of the set-up. -/
theorem entry_of_run {outline : Json} {head language : String} {used : List String} {columns : Json}
    {attribution? : Option String}
    (h : Enacts build w (announceDeeds outline ++ .head head :: bodyDeeds s columns outline attribution? ++
      [.setup language used]) w') {q : List String} (hq : q ≠ setupPlace build w.here) :
    w'.tree.entry q = ((bodyDeeds s columns outline attribution?).foldl (Deed.act build w.here)
      (w.tree.put (mainPlace build w.here) (.file (.text head)))).entry q := by
  have hannounce : (announceDeeds outline).foldl (Deed.act build w.here) w.tree = w.tree := by
    unfold announceDeeds
    split <;> rfl
  rw [h.tree, List.foldl_append, List.foldl_append, hannounce]
  exact Tree.entry_put_of_ne hq

/-- The main file reads the documents in their order, behind its head. Of the documents of one file, the last prevails;
so all documents can be read exactly if those of one file are the same. -/
theorem inputs_hold_iff {outline : Json} {build : Path} {images : Media.ImageMap} {o : ConversionOptions}
    {w w' : Workshop} {used : List String}
    (hrun : (writeSources outline build images o).perform w = (.ok used, w')) :
    ∃ head layout s, Finds outline build images.byText o w head layout s ∧
      ∀ rs, rs = documentsOf s outline (attributionText? build w) → KeptApart build w.here rs →
        ReadsAll w'.tree build w.here head rs ∧
        (∀ before r after, rs = before ++ r :: after →
          (∀ r' ∈ after, r'.file.resolve w.here ≠ r.file.resolve w.here) → Holds w'.tree w.here r) ∧
        ((∀ r ∈ rs, Holds w'.tree w.here r) ↔
          ∀ r ∈ rs, ∀ r' ∈ rs, r.file.resolve w.here = r'.file.resolve w.here → r.latex = r'.latex) := by
  obtain ⟨⟨head, layout, s, hfinds⟩, language, used, henacts⟩ := (writeSources_concludes outline build images o w).ok hrun
  refine ⟨head, layout, s, hfinds, ?_⟩
  intro rs hrs hapart
  rw [hfinds.deedsOf_eq] at henacts
  have hserve : ∀ d ∈ bodyDeeds s (.int layout.columns) outline (attributionText? build w),
      d.Serves rs (∃ item ∈ childrenOf outline, hasType "chapter" item = true) := by
    rw [hrs]
    exact bodyDeeds_serve s _ outline _
  have hrenders : Renders build w.here (bodyDeeds s (.int layout.columns) outline (attributionText? build w)) rs := by
    rw [hrs]
    exact bodyDeeds_render _ outline _
  have hmain : w'.tree.entry (mainPlace build w.here) = some (.file (.text (head ++ String.join
      (((bodyDeeds s (.int layout.columns) outline (attributionText? build w)).filterMap Deed.line?).map
        MainLine.text)))) := by
    rw [entry_of_run henacts mainPlace_ne_setupPlace]
    exact main_entry hserve (fun r hr => (hapart r hr).1) (Tree.entry_put_self mainPlace_ne_nil)
  have hheld : ∀ r ∈ rs, w'.tree.entry (r.file.resolve w.here) =
      heldAt w.here (r.file.resolve w.here) rs (w.tree.entry (r.file.resolve w.here)) := by
    intro r hr
    obtain ⟨hmain, hsetup⟩ := hapart r hr
    rw [entry_of_run henacts hsetup, hrenders.entry _ _ hmain, Tree.entry_put_of_ne hmain]
  refine ⟨⟨_, content?_eq_iff.2 hmain, hrenders.inputs⟩, ?_, ?_⟩
  · intro before r after heq hlast
    have hr : r ∈ rs := by
      rw [heq]
      exact List.mem_append_right before List.mem_cons_self
    rw [Holds, content?_eq_iff, hheld r hr, heq]
    exact heldAt_last hlast
  · rw [← heldAt_own_iff w.here w.tree.entry]
    refine forall₂_congr fun r hr => ?_
    rw [Holds, content?_eq_iff, hheld r hr]

/-- An article without a wiki of its own. -/
def articleItem (title : String) (revision : Int) : Json :=
  .object [("type", .text "article"), ("title", .text title), ("revision", .int revision)]

/-- An outline of two articles with the given revisions. -/
def pairOutline (first second : Int) : Json := .object [("items", .list [articleItem "A" first, articleItem "B" second])]

def pairBuild : Path := ⟨"/", ["build"]⟩

/-- A build directory with the texts of two revisions. -/
def pairWorkshop : Workshop where
  tree := ⟨[(["build"], .directory), (["build", "latex"], .directory), (["build", "bundle"], .directory),
    (["build", "bundle", "parsoid.db"], .file (.rows [("1", "x"), ("2", "y")])),
    (["build", "bundle", "siteinfo.db"], .file (.rows []))]⟩
  here := []
  temporary := ⟨"/", []⟩

theorem documentsOf_pair (s : Setting) (first second : Int) :
    documentsOf s (pairOutline first second) none =
      [renderingOf s (articleItem "A" first), renderingOf s (articleItem "B" second)] := rfl

theorem place_articleItem (hbuild : s.build = pairBuild) (title : String) (revision : Int) :
    (renderingOf s (articleItem title revision)).file.resolve [] =
      (articleFile pairBuild (.int 0) (.int revision)).resolve [] := by
  have hwiki : wikiOf (articleItem title revision) = .int 0 := rfl
  have hrevision : revisionOf (articleItem title revision) = .int revision := rfl
  rw [renderingOf_file, hwiki, hrevision, hbuild]

set_option maxRecDepth 100000 in
/-- Two revisions have a file each, and the main file reads both. -/
theorem twoRevisions_hold :
    ∃ used w' head s,
      (writeSources (pairOutline 1 2) pairBuild [] { bundle := ⟨"/", []⟩ }).perform pairWorkshop = (.ok used, w') ∧
        KeptApart pairBuild [] (documentsOf s (pairOutline 1 2) none) ∧
        ReadsAll w'.tree pairBuild [] head (documentsOf s (pairOutline 1 2) none) ∧
        ∀ r ∈ documentsOf s (pairOutline 1 2) none, Holds w'.tree [] r := by
  have hok : ((writeSources (pairOutline 1 2) pairBuild [] { bundle := ⟨"/", []⟩ }).perform pairWorkshop).1.toOption =
      some ["en"] := by decide +kernel
  rcases hrun : (writeSources (pairOutline 1 2) pairBuild [] { bundle := ⟨"/", []⟩ }).perform pairWorkshop with
    ⟨e | used, w'⟩
  · rw [hrun] at hok
    cases hok
  · obtain ⟨head, layout, s, hfinds, hreads⟩ := inputs_hold_iff hrun
    have hnone : attributionText? pairBuild pairWorkshop = none := by decide +kernel
    have hbuild : s.build = pairBuild := settingOf_build hfinds.setting
    have hfirst := place_articleItem hbuild "A" 1
    have hsecond := place_articleItem hbuild "B" 2
    have hapart : KeptApart pairBuild [] (documentsOf s (pairOutline 1 2) none) := by
      intro r hr
      rw [documentsOf_pair, List.mem_cons, List.mem_singleton] at hr
      rcases hr with rfl | rfl
      · rw [hfirst]
        decide +kernel
      · rw [hsecond]
        decide +kernel
    obtain ⟨hall, -, hown⟩ := hreads _ (by rw [hnone]) hapart
    refine ⟨used, w', head, s, rfl, hapart, hall, hown.2 fun r hr r' hr' hplace => ?_⟩
    have hdiffer : (articleFile pairBuild (.int 0) (.int 1)).resolve [] ≠
        (articleFile pairBuild (.int 0) (.int 2)).resolve [] := by decide +kernel
    rw [documentsOf_pair, List.mem_cons, List.mem_singleton] at hr hr'
    rcases hr with rfl | rfl
    · rcases hr' with rfl | rfl
      · rfl
      · exact absurd (hfirst.symm.trans (hplace.trans hsecond)) hdiffer
    · rcases hr' with rfl | rfl
      · exact absurd (hfirst.symm.trans (hplace.symm.trans hsecond)) hdiffer
      · rfl

set_option maxRecDepth 100000 in
/-- Two articles of one revision have one file; it holds the second, whose title is not that of the first. -/
theorem oneRevision_overwritten :
    ∃ used w' layout s,
      (writeSources (pairOutline 1 1) pairBuild [] { bundle := ⟨"/", []⟩ }).perform pairWorkshop = (.ok used, w') ∧
        settingOf (pairOutline 1 1) pairBuild [] { bundle := ⟨"/", []⟩ } layout pairWorkshop = some s ∧
        renderingOf s (articleItem "A" 1) ∈ documentsOf s (pairOutline 1 1) (attributionText? pairBuild pairWorkshop) ∧
        ¬ Holds w'.tree [] (renderingOf s (articleItem "A" 1)) := by
  have hok : ((writeSources (pairOutline 1 1) pairBuild [] { bundle := ⟨"/", []⟩ }).perform pairWorkshop).1.toOption =
      some ["en"] := by decide +kernel
  have hfile : (((writeSources (pairOutline 1 1) pairBuild [] { bundle := ⟨"/", []⟩ }).perform pairWorkshop).2.tree.content?
      ["build", "latex", "0-1.tex"]).bind (·.text?) = some "\\chapter[B]\x7bB\x7d\n\nx\n\n" := by decide +kernel
  have hlatex : (((Header.ofOutline (pairOutline 1 1) pairBuild { bundle := ⟨"/", []⟩ }).toOption.bind fun found =>
      settingOf (pairOutline 1 1) pairBuild [] { bundle := ⟨"/", []⟩ } found.2 pairWorkshop).map fun s =>
        (renderingOf s (articleItem "A" 1)).latex) = some "\\chapter[A]\x7bA\x7d\n\nx\n\n" := by decide +kernel
  have hnone : attributionText? pairBuild pairWorkshop = none := by decide +kernel
  rcases hrun : (writeSources (pairOutline 1 1) pairBuild [] { bundle := ⟨"/", []⟩ }).perform pairWorkshop with
    ⟨e | used, w'⟩
  · rw [hrun] at hok
    cases hok
  · rw [hrun] at hfile
    obtain ⟨⟨head, layout, s, hfinds⟩, -⟩ := (writeSources_concludes _ _ _ _ _).ok hrun
    have hbuild : s.build = pairBuild := settingOf_build hfinds.setting
    have hplace := place_articleItem hbuild "A" 1
    have hA : (renderingOf s (articleItem "A" 1)).latex = "\\chapter[A]\x7bA\x7d\n\nx\n\n" := by
      have hsetting : settingOf (pairOutline 1 1) pairBuild [] { bundle := ⟨"/", []⟩ } layout pairWorkshop = some s :=
        hfinds.setting
      rw [hfinds.head] at hlatex
      simp only [Except.toOption, Option.bind_some, hsetting, Option.map_some] at hlatex
      exact Option.some.inj hlatex
    refine ⟨used, w', layout, s, rfl, hfinds.setting, ?_, fun hholds => ?_⟩
    · rw [hnone, documentsOf_pair]
      exact List.mem_cons_self
    · rw [Holds, hplace, hA] at hholds
      have hnames : (articleFile pairBuild (.int 0) (.int 1)).resolve [] = ["build", "latex", "0-1.tex"] := by
        decide +kernel
      rw [hnames] at hholds
      simp [hholds, Content.text?] at hfile

end WikiTypeset.Collection
