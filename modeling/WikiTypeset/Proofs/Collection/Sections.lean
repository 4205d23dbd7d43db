import WikiTypeset.Proofs.Article.Origins
import WikiTypeset.Proofs.Article.Skeleton
import WikiTypeset.Proofs.Collection.Course
import WikiTypeset.Proofs.Formula.Reader

/-!
# Chapters and the document class

A document that is the whole collection has headings of all levels but the highest: nothing that it writes opens a
chapter, whether or not its typesetting comes to an end. The class of articles has no chapters. It is chosen for a
collection without chapters that has one item at most, and then neither the main file nor the file of a document opens a
chapter, whether or not the run succeeds. Main statement: `run_unchaptered`.
-/

namespace WikiTypeset.Article

open Action Html Latex Typeset

/-- The fragment begins with the command of a chapter. -/
def OpensChapter (value : String) : Prop := "\\chapter".toList <+: value.toList

instance (value : String) : Decidable (OpensChapter value) := inferInstanceAs (Decidable (_ <+: _))

/-- Of two ways to begin, neither of which goes on as the other, a text has one at most. -/
theorem not_opensChapter_of_starts {s : List Char} (hs : ¬ s <+: "\\chapter".toList) (hs' : ¬ "\\chapter".toList <+: s)
    {value : String} (h : s <+: value.toList) : ¬ OpensChapter value := by
  intro hchapter
  rcases List.prefix_or_prefix_of_prefix h hchapter with hshort | hlong
  · exact hs hshort
  · exact hs' hlong

theorem IsContent.not_opensChapter {value : String} (h : IsContent value) : ¬ OpensChapter value := by
  obtain ⟨s, hs, hstarts⟩ := h.starts
  have hshorter : ∀ s ∈ contentStarts, ¬ s <+: "\\chapter".toList := by decide
  have hlonger : ∀ s ∈ contentStarts, ¬ "\\chapter".toList <+: s := by decide
  exact not_opensChapter_of_starts (hshorter s hs) (hlonger s hs) hstarts

theorem itemMark_not_opensChapter (reference? : Option (Nat × String)) : ¬ OpensChapter (itemMark reference?) := by
  have hstarts : "\\item".toList <+: (itemMark reference?).toList := by
    have hitem := isItem_itemMark reference?
    rw [isItem] at hitem
    exact List.isPrefixOf_iff_prefix.1 hitem
  exact not_opensChapter_of_starts (by decide) (by decide) hstarts

variable {k : Source} {codes : List String}

/-- A document that is the whole collection is given no fragment that opens a chapter. -/
theorem Sourced.not_opensChapter (hsingle : k.options.singleItem = true) {value : String}
    (h : Sourced k codes .raw value) : ¬ OpensChapter value := by
  cases h with
  | content hcontent => exact hcontent.not_opensChapter
  | style hstyle =>
    have hall : ∀ value ∈ styleFragments, ¬ OpensChapter value := by decide
    exact hall value hstyle
  | argument hmark hlevel =>
    have hall : ∀ value ∈ argumentMarks, value ≠ shortOpening "chapter" → ¬ OpensChapter value := by decide
    exact hall value hmark (hlevel hsingle)
  | item => exact itemMark_not_opensChapter none
  | reference he number => exact itemMark_not_opensChapter _
  | font _ hcommand => exact not_opensChapter_of_starts (by decide) (by decide) (ltrFontCommand_starts hcommand)

/-- None of the pieces opens a chapter. -/
def WithoutChapters (pieces : List Piece) : Prop := ∀ value, .fragment value ∈ pieces → ¬ OpensChapter value

theorem withoutChapters_of_draws {e : Emitter} (h : e.Draws (supply k codes)) (hsingle : k.options.singleItem = true) :
    WithoutChapters e.output := by
  intro value hvalue
  have hfrom : Sourced k codes .raw value := h.written _ (List.mem_reverse.1 hvalue)
  exact hfrom.not_opensChapter hsingle

/-- What is written of a document that is the whole collection opens no chapter, also if its typesetting fails. -/
theorem typeset_withoutChapters (markup : List Char) (options : ArticleOptions) (title? language? : Option String)
    (warned : List String) (hsingle : options.singleItem = true) :
    WithoutChapters (typeset markup options title? language? warned).pieces := by
  cases hparsed : Html.document markup with
  | error cause =>
    intro value hvalue
    simp [typeset, hparsed] at hvalue
  | ok document =>
    have hbase : (options.withBase (baseReference document)).singleItem = true := by
      rw [ArticleOptions.withBase]
      split
      · exact hsingle
      · exact hsingle
    rw [typeset_eq hparsed]
    have horigins := typesetDocument_origins document title? (articleLanguage options language?)
      (options.withBase (baseReference document)) (.known (options.withBase (baseReference document)).direction) warned
    rcases hperform : (typesetDocument document title? (articleLanguage options language?)).perform
      (start (options.withBase (baseReference document))
        (.known (options.withBase (baseReference document)).direction) warned) with ⟨c | _, t⟩
    · obtain ⟨-, hdraws⟩ := horigins.error hperform
      exact withoutChapters_of_draws hdraws hbase
    · obtain ⟨-, hdraws⟩ := horigins.ok hperform
      exact withoutChapters_of_draws hdraws hbase

end WikiTypeset.Article

namespace WikiTypeset.Collection

open Action Article Files

variable {build : Path} {here : List String} {w w' : Workshop} {s : Setting} {ds : List Deed} {t t₀ : Tree}
variable {outline : Json} {o : ConversionOptions} {head : String} {layout : Layout} {rs : List Rendering}

/-! ### The class of articles -/

theorem className_eq_article_iff {singleItem : Bool} : Header.className singleItem = "article" ↔ singleItem = true := by
  cases singleItem with
  | false => decide
  | true => decide

theorem isChapter_of_anyM {items : List Json} (h : items.anyM Header.isChapter = .ok false) :
    ∀ item ∈ items, Header.isChapter item = .ok false := by
  induction items with
  | nil => exact List.forall_mem_nil _
  | cons item items ih =>
    rw [List.anyM] at h
    cases hitem : Header.isChapter item with
    | error fault =>
      rw [hitem] at h
      cases h
    | ok found =>
      cases found with
      | true =>
        rw [hitem] at h
        cases h
      | false =>
        rw [hitem] at h
        exact List.forall_mem_cons.2 ⟨hitem, ih h⟩

theorem hasType_of_isChapter {item : Json} (h : Header.isChapter item = .ok false) : hasType "chapter" item = false := by
  unfold Header.isChapter at h
  unfold hasType
  cases htype : Outline.fieldOf item "type" with
  | error fault => rfl
  | ok type =>
    rw [htype] at h
    exact Except.ok.inj h

theorem layout_of_ofOutline (h : Header.ofOutline outline build o = .ok (head, layout)) :
    Header.layout outline (childrenOf outline) o = .ok layout := by
  obtain ⟨items, hitems, h⟩ := Formula.exists_of_bind h
  obtain ⟨found, hlayout, h⟩ := Formula.exists_of_bind h
  obtain ⟨title, -, h⟩ := Formula.exists_of_bind h
  obtain ⟨subtitle?, -, h⟩ := Formula.exists_of_bind h
  obtain ⟨summary?, -, h⟩ := Formula.exists_of_bind h
  have hchildren : childrenOf outline = items := by simp [childrenOf, hitems, Except.toOption]
  rw [hchildren, hlayout]
  simp only [pure, Except.pure, Except.ok.injEq, Prod.mk.injEq] at h
  rw [h.2]

/-- What has the class of articles has no chapters among its items. -/
theorem no_chapter_of_singleItem (hhead : Header.ofOutline outline build o = .ok (head, layout))
    (hsingle : layout.singleItem = true) : ¬ ∃ item ∈ childrenOf outline, hasType "chapter" item = true := by
  rintro ⟨item, hitem, hchapter⟩
  obtain ⟨columns, -, h⟩ := Formula.exists_of_bind (layout_of_ofOutline hhead)
  obtain ⟨hasChapters, hany, h⟩ := Formula.exists_of_bind h
  obtain ⟨named, -, h⟩ := Formula.exists_of_bind h
  obtain rfl := Except.ok.inj h
  have hno : hasChapters = false := by
    have hboth : (!hasChapters && decide ((childrenOf outline).length ≤ 1)) = true := hsingle
    simpa using (Bool.and_eq_true_iff.1 hboth).1
  rw [hno] at hany
  rw [hasType_of_isChapter (isChapter_of_anyM hany item hitem)] at hchapter
  cases hchapter

/-! ### Texts without chapters -/

/-- A text that grows behind the head by lines that name no chapter, or the text of a document that opens none, or the
set-up of the languages; and what any of them grows to by such lines. -/
inductive Unchaptered (head : String) (rs : List Rendering) : String → Prop
  | head : Unchaptered head rs head
  | empty : Unchaptered head rs ""
  | document {r : Rendering} (hr : r ∈ rs) (h : WithoutChapters r.result.pieces) : Unchaptered head rs r.latex
  | setup (language : String) (used : List String) : Unchaptered head rs (Language.Setup.render language used)
  | line {s : String} {l : MainLine} (h : Unchaptered head rs s) (hl : ∀ title, l ≠ .chapter title) :
    Unchaptered head rs (s ++ l.text)

/-- What has changed is texts without chapters. -/
def ChangedWithout (head : String) (rs : List Rendering) (t t' : Tree) : Prop :=
  ∀ q, t'.entry q = t.entry q ∨ ∃ s, t'.entry q = some (.file (.text s)) ∧ Unchaptered head rs s

/-- The main file holds a text without chapters. -/
def MainWithout (head : String) (rs : List Rendering) (build : Path) (here : List String) (t : Tree) : Prop :=
  ∃ s, t.entry (mainPlace build here) = some (.file (.text s)) ∧ Unchaptered head rs s

theorem ChangedWithout.put {p : List String} {text : String} (h : ChangedWithout head rs t₀ t) (hp : p ≠ [])
    (htext : Unchaptered head rs text) : ChangedWithout head rs t₀ (t.put p (.file (.text text))) := by
  intro q
  by_cases hq : q = p
  · rw [hq, Tree.entry_put_self hp]
    exact Or.inr ⟨text, rfl, htext⟩
  · rw [Tree.entry_put_of_ne hq]
    exact h q

theorem MainWithout.put {p : List String} {text : String} (h : MainWithout head rs build here t)
    (htext : Unchaptered head rs text) : MainWithout head rs build here (t.put p (.file (.text text))) := by
  by_cases hp : mainPlace build here = p
  · subst hp
    exact ⟨text, Tree.entry_put_self mainPlace_ne_nil, htext⟩
  · obtain ⟨s, hs, hun⟩ := h
    exact ⟨s, (Tree.entry_put_of_ne hp).trans hs, hun⟩

theorem ne_nil_of_isTex {q : List String} (h : Path.IsTex q) : q ≠ [] := by
  obtain ⟨name, hname⟩ := h
  rintro rfl
  cases hname

/-- The text that a deed behind the head writes names no chapter. -/
theorem Deed.Serves.unchaptered {chapters : Prop} {d : Deed} (hd : d.Serves rs chapters) (hno : ¬ chapters)
    (hrs : ∀ r ∈ rs, WithoutChapters r.result.pieces) (hmain : MainWithout head rs build here t) {q : List String}
    (hq : d.place? build here = some q) :
    ∃ text, d.act build here t = t.put q (.file (.text text)) ∧ Unchaptered head rs text := by
  cases hd with
  | report r => cases hq
  | @line l hl =>
    obtain rfl := Option.some.inj hq
    obtain ⟨s, hs, hun⟩ := hmain
    have htext : textAt t (mainPlace build here) = s := by simp [textAt, Tree.content?, hs, Content.text?]
    refine ⟨s ++ l.text, ?_, hun.line fun title h => hno (hl title h)⟩
    rw [← htext]
    rfl
  | clear hr =>
    obtain rfl := Option.some.inj hq
    exact ⟨"", rfl, .empty⟩
  | document hr =>
    obtain rfl := Option.some.inj hq
    exact ⟨_, rfl, .document hr (hrs _ hr)⟩
  | setup language used =>
    obtain rfl := Option.some.inj hq
    exact ⟨_, rfl, .setup language used⟩

/-- Behind the head, deeds without chapters write texts without chapters only. -/
theorem changedWithout_foldl {chapters : Prop} (hds : ∀ d ∈ ds, d.Serves rs chapters) (hno : ¬ chapters)
    (hrs : ∀ r ∈ rs, WithoutChapters r.result.pieces ∧ Path.IsTex (r.file.resolve here))
    (hmain : MainWithout head rs build here t) (h : ChangedWithout head rs t₀ t) :
    ChangedWithout head rs t₀ (ds.foldl (Deed.act build here) t) := by
  induction ds generalizing t with
  | nil => exact h
  | cons d ds ih =>
    rw [List.forall_mem_cons] at hds
    obtain ⟨hd, hds⟩ := hds
    rw [List.foldl_cons]
    cases hplace : d.place? build here with
    | none =>
      have hsame : d.act build here t = t := by
        cases hd with
        | report r => rfl
        | _ => cases hplace
      rw [hsame]
      exact ih hds hmain h
    | some q =>
      obtain ⟨text, hact, htext⟩ := hd.unchaptered hno (fun r hr => (hrs r hr).1) hmain hplace
      have hq : q ≠ [] := ne_nil_of_isTex (hd.isTex (fun r hr => (hrs r hr).2) hplace)
      rw [hact]
      exact ih hds (hmain.put htext) (h.put hq htext)

/-! ### Runs -/

theorem settingOf_singleItem {images : List (String × String)}
    (h : settingOf outline build images o layout w = some s) : s.options.singleItem = layout.singleItem := by
  unfold settingOf at h
  split at h
  · cases h
    rfl
  · cases h

theorem documentsOf_withoutChapters (hsingle : s.options.singleItem = true) (attribution? : Option String) :
    ∀ r ∈ documentsOf s outline attribution?, WithoutChapters r.result.pieces := by
  intro r hr
  have hoptions : r.options.singleItem = true := by
    rcases List.mem_append.1 hr with hr | hr
    · obtain ⟨article, -, rfl⟩ := List.mem_map.1 hr
      exact hsingle
    · obtain ⟨markup, -, rfl⟩ : ∃ markup, attribution? = some markup ∧ attributionRendering s markup = r := by
        simpa [Option.map_eq_some_iff] using hr
      exact hsingle
  exact typeset_withoutChapters _ _ _ _ _ hoptions

theorem ChangedWithout.refl (t : Tree) : ChangedWithout head rs t t := fun _ => Or.inl rfl

/-- Whatever is done of a run in the class of articles, up to some point, leaves texts without chapters. -/
theorem done_unchaptered {images : List (String × String)} {language : String} {used : List String} {done : List Deed}
    (hhead : Header.ofOutline outline build o = .ok (head, layout)) (hsingle : layout.singleItem = true)
    (hdone : done <+: deedsOf outline build images o w ++ [.setup language used]) :
    ChangedWithout head (documentsAt outline build images o layout w) w.tree
      (done.foldl (Deed.act build w.here) w.tree) := by
  by_cases hcounted : isCounted outline w = true
  · rcases done_cases hhead hcounted hdone with hannounce | ⟨body, rfl, hbody⟩
    · intro q
      left
      refine entry_foldl_act fun d hd hplace => ?_
      obtain ⟨r, rfl⟩ := announceDeeds_report (hannounce.subset hd)
      cases hplace
    · rw [List.foldl_append, foldl_announceDeeds, List.foldl_cons]
      refine changedWithout_foldl hbody (no_chapter_of_singleItem hhead hsingle) (fun r hr => ?_)
        ⟨head, Tree.entry_put_self mainPlace_ne_nil, .head⟩ ((ChangedWithout.refl w.tree).put mainPlace_ne_nil .head)
      unfold documentsAt at hr
      split at hr
      · rename_i s hs
        have hsame := settingOf_singleItem hs
        exact ⟨documentsOf_withoutChapters (hsame.trans hsingle) _ r hr, isTex_documentsOf outline _ r hr⟩
      · cases hr
  · -- nothing can be done but the last, which opens no chapter
    rw [deedsOf, if_neg hcounted, List.nil_append] at hdone
    have hsetup : ChangedWithout head (documentsAt outline build images o layout w) w.tree
        (w.tree.put (setupPlace build w.here) (.file (.text (Language.Setup.render language used)))) :=
      (ChangedWithout.refl w.tree).put (ne_nil_of_isTex (isTex_setupPlace build w.here)) (.setup language used)
    cases done with
    | nil => exact .refl w.tree
    | cons d done =>
      obtain ⟨left, hleft⟩ := hdone
      rw [List.cons_append, List.cons.injEq] at hleft
      obtain ⟨rfl, hleft⟩ := hleft
      obtain ⟨rfl, -⟩ := List.append_eq_nil_iff.1 hleft
      exact hsetup

/-- In the class of articles, all that a run changes are texts without chapters, whether or not it succeeds. -/
theorem run_unchaptered {images : Media.ImageMap} (hhead : Header.ofOutline outline build o = .ok (head, layout))
    (hclass : Header.className layout.singleItem = "article") (w : Workshop) :
    ChangedWithout head (documentsAt outline build images.byText o layout w) w.tree
      ((writeSources outline build images o).perform w).2.tree := by
  have hsingle := className_eq_article_iff.1 hclass
  have hconcludes := writeSources_concludes outline build images o w
  rcases hrun : (writeSources outline build images o).perform w with ⟨e | used, w'⟩
  · obtain ⟨language, used, done, hdone, henacts⟩ := hconcludes.error hrun
    show ChangedWithout head _ w.tree w'.tree
    rw [henacts.tree]
    exact done_unchaptered hhead hsingle hdone
  · obtain ⟨-, language, used, henacts⟩ := hconcludes.ok hrun
    show ChangedWithout head _ w.tree w'.tree
    rw [henacts.tree]
    exact done_unchaptered hhead hsingle List.prefix_rfl

/-- An outline of one article. -/
def soleOutline : Json :=
  .object [("items", .list [.object [("type", .text "article"), ("title", .text "A"), ("revision", .int 1)]])]

/-- A build directory with an article that has a heading of the highest level. -/
def soleWorkshop : Workshop where
  tree := ⟨[(["build"], .directory), (["build", "latex"], .directory), (["build", "bundle"], .directory),
    (["build", "bundle", "parsoid.db"], .file (.rows [("1", "<h1>T</h1>")])),
    (["build", "bundle", "siteinfo.db"], .file (.rows []))]⟩
  here := []
  temporary := ⟨"/", []⟩

set_option maxRecDepth 100000 in
/-- A run that succeeds for one article with a heading of the highest level. -/
theorem soleArticle_unchaptered :
    ∃ head layout,
      Header.ofOutline soleOutline ⟨"/", ["build"]⟩ { bundle := ⟨"/", []⟩ } = .ok (head, layout) ∧
        Header.className layout.singleItem = "article" ∧
        ((writeSources soleOutline ⟨"/", ["build"]⟩ [] { bundle := ⟨"/", []⟩ }).perform soleWorkshop).1.toOption =
          some ["en"] ∧
        ChangedWithout head
          (documentsAt soleOutline ⟨"/", ["build"]⟩ [] { bundle := ⟨"/", []⟩ } layout soleWorkshop) soleWorkshop.tree
          ((writeSources soleOutline ⟨"/", ["build"]⟩ [] { bundle := ⟨"/", []⟩ }).perform soleWorkshop).2.tree := by
  have hclass : ((Header.ofOutline soleOutline ⟨"/", ["build"]⟩ { bundle := ⟨"/", []⟩ }).toOption.map fun found =>
      Header.className found.2.singleItem) = some "article" := by decide +kernel
  cases hhead : Header.ofOutline soleOutline ⟨"/", ["build"]⟩ { bundle := ⟨"/", []⟩ } with
  | error fault =>
    rw [hhead] at hclass
    cases hclass
  | ok found =>
    obtain ⟨head, layout⟩ := found
    rw [hhead] at hclass
    have harticle : Header.className layout.singleItem = "article" := Option.some.inj hclass
    refine ⟨head, layout, rfl, harticle, ?_, run_unchaptered hhead harticle soleWorkshop⟩
    decide +kernel

end WikiTypeset.Collection
