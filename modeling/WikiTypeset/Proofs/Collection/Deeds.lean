import WikiTypeset.Collection.Sources
import WikiTypeset.Proofs.Article.Warnings
import WikiTypeset.Proofs.Conversion.Workshop

/-!
# What writing a collection does

The outline and the stores decide, for every article, the file that it is written to and what it is typeset from: its
own markup, title and language, with the options that all articles share. The articles that are reached are those among
the items, and those among the items of chapters. The outline also determines what is done to write a collection, one
deed after another: what is reported, which lines go to the main file, and which documents to files of their own. A run
does all of it, or, if it fails, the deeds up to some point and nothing else.
-/

namespace WikiTypeset.Collection

open Action Files

/-! ### What the documents of a collection are typeset from -/

/-- What a document is typeset from, and the file that it is written to. -/
structure Rendering where
  file : Path
  markup : String
  options : ArticleOptions
  title? : Option String
  lang : String

def Rendering.result (r : Rendering) : Article.Result :=
  Article.typeset r.markup.toList r.options r.title? (some r.lang) []

def Rendering.latex (r : Rendering) : String := r.result.latex

/-! ### Items -/

def hasType (name : String) (item : Json) : Bool :=
  match Outline.fieldOf item "type" with
  | .ok type => type.same (.text name)
  | .error _ => false

/-- The items of an outline or a chapter; what has none counts as empty. -/
def childrenOf (item : Json) : List Json := (Outline.itemsOf item).toOption.getD []

/-- The articles that an item leads to: itself, or those among the items of a chapter. -/
def articlesOf (item : Json) : List Json :=
  if hasType "article" item then [item]
  else if hasType "chapter" item then (childrenOf item).filter (hasType "article")
  else []

/-- The articles that are reached from an outline, in order. -/
def reached (outline : Json) : List Json := (childrenOf outline).flatMap articlesOf

def revisionOf (item : Json) : Json := (Outline.fieldOf item "revision").toOption.getD .null

/-- The title of an item. -/
def titleOf (item : Json) : String := (Outline.textOf item "title").toOption.getD ""

/-- The title of an item as it stands in the outline. -/
def givenTitle (item : Json) : Json := (Outline.fieldOf item "title").toOption.getD .null

/-! ### Languages -/

/-- The language of an article, as the outline and the store of sites decide it. -/
def languageFor (s : Setting) (wiki : Json) : Except Failure String :=
  match (wikiAt? ((s.outline.field? "wikis").getD .null) wiki).bind (·.field? "baseurl") with
  | none => .ok s.language
  | some address => do
    let site := (← s.sites.value? address).getD .null
    let general ← (fieldIfAny site "general").mapError .shape
    let lang ← (fieldIfAny general "lang").mapError .shape
    if lang.isTruthy then (attributeText lang).mapError .shape else return s.language

theorem asked_moves {α : Type} (x : Outline.Asked α) : MovesWith Workshop.unmoved (fun y => x = .ok y) (asked x) := by
  cases x with
  | ok x => exact MovesWith.of_pure rfl
  | error fault => exact MovesWith.of_throw

theorem got_moves {α : Type} (x : Except Failure α) : MovesWith Workshop.unmoved (fun y => x = .ok y) (got x) := by
  cases x with
  | ok x => exact MovesWith.of_pure rfl
  | error fault => exact MovesWith.of_throw

/-- Looking for the language of an article changes nothing that other work depends on. -/
theorem articleLanguage_moves (s : Setting) (wiki : Json) :
    MovesWith Workshop.unmoved (fun lang => languageFor s wiki = .ok lang) (articleLanguage s wiki) := by
  unfold articleLanguage languageFor
  dsimp only
  cases haddress : (wikiAt? ((s.outline.field? "wikis").getD .null) wiki).bind (·.field? "baseurl") with
  | none => exact (Work.say_unmoved _ _ _).bind fun _ _ => MovesWith.of_pure rfl
  | some address =>
    refine (got_moves _).bind fun site? hsite => (asked_moves _).bind fun general hgeneral => ?_
    refine (asked_moves _).bind fun lang hlang => ?_
    simp only [hsite, hgeneral, hlang, bind, Except.bind, Except.mapError]
    split
    · exact (asked_moves _).mono fun x hx => by rw [hx]
    · exact MovesWith.of_pure rfl

/-! ### Articles -/

def keyOf (item : Json) : Json := .text (documentKey (wikiOf item) (revisionOf item))

def renderingOf (s : Setting) (item : Json) : Rendering where
  file := articleFile s.build (wikiOf item) (revisionOf item)
  markup := (((s.documents.text? (keyOf item)).toOption.join).getD "")
  options := s.options
  title? := some (titleOf item)
  lang := (languageFor s (wikiOf item)).toOption.getD ""

theorem renderingOf_file (s : Setting) (item : Json) :
    (renderingOf s item).file = articleFile s.build (wikiOf item) (revisionOf item) := by
  rw [renderingOf]

/-- All that an article is typeset from is there. -/
structure Setting.Has (s : Setting) (item : Json) : Prop where
  revision : Outline.fieldOf item "revision" = .ok (revisionOf item)
  markup : s.documents.text? (keyOf item) = .ok (some (renderingOf s item).markup)
  title : Outline.textOf item "title" = .ok (titleOf item)
  lang : languageFor s (wikiOf item) = .ok (renderingOf s item).lang

/-- What the attribution is typeset from. -/
def attributionRendering (s : Setting) (markup : String) : Rendering where
  file := (Workspace.latexIn s.build).child "attribution.tex"
  markup
  options := { s.options with isAttribution := true }
  title? := none
  lang := (languageFor s (.int 0)).toOption.getD ""

/-- The text of the attribution, if there is one where the bundle has its own. -/
def attributionText? (build : Path) (w : Workshop) : Option String :=
  (w.entryAt? (attributionFile build)).map fun
    | .file content => Work.plainLines (content.text?.getD "")
    | .directory => ""

/-- The documents of a collection, in the order of their files: the articles, and who wrote them. -/
def documentsOf (s : Setting) (outline : Json) (attribution? : Option String) : List Rendering :=
  (reached outline).map (renderingOf s) ++ (attribution?.map (attributionRendering s)).toList

/-! ### Deeds -/

/-- A line of the main file behind its head. -/
inductive MainLine
  | columns (number : Json)
  | chapter (title : String)
  /-- The command that reads the file of a document. -/
  | input (file : Path)
  | attributions
  | ending

def MainLine.text : MainLine → String
  | columns number => if number.same (.int 1) then "\\onecolumn\n" else "\\twocolumn\n"
  | chapter title => "\\chapter\x7b" ++ Latex.escapeString title ++ "\x7d\n"
  | input file => inputLine file ++ "\n"
  | attributions => "\\attributions\n"
  | ending => "\\end\x7bdocument\x7d"

/-- Something that is done to write a collection. -/
inductive Deed
  | report (r : Progress.Report)
  | head (s : String)
  /-- The main file grows. -/
  | line (l : MainLine)
  /-- The file of a document is made, or emptied. -/
  | clear (file : Path)
  | document (r : Rendering)
  /-- The file is written that sets up the languages. -/
  | setup (language : String) (used : List String)

/-- The text that a tree has at a place. -/
def textAt (t : Tree) (place : List String) : String := ((t.content? place).bind (·.text?)).getD ""

def mainPlace (build : Path) (here : List String) : List String := (mainFile build).resolve here

/-- The place of the file that sets up the languages. -/
def setupPlace (build : Path) (here : List String) : List String := (languagesFile build).resolve here

/-- What a deed makes of a tree. -/
def Deed.act (build : Path) (here : List String) (t : Tree) : Deed → Tree
  | report _ => t
  | head s => t.put (mainPlace build here) (.file (.text s))
  | line l => t.put (mainPlace build here) (.file (.text (textAt t (mainPlace build here) ++ l.text)))
  | clear file => t.put (file.resolve here) (.file (.text ""))
  | document r => t.put (r.file.resolve here) (.file (.text r.latex))
  | setup language used => t.put (setupPlace build here) (.file (.text (Language.Setup.render language used)))

def Deed.report? : Deed → Option Progress.Report
  | report r => some r
  | _ => none

/-- The deeds have been done, one after another, and nothing else that other work depends on. -/
structure Enacts (build : Path) (w : Workshop) (ds : List Deed) (w' : Workshop) : Prop where
  tree : w'.tree = ds.foldl (Deed.act build w.here) w.tree
  here : w'.here = w.here
  freshStem : w'.freshStem = w.freshStem
  watched : w'.watched = w.watched
  reports : w'.reports = w.reports ++ if w.watched then ds.filterMap Deed.report? else []
  directories : ∀ q, w'.tree.isDirectory q = w.tree.isDirectory q

variable {build : Path} {w w₁ w₂ : Workshop} {ds ds' : List Deed}

theorem Enacts.of_unmoved (h : w.Unmoved w₁) : Enacts build w [] w₁ where
  tree := h.tree
  here := h.here
  freshStem := h.freshStem
  watched := h.watched
  reports := by simp [h.reports]
  directories q := by rw [h.tree]

theorem Enacts.append (h : Enacts build w ds w₁) (h' : Enacts build w₁ ds' w₂) : Enacts build w (ds ++ ds') w₂ where
  tree := by rw [h'.tree, h.tree, h.here, List.foldl_append]
  here := h'.here.trans h.here
  freshStem := h'.freshStem.trans h.freshStem
  watched := h'.watched.trans h.watched
  reports := by
    rw [h'.reports, h.reports, h.watched, List.filterMap_append]
    split <;> simp
  directories q := (h'.directories q).trans (h.directories q)

/-! ### Doing deeds -/

/-- From the given workshop, the work does the deeds, and its result is as `Q` says; if it fails, it has done the deeds
up to some point. -/
def PerformsAt {α : Type} (build : Path) (ds : List Deed) (w : Workshop) (Q : α → Workshop → Prop) (a : Work α) : Prop :=
  Leaves a w (fun x w' => Q x w' ∧ Enacts build w ds w') fun _ w' => ∃ done, done <+: ds ∧ Enacts build w done w'

/-- The work does the deeds, and its result is as `Q` says; if it fails, it has done the deeds up to some point. -/
def Performs {α : Type} (build : Path) (ds : List Deed) (Q : α → Prop) (a : Work α) : Prop :=
  ∀ w, PerformsAt build ds w (fun x _ => Q x) a

section Rules

variable {α β : Type} {a : Work α} {f : α → Work β} {Q : α → Prop} {Q' : β → Prop}

theorem PerformsAt.bind {Q : α → Workshop → Prop} {Q' : β → Workshop → Prop} (ha : PerformsAt build ds w Q a)
    (hf : ∀ x w', Q x w' → Enacts build w ds w' → PerformsAt build ds' w' Q' (f x)) :
    PerformsAt build (ds ++ ds') w Q' (a >>= f) := by
  refine Leaves.bind (M := fun x w' => Q x w' ∧ Enacts build w ds w')
    (ha.imp (fun _ _ h => h) fun _ _ h => ?_) fun x w₁ h₁ => ?_
  · obtain ⟨done, hdone, henacts⟩ := h
    exact ⟨done, hdone.trans (List.prefix_append _ _), henacts⟩
  · obtain ⟨hx, h₁⟩ := h₁
    refine (hf x w₁ hx h₁).imp (fun y w₂ h₂ => ⟨h₂.1, h₁.append h₂.2⟩) fun _ w₂ h₂ => ?_
    obtain ⟨done, hdone, h₂⟩ := h₂
    exact ⟨ds ++ done, (List.prefix_append_right_inj ds).2 hdone, h₁.append h₂⟩

theorem PerformsAt.bind_deed {d : Deed} {Q : α → Workshop → Prop} {Q' : β → Workshop → Prop}
    (ha : PerformsAt build [d] w Q a)
    (hf : ∀ x w', Q x w' → Enacts build w [d] w' → PerformsAt build ds w' Q' (f x)) :
    PerformsAt build (d :: ds) w Q' (a >>= f) :=
  ha.bind hf

/-- Work that first does what moves nothing. -/
theorem PerformsAt.bind_unmoved {Q : α → Workshop → Prop} {Q' : β → Workshop → Prop}
    (ha : Leaves a w (fun x w' => Q x w' ∧ w.Unmoved w') fun _ w' => w.Unmoved w')
    (hf : ∀ x w', Q x w' → w.Unmoved w' → PerformsAt build ds w' Q' (f x)) : PerformsAt build ds w Q' (a >>= f) := by
  have hlook : PerformsAt build [] w (fun x w' => Q x w' ∧ w.Unmoved w') a :=
    ha.imp (fun _ _ h => ⟨h, .of_unmoved h.2⟩) fun _ _ h => ⟨[], List.nil_prefix, .of_unmoved h⟩
  exact hlook.bind fun x w' h _ => hf x w' h.1 h.2

theorem PerformsAt.bind_look {Q' : β → Workshop → Prop}
    (ha : Leaves a w (fun x w' => Q x ∧ w' = w) fun _ w' => w' = w)
    (hf : ∀ x, Q x → PerformsAt build ds w Q' (f x)) : PerformsAt build ds w Q' (a >>= f) := by
  have hlook : Leaves a w (fun x w' => (Q x ∧ w' = w) ∧ w.Unmoved w') fun _ w' => w.Unmoved w' :=
    ha.imp (fun _ _ h => ⟨h, h.2 ▸ .refl w⟩) fun _ _ h => h ▸ .refl w
  refine PerformsAt.bind_unmoved hlook fun x w' h _ => ?_
  obtain ⟨hx, rfl⟩ := h
  exact hf x hx

namespace Performs

theorem of_pure {x : α} (hx : Q x) : Performs build [] Q (pure x : Work α) :=
  fun w => Leaves.of_pure ⟨hx, .of_unmoved (.refl w)⟩

theorem of_throw (ds : List Deed) {e : Failure} : Performs build ds Q (throw e : Work α) :=
  fun w => Leaves.of_throw ⟨[], List.nil_prefix, .of_unmoved (.refl w)⟩

/-- Work that moves nothing does no deed. -/
theorem of_moves (h : MovesWith Workshop.unmoved Q a) : Performs build [] Q a :=
  fun w => (h w).imp (fun _ _ h' => ⟨h'.1, .of_unmoved h'.2⟩) fun _ _ h' => ⟨[], List.prefix_rfl, .of_unmoved h'⟩

theorem bind (ha : Performs build ds Q a) (hf : ∀ x, Q x → Performs build ds' Q' (f x)) :
    Performs build (ds ++ ds') Q' (a >>= f) :=
  fun w => (ha w).bind fun x w' hx _ => hf x hx w'

theorem bind_deed {d : Deed} (ha : Performs build [d] Q a) (hf : ∀ x, Q x → Performs build ds Q' (f x)) :
    Performs build (d :: ds) Q' (a >>= f) :=
  ha.bind hf

/-- Work that goes on without another deed. -/
theorem bind_rest (ha : Performs build ds Q a) (hf : ∀ x, Q x → Performs build [] Q' (f x)) :
    Performs build ds Q' (a >>= f) := by
  have h := ha.bind hf
  rwa [List.append_nil] at h

/-- Work that first does something that is no deed. -/
theorem bind_moves (ha : MovesWith Workshop.unmoved Q a) (hf : ∀ x, Q x → Performs build ds Q' (f x)) :
    Performs build ds Q' (a >>= f) :=
  (of_moves ha).bind hf

theorem mono {Q₁ : α → Prop} (h : Performs build ds Q a) (hQ : ∀ x, Q x → Q₁ x) : Performs build ds Q₁ a :=
  fun w => (h w).imp_left fun x _ h' => ⟨hQ x h'.1, h'.2⟩

/-- Work on one item after another, each with deeds of its own. -/
theorem foldlM {γ : Type} {P : α → Prop} {g : α → γ → Work α} {deedsOf : γ → List Deed} {R : γ → Prop} {xs : List γ}
    (hg : ∀ y, P y → ∀ x ∈ xs, Performs build (deedsOf x) (fun y' => P y' ∧ R x) (g y x)) {y : α} (hy : P y) :
    Performs build (xs.flatMap deedsOf) (fun y' => P y' ∧ ∀ x ∈ xs, R x) (xs.foldlM g y) := by
  induction xs generalizing y with
  | nil => exact of_pure ⟨hy, by simp⟩
  | cons x xs ih =>
    rw [List.foldlM_cons, List.flatMap_cons]
    refine (hg y hy x List.mem_cons_self).bind fun y₁ h₁ => ?_
    obtain ⟨hy₁, hx⟩ := h₁
    refine (ih (fun y hy x hx => hg y hy x (List.mem_cons_of_mem _ hx)) hy₁).mono fun y₂ h₂ => ?_
    exact ⟨h₂.1, List.forall_mem_cons.2 ⟨hx, h₂.2⟩⟩

end Performs

end Rules

theorem report_performs (r : Progress.Report) : Performs build [.report r] (fun _ => True) (Work.report r) := by
  intro w
  refine Leaves.get_bind ?_
  by_cases hw : w.watched = true
  · rw [if_pos hw]
    refine Leaves.of_modify ⟨trivial, rfl, rfl, rfl, rfl, ?_, fun _ => rfl⟩
    rw [Workshop.reports_cons, hw]
    rfl
  · rw [if_neg hw]
    refine Leaves.of_pure ⟨trivial, rfl, rfl, rfl, rfl, ?_, fun _ => rfl⟩
    rw [if_neg hw, List.append_nil]

/-- Writing a file is the deed that puts its text where the file is. -/
theorem changeFile_performs {p : Path} {f : Tree → List String → Except FileFault Tree} {d : Deed}
    (hreport : d.report? = none)
    (hf : ∀ here t t', f t (p.resolve here) = .ok t' →
      ∃ c, t.Makes (p.resolve here) (.file c) t' ∧ t' = d.act build here t) :
    Performs build [d] (fun _ => True) (Work.changeFile p f) := by
  intro w
  refine (Work.changeFile_leaves p f w).imp (fun _ w' h => ?_) fun _ w₁ h => ?_
  · obtain ⟨⟨-, htree⟩, hw'⟩ := h
    obtain ⟨c, hmakes, hact⟩ := hf w.here w.tree w'.tree htree
    refine ⟨trivial, hact, ?_, ?_, ?_, ?_, fun q => hmakes.isDirectory_eq⟩
    · rw [hw']
    · rw [hw']
    · rw [hw']
    · rw [hw']
      simp [hreport, Workshop.reports, Workshop.notices]
  · subst h
    exact ⟨[], List.nil_prefix, .of_unmoved (.refl w₁)⟩

theorem writeText_performs {p : Path} {s : String} {d : Deed} (hreport : d.report? = none)
    (hd : ∀ here t, d.act build here t = t.put (p.resolve here) (.file (.text s))) :
    Performs build [d] (fun _ => True) (Work.writeText p s) := by
  refine changeFile_performs hreport fun here t t' h => ⟨.text s, Tree.makes_of_write h, ?_⟩
  rw [hd]
  exact (Tree.makes_of_write h).eq

theorem writeMain_performs {s : String} (l : MainLine) (hs : l.text = s) :
    Performs build [.line l] (fun _ => True) (writeMain build s) := by
  subst hs
  refine changeFile_performs rfl fun here t t' h => ?_
  exact ⟨_, Tree.makes_of_write h, (Tree.makes_of_write h).eq⟩

/-! ### The deeds of a collection -/

def documentDeeds (r : Rendering) : List Deed := [.line (.input r.file), .clear r.file, .document r]

def articleDeeds (s : Setting) (item : Json) : List Deed :=
  .report (.step 1 (some "Processing article") (givenTitle item)) :: documentDeeds (renderingOf s item)

/-- The deeds for who wrote the articles. -/
def attributionDeeds (s : Setting) : Option String → List Deed
  | some markup =>
    .line .attributions :: .report (.step 1 (some "Processing attribution") (.text "")) ::
      documentDeeds (attributionRendering s markup)
  | none => [.report (.step 1 (some "Processing attribution (skipped)") .null)]

/-- The deeds for an item of a chapter, which has to be an article. -/
def childDeeds (s : Setting) (item : Json) : List Deed :=
  if hasType "article" item then articleDeeds s item else []

/-- The number of columns in force after a chapter. -/
def columnsAfter (columns item : Json) : Json :=
  match item.field? "columns" with
  | none => columns
  | some asked => if asked.same columns then columns else asked

/-- The deed that changes the number of columns, if a chapter asks for another than the one in force. -/
def columnsDeeds (columns item : Json) : List Deed :=
  match item.field? "columns" with
  | none => []
  | some asked => if asked.same columns then [] else [.line (.columns asked)]

def chapterDeeds (s : Setting) (columns item : Json) : List Deed :=
  .report (.step 1 (some "Processing chapter") (givenTitle item)) ::
    (columnsDeeds columns item ++ .line (.chapter (titleOf item)) :: (childrenOf item).flatMap (childDeeds s))

/-- The deeds for an item of the collection, and the number of columns in force after it. -/
def itemDeeds (s : Setting) (columns item : Json) : List Deed × Json :=
  if hasType "article" item then (articleDeeds s item, columns)
  else if hasType "chapter" item then (chapterDeeds s columns item, columnsAfter columns item)
  else ([], columns)

def itemsDeeds (s : Setting) : Json → List Json → List Deed
  | _, [] => []
  | columns, item :: items => (itemDeeds s columns item).1 ++ itemsDeeds s (itemDeeds s columns item).2 items

/-- The deeds that open the stage of the collection, which can be told how many items there are. -/
def announceDeeds (outline : Json) : List Deed :=
  match Outline.countItems outline with
  | .ok n =>
    [.report (.stage (n + 1 : Nat) (some "Processing collection") .null), .report (.step 1 none (givenTitle outline))]
  | .error _ => []

/-- The deeds behind the head: the items, who wrote them, and the end of the main file. -/
def bodyDeeds (s : Setting) (columns outline : Json) (attribution? : Option String) : List Deed :=
  itemsDeeds s columns (childrenOf outline) ++ (attributionDeeds s attribution? ++ [.line .ending])

/-! ### The deeds of an article -/

variable {s : Setting}

theorem writeDocument_performs (r : Rendering) :
    Performs build [.document r] (fun used => r.result.outcome = .ok used)
      (writeDocument r.file r.markup r.options r.title? r.lang) := by
  intro w
  obtain ⟨hpieces, hsame⟩ := Article.typeset_eq_of_warned r.markup.toList r.options r.title? (some r.lang) w.warned
  have houtcome : (Article.typeset r.markup.toList r.options r.title? (some r.lang) w.warned).outcome =
      r.result.outcome := hsame
  have hlatex : (Article.typeset r.markup.toList r.options r.title? (some r.lang) w.warned).latex = r.latex := by
    rw [Article.Result.latex, hpieces]
    rfl
  have hwrite : Performs build [.document r] (fun _ => True) (Work.writeText r.file r.latex) :=
    writeText_performs rfl fun _ _ => rfl
  refine Leaves.get_bind ?_
  dsimp only
  rw [hlatex, houtcome]
  refine Performs.bind_moves (Work.modify_unmoved fun w => ?_) (fun _ _ => ?_) w
  · exact ⟨rfl, rfl, rfl, rfl, rfl⟩
  · refine Performs.bind_moves (Work.note_unmoved _) fun _ _ => hwrite.bind_rest fun _ _ => ?_
    cases r.result.outcome with
    | ok used => exact Performs.of_pure rfl
    | error e => exact Performs.of_throw []

/-- Progress that has the given number of columns in force. -/
abbrev InForce (columns : Json) (p : Progress) : Prop := p.columns = columns

theorem writeArticle_performs {p : Progress} {columns : Json} (hp : InForce columns p) (item : Json) :
    Performs s.build (articleDeeds s item) (fun p' => InForce columns p' ∧ s.Has item) (writeArticle s p item) := by
  unfold writeArticle
  refine Performs.bind_moves (asked_moves _) fun revision hrevision => ?_
  refine Performs.bind_moves (asked_moves _) fun title htitle => ?_
  obtain rfl : revisionOf item = revision := by simp [revisionOf, hrevision, Except.toOption]
  obtain rfl : givenTitle item = title := by simp [givenTitle, htitle, Except.toOption]
  dsimp only
  rw [← renderingOf_file]
  refine (report_performs _).bind_deed fun _ _ => ?_
  refine Performs.bind_moves (got_moves _) fun markup? hmarkup => ?_
  cases markup? with
  | none => exact Performs.of_throw _
  | some markup =>
    have hkey : s.documents.text? (keyOf item) = .ok (some markup) := hmarkup
    obtain rfl : (renderingOf s item).markup = markup := by simp [renderingOf, hkey, Except.toOption]
    refine (writeMain_performs (.input (renderingOf s item).file) rfl).bind_deed fun _ _ => ?_
    have hclear : Performs s.build [.clear (renderingOf s item).file] (fun _ => True)
        (Work.writeText (renderingOf s item).file "") := writeText_performs rfl fun _ _ => rfl
    refine hclear.bind_deed fun _ _ => ?_
    refine Performs.bind_moves (articleLanguage_moves s _) fun lang hlang => ?_
    refine Performs.bind_moves (asked_moves _) fun text htext => ?_
    obtain rfl : (renderingOf s item).lang = lang := by simp [renderingOf, hlang, Except.toOption]
    obtain rfl : titleOf item = text := by simp [titleOf, htext, Except.toOption]
    refine (writeDocument_performs (renderingOf s item)).bind_rest fun used _ => ?_
    exact Performs.of_pure ⟨hp, hrevision, hkey, htext, hlang⟩

theorem hasType_of_ok {item type : Json} (h : Outline.fieldOf item "type" = .ok type) (name : String) :
    hasType name item = type.same (.text name) := by
  unfold hasType
  rw [h]

theorem writeChild_performs {p : Progress} {columns : Json} (hp : InForce columns p) (item : Json) :
    Performs s.build (childDeeds s item) (fun p' => InForce columns p' ∧ (hasType "article" item = true → s.Has item))
      (writeChild s p item) := by
  unfold writeChild childDeeds
  refine Performs.bind_moves (asked_moves _) fun type htype => ?_
  rw [hasType_of_ok htype]
  split
  · exact (writeArticle_performs hp item).mono fun p' h => ⟨h.1, fun _ => h.2⟩
  · rename_i hother
    exact Performs.bind_moves (Work.say_unmoved _ _ _) fun _ _ => Performs.of_pure ⟨hp, fun h => absurd h hother⟩

theorem switchColumns_performs {p : Progress} {columns : Json} (hp : InForce columns p) (item : Json) :
    Performs s.build (columnsDeeds columns item) (InForce (columnsAfter columns item)) (switchColumns s p item) := by
  subst hp
  unfold switchColumns columnsDeeds columnsAfter
  cases item.field? "columns" with
  | none => exact Performs.of_pure rfl
  | some columns =>
    dsimp only
    split
    · exact Performs.of_pure rfl
    · exact (writeMain_performs (.columns columns) rfl).bind_rest fun _ _ => Performs.of_pure rfl

theorem writeChapter_performs {p : Progress} {columns : Json} (hp : InForce columns p) (item : Json) :
    Performs s.build (chapterDeeds s columns item)
      (fun p' => InForce (columnsAfter columns item) p' ∧
        ∀ child ∈ childrenOf item, hasType "article" child = true → s.Has child) (writeChapter s p item) := by
  unfold writeChapter
  refine Performs.bind_moves (asked_moves _) fun title htitle => ?_
  obtain rfl : givenTitle item = title := by simp [givenTitle, htitle, Except.toOption]
  refine (report_performs _).bind_deed fun _ _ => (switchColumns_performs hp item).bind fun p₁ hp₁ => ?_
  refine Performs.bind_moves (asked_moves _) fun text htext => ?_
  obtain rfl : titleOf item = text := by simp [titleOf, htext, Except.toOption]
  refine (writeMain_performs (.chapter (titleOf item)) rfl).bind_deed fun _ _ => ?_
  refine Performs.bind_moves (asked_moves _) fun children hchildren => ?_
  obtain rfl : childrenOf item = children := by simp [childrenOf, hchildren, Except.toOption]
  exact Performs.foldlM (fun p hp child _ => writeChild_performs hp child) hp₁

/-! ### Collections -/

theorem writeItem_performs {p : Progress} {columns : Json} (hp : InForce columns p) (item : Json) :
    Performs s.build (itemDeeds s columns item).1
      (fun p' => InForce (itemDeeds s columns item).2 p' ∧ ∀ article ∈ articlesOf item, s.Has article)
      (writeItem s p item) := by
  unfold writeItem itemDeeds articlesOf
  refine Performs.bind_moves (asked_moves _) fun type htype => ?_
  rw [hasType_of_ok htype, hasType_of_ok htype]
  split
  · refine (writeArticle_performs hp item).mono fun p' h => ⟨h.1, ?_⟩
    simpa using h.2
  · split
    · refine (writeChapter_performs hp item).mono fun p' h => ⟨h.1, fun article harticle => ?_⟩
      obtain ⟨hchild, htype⟩ := List.mem_filter.1 harticle
      exact h.2 article hchild htype
    · exact Performs.bind_moves (Work.say_unmoved _ _ _) fun _ _ => Performs.of_pure ⟨hp, by simp⟩

theorem writeItems_performs {p : Progress} {columns : Json} (hp : InForce columns p) (items : List Json) :
    Performs s.build (itemsDeeds s columns items)
      (fun _ => ∀ article ∈ items.flatMap articlesOf, s.Has article) (items.foldlM (writeItem s) p) := by
  induction items generalizing p columns with
  | nil => exact Performs.of_pure (by simp)
  | cons item items ih =>
    rw [List.foldlM_cons]
    refine (writeItem_performs hp item).bind fun p₁ h₁ => (ih h₁.1).mono fun _ h₂ => ?_
    intro article harticle
    rw [List.flatMap_cons, List.mem_append] at harticle
    rcases harticle with harticle | harticle
    · exact h₁.2 article harticle
    · exact h₂ article harticle

end WikiTypeset.Collection
