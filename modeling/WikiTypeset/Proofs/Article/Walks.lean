import WikiTypeset.Proofs.Article.Passages

/-!
# Walks are tame

Lists, formulas and figures are tame as running text is. By induction on the bound of its depth, so is every walk: it
keeps to the source, comes back to its frame, and is never stopped by the bound. Main statement: `visitFrom_tame`.
-/

namespace WikiTypeset.Article

open Action Html Latex Typeset

variable {k : Source} {H n : Nat} {visit : Visit} {codes : List String} {f : Frame} {p : Place}

/-! ### Lists -/

theorem beginEnvironment_tame {env : String} (henv : env ∈ plainEnvironments) (options : String) :
    Tame k codes f (emit (Emit.beginEnv env options)) :=
  Tame.emit fun _ _ => steady_beginEnv (.environment henv options)

theorem endEnvironment_tame {env : String} (henv : env ∈ plainEnvironments) :
    Tame k codes f (emit (Emit.endEnv env)) :=
  Tame.emit fun _ _ => steady_endEnv (.environmentEnd henv)

theorem visitEnvironment_tame (h : Ready k H n visit codes f p) : Tame k codes f (visitEnvironment visit p) :=
  (beginEnvironment_tame (blockEnvironment_mem _) "").bind fun _ => (visitChildren_tame h).bind fun _ =>
    endEnvironment_tame (blockEnvironment_mem _)

theorem mark_tame {value : String} (h : Sourced k codes .raw value) : Tame k codes f (mark value) :=
  (Tame.fragment h).bind fun _ => (Tame.emit fun _ _ => steady_writeHeld).bind fun _ =>
    Tame.emit fun _ _ => steady_resetLine

theorem emptyItem_tame : Tame k codes f emptyItem := mark_tame .item

/-- Leaving a list, the list around it is the one that was before. -/
theorem leaveList {saved : ListContext} (h : saved.kind? = f.kind?) (kind : ListKind) :
    Reframes (fun t => { t with list := saved }) (f.within kind) f := by
  refine ⟨fun _ => rfl, fun _ => rfl, fun t ht => ?_, fun _ _ hdraws => hdraws⟩
  have hchange : Typesetter.frame { t with list := saved } = { t.frame with kind? := saved.kind? } := rfl
  rw [hchange, ht, h]
  rfl

/-- Entering a list. -/
theorem enterList (kind : ListKind) : Reframes (fun t => { t with list := { kind? := some kind } }) f (f.within kind) :=
  ⟨fun _ => rfl, fun _ => rfl, fun _ ht => ht ▸ rfl, fun _ _ hdraws => hdraws⟩

theorem visitList_tame (h : Ready k H n visit codes f p) : Tame k codes f (visitList visit p) := by
  unfold visitList
  split
  · exact Leads.of_pure ()
  · rename_i first _
    refine (beginEnvironment_tame (blockEnvironment_mem _) "").bind fun _ => Leads.get_bind fun t _ hframe => ?_
    have hsaved : t.list.kind? = f.kind? := congrArg Frame.kind? hframe
    have hbody : ∀ kind, Tame k codes ((f.within kind).deeper 1) (do
        unless startsWith "li" first do emptyItem
        visitChildren visit p
        emit (Emit.endEnv (blockEnvironment p.element.name))) := by
      intro kind
      have hready : Ready k H n visit codes ((f.within kind).deeper 1) p := h.congr rfl rfl rfl
      have hitems := (visitChildren_tame hready).bind fun _ =>
        endEnvironment_tame (blockEnvironment_mem p.element.name)
      split
      · exact hitems
      · exact Leads.bind emptyItem_tame fun _ => hitems
    exact Leads.bind (Leads.of_modify (enterList _)) fun _ => Tame.inList (hbody _) (leaveList hsaved _)

theorem visitListItem_tame (h : Ready k H n visit codes f p) : Tame k codes f (visitListItem visit p) := by
  have hitem : Tame k codes f (do emit Emit.envBreak; emptyItem; visitChildren visit p) :=
    (Tame.emit fun _ _ => steady_envBreak).bind fun _ => Leads.bind emptyItem_tame fun _ => visitChildren_tame h
  refine Leads.get_bind fun t _ _ => ?_
  split
  · exact hitem
  · exact hitem
  · exact visitParagraph_tame h

/-! ### Formulas -/

theorem setFormula_tame (display : Bool) {output : String} (h : ∃ s, output = "\x7b" ++ s ++ "\x7d") :
    Tame k codes f (setFormula display output) := by
  unfold setFormula
  split
  · exact (beginEnvironment_tame (by decide) "").bind fun _ => (Tame.fragment (.content (.inr (.inl h)))).bind fun _ =>
      endEnvironment_tame (by decide)
  · exact (Tame.fragment (.content (.inl ⟨output, rfl⟩))).bind fun _ => Tame.emit fun _ _ => steady_envBreak

theorem visitMath_tame (display : Bool) {e : Element} (he : k.element e) : Tame k codes f (visitMath display e) := by
  unfold visitMath
  refine (Tame.emit fun _ _ => steady_envBreak).bind fun _ => ?_
  refine (Tame.note (e.metadata "data-mw").2).bind fun _ => ?_
  split
  · exact Tame.say _ _
  · rename_i data source hsource
    obtain ⟨data', hdata, hpath⟩ := Option.bind_eq_some_iff.1 hsource
    obtain ⟨source', hpath, hpair⟩ := Option.map_eq_some_iff.1 hpath
    cases hpair
    split
    · rename_i hcheck
      exact Leads.of_throw (.element he (.formula hdata hpath hcheck)) rfl
    · exact Tame.say _ _
    · rename_i hcheck
      refine Leads.get_bind fun t _ _ => ?_
      split
      · exact setFormula_tame _ (output_isContent hcheck)
      · exact Tame.say _ _

/-! ### Terms and definitions -/

/-- A change of what a list has shown so far. -/
theorem sawTerm_tame (b : Bool) :
    Tame k codes f (modify fun t : Typesetter => { t with list := { t.list with sawTerm := b } }) :=
  Leads.of_modify ⟨fun _ => rfl, fun _ => rfl, fun _ ht => ht, fun _ _ hdraws => hdraws⟩

/-- The formulas that a list only indents are below the list. -/
theorem indentedFormulas_within (h : p.Bears k.toStock H) {formulas : List Place}
    (hf : indentedFormulas? p = some formulas) : ∀ q ∈ formulas, k.element q.element := by
  unfold indentedFormulas? at hf
  split at hf
  · cases hf
  · intro q hq
    obtain ⟨item, hitem, hsole⟩ := mem_of_mapM_some hf q hq
    have hbears := (h.child (Place.isParent_of_mem_children hitem)).1
    unfold soleFormula? at hsole
    split at hsole
    · rename_i q' hchildren
      split at hsole
      · cases hsole
        refine (hbears.child (Place.isParent_of_mem_children ?_)).2
        rw [hchildren]
        exact List.mem_singleton_self _
      · cases hsole
    · cases hsole

/-- What stands in a list of terms and definitions, up to its end. -/
theorem descriptions_tame (h : Ready k H n visit codes f p) (empty : Bool) {env : String}
    (henv : env ∈ plainEnvironments) : Tame k codes f (do
      if empty then
        emptyItem
        modify fun t => { t with list := { t.list with sawTerm := true } }
      visitChildren visit p
      emit (Emit.endEnv env)) := by
  have hitems := (visitChildren_tame h).bind fun _ => endEnvironment_tame henv
  split
  · exact Leads.bind emptyItem_tame fun _ => (sawTerm_tame true).bind fun _ => hitems
  · exact hitems

theorem visitDescriptionList_tame (h : Ready k H n visit codes f p) :
    Tame k codes f (visitDescriptionList visit p) := by
  unfold visitDescriptionList
  split
  · exact Leads.of_pure ()
  · dsimp only
    split
    · rename_i formulas hformulas
      refine Tame.forM fun q hq => visitMath_tame true (indentedFormulas_within h.bears ?_ q hq)
      split at hformulas
      · cases hformulas
      · exact hformulas
    · refine Leads.get_bind fun t _ hframe => Leads.bind (Leads.of_modify (enterList _)) fun _ => ?_
      have hback : ∀ kind : ListKind, Reframes (fun t' => { t' with list := t.list }) (f.within kind) f :=
        leaveList (congrArg Frame.kind? hframe)
      refine Leads.get_bind fun t₁ _ _ => Tame.finishing ?_ (hback _)
      refine (beginEnvironment_tame (definitionEnvironment_mem _ _) "").bind fun _ => ?_
      split
      · have hready : Ready k H n visit codes ((f.within ListKind.terms).deeper 1) p := h.congr rfl rfl rfl
        refine Tame.inList (descriptions_tame hready _ (definitionEnvironment_mem _ _)) ?_
        exact ⟨fun _ => rfl, fun _ => rfl, fun _ ht => ht, fun _ _ hdraws => hdraws⟩
      · have hready : Ready k H n visit codes (f.within ListKind.indent) p := h.congr rfl rfl rfl
        exact descriptions_tame hready _ (definitionEnvironment_mem _ _)

theorem visitTerm_tame (h : Ready k H n visit codes f p) : Tame k codes f (visitTerm visit p) := by
  have hbreak : Tame k codes f (emit Emit.dirBreak) := Tame.emit fun _ _ => steady_writeHeld
  have hlast : Tame k codes f (do
      fragment "]"
      emit Emit.dirBreak
      modify fun t => { t with list := { t.list with sawTerm := true } }) :=
    (Tame.fragment (.argument (by decide) fun _ => by decide)).bind fun _ => hbreak.bind fun _ => sawTerm_tame true
  have htext : ∀ {rest : Typeset Unit}, Tame k codes f rest → Tame k codes f (do
      emit Emit.dirBreak
      emit Emit.resetLine
      visitChildren visit p
      emit Emit.dirBreak
      rest) := fun hrest =>
    hbreak.bind fun _ => (Tame.emit fun _ _ => steady_resetLine).bind fun _ => (visitChildren_tame h).bind fun _ =>
      hbreak.bind fun _ => hrest
  refine Leads.get_bind fun t _ _ => ?_
  split
  · exact visitParagraph_tame h
  · refine (sawTerm_tame false).bind fun _ => (Tame.emit fun _ _ => steady_envBreak).bind fun _ => ?_
    refine (Tame.fragment (.argument (by decide) fun _ => by decide)).bind fun _ => ?_
    split
    · exact (Tame.fragment (.argument (by decide) fun _ => by decide)).bind fun _ =>
        htext ((Tame.fragment (.argument (by decide) fun _ => by decide)).bind fun _ => hlast)
    · exact htext hlast

theorem visitDefinition_tame (h : Ready k H n visit codes f p) : Tame k codes f (visitDefinition visit p) := by
  refine Leads.get_bind fun t _ _ => ?_
  split
  · exact visitParagraph_tame h
  · split
    · exact visitChildren_tame h
    · split
      · exact visitChildren_tame h
      · exact (Tame.emit fun _ _ => steady_envBreak).bind fun _ => Leads.bind emptyItem_tame fun _ => visitChildren_tame h

/-! ### Reference lists -/

theorem visitReferencesFrom_tame (number : Nat) {ps : List Place}
    (h : ∀ q ∈ ps, Ready k H n visit codes f q ∧ k.element q.element) :
    Tame k codes f (visitReferencesFrom visit number ps) := by
  induction ps generalizing number with
  | nil => exact Leads.of_pure ()
  | cons q qs ih =>
    obtain ⟨⟨hready, he⟩, hqs⟩ := List.forall_mem_cons.1 h
    exact (Tame.emit fun _ _ => steady_envBreak).bind fun _ => (mark_tame (.reference he number)).bind fun _ =>
      (visitChildren_tame hready).bind fun _ => ih (number + 1) hqs

theorem visitReferences_tame (h : Ready k H n visit codes f p) : Tame k codes f (visitReferences visit p) := by
  have hinner : Ready k H n visit codes (f.deeper 1) p := h.congr rfl rfl rfl
  unfold visitReferences
  dsimp only
  split
  · exact Leads.of_pure ()
  · refine (beginEnvironment_tame (by decide) "").bind fun _ => Tame.inList ?_ ?_
    · refine (Tame.fragment (.style (by decide))).bind fun _ => ?_
      refine (visitReferencesFrom_tame (n := n) (H := H) 1 fun q hq => ?_).bind fun _ => endEnvironment_tame (by decide)
      have hq := Place.isParent_of_mem_children hq
      exact ⟨hinner.child hq, (h.bears.child hq).2⟩
    · exact ⟨fun _ => rfl, fun _ => rfl, fun _ ht => ht, fun _ _ hdraws => hdraws⟩

/-! ### Figures -/

theorem visitCaption_tame (h : Ready k H n visit codes f p) : Tame k codes f (visitCaption visit p) := by
  have hstyle : Sourced k codes .raw "\\small\\itshape\n" := .style (by decide)
  refine Leads.get_bind fun t _ hframe => Leads.lookup_bind ?_
  subst hframe
  dsimp only
  split
  · exact (beginLanguage_tame h.language).bind fun _ => (updateLtrFont_tame h.language).bind fun _ =>
      (assumeDirection_tame _).bind fun _ => (Tame.fragment hstyle).bind fun _ => (visitChildren_tame h).bind fun _ =>
      (endLanguage_tame h.language).bind fun _ => assumeDirection_tame _
  · exact (Tame.fragment hstyle).bind fun _ => (visitChildren_tame h).bind fun _ => Leads.of_pure ()

theorem setFigure_tame (filename : String) {caption? : Option Place}
    (h : ∀ caption, caption? = some caption → Ready k H n visit codes f caption) :
    Tame k codes f (setFigure visit filename caption?) := by
  refine (beginEnvironment_tame (by decide) "tbh!").bind fun _ => (beginEnvironment_tame (by decide) "").bind fun _ => ?_
  refine (Tame.fragment (.content (.inr (.inr ⟨_, rfl⟩)))).bind fun _ => (endEnvironment_tame (by decide)).bind fun _ => ?_
  cases caption? with
  | none => exact endEnvironment_tame (by decide)
  | some caption => exact (visitCaption_tame (h caption rfl)).bind fun _ => endEnvironment_tame (by decide)

/-- The image of a figure is an element below it. -/
theorem imageIn_spec {img : Element} (hp : p.Bears k.toStock H) (h : imageIn? p = some img) :
    k.element img ∧ img.name = "img" := by
  unfold imageIn? at h
  obtain ⟨q, hq, rfl⟩ := Option.map_eq_some_iff.1 h
  obtain ⟨hbelow, hholds⟩ := List.mem_filter.1 (List.mem_of_mem_head? hq)
  refine ⟨(hp.descendant hbelow).2, ?_⟩
  simp [Selector.holds, ElementTest.holds] at hholds
  exact hholds.1

theorem pageFile_tame {e : Element} (he : k.element e) (filename : String) :
    Tame k codes f (pageFile e filename) := by
  unfold pageFile
  rcases hdata : e.metadata "data-parsoid" with ⟨data?, log⟩
  refine (Tame.note log).bind fun _ => ?_
  dsimp only
  cases hpage : pageAsked data? with
  | error cause =>
    obtain rfl := pageAsked_error hpage
    exact Leads.throw_bind (.element he (.imageOptions (hdata ▸ hpage))) rfl
  | ok page =>
    refine (Leads.of_pure _).bind fun page => Leads.get_bind fun t _ _ => ?_
    split
    · split
      · exact (Tame.say _ _).bind fun _ => Leads.of_pure _
      · exact Leads.of_pure _
    · exact Leads.of_pure _

/-- A figure, outside of which is none. -/
theorem outerFigure_tame (h : Ready k H n visit codes f p) (hf : f.inFloat = false) (filename : String)
    {caption? : Option Place} (hc : ∀ caption, caption? = some caption → caption.Bears k.toStock H) :
    Tame k codes f (do
      modify fun t => { t with inFloat := true }
      Action.finishing (setFigure visit filename caption?) (modify fun t => { t with inFloat := false })) := by
  have hset : Tame k codes f.floating (setFigure visit filename caption?) :=
    setFigure_tame filename fun caption hcaption => h.floating hf (hc caption hcaption)
  have hfloat : Reframes (fun t => { t with inFloat := true }) f f.floating :=
    ⟨fun _ => rfl, fun _ => rfl, fun _ ht => ht ▸ rfl, fun _ _ hdraws => hdraws⟩
  refine Leads.bind (Leads.of_modify hfloat) fun _ => hset.finishing ?_
  refine ⟨fun _ => rfl, fun _ => rfl, fun t ht => ?_, fun _ _ hdraws => hdraws⟩
  have hchange : Typesetter.frame { t with inFloat := false } = { t.frame with inFloat := false } := rfl
  rw [hchange, ht, ← hf]
  rfl

/-- A figure may stand anywhere around a place that its depth suffices for. -/
theorem visitFigure_tame (h : Ready k H n visit codes f p) {q : Place} (hq : q.Bears k.toStock H)
    (he : k.element q.element) {otherCaption? : Option Place}
    (hother : ∀ caption, otherCaption? = some caption → caption.Bears k.toStock H) :
    Tame k codes f (visitFigure visit q otherCaption?) := by
  have hcaption : ∀ caption, (q.children.find? (·.element.name == "figcaption") <|> otherCaption?) = some caption →
      caption.Bears k.toStock H := by
    intro caption hcaption
    cases hown : q.children.find? (·.element.name == "figcaption") with
    | none => exact hother caption (by rwa [hown] at hcaption)
    | some own =>
      obtain rfl : own = caption := by
        rw [hown] at hcaption
        exact Option.some.inj hcaption
      exact (hq.child (Place.isParent_of_mem_children (List.mem_of_find?_eq_some hown))).1
  unfold visitFigure
  split
  · exact Leads.of_pure ()
  · rename_i img himg
    obtain ⟨hin, hname⟩ := imageIn_spec hq himg
    refine Leads.get_bind fun t hoptions hframe => ?_
    rw [hoptions]
    refine resolved_bind (fun url _ => ?_) (fun cause hcause => .element hin (.image hname hcause)) rfl
    dsimp only
    split
    · exact Tame.say _ _
    · split
      · exact Tame.say _ _
      · split
        · exact Tame.say _ _
        · rename_i hfloat
          have hf : f.inFloat = false := by
            rw [← hframe]
            exact Bool.eq_false_iff.2 hfloat
          split
          · exact (pageFile_tame he _).bind fun filename => outerFigure_tame h hf filename hcaption
          · exact outerFigure_tame h hf _ hcaption

theorem not_otherCaption {P : Place → Prop} : ∀ caption, (none : Option Place) = some caption → P caption := nofun

theorem visitImage_tame (h : Ready k H n visit codes f p) (he : k.element p.element) :
    Tame k codes f (visitImage visit p) := by
  unfold visitImage
  split
  · exact Leads.of_pure ()
  · split
    · exact Tame.say _ _
    · exact visitFigure_tame h h.bears he not_otherCaption

theorem visitFigures_tame (h : Ready k H n visit codes f p) {images captions : List Place}
    (hi : ∀ q ∈ images, q.Bears k.toStock H ∧ k.element q.element) (hc : ∀ q ∈ captions, q.Bears k.toStock H) :
    Tame k codes f (visitFigures visit images captions) := by
  induction images generalizing captions with
  | nil => exact Leads.of_pure ()
  | cons image images ih =>
    obtain ⟨himage, hi⟩ := List.forall_mem_cons.1 hi
    cases captions with
    | nil => exact (visitFigure_tame h himage.1 himage.2 not_otherCaption).bind fun _ => ih hi (List.forall_mem_nil _)
    | cons caption captions =>
      obtain ⟨hcaption, hc⟩ := List.forall_mem_cons.1 hc
      refine (visitFigure_tame h himage.1 himage.2 ?_).bind fun _ => ih hi hc
      rintro _ ⟨⟩
      exact hcaption

theorem visitMultipleImage_tame (h : Ready k H n visit codes f p) (he : k.element p.element)
    (hrole : p.element.isMultipleImage.1 = true) : Tame k codes f (visitMultipleImage visit p) := by
  have hscope : (p.parent?.getD p).Bears k.toStock H := by
    cases hparent : p.parent? with
    | none => exact h.bears
    | some q => exact h.bears.parent hparent
  have hselected : ∀ selector, ∀ q ∈ (p.parent?.getD p).select selector, q.Bears k.toStock H ∧ k.element q.element :=
    fun selector q hq => hscope.descendant (List.mem_filter.1 hq).1
  refine Leads.bind (Leads.of_modify ⟨fun _ => rfl, fun _ => rfl, fun _ ht => ht, fun _ _ hdraws => hdraws⟩) fun _ => ?_
  dsimp only
  split
  · rename_i hname
    exact Leads.of_throw (.element he (.template hrole hname)) rfl
  · exact visitFigures_tame h (hselected _) fun q hq => (hselected _ q hq).1

theorem visitTable_tame (p : Place) : Tame k codes f (visitTable p) := by
  refine Leads.get_bind fun t _ _ => ?_
  dsimp only
  split
  · exact Leads.of_pure ()
  · exact Tame.say _ _

/-! ### Walks -/

/-- What the role of an element tells about it. -/
def Role.Fits (language : String) (direction : Direction) (e : Element) : Role → Prop
  | .language => languageOf language e ≠ language
  | .direction => directionOf direction e ≠ direction
  | .multipleImage => e.isMultipleImage.1 = true
  | .anchor => e.name = "a"
  | _ => True

theorem fits_typeRole (language : String) (direction : Direction) (e : Element) {s : String} {r : Role}
    (h : typeRole? s = some r) : r.Fits language direction e := by
  unfold typeRole? at h
  split at h <;> cases h <;> trivial

theorem fits_relationRole (language : String) (direction : Direction) (e : Element) {s : String} {r : Role}
    (h : relationRole? s = some r) : r.Fits language direction e := by
  unfold relationRole? at h
  split at h <;> cases h <;> trivial

theorem fits_nameRole (language : String) (direction : Direction) (e : Element) :
    (roleByName e).1.Fits language direction e := by
  unfold roleByName
  split
  · rename_i role hrole
    unfold nameRole? at hrole
    split at hrole <;> cases hrole <;> trivial
  · trivial

theorem roleOf_fits (language : String) (direction : Direction) (e : Element) :
    (roleOf language direction e).1.Fits language direction e := by
  unfold roleOf
  split
  split
  · trivial
  · split
    · assumption
    · split
      · assumption
      · split
        · rename_i hfound
          obtain ⟨word, -, hword⟩ := List.exists_of_findSome?_eq_some hfound
          exact fits_typeRole _ _ _ hword
        · rcases hmultiple : e.isMultipleImage with ⟨multiple, again⟩
          dsimp only
          split
          · rename_i htrue
            exact (congrArg Prod.fst hmultiple).trans htrue
          · split
            · rename_i hfound
              obtain ⟨word, -, hword⟩ := List.exists_of_findSome?_eq_some hfound
              exact fits_relationRole _ _ _ hword
            · exact fits_nameRole language direction e

/-- The typesetting of an element by its role is tame. -/
theorem visitAs_tame (h : Ready k H n visit codes f p) (he : k.element p.element) {role : Role}
    (hrole : role.Fits f.language f.direction p.element) : Tame k codes f (visitAs visit role p) := by
  cases role with
  | hidden => exact Leads.of_pure ()
  | backLink => exact Leads.of_pure ()
  | language => exact visitLanguage_tame h he hrole
  | direction => exact visitDirection_tame h he hrole
  | image => exact visitImage_tame h he
  | math => exact visitMath_tame false he
  | references => exact visitReferences_tame h
  | multipleImage => exact visitMultipleImage_tame h he hrole
  | citation => exact visitScript_tame h "sup"
  | anchor => exact visitAnchor_tame h he hrole
  | paragraph => exact visitParagraph_tame h
  | heading => exact visitHeading_tame h
  | inline => exact visitInline_tame h _
  | script => exact visitScript_tame h _
  | lineBreak => exact Tame.emit fun _ _ => steady_lineBreak
  | wordBreak => exact Tame.write (List.forall_mem_singleton.2 k.wordBreak)
  | environment => exact visitEnvironment_tame h
  | list => exact visitList_tame h
  | descriptionList => exact visitDescriptionList_tame h
  | term => exact visitTerm_tame h
  | definition => exact visitDefinition_tame h
  | listItem => exact visitListItem_tame h
  | table => exact visitTable_tame p
  | figure => exact visitFigure_tame h h.bears he not_otherCaption
  | div => exact visitDiv_tame h
  | children => exact visitChildren_tame h

/-- A walk is tame that has the depth that it needs. -/
theorem visitFrom_tame (k : Source) (H depth : Nat) : Visits k H depth (visitFrom depth) := by
  -- Each handler visits the contents with the bound of one level less, which is enough for them.
  induction depth with
  | zero =>
    intro c codes f hc hneed
    cases c with
    | text kind s => exact absurd hneed (Nat.not_succ_le_zero 0)
    | element p =>
      have hpos := Node.height_pos p.element.toNode
      have hle : f.turns p.element + 3 * p.element.toNode.height + f.reserve H ≤ 0 := hneed
      omega
  | succ depth ih =>
    intro c codes f hc hneed hmain hlanguage
    cases c with
    | text kind s =>
      unfold visitFrom
      split
      · rename_i hkind
        exact Tame.write (hc (by simpa using hkind))
      · exact Leads.of_pure ()
    | element p =>
      refine Leads.get_bind fun t _ hframe => ?_
      subst hframe
      have hrole := roleOf_fits t.language t.direction p.element
      rcases hroleOf : roleOf t.language t.direction p.element with ⟨role, log⟩
      rw [hroleOf] at hrole
      exact (Tame.note log).bind fun _ => visitAs_tame ⟨ih, hmain, hlanguage, hc.1, hneed⟩ hc.2 hrole

end WikiTypeset.Article
