import WikiTypeset.Article.Page
import WikiTypeset.Proofs.Article.Crossing
import WikiTypeset.Proofs.Article.Walks
import WikiTypeset.Proofs.Html.Hidden

/-!
# What walks hand over

Lists, formulas and figures hand over what running text does: `handedAs` tells for each role what an element hands over,
and `Reaches` what its typesetting may visit. Neither depends on whether the walk is in the short form of a heading. By
induction on the bound of its depth, a walk hands over what `handedFrom` tells, so that both forms of a heading show the
same. Main statement: `heading_forms_agree`.
-/

namespace WikiTypeset.Article

open Action Html Latex Typeset

variable {cut : Prop} {visit visit' : Visit} {o : Outlook} {ws : List Handed} {p : Place}

/-! ### Lists -/

theorem visitEnvironment_hands (h : Hands cut o ws (visitChildren visit p) (visitChildren visit' p)) :
    Hands cut o ws (visitEnvironment visit p) (visitEnvironment visit' p) :=
  (beginEnv_hands _ _).before fun _ => h.after fun _ => endEnv_hands _

theorem mark_hands {value : String} (h : isFormula value = false) : Hands cut o [] (mark value) (mark value) :=
  (Hands.command h).before fun _ => (Hands.step .dirBreak).before fun _ => Hands.step .resetLine

theorem emptyItem_hands : Hands cut o [] emptyItem emptyItem := mark_hands (by decide)

/-- A list hands over what is in it, unless it is empty. -/
def listHanded (e : Element) (ws : List Handed) : List Handed := if e.firstShown?.isNone then [] else ws

theorem visitList_hands (h : Hands cut o ws (visitChildren visit p) (visitChildren visit' p)) :
    Hands cut o (listHanded p.element ws) (visitList visit p) (visitList visit' p) := by
  unfold visitList listHanded
  cases p.element.firstShown? with
  | none => exact Hands.nothing ()
  | some first =>
    have hitems := h.after fun _ => endEnv_hands (blockEnvironment p.element.name)
    refine (beginEnv_hands _ _).before fun _ => Crosses.get_bind fun t _ => ?_
    refine Crosses.before (Hands.aside (fun _ => rfl) fun _ => rfl) fun _ => Hands.inList ?_ (fun _ ht => ht) fun _ => rfl
    show Hands cut o ws _ _
    split
    · exact hitems
    · exact emptyItem_hands.before fun _ => hitems

theorem visitListItem_hands (h : Hands cut o ws (visitChildren visit p) (visitChildren visit' p)) :
    Hands cut o ws (visitListItem visit p) (visitListItem visit' p) := by
  have hitem : Hands cut o ws (do emit Emit.envBreak; emptyItem; visitChildren visit p)
      (do emit Emit.envBreak; emptyItem; visitChildren visit' p) :=
    (Hands.step .envBreak).before fun _ => emptyItem_hands.before fun _ => h
  refine Crosses.get_bind fun t _ => ?_
  split
  · exact hitem
  · exact hitem
  · exact visitParagraph_hands h

/-! ### Formulas -/

/-- What a formula hands over: nothing, if it is left out. -/
def mathHanded (options : ArticleOptions) (display : Bool) (e : Element) : List Handed :=
  match (e.metadata "data-mw").1.bind fun data => (data.path? ["body", "extsrc"]).map (data, ·) with
  | none => []
  | some (data, source) =>
    match Formula.check source.display.toList with
    | .error _ => []
    | .ok formula =>
      if formula.supportedBy options.mathPackages then
        let output := String.ofList formula.output
        [.formula (if display || asksForDisplay data then output else "$" ++ output ++ "$")]
      else []

theorem setFormula_hands (display : Bool) {output : String} (h : ∃ s, output = "\x7b" ++ s ++ "\x7d") :
    Hands cut o [.formula (if display then output else "$" ++ output ++ "$")] (setFormula display output)
      (setFormula display output) := by
  obtain ⟨s, rfl⟩ := h
  unfold setFormula
  split
  · have hfragment : Hands cut o _ _ _ := Hands.fragment ("\x7b" ++ s ++ "\x7d")
    rw [if_pos (by simp [isFormula])] at hfragment
    exact (beginEnv_hands _ _).before fun _ => hfragment.after fun _ => endEnv_hands _
  · have hfragment : Hands cut o _ _ _ := Hands.fragment ("$" ++ ("\x7b" ++ s ++ "\x7d") ++ "$")
    rw [if_pos (by simp [isFormula])] at hfragment
    exact hfragment.after fun _ => Hands.step .envBreak

theorem visitMath_hands (display : Bool) (e : Element) :
    Hands cut o (mathHanded o.options display e) (visitMath display e) (visitMath display e) := by
  unfold visitMath mathHanded
  refine (Hands.step .envBreak).before fun _ => ?_
  rcases e.metadata "data-mw" with ⟨data?, log⟩
  refine (Hands.note log).before fun _ => ?_
  dsimp only
  cases data?.bind fun data => (data.path? ["body", "extsrc"]).map (data, ·) with
  | none => exact Hands.say _ _
  | some found =>
    obtain ⟨data, source⟩ := found
    dsimp only
    cases hcheck : Formula.check source.display.toList with
    | error reason =>
      show Hands cut o [] _ _
      split
      · exact Crosses.of_throw nofun
      · exact Hands.say _ _
      · rename_i hok
        cases hok
    | ok formula =>
      refine Crosses.get_bind fun t ht => ?_
      subst ht
      show Hands cut t.outlook (if formula.supportedBy t.options.mathPackages = true then _ else _) _ _
      exact Hands.ite (fun _ => setFormula_hands _ (output_isContent hcheck)) fun _ => Hands.say _ _

/-! ### Terms and definitions -/

/-- A change of what a list has shown so far. -/
theorem sawTerm_hands (b : Bool) :
    Hands cut o [] (modify fun t : Typesetter => { t with list := { t.list with sawTerm := b } })
    (modify fun t : Typesetter => { t with list := { t.list with sawTerm := b } }) :=
  Hands.aside (fun _ => rfl) fun _ => rfl

/-- What a list of terms and definitions hands over: its formulas alone, if it only indents them. -/
def descriptionHanded (options : ArticleOptions) (p : Place) (ws : List Handed) : List Handed :=
  match if hasTerm p.element then none else indentedFormulas? p with
  | some formulas => formulas.flatMap fun q => mathHanded options true q.element
  | none => ws

theorem visitDescriptionList_hands (h : Hands cut o ws (visitChildren visit p) (visitChildren visit' p)) :
    Hands cut o (listHanded p.element (descriptionHanded o.options p ws)) (visitDescriptionList visit p)
      (visitDescriptionList visit' p) := by
  unfold visitDescriptionList listHanded
  cases p.element.firstShown? with
  | none => exact Hands.nothing ()
  | some first =>
    have hcontent : ∀ (empty : Bool) (env : String), Hands cut o ws (do
          if empty then
            emptyItem
            modify fun t => { t with list := { t.list with sawTerm := true } }
          visitChildren visit p
          emit (Emit.endEnv env)) (do
          if empty then
            emptyItem
            modify fun t => { t with list := { t.list with sawTerm := true } }
          visitChildren visit' p
          emit (Emit.endEnv env)) := by
      intro empty env
      have hitems := h.after fun _ => endEnv_hands env
      split
      · exact emptyItem_hands.before fun _ => (sawTerm_hands true).before fun _ => hitems
      · exact hitems
    show Hands cut o (descriptionHanded o.options p ws) _ _
    unfold descriptionHanded
    dsimp only
    cases (if hasTerm p.element then none else indentedFormulas? p) with
    | some formulas => exact Hands.forM fun q _ => visitMath_hands true q.element
    | none =>
      show Hands cut o ws _ _
      refine Crosses.get_bind fun t _ => Crosses.before (Hands.aside (fun _ => rfl) fun _ => rfl) fun _ => ?_
      refine Crosses.get_bind fun t' _ => Crosses.restored ?_ (fun _ ht => ht) fun _ => rfl
      refine (beginEnv_hands _ _).before fun _ => ?_
      split
      · exact Hands.inList (hcontent _ _) (fun _ ht => ht) fun _ => rfl
      · exact hcontent _ _

theorem visitTerm_hands (h : Hands cut o ws (visitChildren visit p) (visitChildren visit' p)) :
    Hands cut o ws (visitTerm visit p) (visitTerm visit' p) := by
  have hlast : Hands cut o [] (do
      Typeset.fragment "]"
      emit Emit.dirBreak
      modify fun t => { t with list := { t.list with sawTerm := true } }) (do
      Typeset.fragment "]"
      emit Emit.dirBreak
      modify fun t => { t with list := { t.list with sawTerm := true } }) :=
    (Hands.command (by decide)).before fun _ => (Hands.step .dirBreak).before fun _ => sawTerm_hands true
  have htext : ∀ {rest : Typeset Unit}, Hands cut o [] rest rest → Hands cut o ws (do
      emit Emit.dirBreak
      emit Emit.resetLine
      visitChildren visit p
      emit Emit.dirBreak
      rest) (do
      emit Emit.dirBreak
      emit Emit.resetLine
      visitChildren visit' p
      emit Emit.dirBreak
      rest) := fun hrest =>
    (Hands.step .dirBreak).before fun _ => (Hands.step .resetLine).before fun _ => h.after fun _ =>
      (Hands.step .dirBreak).before fun _ => hrest
  refine Crosses.get_bind fun t _ => ?_
  split
  · exact visitParagraph_hands h
  · refine (sawTerm_hands false).before fun _ => (Hands.step .envBreak).before fun _ => ?_
    refine (Hands.command (by decide)).before fun _ => ?_
    split
    · exact (Hands.command (by decide)).before fun _ => htext ((Hands.command (by decide)).before fun _ => hlast)
    · exact htext hlast

theorem visitDefinition_hands (h : Hands cut o ws (visitChildren visit p) (visitChildren visit' p)) :
    Hands cut o ws (visitDefinition visit p) (visitDefinition visit' p) := by
  refine Crosses.get_bind fun t _ => ?_
  split
  · exact visitParagraph_hands h
  · split
    · exact h
    · split
      · exact h
      · exact (Hands.step .envBreak).before fun _ => emptyItem_hands.before fun _ => h

/-! ### Reference lists -/

theorem visitReferencesFrom_hands {ws : Place → List Handed} (number : Nat) {ps : List Place}
    (h : ∀ q ∈ ps, Hands cut o (ws q) (visitChildren visit q) (visitChildren visit' q)) :
    Hands cut o (ps.flatMap ws) (visitReferencesFrom visit number ps) (visitReferencesFrom visit' number ps) := by
  induction ps generalizing number with
  | nil => exact Hands.nothing ()
  | cons q qs ih =>
    obtain ⟨hq, hqs⟩ := List.forall_mem_cons.1 h
    exact (Hands.step .envBreak).before fun _ => (mark_hands (by simp [isFormula])).before fun _ =>
      hq.andThen fun _ => ih (number + 1) hqs

theorem visitReferences_hands {ws : Place → List Handed}
    (h : ∀ q ∈ p.children, Hands cut o (ws q) (visitChildren visit q) (visitChildren visit' q)) :
    Hands cut o (p.children.flatMap ws) (visitReferences visit p) (visitReferences visit' p) := by
  unfold visitReferences
  dsimp only
  split
  · rename_i hempty
    rw [List.isEmpty_iff.1 hempty]
    exact Hands.nothing ()
  · refine (beginEnv_hands _ _).before fun _ => Hands.inList ?_ (fun _ ht => ht) fun _ => rfl
    exact (Hands.command (by decide)).before fun _ => (visitReferencesFrom_hands 1 h).after fun _ => endEnv_hands _

/-! ### Figures -/

theorem visitCaption_hands {caption : Place}
    (h : Hands cut o ws (visitChildren visit caption) (visitChildren visit' caption)) :
    Hands cut o ws (visitCaption visit caption) (visitCaption visit' caption) := by
  have hstyle : isFormula "\\small\\itshape\n" = false := by decide
  refine Crosses.get_bind fun t _ => (Hands.lookup _).before fun own => ?_
  dsimp only
  split
  · exact (beginEnv_hands _ _).before fun _ => (updateLtrFont_hands own).before fun _ =>
      (assumeDirection_hands _).before fun _ =>
      (Hands.command hstyle).before fun _ => h.after fun _ => (endEnv_hands _).before fun _ => assumeDirection_hands _
  · exact (Hands.command hstyle).before fun _ => h.after fun _ => Hands.nothing ()

variable {w : Place → List Handed}

theorem setFigure_hands (filename : String) {caption? : Option Place}
    (h : ∀ caption, caption? = some caption → Hands cut o (w caption) (visitChildren visit caption)
      (visitChildren visit' caption)) :
    Hands cut o ((caption?.map w).getD []) (setFigure visit filename caption?) (setFigure visit' filename caption?) := by
  refine (beginEnv_hands _ _).before fun _ => (beginEnv_hands _ _).before fun _ => ?_
  refine (Hands.command (by simp [isFormula])).before fun _ => (endEnv_hands _).before fun _ => ?_
  cases caption? with
  | none => exact endEnv_hands _
  | some caption => exact (visitCaption_hands (h caption rfl)).after fun _ => endEnv_hands _

theorem pageFile_hands (e : Element) (filename : String) : Hands cut o [] (pageFile e filename) (pageFile e filename) := by
  unfold pageFile
  rcases e.metadata "data-parsoid" with ⟨data?, log⟩
  refine (Hands.note log).before fun _ => ?_
  dsimp only
  cases hpage : pageAsked data? with
  | error cause => exact Crosses.throw_bind (pageAsked_error hpage ▸ nofun)
  | ok page =>
    refine (Hands.nothing _).before fun page => Crosses.get_bind fun t _ => ?_
    split
    · split
      · exact (Hands.say _ _).before fun _ => Hands.nothing _
      · exact Hands.nothing _
    · exact Hands.nothing _

/-- The caption of the figure of an image. -/
def captionOf? (p : Place) (otherCaption? : Option Place) : Option Place :=
  p.children.find? (·.element.name == "figcaption") <|> otherCaption?

/-- What a figure hands over: its caption, unless the figure is left out. -/
def figureHanded (options : ArticleOptions) (inFloat : Bool) (w : Place → List Handed) (p : Place)
    (otherCaption? : Option Place) : List Handed :=
  match imageIn? p with
  | none => []
  | some img =>
    match Reference.resolve options.baseUrl.toList (img.attr "resource").toList with
    | .error _ => []
    | .ok url =>
      let filename := ((options.imageMap.find? (·.1 == String.ofList url)).map (·.2)).getD ""
      if filename.isEmpty then []
      else if endsInAny skippedFormats filename.toList then []
      else if inFloat then []
      else ((captionOf? p otherCaption?).map w).getD []

theorem visitFigure_hands {otherCaption? : Option Place}
    (h : o.frame.inFloat = false → ∀ caption, captionOf? p otherCaption? = some caption →
      Hands cut (o.reframed Frame.floating) (w caption) (visitChildren visit caption) (visitChildren visit' caption)) :
    Hands cut o (figureHanded o.options o.frame.inFloat w p otherCaption?) (visitFigure visit p otherCaption?)
      (visitFigure visit' p otherCaption?) := by
  unfold visitFigure figureHanded
  cases imageIn? p with
  | none => exact Hands.nothing ()
  | some img =>
    refine Crosses.get_bind fun t ht => ?_
    subst ht
    unfold resolved
    have hset : t.inFloat = false → ∀ filename, Hands cut t.outlook (((captionOf? p otherCaption?).map w).getD []) (do
        modify fun t => { t with inFloat := true }
        Action.finishing (setFigure visit filename (captionOf? p otherCaption?))
          (modify fun t => { t with inFloat := false })) (do
        modify fun t => { t with inFloat := true }
        Action.finishing (setFigure visit' filename (captionOf? p otherCaption?))
          (modify fun t => { t with inFloat := false })) := by
      intro hfloat filename
      refine Crosses.before (Crosses.reframing Frame.floating (fun _ => rfl) fun _ => rfl) fun _ => ?_
      refine Crosses.restored (setFigure_hands filename (h hfloat)) (fun t' ht' => ?_) fun _ => rfl
      refine (congrArg (Outlook.reframed fun x => { x with inFloat := false }) ht').trans ?_
      show Outlook.mk t.options { t.outlook.frame with inFloat := false } = t.outlook
      rw [← hfloat]
      rfl
    show Hands cut t.outlook (match Reference.resolve t.options.baseUrl.toList (img.attr "resource").toList with
      | .error _ => []
      | .ok url => _) _ _
    cases Reference.resolve t.options.baseUrl.toList (img.attr "resource").toList with
    | error cause => exact Crosses.throw_bind nofun
    | ok url =>
      rw [pure_bind, pure_bind]
      refine Hands.ite (fun _ => Hands.say _ _) fun _ => Hands.ite (fun _ => Hands.say _ _) fun _ =>
        Hands.ite (fun _ => Hands.say _ _) fun hfloat => ?_
      dsimp only
      split
      · exact (pageFile_hands _ _).before fun filename => hset (Bool.eq_false_iff.2 hfloat) filename
      · exact (Hands.nothing _).before fun filename => hset (Bool.eq_false_iff.2 hfloat) filename

/-- What an image hands over: nothing, if it is an icon. -/
def imageHanded (options : ArticleOptions) (inFloat : Bool) (w : Place → List Handed) (p : Place) : List Handed :=
  match imageIn? p with
  | none => []
  | some img => if isIcon img then [] else figureHanded options inFloat w p none

theorem visitImage_hands
    (h : o.frame.inFloat = false → ∀ caption, captionOf? p none = some caption →
      Hands cut (o.reframed Frame.floating) (w caption) (visitChildren visit caption) (visitChildren visit' caption)) :
    Hands cut o (imageHanded o.options o.frame.inFloat w p) (visitImage visit p) (visitImage visit' p) := by
  unfold visitImage imageHanded
  cases imageIn? p with
  | none => exact Hands.nothing ()
  | some img => exact Hands.ite (fun _ => Hands.say _ _) fun _ => visitFigure_hands h

/-- What several figures hand over. -/
def figuresHanded (options : ArticleOptions) (inFloat : Bool) (w : Place → List Handed) :
    List Place → List Place → List Handed
  | [], _ => []
  | image :: images, [] => figureHanded options inFloat w image none ++ figuresHanded options inFloat w images []
  | image :: images, caption :: captions =>
    figureHanded options inFloat w image (some caption) ++ figuresHanded options inFloat w images captions

theorem visitFigures_hands {images captions : List Place}
    (h : o.frame.inFloat = false → ∀ image ∈ images, ∀ otherCaption?, (∀ caption ∈ otherCaption?, caption ∈ captions) →
      ∀ caption, captionOf? image otherCaption? = some caption → Hands cut (o.reframed Frame.floating) (w caption)
        (visitChildren visit caption) (visitChildren visit' caption)) :
    Hands cut o (figuresHanded o.options o.frame.inFloat w images captions) (visitFigures visit images captions)
      (visitFigures visit' images captions) := by
  induction images generalizing captions with
  | nil => exact Hands.nothing ()
  | cons image images ih =>
    cases captions with
    | nil =>
      refine (visitFigure_hands fun hfloat => ?_).andThen fun _ => ih fun hfloat other hother => ?_
      · exact h hfloat image List.mem_cons_self none nofun
      · exact h hfloat other (List.mem_cons_of_mem image hother)
    | cons caption captions =>
      refine (visitFigure_hands fun hfloat => ?_).andThen fun _ => ih fun hfloat other hother otherCaption? hin => ?_
      · exact h hfloat image List.mem_cons_self (some caption) (by simp)
      · exact h hfloat other (List.mem_cons_of_mem image hother) otherCaption? fun c hc => List.mem_cons_of_mem _ (hin c hc)

/-- Where a template looks for its images and captions. -/
def scopeOf (p : Place) : Place := p.parent?.getD p

/-- What a template with several images hands over. -/
def templateHanded (options : ArticleOptions) (inFloat : Bool) (w : Place → List Handed) (p : Place) : List Handed :=
  match quotedSelectorText? (p.element.attr "about").toList with
  | none => []
  | some name =>
    figuresHanded options inFloat w ((scopeOf p).select (templateImages name)) ((scopeOf p).select (templateCaptions name))

/-- The caption of an image may be in it, or is another one. -/
theorem captionOf_mem {q caption : Place} {otherCaption? : Option Place} (hq : q.surroundings ⊆ p.surroundings)
    (hother : ∀ other ∈ otherCaption?, other ∈ p.surroundings) (h : captionOf? q otherCaption? = some caption) :
    caption ∈ p.surroundings := by
  unfold captionOf? at h
  cases hown : q.children.find? (·.element.name == "figcaption") with
  | none =>
    rw [hown] at h
    exact hother caption h
  | some own =>
    obtain rfl : own = caption := by
      rw [hown] at h
      exact Option.some.inj h
    exact hq (Place.surroundings_child (List.mem_of_find?_eq_some hown) own.mem_surroundings_self)

theorem visitMultipleImage_hands
    (h : o.frame.inFloat = false → ∀ caption ∈ p.surroundings, Hands cut (o.reframed Frame.floating) (w caption)
      (visitChildren visit caption) (visitChildren visit' caption)) :
    Hands cut o (templateHanded o.options o.frame.inFloat w p) (visitMultipleImage visit p)
      (visitMultipleImage visit' p) := by
  have hscope : (scopeOf p).surroundings ⊆ p.surroundings := by
    unfold scopeOf
    cases hparent : p.parent? with
    | none => exact List.Subset.refl _
    | some q => exact Place.surroundings_parent hparent
  have hselected : ∀ selector, ∀ q ∈ (scopeOf p).select selector, q.surroundings ⊆ p.surroundings :=
    fun selector q hq => List.Subset.trans (Place.surroundings_descendant (List.mem_filter.1 hq).1) hscope
  unfold templateHanded
  refine Crosses.before (Hands.aside (fun _ => rfl) fun _ => rfl) fun _ => ?_
  cases quotedSelectorText? (p.element.attr "about").toList with
  | none => exact Crosses.of_throw nofun
  | some name =>
    refine visitFigures_hands fun hfloat image himage otherCaption? hother caption hcaption => h hfloat caption ?_
    refine captionOf_mem (hselected _ image himage) (fun other hin => ?_) hcaption
    exact hselected _ other (hother other hin) other.mem_surroundings_self

theorem visitTable_hands (p : Place) : Hands cut o [] (visitTable p) (visitTable p) := by
  refine Crosses.get_bind fun t _ => ?_
  dsimp only
  split
  · exact Hands.nothing ()
  · exact Hands.say _ _

/-! ### Walks -/

/-- The place is in a heading, or in its short form. -/
def Outlook.headed (o : Outlook) : Bool := o.frame.inHeading || o.frame.headingDepth ≠ 0

/-- The outlook up to the form of the heading, if it is in one. -/
def Outlook.form (o : Outlook) : Outlook :=
  o.reframed fun f => { f with inHeading := false, headingDepth := if o.headed then 1 else 0 }

theorem Outlook.headed_form (o : Outlook) : o.form.headed = o.headed := by
  show (false || decide ((if o.headed then 1 else 0) ≠ 0)) = o.headed
  by_cases hin : o.headed = true
  · simp [hin]
  · simp [hin]

/-- A heading that is in no other is entered for both forms in the same way. -/
theorem Outlook.form_heading (o : Outlook) (h : o.headed = false) (b : Bool) :
    (o.reframed fun x => x.headed.titled b).form = o.form.reframed Frame.headed := by
  have hin : (o.reframed fun x => x.headed.titled b).headed = true := by
    show (b || decide (o.frame.headingDepth + 1 ≠ 0)) = true
    simp
  unfold Outlook.form
  rw [hin, h]
  rfl

/-- The frames are in the same language and direction, and both in a figure or both outside. -/
structure Frame.Agrees (f g : Frame) : Prop where
  language : g.language = f.language
  direction : g.direction = f.direction
  inFloat : g.inFloat = f.inFloat

theorem Frame.Agrees.refl (f : Frame) : f.Agrees f := ⟨rfl, rfl, rfl⟩

/-- What the typesetting of the element at `p` in the frame `f` may visit, and in which frame: what the element contains
and what its children contain, the element itself after a change of language or direction, and outside figures the
captions around it. -/
inductive Reaches (p : Place) (f : Frame) : Content → Frame → Prop
  | contents {q : Place} {c : Content} {g : Frame} (hq : q = p ∨ q ∈ p.children) (hc : c ∈ contentsOf q)
    (hg : f.Agrees g) : Reaches p f c g
  | language {g : Frame} (hchange : languageOf f.language p.element ≠ f.language)
    (hg : (f.speaking (p.element.attr "lang")).Agrees g) : Reaches p f (.element p) g
  | direction {g : Frame} (hchange : directionOf f.direction p.element ≠ f.direction)
    (hg : (f.facing (directionOf f.direction p.element)).Agrees g) : Reaches p f (.element p) g
  | caption {q : Place} {c : Content} {g : Frame} (hfloat : f.inFloat = false) (hq : q ∈ p.surroundings)
    (hc : c ∈ contentsOf q) (hg : f.floating.Agrees g) : Reaches p f c g

/-- What an element hands over by its role, if contents hand over what `H` says. -/
def handedAs (H : Outlook → Content → List Handed) (o : Outlook) (role : Role) (p : Place) : List Handed :=
  let contents (o : Outlook) (p : Place) : List Handed := (contentsOf p).flatMap (H o)
  match role with
  | .hidden | .backLink | .lineBreak | .table => []
  | .language => H (o.reframed (Frame.speaking (p.element.attr "lang"))) (.element p)
  | .direction => H (o.reframed (Frame.facing (directionOf o.frame.direction p.element))) (.element p)
  | .image => imageHanded o.options o.frame.inFloat (contents (o.reframed Frame.floating)) p
  | .math => mathHanded o.options false p.element
  | .references => p.children.flatMap (contents o)
  | .multipleImage => templateHanded o.options o.frame.inFloat (contents (o.reframed Frame.floating)) p
  | .citation => scriptHanded "sup" p.element (contents o p)
  | .script => scriptHanded p.element.name p.element (contents o p)
  | .heading =>
    if isUntitled o.options o.headed p.element then []
    else contents (o.reframed Frame.headed) p ++ contents (o.reframed Frame.headed) p
  | .wordBreak => [.text ['\u200B']]
  | .list => listHanded p.element (contents o p)
  | .descriptionList => listHanded p.element (descriptionHanded o.options p (contents o p))
  | .figure => figureHanded o.options o.frame.inFloat (contents (o.reframed Frame.floating)) p none
  | .anchor | .paragraph | .inline | .environment | .term | .definition | .listItem | .div | .children => contents o p

theorem visitAs_hands {H : Outlook → Content → List Handed} {role : Role}
    (hrole : role.Fits o.frame.language o.frame.direction p.element)
    (h : ∀ c (q : Outlook), Reaches p o.frame c q.frame → Hands cut q (H q.form c) (visit c) (visit' c)) :
    Hands cut o (handedAs H o.form role p) (visitAs visit role p) (visitAs visit' role p) := by
  have hinside : ∀ q, q = p ∨ q ∈ p.children → ∀ r : Outlook, o.frame.Agrees r.frame →
      Hands cut r ((contentsOf q).flatMap (H r.form)) (visitChildren visit q) (visitChildren visit' q) :=
    fun q hq r hr => visitChildren_hands fun c hc => h c r (.contents hq hc hr)
  have hcontents := hinside p (.inl rfl) o (.refl _)
  have hcaptions : o.frame.inFloat = false → ∀ caption ∈ p.surroundings, Hands cut (o.reframed Frame.floating)
      ((contentsOf caption).flatMap (H (o.reframed Frame.floating).form)) (visitChildren visit caption)
      (visitChildren visit' caption) := fun hfloat caption hcaption =>
    visitChildren_hands fun c hc => h c _ (.caption hfloat hcaption hc (.refl _))
  have hown : o.frame.inFloat = false → ∀ caption, captionOf? p none = some caption → _ :=
    fun hfloat caption hcaption => hcaptions hfloat caption (captionOf_mem (List.Subset.refl _) (by simp) hcaption)
  cases role with
  | hidden => exact Hands.nothing ()
  | backLink => exact Hands.nothing ()
  | language => exact visitLanguage_hands (h _ _ (.language hrole (.refl _)))
  | direction =>
    have hform : ∀ d, (o.reframed (Frame.facing d)).form = o.form.reframed (Frame.facing d) := fun _ => rfl
    have hvisit := h _ (o.reframed (Frame.facing (directionOf o.frame.direction p.element))) (.direction hrole (.refl _))
    rw [hform] at hvisit
    exact visitDirection_hands hvisit
  | image => exact visitImage_hands hown
  | math => exact visitMath_hands false p.element
  | references => exact visitReferences_hands fun q hq => hinside q (.inr hq) o (.refl _)
  | multipleImage => exact visitMultipleImage_hands hcaptions
  | citation => exact visitScript_hands hcontents "sup"
  | anchor => exact visitAnchor_hands hcontents
  | paragraph => exact visitParagraph_hands hcontents
  | heading =>
    have htext : ∀ b, isUntitled o.options o.headed p.element = false → Hands cut (o.reframed fun x => x.headed.titled b)
        ((contentsOf p).flatMap (H (o.form.reframed Frame.headed))) (visitChildren visit p) (visitChildren visit' p) := by
      intro b hshown
      rw [← o.form_heading (Bool.or_eq_false_iff.1 hshown).2 b]
      exact hinside p (.inl rfl) _ ⟨rfl, rfl, rfl⟩
    show Hands cut o (if isUntitled o.options o.form.headed p.element then [] else _) _ _
    rw [o.headed_form]
    exact visitHeading_hands fun hshown => ⟨htext true hshown, htext false hshown⟩
  | inline => exact visitWrapped_hands hcontents _
  | script => exact visitScript_hands hcontents _
  | lineBreak => exact Hands.step .lineBreak
  | wordBreak => exact Hands.step (.write ['\u200B'])
  | environment => exact visitEnvironment_hands hcontents
  | list => exact visitList_hands hcontents
  | descriptionList => exact visitDescriptionList_hands hcontents
  | term => exact visitTerm_hands hcontents
  | definition => exact visitDefinition_hands hcontents
  | listItem => exact visitListItem_hands hcontents
  | table => exact visitTable_hands p
  | figure => exact visitFigure_hands hown
  | div => exact visitDiv_hands hcontents
  | children => exact hcontents

/-- What one level of a walk hands over. -/
def handedBy (H : Outlook → Content → List Handed) (o : Outlook) : Content → List Handed
  | .text kind s => if kind = .plain || kind = .literal then [.text s] else []
  | .element p => handedAs H o (roleOf o.frame.language o.frame.direction p.element).1 p

/-- What a walk hands over that comes to its end. -/
def handedFrom : Nat → Outlook → Content → List Handed
  | 0 => fun _ _ => []
  | depth + 1 => handedBy (handedFrom depth)

/-- A level of a walk hands over what comes from what it reaches, and no other visit matters to it. -/
theorem visitBy_hands {H : Outlook → Content → List Handed} {c : Content}
    (h : ∀ p, c = .element p → ∀ c' (q : Outlook), Reaches p o.frame c' q.frame →
      Hands cut q (H q.form c') (visit c') (visit' c')) :
    Hands cut o (handedBy H o.form c) (visitBy visit c) (visitBy visit' c) := by
  cases c with
  | text kind s => exact Hands.ite (fun _ => Hands.step (.write s)) fun _ => Hands.nothing ()
  | element p =>
    refine Crosses.get_bind fun t ht => ?_
    subst ht
    have hrole := roleOf_fits t.language t.direction p.element
    show Hands cut t.outlook (handedAs H t.outlook.form (roleOf t.language t.direction p.element).1 p) _ _
    rcases hroleOf : roleOf t.language t.direction p.element with ⟨role, log⟩
    rw [hroleOf] at hrole
    exact (Hands.note log).before fun _ => visitAs_hands hrole (h p rfl)

/-- A walk hands over the same in both forms of a heading. -/
theorem visitFrom_hands (depth : Nat) (o : Outlook) (c : Content) :
    Hands True o (handedFrom depth o.form c) (visitFrom depth c) (visitFrom depth c) := by
  induction depth generalizing o c with
  | zero => exact fun t ht => ⟨rfl, Leaves.of_throw fun _ => trivial⟩
  | succ depth ih =>
    rw [visitFrom_succ]
    exact visitBy_hands fun _ _ c' q _ => ih q c'

/-- From any state, a heading that is typeset hands over the same texts and formulas in its short form and in its long one,
in the same order, and nothing else. -/
theorem heading_forms_agree (depth : Nat) (p : Place) {t t' : Typesetter}
    (hshown : isUntitled t.options t.outlook.headed p.element = false)
    (h : (visitHeading (visitFrom depth) p).perform t = (.ok (), t')) :
    ∃ os, HeadingForms (sectionCommand (headingLevel t.options p.element))
        ((contentsOf p).flatMap (handedFrom depth (t.outlook.form.reframed Frame.headed))) os ∧
      (performAll os).perform t.emitter = (.ok (), t'.emitter) := by
  have htext : ∀ b, Hands True (t.outlook.reframed fun x => x.headed.titled b)
      ((contentsOf p).flatMap (handedFrom depth (t.outlook.form.reframed Frame.headed)))
      (visitChildren (visitFrom depth) p) (visitChildren (visitFrom depth) p) := by
    intro b
    rw [← t.outlook.form_heading (Bool.or_eq_false_iff.1 hshown).2 b]
    exact visitChildren_hands fun c _ => visitFrom_hands depth _ c
  exact (((visitHeading_forms hshown (htext true) (htext false)) t rfl).2.ok h).2

/-- A heading with a link and a raised number, and with a word in another language and direction. -/
def mixedHeading : Place :=
  .root { name := "h2"
          children := [.element "a" [⟨"href", .text "#x"⟩] [.text .plain ['a'], .element "sup" [] [.text .plain ['2']]],
            .element "span" [⟨"lang", .text "he"⟩, ⟨"dir", .text "rtl"⟩] [.text .plain ['\u05D0']]] }

/-- A typesetter in German text of a document in English. -/
def germanStart : Typesetter := { start {} (.known .ltr) [] with language := "de" }

/-- The heading is set in the language of the document; both forms hand over its words and its formula, and only one has the
link and the marks of the direction. -/
theorem mixedHeading_forms_agree :
    isUntitled germanStart.options germanStart.outlook.headed mixedHeading.element = false ∧
    ∃ os, HeadingForms "section" [.text ['a'], .formula "$^\x7b2\x7d$", .text ['\u05D0']] os ∧
      (performAll os).perform germanStart.emitter =
        (.ok (), ((visitHeading (visitFrom 6) mixedHeading).perform germanStart).2.emitter) := by
  have hshown : isUntitled germanStart.options germanStart.outlook.headed mixedHeading.element = false := by decide +kernel
  have hok : ((visitHeading (visitFrom 6) mixedHeading).perform germanStart).1.toBool = true := by decide +kernel
  have hhanded : (contentsOf mixedHeading).flatMap (handedFrom 6 (germanStart.outlook.form.reframed Frame.headed)) =
      [.text ['a'], .formula "$^\x7b2\x7d$", .text ['\u05D0']] := by decide +kernel
  rcases hperform : (visitHeading (visitFrom 6) mixedHeading).perform germanStart with ⟨_ | _, t'⟩
  · rw [hperform] at hok
    cases hok
  · have hforms := heading_forms_agree 6 mixedHeading hshown hperform
    rw [hhanded] at hforms
    exact ⟨hshown, hforms⟩

end WikiTypeset.Article
