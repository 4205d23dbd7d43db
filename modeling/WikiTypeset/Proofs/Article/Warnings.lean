import WikiTypeset.Proofs.Article.Documents

/-!
# Earlier warnings do not matter

A typesetter remembers which language codes have been warned about and what has been logged. Nothing else depends on
that: what a document is typeset to is the same after any other documents. Main statement: `typeset_eq_of_warned`.
-/

namespace WikiTypeset.Article

open Action Html Latex

/-- The typesetter as if nothing had been logged. -/
def Typesetter.unlogged (t : Typesetter) : Typesetter := { t with warned := [], records := [] }

/-- The action does the same whatever has been logged, but for what it logs itself. -/
def Oblivious {α : Type} (a : Typeset α) : Prop :=
  ∀ t t' : Typesetter, t.unlogged = t'.unlogged →
    (a.perform t).1 = (a.perform t').1 ∧ (a.perform t).2.unlogged = (a.perform t').2.unlogged

namespace Oblivious

variable {α β γ : Type} {a : Typeset α} {g : α → Typeset β} {content last : Typeset Unit}

theorem of_pure (x : α) : Oblivious (pure x : Typeset α) := fun _ _ h => ⟨rfl, h⟩

theorem of_throw (c : ArticleError) : Oblivious (throw c : Typeset α) := fun _ _ h => ⟨rfl, h⟩

theorem bind (ha : Oblivious a) (hg : ∀ x, Oblivious (g x)) : Oblivious (a >>= g) := by
  intro t t' h
  obtain ⟨hresult, hstate⟩ := ha t t' h
  rw [perform_bind, perform_bind]
  rcases hp : a.perform t with ⟨c | x, s⟩
  · rcases hp' : a.perform t' with ⟨c' | x', s'⟩
    · rw [hp, hp'] at hresult hstate
      cases hresult
      exact ⟨rfl, hstate⟩
    · rw [hp, hp'] at hresult
      cases hresult
  · rcases hp' : a.perform t' with ⟨c' | x', s'⟩
    · rw [hp, hp'] at hresult
      cases hresult
    · rw [hp, hp'] at hresult hstate
      cases hresult
      exact hg x s s' hstate

/-- An action that looks at the state, but not at what has been logged. -/
theorem get_bind {g : Typesetter → Typeset β} (hg : ∀ t : Typesetter, g t = g t.unlogged) (h : ∀ t, Oblivious (g t)) :
    Oblivious (get >>= g) := by
  intro t t' ht
  have hsame : g t = g t' := by rw [hg t, hg t', ht]
  rw [perform_bind, perform_bind, perform_get, perform_get]
  dsimp only
  rw [hsame]
  exact h t' t t' ht

theorem of_modify {m : Typesetter → Typesetter} (hm : ∀ t : Typesetter, (m t).unlogged = (m t.unlogged).unlogged) :
    Oblivious (modify m) := by
  intro t t' h
  refine ⟨rfl, ?_⟩
  show (m t).unlogged = (m t').unlogged
  rw [hm t, hm t', h]

theorem emit (a : Emit α) : Oblivious (Typeset.emit a) := by
  intro t t' h
  have hemitter : t.unlogged.emitter = t'.unlogged.emitter := congrArg Typesetter.emitter h
  change t.emitter = t'.emitter at hemitter
  rw [Typeset.emit, perform_within, perform_within, hemitter]
  rcases a.perform t'.emitter with ⟨c | x, e⟩
  · exact ⟨rfl, congrArg (fun t : Typesetter => { t with emitter := e }) h⟩
  · exact ⟨rfl, congrArg (fun t : Typesetter => { t with emitter := e }) h⟩

theorem note (log : Log) : Oblivious (Typeset.note log) := of_modify fun _ => rfl

theorem say (level : LogLevel) (text : String) : Oblivious (Typeset.say level text) := note _

/-- A look-up gives the same language whether or not its code has been warned about. -/
theorem lookup (code : String) : Oblivious (Typeset.lookup code) := fun _ _ h => ⟨rfl, h⟩

theorem finishing (ha : Oblivious content) (hlast : Oblivious last) : Oblivious (Action.finishing content last) := by
  intro t t' h
  obtain ⟨hresult, hstate⟩ := ha t t' h
  obtain ⟨hresult', hstate'⟩ := hlast _ _ hstate
  rw [perform_finishing, perform_finishing]
  rcases hp : content.perform t with ⟨r, s⟩
  rcases hp' : content.perform t' with ⟨r', s'⟩
  rw [hp, hp'] at hresult hresult' hstate'
  dsimp only at hresult hresult' hstate' ⊢
  subst hresult
  rcases hl : last.perform s with ⟨_ | _, s₁⟩
  · rcases hl' : last.perform s' with ⟨_ | _, s₁'⟩
    · rw [hl, hl'] at hresult' hstate'
      cases hresult'
      exact ⟨rfl, hstate'⟩
    · rw [hl, hl'] at hresult'
      cases hresult'
  · rcases hl' : last.perform s' with ⟨_ | _, s₁'⟩
    · rw [hl, hl'] at hresult'
      cases hresult'
    · rw [hl, hl'] at hstate'
      exact ⟨rfl, hstate'⟩

theorem forM {g : γ → Typeset Unit} {xs : List γ} (hg : ∀ x, Oblivious (g x)) : Oblivious (xs.forM g) := by
  induction xs with
  | nil => exact of_pure ()
  | cons x xs ih => exact (hg x).bind fun _ => ih

theorem fragment (value : String) : Oblivious (Typeset.fragment value) := emit _

theorem write (s : List Char) : Oblivious (Typeset.write s) := emit _

theorem mark (value : String) : Oblivious (Typeset.mark value) :=
  (fragment value).bind fun _ => (emit _).bind fun _ => emit _

theorem wrap (command : String) (h : Oblivious content) : Oblivious (Typeset.wrap command content) :=
  (emit _).bind fun _ => h.finishing (emit _)

theorem isolated (h : Oblivious content) : Oblivious (Typeset.isolated content) :=
  (emit _).bind fun _ => (h.bind fun _ => emit _).finishing (emit _)

theorem inList {restore : Typesetter → Typesetter} (h : Oblivious content)
    (hr : ∀ t : Typesetter, (restore t).unlogged = (restore t.unlogged).unlogged) :
    Oblivious (Typeset.inList content restore) := by
  refine (of_modify fun _ => rfl).bind fun _ => h.finishing (of_modify fun t => ?_)
  exact hr _

theorem beginLanguage (l : Language) : Oblivious (Typeset.beginLanguage l) := emit _

theorem updateLtrFont (l : Language) : Oblivious (Typeset.updateLtrFont l) := by
  unfold Typeset.updateLtrFont
  split
  · exact (fragment _).bind fun _ => (emit _).bind fun _ => emit _
  · exact of_pure ()

end Oblivious

open Oblivious

variable {visit : Visit} {p : Place}

/-! ### Running text -/

theorem visitChildren_oblivious (h : ∀ c, Oblivious (visit c)) (p : Place) : Oblivious (visitChildren visit p) := forM h

theorem visitWrapped_oblivious (h : ∀ c, Oblivious (visit c)) (command : String) (p : Place) :
    Oblivious (visitWrapped visit command p) :=
  wrap command (visitChildren_oblivious h p)

theorem visitLanguage_oblivious (h : ∀ c, Oblivious (visit c)) (p : Place) : Oblivious (visitLanguage visit p) := by
  refine get_bind (fun _ => rfl) fun t => (of_modify fun _ => rfl).bind fun _ => (lookup _).bind fun previous => ?_
  refine (lookup _).bind fun l => (of_modify fun _ => rfl).bind fun _ => finishing ?_ (of_modify fun _ => rfl)
  split
  · exact h _
  · split
    · refine (beginLanguage l).bind fun _ => (updateLtrFont l).bind fun _ => (emit _).bind fun _ => ?_
      exact (emit _).bind fun _ => (h _).bind fun _ => (emit _).bind fun _ => (emit _).bind fun _ => emit _
    · refine (wrap _ ?_).bind fun _ => (emit _).bind fun _ => emit _
      exact (emit _).bind fun _ => (emit _).bind fun _ => h _

theorem visitDirection_oblivious (h : ∀ c, Oblivious (visit c)) (p : Place) : Oblivious (visitDirection visit p) := by
  refine get_bind (fun _ => rfl) fun t => (of_modify fun _ => rfl).bind fun _ => finishing ?_ (of_modify fun _ => rfl)
  split
  · exact h _
  · exact (emit _).bind fun _ => (h _).bind fun _ => emit _

theorem visitParagraph_oblivious (h : ∀ c, Oblivious (visit c)) (p : Place) : Oblivious (visitParagraph visit p) :=
  (emit _).bind fun _ => (visitChildren_oblivious h p).bind fun _ => emit _

theorem visitDiv_oblivious (h : ∀ c, Oblivious (visit c)) (p : Place) : Oblivious (visitDiv visit p) :=
  (emit _).bind fun _ => (visitChildren_oblivious h p).bind fun _ => emit _

theorem visitScript_oblivious (h : ∀ c, Oblivious (visit c)) (name : String) (p : Place) :
    Oblivious (visitScript visit name p) := by
  unfold visitScript
  split
  · exact fragment _
  · exact visitWrapped_oblivious h _ p

theorem resolved_oblivious (base target : String) : Oblivious (resolved base target) := by
  unfold resolved
  split
  · exact of_pure _
  · exact of_throw _

theorem visitAnchor_oblivious (h : ∀ c, Oblivious (visit c)) (p : Place) : Oblivious (visitAnchor visit p) := by
  refine get_bind (fun _ => rfl) fun t => ?_
  split
  · exact visitChildren_oblivious h p
  · split
    · exact visitWrapped_oblivious h _ p
    · exact (resolved_oblivious _ _).bind fun _ => visitWrapped_oblivious h _ p

theorem visitHeadingText_oblivious (h : ∀ c, Oblivious (visit c)) (p : Place) (own : Language) (switch : Bool) :
    Oblivious (visitHeadingText visit p own switch) := by
  refine (emit _).bind fun _ => ?_
  split
  · exact (emit _).bind fun _ => (visitChildren_oblivious h p).bind fun _ => emit _
  · refine get_bind (fun _ => rfl) fun t => (wrap _ ?_).bind fun _ => emit _
    refine (emit _).bind fun _ => get_bind (fun _ => rfl) fun t => (emit _).bind fun _ => ?_
    exact (emit _).bind fun _ => visitChildren_oblivious h p

theorem visitHeading_oblivious (h : ∀ c, Oblivious (visit c)) (p : Place) : Oblivious (visitHeading visit p) := by
  have hbody : ∀ (command : String) (own : Language) (switch : Bool), Oblivious (Typeset.isolated do
      modify fun t => deepenToc 1 { t with inHeading := true }
      Action.finishing (do
        Typeset.fragment command
        visitHeadingText visit p own switch) (modify (deepenToc (-1)))
      Typeset.fragment "]\x7b"
      modify fun t => { t with inHeading := false }
      visitHeadingText visit p own switch
      Typeset.fragment "\x7d") := by
    intro command own switch
    have htext := visitHeadingText_oblivious h p own switch
    refine isolated ((of_modify fun _ => rfl).bind fun _ => Oblivious.bind ?_ fun _ => ?_)
    · exact ((fragment _).bind fun _ => htext).finishing (of_modify fun _ => rfl)
    · exact (fragment _).bind fun _ => (of_modify fun _ => rfl).bind fun _ => htext.bind fun _ => fragment _
  refine get_bind (fun _ => rfl) fun t => ?_
  dsimp only
  split
  · exact of_pure ()
  · refine (emit _).bind fun _ => (lookup _).bind fun toc => (lookup _).bind fun own => get_bind (fun _ => rfl) fun t₁ => ?_
    split
    · refine (beginLanguage _).bind fun _ => (updateLtrFont _).bind fun _ => (emit _).bind fun _ => ?_
      refine (of_modify fun _ => rfl).bind fun _ => ((hbody _ _ _).inList fun _ => rfl).bind fun _ => ?_
      exact (emit _).bind fun _ => (emit _).bind fun _ => get_bind (fun _ => rfl) fun t₂ => (emit _).bind fun _ => emit _
    · exact (of_modify fun _ => rfl).bind fun _ => ((hbody _ _ _).inList fun _ => rfl).bind fun _ => emit _

/-! ### Lists and formulas -/

theorem visitEnvironment_oblivious (h : ∀ c, Oblivious (visit c)) (p : Place) : Oblivious (visitEnvironment visit p) :=
  (emit _).bind fun _ => (visitChildren_oblivious h p).bind fun _ => emit _

theorem visitList_oblivious (h : ∀ c, Oblivious (visit c)) (p : Place) : Oblivious (visitList visit p) := by
  unfold visitList
  split
  · exact of_pure ()
  · refine (emit _).bind fun _ => get_bind (fun _ => rfl) fun t => (of_modify fun _ => rfl).bind fun _ => ?_
    refine inList ?_ fun _ => rfl
    have hitems := (visitChildren_oblivious h p).bind fun _ => emit (Emit.endEnv (blockEnvironment p.element.name))
    split
    · exact hitems
    · exact (mark _).bind fun _ => hitems

theorem visitListItem_oblivious (h : ∀ c, Oblivious (visit c)) (p : Place) : Oblivious (visitListItem visit p) := by
  refine get_bind (fun _ => rfl) fun t => ?_
  split
  · exact (emit _).bind fun _ => (mark _).bind fun _ => visitChildren_oblivious h p
  · exact (emit _).bind fun _ => (mark _).bind fun _ => visitChildren_oblivious h p
  · exact visitParagraph_oblivious h p

theorem setFormula_oblivious (display : Bool) (output : String) : Oblivious (setFormula display output) := by
  unfold setFormula
  split
  · exact (emit _).bind fun _ => (fragment _).bind fun _ => emit _
  · exact (fragment _).bind fun _ => emit _

theorem visitMath_oblivious (display : Bool) (e : Element) : Oblivious (visitMath display e) := by
  refine (emit _).bind fun _ => (note _).bind fun _ => ?_
  split
  · exact say _ _
  · split
    · exact of_throw _
    · exact say _ _
    · refine get_bind (fun _ => rfl) fun t => ?_
      split
      · exact setFormula_oblivious _ _
      · exact say _ _

theorem visitDescriptionList_oblivious (h : ∀ c, Oblivious (visit c)) (p : Place) :
    Oblivious (visitDescriptionList visit p) := by
  have hcontent : ∀ (empty : Bool) (env : String), Oblivious (do
      if empty then
        emptyItem
        modify fun t => { t with list := { t.list with sawTerm := true } }
      visitChildren visit p
      Typeset.emit (Emit.endEnv env)) := by
    intro empty env
    have hitems := (visitChildren_oblivious h p).bind fun _ => emit (Emit.endEnv env)
    split
    · exact (mark _).bind fun _ => (of_modify fun _ => rfl).bind fun _ => hitems
    · exact hitems
  unfold visitDescriptionList
  split
  · exact of_pure ()
  · dsimp only
    split
    · exact forM fun q => visitMath_oblivious true q.element
    · refine get_bind (fun _ => rfl) fun t => (of_modify fun _ => rfl).bind fun _ => get_bind (fun _ => rfl) fun t₁ => ?_
      refine finishing ((emit _).bind fun _ => ?_) (of_modify fun _ => rfl)
      split
      · exact (hcontent _ _).inList fun _ => rfl
      · exact hcontent _ _

theorem visitTerm_oblivious (h : ∀ c, Oblivious (visit c)) (p : Place) : Oblivious (visitTerm visit p) := by
  have hlast : Oblivious (do
      Typeset.fragment "]"
      Typeset.emit Emit.dirBreak
      modify fun t => { t with list := { t.list with sawTerm := true } }) :=
    (fragment _).bind fun _ => (emit _).bind fun _ => of_modify fun _ => rfl
  have htext : ∀ {rest : Typeset Unit}, Oblivious rest → Oblivious (do
      Typeset.emit Emit.dirBreak
      Typeset.emit Emit.resetLine
      visitChildren visit p
      Typeset.emit Emit.dirBreak
      rest) := fun hrest =>
    (emit _).bind fun _ => (emit _).bind fun _ => (visitChildren_oblivious h p).bind fun _ => (emit _).bind fun _ => hrest
  refine get_bind (fun _ => rfl) fun t => ?_
  split
  · exact visitParagraph_oblivious h p
  · refine (of_modify fun _ => rfl).bind fun _ => (emit _).bind fun _ => (fragment _).bind fun _ => ?_
    split
    · exact (fragment _).bind fun _ => htext ((fragment _).bind fun _ => hlast)
    · exact htext hlast

theorem visitDefinition_oblivious (h : ∀ c, Oblivious (visit c)) (p : Place) : Oblivious (visitDefinition visit p) := by
  refine get_bind (fun _ => rfl) fun t => ?_
  split
  · exact visitParagraph_oblivious h p
  · split
    · exact visitChildren_oblivious h p
    · split
      · exact visitChildren_oblivious h p
      · exact (emit _).bind fun _ => (mark _).bind fun _ => visitChildren_oblivious h p

theorem visitReferencesFrom_oblivious (h : ∀ c, Oblivious (visit c)) (number : Nat) (ps : List Place) :
    Oblivious (visitReferencesFrom visit number ps) := by
  induction ps generalizing number with
  | nil => exact of_pure ()
  | cons q qs ih =>
    exact (emit _).bind fun _ => (mark _).bind fun _ => (visitChildren_oblivious h q).bind fun _ => ih (number + 1)

theorem visitReferences_oblivious (h : ∀ c, Oblivious (visit c)) (p : Place) : Oblivious (visitReferences visit p) := by
  unfold visitReferences
  dsimp only
  split
  · exact of_pure ()
  · refine (emit _).bind fun _ => inList ?_ fun _ => rfl
    exact (fragment _).bind fun _ => (visitReferencesFrom_oblivious h 1 _).bind fun _ => emit _

/-! ### Figures -/

theorem pageFile_oblivious (e : Element) (filename : String) : Oblivious (pageFile e filename) := by
  unfold pageFile
  refine (note _).bind fun _ => ?_
  split
  case' h_1 => refine (of_pure _).bind fun page => ?_
  case' h_2 => refine (of_throw _).bind fun page => ?_
  all_goals
    refine get_bind (fun _ => rfl) fun t => ?_
    split
    · split
      · exact (say _ _).bind fun _ => of_pure _
      · exact of_pure _
    · exact of_pure _

theorem visitCaption_oblivious (h : ∀ c, Oblivious (visit c)) (p : Place) : Oblivious (visitCaption visit p) := by
  refine get_bind (fun _ => rfl) fun t => (lookup _).bind fun own => ?_
  dsimp only
  split
  · refine (beginLanguage _).bind fun _ => (updateLtrFont _).bind fun _ => (emit _).bind fun _ => ?_
    exact (fragment _).bind fun _ => (visitChildren_oblivious h p).bind fun _ => (emit _).bind fun _ => emit _
  · exact (fragment _).bind fun _ => (visitChildren_oblivious h p).bind fun _ => of_pure ()

theorem setFigure_oblivious (h : ∀ c, Oblivious (visit c)) (filename : String) (caption? : Option Place) :
    Oblivious (setFigure visit filename caption?) := by
  refine (emit _).bind fun _ => (emit _).bind fun _ => (fragment _).bind fun _ => (emit _).bind fun _ => ?_
  cases caption? with
  | none => exact emit _
  | some caption => exact (visitCaption_oblivious h caption).bind fun _ => emit _

theorem visitFigure_oblivious (h : ∀ c, Oblivious (visit c)) (p : Place) (otherCaption? : Option Place) :
    Oblivious (visitFigure visit p otherCaption?) := by
  unfold visitFigure
  split
  · exact of_pure ()
  · refine get_bind (fun _ => rfl) fun t => (resolved_oblivious _ _).bind fun resource => ?_
    have hset : ∀ filename, Oblivious (do
        modify fun t => { t with inFloat := true }
        Action.finishing (setFigure visit filename (p.children.find? (·.element.name == "figcaption") <|> otherCaption?))
          (modify fun t => { t with inFloat := false })) := fun filename =>
      (of_modify fun _ => rfl).bind fun _ => (setFigure_oblivious h filename _).finishing (of_modify fun _ => rfl)
    dsimp only
    split
    · exact say _ _
    · split
      · exact say _ _
      · split
        · exact say _ _
        · split
          · exact (pageFile_oblivious _ _).bind hset
          · exact (of_pure _).bind hset

theorem visitImage_oblivious (h : ∀ c, Oblivious (visit c)) (p : Place) : Oblivious (visitImage visit p) := by
  unfold visitImage
  split
  · exact of_pure ()
  · split
    · exact say _ _
    · exact visitFigure_oblivious h p none

theorem visitFigures_oblivious (h : ∀ c, Oblivious (visit c)) (images captions : List Place) :
    Oblivious (visitFigures visit images captions) := by
  induction images generalizing captions with
  | nil => exact of_pure ()
  | cons image images ih =>
    cases captions with
    | nil => exact (visitFigure_oblivious h image none).bind fun _ => ih []
    | cons caption captions => exact (visitFigure_oblivious h image (some caption)).bind fun _ => ih captions

theorem visitMultipleImage_oblivious (h : ∀ c, Oblivious (visit c)) (p : Place) :
    Oblivious (visitMultipleImage visit p) := by
  refine (of_modify fun _ => rfl).bind fun _ => ?_
  dsimp only
  split
  · exact of_throw _
  · exact visitFigures_oblivious h _ _

theorem visitTable_oblivious (p : Place) : Oblivious (visitTable p) := by
  refine get_bind (fun _ => rfl) fun t => ?_
  dsimp only
  split
  · exact of_pure ()
  · exact say _ _

/-! ### Walks and documents -/

theorem visitAs_oblivious (h : ∀ c, Oblivious (visit c)) (role : Role) (p : Place) : Oblivious (visitAs visit role p) := by
  cases role with
  | hidden => exact of_pure ()
  | backLink => exact of_pure ()
  | language => exact visitLanguage_oblivious h p
  | direction => exact visitDirection_oblivious h p
  | image => exact visitImage_oblivious h p
  | math => exact visitMath_oblivious false p.element
  | references => exact visitReferences_oblivious h p
  | multipleImage => exact visitMultipleImage_oblivious h p
  | citation => exact visitScript_oblivious h "sup" p
  | anchor => exact visitAnchor_oblivious h p
  | paragraph => exact visitParagraph_oblivious h p
  | heading => exact visitHeading_oblivious h p
  | inline => exact visitWrapped_oblivious h _ p
  | script => exact visitScript_oblivious h _ p
  | lineBreak => exact emit _
  | wordBreak => exact write _
  | environment => exact visitEnvironment_oblivious h p
  | list => exact visitList_oblivious h p
  | descriptionList => exact visitDescriptionList_oblivious h p
  | term => exact visitTerm_oblivious h p
  | definition => exact visitDefinition_oblivious h p
  | listItem => exact visitListItem_oblivious h p
  | table => exact visitTable_oblivious p
  | figure => exact visitFigure_oblivious h p none
  | div => exact visitDiv_oblivious h p
  | children => exact visitChildren_oblivious h p

theorem visitFrom_oblivious (depth : Nat) (c : Content) : Oblivious (visitFrom depth c) := by
  induction depth generalizing c with
  | zero => exact of_throw _
  | succ depth ih =>
    cases c with
    | text kind s =>
      unfold visitFrom
      split
      · exact write s
      · exact of_pure ()
    | element p => exact get_bind (fun _ => rfl) fun t => (note _).bind fun _ => visitAs_oblivious ih _ p

theorem typesetDocument_oblivious (document : Element) (title? : Option String) (lang : String) :
    Oblivious (typesetDocument document title? lang) := by
  have hbody : ∀ (body : Element), Oblivious (do
      Article.visit (.mk body (bodyPlace document).before (bodyPlace document).parent?)
      Typeset.emit Emit.paragraphBreak
      Typeset.emit Emit.flush
      Typeset.note [⟨.debug, .emitter, "Formatter flushed"⟩]) := fun body =>
    (visitFrom_oblivious _ _).bind fun _ => (emit _).bind fun _ => (emit _).bind fun _ => note _
  have hlanguage : Oblivious (withLanguage (bodyPlace document).element lang) := by
    have hdirection : ∀ body : Element, Oblivious (do
        if (body.attr "dir").isEmpty then
          let l ← Typeset.lookup (body.attr "lang")
          return body.withAttr "dir" (.text l.direction.name)
        else return body) := by
      intro body
      split
      · exact (lookup _).bind fun l => of_pure _
      · exact of_pure body
    unfold withLanguage
    split
    · exact hdirection _
    · exact hdirection _
  cases title? with
  | none => exact hlanguage.bind hbody
  | some title => exact (visitFrom_oblivious _ _).bind fun _ => hlanguage.bind hbody

/-- What a document is typeset to and how that ends does not depend on what has been warned about before. -/
theorem typeset_eq_of_warned (markup : List Char) (options : ArticleOptions) (title? language? : Option String)
    (warned : List String) :
    (typeset markup options title? language? warned).pieces = (typeset markup options title? language? []).pieces ∧
      (typeset markup options title? language? warned).outcome = (typeset markup options title? language? []).outcome := by
  cases hparsed : Html.document markup with
  | error cause =>
    simp [typeset, hparsed]
  | ok document =>
    rw [typeset_eq hparsed, typeset_eq hparsed]
    have hstart : ∀ options : ArticleOptions, (start options (.known options.direction) warned).unlogged =
        (start options (.known options.direction) []).unlogged := fun _ => rfl
    obtain ⟨hresult, hstate⟩ := typesetDocument_oblivious document title? (articleLanguage options language?) _ _
      (hstart (options.withBase (baseReference document)))
    have hemitter := congrArg (fun t : Typesetter => t.emitter.output) hstate
    have hused := congrArg Typesetter.used hstate
    refine ⟨hemitter, ?_⟩
    simp only [resultOf, hresult]
    exact congrArg (fun used => Except.map (fun _ => used) _) hused

end WikiTypeset.Article
