import WikiTypeset.Proofs.Article.Blocks

/-!
# What a walk hands over, and how far it goes

A walk goes by the outlook of the typesetter: the options, and the frame without what concerns the emitter. An action
crosses from one outlook to another if, from every typesetter with the first one, it comes to the second one or fails,
and if what it does to its emitter is a program of a given set. Of a program only the texts and formulas may matter that
it hands to the emitter. Beside the action stands another one that does the same. Every way of composing actions has a
rule; from any state of the emitter, none needs an invariant.
-/

namespace WikiTypeset.Latex

/-! ### What programs hand over -/

/-- Something that is handed to an emitter to be shown. -/
inductive Handed
  | text (s : List Char)
  | formula (value : String)
  deriving DecidableEq, Repr

/-- Whether a fragment is a formula: in dollars, or the group of one on lines of its own. -/
def isFormula (value : String) : Bool := value.toList.head? = some '$' || value.toList.head? = some '\x7b'

mutual

/-- What an operation hands to the emitter. -/
def Operation.handed : Operation → List Handed
  | .write text => [.text text]
  | .record d => if d.kind = .raw && isFormula d.value then [.formula d.value] else []
  | .wrap _ _ content => handedAll content
  | .isolated content => handedAll content
  | .resuming content => handedAll content
  | _ => []

/-- What a program hands to the emitter, in order. -/
def handedAll : List Operation → List Handed
  | [] => []
  | o :: os => o.handed ++ handedAll os

end

theorem handedAll_append (os os' : List Operation) : handedAll (os ++ os') = handedAll os ++ handedAll os' := by
  induction os with
  | nil => rfl
  | cons o os ih => rw [List.cons_append, handedAll, handedAll, ih, List.append_assoc]

theorem handedAll_singleton (o : Operation) : handedAll [o] = o.handed := by
  rw [handedAll, handedAll, List.append_nil]

end WikiTypeset.Latex

namespace WikiTypeset.Article

open Action Html Latex Typeset

/-! ### Outlooks -/

/-- What a walk goes by. -/
structure Outlook where
  options : ArticleOptions
  frame : Frame

/-- The outlook of a typesetter. Neither the list around it nor the depths of its emitter are part of it. -/
def Typesetter.outlook (t : Typesetter) : Outlook where
  options := t.options
  frame := { t.frame with kind? := none, inList := 0, inToc := 0 }

/-- The outlook in a changed frame. -/
def Outlook.reframed (g : Frame → Frame) (o : Outlook) : Outlook := { o with frame := g o.frame }

/-- Programs that hand over the given things. -/
def Handing (ws : List Handed) : Programs := fun os => handedAll os = ws

/-- From every typesetter with the outlook `o`, both actions do the same. If they give a result, then the outlook is `q`
and a program of the set has been performed; the bound of the walk is a reason to fail only where it may be `cut`. -/
def Crosses {α : Type} (cut : Prop) (o q : Outlook) (L : Programs) (a a' : Typeset α) : Prop :=
  ∀ t : Typesetter, t.outlook = o → a'.perform t = a.perform t ∧
    Leaves a t (fun _ t' => t'.outlook = q ∧ ∃ os, L os ∧ (performAll os).perform t.emitter = (.ok (), t'.emitter))
      fun c _ => c = .exhausted → cut

/-- The actions come back to the outlook and hand over the given things. -/
abbrev Hands {α : Type} (cut : Prop) (o : Outlook) (ws : List Handed) (a a' : Typeset α) : Prop :=
  Crosses cut o o (Handing ws) a a'

namespace Crosses

variable {α β : Type} {cut : Prop} {o q r : Outlook} {L L' : Programs} {ws ws' : List Handed}
  {a a' : Typeset α} {f f' : α → Typeset β}

theorem mono (h : Crosses cut o q L a a') (hL : ∀ os, L os → L' os) : Crosses cut o q L' a a' := by
  intro t ht
  obtain ⟨hsame, hleaves⟩ := h t ht
  refine ⟨hsame, hleaves.imp_left fun _ t' h' => ?_⟩
  obtain ⟨hlook, os, hos, hperform⟩ := h'
  exact ⟨hlook, os, hL os hos, hperform⟩

theorem of_pure (x : α) : Crosses cut o o (.only []) (pure x : Typeset α) (pure x) :=
  fun _ ht => ⟨rfl, Leaves.of_pure ⟨ht, [], rfl, rfl⟩⟩

theorem of_throw {c : ArticleError} (hc : c ≠ .exhausted) : Crosses cut o q L (throw c : Typeset α) (throw c) :=
  fun _ _ => ⟨rfl, Leaves.of_throw fun h => absurd h hc⟩

/-- What would come after a failure does not matter. -/
theorem throw_bind {c : ArticleError} (hc : c ≠ .exhausted) :
    Crosses cut o q L (throw c >>= f) (throw c >>= f') := by
  have hthrow : ∀ (g : α → Typeset β) (t : Typesetter), (throw c >>= g).perform t = (.error c, t) := by
    intro g t
    rw [perform_bind, perform_throw]
  exact fun t _ => ⟨by rw [hthrow, hthrow], Leaves.of_error (hthrow f t) fun h => absurd h hc⟩

/-- A change of the typesetter that its emitter does not see. -/
theorem of_modify {g : Typesetter → Typesetter} (hg : ∀ t : Typesetter, t.outlook = o → (g t).outlook = q)
    (he : ∀ t, (g t).emitter = t.emitter) : Crosses cut o q (.only []) (modify g) (modify g) :=
  fun t ht => ⟨rfl, Leaves.of_modify ⟨hg t ht, [], rfl, by rw [he]; rfl⟩⟩

/-- A change of the typesetter that is an operation of its emitter. -/
theorem of_change (op : Operation) {g : Typesetter → Typesetter} (hg : ∀ t : Typesetter, t.outlook = o → (g t).outlook = q)
    (he : ∀ t, op.perform.perform t.emitter = (.ok (), (g t).emitter)) :
    Crosses cut o q (.only [op]) (modify g) (modify g) := by
  refine fun t ht => ⟨rfl, Leaves.of_modify ⟨hg t ht, [op], rfl, ?_⟩⟩
  simpa [performAll] using he t

/-- An operation of the emitter. -/
theorem emit (op : Operation) : Crosses cut o o (.only [op]) (Typeset.emit op.perform) (Typeset.emit op.perform) := by
  refine fun t ht => ⟨rfl, Leaves.within ?_⟩
  refine (Leaves.self op.perform t.emitter).imp (fun _ e he => ?_) fun c e _ => nofun
  exact ⟨ht, [op], rfl, by simpa [performAll] using he⟩

theorem bind (ha : Crosses cut o q L a a') (hf : ∀ x, Crosses cut q r L' (f x) (f' x)) :
    Crosses cut o r (L.andThen L') (a >>= f) (a' >>= f') := by
  intro t ht
  obtain ⟨hsame, hleaves⟩ := ha t ht
  constructor
  · rw [perform_bind, perform_bind, hsame]
    rcases hperform : a.perform t with ⟨c | x, t₁⟩
    · rfl
    · exact (hf x t₁ (hleaves.ok hperform).1).1
  · refine hleaves.bind fun x t₁ h₁ => ?_
    obtain ⟨hlook, os, hos, hperform⟩ := h₁
    refine (hf x t₁ hlook).2.imp_left fun _ t₂ h₂ => ?_
    obtain ⟨hlook', os', hos', hperform'⟩ := h₂
    refine ⟨hlook', os ++ os', ⟨os, os', hos, hos', rfl⟩, ?_⟩
    rw [performAll_append, perform_bind, hperform]
    exact hperform'

/-- What is looked up may be any typesetter with the outlook. -/
theorem get_bind {f f' : Typesetter → Typeset β} (hf : ∀ t : Typesetter, t.outlook = o → Crosses cut o q L (f t) (f' t)) :
    Crosses cut o q L (get >>= f) (get >>= f') := by
  intro t ht
  obtain ⟨hsame, hleaves⟩ := hf t ht t ht
  exact ⟨by rw [perform_bind, perform_bind, perform_get]; exact hsame, Leaves.get_bind hleaves⟩

/-- What is put right at the end. -/
theorem finishing {g : Typesetter → Typesetter} (ha : Crosses cut o q L a a')
    (hg : Crosses cut q r L' (modify g : Typeset Unit) (modify g)) :
    Crosses cut o r (L.andThen L') (Action.finishing a (modify g)) (Action.finishing a' (modify g)) := by
  intro t ht
  obtain ⟨hsame, hleaves⟩ := ha t ht
  refine ⟨by rw [perform_finishing, perform_finishing, hsame], Leaves.finishing (hleaves.imp (fun _ t₁ h₁ => ?_) ?_)⟩
  · obtain ⟨hlook, os, hos, hperform⟩ := h₁
    obtain ⟨hlook', os', hos', hperform'⟩ := (hg t₁ hlook).2.ok (perform_modify g t₁)
    refine Leaves.of_modify ⟨hlook', os ++ os', ⟨os, os', hos, hos', rfl⟩, ?_⟩
    rw [performAll_append, perform_bind, hperform]
    exact hperform'
  · exact fun c t₁ h₁ => Leaves.of_modify h₁

/-- Content inside inline formatting. -/
theorem wrap {command : String} {content content' : Typeset Unit} (h : Crosses cut o q L content content') :
    Crosses cut o q (L.inside (.wrap command {})) (Typeset.wrap command content) (Typeset.wrap command content') := by
  intro t ht
  have hrecord : ∀ (d : Decoration) (t : Typesetter), Leaves (Typeset.emit (Emit.record d)) t
      (fun _ t' => t'.outlook = t.outlook ∧ (Emit.record d).perform t.emitter = (.ok (), t'.emitter))
      fun c _ => c = .exhausted → cut := fun d t => Leaves.within <|
    (Leaves.self (Emit.record d) t.emitter).imp (fun _ _ he => ⟨rfl, he⟩) fun _ _ _ => nofun
  constructor
  · unfold Typeset.wrap
    rw [perform_bind, perform_bind]
    rcases hperform : (Typeset.emit (Emit.record (.startInline command))).perform t with ⟨c | x, t₁⟩
    · rfl
    · have hlook := ((hrecord _ t).ok hperform).1
      show (Action.finishing content' _).perform t₁ = (Action.finishing content _).perform t₁
      rw [perform_finishing, perform_finishing, (h t₁ (hlook.trans ht)).1]
  · refine (hrecord _ t).bind fun _ t₁ h₁ => Leaves.finishing ?_
    obtain ⟨hlook, hstart⟩ := h₁
    refine (h t₁ (hlook.trans ht)).2.imp (fun _ t₂ h₂ => ?_) fun c t₂ h₂ => ?_
    · obtain ⟨hlook', os, hos, hcontent⟩ := h₂
      refine (hrecord _ t₂).imp_left fun _ t₃ h₃ => ⟨h₃.1.trans hlook', [.wrap command {} os], ⟨os, hos, rfl⟩, ?_⟩
      simp only [performAll, Operation.perform, Emit.wrap, perform_bind, hstart, perform_finishing, hcontent, h₃.2,
        perform_pure]
    · exact (hrecord _ t₂).imp (fun _ _ _ => h₂) fun _ _ h₃ => h₃

/-- Content outside all inline formatting. -/
theorem isolated {content content' : Typeset Unit} (h : Crosses cut o q L content content') :
    Crosses cut o q (L.inside .isolated) (Typeset.isolated content) (Typeset.isolated content') := by
  intro t ht
  have hemit : ∀ {γ : Type} (a : Emit γ) (t : Typesetter), Leaves (Typeset.emit a) t
      (fun x t' => t'.outlook = t.outlook ∧ a.perform t.emitter = (.ok x, t'.emitter))
      fun c _ => c = .exhausted → cut := fun a t => Leaves.within <|
    (Leaves.self a t.emitter).imp (fun _ _ he => ⟨rfl, he⟩) fun _ _ _ => nofun
  constructor
  · unfold Typeset.isolated
    rw [perform_bind, perform_bind]
    rcases hperform : (Typeset.emit Emit.enterIsolation).perform t with ⟨c | saved, t₁⟩
    · rfl
    · have hlook := ((hemit _ t).ok hperform).1
      show (Action.finishing (content' >>= fun _ => Typeset.emit Emit.checkIsolation) _).perform t₁ =
        (Action.finishing (content >>= fun _ => Typeset.emit Emit.checkIsolation) _).perform t₁
      rw [perform_finishing, perform_finishing, perform_bind, perform_bind, (h t₁ (hlook.trans ht)).1]
  · refine (hemit _ t).bind fun saved t₁ h₁ => Leaves.finishing ?_
    obtain ⟨hlook, henter⟩ := h₁
    have hchecked : Leaves (content >>= fun _ => Typeset.emit Emit.checkIsolation) t₁
        (fun _ t₂ => t₂.outlook = q ∧ ∃ os, L os ∧
          (performAll os >>= fun _ => Emit.checkIsolation).perform t₁.emitter = (.ok (), t₂.emitter))
        fun c _ => c = .exhausted → cut := by
      refine (h t₁ (hlook.trans ht)).2.bind fun _ t₂ h₂ => ?_
      obtain ⟨hlook', os, hos, hcontent⟩ := h₂
      refine (hemit _ t₂).imp_left fun _ t₃ h₃ => ⟨h₃.1.trans hlook', os, hos, ?_⟩
      rw [perform_bind, hcontent]
      exact h₃.2
    refine hchecked.imp (fun _ t₂ h₂ => ?_) fun c t₂ h₂ => Leaves.of_ok rfl h₂
    obtain ⟨hlook', os, hos, hcontent⟩ := h₂
    refine Leaves.of_ok rfl ⟨hlook', [.isolated os], ⟨os, hos, rfl⟩, ?_⟩
    simp only [performAll, Operation.perform, Emit.isolated, perform_bind, henter, perform_finishing, Emit.leaveIsolation,
      perform_modify, perform_pure]
    rw [perform_bind] at hcontent
    simp only [hcontent]

end Crosses

/-! ### What actions hand over -/

section

variable {α β : Type} {cut : Prop} {o q r : Outlook} {L : Programs} {os : List Operation} {ws ws' : List Handed}
  {a a' : Typeset α} {f f' : α → Typeset β}

theorem Crosses.handing (h : Crosses cut o q (.only os) a a') (hws : handedAll os = ws) :
    Crosses cut o q (Handing ws) a a' := by
  refine h.mono ?_
  rintro _ rfl
  exact hws

theorem Crosses.andThen (ha : Crosses cut o q (Handing ws) a a')
    (hf : ∀ x, Crosses cut q r (Handing ws') (f x) (f' x)) :
    Crosses cut o r (Handing (ws ++ ws')) (a >>= f) (a' >>= f') := by
  refine (ha.bind hf).mono ?_
  rintro _ ⟨os, os', rfl, rfl, rfl⟩
  exact handedAll_append os os'

/-- What comes before something that is handed over. -/
theorem Crosses.before (ha : Crosses cut o q (Handing []) a a')
    (hf : ∀ x, Crosses cut q r (Handing ws) (f x) (f' x)) : Crosses cut o r (Handing ws) (a >>= f) (a' >>= f') :=
  ha.andThen hf

/-- What comes after something that is handed over. -/
theorem Crosses.after (ha : Crosses cut o q (Handing ws) a a')
    (hf : ∀ x, Crosses cut q r (Handing []) (f x) (f' x)) : Crosses cut o r (Handing ws) (a >>= f) (a' >>= f') := by
  have h := ha.andThen hf
  rwa [List.append_nil] at h

theorem Hands.nothing (x : α) : Hands cut o [] (pure x : Typeset α) (pure x) := (Crosses.of_pure x).handing rfl

theorem Hands.step (op : Operation) : Hands cut o op.handed (Typeset.emit op.perform) (Typeset.emit op.perform) :=
  (Crosses.emit op).handing (handedAll_singleton op)

theorem Hands.fragment (value : String) :
    Hands cut o (if isFormula value then [.formula value] else []) (Typeset.fragment value) (Typeset.fragment value) :=
  Hands.step (.record (.raw value))

/-- A command is no formula. -/
theorem Hands.command {value : String} (h : isFormula value = false) :
    Hands cut o [] (Typeset.fragment value) (Typeset.fragment value) := by
  have hfragment : Hands cut o _ _ _ := Hands.fragment value
  rwa [h] at hfragment

/-- A change of the frame. -/
theorem Crosses.reframing {g : Typesetter → Typesetter} (G : Frame → Frame)
    (hg : ∀ t : Typesetter, (g t).outlook = t.outlook.reframed G) (he : ∀ t, (g t).emitter = t.emitter) :
    Crosses cut o (o.reframed G) (Handing []) (modify g) (modify g) := by
  refine Crosses.handing (Crosses.of_modify (fun t ht => ?_) he) rfl
  rw [hg, ht]

/-- A change of what a walk does not go by. -/
theorem Hands.aside {g : Typesetter → Typesetter} (hg : ∀ t : Typesetter, (g t).outlook = t.outlook)
    (he : ∀ t, (g t).emitter = t.emitter) : Hands cut o [] (modify g) (modify g) :=
  Crosses.reframing id hg he

theorem Hands.note (log : Log) : Hands cut o [] (Typeset.note log) (Typeset.note log) :=
  Hands.aside (fun _ => rfl) fun _ => rfl

theorem Hands.say (level : LogLevel) (text : String) : Hands cut o [] (Typeset.say level text) (Typeset.say level text) :=
  Hands.note _

theorem Hands.lookup (code : String) : Hands cut o [] (Typeset.lookup code) (Typeset.lookup code) :=
  Crosses.get_bind fun _ _ => Crosses.before (Hands.aside (fun _ => rfl) fun _ => rfl) fun _ =>
    (Hands.note _).before fun _ => Hands.nothing _

theorem Hands.ite {b b' : Typeset α} {P : Prop} [Decidable P] (h : P → Hands cut o ws a a')
    (h' : ¬ P → Hands cut o ws' b b') :
    Hands cut o (if P then ws else ws') (if P then a else b) (if P then a' else b') := by
  by_cases hp : P
  · rw [if_pos hp, if_pos hp, if_pos hp]
    exact h hp
  · rw [if_neg hp, if_neg hp, if_neg hp]
    exact h' hp

theorem Hands.wrap {command : String} {content content' : Typeset Unit} (h : Hands cut o ws content content') :
    Hands cut o ws (Typeset.wrap command content) (Typeset.wrap command content') := by
  refine (Crosses.wrap h).mono ?_
  rintro _ ⟨os, rfl, rfl⟩
  exact handedAll_singleton _

/-- A part one level deeper in lists. -/
theorem Crosses.inList {content content' : Typeset Unit} {restore : Typesetter → Typesetter}
    (h : Crosses cut o q L content content')
    (hr : ∀ t : Typesetter, t.outlook = q → (restore t).outlook = r) (he : ∀ t, (restore t).emitter = t.emitter) :
    Crosses cut o r ((Programs.only [.deepenList 1]).andThen (L.andThen (.only [.deepenList (-1)])))
      (Typeset.inList content restore) (Typeset.inList content' restore) := by
  refine Crosses.bind (Crosses.of_change (.deepenList 1) (fun _ ht => ht) fun _ => rfl) fun _ => h.finishing ?_
  refine Crosses.of_change (.deepenList (-1)) (fun t ht => hr _ ht) fun t => ?_
  rw [he]
  rfl

theorem Hands.inList {content content' : Typeset Unit} {restore : Typesetter → Typesetter}
    (h : Hands cut o ws content content') (hr : ∀ t : Typesetter, t.outlook = o → (restore t).outlook = o)
    (he : ∀ t, (restore t).emitter = t.emitter) :
    Hands cut o ws (Typeset.inList content restore) (Typeset.inList content' restore) := by
  refine (Crosses.inList h hr he).mono ?_
  rintro _ ⟨_, _, rfl, ⟨os, _, rfl, rfl, rfl⟩, rfl⟩
  simp [Handing, handedAll, handedAll_append, Operation.handed]

/-- What is put right at the end does not concern the emitter. -/
theorem Crosses.restored {g : Typesetter → Typesetter} (ha : Crosses cut o q (Handing ws) a a')
    (hg : ∀ t : Typesetter, t.outlook = q → (g t).outlook = r) (he : ∀ t, (g t).emitter = t.emitter) :
    Crosses cut o r (Handing ws) (Action.finishing a (modify g)) (Action.finishing a' (modify g)) := by
  refine (ha.finishing (Crosses.of_modify hg he)).mono ?_
  rintro _ ⟨os, _, rfl, rfl, rfl⟩
  exact congrArg handedAll (List.append_nil os)

theorem Hands.forM {γ : Type} {g g' : γ → Typeset Unit} {xs : List γ} {ws : γ → List Handed}
    (h : ∀ x ∈ xs, Hands cut o (ws x) (g x) (g' x)) : Hands cut o (xs.flatMap ws) (xs.forM g) (xs.forM g') := by
  induction xs with
  | nil => exact Hands.nothing ()
  | cons x xs ih =>
    obtain ⟨hx, hxs⟩ := List.forall_mem_cons.1 h
    exact hx.andThen fun _ => ih hxs

end

/-! ### Running text -/

variable {cut : Prop} {visit visit' : Visit} {o : Outlook} {ws : List Handed} {p : Place}

theorem visitChildren_hands {ws : Content → List Handed}
    (h : ∀ c ∈ contentsOf p, Hands cut o (ws c) (visit c) (visit' c)) :
    Hands cut o ((contentsOf p).flatMap ws) (visitChildren visit p) (visitChildren visit' p) :=
  Hands.forM h

theorem visitParagraph_hands (h : Hands cut o ws (visitChildren visit p) (visitChildren visit' p)) :
    Hands cut o ws (visitParagraph visit p) (visitParagraph visit' p) :=
  (Hands.step .paragraphBreak).before fun _ => h.after fun _ => Hands.step .paragraphBreak

theorem visitDiv_hands (h : Hands cut o ws (visitChildren visit p) (visitChildren visit' p)) :
    Hands cut o ws (visitDiv visit p) (visitDiv visit' p) :=
  (Hands.step .lineBreak).before fun _ => h.after fun _ => Hands.step .lineBreak

theorem visitWrapped_hands (h : Hands cut o ws (visitChildren visit p) (visitChildren visit' p)) (command : String) :
    Hands cut o ws (visitWrapped visit command p) (visitWrapped visit' command p) :=
  h.wrap

/-- What a subscript or superscript hands over: a formula, if it is a number. -/
def scriptHanded (name : String) (e : Element) (ws : List Handed) : List Handed :=
  match soleNumber? e with
  | some digits => [.formula ("$" ++ (if name = "sup" then "^" else "_") ++ "\x7b" ++ String.ofList digits ++ "\x7d$")]
  | none => ws

theorem visitScript_hands (h : Hands cut o ws (visitChildren visit p) (visitChildren visit' p)) (name : String) :
    Hands cut o (scriptHanded name p.element ws) (visitScript visit name p) (visitScript visit' name p) := by
  unfold visitScript scriptHanded
  cases soleNumber? p.element with
  | none => exact visitWrapped_hands h _
  | some digits =>
    have hfragment : Hands cut o _ _ _ :=
      Hands.fragment ("$" ++ (if name = "sup" then "^" else "_") ++ "\x7b" ++ String.ofList digits ++ "\x7d$")
    rwa [if_pos (by simp [isFormula])] at hfragment

/-- A reference is resolved, or its resolution fails. -/
theorem resolved_hands (base target : String) : Hands cut o [] (resolved base target) (resolved base target) := by
  unfold resolved
  split
  · exact Hands.nothing _
  · exact Crosses.of_throw nofun

theorem visitAnchor_hands (h : Hands cut o ws (visitChildren visit p) (visitChildren visit' p)) :
    Hands cut o ws (visitAnchor visit p) (visitAnchor visit' p) := by
  refine Crosses.get_bind fun t _ => ?_
  split
  · exact h
  · split
    · exact visitWrapped_hands h _
    · exact (resolved_hands _ _).before fun _ => visitWrapped_hands h _

/-! ### Languages and directions -/

theorem updateLtrFont_hands (l : Language) : Hands cut o [] (updateLtrFont l) (updateLtrFont l) := by
  unfold updateLtrFont
  split
  · rename_i command hcommand
    have hformula : isFormula command = false := by
      unfold Language.ltrFontCommand? at hcommand
      split at hcommand
      · cases hcommand
        simp [isFormula]
      · cases hcommand
    exact (Hands.command hformula).before fun _ => (Hands.step .envBreak).before fun _ => Hands.step .resetLine
  · exact Hands.nothing ()

theorem beginEnv_hands (env options : String) :
    Hands cut o [] (emit (Emit.beginEnv env options)) (emit (Emit.beginEnv env options)) :=
  Hands.step (.beginEnv env options)

theorem endEnv_hands (env : String) : Hands cut o [] (emit (Emit.endEnv env)) (emit (Emit.endEnv env)) :=
  Hands.step (.endEnv env)

theorem assumeDirection_hands (direction : NamedDirection) :
    Hands cut o [] (emit (Emit.assumeDirection direction)) (emit (Emit.assumeDirection direction)) :=
  Hands.step (.assumeDirection direction)

theorem switchDirection_hands (direction : NamedDirection) :
    Hands cut o [] (emit (Emit.switchDirection direction)) (emit (Emit.switchDirection direction)) :=
  Hands.step (.switchDirection direction)

theorem setCoverage_hands (coverage : Bool) :
    Hands cut o [] (emit (Emit.setCoverage coverage)) (emit (Emit.setCoverage coverage)) :=
  Hands.step (.setCoverage coverage)

/-- An element in its own language, in the short form of a heading or not. -/
theorem visitLanguage_hands (h : Hands cut (o.reframed (Frame.speaking (p.element.attr "lang"))) ws (visit (.element p))
      (visit' (.element p))) : Hands cut o ws (visitLanguage visit p) (visitLanguage visit' p) := by
  refine Crosses.get_bind fun t ht => Crosses.before (Hands.aside (fun _ => rfl) fun _ => rfl) fun _ => ?_
  refine (Hands.lookup _).before fun previous => (Hands.lookup _).before fun l => ?_
  refine Crosses.before (Crosses.reframing (Frame.speaking (p.element.attr "lang")) (fun _ => rfl) fun _ => rfl) fun _ => ?_
  refine Crosses.restored (q := o.reframed (Frame.speaking (p.element.attr "lang"))) ?_ (fun t' ht' => ?_) fun _ => rfl
  · split
    · exact h
    · split
      · exact (beginEnv_hands _ _).before fun _ => (updateLtrFont_hands l).before fun _ =>
          (setCoverage_hands _).before fun _ =>
          (assumeDirection_hands _).before fun _ => h.after fun _ => (endEnv_hands _).before fun _ =>
          (setCoverage_hands _).before fun _ => assumeDirection_hands _
      · refine Crosses.after (Hands.wrap ?_) fun _ => (setCoverage_hands _).before fun _ => assumeDirection_hands _
        exact (assumeDirection_hands _).before fun _ => (setCoverage_hands _).before fun _ => h
  · subst ht
    exact congrArg (Outlook.reframed (Frame.speaking t.language)) ht'

/-- An element in its own direction, in the short form of a heading or not. -/
theorem visitDirection_hands
    (h : Hands cut (o.reframed (Frame.facing (directionOf o.frame.direction p.element))) ws (visit (.element p))
      (visit' (.element p))) : Hands cut o ws (visitDirection visit p) (visitDirection visit' p) := by
  unfold visitDirection
  refine Crosses.get_bind fun t ht => ?_
  have hdirection : o.frame.direction = t.direction := by rw [← ht]; rfl
  rw [hdirection] at h
  -- Which direction it is makes no difference.
  generalize directionOf t.direction p.element = direction at h
  refine Crosses.before (Crosses.reframing (Frame.facing direction) (fun _ => rfl) fun _ => rfl) fun _ => ?_
  refine Crosses.restored (q := o.reframed (Frame.facing direction)) ?_ (fun t' ht' => ?_) fun _ => rfl
  · split
    · exact h
    · exact (switchDirection_hands _).before fun _ => h.after fun _ => switchDirection_hands _
  · subst ht
    exact congrArg (Outlook.reframed (Frame.facing t.direction)) ht'

/-! ### Headings -/

theorem visitHeadingText_hands (h : Hands cut o ws (visitChildren visit p) (visitChildren visit' p)) (own : Language)
    (switch : Bool) : Hands cut o ws (visitHeadingText visit p own switch) (visitHeadingText visit' p own switch) := by
  refine (Hands.step .dirBreak).before fun _ => ?_
  split
  · exact (Hands.step .resetLine).before fun _ => h.after fun _ => Hands.step .dirBreak
  · refine Crosses.get_bind fun t _ => Crosses.after (Hands.wrap ?_) fun _ => Hands.step .dirBreak
    exact (assumeDirection_hands _).before fun _ => Crosses.get_bind fun t _ => (switchDirection_hands _).before fun _ =>
      (Hands.step .resetLine).before fun _ => h

/-- The programs of headings by a command, which hand over the given things in the short form and once more in the heading
itself, and nothing around it. -/
def HeadingForms (command : String) (ws : List Handed) : Programs := fun os => ∃ before short long after,
  os = before ++ [.isolated (.deepenToc 1 :: .record (.raw (shortOpening command)) :: short ++
    [.deepenToc (-1), .record (.raw "]\x7b")] ++ long ++ [.record (.raw "\x7d")])] ++ after ∧
  handedAll before = [] ∧ handedAll short = ws ∧ handedAll long = ws ∧ handedAll after = []

theorem HeadingForms.handed {command : String} {os : List Operation} (h : HeadingForms command ws os) :
    handedAll os = ws ++ ws := by
  obtain ⟨before, short, long, after, rfl, hbefore, hshort, hlong, hafter⟩ := h
  have hopening : isFormula (shortOpening command) = false := by simp [isFormula, shortOpening]
  simp [handedAll_append, handedAll, Operation.handed, hbefore, hshort, hlong, hafter, hopening, Decoration.raw,
    show isFormula "]\x7b" = false by decide, show isFormula "\x7d" = false by decide]

theorem HeadingForms.between {command : String} {before after : List Operation} {os : List Operation}
    (h : HeadingForms command ws os) (hbefore : handedAll before = []) (hafter : handedAll after = []) :
    HeadingForms command ws (before ++ (os ++ after)) := by
  obtain ⟨first, short, long, last, rfl, hfirst, hshort, hlong, hlast⟩ := h
  refine ⟨before ++ first, short, long, last ++ after, by simp, ?_, hshort, hlong, ?_⟩
  · rw [handedAll_append, hbefore, hfirst]
    rfl
  · rw [handedAll_append, hlast, hafter]
    rfl

/-- What stands before and after a heading hands over nothing. -/
theorem Crosses.enclosing {α β : Type} {a a' : Typeset α} {f f' : α → Typeset β} {q r : Outlook} {command : String}
    (ha : Crosses cut o q (Handing []) a a') (hf : ∀ x, Crosses cut q r (HeadingForms command ws) (f x) (f' x)) :
    Crosses cut o r (HeadingForms command ws) (a >>= f) (a' >>= f') := by
  refine (ha.bind hf).mono ?_
  rintro _ ⟨before, os, hbefore, hos, rfl⟩
  rw [← List.append_nil os]
  exact hos.between hbefore (by rw [handedAll])

theorem Crosses.enclosed {α β : Type} {a a' : Typeset α} {f f' : α → Typeset β} {q r : Outlook} {command : String}
    (ha : Crosses cut o q (HeadingForms command ws) a a') (hf : ∀ x, Crosses cut q r (Handing []) (f x) (f' x)) :
    Crosses cut o r (HeadingForms command ws) (a >>= f) (a' >>= f') := by
  refine (ha.bind hf).mono ?_
  rintro _ ⟨os, after, hos, hafter, rfl⟩
  have hnone : handedAll [] = [] := by rw [handedAll]
  exact hos.between hnone hafter

/-- A heading: its text in the short form, and its text again. Both are typeset in an outlook of their own. -/
theorem headingBody_forms (level : Nat) (own : Language) (switch : Bool)
    (hshort : Hands cut (o.reframed (Frame.titled true)) ws (visitChildren visit p) (visitChildren visit' p))
    (hlong : Hands cut (o.reframed (Frame.titled false)) ws (visitChildren visit p) (visitChildren visit' p)) :
    Crosses cut o (o.reframed (Frame.titled false)) (HeadingForms (sectionCommand level) ws) (isolated do
      modify fun t => deepenToc 1 { t with inHeading := true }
      Action.finishing (do
        Typeset.fragment ("\\" ++ sectionCommand level ++ "[")
        visitHeadingText visit p own switch) (modify (deepenToc (-1)))
      Typeset.fragment "]\x7b"
      modify fun t => { t with inHeading := false }
      visitHeadingText visit p own switch
      Typeset.fragment "\x7d") (isolated do
      modify fun t => deepenToc 1 { t with inHeading := true }
      Action.finishing (do
        Typeset.fragment ("\\" ++ sectionCommand level ++ "[")
        visitHeadingText visit' p own switch) (modify (deepenToc (-1)))
      Typeset.fragment "]\x7b"
      modify fun t => { t with inHeading := false }
      visitHeadingText visit' p own switch
      Typeset.fragment "\x7d") := by
  have hfragment : ∀ {o : Outlook} (value : String), Crosses cut o o (.only [.record (.raw value)])
      (Typeset.fragment value) (Typeset.fragment value) := fun value => Crosses.emit (.record (.raw value))
  have henter : Crosses cut o (o.reframed (Frame.titled true)) (.only [.deepenToc 1])
      (modify fun t => deepenToc 1 { t with inHeading := true })
      (modify fun t => deepenToc 1 { t with inHeading := true }) :=
    Crosses.of_change (.deepenToc 1) (fun _ ht => ht ▸ rfl) fun _ => rfl
  have hleave : Crosses cut (o.reframed (Frame.titled true)) (o.reframed (Frame.titled true)) (.only [.deepenToc (-1)])
      (modify (deepenToc (-1))) (modify (deepenToc (-1))) :=
    Crosses.of_change (.deepenToc (-1)) (fun _ ht => ht) fun _ => rfl
  have hshown : Crosses cut (o.reframed (Frame.titled true)) (o.reframed (Frame.titled false)) (.only [])
      (modify fun t => { t with inHeading := false }) (modify fun t => { t with inHeading := false }) :=
    Crosses.of_modify (fun _ ht => congrArg (Outlook.reframed (Frame.titled false)) ht) fun _ => rfl
  have hfirst := Crosses.finishing ((hfragment ("\\" ++ sectionCommand level ++ "[")).bind fun _ =>
    visitHeadingText_hands hshort own switch) hleave
  have hsecond := (hfragment "]\x7b").bind fun _ => hshown.bind fun _ =>
    (visitHeadingText_hands hlong own switch).bind fun _ => hfragment "\x7d"
  refine (Crosses.isolated (henter.bind fun _ => hfirst.bind fun _ => hsecond)).mono ?_
  rintro _ ⟨_, ⟨_, _, rfl, ⟨_, _, ⟨_, _, ⟨_, short, rfl, hshort, rfl⟩, rfl, rfl⟩, ⟨_, _, rfl, ⟨_, _, rfl, ⟨long, _, hlong,
    rfl, rfl⟩, rfl⟩, rfl⟩, rfl⟩, rfl⟩, rfl⟩
  exact ⟨[], short, long, [], by simp [shortOpening], by rw [handedAll], hshort, hlong, by rw [handedAll]⟩

/-- A heading that is not left out. -/
theorem visitHeading_forms
    (hshown : isUntitled o.options (o.frame.inHeading || o.frame.headingDepth ≠ 0) p.element = false)
    (hshort : Hands cut (o.reframed fun x => x.headed.titled true) ws (visitChildren visit p) (visitChildren visit' p))
    (hlong : Hands cut (o.reframed fun x => x.headed.titled false) ws (visitChildren visit p) (visitChildren visit' p)) :
    Crosses cut o o (HeadingForms (sectionCommand (headingLevel o.options p.element)) ws) (visitHeading visit p)
      (visitHeading visit' p) := by
  refine Crosses.get_bind fun t ht => ?_
  subst ht
  obtain ⟨htop, hopen, hdepth⟩ : (t.options.singleItem && decide (headingLevel t.options p.element = 0)) = false ∧
      t.inHeading = false ∧ t.headingDepth = 0 := by
    simp only [isUntitled, Bool.or_eq_false_iff, decide_eq_false_iff_not, not_not] at hshown
    exact ⟨hshown.1, hshown.2.1, hshown.2.2⟩
  dsimp only
  have hguard : ¬ (t.options.singleItem && decide (headingLevel t.options p.element = 0) || t.inHeading ||
      decide (t.headingDepth ≠ 0)) = true := by simp [htop, hopen, hdepth]
  rw [if_neg hguard, if_neg hguard]
  have hleave : ∀ t' : Typesetter, t'.outlook = (t.outlook.reframed Frame.headed).reframed (Frame.titled false) →
      Typesetter.outlook { t' with inHeading := false, headingDepth := t'.headingDepth - 1 } = t.outlook := by
    intro t' ht'
    have hchange : Typesetter.outlook { t' with inHeading := false, headingDepth := t'.headingDepth - 1 } =
        t'.outlook.reframed fun x => { x with inHeading := false, headingDepth := x.headingDepth - 1 } := rfl
    rw [hchange, ht']
    show Outlook.mk t.options { t.outlook.frame with inHeading := false, headingDepth := t.headingDepth } = t.outlook
    rw [← hopen]
    rfl
  have hdeeper : Crosses cut t.outlook (t.outlook.reframed Frame.headed) (Handing [])
      (modify fun t => { t with headingDepth := t.headingDepth + 1 })
      (modify fun t => { t with headingDepth := t.headingDepth + 1 }) :=
    Crosses.reframing Frame.headed (fun _ => rfl) fun _ => rfl
  have hbody := fun (own : Language) (switch : Bool) => Crosses.inList
    (headingBody_forms (headingLevel t.options p.element) own switch hshort hlong) hleave fun _ => rfl
  have hheading := fun own switch => (hbody own switch).mono fun program hprogram =>
    show HeadingForms (sectionCommand (headingLevel t.options p.element)) ws program by
      obtain ⟨_, _, rfl, ⟨os, _, hos, rfl, rfl⟩, rfl⟩ := hprogram
      exact hos.between (handedAll_singleton _) (handedAll_singleton _)
  refine Crosses.enclosing (Hands.step .paragraphBreak) fun _ => Crosses.enclosing (Hands.lookup _) fun toc =>
    Crosses.enclosing (Hands.lookup _) fun own => Crosses.get_bind fun t' _ => ?_
  split
  · exact Crosses.enclosing (beginEnv_hands _ _) fun _ => Crosses.enclosing (updateLtrFont_hands toc) fun _ =>
      Crosses.enclosing (assumeDirection_hands _) fun _ => Crosses.enclosing hdeeper fun _ =>
      (hheading own _).enclosed fun _ => (endEnv_hands _).before fun _ => (assumeDirection_hands _).before fun _ =>
      Crosses.get_bind fun _ _ => (switchDirection_hands _).before fun _ => Hands.step .paragraphBreak
  · exact Crosses.enclosing hdeeper fun _ => (hheading own _).enclosed fun _ => Hands.step .paragraphBreak

/-- A heading hands over its text twice, unless it is left out. -/
theorem visitHeading_hands
    (h : isUntitled o.options (o.frame.inHeading || o.frame.headingDepth ≠ 0) p.element = false →
      Hands cut (o.reframed fun x => x.headed.titled true) ws (visitChildren visit p) (visitChildren visit' p) ∧
        Hands cut (o.reframed fun x => x.headed.titled false) ws (visitChildren visit p) (visitChildren visit' p)) :
    Hands cut o (if isUntitled o.options (o.frame.inHeading || o.frame.headingDepth ≠ 0) p.element then [] else ws ++ ws)
      (visitHeading visit p) (visitHeading visit' p) := by
  by_cases huntitled : isUntitled o.options (o.frame.inHeading || o.frame.headingDepth ≠ 0) p.element = true
  · rw [if_pos huntitled]
    refine Crosses.get_bind fun t ht => ?_
    subst ht
    have hguard : (t.options.singleItem && decide (headingLevel t.options p.element = 0) || t.inHeading ||
        decide (t.headingDepth ≠ 0)) = true := (Bool.or_assoc _ _ _).trans huntitled
    dsimp only
    rw [if_pos hguard, if_pos hguard]
    exact Hands.nothing ()
  · have hshown := Bool.eq_false_iff.2 huntitled
    rw [if_neg huntitled]
    exact (visitHeading_forms hshown (h hshown).1 (h hshown).2).mono fun _ hos => hos.handed

end WikiTypeset.Article
