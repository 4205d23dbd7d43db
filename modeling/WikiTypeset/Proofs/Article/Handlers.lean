import WikiTypeset.Article.Walk
import WikiTypeset.Proofs.Article.Composes
import WikiTypeset.Proofs.Article.Layout
import WikiTypeset.Proofs.Article.Wording

/-!
# Running text composes programs

Each way of typesetting an element composes the program of a layout that has the texts of the element, and comes back to
its setting, if the way of typesetting what it contains does. Here are the ways of typesetting running text, changes of
language and headings.
-/

namespace WikiTypeset.Article

open Action Latex Typeset Html

/-- The texts of nodes, as they are typeset in the setting. -/
def Setting.texts (s : Setting) (ns : List Node) : List (List Char) := allTextsOf s.options false s.headed ns

/-- The texts of one piece of content. -/
def Setting.textsIn (s : Setting) : Content → List (List Char)
  | .element p => textsOf s.options false s.headed p.element.toNode
  | .text kind x => textsOf s.options false s.headed (.text kind x)

/-- From any settled setting, typesetting any content composes the program of a layout with its texts. -/
def ComposesAll (C : ArticleError → Prop) (visit visit' : Visit) : Prop :=
  ∀ c t s, t.setting = s → s.Settled → Returns C (visit c) (visit' c) t s (Laying (s.textsIn c))

variable {C : ArticleError → Prop} {visit visit' : Visit} {t : Typesetter} {s : Setting} {W W' : List (List Char)}
  {a a' : Typeset Unit} {f f' : Unit → Typeset Unit}

/-! ### Basic actions -/

theorem Returns.step {o : Operation} {a : Emit Unit} (h : isStep o = true) (ha : o.perform = a)
    (hk : ∀ m, KeepsMode m a) (ht : t.setting = s) :
    Returns C (Typeset.emit a) (Typeset.emit a) t s (Laying (wordingOf o)) := by
  have hn : o.wellNested = true := by cases o <;> first | rfl | cases h
  refine (Composes.emit hn ha hk ht).mono ?_
  rintro os rfl
  exact .step h

theorem Returns.nothing (h : Silent a) (ht : t.setting = s) : Returns C a a t s (Laying []) := by
  refine (Composes.of_silent h ht).mono ?_
  rintro os rfl
  exact .empty

theorem Returns.andThen (ha : Returns C a a' t s (Laying W))
    (hf : ∀ x t', t'.setting = s → Returns C (f x) (f' x) t' s (Laying W')) :
    Returns C (a >>= f) (a' >>= f') t s (Laying (W ++ W')) := by
  refine (ha.bind hf).mono ?_
  rintro os ⟨first, second, hfirst, hsecond, rfl⟩
  exact hfirst.append hsecond

/-- What comes before a text. -/
theorem Returns.before (ha : Returns C a a' t s (Laying []))
    (hf : ∀ x t', t'.setting = s → Returns C (f x) (f' x) t' s (Laying W)) :
    Returns C (a >>= f) (a' >>= f') t s (Laying W) :=
  Returns.andThen ha hf

/-- What comes after a text. -/
theorem Returns.after (ha : Returns C a a' t s (Laying W))
    (hf : ∀ x t', t'.setting = s → Returns C (f x) (f' x) t' s (Laying [])) :
    Returns C (a >>= f) (a' >>= f') t s (Laying W) := by
  have h := Returns.andThen ha hf
  rwa [List.append_nil] at h

theorem paragraphBreak_composes (ht : t.setting = s) :
    Returns C (emit Emit.paragraphBreak) (emit Emit.paragraphBreak) t s (Laying []) :=
  Returns.step (o := .paragraphBreak) rfl rfl (fun m => (robust_mode m).keeps_paragraphBreak) ht

theorem lineBreak_composes (ht : t.setting = s) :
    Returns C (emit Emit.lineBreak) (emit Emit.lineBreak) t s (Laying []) :=
  Returns.step (o := .lineBreak) rfl rfl (fun m => (robust_mode m).keeps_lineBreak) ht

theorem envBreak_composes (ht : t.setting = s) :
    Returns C (emit Emit.envBreak) (emit Emit.envBreak) t s (Laying []) :=
  Returns.step (o := .envBreak) rfl rfl (fun m => (robust_mode m).keeps_envBreak) ht

theorem dirBreak_composes (ht : t.setting = s) :
    Returns C (emit Emit.dirBreak) (emit Emit.dirBreak) t s (.only [.dirBreak]) :=
  Composes.emit (o := .dirBreak) rfl rfl (fun m => (robust_mode m).keeps_writeHeld) ht

theorem resetLine_composes (ht : t.setting = s) :
    Returns C (emit Emit.resetLine) (emit Emit.resetLine) t s (.only [.resetLine]) :=
  Composes.emit (o := .resetLine) rfl rfl (fun m => (robust_mode m).keeps_resetLine) ht

theorem fragment_composes (value : String) (ht : t.setting = s) :
    Returns C (fragment value) (fragment value) t s (.only [.record (.raw value)]) :=
  Composes.emit (o := .record (.raw value)) rfl rfl (fun m => (robust_mode m).keeps_record _) ht

theorem content_composes {value : String} (h : IsContent value) (ht : t.setting = s) :
    Returns C (fragment value) (fragment value) t s (Laying (numberWording value)) := by
  refine (fragment_composes value ht).mono ?_
  rintro os rfl
  exact .fragment h

theorem write_composes (x : List Char) (ht : t.setting = s) :
    Returns C (write x) (write x) t s (Laying (wordingOf (.write x))) :=
  Returns.step (o := .write x) rfl rfl (fun _ => keeps_write x) ht

theorem visitChildren_composes (h : ComposesAll C visit visit') (ht : t.setting = s) (hs : s.Settled) (p : Place) :
    Returns C (visitChildren visit p) (visitChildren visit' p) t s (Laying (s.texts p.element.children)) := by
  have hgo : ∀ before ns t, t.setting = s → Returns C ((contentsOf.go p before ns).forM visit)
      ((contentsOf.go p before ns).forM visit') t s (Laying (s.texts ns)) := by
    intro before ns
    induction ns generalizing before with
    | nil => exact fun t ht => .nothing (.of_pure ()) ht
    | cons n ns ih =>
      intro t ht
      cases n with
      | element name attributes children =>
        exact Returns.andThen (h (.element _) t s ht hs) fun _ t' ht' => ih _ t' ht'
      | text kind x => exact Returns.andThen (h (.text kind x) t s ht hs) fun _ t' ht' => ih _ t' ht'
  exact hgo [] p.element.children t ht

/-! ### Running text -/

theorem visitParagraph_composes (h : ComposesAll C visit visit') (ht : t.setting = s) (hs : s.Settled) (p : Place) :
    Returns C (visitParagraph visit p) (visitParagraph visit' p) t s (Laying (s.texts p.element.children)) :=
  (paragraphBreak_composes ht).before fun _ _ ht =>
    (visitChildren_composes h ht hs p).after fun _ _ ht => paragraphBreak_composes ht

theorem visitDiv_composes (h : ComposesAll C visit visit') (ht : t.setting = s) (hs : s.Settled) (p : Place) :
    Returns C (visitDiv visit p) (visitDiv visit' p) t s (Laying (s.texts p.element.children)) :=
  (lineBreak_composes ht).before fun _ _ ht =>
    (visitChildren_composes h ht hs p).after fun _ _ ht => lineBreak_composes ht

theorem visitWrapped_composes (h : ComposesAll C visit visit') (ht : t.setting = s) (hs : s.Settled)
    {command : String} (hc : IsPlainCommand command) (p : Place) :
    Returns C (visitWrapped visit command p) (visitWrapped visit' command p) t s
      (Laying (s.texts p.element.children)) := by
  refine (Composes.wrap ht fun t ht => visitChildren_composes h ht hs p).mono ?_
  rintro os ⟨inner, hinner, rfl⟩
  exact .wrap hc hinner

theorem inlineCommand_plain (name : String) : IsPlainCommand (inlineCommand name) := by
  unfold inlineCommand
  split <;> exact .inl (by decide)

theorem visitInline_composes (h : ComposesAll C visit visit') (ht : t.setting = s) (hs : s.Settled) (name : String)
    (p : Place) :
    Returns C (visitInline visit name p) (visitInline visit' name p) t s (Laying (s.texts p.element.children)) :=
  visitWrapped_composes h ht hs (inlineCommand_plain name) p

theorem numberFormula_isContent (sign : String) (digits : List Char) :
    IsContent ("$" ++ sign ++ "\x7b" ++ String.ofList digits ++ "\x7d$") := by
  have hclosing : "\x7d$" = "\x7d" ++ "$" := by decide
  exact .inl ⟨sign ++ "\x7b" ++ String.ofList digits ++ "\x7d", by rw [hclosing]; simp only [String.append_assoc]⟩

theorem numberFormula_wording {sign : String} (h : sign = "^" ∨ sign = "_") (digits : List Char) :
    numberWording ("$" ++ sign ++ "\x7b" ++ String.ofList digits ++ "\x7d$") = [digits] := by
  have hclosing : "\x7d$".toList = ['\x7d', '$'] := by decide
  rcases h with rfl | rfl
  · simp [numberWording, hclosing]
  · simp [numberWording, hclosing]

theorem not_isBlank_of_isAsciiDigit {c : Char} (h : Text.isAsciiDigit c = true) : Text.isBlank c = false := by
  have htable : ∀ range ∈ Text.blankRanges, range.2 < 48 ∨ 57 < range.1 := by decide
  have hrange : 48 ≤ c.toNat ∧ c.toNat ≤ 57 := by
    simpa [Text.isAsciiDigit, Char.le_def, UInt32.le_iff_toNat_le] using h
  refine Bool.eq_false_iff.2 fun hblank => ?_
  obtain ⟨range, hmem, hle, hge⟩ := Text.exists_mem_of_inRanges hblank
  have hout := htable range hmem
  omega

/-- A number is a text that is not blank. -/
theorem texts_of_soleNumber {e : Element} {digits : List Char} (h : soleNumber? e = some digits) :
    s.texts e.children = [digits] := by
  unfold soleNumber? at h
  split at h
  · rename_i kind x hchildren
    split at h
    · rename_i hdigits
      cases h
      simp only [Bool.and_eq_true, Bool.or_eq_true, decide_eq_true_eq, Bool.not_eq_true', List.isEmpty_eq_false_iff]
        at hdigits
      obtain ⟨⟨hkind, hne⟩, hall⟩ := hdigits
      have hvoid : (Node.text kind digits).isVoid = false := by
        obtain ⟨c, hc⟩ := List.exists_mem_of_ne_nil digits hne
        have hblank : digits.all Text.isBlank = false := by
          refine List.all_eq_false.2 ⟨c, hc, ?_⟩
          simp [not_isBlank_of_isAsciiDigit (List.all_eq_true.1 hall c hc)]
        rcases hkind with rfl | rfl
        · exact hblank
        · exact hblank
      rw [Setting.texts, hchildren]
      simp [allTextsOf, textsOf, hvoid]
    · cases h
  · cases h

theorem visitScript_composes (h : ComposesAll C visit visit') (ht : t.setting = s) (hs : s.Settled) (name : String)
    (p : Place) :
    Returns C (visitScript visit name p) (visitScript visit' name p) t s (Laying (s.texts p.element.children)) := by
  unfold visitScript
  split
  · rename_i digits hdigits
    have hsign : (if name = "sup" then "^" else "_") = "^" ∨ (if name = "sup" then "^" else "_") = "_" := by
      split <;> simp
    rw [texts_of_soleNumber hdigits, ← numberFormula_wording hsign digits]
    exact content_composes (numberFormula_isContent _ digits) ht
  · exact visitInline_composes h ht hs name p

theorem resolved_silent (base target : String) : Silent (resolved base target) := by
  unfold resolved
  split
  · exact .of_pure _
  · exact .of_throw fun _ => nofun

theorem visitAnchor_composes (h : ComposesAll C visit visit') (ht : t.setting = s) (hs : s.Settled) (p : Place) :
    Returns C (visitAnchor visit p) (visitAnchor visit' p) t s (Laying (s.texts p.element.children)) := by
  refine Composes.get_bind ?_
  split
  · exact visitChildren_composes h ht hs p
  · split
    · exact visitWrapped_composes h ht hs (.inr (.inl ⟨_, rfl⟩)) p
    · exact Composes.silent_bind (resolved_silent _ _) ht rfl fun url t' _ ht' _ =>
        visitWrapped_composes h ht' hs (.inr (.inr ⟨_, rfl⟩)) p

/-! ### Languages and directions -/

theorem beginEnv_composes (env options : String) (ht : t.setting = s) :
    Returns C (emit (Emit.beginEnv env options)) (emit (Emit.beginEnv env options)) t s
      (.only [.beginEnv env options]) :=
  Composes.emit (o := .beginEnv env options) rfl rfl (fun m => (robust_mode m).keeps_beginEnv env options) ht

theorem endEnv_composes (env : String) (ht : t.setting = s) :
    Returns C (emit (Emit.endEnv env)) (emit (Emit.endEnv env)) t s (.only [.endEnv env]) :=
  Composes.emit (o := .endEnv env) rfl rfl (fun m => (robust_mode m).keeps_endEnv env) ht

theorem updateLtrFont_composes (l : Language) (ht : t.setting = s) :
    Returns C (updateLtrFont l) (updateLtrFont l) t s (.only (fontOperations l)) := by
  unfold updateLtrFont fontOperations
  cases l.ltrFontCommand? with
  | none => exact Composes.of_pure () ht
  | some command =>
    exact (fragment_composes command ht).only_bind fun _ _ ht =>
      (Composes.emit (o := .envBreak) rfl rfl (fun m => (robust_mode m).keeps_envBreak) ht).only_bind fun _ _ ht => resetLine_composes ht

theorem assume_composes (direction : NamedDirection) (ht : t.setting = s) :
    Returns C (emit (Emit.assumeDirection direction)) (emit (Emit.assumeDirection direction)) t s
      (.only [.assumeDirection direction]) :=
  Composes.emit (o := .assumeDirection direction) rfl rfl (fun _ => keeps_assumeDirection direction) ht

/-- The setting with the font of Latin words for a coverage. -/
def Setting.inFont (coverage : Bool) (s : Setting) : Setting := { s with latinSwitch := !coverage }

/-- The setting in a base direction. -/
def Setting.based (direction : Direction) (s : Setting) : Setting := { s with paragraphDir := .known direction }

/-- A block in a language, entered with its coverage, and what puts the coverage right after it. -/
theorem languageBlock_composes (code : String) (direction : NamedDirection) {previous : Bool} {body body' : Typeset Unit}
    (ht : t.setting = s) (hback : s.inFont previous = s)
    (h : ∀ t', t'.setting = s.inFont (Language.ofCode code).latinCoverage →
      Returns C body body' t' (s.inFont (Language.ofCode code).latinCoverage) (Laying W)) :
    Returns C (do
      beginLanguage (.ofCode code)
      updateLtrFont (.ofCode code)
      emit (Emit.setCoverage (Language.ofCode code).latinCoverage)
      emit (Emit.assumeDirection (Language.ofCode code).direction)
      body
      emit (Emit.endEnv (Language.ofCode code).environment)
      emit (Emit.setCoverage previous)
      emit (Emit.assumeDirection direction)) (do
      beginLanguage (.ofCode code)
      updateLtrFont (.ofCode code)
      emit (Emit.setCoverage (Language.ofCode code).latinCoverage)
      emit (Emit.assumeDirection (Language.ofCode code).direction)
      body'
      emit (Emit.endEnv (Language.ofCode code).environment)
      emit (Emit.setCoverage previous)
      emit (Emit.assumeDirection direction)) t s
      (Programs.andThen (Laying W) (.only [.assumeDirection direction])) := by
  refine ((beginEnv_composes _ _ ht).bind fun _ t ht => (updateLtrFont_composes _ ht).bind fun _ t ht =>
    (Composes.setCoverage _ ht).bind fun _ t ht => (assume_composes _ ht).bind fun _ t ht => (h t ht).bind fun _ t ht =>
    (endEnv_composes _ ht).bind fun _ t ht => (Composes.setCoverage previous ht).bind fun _ t ht =>
    assume_composes (s := s) direction (ht.trans hback)).mono ?_
  -- One program for each step; all but the body are single operations.
  rintro _ ⟨_, _, rfl, ⟨_, _, rfl, ⟨_, _, rfl, ⟨_, _, rfl, ⟨os, _, hos, ⟨_, _, rfl, ⟨_, _, rfl, rfl, rfl⟩, rfl⟩, rfl⟩,
    rfl⟩, rfl⟩, rfl⟩, rfl⟩
  have hblock := Laying.languageBlock code (some (Language.ofCode code).latinCoverage) (List.forall_mem_nil _) hos
  refine ⟨_, _, hblock.before_quiet (o := .setCoverage previous) rfl rfl, rfl, ?_⟩
  simp [enteringLanguage, styleOperations]

/-- Inline text in a language, and what puts the coverage right after it. -/
theorem languageInline_composes (code : String) (direction : NamedDirection) {previous : Bool}
    {body body' : Typeset Unit} (ht : t.setting = s) (hback : s.inFont previous = s)
    (h : ∀ t', t'.setting = s.inFont (Language.ofCode code).latinCoverage →
      Returns C body body' t' (s.inFont (Language.ofCode code).latinCoverage) (Laying W)) :
    Returns C (do
      wrap (languageCommand (.ofCode code) true) do
        emit (Emit.assumeDirection (Language.ofCode code).direction)
        emit (Emit.setCoverage (Language.ofCode code).latinCoverage)
        body
      emit (Emit.setCoverage previous)
      emit (Emit.assumeDirection direction)) (do
      wrap (languageCommand (.ofCode code) true) do
        emit (Emit.assumeDirection (Language.ofCode code).direction)
        emit (Emit.setCoverage (Language.ofCode code).latinCoverage)
        body'
      emit (Emit.setCoverage previous)
      emit (Emit.assumeDirection direction)) t s
      (Programs.andThen (Laying W) (.only [.assumeDirection direction])) := by
  refine ((Composes.wrap ht fun t ht => (assume_composes _ ht).bind fun _ t ht =>
    (Composes.setCoverage _ ht).bind fun _ t ht => h t ht).bind fun _ t ht =>
    (Composes.setCoverage previous ht).bind fun _ t ht => assume_composes (s := s) direction (ht.trans hback)).mono ?_
  rintro _ ⟨_, _, ⟨_, ⟨_, _, rfl, ⟨_, os, rfl, hos, rfl⟩, rfl⟩, rfl⟩, ⟨_, _, rfl, rfl, rfl⟩, rfl⟩
  have hinner := (Laying.step (o := .setCoverage (Language.ofCode code).latinCoverage) rfl).append hos
  exact ⟨_, _, (Laying.languageInline code true hinner).before_quiet (o := .setCoverage previous) rfl rfl, rfl, rfl⟩

variable {E : Frame → Prop}

/-- What follows a part after which the direction is assumed again that was assumed before it. -/
theorem Composes.of_resuming {direction : NamedDirection}
    (h : Composes C a a' t s E
      ((Programs.andThen (Laying W) (.only [.assumeDirection direction])).andThen (Laying [])))
    (hd : direction = t.emitter.contextDir) : Composes C a a' t s E (Laying W) := by
  subst hd
  refine h.resuming.mono ?_
  rintro _ ⟨_, rest, ⟨os, hos, rfl⟩, hrest, rfl⟩
  have hall := (Laying.resuming hos).append hrest
  rwa [List.append_nil] at hall

theorem Composes.of_resuming_last {direction : NamedDirection}
    (h : Composes C a a' t s E (Programs.andThen (Laying W) (.only [.assumeDirection direction])))
    (hd : direction = t.emitter.contextDir) : Composes C a a' t s E (Laying W) := by
  refine Composes.of_resuming (h.mono fun os hos => ?_) hd
  exact ⟨os, [], hos, .empty, (List.append_nil os).symm⟩

theorem visitLanguage_composes (h : ComposesAll C visit visit') (ht : t.setting = s) (hs : s.Settled) (p : Place) :
    Returns C (visitLanguage visit p) (visitLanguage visit' p) t s (Laying (s.textsIn (.element p))) := by
  subst ht
  refine Composes.get_bind (Composes.silent_bind (Silent.of_modify fun _ => ⟨rfl, rfl⟩) rfl rfl fun _ t₁ _ ht₁ h₁ => ?_)
  refine Composes.lookup_bind ht₁ rfl fun t₂ ht₂ h₂ => Composes.lookup_bind ht₂ rfl fun t₃ ht₃ h₃ => ?_
  refine Composes.modify_bind (G := Frame.speaking (p.element.attr "lang")) ⟨fun _ => rfl, fun _ => rfl⟩ ht₃
    fun t₄ ht₄ h₄ => ?_
  have hdirection : t.emitter.contextDir = t₄.emitter.contextDir := by rw [h₄, h₃, h₂, h₁]
  refine Composes.finishing_silent (G := Frame.speaking t.language)
    (r := t.setting.reframed (Frame.speaking (p.element.attr "lang")))
    (F := (· = t.frame.speaking (p.element.attr "lang"))) ?_ ⟨fun _ => rfl, fun _ => rfl⟩ rfl fun x hx => hx ▸ rfl
  cases hheading : t.inHeading with
  -- In the short form of a heading nothing but the language changes.
  | true => exact h (.element p) t₄ _ ht₄ fun hout => nomatch hheading.symm.trans hout
  | false =>
    obtain ⟨hbase, hfont⟩ := hs hheading
    have hback : (t.setting.reframed (Frame.speaking (p.element.attr "lang"))).inFont
        (Language.ofCode t.language).latinCoverage = t.setting.reframed (Frame.speaking (p.element.attr "lang")) := by
      rw [Setting.inFont, show Language.ofCode t.language = Language.ofCode t.setting.frame.language from rfl, ← hfont]
      rfl
    have hvisit : ∀ t', t'.setting = _ → Returns C (visit (.element p)) (visit' (.element p)) t' _
        (Laying (t.setting.textsIn (.element p))) :=
      fun t' ht' => h (.element p) t' ((t.setting.reframed (Frame.speaking (p.element.attr "lang"))).inFont
        (Language.ofCode (p.element.attr "lang")).latinCoverage) ht' fun _ => ⟨hbase, rfl⟩
    simp only [if_neg Bool.false_ne_true]
    split
    · exact (languageBlock_composes _ _ ht₄ hback hvisit).of_resuming_last hdirection
    · exact (languageInline_composes _ _ ht₄ hback hvisit).of_resuming_last hdirection

/-- A change of the base direction, as a step of a layout. -/
theorem switch_composes (direction : Direction) {s' : Setting} (ht : t.setting = s') (hs : s'.based direction = s) :
    Composes C (emit (Emit.switchDirection direction)) (emit (Emit.switchDirection direction)) t s (· = s'.frame)
      (Laying []) := by
  subst hs
  refine (Composes.switchDirection (.known direction) ht).mono ?_
  rintro os rfl
  exact .step rfl

theorem visitDirection_composes (h : ComposesAll C visit visit') (ht : t.setting = s) (hs : s.Settled) (p : Place) :
    Returns C (visitDirection visit p) (visitDirection visit' p) t s (Laying (s.textsIn (.element p))) := by
  subst ht
  unfold visitDirection
  refine Composes.get_bind ?_
  -- Which direction it is makes no difference.
  generalize directionOf t.direction p.element = direction
  refine Composes.modify_bind (G := Frame.facing direction) ⟨fun _ => rfl, fun _ => rfl⟩ rfl fun t₁ ht₁ _ => ?_
  refine Composes.finishing_silent (G := Frame.facing t.direction)
    (r := t.setting.reframed (Frame.facing direction)) (F := (· = t.frame.facing direction)) ?_
    ⟨fun _ => rfl, fun _ => rfl⟩ rfl fun x hx => hx ▸ rfl
  cases hheading : t.inHeading with
  | true => exact h (.element p) t₁ _ ht₁ fun hout => nomatch hheading.symm.trans hout
  | false =>
    obtain ⟨hbase, hfont⟩ := hs hheading
    have hback : (t.setting.reframed (Frame.facing direction)).based t.direction =
        t.setting.reframed (Frame.facing direction) := by
      rw [Setting.based, show NamedDirection.known t.direction = .known t.setting.frame.direction from rfl, ← hbase]
      rfl
    have hvisit : ∀ t', t'.setting = _ → Returns C (visit (.element p)) (visit' (.element p)) t' _
        (Laying (t.setting.textsIn (.element p))) :=
      fun t' ht' => h (.element p) t' ((t.setting.reframed (Frame.facing direction)).based direction) ht'
        fun _ => ⟨rfl, hfont⟩
    simp only [if_neg Bool.false_ne_true]
    refine ((switch_composes _ ht₁ rfl).bind fun _ t₂ ht₂ => (hvisit t₂ ht₂).bind fun _ t₃ ht₃ =>
      switch_composes t.direction ht₃ hback).mono ?_
    rintro _ ⟨_, _, hfirst, ⟨_, _, hos, hlast, rfl⟩, rfl⟩
    have hall := hfirst.append (hos.append hlast)
    rwa [List.append_nil] at hall

/-! ### Headings -/

/-- The programs of the text of a heading. -/
def HeadingTexts (W : List (List Char)) : Programs := fun os =>
  ∃ language? content, Laying W content ∧ os = headingText language? content

/-- What is set in a direction from a fresh start. -/
def Redirected (W : List (List Char)) : Programs := fun os =>
  ∃ direction content, Laying W content ∧ os = .switchDirection direction :: .resetLine :: content

/-- A base direction that is that of the place already. -/
theorem redirect_composes (ht : t.setting = s) (hb : s.based s.frame.direction = s) :
    Returns C (emit (Emit.switchDirection t.direction)) (emit (Emit.switchDirection t.direction)) t s
      (.only [.switchDirection t.direction]) := by
  have hswitch := Composes.switchDirection (C := C) (.known t.direction) ht
  subst ht
  rwa [show ({ t.setting with paragraphDir := .known t.direction } : Setting) = t.setting from hb] at hswitch

theorem visitHeadingText_composes (h : ComposesAll C visit visit') (ht : t.setting = s) (hs : s.Settled)
    (hb : s.based s.frame.direction = s) (p : Place) (code : String) (switch : Bool) :
    Returns C (visitHeadingText visit p (.ofCode code) switch) (visitHeadingText visit' p (.ofCode code) switch) t s
      (HeadingTexts (s.texts p.element.children)) := by
  cases switch with
  | false =>
    refine ((dirBreak_composes ht).bind fun _ t ht => (resetLine_composes ht).bind fun _ t ht =>
      (visitChildren_composes h ht hs p).bind fun _ t ht => dirBreak_composes ht).mono ?_
    rintro _ ⟨_, _, rfl, ⟨_, _, rfl, ⟨os, _, hos, rfl, rfl⟩, rfl⟩, rfl⟩
    exact ⟨none, os, hos, rfl⟩
  | true =>
    have hredirected : ∀ t : Typesetter, t.setting = s → Returns C (do
        emit (Emit.switchDirection (← get).direction)
        emit Emit.resetLine
        visitChildren visit p) (do
        emit (Emit.switchDirection (← get).direction)
        emit Emit.resetLine
        visitChildren visit' p) t s (Redirected (s.texts p.element.children)) := by
      intro t ht
      refine Composes.get_bind (Composes.mono ((redirect_composes ht hb).bind fun _ t ht =>
        (resetLine_composes ht).bind fun _ t ht => visitChildren_composes h ht hs p) ?_)
      rintro _ ⟨_, _, rfl, ⟨_, os, rfl, hos, rfl⟩, rfl⟩
      exact ⟨_, os, hos, rfl⟩
    have hspoken : ∀ withOptions (t : Typesetter), t.setting = s → Returns C (do
        wrap (languageCommand (.ofCode code) withOptions) do
          emit (Emit.assumeDirection (Language.ofCode code).direction)
          emit (Emit.switchDirection (← get).direction)
          emit Emit.resetLine
          visitChildren visit p
        emit Emit.dirBreak) (do
        wrap (languageCommand (.ofCode code) withOptions) do
          emit (Emit.assumeDirection (Language.ofCode code).direction)
          emit (Emit.switchDirection (← get).direction)
          emit Emit.resetLine
          visitChildren visit' p
        emit Emit.dirBreak) t s
        (fun os => ∃ l content, Laying (s.texts p.element.children) content ∧
          .dirBreak :: os = headingText (some l) content) := by
      intro withOptions t ht
      refine ((Composes.wrap ht fun t ht => (assume_composes _ ht).bind fun _ t ht => hredirected t ht).bind
        fun _ t ht => dirBreak_composes ht).mono ?_
      rintro _ ⟨_, _, ⟨_, ⟨_, _, rfl, ⟨direction, os, hos, rfl⟩, rfl⟩, rfl⟩, rfl, rfl⟩
      exact ⟨⟨code, withOptions, direction⟩, os, hos, rfl⟩
    refine ((dirBreak_composes ht).bind fun _ t ht => Composes.get_bind (hspoken (!t.inHeading) t ht)).mono ?_
    rintro _ ⟨_, _, rfl, ⟨l, os, hos, heq⟩, rfl⟩
    exact ⟨some l, os, hos, heq⟩

theorem inList_composes {content content' : Typeset Unit} {restore : Typesetter → Typesetter} {G : Frame → Frame}
    {s' : Setting} {E' : Frame → Prop} (hr : Reframing restore G) (ht : t.setting = s')
    (h : ∀ t', t'.setting = s'.reframed (Frame.deeper 1) →
      Composes C content content' t' (s'.reframed (Frame.deeper 1)) E' (Laying W))
    (hs : s'.reframed G = s) (hE : ∀ x, E' x → E (G (x.deeper (-1)))) :
    Composes C (inList content restore) (inList content' restore) t s E (Laying W) := by
  refine (Composes.inList hr ht h ?_ hE).mono ?_
  · rw [← hs]
    exact congrArg (fun x => { s' with frame := G x }) (s'.frame.deeper_back 1)
  · rintro _ ⟨_, _, rfl, ⟨os, _, hos, rfl, rfl⟩, rfl⟩
    exact (Laying.step (o := .deepenList 1) rfl).append (hos.before_quiet (o := .deepenList (-1)) rfl rfl)

theorem sectionCommand_mem (level : Nat) : sectionCommand level ∈ sectionCommands := by
  unfold sectionCommand
  rw [List.getD_eq_getElem?_getD]
  cases hcommand : sectionCommands[level]? with
  | none => decide
  | some command => exact List.mem_of_getElem? hcommand

/-- In a heading, all texts are those of a heading. -/
theorem texts_of_headed (h : s.headed = true) (ns : List Node) : s.texts ns = allTextsOf s.options false true ns := by
  rw [Setting.texts, h]

/-- A heading: a short form for the table of contents, and the heading itself. If it fails, then perhaps in its short
form. -/
theorem headingBody_composes (h : ComposesAll C visit visit') (ht : t.setting = s) (hs : s.Settled)
    (hout : s.frame.inHeading = false) (hin : s.frame.headingDepth ≠ 0) (p : Place) (level : Nat) (code : String)
    (switch : Bool) :
    Composes C (isolated do
      modify fun t => deepenToc 1 { t with inHeading := true }
      Action.finishing (do
        fragment ("\\" ++ sectionCommand level ++ "[")
        visitHeadingText visit p (.ofCode code) switch) (modify (deepenToc (-1)))
      fragment "]\x7b"
      modify fun t => { t with inHeading := false }
      visitHeadingText visit p (.ofCode code) switch
      fragment "\x7d") (isolated do
      modify fun t => deepenToc 1 { t with inHeading := true }
      Action.finishing (do
        fragment ("\\" ++ sectionCommand level ++ "[")
        visitHeadingText visit' p (.ofCode code) switch) (modify (deepenToc (-1)))
      fragment "]\x7b"
      modify fun t => { t with inHeading := false }
      visitHeadingText visit' p (.ofCode code) switch
      fragment "\x7d") t s (fun x => ∃ b, x = s.frame.titled b)
      (Laying (allTextsOf s.options false true p.element.children ++
        allTextsOf s.options false true p.element.children)) := by
  obtain ⟨hbase, hfont⟩ := hs hout
  have hback : s.frame.titled false = s.frame := by rw [Frame.titled, ← hout]
  have hbased : s.based s.frame.direction = s := by rw [Setting.based, ← hbase]
  have hstay : ∀ {a a' : Typeset Unit} {t : Typesetter} {L : Programs}, Returns C a a' t s L →
      Composes C a a' t s (fun x => ∃ b, x = s.frame.titled b) L :=
    fun hreturns => hreturns.weaken fun x hx => ⟨false, hx.trans hback.symm⟩
  let inside := s.reframed fun x => (x.titled true).listed 1
  have hlisted : inside.reframed (Frame.listed (-1)) = s.reframed (Frame.titled true) :=
    congrArg (fun x => { s with frame := x }) ((s.frame.titled true).listed_back 1)
  have htitled : (s.reframed (Frame.titled true)).reframed (Frame.titled false) = s :=
    congrArg (fun x => { s with frame := x }) hback
  have hshort : ∀ t, t.setting = inside → Composes C (Action.finishing (do
        fragment ("\\" ++ sectionCommand level ++ "[")
        visitHeadingText visit p (.ofCode code) switch) (modify (deepenToc (-1)))) (Action.finishing (do
        fragment ("\\" ++ sectionCommand level ++ "[")
        visitHeadingText visit' p (.ofCode code) switch) (modify (deepenToc (-1)))) t
      (s.reframed (Frame.titled true)) (fun x => ∃ b, x = s.frame.titled b)
      (((Programs.only [.record (.raw (shortOpening (sectionCommand level)))]).andThen
        (HeadingTexts (allTextsOf s.options false true p.element.children))).andThen (.only [.deepenToc (-1)])) := by
    intro t ht
    have htext : ∀ t, t.setting = inside → Returns C (visitHeadingText visit p (.ofCode code) switch)
        (visitHeadingText visit' p (.ofCode code) switch) t inside
        (HeadingTexts (allTextsOf s.options false true p.element.children)) :=
      fun t ht => visitHeadingText_composes h ht (fun hshown => nomatch hshown)
        (congrArg (Setting.reframed fun x => (x.titled true).listed 1) hbased) p code switch
    rw [← hlisted]
    refine Composes.finishing (o := .deepenToc (-1)) rfl ((fragment_composes _ ht).bind fun _ t ht => htext t ht)
      (fun _ => rfl) (fun _ => rfl) (fun _ => rfl) fun x hx => ⟨true, ?_⟩
    rw [hx]
    exact (s.frame.titled true).listed_back 1
  have hlong : ∀ t, t.setting = s.reframed (Frame.titled true) → Composes C (do
      fragment "]\x7b"
      modify fun t => { t with inHeading := false }
      visitHeadingText visit p (.ofCode code) switch
      fragment "\x7d") (do
      fragment "]\x7b"
      modify fun t => { t with inHeading := false }
      visitHeadingText visit' p (.ofCode code) switch
      fragment "\x7d") t s (fun x => ∃ b, x = s.frame.titled b)
      ((Programs.only [.record (.raw "]\x7b")]).andThen
        ((HeadingTexts (allTextsOf s.options false true p.element.children)).andThen
          (.only [.record (.raw "\x7d")]))) := by
    intro t ht
    have htext : ∀ t, t.setting = s → Returns C (visitHeadingText visit p (.ofCode code) switch)
        (visitHeadingText visit' p (.ofCode code) switch) t s
        (HeadingTexts (allTextsOf s.options false true p.element.children)) := by
      intro t ht
      rw [← texts_of_headed (by simp [Setting.headed, hin])]
      exact visitHeadingText_composes h ht hs hbased p code switch
    refine ((fragment_composes "]\x7b" ht).weaken fun x hx => ⟨true, hx⟩).bind fun _ t ht => ?_
    refine Composes.modify_bind (G := Frame.titled false) ⟨fun _ => rfl, fun _ => rfl⟩ ht fun t ht _ => ?_
    exact (hstay (htext t (ht.trans htitled))).bind fun _ t ht => hstay (fragment_composes "\x7d" ht)
  refine (Composes.isolated ht ⟨false, hback.symm⟩ ⟨false, hback.symm⟩ fun t ht =>
    (Composes.of_modify (o := .deepenToc 1) rfl (fun _ => rfl) (fun _ => rfl) ht).bind fun _ t ht =>
    (hshort t ht).bind fun _ t ht => hlong t ht).mono ?_
  rintro _ ⟨_, ⟨_, _, rfl, ⟨_, _, ⟨_, _, ⟨_, _, rfl, ⟨shortLanguage?, os, hos, rfl⟩, rfl⟩, rfl, rfl⟩, ⟨_, _, rfl, ⟨_, _,
    ⟨language?, os', hos', rfl⟩, rfl, rfl⟩, rfl⟩, rfl⟩, rfl⟩, rfl⟩
  simpa using Laying.heading (sectionCommand_mem level) shortLanguage? language? hos hos'

/-- A part in another language, entered without its coverage, after which the direction is resumed. -/
theorem switched_composes (code : String) {styles : List String} (hstyles : ∀ style ∈ styles, style ∈ styleFragments)
    {first second second' last : Typeset Unit} {direction : NamedDirection} {s₁ : Setting} (ht : t.setting = s)
    (hd : direction = t.emitter.contextDir)
    (hfirst : ∀ t', t'.setting = s →
      Composes C first first t' s₁ (· = s.frame) (.only (styleOperations styles)))
    (hsecond : ∀ t', t'.setting = s₁ → Composes C second second' t' s (· = s.frame) (Laying W))
    (hlast : ∀ t', t'.setting = s → Returns C last last t' s
      ((Programs.only [.assumeDirection direction]).andThen (Laying []))) :
    Returns C (do
      beginLanguage (.ofCode code)
      updateLtrFont (.ofCode code)
      emit (Emit.assumeDirection (Language.ofCode code).direction)
      first
      second
      emit (Emit.endEnv (Language.ofCode code).environment)
      last) (do
      beginLanguage (.ofCode code)
      updateLtrFont (.ofCode code)
      emit (Emit.assumeDirection (Language.ofCode code).direction)
      first
      second'
      emit (Emit.endEnv (Language.ofCode code).environment)
      last) t s (Laying W) := by
  refine Composes.of_resuming ?_ hd
  refine ((beginEnv_composes _ _ ht).bind fun _ t ht => (updateLtrFont_composes _ ht).bind fun _ t ht =>
    (assume_composes _ ht).bind fun _ t ht => (hfirst t ht).bind fun _ t ht => (hsecond t ht).bind fun _ t ht =>
    (endEnv_composes _ ht).bind fun _ t ht => hlast t ht).mono ?_
  rintro _ ⟨_, _, rfl, ⟨_, _, rfl, ⟨_, _, rfl, ⟨_, _, rfl, ⟨os, _, hos, ⟨_, _, rfl, ⟨_, more, rfl, hmore, rfl⟩, rfl⟩,
    rfl⟩, rfl⟩, rfl⟩, rfl⟩, rfl⟩
  refine ⟨_, more, ⟨_, _, Laying.languageBlock code none hstyles hos, rfl, rfl⟩, hmore, ?_⟩
  simp [enteringLanguage]

/-- After a heading, all is put right that it changes, wherever it fails. -/
theorem leaveHeading_composes {body body' : Typeset Unit} (hout : s.frame.inHeading = false)
    (ht : t.setting = s.reframed Frame.headed)
    (h : ∀ t', t'.setting = s.reframed (fun x => x.headed.deeper 1) → Composes C body body' t'
      (s.reframed fun x => x.headed.deeper 1) (fun x => ∃ b, x = (s.frame.headed.deeper 1).titled b) (Laying W)) :
    Composes C (inList body fun t => { t with inHeading := false, headingDepth := t.headingDepth - 1 })
      (inList body' fun t => { t with inHeading := false, headingDepth := t.headingDepth - 1 }) t s (· = s.frame)
      (Laying W) := by
  let leave (x : Frame) : Frame := { x with inHeading := false, headingDepth := x.headingDepth - 1 }
  have hleave : ∀ b, leave ((s.frame.headed).titled b) = s.frame := by
    intro b
    show ({ s.frame with inHeading := false } : Frame) = s.frame
    rw [← hout]
  refine inList_composes (G := leave) ⟨fun _ => rfl, fun _ => rfl⟩ ht h ?_ ?_
  · exact congrArg (fun x => { s with frame := x }) (hleave s.frame.headed.inHeading)
  · rintro x ⟨b, rfl⟩
    rw [← hleave b]
    exact congrArg (fun x => leave (Frame.titled b x)) (s.frame.headed.deeper_back 1)

/-- The texts of a heading, unless it is left out. -/
def headingTexts (s : Setting) (e : Element) : List (List Char) :=
  if isUntitled s.options s.headed e then []
  else allTextsOf s.options false true e.children ++ allTextsOf s.options false true e.children

theorem visitHeading_composes (h : ComposesAll C visit visit') (ht : t.setting = s) (hs : s.Settled) (p : Place) :
    Returns C (visitHeading visit p) (visitHeading visit' p) t s (Laying (headingTexts s p.element)) := by
  subst ht
  refine Composes.get_bind ?_
  have hguard : ((t.options.singleItem && decide (headingLevel t.options p.element = 0)) || t.inHeading ||
      decide (t.headingDepth ≠ 0)) = isUntitled t.setting.options t.setting.headed p.element :=
    Bool.or_assoc _ _ _
  dsimp only
  by_cases huntitled : isUntitled t.setting.options t.setting.headed p.element = true
  · have hskip := hguard.trans huntitled
    rw [if_pos hskip, if_pos hskip, headingTexts, if_pos huntitled]
    exact Returns.nothing (.of_pure ()) rfl
  · have hopen : t.inHeading = false ∧ t.headingDepth = 0 := by
      rw [← hguard] at huntitled
      simp_all
    have hb : t.setting.based t.setting.frame.direction = t.setting := by
      rw [Setting.based, ← (hs hopen.1).1]
    have hbreak : ∀ t', t'.setting = t.setting → Returns C (emit Emit.paragraphBreak) (emit Emit.paragraphBreak) t'
        t.setting (Laying []) := fun t' ht' => paragraphBreak_composes ht'
    have hskip := fun hskip => huntitled (hguard.symm.trans hskip)
    rw [if_neg hskip, if_neg hskip]
    refine Returns.before (paragraphBreak_composes rfl) fun _ t₁ ht₁ => ?_
    refine Composes.lookup_bind ht₁ rfl fun t₂ ht₂ _ => Composes.lookup_bind ht₂ rfl fun t₃ ht₃ _ => Composes.get_bind ?_
    have hbody : ∀ (switch : Bool) (t' : Typesetter), t'.setting = t.setting.reframed Frame.headed → _ :=
      fun switch t' ht' => leaveHeading_composes hopen.1 ht' fun t' ht' =>
        headingBody_composes h ht' (fun hout => hs hout) hopen.1 (Nat.succ_ne_zero _) p (headingLevel t.options p.element)
          t.language switch
    rw [headingTexts, if_neg huntitled]
    split
    · refine switched_composes _ (List.forall_mem_nil _) ht₃ rfl (fun t ht => ?_) (fun t ht => hbody _ t ht)
        fun t' ht' => ?_
      · exact Composes.modify_silent (G := Frame.headed) ⟨fun _ => rfl, fun _ => rfl⟩ ht
      · refine (assume_composes _ ht').bind fun _ t' ht' => Composes.get_bind ?_
        refine Returns.before ((redirect_composes ht' hb).mono ?_) fun _ t' ht' => hbreak t' ht'
        rintro _ rfl
        exact .step rfl
    · exact Composes.modify_bind (G := Frame.headed) ⟨fun _ => rfl, fun _ => rfl⟩ ht₃ fun t' ht' _ =>
        Returns.after (hbody _ t' ht') fun _ t' ht' => hbreak t' ht'

end WikiTypeset.Article
