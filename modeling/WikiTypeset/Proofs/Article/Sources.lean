import WikiTypeset.Article.Walk
import WikiTypeset.Proofs.Article.Enclosure
import WikiTypeset.Proofs.Article.Settings
import WikiTypeset.Proofs.Emission.Formatting
import WikiTypeset.Proofs.Emission.Supply
import WikiTypeset.Proofs.Html.Surroundings

/-!
# Where the marks of a document come from

All that a document gives its emitter comes from its elements and its text, and from the languages that have been noted
as used. `Sourced` lists the marks, and `Stops` the elements that their typesetting fails for. `Tame` actions keep to
them, come back to the frame that they started in, and fail for nothing else; every way of composing actions has a rule.
-/

namespace WikiTypeset.Article

open Action Html Latex Typeset

/-! ### Marks and failures -/

/-- What a document is typeset from: its elements, the characters of its text with those that stand for breaks between
words, and the options. -/
structure Source extends Stock where
  options : ArticleOptions
  blank : char ' '
  wordBreak : char '\u200B'

/-- The command of the link that an element is, in a document with the given base: a target in the document as it
stands, or the resolved reference in escaped form. -/
inductive LinkCommand (base : String) (e : Element) : String → Prop
  | target {target : List Char} (h : (e.attr "href").toList = '#' :: target) :
    LinkCommand base e ("\\hyperlink\x7b" ++ String.ofList target ++ "\x7d")
  | url (hempty : e.attr "href" ≠ "") {url : List Char}
    (h : Reference.resolve base.toList (e.attr "href").toList = .ok url) :
    LinkCommand base e ("\\href\x7b" ++ String.ofList (escapeUrl url) ++ "\x7d")

/-- The marks that a document may give its emitter once languages of the given codes are used. -/
inductive Sourced (k : Source) (codes : List String) : DecorationKind → String → Prop
  | inline (name : String) : Sourced k codes .startInline (inlineCommand name)
  | link {e : Element} (he : k.element e) (hname : e.name = "a") {command : String}
    (h : LinkCommand k.options.baseUrl e command) : Sourced k codes .startInline command
  | language {code : String} (h : code ∈ codes) (withOptions : Bool) :
    Sourced k codes .startInline (languageCommand (.ofCode code) withOptions)
  | endInline {command : String} (h : Sourced k codes .startInline command) : Sourced k codes .endInline command
  | content {value : String} (h : IsContent value) : Sourced k codes .raw value
  | style {value : String} (h : value ∈ styleFragments) : Sourced k codes .raw value
  /-- A document that is the whole collection has no headings of the highest level. -/
  | argument {value : String} (h : value ∈ argumentMarks)
    (hlevel : k.options.singleItem = true → value ≠ shortOpening "chapter") : Sourced k codes .raw value
  | item : Sourced k codes .raw (itemMark none)
  | reference {e : Element} (he : k.element e) (number : Nat) :
    Sourced k codes .raw (itemMark (some (number, e.attr "id")))
  | font {code command : String} (h : code ∈ codes) (hc : (Language.ofCode code).ltrFontCommand? = some command) :
    Sourced k codes .raw command
  | environment {env : String} (h : env ∈ plainEnvironments) (options : String) :
    Sourced k codes .startBlock (beginCommand env options)
  | environmentEnd {env : String} (h : env ∈ plainEnvironments) : Sourced k codes .endBlock (endCommand env)
  | languageBlock {code : String} (h : code ∈ codes) :
    Sourced k codes .startBlock (beginCommand (Language.ofCode code).environment (Language.ofCode code).options)
  | languageEnd {code : String} (h : code ∈ codes) :
    Sourced k codes .endBlock (endCommand (Language.ofCode code).environment)

/-- What a document may give its emitter once languages of the given codes are used. -/
def supply (k : Source) (codes : List String) : Supply where
  mark := Sourced k codes
  char := k.char
  latinFont := ∃ code ∈ codes, (Language.ofCode code).latinCoverage = false

theorem Sourced.mono {k : Source} {codes codes' : List String} (h : codes ⊆ codes') {kind : DecorationKind}
    {value : String} (hs : Sourced k codes kind value) : Sourced k codes' kind value := by
  induction hs with
  | inline name => exact .inline name
  | link he hname hc => exact .link he hname hc
  | language hcode withOptions => exact .language (h hcode) withOptions
  | endInline _ ih => exact .endInline ih
  | content hv => exact .content hv
  | style hv => exact .style hv
  | argument hv hlevel => exact .argument hv hlevel
  | item => exact .item
  | reference he number => exact .reference he number
  | font hcode hc => exact .font (h hcode) hc
  | environment henv options => exact .environment henv options
  | environmentEnd henv => exact .environmentEnd henv
  | languageBlock hcode => exact .languageBlock (h hcode)
  | languageEnd hcode => exact .languageEnd (h hcode)

theorem supply_le {k : Source} {codes codes' : List String} (h : codes ⊆ codes') :
    (supply k codes).Le (supply k codes') where
  mark := Sourced.mono h
  char := id
  latinFont := fun ⟨code, hcode, hl⟩ => ⟨code, h hcode, hl⟩

/-- What is wrong with an element that its typesetting fails for. -/
inductive Stops (o : ArticleOptions) (e : Element) : ArticleError → Prop
  | link (hname : e.name = "a") (hempty : e.attr "href" ≠ "") (htarget : (e.attr "href").toList.head? ≠ some '#')
    {cause : Reference.ReferenceError}
    (h : Reference.resolve o.baseUrl.toList (e.attr "href").toList = .error cause) : Stops o e (.reference cause)
  | image (hname : e.name = "img") {cause : Reference.ReferenceError}
    (h : Reference.resolve o.baseUrl.toList (e.attr "resource").toList = .error cause) : Stops o e (.reference cause)
  | formula {data source : Json} (hdata : (e.metadata "data-mw").1 = some data)
    (hsource : data.path? ["body", "extsrc"] = some source)
    (h : Formula.check source.display.toList = .error (.structural .noDelimiter)) : Stops o e .formulaEnded
  | template (h : e.isMultipleImage.1 = true) (hname : quotedSelectorText? (e.attr "about").toList = none) :
    Stops o e .badTemplateName
  | imageOptions (h : pageAsked (e.metadata "data-parsoid").1 = .error .badImageOptions) : Stops o e .badImageOptions

/-- Why the typesetting of a document may fail: for one of its elements, or for its emitter; if the analysis fails, then
for a text of its characters. -/
inductive Stems (k : Source) : ArticleError → Prop
  | element {e : Element} (he : k.element e) {c : ArticleError} (h : Stops k.options e c) : Stems k c
  | emitter {cause : EmitError} (h : cause.StemsFrom k.char) : Stems k (.emit cause)

/-! ### Meeting the source -/

/-- The codes of the languages used so far, that of the collection first. -/
def Typesetter.codes (t : Typesetter) : List String := t.options.lang :: t.used

/-- The typesetter is at work on the source, in the frame `f`, and has noted languages of the given codes: its emitter
has nothing but what they provide. -/
structure Typesetter.Meets (k : Source) (codes : List String) (f : Frame) (t : Typesetter) : Prop where
  options : t.options = k.options
  draws : t.emitter.Draws (supply k t.codes)
  frame : t.frame = f
  codes : codes ⊆ t.codes

/-- A change that leaves the options and the noted languages alone, and gives the emitter nothing new. -/
theorem Typesetter.Meets.congr {k : Source} {codes : List String} {f f' : Frame} {t t' : Typesetter}
    (h : t.Meets k codes f) (hoptions : t'.options = t.options) (hused : t'.used = t.used) (hframe : t'.frame = f')
    (hdraws : t.emitter.Draws (supply k t.codes) → t'.emitter.Draws (supply k t.codes)) : t'.Meets k codes f' := by
  have hcodes : t'.codes = t.codes := by rw [Typesetter.codes, Typesetter.codes, hoptions, hused]
  exact ⟨hoptions.trans h.options, hcodes ▸ hdraws h.draws, hframe, hcodes ▸ h.codes⟩

/-- The change leads from one frame to another, and is none of the options, the noted languages and what the emitter
has. -/
structure Reframes (m : Typesetter → Typesetter) (f f' : Frame) : Prop where
  options : ∀ t, (m t).options = t.options
  used : ∀ t, (m t).used = t.used
  frame : ∀ t : Typesetter, t.frame = f → (m t).frame = f'
  draws : ∀ t : Typesetter, ∀ u, t.emitter.Draws u → (m t).emitter.Draws u

theorem Typesetter.Meets.reframe {k : Source} {codes : List String} {f f' : Frame} {t : Typesetter}
    {m : Typesetter → Typesetter} (h : t.Meets k codes f) (hm : Reframes m f f') : (m t).Meets k codes f' :=
  h.congr (hm.options t) (hm.used t) (hm.frame t h.frame) (hm.draws t _)

/-- Languages that need not be noted do no harm. -/
theorem Typesetter.Meets.fewer {k : Source} {codes codes' : List String} {f : Frame} {t : Typesetter}
    (h : t.Meets k codes' f) (hcodes : codes ⊆ codes') : t.Meets k codes f :=
  ⟨h.options, h.draws, h.frame, List.Subset.trans hcodes h.codes⟩

/-! ### Tame actions -/

/-- From the frame `f`, the action keeps to the source: a result comes in the frame `f'`, and a failure in one of the
frames `E`. Once languages of the given codes have been noted, they stay so. -/
def Leads {α : Type} (k : Source) (codes : List String) (f f' : Frame) (E : Frame → Prop) (a : Typeset α) : Prop :=
  ∀ t : Typesetter, t.Meets k codes f →
    Leaves a t (fun _ t' => t'.Meets k codes f') fun c t' => Stems k c ∧ ∃ g, E g ∧ t'.Meets k codes g

/-- The action keeps to the source, and comes back to the frame that it starts in. -/
abbrev Tame {α : Type} (k : Source) (codes : List String) (f : Frame) (a : Typeset α) : Prop :=
  Leads k codes f f (· = f) a

variable {α β : Type} {k : Source} {codes : List String} {f f₁ f' : Frame} {E E₁ : Frame → Prop}

theorem emit_leaves {t : Typesetter} (ht : t.Meets k codes f) {R : α → Prop} {a : Emit α}
    (h : SteadyWith (supply k t.codes) R a) :
    Leaves (Typeset.emit a) t (fun x t' => R x ∧ t'.Meets k codes f) fun c t' => Stems k c ∧ t'.Meets k codes f := by
  have hframe : ∀ {e : Emitter}, t.emitter.AsDeep e → Typesetter.frame { t with emitter := e } = f := by
    intro e he
    simp [← ht.frame, Typesetter.frame, he.1, he.2]
  refine Leaves.within ((h t.emitter ht.draws).imp (fun x e h' => ?_) fun c e h' => ?_)
  · exact ⟨h'.1, ht.congr rfl rfl (hframe h'.2.2) fun _ => h'.2.1⟩
  · exact ⟨.emitter h'.1, ht.congr rfl rfl (hframe h'.2.2) fun _ => h'.2.1⟩

namespace Leads

variable {a : Typeset α} {g : α → Typeset β}

theorem of_pure (x : α) : Leads k codes f f E (pure x) := fun _ ht => Leaves.of_pure ht

theorem of_throw {c : ArticleError} (hc : Stems k c) (hE : E f) : Leads k codes f f' E (throw c : Typeset α) :=
  fun _ ht => Leaves.of_throw ⟨hc, f, hE, ht⟩

theorem bind (ha : Leads k codes f f₁ E a) (hg : ∀ x, Leads k codes f₁ f' E (g x)) :
    Leads k codes f f' E (a >>= g) :=
  fun t ht => (ha t ht).bind fun x t₁ h₁ => hg x t₁ h₁

theorem weaken (h : Leads k codes f f' E a) (hE : ∀ x, E x → E₁ x) : Leads k codes f f' E₁ a :=
  fun t ht => (h t ht).imp (fun _ _ h' => h') fun _ _ ⟨hc, g, hg, h'⟩ => ⟨hc, g, hE g hg, h'⟩

theorem throw_bind {c : ArticleError} (hc : Stems k c) (hE : E f) :
    Leads k codes f f' E ((throw c : Typeset α) >>= g) :=
  fun _ ht => Leaves.bind (M := fun _ _ => False) (Leaves.of_throw ⟨hc, f, hE, ht⟩) fun _ _ h => h.elim

theorem get_bind {g : Typesetter → Typeset β}
    (h : ∀ t : Typesetter, t.options = k.options → t.frame = f → Leads k codes f f' E (g t)) :
    Leads k codes f f' E (get >>= g) :=
  fun t ht => Leaves.get_bind (h t ht.options ht.frame t ht)

theorem of_modify {m : Typesetter → Typesetter} (hm : Reframes m f f') : Leads k codes f f' E (modify m) :=
  fun _ ht => Leaves.of_modify (ht.reframe hm)

/-- What is done while another language is noted. -/
theorem noting {code : String} {m : Typesetter → Typesetter} {a : Unit → Typeset β}
    (hm : ∀ t, t.Meets k codes f → (m t).Meets k (code :: codes) f)
    (ha : Leads k (code :: codes) f f' E (a ())) : Leads k codes f f' E (modify m >>= a) := by
  intro t ht
  have hfewer := List.subset_cons_self code codes
  exact (ha (m t) (hm t ht)).of_perform_eq (by rw [perform_bind, perform_modify]) |>.imp
    (fun _ _ h' => h'.fewer hfewer) fun _ _ ⟨hc, g, hg, h'⟩ => ⟨hc, g, hg, h'.fewer hfewer⟩

/-- A change that is put right at the end. -/
theorem finishing {a : Typeset Unit} (ha : Leads k codes f f₁ E₁ a) {m : Typesetter → Typesetter}
    (hm : Reframes m f₁ f') (hE : ∀ t : Typesetter, E₁ t.frame → E (m t).frame) :
    Leads k codes f f' E (Action.finishing a (modify m)) := by
  intro t ht
  refine Leaves.finishing ((ha t ht).imp (fun _ t₁ h₁ => ?_) fun c t₁ h₁ => ?_)
  · exact Leaves.of_modify (h₁.reframe hm)
  · obtain ⟨hc, g, hg, h₁⟩ := h₁
    exact Leaves.of_modify ⟨hc, (m t₁).frame, hE t₁ (h₁.frame ▸ hg),
      h₁.congr (hm.options t₁) (hm.used t₁) rfl (hm.draws t₁ _)⟩

/-- A look-up gives the language of its code. -/
theorem lookup_bind {code : String} {g : Language → Typeset β} (hg : Leads k codes f f' E (g (.ofCode code))) :
    Leads k codes f f' E (Typeset.lookup code >>= g) := by
  intro t ht
  obtain ⟨t₁, hperform, hframe, hoptions, hused, hemitter⟩ :
      ∃ t₁, (Typeset.lookup code).perform t = (.ok (Language.ofCode code), t₁) ∧ t₁.frame = t.frame ∧
        t₁.options = t.options ∧ t₁.used = t.used ∧ t₁.emitter = t.emitter :=
    ⟨_, rfl, rfl, rfl, rfl, rfl⟩
  have h₁ : t₁.Meets k codes f := ht.congr hoptions hused (hframe.trans ht.frame) (hemitter ▸ id)
  exact (hg t₁ h₁).of_perform_eq (by rw [perform_bind, hperform])

/-- Content in which no inline formatting is open. -/
theorem isolated {content : Typeset Unit} (h : ∀ codes', codes ⊆ codes' → Leads k codes' f f' E content) (hE : E f)
    (hE' : E f') : Leads k codes f f' E (Typeset.isolated content) := by
  intro t ht
  -- The formatting that is put aside is still allowed after the content: by then no noted language has been lost.
  have hall : t.Meets k t.codes f := ⟨ht.options, ht.draws, ht.frame, List.Subset.refl _⟩
  refine Leaves.bind (M := fun saved t₁ => (∀ d ∈ saved, Sourced k t.codes .startInline d.value) ∧
    t₁.Meets k t.codes f) ?_ fun saved t₁ h₁ => ?_
  · exact (emit_leaves hall steady_enterIsolation).imp (fun _ _ h₁ => h₁) fun c t₁ h₁ =>
      ⟨h₁.1, f, hE, h₁.2.fewer ht.codes⟩
  · obtain ⟨hsaved, h₁⟩ := h₁
    have hcheck : Leads k t.codes f' f' E (Typeset.emit Emit.checkIsolation) := fun t₂ h₂ =>
      (emit_leaves h₂ steady_checkIsolation).imp (fun _ _ h₃ => h₃.2) fun c t₃ h₃ => ⟨h₃.1, f', hE', h₃.2⟩
    have hchecked := (h t.codes ht.codes).bind fun _ => hcheck
    have hback : ∀ {g : Frame} {t₂ : Typesetter}, t₂.Meets k t.codes g →
        Typesetter.Meets k codes g { t₂ with emitter := { t₂.emitter with stack := saved } } := by
      intro g t₂ h₂
      have hmarks : ∀ d ∈ saved, Sourced k t₂.codes .startInline d.value := fun d hd => (hsaved d hd).mono h₂.codes
      have hall₂ : Typesetter.Meets k t.codes g { t₂ with emitter := { t₂.emitter with stack := saved } } :=
        ⟨h₂.options, h₂.draws.exchange hmarks, h₂.frame, h₂.codes⟩
      exact hall₂.fewer ht.codes
    refine Leaves.finishing ((hchecked t₁ h₁).imp (fun _ t₂ h₂ => ?_) fun c t₂ h₂ => ?_)
    · exact Leaves.within (Leaves.of_modify (hback h₂))
    · obtain ⟨hc, g, hg, h₂⟩ := h₂
      exact Leaves.within (Leaves.of_modify ⟨hc, g, hg, hback h₂⟩)

/-- A part one level deeper in lists. -/
theorem inList {content : Typeset Unit} {restore : Typesetter → Typesetter}
    (h : Leads k codes (f.deeper 1) f₁ E₁ content) (hr : Reframes restore (f₁.deeper (-1)) f')
    (hE : ∀ t : Typesetter, E₁ (t.frame.deeper 1) → E (restore t).frame) :
    Leads k codes f f' E (Typeset.inList content restore) := by
  refine bind (of_modify ⟨fun _ => rfl, fun _ => rfl, fun t ht => ?_, fun _ _ hdraws => { hdraws with }⟩) fun _ =>
    finishing h ⟨fun t => hr.options _, fun t => hr.used _, fun t ht => hr.frame _ ?_, fun t u hdraws => hr.draws _ u ?_⟩
      fun t ht => hE _ ?_
  · exact ht ▸ rfl
  · exact ht ▸ rfl
  · exact { hdraws with }
  · rw [show Typesetter.frame _ = t.frame.deeper (-1) from rfl, t.frame.deeper_forth 1]
    exact ht

end Leads

namespace Tame

variable {a : Typeset α} {g : α → Typeset β}

/-- An action of the emitter that keeps to the supply. -/
theorem emit {a : Emit α} (h : ∀ codes', codes ⊆ codes' → Steady (supply k codes') a) :
    Tame k codes f (Typeset.emit a) :=
  fun _ ht => (emit_leaves ht (h _ ht.codes)).imp (fun _ _ h' => h'.2) fun _ _ h' => ⟨h'.1, f, rfl, h'.2⟩

theorem record {d : Decoration} (h : Sourced k codes d.kind d.value) : Tame k codes f (Typeset.emit (Emit.record d)) :=
  emit fun _ hc => steady_record (h.mono hc)

theorem fragment {value : String} (h : Sourced k codes .raw value) : Tame k codes f (Typeset.fragment value) := record h

theorem write {s : List Char} (h : ∀ c ∈ s, k.char c) : Tame k codes f (Typeset.write s) :=
  emit fun _ _ => steady_write k.blank h

theorem note (log : Log) : Tame k codes f (Typeset.note log) :=
  Leads.of_modify ⟨fun _ => rfl, fun _ => rfl, fun _ ht => ht, fun _ _ hdraws => hdraws⟩

theorem say (level : LogLevel) (text : String) : Tame k codes f (Typeset.say level text) := note _

theorem forM {γ : Type} {g : γ → Typeset Unit} {xs : List γ} (hg : ∀ x ∈ xs, Tame k codes f (g x)) :
    Tame k codes f (xs.forM g) := by
  induction xs with
  | nil => exact Leads.of_pure ()
  | cons x xs ih =>
    obtain ⟨hx, hxs⟩ := List.forall_mem_cons.1 hg
    exact hx.bind fun _ => ih hxs

/-- Content inside inline formatting. -/
theorem wrap {command : String} {content : Typeset Unit} (hc : Sourced k codes .startInline command)
    (h : Tame k codes f content) : Tame k codes f (Typeset.wrap command content) := by
  refine (record hc).bind fun _ t₁ h₁ => Leaves.finishing ?_
  refine (h t₁ h₁).imp (fun _ t₂ h₂ => record (.endInline hc) t₂ h₂) fun c t₂ h₂ => ?_
  obtain ⟨hstems, g, rfl, h₂⟩ := h₂
  exact (record (.endInline hc) t₂ h₂).imp_left fun _ t₃ h₃ => ⟨hstems, g, rfl, h₃⟩

/-- A change that is put right at the end. -/
theorem finishing {a : Typeset Unit} (ha : Tame k codes f a) {m : Typesetter → Typesetter} (hm : Reframes m f f') :
    Leads k codes f f' (· = f') (Action.finishing a (modify m)) :=
  Leads.finishing ha hm hm.frame

/-- A part one level deeper in lists. -/
theorem inList {content : Typeset Unit} {restore : Typesetter → Typesetter} (h : Tame k codes (f.deeper 1) content)
    (hr : Reframes restore f f') : Leads k codes f f' (· = f') (Typeset.inList content restore) := by
  refine Leads.inList h ((f.deeper_back 1).symm ▸ hr) fun t ht => hr.frame t ?_
  rw [← t.frame.deeper_back 1, ht, f.deeper_back]

end Tame

end WikiTypeset.Article
