import WikiTypeset.Proofs.Article.Blocks
import WikiTypeset.Proofs.Article.Sources

/-!
# Running text is tame

A walk needs more depth than its tree is high, since elements are entered again for a change of language or direction,
and templates lead into tables beside them: `Frame.need` bounds what it needs. The typesetting of an element is `Ready`
if the depth suffices and all around the element comes from the source. Then running text, changes of language and
direction, and headings are tame.
-/

namespace WikiTypeset.Article

open Action Html Latex Typeset

/-! ### Bounds of depth -/

/-- How often an element is still entered for a change of language or direction before it is typeset itself. -/
def Frame.turns (f : Frame) (e : Element) : Nat :=
  (if languageOf f.language e = f.language then 0 else 1) + if directionOf f.direction e = f.direction then 0 else 1

/-- The depth that the tables beside a place may take; inside a figure none is led into. -/
def Frame.reserve (f : Frame) (H : Nat) : Nat := if f.inFloat then 0 else 3 * H + 3

/-- A bound on the depth of a walk through content. -/
def Frame.need (f : Frame) (H : Nat) : Content → Nat
  | .element p => f.turns p.element + 3 * p.element.toNode.height + f.reserve H
  | .text _ _ => 1

/-- The content comes from the stock, and the trees around it are no higher than `H`. -/
def Content.Within (k : Stock) (H : Nat) : Content → Prop
  | .element p => p.Bears k H ∧ k.element p.element
  | .text kind s => kind = .plain ∨ kind = .literal → ∀ c ∈ s, k.char c

/-- Typesetting any content of the source is tame that a depth of `n` is enough for. -/
def Visits (k : Source) (H n : Nat) (visit : Visit) : Prop :=
  ∀ c codes f, c.Within k.toStock H → f.need H c ≤ n → k.options.lang ∈ codes → f.language ∈ codes →
    Tame k codes f (visit c)

/-- What typesetting the element at a place relies on. -/
structure Ready (k : Source) (H n : Nat) (visit : Visit) (codes : List String) (f : Frame) (p : Place) : Prop where
  visits : Visits k H n visit
  main : k.options.lang ∈ codes
  language : f.language ∈ codes
  bears : p.Bears k.toStock H
  depth : f.turns p.element + 3 * p.element.toNode.height + f.reserve H ≤ n + 1

theorem Frame.turns_le (f : Frame) (e : Element) : f.turns e ≤ 2 := by
  unfold turns
  split <;> split <;> omega

theorem Node.height_pos (n : Node) : 0 < n.height := by
  cases n <;> simp [Node.height]

theorem mem_contents_go {p : Place} {c : Content} (before : List Node) {ns : List Node} (hns : ns ⊆ p.element.children)
    (hc : c ∈ contentsOf.go p before ns) :
    (∃ q, c = .element q ∧ p.IsParent q) ∨ ∃ kind s, c = .text kind s ∧ .text kind s ∈ p.element.children := by
  induction ns generalizing before with
  | nil => cases hc
  | cons n ns ih =>
    obtain ⟨hn, hrest⟩ := List.cons_subset.1 hns
    cases n with
    | text kind s =>
      rcases List.mem_cons.1 hc with rfl | hc
      · exact .inr ⟨kind, s, rfl, hn⟩
      · exact ih _ hrest hc
    | element name attributes children =>
      rcases List.mem_cons.1 hc with rfl | hc
      · exact .inl ⟨_, rfl, rfl, hn⟩
      · exact ih _ hrest hc

/-- What an element contains comes from where the element comes from, and takes less depth. -/
theorem within_contents {k : Stock} {H : Nat} {p : Place} (hp : p.Bears k H) (f : Frame) {c : Content}
    (hc : c ∈ contentsOf p) : c.Within k H ∧ f.need H c + 1 ≤ 3 * p.element.toNode.height + f.reserve H := by
  rcases mem_contents_go [] (List.Subset.refl _) hc with ⟨q, rfl, hq⟩ | ⟨kind, s, rfl, hs⟩
  · refine ⟨hp.child hq, ?_⟩
    have hlt := Element.height_lt hq.mem
    have hturns := f.turns_le q.element
    show f.turns q.element + 3 * q.element.toNode.height + f.reserve H + 1 ≤ _
    omega
  · refine ⟨fun hkind x hx => hp.holds.text x (textContent_subset hs ?_), ?_⟩
    · rcases hkind with rfl | rfl <;> exact hx
    · have hpos := Node.height_pos p.element.toNode
      show 1 + 1 ≤ _
      omega

variable {k : Source} {H n : Nat} {visit : Visit} {codes : List String} {f : Frame} {p : Place}

namespace Ready

/-- More languages may have been noted. -/
theorem mono {codes' : List String} (h : Ready k H n visit codes f p) (hc : codes ⊆ codes') :
    Ready k H n visit codes' f p :=
  { h with main := hc h.main, language := hc h.language }

/-- The frame may change in what neither depth nor language depends on. -/
theorem congr {f' : Frame} (h : Ready k H n visit codes f p) (hlanguage : f'.language = f.language)
    (hdirection : f'.direction = f.direction) (hfloat : f'.inFloat = f.inFloat) :
    Ready k H n visit codes f' p where
  visits := h.visits
  main := h.main
  language := hlanguage ▸ h.language
  bears := h.bears
  depth := by
    have hdepth := h.depth
    rwa [Frame.turns, Frame.reserve, hlanguage, hdirection, hfloat]

/-- What is ready at a place is ready below it. -/
theorem child {q : Place} (h : Ready k H n visit codes f p) (hq : p.IsParent q) : Ready k H n visit codes f q where
  visits := h.visits
  main := h.main
  language := h.language
  bears := (h.bears.child hq).1
  depth := by
    have hlt := Element.height_lt hq.mem
    have hturns := f.turns_le q.element
    have hdepth := h.depth
    omega

/-- Outside figures, the depth is enough for the content of a figure anywhere. -/
theorem floating {q : Place} (h : Ready k H n visit codes f p) (hf : f.inFloat = false) (hq : q.Bears k.toStock H) :
    Ready k H n visit codes f.floating q where
  visits := h.visits
  main := h.main
  language := h.language
  bears := hq
  depth := by
    have hturns := f.floating.turns_le q.element
    have hle := hq.holds.height_le
    have hdepth := h.depth
    have hbefore : f.reserve H = 3 * H + 3 := by
      rw [Frame.reserve, hf]
      rfl
    have hwithin : f.floating.reserve H = 0 := rfl
    omega

end Ready

theorem visitChildren_tame (h : Ready k H n visit codes f p) : Tame k codes f (visitChildren visit p) := by
  refine Tame.forM fun c hc => ?_
  obtain ⟨hwithin, hneed⟩ := within_contents h.bears f hc
  have hdepth := h.depth
  exact h.visits c codes f hwithin (by omega) h.main h.language

/-! ### Running text -/

theorem visitParagraph_tame (h : Ready k H n visit codes f p) : Tame k codes f (visitParagraph visit p) :=
  (Tame.emit fun _ _ => steady_paragraphBreak).bind fun _ => (visitChildren_tame h).bind fun _ =>
    Tame.emit fun _ _ => steady_paragraphBreak

theorem visitDiv_tame (h : Ready k H n visit codes f p) : Tame k codes f (visitDiv visit p) :=
  (Tame.emit fun _ _ => steady_lineBreak).bind fun _ => (visitChildren_tame h).bind fun _ =>
    Tame.emit fun _ _ => steady_lineBreak

theorem visitWrapped_tame (h : Ready k H n visit codes f p) {command : String}
    (hc : Sourced k codes .startInline command) : Tame k codes f (visitWrapped visit command p) :=
  Tame.wrap hc (visitChildren_tame h)

theorem visitInline_tame (h : Ready k H n visit codes f p) (name : String) :
    Tame k codes f (visitInline visit name p) :=
  visitWrapped_tame h (.inline name)

theorem visitScript_tame (h : Ready k H n visit codes f p) (name : String) :
    Tame k codes f (visitScript visit name p) := by
  unfold visitScript
  split
  · exact Tame.fragment (.content (numberFormula_isContent _ _))
  · exact visitInline_tame h name

/-- A reference is resolved, or its resolution fails. -/
theorem resolved_bind {α : Type} {f' : Frame} {E : Frame → Prop} {base target : String} {g : List Char → Typeset α}
    (hok : ∀ url, Reference.resolve base.toList target.toList = .ok url → Leads k codes f f' E (g url))
    (herror : ∀ cause, Reference.resolve base.toList target.toList = .error cause → Stems k (.reference cause))
    (hE : E f) : Leads k codes f f' E (resolved base target >>= g) := by
  unfold resolved
  cases hresolve : Reference.resolve base.toList target.toList with
  | ok url => exact hok url hresolve
  | error cause => exact Leads.throw_bind (herror cause hresolve) hE

theorem visitAnchor_tame (h : Ready k H n visit codes f p) (he : k.element p.element) (hname : p.element.name = "a") :
    Tame k codes f (visitAnchor visit p) := by
  refine Leads.get_bind fun t hoptions _ => ?_
  split
  · exact visitChildren_tame h
  · rename_i hcond
    split
    · rename_i target htarget
      exact visitWrapped_tame h (.link he hname (.target htarget))
    · rename_i hother
      have hempty : p.element.attr "href" ≠ "" := fun hempty => hcond (by simp [hempty])
      rw [hoptions]
      refine resolved_bind (fun url hurl => ?_) (fun cause hcause => ?_) rfl
      · exact visitWrapped_tame h (.link he hname (.url hempty hurl))
      · refine .element he (.link hname hempty (fun hhead => ?_) hcause)
        obtain ⟨rest, hrest⟩ := List.head?_eq_some_iff.1 hhead
        exact hother rest hrest

/-! ### Languages and directions -/

theorem updateLtrFont_tame {code : String} (hcode : code ∈ codes) :
    Tame k codes f (updateLtrFont (.ofCode code)) := by
  unfold updateLtrFont
  split
  · rename_i command hcommand
    exact (Tame.fragment (.font hcode hcommand)).bind fun _ => (Tame.emit fun _ _ => steady_envBreak).bind fun _ =>
      Tame.emit fun _ _ => steady_resetLine
  · exact Leads.of_pure ()

theorem beginLanguage_tame {code : String} (hcode : code ∈ codes) :
    Tame k codes f (beginLanguage (.ofCode code)) :=
  Tame.emit fun _ hc => steady_beginEnv (.languageBlock (hc hcode))

theorem endLanguage_tame {code : String} (hcode : code ∈ codes) :
    Tame k codes f (emit (Emit.endEnv (Language.ofCode code).environment)) :=
  Tame.emit fun _ hc => steady_endEnv (.languageEnd (hc hcode))

theorem assumeDirection_tame (direction : NamedDirection) : Tame k codes f (emit (Emit.assumeDirection direction)) :=
  Tame.emit fun _ _ => steady_assumeDirection direction

theorem switchDirection_tame (direction : NamedDirection) : Tame k codes f (emit (Emit.switchDirection direction)) :=
  Tame.emit fun _ _ => steady_switchDirection direction

theorem setCoverage_tame {code : String} (hcode : code ∈ codes) :
    Tame k codes f (emit (Emit.setCoverage (Language.ofCode code).latinCoverage)) :=
  Tame.emit fun _ hc => steady_setCoverage fun hcoverage => ⟨code, hc hcode, hcoverage⟩

theorem Frame.turns_language {e : Element} (h : languageOf f.language e ≠ f.language) :
    (f.speaking (e.attr "lang")).turns e + 1 = f.turns e := by
  have hlang : ¬ (e.attr "lang").isEmpty = true := fun hempty => h (by simp [languageOf, hempty])
  have hsame : languageOf (e.attr "lang") e = e.attr "lang" := by simp [languageOf, hlang]
  show (if languageOf (e.attr "lang") e = e.attr "lang" then 0 else 1) +
    (if directionOf f.direction e = f.direction then 0 else 1) + 1 = _
  rw [turns, if_pos hsame, if_neg h]
  omega

theorem Frame.turns_direction {e : Element} (h : directionOf f.direction e ≠ f.direction) :
    (f.facing (directionOf f.direction e)).turns e + 1 = f.turns e := by
  have hsame : directionOf (directionOf f.direction e) e = directionOf f.direction e := by
    unfold directionOf
    cases Direction.ofName? (Text.lowerString (e.attr "dir")) <;> simp only [Option.getD]
  show (if languageOf f.language e = f.language then 0 else 1) +
    (if directionOf (directionOf f.direction e) e = directionOf f.direction e then 0 else 1) + 1 = _
  rw [turns, if_pos hsame, if_neg h]

/-- A language that is noted is one of those that are used. -/
theorem noting_meets (code : String) {t : Typesetter} (ht : t.Meets k codes f) :
    Typesetter.Meets k (code :: codes) f
      { t with used := if t.used.contains code then t.used else t.used ++ [code] } := by
  have hused : code :: t.used ⊆ if t.used.contains code then t.used else t.used ++ [code] := by
    split
    · rename_i hcontains
      exact List.cons_subset.2 ⟨List.contains_iff_mem.1 hcontains, List.Subset.refl _⟩
    · exact List.cons_subset.2 ⟨List.mem_append_right _ (List.mem_singleton_self code), List.subset_append_left _ _⟩
  obtain ⟨hcode, hused⟩ := List.cons_subset.1 hused
  have hcodes := List.cons_subset_cons t.options.lang hused
  refine ⟨ht.options, ht.draws.mono (supply_le hcodes), ht.frame, List.cons_subset.2 ⟨?_, List.Subset.trans ht.codes hcodes⟩⟩
  exact List.mem_cons_of_mem _ hcode

theorem visitLanguage_tame (h : Ready k H n visit codes f p) (he : k.element p.element)
    (hrole : languageOf f.language p.element ≠ f.language) : Tame k codes f (visitLanguage visit p) := by
  refine Leads.get_bind fun t _ hframe => ?_
  subst hframe
  refine Leads.noting (fun t' ht' => noting_meets (p.element.attr "lang") ht') ?_
  refine Leads.lookup_bind (Leads.lookup_bind ?_)
  have hlang : p.element.attr "lang" ∈ p.element.attr "lang" :: codes := List.mem_cons_self ..
  have hprevious : t.language ∈ p.element.attr "lang" :: codes := List.mem_cons_of_mem _ h.language
  have hturns := Frame.turns_language hrole
  have hback : Reframes (fun t' => { t' with language := t.language }) (t.frame.speaking (p.element.attr "lang"))
      t.frame :=
    ⟨fun _ => rfl, fun _ => rfl, fun t' ht' => congrArg (Frame.speaking t.language) ht', fun _ _ hdraws => hdraws⟩
  have hvisit : Tame k (p.element.attr "lang" :: codes) (t.frame.speaking (p.element.attr "lang"))
      (visit (.element p)) := by
    refine h.visits _ _ _ ⟨h.bears, he⟩ ?_ (List.mem_cons_of_mem _ h.main) hlang
    have hdepth := h.depth
    show _ + _ + t.frame.reserve H ≤ n
    omega
  have hspeak : Reframes (fun t' => { t' with language := p.element.attr "lang" }) t.frame
      (t.frame.speaking (p.element.attr "lang")) :=
    ⟨fun _ => rfl, fun _ => rfl, fun _ ht' => ht' ▸ rfl, fun _ _ hdraws => hdraws⟩
  refine Leads.bind (Leads.of_modify hspeak) fun _ => Tame.finishing ?_ hback
  split
  · exact hvisit
  · split
    · exact (beginLanguage_tame hlang).bind fun _ => (updateLtrFont_tame hlang).bind fun _ =>
        (setCoverage_tame hlang).bind fun _ => (assumeDirection_tame _).bind fun _ => hvisit.bind fun _ =>
        (endLanguage_tame hlang).bind fun _ => (setCoverage_tame hprevious).bind fun _ => assumeDirection_tame _
    · refine Leads.bind (Tame.wrap (.language hlang true) ?_) fun _ =>
        (setCoverage_tame hprevious).bind fun _ => assumeDirection_tame _
      exact (assumeDirection_tame _).bind fun _ => (setCoverage_tame hlang).bind fun _ => hvisit

theorem visitDirection_tame (h : Ready k H n visit codes f p) (he : k.element p.element)
    (hrole : directionOf f.direction p.element ≠ f.direction) : Tame k codes f (visitDirection visit p) := by
  refine Leads.get_bind fun t _ hframe => ?_
  subst hframe
  have hturns := Frame.turns_direction hrole
  have hback : Reframes (fun t' => { t' with direction := t.direction })
      (t.frame.facing (directionOf t.direction p.element)) t.frame :=
    ⟨fun _ => rfl, fun _ => rfl, fun t' ht' => congrArg (Frame.facing t.direction) ht', fun _ _ hdraws => hdraws⟩
  have hvisit : Tame k codes (t.frame.facing (directionOf t.direction p.element)) (visit (.element p)) := by
    refine h.visits _ _ _ ⟨h.bears, he⟩ ?_ h.main h.language
    have hdepth := h.depth
    show Frame.turns (t.frame.facing (directionOf t.frame.direction p.element)) _ + _ + t.frame.reserve H ≤ n
    omega
  have hface : Reframes (fun t' => { t' with direction := directionOf t.direction p.element }) t.frame
      (t.frame.facing (directionOf t.direction p.element)) :=
    ⟨fun _ => rfl, fun _ => rfl, fun _ ht' => ht' ▸ rfl, fun _ _ hdraws => hdraws⟩
  refine Leads.bind (Leads.of_modify hface) fun _ => Tame.finishing ?_ hback
  split
  · exact hvisit
  · exact (switchDirection_tame _).bind fun _ => hvisit.bind fun _ => switchDirection_tame _

/-! ### Headings -/

theorem visitHeadingText_tame (h : Ready k H n visit codes f p) {code : String} (hcode : code ∈ codes)
    (switch : Bool) : Tame k codes f (visitHeadingText visit p (.ofCode code) switch) := by
  refine (Tame.emit fun _ _ => steady_writeHeld).bind fun _ => ?_
  split
  · exact (Tame.emit fun _ _ => steady_resetLine).bind fun _ => (visitChildren_tame h).bind fun _ =>
      Tame.emit fun _ _ => steady_writeHeld
  · refine Leads.get_bind fun t _ _ => (Tame.wrap (.language hcode _) ?_).bind fun _ =>
      Tame.emit fun _ _ => steady_writeHeld
    refine (assumeDirection_tame _).bind fun _ => Leads.get_bind fun t _ _ => (switchDirection_tame _).bind fun _ => ?_
    exact (Tame.emit fun _ _ => steady_resetLine).bind fun _ => visitChildren_tame h

theorem shortOpening_mem (level : Nat) : shortOpening (sectionCommand level) ∈ argumentMarks :=
  List.mem_append_left _ (List.mem_map_of_mem (sectionCommand_mem level))

theorem shortOpening_ne_chapter {level : Nat} (h : level ≠ 0) :
    shortOpening (sectionCommand level) ≠ shortOpening "chapter" := by
  have hlower : ∀ command ∈ sectionCommands.drop 1, shortOpening command ≠ shortOpening "chapter" := by decide
  refine hlower _ ?_
  obtain ⟨n, rfl⟩ := Nat.exists_eq_succ_of_ne_zero h
  rw [sectionCommand, sectionCommands, List.getD_cons_succ, List.getD_eq_getElem?_getD]
  show (sectionCommands.drop 1)[n]?.getD "subparagraph" ∈ sectionCommands.drop 1
  cases hcommand : (sectionCommands.drop 1)[n]? with
  | none => decide
  | some command => exact List.mem_of_getElem? hcommand

/-- If a heading fails, then perhaps in its short form. -/
theorem headingBody_leads (h : Ready k H n visit codes f p) (hf : f.inHeading = false) {code : String}
    (hcode : code ∈ codes) {level : Nat} (hlevel : k.options.singleItem = true → level ≠ 0) (switch : Bool) :
    Leads k codes f f (fun x => ∃ b, x = f.titled b) (isolated do
      modify fun t => deepenToc 1 { t with inHeading := true }
      Action.finishing (do
        fragment ("\\" ++ sectionCommand level ++ "[")
        visitHeadingText visit p (.ofCode code) switch) (modify (deepenToc (-1)))
      fragment "]\x7b"
      modify fun t => { t with inHeading := false }
      visitHeadingText visit p (.ofCode code) switch
      fragment "\x7d") := by
  have hback : f.titled false = f := by rw [Frame.titled, ← hf]
  have hopening := fun h : k.options.singleItem = true => shortOpening_ne_chapter (hlevel h)
  refine Leads.isolated (fun codes' hc => ?_) ⟨false, hback.symm⟩ ⟨false, hback.symm⟩
  have hshort : Ready k H n visit codes' ((f.titled true).listed 1) p := (h.mono hc).congr rfl rfl rfl
  have hleave : ∀ t : Typesetter, t.frame = (f.titled true).listed 1 → (deepenToc (-1) t).frame = f.titled true :=
    fun t ht => (congrArg (Frame.listed (-1)) ht).trans (Frame.listed_back _ 1)
  have hinto : Reframes (fun t => deepenToc 1 { t with inHeading := true }) f ((f.titled true).listed 1) :=
    ⟨fun _ => rfl, fun _ => rfl, fun _ ht => ht ▸ rfl, fun _ _ hdraws => { hdraws with }⟩
  have hout : Reframes (deepenToc (-1)) ((f.titled true).listed 1) (f.titled true) :=
    ⟨fun _ => rfl, fun _ => rfl, hleave, fun _ _ hdraws => { hdraws with }⟩
  have hdone : Reframes (fun t => { t with inHeading := false }) (f.titled true) f :=
    ⟨fun _ => rfl, fun _ => rfl, fun _ ht => (congrArg (Frame.titled false) ht).trans hback,
      fun _ _ hdraws => hdraws⟩
  refine Leads.bind (Leads.of_modify hinto) fun _ => Leads.bind
    (Leads.finishing ((Tame.fragment (.argument (shortOpening_mem level) hopening)).bind fun _ =>
      visitHeadingText_tame hshort (hc hcode) switch) hout fun t ht => ⟨true, hleave t ht⟩) fun _ => ?_
  refine Leads.bind ((Tame.fragment (.argument (by decide) fun _ => by decide)).weaken fun x hx => ⟨true, hx⟩) fun _ => ?_
  have htext : Tame k codes' f (do
      visitHeadingText visit p (.ofCode code) switch
      fragment "\x7d") :=
    (visitHeadingText_tame (h.mono hc) (hc hcode) switch).bind fun _ =>
      Tame.fragment (.argument (by decide) fun _ => by decide)
  exact Leads.bind (Leads.of_modify hdone) fun _ => htext.weaken fun x hx => ⟨false, hx.trans hback.symm⟩

/-- After a heading, all is put right that it changes, wherever it fails. -/
theorem leaveHeading_leads (hf : f.inHeading = false) {body : Typeset Unit}
    (h : Leads k codes (f.headed.deeper 1) (f.headed.deeper 1) (fun x => ∃ b, x = (f.headed.deeper 1).titled b) body) :
    Leads k codes f.headed f (· = f)
      (inList body fun t => { t with inHeading := false, headingDepth := t.headingDepth - 1 }) := by
  have hleave : ∀ t : Typesetter, ∀ b, t.frame = f.headed.titled b →
      Typesetter.frame { t with inHeading := false, headingDepth := t.headingDepth - 1 } = f := by
    intro t b ht
    have hchange : Typesetter.frame { t with inHeading := false, headingDepth := t.headingDepth - 1 } =
        { t.frame with inHeading := false, headingDepth := t.frame.headingDepth - 1 } := rfl
    rw [hchange, ht, ← hf]
    rfl
  refine Leads.inList h ⟨fun _ => rfl, fun _ => rfl, fun t ht => hleave t false ?_, fun _ _ hdraws => hdraws⟩ ?_
  · rw [ht, f.headed.deeper_back 1, Frame.titled, ← hf]
    rfl
  · rintro t ⟨b, ht⟩
    refine hleave t b ?_
    rw [← t.frame.deeper_back 1, ht]
    exact congrArg (Frame.titled b) (f.headed.deeper_back 1)

theorem visitHeading_tame (h : Ready k H n visit codes f p) : Tame k codes f (visitHeading visit p) := by
  refine Leads.get_bind fun t hoptions hframe => ?_
  subst hframe
  dsimp only
  split
  · exact Leads.of_pure ()
  · rename_i hguard
    have hf : t.frame.inHeading = false := by
      show t.inHeading = false
      simp_all
    have hlevel : k.options.singleItem = true → headingLevel t.options p.element ≠ 0 := by
      intro hsingle hzero
      rw [hoptions] at hguard hzero
      exact hguard (by simp [hsingle, hzero])
    have hmain : t.options.lang ∈ codes := hoptions ▸ h.main
    have hhead : Leads k codes t.frame t.frame.headed (· = t.frame)
        (modify fun t => { t with headingDepth := t.headingDepth + 1 }) :=
      Leads.of_modify ⟨fun _ => rfl, fun _ => rfl, fun _ ht => ht ▸ rfl, fun _ _ hdraws => hdraws⟩
    have hready : Ready k H n visit codes (t.frame.headed.deeper 1) p := h.congr rfl rfl rfl
    have hbreak : Tame k codes t.frame (emit Emit.paragraphBreak) := Tame.emit fun _ _ => steady_paragraphBreak
    refine hbreak.bind fun _ => Leads.lookup_bind (Leads.lookup_bind (Leads.get_bind fun t₁ _ _ => ?_))
    split
    · refine (beginLanguage_tame hmain).bind fun _ => (updateLtrFont_tame hmain).bind fun _ =>
        (assumeDirection_tame _).bind fun _ => hhead.bind fun _ => ?_
      refine (leaveHeading_leads hf (headingBody_leads hready hf h.language hlevel _)).bind fun _ => ?_
      refine (endLanguage_tame hmain).bind fun _ => (assumeDirection_tame _).bind fun _ => ?_
      exact Leads.get_bind fun t₂ _ _ => (switchDirection_tame _).bind fun _ => hbreak
    · refine hhead.bind fun _ => ?_
      exact (leaveHeading_leads hf (headingBody_leads hready hf h.language hlevel _)).bind fun _ => hbreak

end WikiTypeset.Article
