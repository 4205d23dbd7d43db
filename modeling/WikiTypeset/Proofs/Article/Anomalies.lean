import WikiTypeset.Proofs.Article.Origins
import WikiTypeset.Proofs.Bidi.Settled

/-!
# What stops a document

The text of a document is no reason for its typesetting to fail as long as every character has a bidi class: neither the
emitter nor the bound of a walk stops it then. What is left is the markup itself, where it cannot be read, and elements
of five kinds: links and images whose references cannot be resolved, formulas that end in a literal part, templates whose
names cannot stand in a selector, and images whose options are no list. Main statement: `typeset_outcome`.
-/

namespace WikiTypeset.Article

open Action Bidi Html Latex

/-- The text of a document is analysed if its characters and those of its title have a bidi class. -/
theorem sourceOf_analysed {document : Element} {title? : Option String} {options : ArticleOptions}
    (hdocument : IsClassified document.textContent) (htitle : ∀ title, title? = some title → IsClassified title.toList)
    {s : List Char} (hs : ∀ c ∈ s, (sourceOf document title? options).char c) (base : Direction) :
    ∃ p, paragraph s base = .ok p := by
  refine paragraph_of_classified (fun c hc => ?_) base
  rcases hs c hc with htext | ⟨title, hsome, htext⟩ | rfl | rfl
  · exact hdocument c htext
  · exact htitle title hsome c htext
  · decide +kernel
  · decide +kernel

/-- If the typesetting of a document of classified characters fails, then for one of its elements. -/
theorem typesetDocument_stops {document : Element} {title? : Option String} (options : ArticleOptions)
    (hdocument : IsClassified document.textContent) (htitle : ∀ title, title? = some title → IsClassified title.toList)
    (lang : String) (warned : List String) :
    Leaves (typesetDocument document title? lang) (start options (.known options.direction) warned) (fun _ _ => True)
      fun c _ => ∃ e ∈ document.toNode.elements, Stops options e c := by
  have horigins := typesetDocument_origins document title? lang options (.known options.direction) warned
  refine (horigins.and (typesetDocument_lays document title? lang options _ warned)).imp (fun _ _ _ => trivial)
    fun c _ h => ?_
  obtain ⟨⟨hstems, -⟩, hanalysis⟩ := h
  cases hstems with
  | element he hstops => exact hstops.of_isElementOf he
  -- The emitter fails for nothing but a text that cannot be analysed, and there is none.
  | @emitter cause hcause =>
    obtain ⟨reason, rfl⟩ := hanalysis cause rfl
    obtain ⟨s, base, hs, herror⟩ := hcause reason rfl
    obtain ⟨p, hp⟩ := sourceOf_analysed hdocument htitle hs base
    cases hp.symm.trans herror

/-- What becomes of markup that can be read is what becomes of its document. -/
theorem typeset_of_document {markup : List Char} {document : Element} (h : Html.document markup = .ok document)
    (options : ArticleOptions) (title? articleLanguage? : Option String) (warned : List String) :
    ∃ lang, (typeset markup options title? articleLanguage? warned).outcome =
      let options := options.withBase (baseReference document)
      let performed := (typesetDocument document title? lang).perform (start options (.known options.direction) warned)
      performed.1.map fun _ => performed.2.used :=
  ⟨_, congrArg Result.outcome (typeset_eq h options title? articleLanguage? warned)⟩

/-- Markup whose text has bidi classes is typeset, unless it cannot be read, or an element of its document stops it. -/
theorem typeset_outcome (markup : List Char) (options : ArticleOptions) (title? articleLanguage? : Option String)
    (warned : List String) (hmarkup : ∀ document, Html.document markup = .ok document → IsClassified document.textContent)
    (htitle : ∀ title, title? = some title → IsClassified title.toList) :
    (∃ used, (typeset markup options title? articleLanguage? warned).outcome = .ok used) ∨
    (∃ cause, Html.document markup = .error cause ∧
      (typeset markup options title? articleLanguage? warned).outcome = .error (.markup cause)) ∨
    ∃ document, Html.document markup = .ok document ∧ ∃ e ∈ document.toNode.elements, ∃ c,
      Stops (options.withBase (baseReference document)) e c ∧
      (typeset markup options title? articleLanguage? warned).outcome = .error c := by
  cases hparsed : Html.document markup with
  | error cause =>
    refine .inr (.inl ⟨cause, rfl, ?_⟩)
    unfold typeset
    rw [hparsed]
  | ok document =>
    obtain ⟨lang, houtcome⟩ := typeset_of_document hparsed options title? articleLanguage? warned
    have hstops := typesetDocument_stops (options.withBase (baseReference document)) (hmarkup document hparsed) htitle lang
      warned
    rw [houtcome]
    dsimp only
    rcases hperform : (typesetDocument document title? lang).perform (start (options.withBase (baseReference document))
      (.known (options.withBase (baseReference document)).direction) warned) with ⟨c | _, t⟩
    · obtain ⟨e, he, hstop⟩ := hstops.error hperform
      exact .inr (.inr ⟨document, rfl, e, he, c, hstop, rfl⟩)
    · exact .inl ⟨t.used, rfl⟩

/-- A paragraph with a formula that ends where its literal part should begin. -/
def literalMarkup : List Char :=
  "<p>a<span typeof='mw:Extension/math' data-mw='\x7b\"body\":\x7b\"extsrc\":\"\\\\verb\"\x7d\x7d'></span></p>".toList

theorem literalMarkup_parses : ∃ document, Html.document literalMarkup = .ok document ∧
    IsClassified document.textContent ∧ baseReference document = "" := by
  have hall : ((Html.document literalMarkup).toOption.any fun document =>
      decide (IsClassified document.textContent) && baseReference document == "") = true := by decide +kernel
  cases hparsed : Html.document literalMarkup with
  | error cause =>
    rw [hparsed] at hall
    cases hall
  | ok document =>
    rw [hparsed] at hall
    obtain ⟨hclassified, hbase⟩ := Bool.and_eq_true_iff.1 hall
    exact ⟨document, rfl, of_decide_eq_true hclassified, eq_of_beq hbase⟩

theorem literalMarkup_fails : (typeset literalMarkup {} none none []).outcome = .error .formulaEnded := by
  decide +kernel

/-- All of its characters have a bidi class, and the broken formula stops it. -/
theorem literalMarkup_stops : (∃ document, Html.document literalMarkup = .ok document ∧
    IsClassified document.textContent) ∧ (typeset literalMarkup {} none none []).outcome = .error .formulaEnded := by
  obtain ⟨document, hparsed, hclassified, -⟩ := literalMarkup_parses
  exact ⟨⟨document, hparsed, hclassified⟩, literalMarkup_fails⟩

/-- An element of it is to blame. -/
theorem literalMarkup_outcome : ∃ document, Html.document literalMarkup = .ok document ∧
    ∃ e ∈ document.toNode.elements, Stops ({} : ArticleOptions) e .formulaEnded := by
  obtain ⟨document, hparsed, hclassified, hbase⟩ := literalMarkup_parses
  have hmarkup : ∀ document', Html.document literalMarkup = .ok document' → IsClassified document'.textContent := by
    intro document' hparsed'
    cases hparsed.symm.trans hparsed'
    exact hclassified
  rcases typeset_outcome literalMarkup {} none none [] hmarkup nofun with
    ⟨used, hok⟩ | ⟨cause, hparsed', -⟩ | ⟨document', hparsed', e, he, c, hstops, houtcome⟩
  · cases hok.symm.trans literalMarkup_fails
  · cases hparsed.symm.trans hparsed'
  · cases hparsed.symm.trans hparsed'
    cases houtcome.symm.trans literalMarkup_fails
    rw [hbase] at hstops
    exact ⟨document, hparsed, e, he, hstops⟩

end WikiTypeset.Article
