import WikiTypeset.Article.Page
import WikiTypeset.Proofs.Article.Blocks
import WikiTypeset.Proofs.Emission.Environments

/-!
# Documents are balanced

The typesetting of a document performs the program of a layout and a flush, or fails for a reason of its own:
`typesetDocument_lays`. The environments of such a program are nested, and so are those of the output. Main statement:
`document_balanced`.
-/

namespace WikiTypeset.Article

open Action Latex Typeset Html

variable {C : ArticleError → Prop} {t : Typesetter} {s : Setting}

/-- A body that names its language and direction: where it does not, the given language, and the direction of its
language. -/
def namedBody (body : Element) (lang : String) : Element :=
  let body := if (body.attr "lang").isEmpty then body.withAttr "lang" (.text lang) else body
  if (body.attr "dir").isEmpty then body.withAttr "dir" (.text (Language.ofCode (body.attr "lang")).direction.name)
  else body

/-- It is otherwise as it was. -/
theorem namedBody_likens (body : Element) (lang : String) :
    (namedBody body lang).Likens body ∧ (namedBody body lang).children = body.children := by
  have hdirection : ∀ body' : Element, body'.Likens body ∧ body'.children = body.children →
      ∀ direction : String, (if (body'.attr "dir").isEmpty then body'.withAttr "dir" (.text direction) else body').Likens
        body ∧ (if (body'.attr "dir").isEmpty then body'.withAttr "dir" (.text direction) else body').children =
          body.children := by
    rintro body' ⟨hlikens, hchildren⟩ direction
    split
    · exact ⟨(body'.likens_withAttr (.inr rfl) _).trans hlikens, (body'.children_withAttr _ _).trans hchildren⟩
    · exact ⟨hlikens, hchildren⟩
  unfold namedBody
  split
  · exact hdirection _ ⟨body.likens_withAttr (.inl rfl) _, body.children_withAttr _ _⟩ _
  · exact hdirection body ⟨.refl body, rfl⟩ _

theorem withLanguage_silent (body : Element) (lang : String) :
    SilentWith (· = namedBody body lang) (withLanguage body lang) := by
  have hdirection : ∀ body' : Element, SilentWith
      (· = if (body'.attr "dir").isEmpty then
          body'.withAttr "dir" (.text (Language.ofCode (body'.attr "lang")).direction.name) else body') (do
        if (body'.attr "dir").isEmpty then
          let l ← lookup (body'.attr "lang")
          return body'.withAttr "dir" (.text l.direction.name)
        else return body') := by
    intro body'
    split
    · refine (SilentWith.lookup _).bind fun l hl => .of_pure ?_
      rw [hl]
    · exact .of_pure rfl
  unfold withLanguage namedBody
  split
  · exact hdirection _
  · exact hdirection body

/-- The text of a document, up to its flush. -/
def documentText (document : Element) (title? : Option String) (lang : String) : Typeset Unit := do
  match title? with
  | some title => visit (.root (titleHeading title lang))
  | none => pure ()
  let body ← withLanguage (bodyPlace document).element lang
  visit (.mk body (bodyPlace document).before (bodyPlace document).parent?)
  emit Emit.paragraphBreak

theorem typesetDocument_eq (document : Element) (title? : Option String) (lang : String) :
    typesetDocument document title? lang = (documentText document title? lang >>= fun _ => do
      emit Emit.flush
      note [⟨.debug, .emitter, "Formatter flushed"⟩]) := by
  cases title? <;> simp [typesetDocument, documentText, bind_assoc]

/-- The texts of a document with its title, as they are typeset or as a whole. -/
def documentTexts (o : ArticleOptions) (whole : Bool) (document : Element) (title? : Option String) (lang : String) :
    List (List Char) :=
  (match title? with
    | some title => textsOf o whole false (titleHeading title lang).toNode
    | none => []) ++ textsOf o whole false (bodyPlace document).element.toNode

theorem documentText_composes (document : Element) (title? : Option String) (lang : String) (ht : t.setting = s)
    (hs : s.Settled) (hheaded : s.headed = false) :
    Returns C (documentText document title? lang) (documentText document title? lang) t s
      (Laying (documentTexts s.options false document title? lang)) := by
  have hbody : ∀ t : Typesetter, t.setting = s → Returns C (do
      let body ← withLanguage (bodyPlace document).element lang
      visit (.mk body (bodyPlace document).before (bodyPlace document).parent?)
      emit Emit.paragraphBreak) (do
      let body ← withLanguage (bodyPlace document).element lang
      visit (.mk body (bodyPlace document).before (bodyPlace document).parent?)
      emit Emit.paragraphBreak) t s
      (Laying (textsOf s.options false false (bodyPlace document).element.toNode)) := by
    intro t ht
    refine Composes.silent_bind (withLanguage_silent _ lang) ht rfl fun body t' hbody ht' _ => ?_
    obtain ⟨hlikens, hchildren⟩ := namedBody_likens (bodyPlace document).element lang
    rw [← textsOf_likens hlikens hchildren, ← hbody]
    let p := Place.mk body (bodyPlace document).before (bodyPlace document).parent?
    have hvisit := visitFrom_composes (C := C) (depthBound p) 0 (.inl rfl) (.element p) t' s ht' hs
    rw [Setting.textsIn, hheaded] at hvisit
    exact hvisit.after fun _ t ht => paragraphBreak_composes ht
  cases title? with
  | none => exact hbody t ht
  | some title =>
    have hvisit := visitFrom_composes (C := C) (depthBound (.root (titleHeading title lang))) 0 (.inl rfl)
      (.element (.root (titleHeading title lang))) t s ht hs
    rw [Setting.textsIn, hheaded] at hvisit
    exact hvisit.andThen fun _ t ht => hbody t ht

/-! ### Starting and flushing -/

/-- A typesetter starts a document with its emitter set for the language. -/
theorem start_performs (options : ArticleOptions) (direction : NamedDirection) (warned : List String) :
    (performAll [.setCoverage (Language.ofCode options.lang).latinCoverage]).perform (Emitter.start direction) =
      (.ok (), (start options direction warned).emitter) := by
  rfl

theorem start_coherent (options : ArticleOptions) (direction : NamedDirection) (warned : List String) :
    (start options direction warned).emitter.Coherent [] := by
  have htracks : (Emitter.start direction).Coherent [] := ⟨_, start_tracks Bidi.paragraph direction⟩
  exact (performAll_coherent (by rfl) htracks).ok (start_performs options direction warned)

/-- A document starts in a settled setting. -/
theorem start_settled (options : ArticleOptions) (warned : List String) :
    (start options (.known options.direction) warned).setting.Settled := fun _ => ⟨rfl, rfl⟩

/-- How the typesetting of a document may end: with the program of a layout of its texts, and a flush, performed from the
start, or with a failure for a reason of its own or of the analysis. -/
theorem typesetDocument_words (document : Element) (title? : Option String) (lang : String)
    (options : ArticleOptions) (warned : List String) :
    Leaves (typesetDocument document title? lang) (start options (.known options.direction) warned)
      (fun _ t => ∃ l : Layout, l.wording = documentTexts options false document title? lang ∧ l.IsSetUp ∧
        wellNestedAll l.program = true ∧
        (performAll (l.program ++ [.flush])).perform (Emitter.start (.known options.direction)) = (.ok (), t.emitter))
      fun c _ => ∀ cause, c = .emit cause → ∃ reason, cause = .analysis reason := by
  have hstart := start_performs options (.known options.direction) warned
  have htext := documentText_composes (C := fun _ => False) document title? lang rfl (start_settled options warned) rfl
  rw [typesetDocument_eq]
  refine Leaves.bind ((htext [] (start_coherent options _ warned)).1.imp (fun _ _ h => h) fun _ _ h => h.2.2)
    fun _ t₁ h₁ => ?_
  obtain ⟨-, ⟨l, ht₁⟩, _, ⟨layout, rfl, hwording, hset⟩, hn, hperform⟩ := h₁
  have hflush := (perform_flush_tracks (sound_paragraph _) ht₁ (List.Subset.refl _)).imp (fun _ _ h' => h')
    fun _ _ h' => h'.onlyAnalysis
  refine Leaves.bind (M := fun _ t₂ => Emit.flush.perform t₁.emitter = (.ok (), t₂.emitter)) ?_
    fun _ t₂ h₂ => Leaves.of_modify
      ⟨.append (.step (.setCoverage (Language.ofCode options.lang).latinCoverage) rfl) layout, hwording, ⟨trivial, hset⟩, ?_, ?_⟩
  · refine Leaves.within ?_
    rcases hflushed : Emit.flush.perform t₁.emitter with ⟨c | x, e⟩
    · obtain ⟨-, reason, rfl⟩ := hflush.error hflushed
      refine Leaves.of_error hflushed fun cause hc => ⟨reason, ?_⟩
      cases hc
      rfl
    · exact Leaves.of_ok hflushed rfl
  · simpa [Layout.program, wellNestedAll, Operation.wellNested] using hn
  · rw [show Layout.program _ = [.setCoverage (Language.ofCode options.lang).latinCoverage] ++ layout.program from rfl,
      List.append_assoc, performAll_append, perform_bind, hstart]
    simp only [performAll_append, perform_bind, hperform]
    simpa [performAll, Operation.perform] using h₂

/-- The typesetting of a document performs the program of a layout. -/
theorem typesetDocument_lays (document : Element) (title? : Option String) (lang : String)
    (options : ArticleOptions) (direction : NamedDirection) (warned : List String)
    (hd : direction = .known options.direction := by rfl) :
    Leaves (typesetDocument document title? lang) (start options direction warned)
      (fun _ t => ∃ l : Layout, wellNestedAll l.program = true ∧
        (performAll (l.program ++ [.flush])).perform (Emitter.start direction) = (.ok (), t.emitter))
      fun c _ => ∀ cause, c = .emit cause → ∃ reason, cause = .analysis reason := by
  subst hd
  refine (typesetDocument_words document title? lang options warned).imp_left fun _ t h => ?_
  obtain ⟨l, -, -, hn, hperform⟩ := h
  exact ⟨l, hn, hperform⟩

/-- The programs of documents are compositions. -/
theorem typesetDocument_composes (document : Element) (title? : Option String) (lang : String)
    (options : ArticleOptions) (direction : NamedDirection) (warned : List String)
    (hd : direction = .known options.direction := by rfl) :
    Leaves (typesetDocument document title? lang) (start options direction warned)
      (fun _ t => ∃ program, Composition program ∧ wellNestedAll program = true ∧
        (performAll (program ++ [.flush])).perform (Emitter.start direction) = (.ok (), t.emitter))
      fun c _ => ∀ cause, c = .emit cause → ∃ reason, cause = .analysis reason := by
  refine (typesetDocument_lays document title? lang options direction warned hd).imp_left fun _ t h => ?_
  obtain ⟨l, hn, hperform⟩ := h
  exact ⟨l.program, l.composition, hn, hperform⟩

/-! ### Markup -/

/-- The language of an article, which is that of the collection if it has none of its own. -/
def articleLanguage (options : ArticleOptions) (articleLanguage? : Option String) : String :=
  match articleLanguage? with
  | some lang => if lang.isEmpty then options.lang else lang
  | none => options.lang

/-- What has become of a document when its typesetting has ended. -/
def resultOf (r : Except ArticleError Unit × Typesetter) : Result :=
  { outcome := r.1.map fun _ => r.2.used
    pieces := r.2.emitter.output
    log := r.2.log
    warned := r.2.warned }

theorem typeset_eq {markup : List Char} {document : Element} (h : Html.document markup = .ok document) (options : ArticleOptions)
    (title? language? : Option String) (warned : List String) :
    typeset markup options title? language? warned =
      resultOf ((typesetDocument document title? (articleLanguage options language?)).perform
        (start (options.withBase (baseReference document))
          (.known (options.withBase (baseReference document)).direction) warned)) := by
  have hlang : (options.withBase (baseReference document)).lang = options.lang := by
    rw [ArticleOptions.withBase]
    split <;> rfl
  rw [typeset, h]
  dsimp only
  rw [hlang]
  rfl

/-! ### Balance -/

theorem blocksIn_enteringLanguage (l : Language) (coverage? : Option Bool) :
    blocksIn (enteringLanguage l coverage?) = [beginCommand l.environment l.options] := by
  cases hfont : l.ltrFontCommand? <;> cases coverage? <;>
    simp [enteringLanguage, fontOperations, hfont, blocksIn, Operation.blocks, Decoration.raw]

theorem Composition.balanced {os : List Operation} (h : Composition os) : Balanced (blocksIn os) := by
  induction h with
  | nil => exact .nil
  | append _ _ ih ih' => exact blocksIn_append _ _ ▸ ih.append ih'
  | @simple o ho =>
    have hblocks : o.blocks = [] := by
      cases o with
      | record d =>
        have hk : d.kind = .raw := by simpa [isSimple] using ho
        simp [Operation.blocks, hk]
      | _ => first | rfl | cases ho
    simpa [blocksIn, hblocks] using Balanced.nil
  | wrap _ _ ih => simpa [blocksIn, Operation.blocks] using ih
  | isolated _ ih => simpa [blocksIn, Operation.blocks] using ih
  | environment _ options _ ih =>
    simpa [blocksIn, blocksIn_append, Operation.blocks] using ih.environment _ options
  | languageBlock code coverage? _ ih =>
    simpa [blocksIn, blocksIn_append, blocksIn_enteringLanguage, Operation.blocks] using
      ih.environment (Language.ofCode code).environment (Language.ofCode code).options
  | languageInline code withOptions _ ih => simpa [blocksIn, Operation.blocks] using ih
  | resuming _ ih => simpa [blocksIn, Operation.blocks] using ih

/-- Whatever the document, its typesetting fails for no reason of nesting: where it comes to an end, the emitter is closed
with no formatting left open, and in the output each end of an environment ends the innermost open one by its name. -/
theorem document_balanced (document : Element) (title? : Option String) (lang : String) (options : ArticleOptions)
    (warned : List String) :
    Leaves (typesetDocument document title? lang) (start options (.known options.direction) warned)
      (fun _ t => t.emitter.stack = [] ∧ t.emitter.closed = true ∧
        Balanced (t.emitter.output.filterMap Piece.block?))
      fun c _ => ∀ cause, c = .emit cause → ∃ reason, cause = .analysis reason := by
  refine (typesetDocument_composes document title? lang options _ warned).imp_left fun _ t h => ?_
  obtain ⟨program, hprogram, hn, hperform⟩ := h
  have hflushed := flushed_tracks (sound_paragraph _) (.known options.direction) hn (List.Subset.refl _)
  obtain ⟨hstack, hclosed, hread⟩ := hflushed.ok hperform
  refine ⟨hstack, hclosed, ?_⟩
  rw [blocks_flushed hread]
  exact hprogram.balanced

end WikiTypeset.Article
