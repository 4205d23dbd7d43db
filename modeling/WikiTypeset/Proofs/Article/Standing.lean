import WikiTypeset.Proofs.Article.Documents
import WikiTypeset.Proofs.Article.Handlers
import WikiTypeset.Proofs.Article.Origins
import WikiTypeset.Proofs.Emission.Exposure
import WikiTypeset.Proofs.Emission.LineBreaks
import WikiTypeset.Proofs.Emission.Onset

/-!
# Where documents stand

The programs of layouts record fragments only, in the standard delimiters, so at the end of a document the emitter stands
where the program of its layout does. A document breaks lines that have begun just if its layout does so when the start
of formatting counts for nothing (`document_lineBreaks_begun_iff`). Its ambient direction changes before all text of a
paragraph, though perhaps after a formula (`document_switches_iff`). Text that begins with a bracket or a star is read as
an option of the line break in front of it, and text that begins with a bracket as that of a language's environment,
unless something visible stands between them; marks of direction apart, this is a matter of the layout
(`document_takesNoText`).
-/

namespace WikiTypeset.Article

open Action Html Latex Typeset

theorem areSet_fragments (values : List String) : areSet (values.map fun value => .record (.raw value)) = true := by
  have hstandard : ({} : Delimiters).OnLine := by decide
  induction values with
  | nil => rfl
  | cons value values ih =>
    have hvalue : (Operation.record (.raw value)).isSet = true := by simp [Operation.isSet, Decoration.raw, hstandard]
    rw [List.map_cons, areSet, hvalue, ih]
    rfl

theorem areSet_headingText {os : List Operation} (h : areSet os = true) (language? : Option HeadingLanguage) :
    areSet (headingText language? os) = true := by
  have hstandard : ({} : Delimiters).OnLine := by decide
  cases language? <;> simp [headingText, areSet, areSet_append, Operation.isSet, hstandard, h]

theorem areSet_enteringLanguage (l : Language) (coverage? : Option Bool) : areSet (enteringLanguage l coverage?) = true := by
  have hstandard : ({} : Delimiters).OnLine := by decide
  cases hfont : l.ltrFontCommand? <;> cases coverage? <;>
    simp [enteringLanguage, fontOperations, hfont, areSet, Operation.isSet, Decoration.raw, hstandard]

theorem Layout.areSet (l : Layout) : areSet l.program = true := by
  have hstandard : ({} : Delimiters).OnLine := by decide
  induction l with
  | empty => rfl
  | append _ _ ih ih' => simp [program, areSet_append, ih, ih']
  | step o ho => cases o <;> first | rfl | cases ho
  | fragment value _ => exact areSet_fragments [value]
  | wrap _ _ _ ih | languageInline _ _ _ ih => simp [program, Latex.areSet, Operation.isSet, hstandard, ih]
  | resuming _ ih => simp [program, Latex.areSet, Operation.isSet, ih]
  | environment _ _ _ _ styles _ _ ih ih' =>
    have hstyles : Latex.areSet (styleOperations styles) = true := areSet_fragments styles
    simp [program, Latex.areSet, areSet_append, Operation.isSet, hstyles, ih, ih']
  | languageBlock code coverage? styles _ _ ih =>
    have hstyles : Latex.areSet (styleOperations styles) = true := areSet_fragments styles
    simp [program, Latex.areSet, areSet_append, areSet_enteringLanguage, Operation.isSet, hstyles, ih]
  | item reference? => simp [program, Latex.areSet, Operation.isSet, Decoration.raw, hstandard]
  | term long _ ih =>
    cases long <;> simp [program, termText, Latex.areSet, areSet_append, Operation.isSet, Decoration.raw, hstandard, ih]
  | heading command _ shortLanguage? language? _ _ ih ih' =>
    simp [program, Latex.areSet, areSet_append, Operation.isSet, Decoration.raw, hstandard,
      areSet_headingText ih shortLanguage?, areSet_headingText ih' language?]

/-- The output of a document stands where the program of its layout does, with its last line ended. -/
theorem typesetDocument_stands (document : Element) (title? : Option String) (lang : String) (options : ArticleOptions)
    (warned : List String) :
    Leaves (typesetDocument document title? lang) (start options (.known options.direction) warned)
      (fun _ t => ∃ l : Layout,
        (performAll (l.program ++ [.flush])).perform (Emitter.start (.known options.direction)) = (.ok (), t.emitter) ∧
          t.emitter.Stands [] (standAll false l.program {}).envBreak ∧ t.emitter.IsSettled)
      fun _ _ => True := by
  refine (typesetDocument_lays document title? lang options _ warned).imp (fun _ t h => ?_) fun _ _ _ => trivial
  obtain ⟨l, -, hperform⟩ := h
  refine ⟨l, hperform, ?_⟩
  have hrun := (performAll_stands l.program l.areSet (start_stands (.known options.direction))).bind
    (f := fun _ => Emit.flush) fun _ e h => h.flush
  have hsteps : performAll (l.program ++ [.flush]) = performAll l.program >>= fun _ => Emit.flush := by
    rw [performAll_append]
    simp [performAll, Operation.perform]
  rw [hsteps] at hperform
  exact hrun.ok hperform

/-- Whatever the document, each line break of its output comes after something of its paragraph just if each line break
that its layout asks for and that takes effect does so when fragments, text other than blanks after a break, and the ends
of formatting count, and its starts do not. -/
theorem document_lineBreaks_begun_iff (document : Element) (title? : Option String) (lang : String)
    (options : ArticleOptions) (warned : List String) :
    Leaves (typesetDocument document title? lang) (start options (.known options.direction) warned)
      (fun _ t => ∃ l : Layout,
        (performAll (l.program ++ [.flush])).perform (Emitter.start (.known options.direction)) = (.ok (), t.emitter) ∧
          ((∀ before after, t.emitter.output = before ++ .lineBreak :: after → HasBegun before) ↔
            ∀ m ∈ (standAll false l.program {}).envBreak.landmarks, m.isBare = false))
      fun _ _ => True := by
  refine (typesetDocument_stands document title? lang options warned).imp_left fun _ t h => ?_
  obtain ⟨l, hperform, hstands, -⟩ := h
  exact ⟨l, hperform, hstands.hasBegun_iff⟩

/-! ### Changes of the ambient direction -/

/-- Whatever the document, no text is printed between a change of the ambient direction and the last blank line, the last
start or end of an environment, or else the start of the output. So nothing is printed there just if no formula and no
image is. -/
theorem document_switches_iff (document : Element) (title? : Option String) (lang : String) (options : ArticleOptions)
    (warned : List String) :
    Leaves (typesetDocument document title? lang) (start options (.known options.direction) warned)
      (fun _ t => SwitchesWhere (·.text = false) t.emitter.output ∧
        (SwitchesWhere (fun s => s.text = false ∧ s.content = false) t.emitter.output ↔
          SwitchesWhere (·.content = false) t.emitter.output))
      fun _ _ => True := by
  refine (typesetDocument_composes document title? lang options _ warned).imp (fun _ t h => ?_) fun _ _ _ => trivial
  obtain ⟨program, -, -, hperform⟩ := h
  have htext := (performAll_switches (.known options.direction) (program ++ [.flush])).ok hperform
  exact ⟨htext, fun h => h.imp fun _ => And.right, htext.and⟩

/-- A right-to-left paragraph that begins with a formula. -/
def leadingFormula : Element :=
  { name := "[document]"
    children := [.element "p" [⟨"dir", .text "rtl"⟩] [
      .element "span" [⟨"typeof", .text "mw:Extension/math"⟩,
        ⟨"data-mw", .text "\x7b\"body\":\x7b\"extsrc\":\"x\"\x7d\x7d"⟩] [],
      .text .plain ['א']]] }

/-- The direction changes behind the formula, in the same paragraph. -/
theorem leadingFormula_switches_late : ∃ t,
    (typesetDocument leadingFormula none "en").perform (start {} (.known .ltr) []) = (.ok (), t) ∧
      t.emitter.latex = "$\x7bx\x7d$\n\\setRTL\nא\n\n".toList ∧
      ¬ SwitchesWhere (fun s => s.text = false ∧ s.content = false) t.emitter.output := by
  have hok : ((typesetDocument leadingFormula none "en").perform (start {} (.known .ltr) [])).1.toBool = true := by
    decide +kernel
  have houtput : ((typesetDocument leadingFormula none "en").perform (start {} (.known .ltr) [])).2.emitter.output =
      [.fragment "$\x7bx\x7d$", .newline] ++ .setDirection .rtl :: [.text {} ['א'], .newline, .paragraphEnd] := by
    decide +kernel
  rcases hperform : (typesetDocument leadingFormula none "en").perform (start {} (.known .ltr) []) with ⟨c | _, t⟩
  · simp [hperform, Except.toBool] at hok
  · rw [hperform] at houtput
    refine ⟨t, rfl, ?_, fun hswitches => ?_⟩
    · rw [Emitter.latex, houtput]
      decide +kernel
    · have hfirst := (hswitches _ _ _ houtput).2
      revert hfirst
      decide +kernel

/-! ### Text that is read as an option -/

theorem IsPlainCommand.opening? {command : String} (h : IsPlainCommand command) :
    opening? command.toList = some .other := by
  rcases h with h | ⟨target, rfl⟩ | ⟨url, rfl⟩
  · simp only [List.mem_cons, List.not_mem_nil, or_false] at h
    rcases h with rfl | rfl | rfl | rfl | rfl <;> decide
  · simp only [String.toList_append, List.append_assoc, opening?_append]
    rfl
  · simp only [String.toList_append, List.append_assoc, opening?_append]
    rfl

theorem opening?_languageCommand (l : Language) (withOptions : Bool) :
    opening? (languageCommand l withOptions).toList = some .other := by
  simp only [languageCommand, String.toList_append, List.append_assoc, opening?_append]
  rfl

/-- All inline formatting of a document has a visible command. -/
theorem Sourced.opensVisibly {k : Source} {codes : List String} {p : Piece} (h : p.IsFrom (supply k codes)) :
    p.OpensVisibly := by
  rintro command delimiters rfl
  have hcommand : opening? command.toList = some .other := by
    cases show Sourced k codes .startInline command from h with
    | inline name => exact (inlineCommand_plain name).opening?
    | link _ _ hlink =>
      cases hlink with
      | target _ => exact IsPlainCommand.opening? (.inr (.inl ⟨_, rfl⟩))
      | url _ _ => exact IsPlainCommand.opening? (.inr (.inr ⟨_, rfl⟩))
    | language _ withOptions => exact opening?_languageCommand _ withOptions
  have hlatex : opening? (Piece.openInline command delimiters).latex = some .other :=
    (opening?_append command.toList delimiters.opening.toList).trans (by rw [hcommand, Option.some_or])
  rw [hlatex]
  nofun

/-- The exposure after the program of a layout. -/
def Layout.exposure (l : Layout) : Exposure := exposeAll false l.program {} {}

/-- Whatever the document, text of its output is never read as an option just if the exposure of the output is safe.
Marks of direction apart, this exposure is the one of the layout; so text is never read as an option if the exposure of
the layout is safe. -/
theorem document_takesNoText (document : Element) (title? : Option String) (lang : String) (options : ArticleOptions)
    (warned : List String) :
    Leaves (typesetDocument document title? lang) (start options (.known options.direction) warned)
      (fun _ t => ∃ l : Layout,
        (performAll (l.program ++ [.flush])).perform (Emitter.start (.known options.direction)) = (.ok (), t.emitter) ∧
          (TakesNoText t.emitter.output ↔ (exposed true t.emitter.output).safe = true) ∧
          exposed false t.emitter.output = l.exposure ∧
          (l.exposure.safe = true → TakesNoText t.emitter.output))
      fun _ _ => True := by
  have horigins := typesetDocument_origins document title? lang options (.known options.direction) warned
  have hstands := typesetDocument_stands document title? lang options warned
  refine ((horigins.imp (fun _ _ h => h) fun _ _ _ => trivial).both hstands).imp_left fun _ t h => ?_
  obtain ⟨⟨-, hdraws⟩, l, hperform, -, hsettled⟩ := h
  have hvisible : ∀ p ∈ t.emitter.output, p.OpensVisibly := fun p hp =>
    Sourced.opensVisibly (hdraws.written p (List.mem_reverse.1 hp))
  have hiff := takesNoText_iff hvisible
  have hexposes : t.emitter.exposure = l.exposure := by
    have hset : areSet (l.program ++ [.flush]) = true := by rw [areSet_append, l.areSet]; rfl
    have hrun := (performAll_exposes _ hset (start_stands (.known options.direction))).ok hperform
    rw [start_exposure, exposeAll_append] at hrun
    exact hrun
  have hlayout : exposed false t.emitter.output = l.exposure := by rw [← hexposes, hsettled.exposure_eq]
  refine ⟨l, hperform, hiff, hlayout, fun hsafe => hiff.2 (safe_of_unmarked ?_)⟩
  rw [hlayout]
  exact hsafe

/-- A paragraph with a line break before a bracket. -/
def bracketAfterBreak : Element :=
  { name := "[document]"
    children := [.element "p" [] [.text .plain ['a'], .element "br" [] [], .text .plain "[b]".toList]] }

/-- The text in brackets becomes the length of the line break. -/
theorem bracketAfterBreak_takes : ∃ t,
    (typesetDocument bracketAfterBreak none "en").perform (start {} (.known .ltr) []) = (.ok (), t) ∧
      t.emitter.latex = "a\n\\\\\n[b]\n\n".toList ∧ ¬ TakesNoText t.emitter.output := by
  have hok : ((typesetDocument bracketAfterBreak none "en").perform (start {} (.known .ltr) [])).1.toBool = true := by
    decide +kernel
  have houtput : ((typesetDocument bracketAfterBreak none "en").perform (start {} (.known .ltr) [])).2.emitter.output =
      [.text {} ['a'], .newline] ++ .lineBreak :: [.text {} "[b]".toList, .newline, .paragraphEnd] := by
    decide +kernel
  rcases hperform : (typesetDocument bracketAfterBreak none "en").perform (start {} (.known .ltr) []) with ⟨c | _, t⟩
  · simp [hperform, Except.toBool] at hok
  · rw [hperform] at houtput
    refine ⟨t, rfl, ?_, fun htakes => ?_⟩
    · rw [Emitter.latex, houtput]
      decide +kernel
    · refine (htakes.lineBreak _ _ houtput).2 ?_
      decide +kernel

end WikiTypeset.Article
