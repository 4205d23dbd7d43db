import WikiTypeset.Proofs.Article.Ground
import WikiTypeset.Proofs.Article.Standing

/-!
# Breaks in the arguments of documents

A break that a document asks for in the text of a heading or in a term is written there if it takes effect. Every part of
a layout has an account of the breaks that it adds: none within an argument if it stays calm there. Main statement:
`document_breaks_within_iff`, by which no break and no block comes in the arguments of an output just if all arguments of
the layout stay calm.
-/

namespace WikiTypeset.Article

open Latex Html

/-! ### Breaks between stances -/

/-- From one stance to another the given breaks come in arguments, where arguments are open as given before and after. -/
def Adds (arguments after : List Argument) (s s' : Stance) (found : List Landmark) : Prop :=
  ∃ ms, s'.landmarks = s.landmarks ++ ms ∧ breaksWithin arguments ms = some (found, after)

section Adds

variable {arguments after last : List Argument} {s s' s'' : Stance} {found found' : List Landmark}

theorem Adds.of_eq (h : s'.landmarks = s.landmarks) : Adds arguments arguments s s' [] :=
  ⟨[], by simpa using h, rfl⟩

theorem Adds.trans (h : Adds arguments after s s' found) (h' : Adds after last s' s'' found') :
    Adds arguments last s s'' (found ++ found') := by
  obtain ⟨ms, hms, hfound⟩ := h
  obtain ⟨ms', hms', hfound'⟩ := h'
  exact ⟨ms ++ ms', by rw [hms', hms, List.append_assoc], gather_append_of hfound hfound'⟩

/-- Landmarks that are no fragments are found while an argument is open. -/
theorem breaksWithin_gaps {ms : List Landmark} (h : ∀ m ∈ ms, ∀ value, m ≠ .fragment value) :
    breaksWithin arguments ms = some (if arguments.isEmpty then [] else ms, arguments) := by
  induction ms with
  | nil => cases arguments <;> rfl
  | cons m ms ih =>
    obtain ⟨hm, hms⟩ := List.forall_mem_cons.1 h
    have hstep : breakWithin arguments m = some (if arguments.isEmpty then [] else [m], arguments) := by
      cases m with
      | fragment value => exact absurd rfl (hm value)
      | _ => cases arguments <;> rfl
    have hall := gather_cons m hstep (ih hms)
    cases arguments <;> exact hall

theorem adds_gaps (arguments : List Argument) (h : s.Gaps s') : ∃ found, Adds arguments arguments s s' found ∧
    (found = [] ↔ arguments = [] ∨ s'.landmarks = s.landmarks) := by
  obtain ⟨ms, hms, hgaps⟩ := h
  refine ⟨_, ⟨ms, hms, breaksWithin_gaps hgaps⟩, ?_⟩
  rw [hms]
  cases arguments <;> simp

/-- A fragment is found if it holds a break while an argument is open. -/
theorem adds_fragment (s : Stance) (inside : Bool) {value : String} (h : enclose arguments value = some after) :
    Adds arguments after s (s.fragment inside value)
      (if holdsBreak value && !arguments.isEmpty then [.fragment value] else []) := by
  refine ⟨[.fragment value], rfl, (gather_singleton _).trans ?_⟩
  rw [breakWithin, h]
  rfl

end Adds

/-! ### Layouts and stances -/

/-- What a layout adds where arguments are open: outside all of them the breaks come from its own arguments, and inside
one they tell whether it stays calm. -/
structure Layout.Account (l : Layout) (arguments : List Argument) (s s' : Stance) (found : List Landmark) : Prop where
  adds : Adds arguments arguments s s' found
  outside : arguments = [] → (found = [] ↔ l.argumentsCalm = true)
  within : arguments ≠ [] → ∀ g : Ground, g.Holds s →
    (found = [] ↔ (l.calm g).isSome = true) ∧ ∀ g' ∈ l.calm g, g'.Holds s'

/-- Every place of a layout has its account. -/
def Layout.Accounted (l : Layout) : Prop :=
  ∀ arguments inside s, ∃ found, l.Account arguments s (standAll inside l.program s) found

variable {arguments : List Argument} {s s' : Stance}

theorem step_accounted (o : Operation) (ho : isStep o = true) : (Layout.step o ho).Accounted := by
  intro arguments inside s
  obtain ⟨found, hadds, hfound⟩ := adds_gaps arguments (gaps_step ho inside s)
  refine ⟨found, hadds, fun hnone => ?_, fun hsome g hg => ?_⟩
  · simp [hfound, hnone, Layout.argumentsCalm]
  · obtain ⟨hcalm, hafter⟩ := hg.step ho inside
    exact ⟨by simpa [hfound, hsome, Layout.calm] using hcalm, hafter⟩

theorem append_accounted {first second : Layout} (h : first.Accounted) (h' : second.Accounted) :
    (first.append second).Accounted := by
  intro arguments inside s
  obtain ⟨found, hfirst⟩ := h arguments inside s
  obtain ⟨found', hsecond⟩ := h' arguments inside (standAll inside first.program s)
  rw [show (first.append second).program = first.program ++ second.program from rfl, standAll_append]
  refine ⟨found ++ found', hfirst.adds.trans hsecond.adds, fun hnone => ?_, fun hsome g hg => ?_⟩
  · simp [hfirst.outside hnone, hsecond.outside hnone, Layout.argumentsCalm]
  · obtain ⟨hcalm, hafter⟩ := hfirst.within hsome g hg
    rw [Layout.calm, List.append_eq_nil_iff, hcalm]
    cases hmid : first.calm g with
    | none => simp
    | some g₁ =>
      obtain ⟨hcalm', hafter'⟩ := hsecond.within hsome g₁ (hafter g₁ hmid)
      simpa using ⟨hcalm', hafter'⟩

/-- A fragment that is no mark is found if it holds a break in an argument. -/
theorem adds_other (s : Stance) (inside : Bool) {value : String} (hmark : value ∉ argumentMarks) :
    ∃ found, Adds arguments arguments s (s.fragment inside value) found ∧
      (found = [] ↔ arguments = [] ∨ holdsBreak value = false) := by
  have hstay : enclose arguments value = some arguments := by rw [enclose, mark?_other hmark]
  refine ⟨_, adds_fragment s inside hstay, ?_⟩
  cases holdsBreak value <;> cases arguments <;> simp

theorem IsContent.concat {value : String} (h : IsContent value) : ∃ t c, value.toList = t ++ [c] ∧ c ≠ '\n' := by
  rcases h with ⟨s, rfl⟩ | ⟨s, rfl⟩ | ⟨s, rfl⟩
  · exact ⟨'$' :: s.toList, '$', by simp, by decide⟩
  · exact ⟨'\x7b' :: s.toList, '\x7d', by simp, by decide⟩
  · exact ⟨"\\includegraphics[width=0.95\\columnwidth]\x7b".toList ++ s.toList, '\x7d', by simp, by decide⟩

theorem itemMark_concat (reference? : Option (Nat × String)) : ∃ t, (itemMark reference?).toList = t ++ ['\x7d'] := by
  unfold itemMark
  split
  · exact ⟨"\\item\x7b".toList, by decide⟩
  · next number id => exact ⟨("\\item[" ++ referenceLabel number id ++ "]\x7b").toList, by simp⟩

theorem fragment_accounted {value : String} (h : IsContent value) : (Layout.fragment value h).Accounted := by
  intro arguments inside s
  obtain ⟨found, hadds, hfound⟩ := adds_other s inside h.not_mark
  obtain ⟨t, c, hvalue, hc⟩ := h.concat
  refine ⟨found, hadds, fun hnone => ?_, fun hsome g _ => ⟨?_, fun g' hg' => ?_⟩⟩
  · simp [hfound, hnone, Layout.argumentsCalm]
  · cases hholds : holdsBreak value <;> simp [hfound, hsome, Layout.calm, hholds]
  · cases hholds : holdsBreak value <;> simp only [Layout.calm, hholds] at hg'
    · cases hg'
      exact .of_fragment s inside hvalue hc
    · cases hg'

theorem item_accounted (reference? : Option (Nat × String)) : (Layout.item reference?).Accounted := by
  intro arguments inside s
  obtain ⟨found, hadds, hfound⟩ := adds_other s inside (itemMark_not_mark reference?)
  obtain ⟨t, hvalue⟩ := itemMark_concat reference?
  refine ⟨found, hadds, fun hnone => ?_, fun hsome g _ => ⟨?_, fun g' hg' => ?_⟩⟩
  · simp [hfound, hnone, Layout.argumentsCalm]
  · cases hholds : holdsBreak (itemMark reference?) <;> simp [hfound, hsome, Layout.calm, hholds]
  · cases hholds : holdsBreak (itemMark reference?) <;> simp only [Layout.calm, hholds] at hg'
    · cases hg'
      exact .of_resetLine (.of_fragment s inside hvalue (by decide))
    · cases hg'

/-- Content inside formatting. -/
theorem wrapped_found {content : Layout} (h : content.Accounted) (arguments : List Argument) (s : Stance) :
    ∃ found, Adds arguments arguments s (standAll true content.program s.touched).amid found ∧
      (arguments = [] → (found = [] ↔ content.argumentsCalm = true)) ∧
      (arguments ≠ [] → ∀ g : Ground, g.Holds s → (found = [] ↔ (content.calm g.touched).isSome = true)) := by
  obtain ⟨found, hcontent⟩ := h arguments true s.touched
  refine ⟨found, hcontent.adds, hcontent.outside, fun hsome g hg => ?_⟩
  exact (hcontent.within hsome g.touched hg.touched).1

theorem wrap_accounted {command : String} (hc : IsPlainCommand command) {content : Layout} (h : content.Accounted) :
    (Layout.wrap command hc content).Accounted := by
  intro arguments inside s
  obtain ⟨found, hadds, houtside, hwithin⟩ := wrapped_found h arguments s
  refine ⟨found, hadds, houtside, fun hsome g hg => ⟨?_, fun g' hg' => ?_⟩⟩
  · simpa [Layout.calm] using hwithin hsome g hg
  · obtain ⟨g₁, -, rfl⟩ := Option.map_eq_some_iff.1 hg'
    exact .of_amid _

theorem languageInline_accounted (code : String) (withOptions : Bool) {content : Layout} (h : content.Accounted) :
    (Layout.languageInline code withOptions content).Accounted := by
  intro arguments inside s
  obtain ⟨found, hadds, houtside, hwithin⟩ := wrapped_found h arguments s
  refine ⟨found, hadds, houtside, fun hsome g hg => ⟨?_, fun g' hg' => ?_⟩⟩
  · simpa [Layout.calm] using hwithin hsome g hg
  · obtain ⟨g₁, -, rfl⟩ := Option.map_eq_some_iff.1 hg'
    exact .of_amid _

theorem resuming_accounted {content : Layout} (h : content.Accounted) : (Layout.resuming content).Accounted := by
  intro arguments inside s
  obtain ⟨found, hadds, houtside, hwithin⟩ := h arguments inside s
  exact ⟨found, hadds, houtside, hwithin⟩

/-! ### Environments -/

/-- From one stance to another, breaks come in arguments that are open or, with none open, unless `calm` holds. -/
def Found (arguments : List Argument) (calm : Prop) (s s' : Stance) : Prop :=
  ∃ found, Adds arguments arguments s s' found ∧ (arguments = [] → (found = [] ↔ calm))

theorem Found.trans {calm calm' : Prop} {s'' : Stance} (h : Found arguments calm s s') (h' : Found arguments calm' s' s'') :
    Found arguments (calm ∧ calm') s s'' := by
  obtain ⟨found, hadds, hcalm⟩ := h
  obtain ⟨found', hadds', hcalm'⟩ := h'
  refine ⟨found ++ found', hadds.trans hadds', fun hnone => ?_⟩
  rw [List.append_eq_nil_iff, hcalm hnone, hcalm' hnone]

theorem Layout.Accounted.found {l : Layout} (h : l.Accounted) (arguments : List Argument) (inside : Bool) (s : Stance) :
    Found arguments (l.argumentsCalm = true) s (standAll inside l.program s) := by
  obtain ⟨found, haccount⟩ := h arguments inside s
  exact ⟨found, haccount.adds, haccount.outside⟩

theorem gaps_found (h : s.Gaps s') : Found arguments True s s' := by
  obtain ⟨found, hadds, hfound⟩ := adds_gaps arguments h
  exact ⟨found, hadds, fun hnone => by simp [hfound, hnone]⟩

/-- Fragments that are no marks. -/
theorem fragments_found {values : List String} (h : ∀ value ∈ values, value ∉ argumentMarks) (inside : Bool)
    (s : Stance) : Found arguments True s (standAll inside (values.map fun value => .record (.raw value)) s) := by
  induction values generalizing s with
  | nil => exact gaps_found (.of_eq rfl)
  | cons value values ih =>
    obtain ⟨hvalue, hvalues⟩ := List.forall_mem_cons.1 h
    have hfirst : Found arguments True s (s.fragment inside value) := by
      obtain ⟨found, hadds, hfound⟩ := adds_other s inside hvalue
      exact ⟨found, hadds, fun hnone => by simp [hfound, hnone]⟩
    have hall := hfirst.trans (ih hvalues (s.fragment inside value))
    rw [and_self] at hall
    exact hall

theorem styles_found {styles : List String} (h : ∀ style ∈ styles, style ∈ styleFragments) (inside : Bool) (s : Stance) :
    Found arguments True s (standAll inside (styleOperations styles) s) :=
  fragments_found (fun style hstyle => style_not_mark (h style hstyle)) inside s

theorem fontOperations_found (l : Language) (inside : Bool) (s : Stance) :
    Found arguments True s (standAll inside (fontOperations l) s) := by
  unfold fontOperations
  cases hcommand : l.ltrFontCommand? with
  | none => exact gaps_found (.of_eq rfl)
  | some command =>
    have hbreak : Found arguments True (s.fragment inside command) (s.fragment inside command).envBreak.resetLine :=
      gaps_found ((Stance.gaps_envBreak _).trans (.of_eq rfl))
    have hall := (fragments_found (List.forall_mem_singleton.2 (ltrFontCommand_not_mark hcommand)) inside s).trans hbreak
    rw [and_self] at hall
    exact hall

/-- An environment comes in every argument that is open. -/
theorem block_found {calm : Prop} {opening closing : String} {s₁ s₂ : Stance} (hs : s₁.landmarks = (s.block opening).landmarks)
    (h : Found arguments calm s₁ s₂) (hs' : s'.landmarks = (s₂.block closing).landmarks) :
    ∃ found, Adds arguments arguments s s' found ∧ (arguments = [] → (found = [] ↔ calm)) ∧
      (arguments ≠ [] → found ≠ []) := by
  obtain ⟨hgaps, hmore⟩ := s.gaps_block opening
  obtain ⟨first, hfirst, hnone⟩ := adds_gaps arguments (hgaps.trans (.of_eq hs))
  obtain ⟨body, hbody, hcalm⟩ := h
  obtain ⟨last, hlast, hnone'⟩ := adds_gaps arguments ((s₂.gaps_block closing).1.trans (.of_eq hs'))
  refine ⟨first ++ body ++ last, (hfirst.trans hbody).trans hlast, fun houtside => ?_, fun hwithin => ?_⟩
  · simp [hnone, hnone', houtside, hcalm houtside]
  · have hsome : first ≠ [] := fun h => (hnone.1 h).elim hwithin fun heq => hmore (hs ▸ heq)
    simp [hsome]

theorem environment_accounted {env : String} (henv : env ∈ plainEnvironments) (options : String) {before content : Layout}
    {styles : List String} (hstyles : ∀ style ∈ styles, style ∈ styleFragments) (h : before.Accounted)
    (h' : content.Accounted) : (Layout.environment env options henv before styles hstyles content).Accounted := by
  intro arguments inside s
  have hbody : ∀ s₁, Found arguments (before.argumentsCalm = true ∧ content.argumentsCalm = true) s₁
      (standAll inside (before.program ++ styleOperations styles ++ content.program) s₁) := by
    intro s₁
    rw [standAll_append, standAll_append]
    have hbefore := h.found arguments inside s₁
    simpa using (hbefore.trans (styles_found hstyles inside _)).trans (h'.found arguments inside _)
  rw [Layout.program, List.cons_append, standAll, standAll_append]
  obtain ⟨found, hadds, houtside, hwithin⟩ := block_found rfl (hbody (s.block (beginCommand env options)).resetLine) rfl
  refine ⟨found, hadds, fun hnone => ?_, fun hsome g _ => ⟨?_, fun g' hg' => by cases hg'⟩⟩
  · simpa [Layout.argumentsCalm] using houtside hnone
  · simp [Layout.calm, hwithin hsome]

theorem languageBlock_accounted (code : String) (coverage? : Option Bool) {content : Layout} {styles : List String}
    (hstyles : ∀ style ∈ styles, style ∈ styleFragments) (h : content.Accounted) :
    (Layout.languageBlock code coverage? styles hstyles content).Accounted := by
  intro arguments inside s
  have hsettings : ∀ s₁, standAll inside (coverage?.toList.map .setCoverage ++
      [.assumeDirection (Language.ofCode code).direction]) s₁ = s₁ := by
    intro s₁
    cases coverage? <;> rfl
  have hbody : ∀ s₁, Found arguments (content.argumentsCalm = true) s₁ (standAll inside (fontOperations (.ofCode code) ++
      (coverage?.toList.map .setCoverage ++ [.assumeDirection (Language.ofCode code).direction]) ++
        (styleOperations styles ++ content.program)) s₁) := by
    intro s₁
    rw [standAll_append, standAll_append inside (fontOperations _), hsettings, standAll_append]
    have hfont : Found arguments True s₁ _ := fontOperations_found (.ofCode code) inside s₁
    simpa using (hfont.trans (styles_found hstyles inside _)).trans (h.found arguments inside _)
  have hprogram : (Layout.languageBlock code coverage? styles hstyles content).program =
      .beginEnv (Language.ofCode code).environment (Language.ofCode code).options ::
        (fontOperations (.ofCode code) ++ (coverage?.toList.map .setCoverage ++
          [.assumeDirection (Language.ofCode code).direction]) ++ (styleOperations styles ++ content.program)) ++
        [.endEnv (Language.ofCode code).environment] := by
    simp [Layout.program, enteringLanguage]
  rw [hprogram, List.cons_append, standAll, standAll_append]
  obtain ⟨found, hadds, houtside, hwithin⟩ := block_found rfl
    (hbody (s.block (beginCommand (Language.ofCode code).environment (Language.ofCode code).options)).resetLine) rfl
  refine ⟨found, hadds, fun hnone => ?_, fun hsome g _ => ⟨?_, fun g' hg' => by cases hg'⟩⟩
  · exact houtside hnone
  · simp [Layout.calm, hwithin hsome]

/-! ### Arguments -/

theorem adds_mark {after : List Argument} (s : Stance) (inside : Bool) {value : String}
    (hvalue : holdsBreak value = false) (h : enclose arguments value = some after) :
    Adds arguments after s (s.fragment inside value) [] := by
  have hadds := adds_fragment s inside h
  rw [hvalue] at hadds
  exact hadds

/-- The content of an argument. -/
theorem content_found {content : Layout} (h : content.Accounted) (a : Argument) (outer : List Argument) (inside : Bool)
    (hs : Ground.amid.Holds s) : ∃ found, Adds (a :: outer) (a :: outer) s (standAll inside content.program s.resetLine) found ∧
      (found = [] ↔ (content.calm .fresh).isSome = true) := by
  obtain ⟨found, haccount⟩ := h (a :: outer) inside s.resetLine
  exact ⟨found, haccount.adds, (haccount.within nofun .fresh hs.of_resetLine).1⟩

theorem term_accounted (long : Bool) {content : Layout} (h : content.Accounted) : (Layout.term long content).Accounted := by
  intro arguments inside s
  have hlabel : Adds arguments (.label :: arguments) s (s.fragment inside labelOpening) [] :=
    adds_mark s inside (by decide) (by rw [enclose, mark?_label]; rfl)
  have hbracket : ∀ s, Adds (.label :: arguments) arguments s (s.fragment inside "]") [] := fun s =>
    adds_mark s inside (by decide) (by rw [enclose, mark?_bracket]; rfl)
  have hends : ∀ s : Stance, Ground.amid.Holds (s.fragment inside "]") := fun s =>
    .of_fragment s inside (t := []) (c := ']') (by decide) (by decide)
  have hlabelled : Ground.amid.Holds (s.fragment inside labelOpening) :=
    .of_fragment s inside (t := "\\item".toList) (c := '[') (by decide) (by decide)
  have hcalm : ∀ {found s'}, Adds arguments arguments s s' found → (found = [] ↔ (content.calm .fresh).isSome = true) →
      Ground.amid.Holds s' → (Layout.term long content).Account arguments s s' found := by
    intro found s' hadds hfound hs'
    refine ⟨hadds, fun _ => hfound, fun _ g _ => ⟨by simpa [Layout.calm] using hfound, fun g' hg' => ?_⟩⟩
    obtain ⟨_, -, rfl⟩ := Option.map_eq_some_iff.1 hg'
    exact hs'
  cases long with
  | false =>
    obtain ⟨found, hadds, hfound⟩ := content_found h .label arguments inside hlabelled
    have hall := (hlabel.trans hadds).trans (hbracket _)
    rw [List.nil_append, List.append_nil] at hall
    have hprogram : standAll inside (Layout.term false content).program s =
        (standAll inside content.program (s.fragment inside labelOpening).resetLine).fragment inside "]" := by
      simp [Layout.program, termText, standAll, standAll_append, Operation.stand, Decoration.raw]
    rw [hprogram]
    exact ⟨found, hcalm hall hfound (hends _)⟩
  | true =>
    have hbox : ∀ s, Adds (.label :: arguments) (.box :: .label :: arguments) s (s.fragment inside boxOpening) [] := fun s =>
      adds_mark s inside (by decide) (by rw [enclose, mark?_box]; rfl)
    have hbrace : ∀ s, Adds (.box :: .label :: arguments) (.label :: arguments) s (s.fragment inside "\x7d") [] := fun s =>
      adds_mark s inside (by decide) (by rw [enclose, mark?_brace]; rfl)
    have hboxed : Ground.amid.Holds ((s.fragment inside labelOpening).fragment inside boxOpening) :=
      .of_fragment _ inside (t := "\\parbox\x7b\\columnwidth\x7d".toList) (c := '\x7b') (by decide) (by decide)
    obtain ⟨found, hadds, hfound⟩ := content_found h .box (.label :: arguments) inside hboxed
    have hall := (((hlabel.trans (hbox _)).trans hadds).trans (hbrace _)).trans (hbracket _)
    rw [List.nil_append, List.nil_append, List.append_nil, List.append_nil] at hall
    have hprogram : standAll inside (Layout.term true content).program s =
        ((standAll inside content.program ((s.fragment inside labelOpening).fragment inside boxOpening).resetLine).fragment
          inside "\x7d").fragment inside "]" := by
      simp [Layout.program, termText, standAll, standAll_append, Operation.stand, Decoration.raw]
    rw [hprogram]
    exact ⟨found, hcalm hall hfound (hends _)⟩

/-- The text of a heading, in the language of the heading or not. -/
theorem headingText_found {content : Layout} (h : content.Accounted) (language? : Option HeadingLanguage) (a : Argument)
    (outer : List Argument) (hs : Ground.amid.Holds s) :
    ∃ found, Adds (a :: outer) (a :: outer) s (standAll false (headingText language? content.program) s) found ∧
      (found = [] ↔ (content.calm .fresh).isSome = true) := by
  cases language? with
  | none =>
    have htext : standAll false (headingText none content.program) s = standAll false content.program s.resetLine := by
      simp [headingText, standAll, standAll_append, Operation.stand]
    rw [htext]
    exact content_found h a outer false hs
  | some l =>
    have htext : standAll false (headingText (some l) content.program) s =
        (standAll true content.program s.resetLine).amid := by
      simp [headingText, standAll, Operation.stand, Stance.touched, Stance.resetLine]
    obtain ⟨found, ⟨ms, hms, hfound⟩, hcalm⟩ := content_found h a outer true hs
    rw [htext]
    exact ⟨found, ⟨ms, hms, hfound⟩, hcalm⟩

theorem heading_accounted {command : String} (hc : command ∈ sectionCommands)
    (shortLanguage? language? : Option HeadingLanguage) {short text : Layout} (h : short.Accounted) (h' : text.Accounted) :
    (Layout.heading command hc shortLanguage? language? short text).Accounted := by
  intro arguments inside s
  have hbreaks : ∀ command ∈ sectionCommands, holdsBreak (shortOpening command) = false := by decide
  have hopening : Adds arguments (.short :: arguments) s (s.fragment false (shortOpening command)) [] :=
    adds_mark s false (hbreaks command hc) (by rw [enclose, mark?_short hc]; rfl)
  have hopened : Ground.amid.Holds (s.fragment false (shortOpening command)) :=
    .of_fragment s false (t := '\\' :: command.toList) (c := '[') (by simp [shortOpening]) (by decide)
  obtain ⟨found, hshort, hfound⟩ := headingText_found h shortLanguage? .short arguments hopened
  generalize hs₁ : standAll false (headingText shortLanguage? short.program) (s.fragment false (shortOpening command)) = s₁ at hshort
  have hturn : Adds (.short :: arguments) (.long :: arguments) s₁ (s₁.fragment false "]\x7b") [] :=
    adds_mark s₁ false (by decide) (by rw [enclose, mark?_turn]; rfl)
  have hturned : Ground.amid.Holds (s₁.fragment false "]\x7b") :=
    .of_fragment s₁ false (t := [']']) (c := '\x7b') (by decide) (by decide)
  obtain ⟨found', hlong, hfound'⟩ := headingText_found h' language? .long arguments hturned
  generalize hs₂ : standAll false (headingText language? text.program) (s₁.fragment false "]\x7b") = s₂ at hlong
  have hclosing : Adds (.long :: arguments) arguments s₂ (s₂.fragment false "\x7d") [] :=
    adds_mark s₂ false (by decide) (by rw [enclose, mark?_brace]; rfl)
  have hprogram : standAll inside (Layout.heading command hc shortLanguage? language? short text).program s =
      s₂.fragment false "\x7d" := by
    rw [← hs₂, ← hs₁]
    simp [Layout.program, standAll, standAll_append, Operation.stand, Decoration.raw]
  have hall := (((hopening.trans hshort).trans hturn).trans hlong).trans hclosing
  rw [List.nil_append, List.append_nil, List.append_nil] at hall
  have hcalm : found ++ found' = [] ↔ (short.calm .fresh).isSome = true ∧ (text.calm .fresh).isSome = true := by
    rw [List.append_eq_nil_iff, hfound, hfound']
  rw [hprogram]
  refine ⟨found ++ found', hall, fun _ => hcalm.trans Layout.argumentsCalm_heading.symm,
    fun _ g _ => ⟨hcalm.trans (Layout.isSome_calm_heading g).symm, fun g' hg' => ?_⟩⟩
  obtain ⟨_, -, hg'⟩ := Option.bind_eq_some_iff.1 hg'
  obtain ⟨_, -, rfl⟩ := Option.map_eq_some_iff.1 hg'
  exact .of_fragment s₂ false (t := []) (c := '\x7d') (by decide) (by decide)

/-- What a layout adds to a stance, wherever it stands. -/
theorem Layout.accounted (l : Layout) : l.Accounted := by
  induction l with
  | empty =>
    intro arguments inside s
    refine ⟨[], .of_eq rfl, fun _ => by simp [argumentsCalm], fun _ g hg => ⟨by simp [calm], fun g' hg' => ?_⟩⟩
    cases hg'
    exact hg
  | append _ _ ih ih' => exact append_accounted ih ih'
  | step o ho => exact step_accounted o ho
  | fragment _ h => exact fragment_accounted h
  | wrap _ hc _ ih => exact wrap_accounted hc ih
  | languageInline code withOptions _ ih => exact languageInline_accounted code withOptions ih
  | resuming _ ih => exact resuming_accounted ih
  | environment _ options henv _ _ hstyles _ ih ih' => exact environment_accounted henv options hstyles ih ih'
  | languageBlock code coverage? _ hstyles _ ih => exact languageBlock_accounted code coverage? hstyles ih
  | item reference? => exact item_accounted reference?
  | term long _ ih => exact term_accounted long ih
  | heading _ hc shortLanguage? language? _ _ ih ih' => exact heading_accounted hc shortLanguage? language? ih ih'

/-! ### Documents -/

/-- Whatever the document, the arguments of its output nest, and no blank line, no row break and no environment comes in
any of them just if the texts of all headings and terms of its layout stay calm: no paragraph, line or environment break
in them takes effect, and no formula in them holds one. -/
theorem document_breaks_within_iff (document : Element) (title? : Option String) (lang : String)
    (options : ArticleOptions) (warned : List String) :
    Leaves (typesetDocument document title? lang) (start options (.known options.direction) warned)
      (fun _ t => ∃ l : Layout,
        (performAll (l.program ++ [.flush])).perform (Emitter.start (.known options.direction)) = (.ok (), t.emitter) ∧
          ∃ ms f found, layPieces {} t.emitter.output = some (ms, f) ∧ breaksWithin [] ms = some (found, []) ∧
            (found = [] ↔ l.argumentsCalm = true))
      fun _ _ => True := by
  refine (typesetDocument_stands document title? lang options warned).imp_left fun _ t h => ?_
  obtain ⟨l, hperform, hstands, hsettled⟩ := h
  refine ⟨l, hperform, ?_⟩
  obtain ⟨found, haccount⟩ := l.accounted [] false {}
  have hflush : Adds [] [] (standAll false l.program {}) (standAll false l.program {}).envBreak [] := by
    obtain ⟨found', hadds, hnone⟩ := adds_gaps [] (standAll false l.program {}).gaps_envBreak
    rwa [hnone.2 (.inl rfl)] at hadds
  obtain ⟨ms, hms, hfound⟩ := haccount.adds.trans hflush
  rw [List.append_nil] at hfound
  have hlandmarks : (standAll false l.program {}).envBreak.landmarks = ms := hms
  have hlay : layPieces {} t.emitter.output = some ((standAll false l.program {}).envBreak.landmarks, _) :=
    (hstands.written hsettled).1
  rw [hlandmarks] at hlay
  exact ⟨ms, _, found, hlay, hfound, haccount.outside rfl⟩

/-- A heading with a line break. -/
def brokenHeading : Element :=
  { name := "[document]"
    children := [.element "h2" [] [.text .plain ['a'], .element "br" [] [], .text .plain ['b']]] }

/-- Both arguments of the heading have a row break in them. -/
theorem brokenHeading_breaks_within : ∃ t ms f found,
    (typesetDocument brokenHeading none "en").perform (start {} (.known .ltr) []) = (.ok (), t) ∧
      layPieces {} t.emitter.output = some (ms, f) ∧ breaksWithin [] ms = some (found, []) ∧ found ≠ [] := by
  have hok : ((typesetDocument brokenHeading none "en").perform (start {} (.known .ltr) [])).1.toBool = true := by
    decide +kernel
  have hbreaks : (layPieces {}
      ((typesetDocument brokenHeading none "en").perform (start {} (.known .ltr) [])).2.emitter.output).any
        (fun r => (breaksWithin [] r.1).any fun q => !q.1.isEmpty && q.2.isEmpty) = true := by decide +kernel
  rcases hperform : (typesetDocument brokenHeading none "en").perform (start {} (.known .ltr) []) with ⟨c | _, t⟩
  · simp [hperform, Except.toBool] at hok
  · rw [hperform] at hbreaks
    obtain ⟨⟨ms, f⟩, hlay, hany⟩ := (Option.any_eq_true _ _).1 hbreaks
    obtain ⟨⟨found, after⟩, hfound, hnonempty⟩ := (Option.any_eq_true _ _).1 hany
    simp only [Bool.and_eq_true, Bool.not_eq_true', List.isEmpty_eq_false_iff, List.isEmpty_iff] at hnonempty
    obtain ⟨hne, rfl⟩ := hnonempty
    exact ⟨t, ms, f, found, rfl, hlay, hfound, hne⟩

end WikiTypeset.Article
