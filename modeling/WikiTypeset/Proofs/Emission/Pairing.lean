import WikiTypeset.Proofs.Bidi.Settled
import WikiTypeset.Proofs.Emission.WellNested
import WikiTypeset.Proofs.Pairs

/-!
# Formatting that is not paired is refused

The starts and ends of inline formatting that a program records are brackets, named by their commands. They are checked
late: only when what is held back is written, and starts at the very end of it not even then. Still nothing is lost on the
way, so that a program fails just if its brackets are not paired. Main statement: `flushed_refused_iff`.
-/

namespace WikiTypeset.Latex

open Action Bidi Emit

/-- The bracket that a decoration is. -/
def Decoration.bracket (d : Decoration) : Bracket String :=
  match d.kind with
  | .startInline => .opening d.value
  | .endInline => .closing d.value
  | _ => .neither

/-- Whether formatting is refused because it is not balanced. -/
def EmitError.isBalance : EmitError → Bool
  | .mismatch _ _ | .unexpected _ | .openInIsolation _ | .openAtEnd _ => true
  | .closed | .analysis _ | .decorationsEnded | .uncovered => false

/-- The operation writes text that can be analysed, records a mark of inline formatting, or breaks. -/
def Operation.IsInline : Operation → Prop
  | .write text => IsClassified text
  | .record d => d.kind = .startInline ∨ d.kind = .endInline
  | .envBreak | .paragraphBreak | .lineBreak | .dirBreak => True
  | _ => False

instance : DecidablePred Operation.IsInline
  | .write text => inferInstanceAs (Decidable (IsClassified text))
  | .record d => inferInstanceAs (Decidable (d.kind = .startInline ∨ d.kind = .endInline))
  | .envBreak | .paragraphBreak | .lineBreak | .dirBreak => inferInstanceAs (Decidable True)
  | .wrap .. | .isolated _ | .beginEnv .. | .endEnv _ | .switchDirection _ | .assumeDirection _ | .resuming _
  | .setCoverage _ | .deepenList _ | .deepenToc _ | .resetLine | .flush => inferInstanceAs (Decidable False)

/-- What the operation records. -/
def Operation.recorded? : Operation → Option Decoration
  | .record d => some d
  | _ => none

/-- The decorations that a program records, in order. -/
def recordsOf (program : List Operation) : List Decoration := program.filterMap Operation.recorded?

/-! ### Open brackets -/

/-- The names of the brackets that are open after some decorations. -/
abbrev namesAfter (names : List String) (ds : List Decoration) : Option (List String) :=
  openAfter Decoration.bracket names ds

/-- The formatting that is open is that of the brackets that are open. -/
theorem map_value_nest {ds : List Decoration} (h : ∀ d ∈ ds, d.kind ≠ .endOfText) (stack : List Decoration) :
    (nest stack ds).map (·.map Decoration.value) = namesAfter (stack.map Decoration.value) ds := by
  induction ds generalizing stack with
  | nil => rfl
  | cons d ds ih =>
    obtain ⟨hd, hds⟩ := List.forall_mem_cons.1 h
    have hnest : nest stack (d :: ds) = (d.after? stack).bind fun stack => nest stack ds := rfl
    rw [hnest]
    cases hk : d.kind with
    | startInline =>
      have hbracket : d.bracket = .opening d.value := by rw [Decoration.bracket, hk]
      have hafter : d.after? stack = some (d :: stack) := by simp only [Decoration.after?, hk]
      rw [namesAfter, openAfter_opening hbracket, hafter]
      exact ih hds (d :: stack)
    | endInline =>
      have hbracket : d.bracket = .closing d.value := by rw [Decoration.bracket, hk]
      rw [namesAfter, openAfter_closing hbracket]
      simp only [Decoration.after?, hk]
      cases stack with
      | nil => rfl
      | cons innermost rest =>
        by_cases hv : innermost.value = d.value
        · simpa [hv] using ih hds rest
        · simp [hv]
    | endOfText => exact absurd hk hd
    | raw | startBlock | endBlock =>
      have hbracket : d.bracket = .neither := by rw [Decoration.bracket, hk]
      have hafter : d.after? stack = some stack := by simp only [Decoration.after?, hk]
      rw [namesAfter, openAfter_neither hbracket, hafter]
      exact ih hds stack

theorem isBalance_refusal (d : Decoration) (stack : List Decoration) : (d.refusal stack).isBalance = true := by
  unfold Decoration.refusal
  split <;> rfl

namespace Emitter

variable {e : Emitter} {ds : List Decoration}

/-- The emitter is open and as it has to be to be given `ds`: its open brackets are theirs, those counted in that it holds
back. -/
structure Given (e : Emitter) (ds : List Decoration) : Prop where
  analyzer : e.analyzer = paragraph
  isOpen : e.closed = false
  classified : IsClassified e.buffer
  inline : ∀ d ∈ e.decorations, d.kind ≠ .endOfText
  names : namesAfter (e.stack.map Decoration.value) e.decorations = namesAfter [] ds

theorem Given.map_opened? (h : e.Given ds) : e.opened?.map (·.map Decoration.value) = namesAfter [] ds :=
  (map_value_nest h.inline e.stack).trans h.names

/-- Changes of other fields do not matter. -/
theorem Given.of_eq {e' : Emitter} (h : e.Given ds) (hanalyzer : e'.analyzer = e.analyzer) (hclosed : e'.closed = e.closed)
    (hbuffer : e'.buffer = e.buffer) (hdecorations : e'.decorations = e.decorations) (hstack : e'.stack = e.stack) :
    e'.Given ds := by
  refine ⟨hanalyzer.trans h.analyzer, hclosed.trans h.isOpen, ?_, ?_, ?_⟩
  · rw [hbuffer]
    exact h.classified
  · rw [hdecorations]
    exact h.inline
  · rw [hdecorations, hstack]
    exact h.names

theorem Given.recorded (h : e.Given ds) {d : Decoration} (hd : d.kind = .startInline ∨ d.kind = .endInline) :
    (e.recorded d).Given (ds ++ [d]) := by
  refine ⟨h.analyzer, h.isOpen, h.classified, ?_, ?_⟩
  · have hkind : d.kind ≠ .endOfText := by
      rcases hd with hk | hk
      · rw [hk]
        nofun
      · rw [hk]
        nofun
    exact List.forall_mem_append.2 ⟨h.inline, List.forall_mem_singleton.2 hkind⟩
  · show namesAfter (e.stack.map Decoration.value) (e.decorations ++ [{ d with pos := e.pos }]) = _
    have hnames := h.names
    unfold namesAfter at hnames ⊢
    rw [openAfter_append, hnames, openAfter_append]
    rfl

theorem Given.extended (h : e.Given ds) {s : List Char} (hs : IsClassified s) : (e.extended s).Given ds :=
  { h with classified := List.forall_mem_append.2 ⟨h.classified, hs⟩ }

/-- What is held back is written if no bracket has been refused so far, and then nothing is held back. -/
theorem Given.turn (h : e.Given ds) : Leaves writeHeld e (fun _ e' => e'.Given ds ∧ e'.decorations = [])
    fun c _ => c.isBalance = true ∧ namesAfter [] ds = none := by
  have hanalysed := paragraph_of_classified h.classified e.paragraphDir.base
  refine (leaves_writeHeld_opened h.analyzer h.isOpen hanalysed).imp ?_ ?_
  · rintro _ _ ⟨⟨ps, stack, runs, rfl⟩, hopened⟩
    have hnames := h.map_opened?
    rw [hopened] at hnames
    exact ⟨⟨h.analyzer, h.isOpen, List.forall_mem_nil _, List.forall_mem_nil _, hnames⟩, rfl⟩
  · rintro _ _ ⟨hopened, d, stack, rfl⟩
    have hnames := h.map_opened?
    rw [hopened] at hnames
    exact ⟨isBalance_refusal d stack, hnames.symm⟩

end Emitter

/-! ### Operations -/

/-- The action comes to an emitter that has been given `ds`, or refuses formatting because `ds` is not balanced. -/
abbrev Checks (a : Emit Unit) (e : Emitter) (ds : List Decoration) : Prop :=
  Leaves a e (fun _ e' => e'.Given ds) fun c _ => c.isBalance = true ∧ namesAfter [] ds = none

section Operations

variable {e : Emitter} {ds : List Decoration}

theorem checks_writeHeld (h : e.Given ds) : Checks writeHeld e ds := h.turn.imp_left fun _ _ h' => h'.1

theorem checks_put (h : e.Given ds) (p : Piece) : Checks (put p) e ds :=
  Leaves.of_ok (perform_put h.isOpen p) (h.of_eq rfl rfl rfl rfl rfl)

theorem checks_envBreak (h : e.Given ds) : Checks envBreak e ds := by
  refine Leaves.get_bind ?_
  split
  · exact Leaves.of_pure h
  · refine (checks_writeHeld h).bind fun _ e₁ h₁ => (checks_put h₁ _).bind fun _ e₂ h₂ => Leaves.of_modify ?_
    exact h₂.of_eq rfl rfl rfl rfl rfl

theorem checks_paragraphBreak (h : e.Given ds) : Checks paragraphBreak e ds := by
  refine Leaves.get_bind ?_
  split
  · exact Leaves.of_pure h
  · refine (checks_envBreak h).bind fun _ e₁ h₁ => (checks_put h₁ _).bind fun _ e₂ h₂ => ?_
    refine Leaves.bind (M := fun _ e₃ => e₃.Given ds) (Leaves.of_modify (h₂.of_eq rfl rfl rfl rfl rfl)) fun _ e₃ h₃ => ?_
    exact (checks_writeHeld h₃).bind fun _ e₄ h₄ => Leaves.of_modify (h₄.of_eq rfl rfl rfl rfl rfl)

theorem checks_lineBreak (h : e.Given ds) : Checks lineBreak e ds := by
  refine Leaves.get_bind ?_
  split
  · exact Leaves.of_pure h
  · refine (checks_envBreak h).bind fun _ e₁ h₁ => (checks_put h₁ _).bind fun _ e₂ h₂ => Leaves.of_modify ?_
    exact h₂.of_eq rfl rfl rfl rfl rfl

theorem isClassified_collapseBlanks {s : List Char} (h : IsClassified s) : IsClassified (collapseBlanks false s) := by
  intro c hc
  rcases mem_collapseBlanks hc with rfl | hc
  · rw [assignedClass_space]
    rfl
  · exact h c hc

theorem checks_write (h : e.Given ds) {text : List Char} (htext : IsClassified text) :
    Checks (Emit.write text) e ds := by
  refine Leaves.of_ok (perform_write h.isOpen text) ?_
  have htrimmed : IsClassified (text.dropWhile isSpace) := fun c hc => htext c (List.dropWhile_subset _ hc)
  have htouched : e.touched.Given ds := h.of_eq rfl rfl rfl rfl rfl
  split
  · split
    · exact h
    · exact htouched.extended (isClassified_collapseBlanks htrimmed)
  · exact h.extended (isClassified_collapseBlanks htext)

theorem Operation.checks {o : Operation} (ho : o.IsInline) (h : e.Given ds) :
    Checks o.perform e (ds ++ o.recorded?.toList) := by
  have hsame : ∀ {a : Emit Unit}, Checks a e ds → Checks a e (ds ++ []) := by
    intro a ha
    rwa [List.append_nil]
  cases o with
  | write text => exact hsame (checks_write h ho)
  | record d => exact Leaves.of_ok (perform_record h.isOpen d) (h.recorded ho)
  | envBreak => exact hsame (checks_envBreak h)
  | paragraphBreak => exact hsame (checks_paragraphBreak h)
  | lineBreak => exact hsame (checks_lineBreak h)
  | dirBreak => exact hsame (checks_writeHeld h)
  | _ => exact ho.elim

/-- Once a bracket is refused, so is all that goes on after it. -/
theorem namesAfter_append_of_none (h : namesAfter [] ds = none) (ds' : List Decoration) :
    namesAfter [] (ds ++ ds') = none := by
  unfold namesAfter at h ⊢
  rw [openAfter_append, h]
  rfl

theorem recordsOf_cons (o : Operation) (os : List Operation) : recordsOf (o :: os) = o.recorded?.toList ++ recordsOf os := by
  unfold recordsOf
  cases ho : o.recorded? with
  | none => exact List.filterMap_cons_none ho
  | some d => exact List.filterMap_cons_some ho

theorem performAll_checks {os : List Operation} (hos : ∀ o ∈ os, o.IsInline) (h : e.Given ds) :
    Checks (performAll os) e (ds ++ recordsOf os) := by
  induction os generalizing e ds with
  | nil =>
    have hnone : ds ++ recordsOf [] = ds := List.append_nil ds
    rw [hnone]
    exact Leaves.of_pure h
  | cons o os ih =>
    obtain ⟨ho, hos⟩ := List.forall_mem_cons.1 hos
    rw [recordsOf_cons, ← List.append_assoc]
    -- A refusal speaks of what was recorded before it, and more of that does not take it back.
    refine Leaves.bind ((Operation.checks ho h).imp (fun _ _ h' => h') ?_) fun _ e' h' => ih hos h'
    rintro c e' ⟨hc, hnone⟩
    exact ⟨hc, namesAfter_append_of_none hnone _⟩

theorem refused_of_none {c : EmitError} (h : c.isBalance = true ∧ namesAfter [] ds = none) :
    c.isBalance = true ∧ namesAfter [] ds ≠ some [] := by
  refine ⟨h.1, ?_⟩
  rw [h.2]
  nofun

/-- At the end no bracket may be open. -/
theorem flush_checks (h : e.Given ds) : Leaves flush e (fun _ _ => namesAfter [] ds = some [])
    fun c _ => c.isBalance = true ∧ namesAfter [] ds ≠ some [] := by
  refine Leaves.bind ((checks_envBreak h).imp (fun _ _ h' => h') fun _ _ h' => refused_of_none h') fun _ e₁ h₁ => ?_
  refine Leaves.bind (h₁.turn.imp (fun _ _ h' => h') fun _ _ h' => refused_of_none h') fun _ e₂ h₂ => ?_
  obtain ⟨hgiven, hnothing⟩ := h₂
  have hnames := hgiven.names
  rw [hnothing] at hnames
  refine Leaves.get_bind ?_
  dsimp only
  -- Only now the starts that were carried along are seen: they are on the stack with all others.
  split
  next hempty =>
    rw [List.isEmpty_iff.1 hempty] at hnames
    exact Leaves.of_modify hnames.symm
  next hleft =>
    refine Leaves.bind (M := fun _ _ => False) (Leaves.of_throw ⟨rfl, fun hnone => hleft ?_⟩) fun _ _ h' => h'.elim
    rw [hnone] at hnames
    have hstack : e₂.stack.map Decoration.value = [] := Option.some.inj hnames
    rw [List.map_eq_nil_iff.1 hstack]
    rfl

end Operations

theorem start_given (direction : NamedDirection) : (Emitter.start direction).Given [] :=
  ⟨rfl, rfl, List.forall_mem_nil _, List.forall_mem_nil _, rfl⟩

/-- A program of text, marks of inline formatting and breaks that is flushed at its end has its formatting refused just if
the marks are not paired, each end with the innermost start that is open and with the same command. It does not fail
otherwise. -/
theorem flushed_refused_iff (direction : NamedDirection) {program : List Operation}
    (h : ∀ o ∈ program, o.IsInline) :
    ((∃ c e, (performAll (program ++ [.flush])).perform (Emitter.start direction) = (.error c, e) ∧ c.isBalance = true) ↔
      ¬ Paired Decoration.bracket (recordsOf program)) ∧
    (Paired Decoration.bracket (recordsOf program) →
      ∃ e, (performAll (program ++ [.flush])).perform (Emitter.start direction) = (.ok (), e)) := by
  have hprogram := performAll_checks h (start_given direction)
  rw [List.nil_append] at hprogram
  have hrun : Leaves (performAll (program ++ [.flush])) (Emitter.start direction)
      (fun _ _ => namesAfter [] (recordsOf program) = some [])
      fun c _ => c.isBalance = true ∧ namesAfter [] (recordsOf program) ≠ some [] := by
    rw [performAll_append]
    refine Leaves.bind (hprogram.imp (fun _ _ h' => h') fun _ _ h' => refused_of_none h') fun _ e' h' => ?_
    exact (flush_checks h').bind fun _ e'' h'' => Leaves.of_pure h''
  rw [paired_iff]
  rcases hperform : (performAll (program ++ [.flush])).perform (Emitter.start direction) with ⟨c | _, e⟩
  · obtain ⟨hc, hnames⟩ := hrun.error hperform
    exact ⟨⟨fun _ => hnames, fun _ => ⟨c, e, hperform, hc⟩⟩, fun hpaired => absurd hpaired hnames⟩
  · have hnames := hrun.ok hperform
    refine ⟨⟨?_, fun hnot => absurd hnames hnot⟩, fun _ => ⟨e, hperform⟩⟩
    rintro ⟨c, e', heq, -⟩
    rw [hperform] at heq
    cases heq

/-- Formatting in formatting across breaks, the inner one around nothing. -/
def brokenFormatting : List Operation :=
  [.write "a ".toList, .record { kind := .startInline, value := "\\emph" }, .paragraphBreak, .write "\u05D0".toList,
    .record { kind := .startInline, value := "\\textbf" }, .dirBreak, .record { kind := .endInline, value := "\\textbf" },
    .lineBreak, .write "1".toList, .record { kind := .endInline, value := "\\emph" }]

theorem brokenFormatting_passes : (∀ o ∈ brokenFormatting, o.IsInline) ∧
    Paired Decoration.bracket (recordsOf brokenFormatting) ∧
    ∃ e, (performAll (brokenFormatting ++ [.flush])).perform (Emitter.start (.known .rtl)) = (.ok (), e) := by
  have hinline : ∀ o ∈ brokenFormatting, o.IsInline := by decide +kernel
  have hpaired : Paired Decoration.bracket (recordsOf brokenFormatting) := by decide +kernel
  exact ⟨hinline, hpaired, (flushed_refused_iff (.known .rtl) hinline).2 hpaired⟩

end WikiTypeset.Latex
