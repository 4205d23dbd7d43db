import WikiTypeset.Proofs.Emission.Account

/-!
# Well-nested programs

A program is well-nested if it records fragments and blocks only, so that formatting comes from wrapping alone, and does
not flush on the way. Its only failures are texts that cannot be analysed. Main statements: `performAll_tracks`, and
`flushed_program_keeps_text` for a whole program with its flush.
-/

namespace WikiTypeset.Latex

open Action Bidi Emit

mutual

/-- Whether an operation opens and closes formatting in pairs only, and does not flush. -/
def Operation.wellNested : Operation → Bool
  | .record d => d.kind = .raw || d.kind = .startBlock || d.kind = .endBlock
  | .wrap _ _ content | .isolated content | .resuming content => wellNestedAll content
  | .flush => false
  | _ => true

/-- Whether all operations of a program are well-nested. -/
def wellNestedAll : List Operation → Bool
  | [] => true
  | o :: os => o.wellNested && wellNestedAll os

end

/-- A failure leaves the emitter open, so formatting can still be ended. -/
theorem Unanalysed.recorded {an : Analyzer} {all : List Turn} {c : EmitError} {e : Emitter} (h : Unanalysed an all c e) (d : Decoration) :
    Leaves (Emit.record d) e (fun _ e' => Unanalysed an all c e') (Unanalysed an all) :=
  Leaves.of_ok (perform_record h.1 d) h

theorem wellNestedAll_append (os os' : List Operation) :
    wellNestedAll (os ++ os') = (wellNestedAll os && wellNestedAll os') := by
  induction os with
  | nil => rfl
  | cons o os ih => simp [wellNestedAll, ih, Bool.and_assoc]

namespace Emitter

variable {e : Emitter} {l : Ledger} {stack : List Decoration} {an : Analyzer} {all : List Turn}

/-! ### Formatting, isolation and blocks -/

/-- A fragment or a block is recorded in place. -/
theorem Tracks.record (h : e.Tracks an stack l) {d : Decoration}
    (hd : d.kind = .raw ∨ d.kind = .startBlock ∨ d.kind = .endBlock) :
    (e.recorded d).Tracks an stack (l.record d (around stack)) := by
  refine ⟨h.toAgrees.recorded d _, h.analyzer, h.isOpen, ?_⟩
  rcases hd with hk | hk | hk
  all_goals
    unfold Ledger.record
    rw [hk]
    exact h.reads.recorded h.ordered (by simp [Token.read, hk])

/-- The start of formatting goes onto the stack. -/
theorem Tracks.recordStart (h : e.Tracks an stack l) (command : String) (delimiters : Delimiters) :
    ∃ d : Decoration, d.wrapper = ⟨command, delimiters⟩ ∧
      (e.recorded (.startInline command delimiters)).Tracks an (d :: stack) l.touched := by
  refine ⟨{ Decoration.startInline command delimiters with pos := e.pos }, rfl, ?_⟩
  refine ⟨h.toAgrees.recorded (.startInline command delimiters) [], h.analyzer, h.isOpen, ?_⟩
  have hreads := h.reads.recorded (d := .startInline command delimiters) h.ordered rfl
  rwa [List.append_nil] at hreads

/-- The end of the innermost formatting takes it off. -/
theorem Tracks.recordEnd {d : Decoration} {command : String} {delimiters : Delimiters}
    (h : e.Tracks an (d :: stack) l) (hd : d.wrapper = ⟨command, delimiters⟩) :
    (e.recorded (.endInline command delimiters)).Tracks an stack { l.touched with due := true } := by
  refine ⟨h.toAgrees.recorded (.endInline command delimiters) [], h.analyzer, h.isOpen, ?_⟩
  have hread : Token.read (d :: stack) (.mark { Decoration.endInline command delimiters with pos := e.pos }) =
      some ([], stack) := by
    have hw : d.wrapper = ({ Decoration.endInline command delimiters with pos := e.pos } : Decoration).wrapper := hd
    simp only [Token.read, Decoration.endInline, hw]
    rfl
  have hreads := h.reads.recorded h.ordered hread
  rwa [List.append_nil] at hreads

theorem Tracks.wrap (h : e.Tracks an stack l) (command : String) (delimiters : Delimiters) {content : Emit Unit}
    {l' : Ledger} (hcontent : ∀ {e' d}, d.wrapper = ⟨command, delimiters⟩ → e'.Tracks an (d :: stack) l.touched →
      Leaves content e' (fun _ e'' => e''.Tracks an (d :: stack) l') (Unanalysed an all)) :
    Leaves (Emit.wrap command content delimiters) e
      (fun _ e' => e'.Tracks an stack { l'.touched with due := true }) (Unanalysed an all) := by
  obtain ⟨d, hd, hstart⟩ := h.recordStart command delimiters
  refine Leaves.bind (M := fun _ e₁ => e₁.Tracks an (d :: stack) l.touched)
    (Leaves.of_ok (perform_record h.isOpen _) hstart) fun _ e₁ h₁ => Leaves.finishing ?_
  -- A failure of the content leaves the emitter open, so the formatting is ended in either case.
  refine (hcontent hd h₁).imp (fun _ e₂ h₂ => ?_) fun c e₂ h₂ => h₂.recorded _
  exact Leaves.of_ok (perform_record h₂.isOpen _) (h₂.recordEnd hd)

/-- After a turn no tokens are left, and the stack is what is open. -/
theorem Tracks.turn_settled (hsound : Sound an all) (h : e.Tracks an stack l) (hall : l.turn.turns ⊆ all) :
    Leaves writeHeld e (fun _ e' => e'.Tracks an stack l.turn ∧ e'.stack = stack ∧ e'.tokens = [])
      (Unanalysed an all) := by
  refine ((h.turn hsound hall).and (writeHeld_settles e)).imp (fun _ e' h' => ?_) fun _ _ h' => h'.1
  obtain ⟨htracks, hbuffer, hdecorations⟩ := h'
  have htokens : e'.tokens = [] := by rw [Emitter.tokens, hbuffer, hdecorations]; rfl
  obtain ⟨written, held, -, hheld, -⟩ := htracks.reads
  rw [htokens] at hheld
  cases hheld
  exact ⟨htracks, rfl, htokens⟩

/-- With nothing held back, the stack may be exchanged. -/
theorem Tracks.exchange (h : e.Tracks an stack l) (htokens : e.tokens = []) (stack' : List Decoration) :
    { e with stack := stack' }.Tracks an stack' l := by
  refine ⟨{ h.toAgrees with }, h.analyzer, h.isOpen, ?_⟩
  obtain ⟨written, held, hwritten, hheld, hplaced⟩ := h.reads
  rw [htokens] at hheld
  cases hheld
  have htokens' : { e with stack := stack' }.tokens = [] := htokens
  exact ⟨written, [], hwritten, by rw [htokens']; rfl, hplaced⟩

theorem Tracks.enterIsolation (hsound : Sound an all) (h : e.Tracks an stack l) (hall : l.turn.turns ⊆ all) :
    Leaves Emit.enterIsolation e (fun saved e' => saved = stack ∧ e'.Tracks an [] l.turn) (Unanalysed an all) := by
  refine (h.turn_settled hsound hall).bind fun _ e₁ h₁ => Leaves.get_bind ?_
  exact Leaves.bind (Leaves.of_modify (P := fun _ e' => e'.Tracks an [] l.turn) (h₁.1.exchange h₁.2.2 []))
    fun _ e₂ h₂ => Leaves.of_pure ⟨h₁.2.1, h₂⟩

theorem Tracks.checkIsolation (hsound : Sound an all) (h : e.Tracks an [] l) (hall : l.turn.turns ⊆ all) :
    Leaves Emit.checkIsolation e (fun _ e' => e'.Tracks an [] l.turn ∧ e'.tokens = []) (Unanalysed an all) := by
  refine (h.turn_settled hsound hall).bind fun _ e₁ h₁ => Leaves.get_bind ?_
  simp only [h₁.2.1]
  exact Leaves.of_pure ⟨h₁.1, h₁.2.2⟩

theorem Tracks.isolated (hsound : Sound an all) (h : e.Tracks an stack l) {content : Emit Unit} {l' : Ledger}
    (hall : l.turn.turns ⊆ all) (hall' : l'.turn.turns ⊆ all)
    (hcontent : ∀ {e'}, e'.Tracks an [] l.turn →
      Leaves content e' (fun _ e'' => e''.Tracks an [] l') (Unanalysed an all)) :
    Leaves (Emit.isolated content) e (fun _ e' => e'.Tracks an stack l'.turn) (Unanalysed an all) := by
  refine (h.enterIsolation hsound hall).bind ?_
  rintro saved e₁ ⟨rfl, h₁⟩
  refine Leaves.finishing ?_
  have hchecked : Leaves (content >>= fun _ => Emit.checkIsolation) e₁
      (fun _ e' => e'.Tracks an [] l'.turn ∧ e'.tokens = []) (Unanalysed an all) :=
    (hcontent h₁).bind fun _ e₂ h₂ => h₂.checkIsolation hsound hall'
  refine hchecked.imp (fun _ e₂ h₂ => ?_) fun c e₂ h₂ => Leaves.of_modify h₂
  exact Leaves.of_modify (h₂.1.exchange h₂.2 _)

/-- A block on a line of its own. -/
theorem Tracks.block (hsound : Sound an all) (h : e.Tracks an stack l) {d : Decoration}
    (hd : d.kind = .startBlock ∨ d.kind = .endBlock) (hall : (l.block d.value).turns ⊆ all) :
    Leaves (Emit.writeBlock d) e (fun _ e' => e'.Tracks an stack (l.block d.value)) (Unanalysed an all) := by
  have hrecord : l.envBreak.turn.record d [] = l.envBreak.turn.place (.block d.value) [] := Ledger.record_block hd
  have hplaced : (l.envBreak.turn.place (.block d.value) []).envBreak.turns ⊆ all :=
    List.Subset.trans (Ledger.turns_turn _) hall
  have hturn : l.envBreak.turn.turns ⊆ all :=
    List.Subset.trans (Ledger.turns_envBreak (l.envBreak.turn.place (.block d.value) [])) hplaced
  refine ((coupled_tracks hsound stack).envBreak h (List.Subset.trans (Ledger.turns_turn _) hturn)).bind fun _ e₁ h₁ => ?_
  refine h₁.isolated hsound hturn hall fun {e₂} h₂ => ?_
  have hrecorded := h₂.record (d := d) (.inr hd)
  rw [show around [] = [] from rfl, hrecord] at hrecorded
  exact Leaves.bind (M := fun _ e₃ => e₃.Tracks an [] (l.envBreak.turn.place (.block d.value) []))
    (Leaves.of_ok (perform_record h₂.isOpen d) hrecorded)
    fun _ e₃ h₃ => (coupled_tracks hsound []).envBreak h₃ hplaced

theorem Tracks.assumeDirection (hsound : Sound an all) (h : e.Tracks an stack l) (hall : l.turn.turns ⊆ all)
    (direction : NamedDirection) :
    Leaves (Emit.assumeDirection direction) e (fun _ e' => e'.Tracks an stack l.turn) (Unanalysed an all) := by
  refine (h.turn hsound hall).bind fun _ e₁ h₁ => Leaves.of_modify ?_
  have hreads : (e₁.wrote [.assumeDirection direction]).Reads l.turn.placed stack := h₁.reads.wrote rfl
  exact ⟨{ h₁.toAgrees with }, h₁.analyzer, h₁.isOpen, hreads⟩

end Emitter

/-! ### Programs -/

section Programs

variable {an : Analyzer} {all : List Turn}

theorem around_cons (d : Decoration) (stack : List Decoration) : around (d :: stack) = around stack ++ [d.wrapper] := by
  simp [around]

mutual

/-- A well-nested operation does what its ledger says, or it fails because a turn cannot be analysed. -/
theorem Operation.perform_tracks (hsound : Sound an all) (o : Operation) {e : Emitter} {l : Ledger}
    {stack : List Decoration} (hn : o.wellNested = true) (h : e.Tracks an stack l)
    (hall : (o.keep (around stack) l).turns ⊆ all) :
    Leaves o.perform e (fun _ e' => e'.Tracks an stack (o.keep (around stack) l)) (Unanalysed an all) := by
  have hc := Emitter.coupled_tracks hsound stack
  cases o with
  | write text => exact h.write text
  | record d =>
    have hd : d.kind = .raw ∨ d.kind = .startBlock ∨ d.kind = .endBlock := by
      simpa [Operation.wellNested, or_assoc] using hn
    exact Leaves.of_ok (perform_record h.isOpen d) (h.record hd)
  | wrap command delimiters content =>
    have hcontent : (keepAll (around stack ++ [⟨command, delimiters⟩]) content l.touched).turns ⊆ all := hall
    refine h.wrap command delimiters fun {e' d} hd h' => ?_
    rw [← hd, ← around_cons] at hcontent ⊢
    exact performAll_tracks hsound content hn h' hcontent
  | isolated content =>
    have hcontent : (keepAll [] content l.turn).turns ⊆ all := List.Subset.trans (Ledger.turns_turn _) hall
    exact h.isolated hsound (List.Subset.trans (turns_keepAll [] content _) hcontent) hall fun h' =>
      performAll_tracks hsound content hn h' hcontent
  | beginEnv env options =>
    exact (h.block hsound (.inl rfl) hall).bind fun _ e' h' => hc.resetLine h'
  | endEnv env =>
    refine (h.block hsound (.inr rfl) hall).bind fun _ e' h' => Leaves.of_modify ?_
    have hag := h'.toAgrees
    exact hc.alike h' ⟨rfl, rfl, rfl, rfl, rfl, rfl, rfl⟩ { hag with newLine := rfl, newPara := rfl } rfl rfl
  | switchDirection direction => exact hc.switchDirection h hall direction
  | assumeDirection direction => exact h.assumeDirection hsound hall direction
  | resuming content =>
    refine Leaves.get_bind ?_
    have hcontent : (keepAll (around stack) content l).turns ⊆ all :=
      List.Subset.trans (Ledger.turns_turn _) hall
    exact (performAll_tracks hsound content hn h hcontent).bind fun _ e' h' => h'.assumeDirection hsound hall _
  | setCoverage latinCoverage => exact hc.setCoverage h hall latinCoverage
  | deepenList n => exact Leaves.of_modify (hc.deepenList h n)
  | deepenToc n => exact Leaves.of_modify (hc.deepenToc h n)
  | paragraphBreak => exact hc.paragraphBreak h hall
  | lineBreak => exact hc.lineBreak h hall
  | envBreak => exact hc.envBreak h hall
  | dirBreak => exact hc.turn h hall
  | resetLine => exact hc.resetLine h
  | flush => cases hn

theorem performAll_tracks (hsound : Sound an all) (os : List Operation) {e : Emitter} {l : Ledger}
    {stack : List Decoration} (hn : wellNestedAll os = true) (h : e.Tracks an stack l)
    (hall : (keepAll (around stack) os l).turns ⊆ all) :
    Leaves (performAll os) e (fun _ e' => e'.Tracks an stack (keepAll (around stack) os l))
      (Unanalysed an all) := by
  cases os with
  | nil => exact Leaves.of_pure h
  | cons o os =>
    simp only [wellNestedAll, Bool.and_eq_true] at hn
    have ho : (o.keep (around stack) l).turns ⊆ all := List.Subset.trans (turns_keepAll _ os _) hall
    refine (Operation.perform_tracks hsound o hn.1 h ho).bind fun _ e' h' => ?_
    exact performAll_tracks hsound os hn.2 h' hall

end

theorem perform_flush_tracks (hsound : Sound an all) {e : Emitter} {l : Ledger} (h : e.Tracks an [] l)
    (hall : l.envBreak.turn.turns ⊆ all) :
    Leaves flush e (fun _ e' => e'.stack = [] ∧ e'.closed = true ∧
      readPieces [] e'.output = some (l.envBreak.turn.placed, [])) (Unanalysed an all) := by
  have henv : l.envBreak.turns ⊆ all := List.Subset.trans (Ledger.turns_turn _) hall
  refine ((Emitter.coupled_tracks hsound []).envBreak h henv).bind fun _ e₁ h₁ => ?_
  refine (h₁.turn_settled hsound hall).bind fun _ e₂ h₂ => Leaves.get_bind ?_
  obtain ⟨htracks, hstack, htokens⟩ := h₂
  simp only [hstack]
  refine Leaves.of_modify ⟨hstack, rfl, ?_⟩
  obtain ⟨written, held, hwritten, hheld, hplaced⟩ := htracks.reads
  rw [htokens, hstack] at hheld
  cases hheld
  rw [hplaced, List.append_nil]
  exact hwritten

end Programs

theorem start_tracks (an : Analyzer) (direction : NamedDirection) :
    { Emitter.start direction with analyzer := an }.Tracks an [] (Ledger.start direction) :=
  ⟨⟨rfl, rfl, rfl, rfl, rfl, rfl, rfl, Nat.le_refl _⟩, rfl, rfl, [], [], rfl, rfl, rfl⟩

theorem performAll_append (os os' : List Operation) :
    performAll (os ++ os') = performAll os >>= fun _ => performAll os' := by
  induction os with
  | nil => simp [performAll]
  | cons o os ih => simp [performAll, ih]

/-- A well-nested program, flushed, stands in the output as its ledger has it, unless one of its turns cannot be analysed. -/
theorem flushed_tracks {an : Analyzer} {all : List Turn} (hsound : Sound an all) (direction : NamedDirection)
    {program : List Operation} (hn : wellNestedAll program = true)
    (hall : (keepAll [] (program ++ [.flush]) (Ledger.start direction)).turns ⊆ all) :
    Leaves (performAll (program ++ [.flush])) { Emitter.start direction with analyzer := an }
      (fun _ e => e.stack = [] ∧ e.closed = true ∧
        readPieces [] e.output = some ((keepAll [] (program ++ [.flush]) (Ledger.start direction)).placed, []))
      (Unanalysed an all) := by
  have hkeep : keepAll [] (program ++ [.flush]) (Ledger.start direction) =
      (keepAll [] program (Ledger.start direction)).envBreak.turn := keepAll_append [] program [.flush] _
  have hsteps : performAll (program ++ [.flush]) = performAll program >>= fun _ => flush := by
    rw [performAll_append]
    simp [performAll, Operation.perform]
  rw [hkeep] at hall ⊢
  have hprogram : (keepAll (around []) program (Ledger.start direction)).turns ⊆ all :=
    List.Subset.trans (Ledger.turns_envBreak _) (List.Subset.trans (Ledger.turns_turn _) hall)
  rw [hsteps]
  exact (performAll_tracks hsound program hn (start_tracks an direction) hprogram).bind fun _ e h =>
    perform_flush_tracks hsound h hall

/-- A well-nested program whose texts can be analysed is written to its end, with no formatting left open: each
character that it writes stands in the output once, in order, inside just the formatting that was open for it, and each
fragment and block stands once between the same characters. -/
theorem flushed_program_keeps_text (an : Analyzer) (direction : NamedDirection) (program : List Operation)
    (hn : wellNestedAll program = true)
    (hanalysed : ∀ t ∈ (keepAll [] (program ++ [.flush]) (Ledger.start direction)).turns,
      ∃ p, an t.text t.base.base = .ok p ∧ p.Partitions t.text) :
    ∃ e, (performAll (program ++ [.flush])).perform { Emitter.start direction with analyzer := an } = (.ok (), e) ∧
      e.stack = [] ∧ e.closed = true ∧
      readPieces [] e.output = some ((keepAll [] (program ++ [.flush]) (Ledger.start direction)).placed, []) := by
  have hsound : Sound an (keepAll [] (program ++ [.flush]) (Ledger.start direction)).turns := by
    intro t ht p hp
    obtain ⟨p', hp', hpart⟩ := hanalysed t ht
    cases hp.symm.trans hp'
    exact hpart
  have hrun := flushed_tracks hsound direction hn (List.Subset.refl _)
  -- A failure would come from a turn that cannot be analysed, and there is none.
  rcases hperform : (performAll (program ++ [.flush])).perform
      { Emitter.start direction with analyzer := an } with ⟨c | _, e⟩
  · obtain ⟨-, cause, -, t, ht, hfails⟩ := hrun.error hperform
    obtain ⟨p, hp, -⟩ := hanalysed t ht
    cases hp.symm.trans hfails
  · exact ⟨e, hperform, hrun.ok hperform⟩

/-- Nested formatting over a change of direction, a fragment, an environment and an isolated part. -/
def sampleProgram : List Operation :=
  [.write "a ".toList,
    .wrap "\\emph" {} [.write "b ".toList, .record (.raw "\\,"), .wrap "\\textbf" {} [.write "אב 1".toList]],
    .beginEnv "quote" "", .isolated [.write "c".toList], .endEnv "quote"]

private theorem sampleProgram_analysed :
    ∀ t ∈ (keepAll [] (sampleProgram ++ [.flush]) (Ledger.start (.known .ltr))).turns,
      ∃ p, paragraph t.text t.base.base = .ok p ∧ p.Partitions t.text := by
  have hok : ∀ t ∈ (keepAll [] (sampleProgram ++ [.flush]) (Ledger.start (.known .ltr))).turns,
      (paragraph t.text t.base.base).toBool = true := by decide +kernel
  intro t ht
  cases hp : paragraph t.text t.base.base with
  | error cause =>
    have hfails := hok t ht
    rw [hp] at hfails
    cases hfails
  | ok p => exact ⟨p, rfl, paragraph_partitions hp⟩

theorem sampleProgram_keeps_text :
    ∃ e, (performAll (sampleProgram ++ [.flush])).perform
        { Emitter.start (.known .ltr) with analyzer := paragraph } = (.ok (), e) ∧
      e.stack = [] ∧ e.closed = true ∧ readPieces [] e.output =
        some ((keepAll [] (sampleProgram ++ [.flush]) (Ledger.start (.known .ltr))).placed, []) :=
  flushed_program_keeps_text paragraph (.known .ltr) sampleProgram (by decide) sampleProgram_analysed

end WikiTypeset.Latex
