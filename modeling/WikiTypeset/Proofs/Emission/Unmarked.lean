import WikiTypeset.Proofs.Bidi.Uniform
import WikiTypeset.Proofs.Emission.Keeping
import WikiTypeset.Proofs.Tex.Escaped

/-!
# Text of one direction is not marked

An emitter whose ambient and base direction are the same marks no run of a text that goes with it. So it is through every
program that keeps to the direction, whatever formatting, isolated parts and breaks there are in it, and whether or not it
fails. Main statements: `keeps_performAll_unmarked`, `goesWith_unmarked`.
-/

namespace WikiTypeset.Latex

open Action Bidi Emit

/-- The ambient and the base direction are `d`, and so is that of the text held back. -/
structure Emitter.StandsIn (d : Direction) (e : Emitter) : Prop where
  analyzer : e.analyzer = paragraph
  contextDir : e.contextDir = .known d
  paragraphDir : e.paragraphDir = .known d
  buffer : GoesWith d e.buffer

/-- The piece marks no direction, and if it is text there is no mark in its source either. -/
def Piece.IsUnmarked (p : Piece) : Prop :=
  p.marksDirection = false ∧ ∀ style source, p = .text style source → ∀ t ∈ texTokens p.latex, t.isInert = true

theorem Piece.isUnmarked {p : Piece} (h : p.marksDirection = false) : p.IsUnmarked := by
  refine ⟨h, ?_⟩
  rintro style source rfl
  exact (complete_escape style source).inert.inert

/-- What has been written are the pieces `before` and unmarked ones after them. -/
def Emitter.Adds (before : List Piece) (e : Emitter) : Prop :=
  ∃ ps, e.written = ps ++ before ∧ ∀ p ∈ ps, p.IsUnmarked

theorem Emitter.Adds.wrote {before : List Piece} {e : Emitter} (h : e.Adds before) {p : Piece}
    (hp : p.marksDirection = false) : Emitter.Adds before { e with written := p :: e.written } := by
  obtain ⟨ps, hwritten, hps⟩ := h
  refine ⟨p :: ps, ?_, List.forall_mem_cons.2 ⟨Piece.isUnmarked hp, hps⟩⟩
  show p :: e.written = p :: (ps ++ before)
  rw [hwritten]

section Robust

variable {d : Direction} {before : List Piece}

/-- The characters that go with the direction. -/
abbrev charGoesWith (d : Direction) (c : Char) : Prop := (assignedClass c).any (·.goesWith d) = true

theorem charGoesWith_space (d : Direction) : charGoesWith d ' ' := by
  rw [charGoesWith, assignedClass_space]
  cases d <;> rfl

theorem paragraph_nil (d : Direction) : paragraph [] d = .ok ⟨[], d.level, []⟩ := by cases d <;> rfl

/-- All runs of what is held back are of the direction. -/
theorem Emitter.StandsIn.direction_eq {e : Emitter} (h : e.StandsIn d) {p : Paragraph}
    (hp : e.analyzer e.buffer e.paragraphDir.base = .ok p) {r : Run} (hr : r ∈ p.runs) : r.direction = d := by
  have hbase : e.paragraphDir.base = d := by rw [h.paragraphDir]; rfl
  rw [h.analyzer, hbase] at hp
  by_cases hempty : e.buffer = []
  · rw [hempty, paragraph_nil] at hp
    cases hp
    cases hr
  · rw [paragraph_of_goesWith hempty h.buffer] at hp
    cases hp
    rw [List.mem_singleton.1 hr]

/-- A run of the ambient direction is not marked. -/
theorem admitsRun_unmarked : AdmitsRun (fun e => e.StandsIn d ∧ e.Adds before) d := by
  intro e he
  have henter : (enterRun d).perform e = (.ok false, e) := by
    simp only [enterRun, perform_bind, perform_get, he.1.contextDir, if_true, perform_pure]
  exact Leaves.of_ok henter ⟨he, .of_pure ()⟩

theorem robust_unmarked (d : Direction) (before : List Piece) :
    Robust (charGoesWith d) fun e => e.StandsIn d ∧ e.Adds before where
  wrote he hp := ⟨{ he.1 with }, he.2.wrote hp⟩
  extended he hs := ⟨{ he.1 with buffer := List.forall_mem_append.2 ⟨he.1.buffer, hs⟩ }, he.2⟩
  run he hp hr := he.1.direction_eq hp hr ▸ admitsRun_unmarked
  resembles {e e'} he h := by
    obtain ⟨⟨hanalyzer, hcontext, hparagraph, hbuffer⟩, ps, hwritten, hps⟩ := he
    refine ⟨⟨h.analyzer.trans hanalyzer, h.contextDir.trans hcontext, h.paragraphDir.trans hparagraph, ?_⟩, ps,
      h.written.trans hwritten, hps⟩
    rcases h.buffer with hsame | hnone
    · rwa [hsame]
    · rw [hnone]
      exact List.forall_mem_nil _

end Robust

/-! ### Programs -/

mutual

/-- Whether all text that an operation writes goes with the direction, and no other direction is set. -/
def Operation.keepsTo (d : Direction) : Operation → Bool
  | .write text => decide (GoesWith d text)
  | .switchDirection direction | .assumeDirection direction => decide (direction = .known d)
  | .wrap _ _ content | .isolated content | .resuming content => keepAllTo d content
  | _ => true

/-- Whether that is so for all operations of a program. -/
def keepAllTo (d : Direction) : List Operation → Bool
  | [] => true
  | o :: os => o.keepsTo d && keepAllTo d os

end

section Programs

variable {d : Direction} {before : List Piece}

theorem keeps_switchDirection_unmarked :
    Keeps (fun e => e.StandsIn d ∧ e.Adds before) (switchDirection (.known d)) :=
  (robust_unmarked d before).keeps_writeHeld.bind fun _ => .of_modify fun _ he => ⟨{ he.1 with paragraphDir := rfl }, he.2⟩

theorem keeps_assumeDirection_unmarked :
    Keeps (fun e => e.StandsIn d ∧ e.Adds before) (assumeDirection (.known d)) :=
  (robust_unmarked d before).keeps_writeHeld.bind fun _ => .of_modify fun _ he =>
    ⟨{ he.1 with contextDir := rfl }, he.2.wrote rfl⟩

theorem keeps_setCoverage_unmarked (latinCoverage : Bool) :
    Keeps (fun e => e.StandsIn d ∧ e.Adds before) (setCoverage latinCoverage) :=
  (robust_unmarked d before).keeps_writeHeld.bind fun _ => .of_modify fun _ he => ⟨{ he.1 with }, he.2⟩

mutual

theorem Operation.keeps_perform_unmarked (o : Operation) (ho : o.keepsTo d = true) :
    Keeps (fun e => e.StandsIn d ∧ e.Adds before) o.perform := by
  have hrobust := robust_unmarked d before
  cases o with
  | write text =>
    have htext : GoesWith d text := of_decide_eq_true ho
    exact hrobust.keeps_write (charGoesWith_space d) htext
  | record mark => exact hrobust.keeps_record mark
  | wrap command delimiters content => exact hrobust.keeps_wrap command delimiters (keeps_performAll_unmarked content ho)
  | isolated content => exact hrobust.keeps_isolated (keeps_performAll_unmarked content ho)
  | beginEnv env options => exact hrobust.keeps_beginEnv env options
  | endEnv env => exact hrobust.keeps_endEnv env
  | switchDirection direction =>
    obtain rfl := of_decide_eq_true ho
    exact keeps_switchDirection_unmarked
  | assumeDirection direction =>
    obtain rfl := of_decide_eq_true ho
    exact keeps_assumeDirection_unmarked
  | resuming content =>
    -- The direction to return to is the one that is in force before the content.
    refine .get_bind fun e he => (keeps_performAll_unmarked content ho).bind fun _ => ?_
    rw [he.1.contextDir]
    exact keeps_assumeDirection_unmarked
  | setCoverage latinCoverage => exact keeps_setCoverage_unmarked latinCoverage
  | deepenList n => exact .of_modify fun _ he => ⟨{ he.1 with }, he.2⟩
  | deepenToc n => exact .of_modify fun _ he => ⟨{ he.1 with }, he.2⟩
  | paragraphBreak => exact hrobust.keeps_paragraphBreak
  | lineBreak => exact hrobust.keeps_lineBreak
  | envBreak => exact hrobust.keeps_envBreak
  | dirBreak => exact hrobust.keeps_writeHeld
  | resetLine => exact hrobust.keeps_resetLine
  | flush => exact hrobust.keeps_flush

/-- A program that keeps to the direction marks none, whether or not it fails. -/
theorem keeps_performAll_unmarked (os : List Operation) (hos : keepAllTo d os = true) :
    Keeps (fun e => e.StandsIn d ∧ e.Adds before) (performAll os) :=
  match os with
  | [] => .of_pure ()
  | o :: os =>
    have ⟨ho, hrest⟩ := Bool.and_eq_true_iff.1 hos
    (Operation.keeps_perform_unmarked o ho).bind fun _ => keeps_performAll_unmarked os hrest

end

end Programs

/-! ### Text alone -/

/-- The emitter is open, and there is nothing in it but what it has written. -/
structure Emitter.IsClear (e : Emitter) : Prop where
  isOpen : e.closed = false
  buffer : e.buffer = []
  decorations : e.decorations = []
  stack : e.stack = []

section Plain

variable {d : Direction} {e : Emitter}

theorem Emitter.StandsIn.switches_eq (h : e.StandsIn d) : e.switches d = false := by
  simp [Emitter.switches, h.contextDir]

/-- A single run of the ambient direction is set as it stands. -/
theorem setText_single (style : TextStyle) (s : List Char) :
    setText style s (.known d) [⟨d, 0, s.length⟩] [] [] = some (textPieces style s, []) := by
  have hruns : setRuns s (.known d) [⟨d, 0, s.length⟩] = [⟨d, 0, s.length⟩] := by
    rw [setRuns, joinRuns, ite_self]
  have hslice : slice s 0 s.length = s := by simp [slice]
  simp [setText, hruns, layRuns, spanPieces, enterPieces, exitPieces, openPieces, closePieces, weave, nest, offsetAfter,
    trailPieces, hslice]

/-- Text with no formatting is written as it stands. -/
theorem perform_writeHeld_unmarked (h : e.StandsIn d) (hopen : e.closed = false) (hdecorations : e.decorations = [])
    (hstack : e.stack = []) :
    ∃ e', writeHeld.perform e = (.ok (), e') ∧ e'.output = e.output ++ textPieces e.style e.buffer := by
  have hnone : e.due = [] := by
    rw [Emitter.due, hdecorations]
    rfl
  -- Without text the analysis is not asked, and there is no run.
  by_cases hempty : e.buffer = []
  · have hnot : e.isDue = false := by simp [Emitter.isDue, hempty, hnone]
    refine ⟨_, perform_writeHeld_of_not_isDue hnot, ?_⟩
    rw [Emitter.output_turned, hempty]
    rfl
  · have hdue : e.isDue = true := by simp [Emitter.isDue, hempty]
    have hp := paragraph_of_goesWith hempty h.buffer
    have hbase : e.paragraphDir.base = d := by rw [h.paragraphDir]; rfl
    have hwrite := perform_writeHeld hopen hdue fun p hp => paragraph_partitions (by rwa [h.analyzer] at hp)
    have hambient : e.ambientFor [⟨d, 0, e.buffer.length⟩] = .known d := by
      simp [Emitter.ambientFor, Emitter.directionFor, h.switches_eq, h.contextDir]
    have hswitch : e.switchFor [⟨d, 0, e.buffer.length⟩] = [] := by
      simp [Emitter.switchFor, Emitter.switchPieces, h.switches_eq]
    rw [h.analyzer, hbase, hp] at hwrite
    simp only [hambient, hstack, hnone, setText_single] at hwrite
    refine ⟨_, hwrite, ?_⟩
    rw [Emitter.output_turned, hswitch, List.nil_append]

/-- A clear emitter holds back what is written, less the blanks that a break swallows. -/
theorem exists_perform_write (hclear : e.IsClear) (s : List Char) :
    ∃ e' text, (Emit.write s).perform e = (.ok (), e') ∧ (text = s ∨ text = s.dropWhile isSpace) ∧
      e'.buffer = collapseBlanks false text ∧ e'.closed = false ∧ e'.decorations = [] ∧ e'.stack = [] ∧
      e'.output = e.output ∧ e'.style = e.style := by
  have hwrite := perform_write hclear.isOpen s
  have hadded : ∀ text, e.buffer ++ collapseBlanks false text = collapseBlanks false text := by
    intro text
    rw [hclear.buffer, List.nil_append]
  have hrest : e.closed = false ∧ e.decorations = [] ∧ e.stack = [] ∧ e.output = e.output ∧ e.style = e.style :=
    ⟨hclear.isOpen, hclear.decorations, hclear.stack, rfl, rfl⟩
  by_cases hbreak : (e.newEnv || e.newLine || e.newPara) = true
  · rw [if_pos hbreak] at hwrite
    refine ⟨_, s.dropWhile isSpace, hwrite, .inr rfl, ?_⟩
    by_cases hblank : (s.dropWhile isSpace).isEmpty = true
    · rw [if_pos hblank, List.isEmpty_iff.1 hblank]
      exact ⟨hclear.buffer, hrest⟩
    · rw [if_neg hblank]
      exact ⟨hadded _, hrest⟩
  · rw [if_neg hbreak] at hwrite
    exact ⟨_, s, hwrite, .inl rfl, hadded s, hrest⟩

/-- Text that is written into a clear emitter comes out by itself. -/
theorem perform_write_unmarked (h : e.StandsIn d) (hclear : e.IsClear) {s : List Char} (hs : GoesWith d s) :
    ∃ e' text, (performAll [.write s, .dirBreak]).perform e = (.ok (), e') ∧ (text = s ∨ text = s.dropWhile isSpace) ∧
      e'.output = e.output ++ textPieces e.style (collapseBlanks false text) := by
  have hkept := (robust_unmarked d e.written).keeps_write (charGoesWith_space d) hs e ⟨h, [], rfl, List.forall_mem_nil _⟩
  obtain ⟨e₁, text, hwrite, htext, hbuffer, hopen, hdecorations, hstack, houtput, hstyle⟩ := exists_perform_write hclear s
  obtain ⟨e₂, hheld, hadded⟩ := perform_writeHeld_unmarked (hkept.ok hwrite).1 hopen hdecorations hstack
  refine ⟨e₂, text, ?_, htext, ?_⟩
  · have hsteps : performAll [.write s, .dirBreak] =
        (Emit.write s >>= fun _ => writeHeld >>= fun _ => (pure () : Emit Unit)) := rfl
    rw [hsteps, perform_bind, hwrite]
    dsimp only
    rw [perform_bind, hheld]
    rfl
  · rw [hadded, houtput, hstyle, hbuffer]

theorem inert_textPieces (style : TextStyle) (s : List Char) :
    ∀ t ∈ texTokens (latexOf (textPieces style s)), t.isInert = true := by
  unfold textPieces
  split
  · exact List.forall_mem_nil _
  · have hsingle : latexOf [.text style s] = style.escape s := List.append_nil _
    rw [hsingle]
    exact (complete_escape style s).inert.inert

end Plain

/-! ### Main statement -/

/-- A text that goes with the base direction is one run of it. Where the ambient direction is the same, an emitter writes
no mark of a direction for such texts, in whatever program they come and whether or not it fails. Such a text alone is
written without fail, as it stands, and TeX reads nothing in it that sets a direction. -/
theorem goesWith_unmarked (d : Direction) :
    (∀ s, s ≠ [] → GoesWith d s → paragraph s d = .ok ⟨s, d.level, [⟨d, 0, s.length⟩]⟩) ∧
    (∀ (e : Emitter) (program : List Operation) (outcome : Except EmitError Unit) (e' : Emitter), e.StandsIn d →
      keepAllTo d program = true → (performAll program).perform e = (outcome, e') →
      e'.StandsIn d ∧ e'.Adds e.written) ∧
    ∀ (e : Emitter) (s : List Char), e.StandsIn d → e.IsClear → GoesWith d s →
      ∃ e' text, (performAll [.write s, .dirBreak]).perform e = (.ok (), e') ∧
        (text = s ∨ text = s.dropWhile isSpace) ∧
        e'.output = e.output ++ textPieces e.style (collapseBlanks false text) ∧
        ∀ t ∈ texTokens (latexOf (textPieces e.style (collapseBlanks false text))), t.isInert = true := by
  refine ⟨fun s hs h => paragraph_of_goesWith hs h, ?_, ?_⟩
  · intro e program outcome e' he hprogram hperform
    have hkept := keeps_performAll_unmarked program hprogram e ⟨he, [], rfl, List.forall_mem_nil _⟩
    cases outcome with
    | error c => exact hkept.error hperform
    | ok => exact hkept.ok hperform
  · intro e s he hclear hs
    obtain ⟨e', text, hperform, htext, houtput⟩ := perform_write_unmarked he hclear hs
    exact ⟨e', text, hperform, htext, houtput, inert_textPieces _ _⟩

/-- Letters of one direction with neutrals, in an isolate in an embedding, and marks that match nothing. -/
def enclosedText : List Char := "\u2069(\u05D0) \u202B\u2067\u05D1!\u2069\u202C\u202C".toList

theorem enclosedText_unmarked :
    (enclosedText ≠ [] ∧ GoesWith .rtl enclosedText ∧
      paragraph enclosedText .rtl = .ok ⟨enclosedText, 1, [⟨.rtl, 0, 12⟩]⟩) ∧
    (keepAllTo .rtl [.wrap "\\emph" {} [.write enclosedText], .paragraphBreak, .flush] = true ∧
      ((performAll [.wrap "\\emph" {} [.write enclosedText], .paragraphBreak, .flush]).perform
        (Emitter.start (.known .rtl))).2.Adds []) ∧
    ∃ e' text, (performAll [.write enclosedText, .dirBreak]).perform (Emitter.start (.known .rtl)) = (.ok (), e') ∧
      (text = enclosedText ∨ text = enclosedText.dropWhile isSpace) ∧
      e'.output = textPieces {} (collapseBlanks false text) ∧
      ∀ t ∈ texTokens (latexOf (textPieces {} (collapseBlanks false text))), t.isInert = true := by
  have hgoes : GoesWith .rtl enclosedText := by decide +kernel
  have hstands : (Emitter.start (.known .rtl)).StandsIn .rtl := ⟨rfl, rfl, rfl, List.forall_mem_nil _⟩
  have hclear : (Emitter.start (.known .rtl)).IsClear := ⟨rfl, rfl, rfl, rfl⟩
  have hprogram : keepAllTo .rtl [.wrap "\\emph" {} [.write enclosedText], .paragraphBreak, .flush] = true := by
    decide +kernel
  have hsome : enclosedText ≠ [] := by decide +kernel
  have hlength : enclosedText.length = 12 := by decide +kernel
  obtain ⟨hparagraph, hadds, hplain⟩ := goesWith_unmarked .rtl
  have hsingle := hparagraph enclosedText hsome hgoes
  rw [hlength] at hsingle
  refine ⟨⟨hsome, hgoes, hsingle⟩, ⟨hprogram, ?_⟩, hplain _ enclosedText hstands hclear hgoes⟩
  rcases hperform : (performAll [.wrap "\\emph" {} [.write enclosedText], .paragraphBreak, .flush]).perform
    (Emitter.start (.known .rtl)) with ⟨outcome, e'⟩
  exact (hadds _ _ _ _ hstands hprogram hperform).2

end WikiTypeset.Latex
