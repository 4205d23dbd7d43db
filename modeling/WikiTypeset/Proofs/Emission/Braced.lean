import WikiTypeset.Proofs.Emission.Shown
import WikiTypeset.Proofs.Tex.Braces

/-!
# Lines end outside all braces

A text opens and closes its wrappers and its formatting in pairs, and all of it between two turns. So if the fragments and
commands of a program are balanced, then the output is balanced wherever the program has come, and the pieces that end
lines stand outside all braces. Main statement: `program_braced`.
-/

namespace WikiTypeset.Latex

open Action Bidi Emit Formula

/-! ### Braces of pieces -/

/-- A decoration in the standard delimiters whose fragment or command is balanced. -/
structure Decoration.IsBraced (d : Decoration) : Prop where
  value : Leads d.value.toList 0 0
  delimiters : d.delimiters = {}

instance (d : Decoration) : Decidable d.IsBraced :=
  decidable_of_iff (Leads d.value.toList 0 0 ∧ d.delimiters = {}) ⟨fun h => ⟨h.1, h.2⟩, fun h => ⟨h.1, h.2⟩⟩

/-- A piece whose command or fragment is balanced, but for the standard delimiters of formatting. -/
def Piece.IsBraced : Piece → Prop
  | .openInline command delimiters => Leads command.toList 0 0 ∧ delimiters = {}
  | .closeInline delimiter => delimiter = "\x7d"
  | .fragment value | .block value => Leads value.toList 0 0
  | _ => True

/-- Whether a piece ends a line, a paragraph or, with a row break, a line within one. -/
def Piece.endsLine : Piece → Bool
  | .newline | .paragraphEnd | .lineBreak => true
  | _ => false

variable {h h' : Heading} {ss : List Sight}

/-- A piece opens and closes the groups that the replay of directions takes it to. -/
theorem Piece.leads_of_show {p : Piece} (hp : p.IsBraced) (hshow : p.show h = some (ss, h')) :
    Leads p.latex h.groups.length h'.groups.length := by
  have hopening : Leads "\x7b".toList 0 1 := by decide
  have hclosing : Leads "\x7d".toList 1 0 := by decide
  cases p with
  | text style source =>
    cases hshow
    exact (complete_escape style source).leads _
  | openInline command delimiters =>
    cases hshow
    obtain ⟨hcommand, rfl⟩ := hp
    have hopens := (hcommand.append hopening).add h.groups.length
    rwa [Nat.zero_add, Nat.add_comm] at hopens
  | closeInline delimiter =>
    obtain ⟨ambient, _ | ⟨g, groups⟩⟩ := h <;> cases hshow
    obtain rfl : delimiter = "\x7d" := hp
    have hcloses := hclosing.add groups.length
    rwa [Nat.zero_add, Nat.add_comm] at hcloses
  | closeRun =>
    obtain ⟨ambient, _ | ⟨g, groups⟩⟩ := h <;> cases hshow
    have hcloses := hclosing.add groups.length
    rwa [Nat.zero_add, Nat.add_comm] at hcloses
  | openRun d =>
    cases hshow
    have hwrapper : Leads (Piece.openRun d).latex 0 1 := by cases d <;> decide
    have hopens := hwrapper.add h.groups.length
    rwa [Nat.zero_add, Nat.add_comm] at hopens
  | fragment value | block value =>
    cases hshow
    exact Leads.inside hp _
  | setDirection d =>
    cases hshow
    have hcommand : Leads (Piece.setDirection d).latex 0 0 := by cases d <;> decide
    exact hcommand.inside _
  | assumeDirection d =>
    cases hshow
    exact Leads.nil _
  | newline | paragraphEnd | lineBreak =>
    cases hshow
    exact Leads.inside (by decide) _

theorem leads_of_show {ps : List Piece} (hps : ∀ p ∈ ps, p.IsBraced) (hshow : showPieces h ps = some (ss, h')) :
    Leads (latexOf ps) h.groups.length h'.groups.length := by
  induction ps generalizing h ss with
  | nil =>
    cases hshow
    exact Leads.nil _
  | cons p ps ih =>
    obtain ⟨first, mid, rest, hfirst, hrest, rfl⟩ := gather_cons_inv hshow
    have hp := Piece.leads_of_show (hps p (by simp)) hfirst
    exact hp.append (ih (fun q hq => hps q (by simp [hq])) hrest)

/-- Pieces that come from braced decorations are braced, and no such piece ends a line. -/
theorem inherits_braced :
    Inherits Decoration.IsBraced Decoration.IsBraced fun p => p.IsBraced ∧ p.endsLine = false where
  text _ _ := ⟨trivial, rfl⟩
  openRun _ := ⟨trivial, rfl⟩
  closeRun := ⟨trivial, rfl⟩
  opening hd := ⟨⟨hd.value, hd.delimiters⟩, rfl⟩
  closing hd := ⟨congrArg Delimiters.closing hd.delimiters, rfl⟩
  pieces {d} hd := by
    unfold Decoration.pieces
    split
    · exact List.forall_mem_singleton.2 ⟨⟨hd.value, hd.delimiters⟩, rfl⟩
    · exact List.forall_mem_singleton.2 ⟨congrArg Delimiters.closing hd.delimiters, rfl⟩
    · exact List.forall_mem_singleton.2 ⟨hd.value, rfl⟩
    · exact List.forall_mem_singleton.2 ⟨hd.value, rfl⟩
    · exact List.forall_mem_singleton.2 ⟨hd.value, rfl⟩
    · exact List.forall_mem_nil _
  stacked _ hd := hd

/-! ### Braced output -/

/-- Pieces whose braces are balanced, with the ends of lines outside all braces. -/
structure BracedOutput (ps : List Piece) : Prop where
  leads : Leads (latexOf ps) 0 0
  lineEnds : ∀ before p after, ps = before ++ p :: after → p.endsLine = true → Leads (latexOf before) 0 0

theorem BracedOutput.nil : BracedOutput [] := by
  refine ⟨Leads.nil 0, fun before p after heq => ?_⟩
  simp at heq

/-- More pieces, none of which ends a line unless it is the first one. -/
theorem BracedOutput.append {ps qs : List Piece} (hps : BracedOutput ps) (hqs : Leads (latexOf qs) 0 0)
    (hends : ∀ q ∈ qs.tail, q.endsLine = false) : BracedOutput (ps ++ qs) := by
  constructor
  · rw [latexOf_append]
    exact hps.leads.append hqs
  · intro before p after heq hp
    rcases List.append_eq_append_iff.1 heq with ⟨between, rfl, hqs'⟩ | ⟨between, hps', hafter⟩
    · -- The end of a line is among the new pieces, so it is the first one.
      cases between with
      | nil =>
        rw [List.append_nil]
        exact hps.leads
      | cons q between =>
        have hlast : p ∈ qs.tail := by simp [hqs']
        rw [hends p hlast] at hp
        cases hp
    · cases between with
      | nil =>
        rw [List.append_nil] at hps'
        rw [← hps']
        exact hps.leads
      | cons q between =>
        simp only [List.cons_append, List.cons.injEq] at hafter
        obtain ⟨rfl, rfl⟩ := hafter
        exact hps.lineEnds before p between hps' hp

/-! ### Emitters with braced output -/

namespace Emitter

variable {e : Emitter} {l : Ledger} {inside : List Wrapper}

/-- The output is braced, and so is all that is held back or open. -/
structure Braced (e : Emitter) (l : Ledger) : Prop extends e.Agrees l where
  analyzer : e.analyzer = paragraph
  open_of_due : e.isDue = true → e.closed = false
  decorations : ∀ d ∈ e.decorations, d.IsBraced
  stack : ∀ d ∈ e.stack, d.IsBraced
  output : BracedOutput e.output

theorem leads_switchFor (e : Emitter) (runs : List Run) :
    Leads (latexOf (e.switchFor runs)) 0 0 ∧ ∀ p ∈ e.switchFor runs, p.endsLine = false := by
  cases runs with
  | nil => exact ⟨Leads.nil 0, List.forall_mem_nil _⟩
  | cons r runs =>
    by_cases hs : e.switches r.direction = true
    · have hcommand : Leads (latexOf [.setDirection r.direction]) 0 0 := by cases r.direction <;> decide
      rw [switchFor, switchPieces, if_pos hs]
      exact ⟨hcommand, List.forall_mem_singleton.2 rfl⟩
    · rw [switchFor, switchPieces, if_neg hs]
      exact ⟨Leads.nil 0, List.forall_mem_nil _⟩

theorem Braced.turn (h : e.Braced l) : Leaves writeHeld e (fun _ e' => e'.Braced l.turn) fun _ _ => True := by
  have hdue : ∀ d ∈ e.due, d.IsBraced := fun d hd =>
    h.decorations d (e.due_append_carried ▸ List.mem_append_left _ hd)
  have hcarried : ∀ d ∈ e.carried.reverse, d.IsBraced := fun d hd =>
    h.decorations d (e.due_append_carried ▸ List.mem_append_right _ (List.mem_reverse.1 hd))
  refine leaves_writeHeld h.analyzer h.open_of_due (fun {p ps stack} _ hp hset => ?_) fun hnot => ?_
  · have hordered : Ordered 0 e.due e.buffer.length := (e.due_append_carried ▸ h.ordered).of_append
    have hshow := show_setText (e.ambientFor p.runs) e.style (paragraph_partitions hp).contiguous hordered hset
    obtain ⟨hps, hstack⟩ := inherits_braced.setText hdue h.stack hset
    obtain ⟨hswitch, hswitchEnds⟩ := e.leads_switchFor p.runs
    have htext : Leads (latexOf ps) 0 0 := leads_of_show (fun q hq => (hps q hq).1) hshow
    have hends : ∀ q ∈ (e.switchFor p.runs ++ ps).tail, q.endsLine = false := by
      intro q hq
      rcases List.mem_append.1 (List.mem_of_mem_tail hq) with hq | hq
      · exact hswitchEnds q hq
      · exact (hps q hq).2
    refine ⟨h.toAgrees.turned _ _ _, h.analyzer, fun hdue => absurd hdue Bool.false_ne_true, List.forall_mem_nil _,
      List.forall_mem_append.2 ⟨hcarried, hstack⟩, ?_⟩
    rw [output_turned]
    refine h.output.append ?_ hends
    rw [latexOf_append]
    exact hswitch.append htext
  · refine ⟨h.toAgrees.turned _ _ _, h.analyzer, fun hdue => absurd hdue Bool.false_ne_true, List.forall_mem_nil _,
      List.forall_mem_append.2 ⟨hcarried, h.stack⟩, ?_⟩
    rw [output_turned, show e.switchFor [] = [] from rfl, List.append_nil, List.append_nil]
    exact h.output

/-- Only what has been written matters, besides what the ledger knows and what is held back. -/
theorem Braced.of_agrees {e' : Emitter} {l' : Ledger} (h : e.Braced l) (hag : e'.Agrees l')
    (hanalyzer : e'.analyzer = e.analyzer) (hopen : e'.isDue = true → e'.closed = false)
    (hdecorations : ∀ d ∈ e'.decorations, d.IsBraced) (hstack : ∀ d ∈ e'.stack, d.IsBraced)
    (hwritten : e'.written = e.written) : e'.Braced l' := by
  have houtput : e'.output = e.output := congrArg List.reverse hwritten
  refine ⟨hag, hanalyzer.trans h.analyzer, hopen, hdecorations, hstack, ?_⟩
  rw [houtput]
  exact h.output

/-- A piece that ends a line is written outside all braces. -/
theorem Braced.lineEnd {p : Piece} (h : e.Braced l) (hopen : e.closed = false)
    (hp : p = .newline ∨ p = .paragraphEnd ∨ p = .lineBreak) : (e.wrote [p]).Braced l := by
  have hleads : Leads (latexOf [p]) 0 0 := by rcases hp with rfl | rfl | rfl <;> decide
  refine ⟨{ h.toAgrees with }, h.analyzer, fun _ => hopen, h.decorations, h.stack, ?_⟩
  rw [output_advance]
  exact h.output.append hleads (List.forall_mem_nil _)

theorem formats_braced : Formats Decoration.IsBraced fun e l => e.Braced l where
  agrees h := h.toAgrees
  open_of_due h := h.open_of_due
  decorations h := h.decorations
  stack h := h.stack
  moved _ hd := ⟨hd.value, hd.delimiters⟩
  turn h := h.turn
  lineEnd h := h.lineEnd
  of_agrees h hag hanalyzer hopen hdecorations hstack hwritten _ _ :=
    h.of_agrees hag hanalyzer hopen hdecorations hstack hwritten

/-- A block on a line of its own. -/
theorem Braced.block (h : e.Braced l) {d : Decoration} (hkind : d.kind = .startBlock ∨ d.kind = .endBlock)
    (hd : d.IsBraced) : Leaves (writeBlock d) e (fun _ e' => e'.Braced (l.block d.value)) fun _ _ => True := by
  have hrecord : l.envBreak.turn.record d [] = l.envBreak.turn.place (.block d.value) [] := Ledger.record_block hkind
  have hc := formats_braced.coupled
  refine ((hc l.envBreak.turns).envBreak h (List.Subset.refl _)).bind fun _ e₁ h₁ => ?_
  refine formats_braced.isolated h₁ fun h₂ => ?_
  have hrecorded := formats_braced.record h₂ hd []
  rw [hrecord] at hrecorded
  exact hrecorded.bind fun _ e₃ h₃ => (hc _).envBreak h₃ (List.Subset.refl _)

theorem Braced.assumeDirection (h : e.Braced l) (direction : NamedDirection) :
    Leaves (Emit.assumeDirection direction) e (fun _ e' => e'.Braced l.turn) fun _ _ => True := by
  refine h.turn.bind fun _ e₁ h₁ => Leaves.of_modify ?_
  refine ⟨{ h₁.toAgrees with }, h₁.analyzer, h₁.open_of_due, h₁.decorations, h₁.stack, ?_⟩
  have houtput : ({ e₁ with contextDir := direction, written := .assumeDirection direction :: e₁.written } : Emitter).output =
      e₁.output ++ [.assumeDirection direction] := List.reverse_cons
  rw [houtput]
  exact h₁.output.append (Leads.nil 0) (List.forall_mem_nil _)

end Emitter

/-! ### Programs -/

mutual

/-- Whether the fragments, commands, names and options of an operation are balanced, and its delimiters the standard
ones. -/
def Operation.isBraced : Operation → Bool
  | .record d => decide d.IsBraced
  | .wrap command delimiters content => decide (Decoration.startInline command delimiters).IsBraced && areBraced content
  | .isolated content | .resuming content => areBraced content
  | .beginEnv env options => decide (Leads env.toList 0 0) && decide (Leads options.toList 0 0)
  | .endEnv env => decide (Leads env.toList 0 0)
  | _ => true

/-- Whether those of a program are. -/
def areBraced : List Operation → Bool
  | [] => true
  | o :: os => o.isBraced && areBraced os

end

/-- Whether those of a program are, as far as it has come. -/
def Begun.isBraced : Begun → Bool
  | upTo os => areBraced os
  | inWrap os command delimiters content =>
    areBraced os && decide (Decoration.startInline command delimiters).IsBraced && content.isBraced
  | inIsolated os content => areBraced os && content.isBraced

theorem leads_beginCommand {env options : String} (henv : Leads env.toList 0 0) (hoptions : Leads options.toList 0 0) :
    Leads (beginCommand env options).toList 0 0 := by
  have hbegin : Leads "\\begin\x7b".toList 0 1 := by decide
  have hclosing : Leads "\x7d".toList 1 0 := by decide
  have hbracket : Leads "[".toList 0 0 := by decide
  have hbracket' : Leads "]".toList 0 0 := by decide
  have hname := (hbegin.append (henv.inside 1)).append hclosing
  unfold beginCommand
  split
  · simpa using hname
  · simpa using hname.append ((hbracket.append hoptions).append hbracket')

theorem leads_endCommand {env : String} (henv : Leads env.toList 0 0) : Leads (endCommand env).toList 0 0 := by
  have hend : Leads "\\end\x7b".toList 0 1 := by decide
  have hclosing : Leads "\x7d".toList 1 0 := by decide
  simpa [endCommand] using (hend.append (henv.inside 1)).append hclosing

mutual

theorem Operation.perform_braced (o : Operation) {e : Emitter} {l : Ledger} (inside : List Wrapper)
    (ho : o.isBraced = true) (h : e.Braced l) :
    Leaves o.perform e (fun _ e' => e'.Braced (o.keep inside l)) fun _ _ => True := by
  have hf := Emitter.formats_braced
  have hc := hf.coupled (o.keep inside l).turns
  have hall := List.Subset.refl (o.keep inside l).turns
  cases o with
  | write text => exact hf.write inside h text
  | record d => exact hf.record h (of_decide_eq_true ho) inside
  | wrap command delimiters content =>
    obtain ⟨hbraced, hcontent⟩ := Bool.and_eq_true_iff.1 ho
    have hstart := of_decide_eq_true hbraced
    refine (hf.record h hstart []).bind fun _ e₁ h₁ => Leaves.finishing ?_
    refine (performAll_braced content (inside ++ [⟨command, delimiters⟩]) hcontent h₁).imp (fun _ e₂ h₂ => ?_)
      fun _ e₂ _ => (Leaves.trivial _ e₂).imp (fun _ _ _ => trivial) fun _ _ _ => trivial
    have hend : (Decoration.endInline command delimiters).IsBraced := ⟨hstart.value, hstart.delimiters⟩
    exact hf.record h₂ hend []
  | isolated content => exact hf.isolated h fun h' => performAll_braced content [] ho h'
  | beginEnv env options =>
    simp only [Operation.isBraced, Bool.and_eq_true, decide_eq_true_eq] at ho
    have hblock : ({ kind := .startBlock, value := beginCommand env options } : Decoration).IsBraced :=
      ⟨leads_beginCommand ho.1 ho.2, rfl⟩
    exact (h.block (.inl rfl) hblock).bind fun _ e' h' => hc.resetLine h'
  | endEnv env =>
    have hblock : ({ kind := .endBlock, value := endCommand env } : Decoration).IsBraced :=
      ⟨leads_endCommand (of_decide_eq_true ho), rfl⟩
    refine (h.block (.inr rfl) hblock).bind fun _ e' h' => Leaves.of_modify ?_
    have hag := h'.toAgrees
    exact hc.alike h' ⟨rfl, rfl, rfl, rfl, rfl, rfl, rfl⟩ { hag with newLine := rfl, newPara := rfl } rfl rfl
  | switchDirection direction => exact hc.switchDirection h hall direction
  | assumeDirection direction => exact h.assumeDirection direction
  | resuming content =>
    refine Leaves.get_bind ?_
    exact (performAll_braced content inside ho h).bind fun _ e' h' => h'.assumeDirection _
  | setCoverage latinCoverage => exact hc.setCoverage h hall latinCoverage
  | deepenList n => exact Leaves.of_modify (hc.deepenList h n)
  | deepenToc n => exact Leaves.of_modify (hc.deepenToc h n)
  | paragraphBreak => exact hc.paragraphBreak h hall
  | lineBreak => exact hc.lineBreak h hall
  | envBreak => exact hc.envBreak h hall
  | dirBreak => exact hc.turn h hall
  | resetLine => exact hc.resetLine h
  | flush => exact hf.flush h

/-- Braced programs keep the output braced, as long as no operation fails. -/
theorem performAll_braced (os : List Operation) {e : Emitter} {l : Ledger} (inside : List Wrapper)
    (hos : areBraced os = true) (h : e.Braced l) :
    Leaves (performAll os) e (fun _ e' => e'.Braced (keepAll inside os l)) fun _ _ => True := by
  cases os with
  | nil => exact Leaves.of_pure h
  | cons o os =>
    simp only [areBraced, Bool.and_eq_true] at hos
    exact (Operation.perform_braced o inside hos.1 h).bind fun _ e' h' => performAll_braced os inside hos.2 h'

end

theorem Begun.perform_braced (program : Begun) {e : Emitter} {l : Ledger} (inside : List Wrapper)
    (hp : program.isBraced = true) (h : e.Braced l) :
    Leaves program.perform e (fun _ e' => e'.Braced (program.keep inside l)) fun _ _ => True := by
  have hf := Emitter.formats_braced
  induction program generalizing e l inside with
  | upTo os => exact performAll_braced os inside hp h
  | inWrap os command delimiters content ih =>
    simp only [Begun.isBraced, Bool.and_eq_true, decide_eq_true_eq] at hp
    exact (performAll_braced os inside hp.1.1 h).bind fun _ e₁ h₁ => (hf.record h₁ hp.1.2 []).bind fun _ e₂ h₂ =>
      ih (inside ++ [⟨command, delimiters⟩]) hp.2 h₂
  | inIsolated os content ih =>
    simp only [Begun.isBraced, Bool.and_eq_true] at hp
    exact (performAll_braced os inside hp.1 h).bind fun _ e₁ h₁ => (hf.enterIsolation h₁).bind fun _ e₂ h₂ =>
      ih [] hp.2 h₂.1

theorem start_braced (direction : NamedDirection) : (Emitter.start direction).Braced (Ledger.start direction) :=
  ⟨⟨rfl, rfl, rfl, rfl, rfl, rfl, rfl, Nat.le_refl _⟩, rfl, nofun, List.forall_mem_nil _, List.forall_mem_nil _, .nil⟩

/-- Wherever a program whose fragments, commands, names and options are balanced has come, as long as no operation fails,
the output has as many braces opened as closed, and at no place more closed than opened. The pieces that end lines stand
outside all braces. The program need not nest. -/
theorem program_braced (direction : NamedDirection) (program : Begun) (hp : program.isBraced = true) {e : Emitter}
    (hrun : program.perform.perform (Emitter.start direction) = (.ok (), e)) :
    (scanBraces e.latex).depth = 0 ∧ (∀ i, 0 ≤ (scanBraces (e.latex.take i)).depth) ∧
      ∀ before p after, e.output = before ++ p :: after → p.endsLine = true →
        (scanBraces (latexOf before)).depth = 0 := by
  have hbraced := (program.perform_braced [] hp (start_braced direction)).ok hrun
  obtain ⟨hend, hstays⟩ := hbraced.output.leads.scan
  refine ⟨hend, hstays, fun before p after heq hp => ?_⟩
  exact (hbraced.output.lineEnds before p after heq hp).scan.1

/-- Formatting that is left open around an isolated part and in it, with braces in the text and a row break. -/
def openFormatting : Begun :=
  .inIsolated [.record (.startInline "\\emph"), .write "\x7ba אב".toList, .lineBreak]
    (.upTo [.write "\\b\x7d".toList, .record (.startInline "\\textbf"), .beginEnv "quote" "", .write "c".toList, .paragraphBreak])

theorem openFormatting_braced : ∃ e, openFormatting.perform.perform (Emitter.start (.known .ltr)) = (.ok (), e) ∧
    openFormatting.isBraced = true ∧ (scanBraces e.latex).depth = 0 ∧
    (∀ i, 0 ≤ (scanBraces (e.latex.take i)).depth) ∧
    ∀ before p after, e.output = before ++ p :: after → p.endsLine = true → (scanBraces (latexOf before)).depth = 0 := by
  have hok : (openFormatting.perform.perform (Emitter.start (.known .ltr))).1.toBool = true := by decide +kernel
  have hbraced : openFormatting.isBraced = true := by decide +kernel
  generalize hrun : openFormatting.perform.perform (Emitter.start (.known .ltr)) = r at hok
  obtain ⟨_ | _, e⟩ := r
  · cases hok
  · exact ⟨e, rfl, hbraced, program_braced (.known .ltr) openFormatting hbraced hrun⟩

end WikiTypeset.Latex
