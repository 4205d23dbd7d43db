import WikiTypeset.Proofs.Emission.Formatting
import WikiTypeset.Proofs.Emission.Held
import WikiTypeset.Proofs.Emission.Replay

/-!
# Every character is set in its direction

What a program's turns are to show, and that they do: a reader of the TeX source of the output sees the characters of
each turn in the directions that the analysis of its text gives them, after a change of the ambient direction at most,
and is in the ambient direction that the emitter takes to be in force. This holds after every operation, also inside the
content of another one. Main statement: `program_shows_directions`.
-/

namespace WikiTypeset.Latex

open Action Bidi Emit

/-! ### What turns are to show -/

/-- The change of the ambient direction before a turn, and the direction after it: none, or one to the base direction of
the text, outside lists. -/
inductive Turn.Switches (t : Turn) (contextDir : NamedDirection) : List Sight → NamedDirection → Prop
  | stays : t.Switches contextDir [] contextDir
  | switches (d : Direction) (hnew : .known d ≠ contextDir) (hbase : .known d = t.base) (hlist : t.inList = 0) :
    t.Switches contextDir [.switch d] d

/-- What a turn shows: after a change of the ambient direction at most, each character in the direction of its run. -/
inductive Turn.Shows (t : Turn) (contextDir : NamedDirection) : List Sight → NamedDirection → Prop
  | analysed {p : Paragraph} {before : List Sight} {contextDir' : NamedDirection}
    (hp : paragraph t.text t.base.base = .ok p) (hs : t.Switches contextDir before contextDir') :
    t.Shows contextDir (before ++ sightsOf t.text (settledRuns t.text contextDir' p.runs)) contextDir'

/-- What several turns show, one after the other. -/
inductive ShowsAll (contextDir : NamedDirection) : List Turn → List Sight → NamedDirection → Prop
  | none : ShowsAll contextDir [] [] contextDir
  | more {ts : List Turn} {t : Turn} {ss ss' : List Sight} {contextDir' contextDir'' : NamedDirection}
    (hts : ShowsAll contextDir ts ss contextDir') (ht : t.Shows contextDir' ss' contextDir'') :
    ShowsAll contextDir (ts ++ [t]) (ss ++ ss') contextDir''

/-! ### Programs that leave directions to the emitter -/

mutual

/-- Whether an operation leaves the directions to the emitter: it neither assumes a direction nor begins or ends an
environment, and its fragments and commands are inert. -/
def Operation.leavesDirection : Operation → Bool
  | .beginEnv _ _ | .endEnv _ | .assumeDirection _ | .resuming _ => false
  | .record d => decide d.IsInert
  | .wrap command delimiters content =>
    decide (Decoration.startInline command delimiters).IsInert && leaveDirection content
  | .isolated content => leaveDirection content
  | _ => true

/-- Whether all operations of a program do so. -/
def leaveDirection : List Operation → Bool
  | [] => true
  | o :: os => o.leavesDirection && leaveDirection os

end

/-- A program as far as it has come: some operations, and perhaps the next one as far as its content has come. -/
inductive Begun
  | upTo (os : List Operation)
  | inWrap (os : List Operation) (command : String) (delimiters : Delimiters) (content : Begun)
  | inIsolated (os : List Operation) (content : Begun)

namespace Begun

/-- Performs a program as far as it has come. -/
def perform : Begun → Emit Unit
  | upTo os => performAll os
  | inWrap os command delimiters content => do
    performAll os
    Emit.record (.startInline command delimiters)
    content.perform
  | inIsolated os content => do
    performAll os
    let _ ← Emit.enterIsolation
    content.perform

/-- What the ledger is to keep then. -/
def keep (inside : List Wrapper) : Begun → Ledger → Ledger
  | upTo os, l => keepAll inside os l
  | inWrap os command delimiters content, l =>
    content.keep (inside ++ [⟨command, delimiters⟩]) ((keepAll inside os l).record (.startInline command delimiters) [])
  | inIsolated os content, l => content.keep [] (keepAll inside os l).turn

/-- Whether all operations so far leave the directions to the emitter. -/
def leavesDirection : Begun → Bool
  | upTo os => leaveDirection os
  | inWrap os command delimiters content =>
    leaveDirection os && decide (Decoration.startInline command delimiters).IsInert && content.leavesDirection
  | inIsolated os content => leaveDirection os && content.leavesDirection

end Begun

/-! ### Emitters that show their turns -/

namespace Emitter

variable {e : Emitter} {l : Ledger} {direction : NamedDirection} {all : List Turn} {inside : List Wrapper}

/-- All that has been written, is held back or is open is inert. -/
structure IsInert (e : Emitter) : Prop where
  output : ∀ p ∈ e.output, p.IsInert
  decorations : ∀ d ∈ e.decorations, d.IsInert
  stack : ∀ d ∈ e.stack, d.IsInert

/-- The emitter shows the turns of the ledger, and its direction is the ambient one. -/
structure Shows (e : Emitter) (direction : NamedDirection) (l : Ledger) : Prop extends e.Agrees l where
  analyzer : e.analyzer = paragraph
  open_of_due : e.isDue = true → e.closed = false
  isInert : e.IsInert
  shows : ∃ ss, showPieces ⟨direction, []⟩ e.output = some (ss, ⟨e.contextDir, []⟩) ∧
    ShowsAll direction l.turns ss e.contextDir

theorem switches_iff (e : Emitter) (d : Direction) : e.switches d = true ↔
    NamedDirection.known d ≠ e.contextDir ∧ e.startPara = true ∧ e.inList = 0 ∧ .known d = e.paragraphDir := by
  simp [switches, and_assoc]

/-- Before a turn the ambient direction changes as it may. -/
theorem show_switchFor (e : Emitter) (text : List Char) (runs : List Run) :
    ∃ ss, showPieces ⟨e.contextDir, []⟩ (e.switchFor runs) = some (ss, ⟨e.ambientFor runs, []⟩) ∧
      (Turn.mk text e.paragraphDir e.inList).Switches e.contextDir ss (e.ambientFor runs) := by
  cases runs with
  | nil => exact ⟨[], rfl, .stays⟩
  | cons r runs =>
    by_cases hs : e.switches r.direction = true
    · obtain ⟨hnew, -, hlist, hbase⟩ := (e.switches_iff _).1 hs
      simp only [switchFor, switchPieces, ambientFor, directionFor, hs, if_true]
      exact ⟨[.switch r.direction], rfl, .switches _ hnew hbase hlist⟩
    · simp only [switchFor, switchPieces, ambientFor, directionFor, hs]
      exact ⟨[], rfl, .stays⟩

/-- Inert decorations become inert pieces. -/
theorem inherits_inert : Inherits Decoration.IsInert Decoration.IsInert Piece.IsInert where
  text _ _ := trivial
  openRun _ := trivial
  closeRun := trivial
  opening hd := ⟨hd.value, hd.delimiters⟩
  closing hd := hd.delimiters.closes
  pieces {d} hd := by
    unfold Decoration.pieces
    split
    · exact List.forall_mem_singleton.2 ⟨hd.value, hd.delimiters⟩
    · exact List.forall_mem_singleton.2 hd.delimiters.closes
    · exact List.forall_mem_singleton.2 hd.value
    · exact List.forall_mem_singleton.2 hd.value
    · exact List.forall_mem_singleton.2 hd.value
    · nofun
  stacked _ hd := hd

theorem IsInert.turned (h : e.IsInert) {ps : List Piece} {stack : List Decoration} (runs : List Run)
    (hps : ∀ p ∈ ps, p.IsInert) (hstack : ∀ d ∈ stack, d.IsInert) : (e.turned ps stack runs).IsInert := by
  have hswitch : ∀ p ∈ e.switchFor runs, p.IsInert := by
    intro p hp
    cases runs with
    | nil => cases hp
    | cons r runs =>
      simp only [switchFor, switchPieces] at hp
      split at hp
      · rw [List.mem_singleton.1 hp]
        trivial
      · cases hp
  have hcarried : ∀ d ∈ e.carried, d.IsInert := fun d hd =>
    h.decorations d (e.due_append_carried ▸ List.mem_append_right _ hd)
  refine ⟨?_, List.forall_mem_nil _, List.forall_mem_append.2 ⟨fun d hd => hcarried d (List.mem_reverse.1 hd), hstack⟩⟩
  rw [output_turned]
  exact List.forall_mem_append.2 ⟨h.output, List.forall_mem_append.2 ⟨hswitch, hps⟩⟩

theorem Shows.turn (h : e.Shows direction l) :
    Leaves writeHeld e (fun _ e' => e'.Shows direction l.turn) fun _ _ => True := by
  obtain ⟨ss, hss, hall⟩ := h.shows
  refine leaves_writeHeld h.analyzer h.open_of_due (fun {p ps stack} hdue hp hset => ?_) fun hnot => ?_
  · have hturns : l.turn.turns = l.turns ++ [⟨e.buffer, e.paragraphDir, e.inList⟩] := by
      have hldue : l.due = true := h.due ▸ hdue
      simp [Ledger.turn, hldue, h.text, h.base, h.inList]
    have hdue' : ∀ d ∈ e.due, d.IsInert := fun d hd =>
      h.isInert.decorations d (e.due_append_carried ▸ List.mem_append_left _ hd)
    obtain ⟨hps, hstack⟩ := inherits_inert.setText hdue' h.isInert.stack hset
    have hinert := h.isInert.turned p.runs hps hstack
    refine ⟨h.toAgrees.turned _ _ _, h.analyzer, fun hdue => absurd hdue Bool.false_ne_true, hinert, ?_⟩
    -- A change of the ambient direction comes first, then the spans in it.
    obtain ⟨before, hbefore, hswitch⟩ := e.show_switchFor e.buffer p.runs
    have hordered : Ordered 0 e.due e.buffer.length := (e.due_append_carried ▸ h.ordered).of_append
    have htext := show_setText _ e.style (paragraph_partitions hp).contiguous hordered hset
    refine ⟨ss ++ (before ++ sightsOf e.buffer (settledRuns e.buffer (e.ambientFor p.runs) p.runs)), ?_, ?_⟩
    · rw [output_turned]
      exact gather_append_of hss (gather_append_of hbefore htext)
    · rw [hturns]
      exact hall.more (.analysed hp hswitch)
  · have hturns : l.turn.turns = l.turns := by
      have hldue : l.due = false := h.due ▸ hnot
      simp [Ledger.turn, hldue]
    have hinert := h.isInert.turned [] (List.forall_mem_nil _) h.isInert.stack
    refine ⟨h.toAgrees.turned _ _ _, h.analyzer, fun hdue => absurd hdue Bool.false_ne_true, hinert, ss, ?_, ?_⟩
    · have hdirection : (e.turned [] e.stack []).contextDir = e.contextDir := rfl
      rw [output_turned, hdirection]
      simpa [switchFor] using hss
    · rw [hturns]
      exact hall

/-- Only what has been written and the ambient direction matter, besides what the ledger knows. -/
theorem Shows.of_agrees {e' : Emitter} {l' : Ledger} (h : e.Shows direction l) (hag : e'.Agrees l')
    (hanalyzer : e'.analyzer = e.analyzer) (hopen : e'.isDue = true → e'.closed = false)
    (hdecorations : ∀ d ∈ e'.decorations, d.IsInert) (hstack : ∀ d ∈ e'.stack, d.IsInert)
    (hwritten : e'.written = e.written) (hcontext : e'.contextDir = e.contextDir) (hturns : l'.turns = l.turns) :
    e'.Shows direction l' := by
  have houtput : e'.output = e.output := congrArg List.reverse hwritten
  refine ⟨hag, hanalyzer.trans h.analyzer, hopen, ⟨?_, hdecorations, hstack⟩, ?_⟩
  · rw [houtput]
    exact h.isInert.output
  · rw [houtput, hcontext, hturns]
    exact h.shows

/-- The end of a line shows nothing and changes no direction. -/
theorem Shows.lineEnd {p : Piece} (h : e.Shows direction l) (hopen : e.closed = false)
    (hp : p = .newline ∨ p = .paragraphEnd ∨ p = .lineBreak) : (e.wrote [p]).Shows direction l := by
  obtain ⟨ss, hss, hall⟩ := h.shows
  have hinert : p.IsInert := by rcases hp with rfl | rfl | rfl <;> trivial
  have hp' : showPieces ⟨e.contextDir, []⟩ [p] = some ([], ⟨e.contextDir, []⟩) := by
    rcases hp with rfl | rfl | rfl <;> rfl
  refine ⟨{ h.toAgrees with }, h.analyzer, fun _ => hopen, ⟨?_, h.isInert.decorations, h.isInert.stack⟩, ss, ?_, hall⟩
  · rw [output_advance]
    exact List.forall_mem_append.2 ⟨h.isInert.output, List.forall_mem_singleton.2 hinert⟩
  · rw [output_advance]
    simpa using gather_append_of hss hp'

/-- Showing its turns survives all that an emitter does with text and inert formatting. -/
theorem formats_shows (direction : NamedDirection) : Formats Decoration.IsInert fun e l => e.Shows direction l where
  agrees h := h.toAgrees
  open_of_due h := h.open_of_due
  decorations h := h.isInert.decorations
  stack h := h.isInert.stack
  moved _ hd := ⟨hd.value, hd.delimiters⟩
  turn h := h.turn
  lineEnd h := h.lineEnd
  of_agrees h := h.of_agrees

end Emitter

/-! ### Programs -/

mutual

theorem Operation.perform_shows (o : Operation) {e : Emitter} {l : Ledger} {direction : NamedDirection}
    (inside : List Wrapper) (ho : o.leavesDirection = true) (h : e.Shows direction l) :
    Leaves o.perform e (fun _ e' => e'.Shows direction (o.keep inside l)) fun _ _ => True := by
  have hf := Emitter.formats_shows direction
  have hc := hf.coupled (o.keep inside l).turns
  have hall := List.Subset.refl (o.keep inside l).turns
  cases o with
  | write text => exact hf.write inside h text
  | record d => exact hf.record h (of_decide_eq_true ho) inside
  | wrap command delimiters content =>
    obtain ⟨hinert, hcontent⟩ := Bool.and_eq_true_iff.1 ho
    have hstart := of_decide_eq_true hinert
    refine (hf.record h hstart []).bind fun _ e₁ h₁ => Leaves.finishing ?_
    refine (performAll_shows content (inside ++ [⟨command, delimiters⟩]) hcontent h₁).imp (fun _ e₂ h₂ => ?_)
      fun _ e₂ _ => (Leaves.trivial _ e₂).imp (fun _ _ _ => trivial) fun _ _ _ => trivial
    have hend : (Decoration.endInline command delimiters).IsInert := ⟨hstart.value, hstart.delimiters⟩
    exact hf.record h₂ hend []
  | isolated content => exact hf.isolated h fun h' => performAll_shows content [] ho h'
  | beginEnv env options => cases ho
  | endEnv env => cases ho
  | switchDirection direction => exact hc.switchDirection h hall direction
  | assumeDirection direction => cases ho
  | resuming content => cases ho
  | setCoverage latinCoverage => exact hc.setCoverage h hall latinCoverage
  | deepenList n => exact Leaves.of_modify (hc.deepenList h n)
  | deepenToc n => exact Leaves.of_modify (hc.deepenToc h n)
  | paragraphBreak => exact hc.paragraphBreak h hall
  | lineBreak => exact hc.lineBreak h hall
  | envBreak => exact hc.envBreak h hall
  | dirBreak => exact hc.turn h hall
  | resetLine => exact hc.resetLine h
  | flush => exact hf.flush h

/-- Programs that leave the ambient direction alone show their turns, as long as no operation fails. -/
theorem performAll_shows (os : List Operation) {e : Emitter} {l : Ledger} {direction : NamedDirection}
    (inside : List Wrapper) (hos : leaveDirection os = true) (h : e.Shows direction l) :
    Leaves (performAll os) e (fun _ e' => e'.Shows direction (keepAll inside os l)) fun _ _ => True := by
  cases os with
  | nil => exact Leaves.of_pure h
  | cons o os =>
    simp only [leaveDirection, Bool.and_eq_true] at hos
    exact (Operation.perform_shows o inside hos.1 h).bind fun _ e' h' => performAll_shows os inside hos.2 h'

end

theorem Begun.perform_shows (program : Begun) {e : Emitter} {l : Ledger} {direction : NamedDirection}
    (inside : List Wrapper) (hp : program.leavesDirection = true) (h : e.Shows direction l) :
    Leaves program.perform e (fun _ e' => e'.Shows direction (program.keep inside l)) fun _ _ => True := by
  have hf := Emitter.formats_shows direction
  induction program generalizing e l inside with
  | upTo os => exact performAll_shows os inside hp h
  | inWrap os command delimiters content ih =>
    simp only [Begun.leavesDirection, Bool.and_eq_true, decide_eq_true_eq] at hp
    exact (performAll_shows os inside hp.1.1 h).bind fun _ e₁ h₁ => (hf.record h₁ hp.1.2 []).bind fun _ e₂ h₂ =>
      ih (inside ++ [⟨command, delimiters⟩]) hp.2 h₂
  | inIsolated os content ih =>
    simp only [Begun.leavesDirection, Bool.and_eq_true] at hp
    exact (performAll_shows os inside hp.1 h).bind fun _ e₁ h₁ => (hf.enterIsolation h₁).bind fun _ e₂ h₂ =>
      ih [] hp.2 h₂.1

end WikiTypeset.Latex
