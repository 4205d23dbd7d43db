import WikiTypeset.Proofs.Emission.Bearings
import WikiTypeset.Proofs.Emission.Stance

/-!
# The ambient direction changes before the text of a paragraph

An output is gone through with what it has printed since its start, its last blank line, and the last line that begins
or ends an environment. An emitter that takes the paragraph to be still to begin has printed no text since then, and it
changes the ambient direction only there. Fragments do not begin a paragraph, so that a formula or an image may come
before the change. Main statement: `performAll_switches`.
-/

namespace WikiTypeset.Latex

open Action Bidi Emit

/-! ### What has been printed -/

/-- Whether a fragment prints something: a formula or an image. -/
def printsContent (value : String) : Bool :=
  match value.toList with
  | '$' :: _ | '\x7b' :: _ => true
  | s => "\\includegraphics".toList.isPrefixOf s

/-- What has been printed since the start of an output, its last blank line, and the last line of an environment's start
or end. -/
structure Printed where
  lineEmpty : Bool := true
  text : Bool := false
  /-- A formula or an image. -/
  content : Bool := false
  deriving DecidableEq, Repr

/-- What has been printed after a piece. The end of an empty line is a blank line. -/
def Piece.print (s : Printed) (p : Piece) : Printed :=
  match p with
  | .text _ _ => { s with lineEmpty := emptyAfter s.lineEmpty p.latex, text := true }
  | .fragment value =>
    { s with lineEmpty := emptyAfter s.lineEmpty p.latex, content := s.content || printsContent value }
  | .block _ => { lineEmpty := emptyAfter s.lineEmpty p.latex }
  | .newline | .paragraphEnd => if s.lineEmpty then {} else { s with lineEmpty := true }
  | _ => { s with lineEmpty := emptyAfter s.lineEmpty p.latex }

/-- What some pieces have printed. -/
def printed (ps : List Piece) : Printed := ps.foldl Piece.print {}

/-- Before every change of the ambient direction, what has been printed is as `P` says. -/
def SwitchesWhere (P : Printed → Prop) (ps : List Piece) : Prop :=
  ∀ before d after, ps = before ++ .setDirection d :: after → P (printed before)

theorem printed_concat (ps : List Piece) (p : Piece) : printed (ps ++ [p]) = p.print (printed ps) := by
  simp [printed]

section Switches

variable {P : Printed → Prop} {ps qs : List Piece}

theorem switchesWhere_nil : SwitchesWhere P [] := fun _ _ _ h => by simp at h

/-- Pieces that change no direction make no difference. -/
theorem SwitchesWhere.append (h : SwitchesWhere P ps) (hqs : ∀ d, .setDirection d ∉ qs) :
    SwitchesWhere P (ps ++ qs) := by
  intro before d after heq
  rcases List.append_eq_append_iff.1 heq with ⟨between, -, rfl⟩ | ⟨between, hps, hrest⟩
  · exact absurd (by simp) (hqs d)
  · cases between with
    | nil => exact absurd (by rw [← List.nil_append qs, ← hrest]; simp) (hqs d)
    | cons p between =>
      obtain ⟨rfl, -⟩ := List.cons.inj hrest
      exact h before d between hps

theorem SwitchesWhere.concat (h : SwitchesWhere P ps) (hps : P (printed ps)) (d : Direction) :
    SwitchesWhere P (ps ++ [.setDirection d]) := by
  intro before d' after heq
  rcases List.append_eq_append_iff.1 heq with ⟨between, rfl, hrest⟩ | ⟨between, hbefore, hrest⟩
  · cases between with
    | nil => simpa using hps
    | cons p between => simp at hrest
  · cases between with
    | nil =>
      obtain rfl : ps = before := by simpa using hbefore
      exact hps
    | cons p between =>
      obtain ⟨rfl, -⟩ := List.cons.inj hrest
      exact h before d' between hbefore

theorem SwitchesWhere.imp {Q : Printed → Prop} (h : SwitchesWhere P ps) (hPQ : ∀ s, P s → Q s) : SwitchesWhere Q ps :=
  fun before d after heq => hPQ _ (h before d after heq)

theorem SwitchesWhere.and {Q : Printed → Prop} (h : SwitchesWhere P ps) (h' : SwitchesWhere Q ps) :
    SwitchesWhere (fun s => P s ∧ Q s) ps :=
  fun before d after heq => ⟨h before d after heq, h' before d after heq⟩

end Switches

/-- The piece is a stretch of text. -/
def Piece.isText : Piece → Bool
  | .text _ _ => true
  | _ => false

theorem Piece.text_print {p : Piece} (hp : p.isText = false) {s : Printed} (hs : s.text = false) :
    (p.print s).text = false := by
  cases p with
  | text style source => cases hp
  | newline | paragraphEnd =>
    unfold Piece.print
    dsimp only
    split
    · rfl
    · exact hs
  | block value => rfl
  | _ => exact hs

/-- Without text among them, pieces print none. -/
theorem text_printed {ps qs : List Piece} (h : (printed ps).text = false) (hqs : ∀ p ∈ qs, p.isText = false) :
    (printed (ps ++ qs)).text = false := by
  induction qs generalizing ps with
  | nil => simpa using h
  | cons p qs ih =>
    obtain ⟨hp, hqs⟩ := List.forall_mem_cons.1 hqs
    have hone : (printed (ps ++ [p])).text = false := by
      rw [printed_concat]
      exact p.text_print hp h
    simpa using ih hone hqs

/-! ### Text that is written -/

theorem Decoration.isText_pieces (d : Decoration) : ∀ p ∈ d.pieces, p.isText = false := by
  unfold Decoration.pieces
  split <;> simp [Piece.isText]

theorem isText_trailPieces (stack stack' left : List Decoration) :
    ∀ p ∈ trailPieces stack stack' left, p.isText = false := by
  unfold trailPieces
  split
  · nofun
  · simp only [List.forall_mem_append]
    refine ⟨⟨?_, ?_⟩, ?_⟩
    · simp [openPieces, Piece.isText]
    · intro p hp
      obtain ⟨d, -, hp⟩ := List.mem_flatMap.1 hp
      exact d.isText_pieces p hp
    · simp [closePieces, Piece.isText]

/-- Without runs there is no text. -/
theorem isText_setText_nil {style : TextStyle} {text : List Char} {contextDir : NamedDirection}
    {stack stack' ds : List Decoration} {ps : List Piece}
    (h : setText style text contextDir [] stack ds = some (ps, stack')) : ∀ p ∈ ps, p.isText = false := by
  simp only [setText, setRuns, layRuns, Option.bind_eq_bind, Option.bind_some] at h
  obtain ⟨stack'', -, h⟩ := Option.bind_eq_some_iff.1 h
  cases h
  exact isText_trailPieces _ _ _

/-- Whether a piece changes the ambient direction. -/
def Piece.isSwitch : Piece → Bool
  | .setDirection _ => true
  | _ => false

theorem inherits_unswitched : Inherits (fun _ => True) (fun _ => True) (·.isSwitch = false) where
  text _ _ := rfl
  openRun _ := rfl
  closeRun := rfl
  opening _ := rfl
  closing _ := rfl
  pieces {d} _ := by
    unfold Decoration.pieces
    split <;> simp [Piece.isSwitch]
  stacked _ _ := trivial

/-- In a text itself the ambient direction stays. -/
theorem setDirection_not_mem_setText {style : TextStyle} {text : List Char} {contextDir : NamedDirection}
    {runs : List Run} {stack stack' ds : List Decoration} {ps : List Piece}
    (h : setText style text contextDir runs stack ds = some (ps, stack')) (d : Direction) : .setDirection d ∉ ps := by
  intro hd
  cases (inherits_unswitched.setText (fun _ _ => trivial) (fun _ _ => trivial) h).1 _ hd

/-! ### Emitters -/

namespace Emitter

variable {e : Emitter}

/-- As long as the paragraph is still to begin, no text has been printed; and the ambient direction has changed only
where that was so. Where an environment may begin but no paragraph has ended, nothing is held back and a line begins. -/
structure Begins (e : Emitter) : Prop where
  analyzer : e.analyzer = paragraph
  open_of_due : e.isDue = true → e.closed = false
  settled : e.newEnv = true → e.newPara = false → e.IsSettled ∧ (printed e.output).lineEmpty = true
  unprinted : e.startPara = true → (printed e.output).text = false
  switches : SwitchesWhere (·.text = false) e.output

theorem switchFor_nil (e : Emitter) : e.switchFor [] = [] := rfl

/-- Writing out nothing changes nothing. -/
theorem IsSettled.turned_eq (h : e.IsSettled) : e.turned [] e.stack [] = e := by
  cases e
  obtain ⟨rfl, rfl⟩ := h
  simp [turned, carried, splitCarried_eq, settled, advance, switchFor, ambientFor]

theorem IsSettled.perform_writeHeld (h : e.IsSettled) : writeHeld.perform e = (.ok (), e) := by
  rw [perform_writeHeld_of_not_isDue h.isDue_eq, h.turned_eq]

/-- Only what has been written, what is held back and the marks matter. -/
theorem Begins.alike {e' : Emitter} (h : e.Begins) (ha : e.Alike e') (hstart : e'.startPara = true → e.startPara = true)
    (hsettled : e'.newEnv = true → e'.newPara = false → e.newEnv = true ∧ e.newPara = false) : e'.Begins := by
  have houtput : e'.output = e.output := congrArg List.reverse ha.written
  refine ⟨ha.analyzer.trans h.analyzer, fun hdue => ?_, fun hnewEnv hnewPara => ?_, fun hstart' => ?_, ?_⟩
  · rw [ha.closed]
    exact h.open_of_due (ha.isDue_eq ▸ hdue)
  · obtain ⟨henv, hpara⟩ := hsettled hnewEnv hnewPara
    rw [houtput, IsSettled, ha.buffer, ha.decorations]
    exact h.settled henv hpara
  · rw [houtput]
    exact h.unprinted (hstart hstart')
  · rw [houtput]
    exact h.switches

/-- A piece is written that is no text and changes no direction. -/
theorem Begins.wrote (h : e.Begins) (hopen : e.closed = false) {p : Piece} (htext : p.isText = false)
    (hswitch : p.isSwitch = false)
    (hline : e.newEnv = true → e.newPara = false → (p.print (printed e.output)).lineEmpty = true) :
    (e.wrote [p]).Begins := by
  have houtput : (e.wrote [p]).output = e.output ++ [p] := output_advance e _ _ _ _
  refine ⟨h.analyzer, fun _ => hopen, fun henv hpara => ⟨(h.settled henv hpara).1, ?_⟩, fun hstart => ?_, ?_⟩
  · rw [houtput, printed_concat]
    exact hline henv hpara
  · rw [houtput, printed_concat]
    exact p.text_print htext (h.unprinted hstart)
  · rw [houtput]
    refine h.switches.append fun d hd => ?_
    rw [← List.mem_singleton.1 hd] at hswitch
    cases hswitch

/-- A turn with text ends the time in which the direction may change; one without text prints none. -/
theorem Begins.turned (h : e.Begins) {runs : List Run} (hruns : Contiguous 0 runs e.buffer.length) {ps : List Piece}
    {stack' : List Decoration}
    (hset : setText e.style e.buffer (e.ambientFor runs) runs e.stack e.due = some (ps, stack'))
    (hdue : e.isDue = true) : (e.turned ps stack' runs).Begins := by
  have hbusy : e.newEnv = true → e.newPara = false → False := fun henv hpara => by
    cases hdue.symm.trans (h.settled henv hpara).1.isDue_eq
  refine ⟨h.analyzer, fun hd => absurd hd Bool.false_ne_true, fun henv hpara => (hbusy henv hpara).elim, ?_, ?_⟩
  · intro hstart
    have hstart' : e.startPara = true ∧ runs.isEmpty = true := Bool.and_eq_true_iff.1 hstart
    obtain rfl := List.isEmpty_iff.1 hstart'.2
    rw [output_turned, switchFor_nil, List.nil_append]
    exact text_printed (h.unprinted hstart'.1) (isText_setText_nil hset)
  · rw [output_turned, ← List.append_assoc]
    refine SwitchesWhere.append ?_ (setDirection_not_mem_setText hset)
    cases runs with
    | nil => simpa [switchFor_nil] using h.switches
    | cons r runs =>
      by_cases hs : e.switches r.direction = true
      · have hstart := ((e.switches_iff _).1 hs).2.1
        rw [switchFor, switchPieces, if_pos hs]
        exact h.switches.concat (h.unprinted hstart) r.direction
      · rw [switchFor, switchPieces, if_neg hs]
        simpa using h.switches

/-- A turn leaves nothing held back, and does not end a paragraph. -/
theorem Begins.turn (h : e.Begins) :
    Leaves writeHeld e (fun _ e' => e'.Begins ∧ e'.newPara = e.newPara ∧ e'.IsSettled) fun _ _ => True := by
  have hturn : Leaves writeHeld e (fun _ e' => e'.Begins ∧ e'.newPara = e.newPara) fun _ _ => True := by
    refine leaves_writeHeld h.analyzer h.open_of_due (fun hdue hp hset => ?_) fun _ => ?_
    · exact ⟨h.turned (paragraph_partitions hp).contiguous hset hdue, rfl⟩
    · have houtput : (e.turned [] e.stack []).output = e.output := by simp [output_turned, switchFor_nil]
      refine ⟨⟨h.analyzer, fun hd => absurd hd Bool.false_ne_true, fun hnewEnv hnewPara => ⟨⟨rfl, rfl⟩, ?_⟩,
        fun hstart => ?_, ?_⟩, rfl⟩
      · rw [houtput]
        exact (h.settled hnewEnv hnewPara).2
      · rw [houtput]
        exact h.unprinted (Bool.and_eq_true_iff.1 hstart).1
      · rw [houtput]
        exact h.switches
  exact (hturn.and (writeHeld_settles e)).imp (fun _ _ h' => ⟨h'.1.1, h'.1.2, h'.2⟩) fun _ _ _ => trivial

theorem Begins.put (h : e.Begins) {p : Piece} (htext : p.isText = false) (hswitch : p.isSwitch = false)
    (hline : e.newEnv = true → e.newPara = false → (p.print (printed e.output)).lineEmpty = true) :
    Leaves (Emit.put p) e (fun _ e' => e' = e.wrote [p] ∧ e'.Begins) fun _ _ => True :=
  leaves_put p fun hopen => ⟨rfl, h.wrote hopen htext hswitch hline⟩

/-! ### Breaks -/

/-- The end of a line leaves an empty one. -/
theorem lineEmpty_print_newline (s : Printed) : (Piece.newline.print s).lineEmpty = true := by
  unfold Piece.print
  dsimp only
  split <;> rfl

/-- The end of an empty line is a blank line: nothing has been printed since. -/
theorem print_paragraphEnd {s : Printed} (h : s.lineEmpty = true) : Piece.paragraphEnd.print s = {} := by
  simp [Piece.print, h]

theorem Begins.envBreak (h : e.Begins) :
    Leaves Emit.envBreak e (fun _ e' => e'.Begins ∧ e'.newEnv = true ∧ e'.newPara = e.newPara) fun _ _ => True := by
  unfold Emit.envBreak
  refine Leaves.get_bind ?_
  cases hnewEnv : e.newEnv with
  | true => exact Leaves.of_pure ⟨h, hnewEnv, rfl⟩
  | false =>
    refine h.turn.bind fun _ e₁ h₁ => ?_
    obtain ⟨h₁, hpara, hsettled⟩ := h₁
    refine (h₁.put (p := .newline) rfl rfl fun _ _ => lineEmpty_print_newline _).bind fun _ e₂ h₂ => ?_
    obtain ⟨rfl, h₂⟩ := h₂
    have hline : (printed (e₁.wrote [.newline]).output).lineEmpty = true := by
      rw [output_advance, printed_concat]
      exact lineEmpty_print_newline _
    exact Leaves.of_modify ⟨{ h₂ with settled := fun _ _ => ⟨hsettled, hline⟩ }, rfl, hpara⟩

theorem Begins.paragraphBreak (h : e.Begins) :
    Leaves Emit.paragraphBreak e (fun _ e' => e'.Begins) fun _ _ => True := by
  unfold Emit.paragraphBreak
  refine Leaves.get_bind ?_
  cases hnewPara : e.newPara with
  | true => exact Leaves.of_pure h
  | false =>
    refine h.envBreak.bind fun _ e₁ h₁ => ?_
    obtain ⟨h₁, henv, hpara⟩ := h₁
    obtain ⟨hsettled, hline⟩ := h₁.settled henv (hpara.trans hnewPara)
    have hblank := print_paragraphEnd hline
    refine (h₁.put (p := .paragraphEnd) rfl rfl fun _ _ => by rw [hblank]).bind fun _ e₂ h₂ => ?_
    obtain ⟨rfl, h₂⟩ := h₂
    have hprinted : printed (e₁.wrote [.paragraphEnd]).output = {} := by
      rw [output_advance, printed_concat, hblank]
    set e₃ : Emitter := { e₁.wrote [.paragraphEnd] with newPara := true, newLine := true } with he₃
    have hsettled₃ : e₃.IsSettled := hsettled
    refine Leaves.bind (M := fun _ e' => e' = e₃) (Leaves.of_modify rfl) ?_
    rintro _ _ rfl
    -- Nothing is held back, so the turn leaves all as it is.
    refine Leaves.bind (M := fun _ e' => e' = e₃) (Leaves.of_ok hsettled₃.perform_writeHeld rfl) ?_
    rintro _ _ rfl
    refine Leaves.of_modify ⟨h₂.analyzer, h₂.open_of_due, nofun, fun _ => ?_, h₂.switches⟩
    show (printed (e₁.wrote [.paragraphEnd]).output).text = false
    rw [hprinted]

theorem Begins.lineBreak (h : e.Begins) : Leaves Emit.lineBreak e (fun _ e' => e'.Begins) fun _ _ => True := by
  unfold Emit.lineBreak
  refine Leaves.get_bind ?_
  cases e.newLine with
  | true => exact Leaves.of_pure h
  | false =>
    refine h.envBreak.bind fun _ e₁ h₁ => (h₁.1.put (p := .lineBreak) rfl rfl fun _ _ => rfl).bind fun _ e₂ h₂ => ?_
    exact Leaves.of_modify (h₂.2.alike ⟨rfl, rfl, rfl, rfl, rfl, rfl, rfl⟩ id fun henv hpara => ⟨henv, hpara⟩)

theorem Begins.resetLine (h : e.Begins) : Leaves Emit.resetLine e (fun _ e' => e'.Begins) fun _ _ => True :=
  Leaves.of_modify (h.alike ⟨rfl, rfl, rfl, rfl, rfl, rfl, rfl⟩ id nofun)

/-! ### Content -/

/-- Where something has been recorded, breaks have an effect again. -/
theorem Begins.touched (h : e.Begins) : e.touched.Begins := h.alike ⟨rfl, rfl, rfl, rfl, rfl, rfl, rfl⟩ id nofun

theorem Begins.record (h : e.Begins) (d : Decoration) :
    Leaves (Emit.record d) e (fun _ e' => e'.Begins) fun _ _ => True :=
  leaves_record d fun hopen => ⟨h.analyzer, fun _ => hopen, nofun, h.unprinted, h.switches⟩

theorem Begins.write (h : e.Begins) (text : List Char) :
    Leaves (Emit.write text) e (fun _ e' => e'.Begins) fun _ _ => True := by
  refine leaves_extend text fun hopen => ?_
  have hextended : ∀ {e' : Emitter} (s : List Char), e'.Begins → e'.closed = false → e'.newEnv = false →
      (e'.extended s).Begins := by
    intro e' s h' hopen' hnewEnv
    refine ⟨h'.analyzer, fun _ => hopen', fun henv => ?_, h'.unprinted, h'.switches⟩
    cases hnewEnv.symm.trans henv
  by_cases hbreak : (e.newEnv || e.newLine || e.newPara) = true
  · rw [if_pos hbreak]
    by_cases hblank : (text.dropWhile isSpace).isEmpty = true
    · rwa [if_pos hblank]
    · rw [if_neg hblank]
      exact hextended _ h.touched hopen rfl
  · rw [if_neg hbreak]
    have hnewEnv : e.newEnv = false := by
      cases he : e.newEnv with
      | false => rfl
      | true => simp [he] at hbreak
    exact hextended _ h hopen hnewEnv

theorem Begins.wrap (h : e.Begins) (command : String) (delimiters : Delimiters) {content : Emit Unit}
    (hcontent : ∀ {e'}, e'.Begins → Leaves content e' (fun _ e'' => e''.Begins) fun _ _ => True) :
    Leaves (Emit.wrap command content delimiters) e (fun _ e' => e'.Begins) fun _ _ => True := by
  refine (h.record _).bind fun _ e₁ h₁ => Leaves.finishing ?_
  refine (hcontent h₁).imp (fun _ e₂ h₂ => h₂.record _) fun _ e₂ _ => ?_
  exact (Leaves.trivial _ e₂).imp (fun _ _ _ => trivial) fun _ _ _ => trivial

/-- Other formatting may be open. -/
theorem Begins.exchange (h : e.Begins) (stack : List Decoration) : { e with stack := stack }.Begins :=
  ⟨h.analyzer, h.open_of_due, h.settled, h.unprinted, h.switches⟩

theorem Begins.isolated (h : e.Begins) {content : Emit Unit}
    (hcontent : ∀ {e'}, e'.Begins → Leaves content e' (fun _ e'' => e''.Begins) fun _ _ => True) :
    Leaves (Emit.isolated content) e (fun _ e' => e'.Begins) fun _ _ => True := by
  have henter : Leaves enterIsolation e (fun _ e' => e'.Begins) fun _ _ => True := by
    refine h.turn.bind fun _ e₁ h₁ => Leaves.get_bind ?_
    refine Leaves.bind (Leaves.of_modify (P := fun _ e' => e'.Begins) (h₁.1.exchange [])) fun _ e₂ h₂ => ?_
    exact Leaves.of_pure h₂
  refine henter.bind fun saved e₁ h₁ => Leaves.finishing ?_
  have hchecked : Leaves (content >>= fun _ => checkIsolation) e₁ (fun _ e' => e'.Begins) fun _ _ => True := by
    refine (hcontent h₁).bind fun _ e₂ h₂ => h₂.turn.bind fun _ e₃ h₃ => Leaves.get_bind ?_
    dsimp only
    split
    · exact Leaves.of_pure h₃.1
    · exact Leaves.of_throw trivial
  exact hchecked.imp (fun _ e₂ h₂ => Leaves.of_modify (h₂.exchange saved)) fun _ _ _ => Leaves.of_modify trivial

theorem Begins.block (h : e.Begins) (d : Decoration) :
    Leaves (writeBlock d) e (fun _ e' => e'.Begins) fun _ _ => True := by
  refine h.envBreak.bind fun _ _ h₁ => h₁.1.isolated fun h₂ => (h₂.record d).bind fun _ _ h₃ => ?_
  exact h₃.envBreak.imp_left fun _ _ h' => h'.1

/-! ### Direction and fonts -/

theorem Begins.assumeDirection (h : e.Begins) (direction : NamedDirection) :
    Leaves (Emit.assumeDirection direction) e (fun _ e' => e'.Begins) fun _ _ => True := by
  refine h.turn.bind fun _ e₁ h₁ => Leaves.of_modify ?_
  obtain ⟨h₁, -, hsettled⟩ := h₁
  set e₂ : Emitter := { e₁ with contextDir := direction, written := .assumeDirection direction :: e₁.written }
  have hdue : e₂.isDue = false := IsSettled.isDue_eq hsettled
  have houtput : e₂.output = e₁.output ++ [.assumeDirection direction] := List.reverse_cons
  -- A note has no characters.
  have hprinted : printed e₂.output = printed e₁.output := by
    rw [houtput, printed_concat]
    rfl
  refine ⟨h₁.analyzer, fun hd => ?_, ?_, ?_, ?_⟩
  · cases hdue.symm.trans hd
  · rw [hprinted]
    exact h₁.settled
  · rw [hprinted]
    exact h₁.unprinted
  · rw [houtput]
    exact h₁.switches.append (by simp)

theorem Begins.flush (h : e.Begins) : Leaves Emit.flush e (fun _ e' => e'.Begins) fun _ _ => True := by
  refine h.envBreak.bind fun _ e₁ h₁ => h₁.1.turn.bind fun _ e₂ h₂ => Leaves.get_bind ?_
  obtain ⟨h₂, -, hsettled⟩ := h₂
  dsimp only
  split
  · have hdue : ({ e₂ with closed := true } : Emitter).isDue = false := IsSettled.isDue_eq hsettled
    exact Leaves.of_modify { h₂ with open_of_due := fun hd => by cases hdue.symm.trans hd }
  · exact Leaves.of_throw trivial

end Emitter

/-! ### Programs -/

mutual

theorem Operation.perform_begins (o : Operation) {e : Emitter} (h : e.Begins) :
    Leaves o.perform e (fun _ e' => e'.Begins) fun _ _ => True := by
  cases o with
  | write text => exact h.write text
  | record d => exact h.record d
  | wrap command delimiters content => exact h.wrap command delimiters fun h' => performAll_begins content h'
  | isolated content => exact h.isolated fun h' => performAll_begins content h'
  | beginEnv env options => exact (h.block _).bind fun _ e' h' => h'.resetLine
  | endEnv env =>
    exact (h.block _).bind fun _ e' h' => Leaves.of_modify (h'.alike ⟨rfl, rfl, rfl, rfl, rfl, rfl, rfl⟩ id nofun)
  | switchDirection direction =>
    refine h.turn.bind fun _ e' h' => Leaves.of_modify ?_
    exact h'.1.alike ⟨rfl, rfl, rfl, rfl, rfl, rfl, rfl⟩ id fun henv hpara => ⟨henv, hpara⟩
  | assumeDirection direction => exact h.assumeDirection direction
  | resuming content =>
    refine Leaves.get_bind ?_
    exact (performAll_begins content h).bind fun _ e' h' => h'.assumeDirection _
  | setCoverage latinCoverage =>
    refine h.turn.bind fun _ e' h' => Leaves.of_modify ?_
    exact h'.1.alike ⟨rfl, rfl, rfl, rfl, rfl, rfl, rfl⟩ id fun henv hpara => ⟨henv, hpara⟩
  | deepenList n =>
    exact Leaves.of_modify (h.alike ⟨rfl, rfl, rfl, rfl, rfl, rfl, rfl⟩ id fun henv hpara => ⟨henv, hpara⟩)
  | deepenToc n =>
    exact Leaves.of_modify (h.alike ⟨rfl, rfl, rfl, rfl, rfl, rfl, rfl⟩ id fun henv hpara => ⟨henv, hpara⟩)
  | paragraphBreak => exact h.paragraphBreak
  | lineBreak => exact h.lineBreak
  | envBreak => exact h.envBreak.imp_left fun _ _ h' => h'.1
  | dirBreak => exact h.turn.imp_left fun _ _ h' => h'.1
  | resetLine => exact h.resetLine
  | flush => exact h.flush

theorem performAll_begins (os : List Operation) {e : Emitter} (h : e.Begins) :
    Leaves (performAll os) e (fun _ e' => e'.Begins) fun _ _ => True := by
  cases os with
  | nil => exact Leaves.of_pure h
  | cons o os => exact (Operation.perform_begins o h).bind fun _ e' h' => performAll_begins os h'

end

theorem start_begins (direction : NamedDirection) : (Emitter.start direction).Begins :=
  ⟨rfl, nofun, nofun, fun _ => rfl, switchesWhere_nil⟩

/-- Whatever the program, as long as no operation fails: between a change of the ambient direction and the last blank
line, the last start or end of an environment, or else the start of the output, no text is printed. -/
theorem performAll_switches (direction : NamedDirection) (program : List Operation) :
    Leaves (performAll program) (Emitter.start direction) (fun _ e => SwitchesWhere (·.text = false) e.output)
      fun _ _ => True :=
  (performAll_begins program (start_begins direction)).imp_left fun _ _ h => h.switches

end WikiTypeset.Latex
