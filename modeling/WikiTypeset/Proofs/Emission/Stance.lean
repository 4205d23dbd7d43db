import WikiTypeset.Proofs.Emission.Following
import WikiTypeset.Proofs.Emission.Footing
import WikiTypeset.Proofs.Emission.Shown

/-!
# Where a program stands

A stance follows a program of operations without writing anything: it keeps the marks that decide where breaks take
effect, the footing that the output has once all that is held back is written, and the landmarks of the layout. The
start of formatting changes the marks only. The emitter stands where the program does: this is kept up by every
operation, also inside the content of another one. Main statement: `Begun.perform_stands`.
-/

namespace WikiTypeset.Latex

open Action Bidi Emit

/-! ### Stances -/

/-- Where a program stands. -/
structure Stance where
  newEnv : Bool := true
  newLine : Bool := true
  newPara : Bool := true
  footing : Footing := {}
  landmarks : List Landmark := []
  deriving DecidableEq, Repr

namespace Stance

/-- Something has been recorded: breaks have an effect again. -/
def touched (s : Stance) : Stance := { s with newEnv := false, newLine := false, newPara := false }

/-- There is text, or formatting has ended. -/
def amid (s : Stance) : Stance := { s.touched with footing := .amid }

/-- There is a fragment. Inside formatting the line goes on after it. -/
def fragment (s : Stance) (inside : Bool) (value : String) : Stance :=
  { s.touched with
    footing := if inside then .amid else s.footing.after value.toList
    landmarks := s.landmarks ++ [.fragment value] }

/-- A piece is written at once. -/
def put (s : Stance) (p : Piece) : Stance :=
  { s with footing := p.footing s.footing, landmarks := s.landmarks ++ p.landmarks s.footing }

/-- The place becomes one where an environment may begin or end. -/
def envBreak (s : Stance) : Stance := if s.newEnv then s else { s.put .newline with newEnv := true }

/-- The paragraph ends. -/
def paragraphBreak (s : Stance) : Stance :=
  if s.newPara then s else { s.envBreak.put .paragraphEnd with newPara := true, newLine := true }

/-- The line ends. -/
def lineBreak (s : Stance) : Stance := if s.newLine then s else { s.envBreak.put .lineBreak with newLine := true }

/-- The place counts as the start of a line, a paragraph and an environment. -/
def resetLine (s : Stance) : Stance := { s with newEnv := true, newLine := true, newPara := true }

/-- A block stands on a line of its own. -/
def block (s : Stance) (value : String) : Stance := (s.envBreak.put (.block value)).touched.envBreak

/-- Nothing but blanks has come since a break. -/
def atBreak (s : Stance) : Bool := s.newEnv || s.newLine || s.newPara

/-- Text comes; blanks after a break are nothing. -/
def write (s : Stance) (text : List Char) : Stance :=
  if (if s.atBreak then text.dropWhile isSpace else text).isEmpty then s else s.amid

theorem touched_of_not_atBreak (s : Stance) (hs : s.atBreak = false) : s.touched = s := by
  obtain ⟨newEnv, newLine, newPara, footing, landmarks⟩ := s
  simp only [atBreak, Bool.or_eq_false_iff] at hs
  simp [touched, hs]

theorem block_eq (s : Stance) (value : String) : s.block value =
    { (s.envBreak.put (.block value)).touched.put .newline with newEnv := true } := by
  rw [block, envBreak]
  exact if_neg Bool.false_ne_true

end Stance

mutual

/-- The stance after an operation; `inside` says whether formatting is open. -/
def Operation.stand (inside : Bool) : Operation → Stance → Stance
  | .write text, s => s.write text
  | .record d, s => s.fragment inside d.value
  | .wrap _ _ content, s => (standAll true content s.touched).amid
  | .isolated content, s => standAll false content s
  | .beginEnv env options, s => (s.block (beginCommand env options)).resetLine
  | .endEnv env, s => { s.block (endCommand env) with newLine := true, newPara := true }
  | .resuming content, s => standAll inside content s
  | .paragraphBreak, s => s.paragraphBreak
  | .lineBreak, s => s.lineBreak
  | .envBreak, s | .flush, s => s.envBreak
  | .resetLine, s => s.resetLine
  | .switchDirection _, s | .assumeDirection _, s | .setCoverage _, s | .deepenList _, s | .deepenToc _, s
  | .dirBreak, s => s

/-- The stance after a program. -/
def standAll (inside : Bool) : List Operation → Stance → Stance
  | [], s => s
  | o :: os, s => standAll inside os (o.stand inside s)

end

/-- The stance of a program as far as it has come. -/
def Begun.stand (inside : Bool) : Begun → Stance → Stance
  | upTo os, s => standAll inside os s
  | inWrap os _ _ content, s => content.stand true (standAll inside os s).touched
  | inIsolated os content, s => content.stand false (standAll inside os s)

mutual

/-- Whether an operation records fragments only, and its delimiters are visible and do not end a line. -/
def Operation.isSet : Operation → Bool
  | .record d => d.kind = .raw && decide d.delimiters.OnLine
  | .wrap _ delimiters content => decide delimiters.OnLine && areSet content
  | .isolated content | .resuming content => areSet content
  | _ => true

/-- Whether all operations of a program do so. -/
def areSet : List Operation → Bool
  | [] => true
  | o :: os => o.isSet && areSet os

end

/-- Whether all operations of a program do so, as far as it has come. -/
def Begun.isSet : Begun → Bool
  | upTo os => areSet os
  | inWrap os _ delimiters content => areSet os && decide delimiters.OnLine && content.isSet
  | inIsolated os content => areSet os && content.isSet

theorem standAll_append (inside : Bool) (os os' : List Operation) (s : Stance) :
    standAll inside (os ++ os') s = standAll inside os' (standAll inside os s) := by
  induction os generalizing s with
  | nil => rfl
  | cons o os ih => exact ih (o.stand inside s)

theorem areSet_append (os os' : List Operation) : areSet (os ++ os') = (areSet os && areSet os') := by
  induction os with
  | nil => rfl
  | cons o os ih => simp [areSet, ih, Bool.and_assoc]

/-! ### Emitters that stand where a program does -/

theorem unbroken_collapseBlanks (afterBlank : Bool) (s : List Char) : Unbroken (collapseBlanks afterBlank s) := by
  have hspace : Unbroken [' '] := by decide
  induction s generalizing afterBlank with
  | nil => nofun
  | cons c s ih =>
    rw [collapseBlanks]
    by_cases hc : isSpace c = true
    · rw [if_pos hc]
      split
      · exact ih true
      · exact hspace.append (ih true)
    · rw [if_neg hc]
      refine List.forall_mem_cons.2 ⟨⟨?_, ?_⟩, ih false⟩
      · rintro rfl
        exact hc (by decide)
      · rintro rfl
        exact hc (by decide)

theorem collapseBlanks_isEmpty (s : List Char) : (collapseBlanks false s).isEmpty = s.isEmpty := by
  cases s with
  | nil => rfl
  | cons c s =>
    rw [collapseBlanks]
    by_cases hc : isSpace c = true
    · simp [hc]
    · simp [hc]

namespace Emitter

variable {e : Emitter} {s s' : Stance} {stack stack' : List Decoration}

/-- The emitter stands where a program does: what it has written, followed by what it still holds, has the landmarks of
the program, and the same formatting is open. Where a break would be written at once, nothing is held back. -/
structure Stands (e : Emitter) (stack : List Decoration) (s : Stance) : Prop where
  analyzer : e.analyzer = paragraph
  ordered : Ordered 0 e.decorations e.buffer.length
  open_of_due : e.isDue = true → e.closed = false
  unbroken : Unbroken e.buffer
  recordedOnLine : ∀ d ∈ e.decorations, d.delimiters.OnLine
  openOnLine : ∀ d ∈ e.stack, d.delimiters.OnLine
  newEnv : e.newEnv = s.newEnv
  newLine : e.newLine = s.newLine
  newPara : e.newPara = s.newPara
  settled : s.newEnv = true → (s.newLine && s.newPara) = false → e.buffer = [] ∧ e.decorations = []
  lies : ∃ ms f held, layPieces {} e.output = some (ms, f) ∧
    layTokens (f, e.stack) e.tokens = some (held, s.footing, stack) ∧ s.landmarks = ms ++ held

/-- Nothing is held back. -/
def IsSettled (e : Emitter) : Prop := e.buffer = [] ∧ e.decorations = []

theorem IsSettled.tokens_eq (h : e.IsSettled) : e.tokens = [] := by
  rw [tokens, h.1, h.2]
  rfl

theorem IsSettled.isDue_eq (h : e.IsSettled) : e.isDue = false := by
  simp [isDue, due, splitCarried_eq, h.1, h.2]

theorem lay_carried {pos : Nat} {carried : List Decoration} (h : ∀ d ∈ carried, opensAt pos d = true) (f : Footing)
    (stack : List Decoration) :
    layTokens (f, stack) (carried.map .mark) = some ([], f, carried.reverse ++ stack) := by
  induction carried generalizing stack with
  | nil => rfl
  | cons d carried ih =>
    have hk : d.kind = .startInline := by
      have := h d (by simp)
      simp only [opensAt, Bool.and_eq_true, decide_eq_true_eq] at this
      exact this.1
    have hd : Token.lay (f, stack) (.mark d) = some ([], f, d :: stack) := by simp [Token.lay, hk]
    rw [List.reverse_cons, List.append_assoc]
    exact gather_cons _ hd (ih (fun x hx => h x (by simp [hx])) (d :: stack))

/-- A change of the ambient direction shows nothing, and is made only before characters. -/
theorem lay_switchFor (e : Emitter) (runs : List Run) (f : Footing) :
    ∃ g, layPieces f (e.switchFor runs) = some ([], g) ∧ (runs = [] → g = f) := by
  cases runs with
  | nil => exact ⟨f, rfl, fun _ => rfl⟩
  | cons r runs =>
    have hsome : r :: runs ≠ [] := List.cons_ne_nil r runs
    by_cases hs : e.switches r.direction = true
    · rw [switchFor, switchPieces, if_pos hs]
      exact ⟨_, lay_piece f _, fun h => absurd h hsome⟩
    · rw [switchFor, switchPieces, if_neg hs]
      exact ⟨f, rfl, fun h => absurd h hsome⟩

/-- What is due does not end in the start of formatting. -/
theorem not_opensAt_last_due (e : Emitter) : ∀ d ∈ e.due.getLast?, opensAt e.buffer.length d = false := by
  intro d hd
  rw [due, splitCarried_eq, List.getLast?_reverse] at hd
  have hnot := List.head?_dropWhile_not (opensAt e.pos) e.decorations.reverse
  rw [Option.mem_def.1 hd] at hnot
  exact hnot

/-- A turn writes what was held back where it stands. -/
theorem Stands.turned (h : e.Stands stack s) {runs : List Run} (hruns : Contiguous 0 runs e.buffer.length)
    {ps : List Piece} (hset : setText e.style e.buffer (e.ambientFor runs) runs e.stack e.due = some (ps, stack')) :
    (e.turned ps stack' runs).Stands stack s := by
  obtain ⟨ms, f, held, hwritten, hheld, hlandmarks⟩ := h.lies
  have hdue : Ordered 0 e.due e.buffer.length := (e.due_append_carried ▸ h.ordered).of_append
  have hdueLine : ∀ d ∈ e.due, d.delimiters.OnLine := fun d hd =>
    h.recordedOnLine d (e.due_append_carried ▸ List.mem_append_left _ hd)
  have hcarriedLine : ∀ d ∈ e.carried.reverse, d.delimiters.OnLine := fun d hd =>
    h.recordedOnLine d (e.due_append_carried ▸ List.mem_append_right _ (List.mem_reverse.1 hd))
  rw [tokens_eq_due h.ordered] at hheld
  obtain ⟨first, ⟨f₁, s₁⟩, rest, hfirst, hrest, rfl⟩ := gather_append_inv hheld
  rw [show gather Token.lay (f₁, s₁) _ = _ from lay_carried (fun _ => opensAt_of_mem_carried) f₁ s₁] at hrest
  cases hrest
  obtain ⟨g, hswitch, hg⟩ := e.lay_switchFor runs f
  obtain ⟨hpieces, rfl⟩ := lay_setText e.style h.unbroken (e.ambientFor runs) hruns hdue hdueLine h.openOnLine
    e.not_opensAt_last_due hset hfirst hg
  have hstack' : ∀ d ∈ stack', d.delimiters.OnLine := (inherits_onLine.setText hdueLine h.openOnLine hset).2
  refine ⟨h.analyzer, Nat.le_refl _, fun hdue => absurd hdue Bool.false_ne_true, List.forall_mem_nil _,
    List.forall_mem_nil _, List.forall_mem_append.2 ⟨hcarriedLine, hstack'⟩, h.newEnv, h.newLine, h.newPara,
    fun _ _ => ⟨rfl, rfl⟩, ms ++ ([] ++ first), s.footing, [], ?_, rfl, by simpa using hlandmarks⟩
  rw [output_turned]
  exact gather_append_of hwritten (gather_append_of hswitch hpieces)

theorem Stands.turn (h : e.Stands stack s) :
    Leaves writeHeld e (fun _ e' => e'.Stands stack s ∧ e'.IsSettled) fun _ _ => True := by
  have hturn : Leaves writeHeld e (fun _ e' => e'.Stands stack s) fun _ _ => True := by
    refine leaves_writeHeld h.analyzer h.open_of_due (fun _ hp hset => ?_) fun hnot => ?_
    · exact h.turned (paragraph_partitions hp).contiguous hset
    · obtain ⟨hbuffer, hdue⟩ : e.buffer = [] ∧ e.due = [] := by simpa [isDue] using hnot
      have hnothing : Contiguous 0 [] e.buffer.length := by rw [hbuffer]; rfl
      refine @Stands.turned e s stack e.stack h [] hnothing [] ?_
      rw [hdue]
      exact setText_nil _ _ _ _
  exact (hturn.and (writeHeld_settles e)).imp (fun _ _ h' => h') fun _ _ _ => trivial

/-- With nothing held back, what has been written is where the program stands. -/
theorem Stands.written (h : e.Stands stack s) (hsettled : e.IsSettled) :
    layPieces {} e.output = some (s.landmarks, s.footing) ∧ e.stack = stack := by
  obtain ⟨ms, f, held, hwritten, hheld, hlandmarks⟩ := h.lies
  rw [hsettled.tokens_eq] at hheld
  cases hheld
  rw [hlandmarks, List.append_nil]
  exact ⟨hwritten, rfl⟩

/-- Emitters that differ in their marks and settings only. -/
theorem Stands.alike {e' : Emitter} (h : e.Stands stack s) (ha : e.Alike e') (hfooting : s'.footing = s.footing)
    (hlandmarks : s'.landmarks = s.landmarks) (hnewEnv : e'.newEnv = s'.newEnv) (hnewLine : e'.newLine = s'.newLine)
    (hnewPara : e'.newPara = s'.newPara)
    (hsettled : s'.newEnv = true → (s'.newLine && s'.newPara) = false → e.IsSettled) : e'.Stands stack s' := by
  obtain ⟨ms, f, held, hwritten, hheld, hms⟩ := h.lies
  have houtput : e'.output = e.output := congrArg List.reverse ha.written
  have htokens : e'.tokens = e.tokens := by rw [Emitter.tokens, Emitter.tokens, ha.buffer, ha.decorations]
  refine ⟨ha.analyzer.trans h.analyzer, ?_, fun hdue => ?_, ?_, ?_, ?_, hnewEnv, hnewLine, hnewPara, ?_, ms, f, held, ?_⟩
  · rw [ha.decorations, ha.buffer]
    exact h.ordered
  · rw [ha.closed]
    exact h.open_of_due (ha.isDue_eq ▸ hdue)
  · rw [ha.buffer]
    exact h.unbroken
  · rw [ha.decorations]
    exact h.recordedOnLine
  · rw [ha.stack]
    exact h.openOnLine
  · rw [ha.buffer, ha.decorations]
    exact hsettled
  · rw [houtput, htokens, ha.stack, hfooting, hlandmarks]
    exact ⟨hwritten, hheld, hms⟩

/-- A piece is written where nothing is held back. -/
theorem Stands.wrote (h : e.Stands stack s) (hsettled : e.IsSettled) (p : Piece) :
    (e.wrote [p]).Stands stack (s.put p) ∧ (e.wrote [p]).IsSettled := by
  obtain ⟨hwritten, rfl⟩ := h.written hsettled
  have hdue : (e.wrote [p]).isDue = false := IsSettled.isDue_eq hsettled
  have htokens : (e.wrote [p]).tokens = [] := IsSettled.tokens_eq hsettled
  refine ⟨⟨h.analyzer, h.ordered, fun hd => ?_, h.unbroken, h.recordedOnLine, h.openOnLine, h.newEnv, h.newLine, h.newPara,
    fun _ _ => hsettled, (s.put p).landmarks, (s.put p).footing, [], ?_, ?_, (List.append_nil _).symm⟩, hsettled⟩
  · cases hdue.symm.trans hd
  · rw [output_advance]
    exact gather_append_of hwritten (lay_piece s.footing p)
  · rw [htokens]
    rfl

theorem Stands.put (h : e.Stands stack s) (hsettled : e.IsSettled) (p : Piece) :
    Leaves (Emit.put p) e (fun _ e' => e'.Stands stack (s.put p) ∧ e'.IsSettled) fun _ _ => True :=
  leaves_put p fun _ => h.wrote hsettled p

/-! ### Breaks -/

theorem Stands.envBreak (h : e.Stands stack s) :
    Leaves Emit.envBreak e (fun _ e' => e'.Stands stack s.envBreak ∧ (s.newEnv = false → e'.IsSettled))
      fun _ _ => True := by
  unfold Emit.envBreak
  refine Leaves.get_bind ?_
  rw [h.newEnv]
  cases hs : s.newEnv with
  | true =>
    have hsame : s.envBreak = s := by simp [Stance.envBreak, hs]
    rw [hsame]
    exact Leaves.of_pure ⟨h, nofun⟩
  | false =>
    have henv : s.envBreak = { s.put .newline with newEnv := true } := by simp [Stance.envBreak, hs]
    rw [henv]
    refine h.turn.bind fun _ e₁ h₁ => (h₁.1.put h₁.2 .newline).bind fun _ e₂ h₂ => Leaves.of_modify ⟨?_, fun _ => h₂.2⟩
    exact h₂.1.alike ⟨rfl, rfl, rfl, rfl, rfl, rfl, rfl⟩ rfl rfl rfl h₂.1.newLine h₂.1.newPara fun _ _ => h₂.2

theorem newEnv_envBreak (s : Stance) : s.envBreak.newEnv = true := by
  unfold Stance.envBreak
  split
  · assumption
  · rfl

theorem newLine_envBreak (s : Stance) : s.envBreak.newLine = s.newLine := by
  unfold Stance.envBreak
  split <;> rfl

theorem newPara_envBreak (s : Stance) : s.envBreak.newPara = s.newPara := by
  unfold Stance.envBreak
  split <;> rfl

/-- Where a break takes effect, a place for an environment leaves nothing held back. -/
theorem Stands.isSettled_envBreak (h : e.Stands stack s.envBreak) (hs : (s.newLine && s.newPara) = false) :
    e.IsSettled := by
  refine h.settled (newEnv_envBreak s) ?_
  rw [newLine_envBreak, newPara_envBreak]
  exact hs

theorem Stands.paragraphBreak (h : e.Stands stack s) :
    Leaves Emit.paragraphBreak e (fun _ e' => e'.Stands stack s.paragraphBreak) fun _ _ => True := by
  unfold Emit.paragraphBreak
  refine Leaves.get_bind ?_
  rw [h.newPara]
  cases hs : s.newPara with
  | true =>
    have hsame : s.paragraphBreak = s := by simp [Stance.paragraphBreak, hs]
    rw [hsame]
    exact Leaves.of_pure h
  | false =>
    have hpara : s.paragraphBreak = { s.envBreak.put .paragraphEnd with newPara := true, newLine := true } := by
      simp [Stance.paragraphBreak, hs]
    rw [hpara]
    refine h.envBreak.bind fun _ e₁ h₁ => ?_
    refine (h₁.1.put (h₁.1.isSettled_envBreak (by simp [hs])) .paragraphEnd).bind fun _ e₂ h₂ => ?_
    have hmarked : { e₂ with newPara := true, newLine := true }.Stands stack
        { s.envBreak.put .paragraphEnd with newPara := true, newLine := true } :=
      h₂.1.alike ⟨rfl, rfl, rfl, rfl, rfl, rfl, rfl⟩ rfl rfl h₂.1.newEnv rfl rfl fun _ _ => h₂.2
    refine Leaves.bind (M := fun _ e₃ => e₃.Stands stack
      { s.envBreak.put .paragraphEnd with newPara := true, newLine := true }) (Leaves.of_modify hmarked) fun _ e₃ h₃ => ?_
    refine h₃.turn.bind fun _ e₄ h₄ => Leaves.of_modify ?_
    exact h₄.1.alike ⟨rfl, rfl, rfl, rfl, rfl, rfl, rfl⟩ rfl rfl h₄.1.newEnv h₄.1.newLine h₄.1.newPara fun _ _ => h₄.2

theorem Stands.lineBreak (h : e.Stands stack s) :
    Leaves Emit.lineBreak e (fun _ e' => e'.Stands stack s.lineBreak) fun _ _ => True := by
  unfold Emit.lineBreak
  refine Leaves.get_bind ?_
  rw [h.newLine]
  cases hs : s.newLine with
  | true =>
    have hsame : s.lineBreak = s := by simp [Stance.lineBreak, hs]
    rw [hsame]
    exact Leaves.of_pure h
  | false =>
    have hline : s.lineBreak = { s.envBreak.put .lineBreak with newLine := true } := by simp [Stance.lineBreak, hs]
    rw [hline]
    refine h.envBreak.bind fun _ e₁ h₁ => ?_
    refine (h₁.1.put (h₁.1.isSettled_envBreak (by simp [hs])) .lineBreak).bind fun _ e₂ h₂ => Leaves.of_modify ?_
    exact h₂.1.alike ⟨rfl, rfl, rfl, rfl, rfl, rfl, rfl⟩ rfl rfl h₂.1.newEnv rfl h₂.1.newPara fun _ _ => h₂.2

theorem Stands.resetLine (h : e.Stands stack s) :
    Leaves Emit.resetLine e (fun _ e' => e'.Stands stack s.resetLine) fun _ _ => True :=
  Leaves.of_modify (h.alike ⟨rfl, rfl, rfl, rfl, rfl, rfl, rfl⟩ rfl rfl rfl rfl rfl fun _ hmarks => by cases hmarks)

/-! ### Content -/

theorem Stands.recorded {f : Footing} {ms : List Landmark} (h : e.Stands stack s) (hopen : e.closed = false)
    {d : Decoration} (hd : d.delimiters.OnLine)
    (hlay : Token.lay (s.footing, stack) (.mark { d with pos := e.pos }) = some (ms, f, stack')) :
    (e.recorded d).Stands stack' { s.touched with footing := f, landmarks := s.landmarks ++ ms } := by
  obtain ⟨written, g, held, hwritten, hheld, hlandmarks⟩ := h.lies
  have hordered : Ordered 0 (e.recorded d).decorations (e.recorded d).buffer.length := h.ordered.append rfl
  have honLine : ∀ x ∈ (e.recorded d).decorations, x.delimiters.OnLine :=
    List.forall_mem_append.2 ⟨h.recordedOnLine, List.forall_mem_singleton.2 hd⟩
  refine ⟨h.analyzer, hordered, fun _ => hopen, h.unbroken, honLine, h.openOnLine, rfl, rfl, rfl, nofun, written, g,
    held ++ ms, hwritten, ?_, by rw [hlandmarks, List.append_assoc]⟩
  rw [tokens_recorded h.ordered]
  exact gather_append_of hheld ((gather_singleton _).trans hlay)

/-- The start of formatting goes onto the stack, and stands for nothing yet. -/
theorem Stands.recordStart (h : e.Stands stack s) (command : String) {delimiters : Delimiters}
    (hd : delimiters.OnLine) :
    Leaves (Emit.record (.startInline command delimiters)) e
      (fun _ e' => ∃ d : Decoration, d.value = command ∧ e'.Stands (d :: stack) s.touched) fun _ _ => True := by
  refine leaves_record _ fun hopen => ?_
  have hrecorded := h.recorded (d := .startInline command delimiters) hopen hd rfl
  rw [List.append_nil] at hrecorded
  exact ⟨_, rfl, hrecorded⟩

theorem Stands.recordEnd {d : Decoration} {command : String} (h : e.Stands (d :: stack) s) (hvalue : d.value = command)
    {delimiters : Delimiters} (hd : delimiters.OnLine) :
    Leaves (Emit.record (.endInline command delimiters)) e (fun _ e' => e'.Stands stack s.amid) fun _ _ => True := by
  refine leaves_record _ fun hopen => ?_
  have hlay : Token.lay (s.footing, d :: stack) (.mark { Decoration.endInline command delimiters with pos := e.pos }) =
      some ([], .amid, stack) := by
    simp [Token.lay, Decoration.endInline, Decoration.after?, hvalue]
  have hrecorded := h.recorded (d := .endInline command delimiters) hopen hd hlay
  rwa [List.append_nil] at hrecorded

theorem Stands.recordFragment (h : e.Stands stack s) {d : Decoration} (hk : d.kind = .raw) (hd : d.delimiters.OnLine) :
    Leaves (Emit.record d) e (fun _ e' => e'.Stands stack (s.fragment (!stack.isEmpty) d.value)) fun _ _ => True := by
  refine leaves_record d fun hopen => ?_
  have hlay : Token.lay (s.footing, stack) (.mark { d with pos := e.pos }) =
      some ([.fragment d.value], if !stack.isEmpty then .amid else s.footing.after d.value.toList, stack) := by
    cases stack <;> simp [Token.lay, hk]
  exact h.recorded hopen hd hlay

/-- More text comes where no break would be written at once. -/
theorem Stands.extended (h : e.Stands stack s) (hopen : e.closed = false) (hs : s.newEnv = false) {t : List Char}
    (ht : Unbroken t) :
    (e.extended t).Stands stack { s with footing := if t.isEmpty then s.footing else .amid } := by
  obtain ⟨written, f, held, hwritten, hheld, hlandmarks⟩ := h.lies
  have hordered : Ordered 0 (e.extended t).decorations (e.extended t).buffer.length :=
    h.ordered.mono (by simp [Emitter.extended])
  refine ⟨h.analyzer, hordered, fun _ => hopen, h.unbroken.append ht, h.recordedOnLine, h.openOnLine, h.newEnv,
    h.newLine, h.newPara, fun henv => ?_, written, f, held ++ [], hwritten, ?_, by rw [hlandmarks, List.append_nil]⟩
  · cases hs.symm.trans henv
  · have htokens : (e.extended t).tokens = e.tokens ++ t.map .char := tokens_extended h.ordered t
    rw [htokens]
    exact gather_append_of hheld (layTokens_chars (s.footing, stack) t)

theorem Stands.touched (h : e.Stands stack s) : e.touched.Stands stack s.touched :=
  h.alike ⟨rfl, rfl, rfl, rfl, rfl, rfl, rfl⟩ rfl rfl rfl rfl rfl nofun

theorem Stands.write (h : e.Stands stack s) (text : List Char) :
    Leaves (Emit.write text) e (fun _ e' => e'.Stands stack (s.write text)) fun _ _ => True := by
  refine leaves_extend text fun hopen => ?_
  have hbreak : (e.newEnv || e.newLine || e.newPara) = s.atBreak := by
    rw [h.newEnv, h.newLine, h.newPara]
    rfl
  rw [hbreak, Stance.write]
  cases hs : s.atBreak with
  | true =>
    by_cases htext : (text.dropWhile isSpace).isEmpty = true
    · simpa only [htext, if_true] using h
    · have hextended := h.touched.extended hopen rfl (unbroken_collapseBlanks false (text.dropWhile isSpace))
      rw [collapseBlanks_isEmpty, if_neg htext] at hextended
      rw [if_pos rfl, if_neg htext, if_pos rfl, if_neg htext]
      exact hextended
  | false =>
    have htouched := s.touched_of_not_atBreak hs
    have hextended := h.extended hopen (htouched ▸ rfl) (unbroken_collapseBlanks false text)
    rw [collapseBlanks_isEmpty] at hextended
    rw [if_neg Bool.false_ne_true, if_neg Bool.false_ne_true]
    by_cases htext : text.isEmpty = true
    · simpa only [htext, if_true] using hextended
    · rw [if_neg htext] at hextended ⊢
      rw [Stance.amid, htouched]
      exact hextended

theorem Stands.wrap (h : e.Stands stack s) (command : String) {delimiters : Delimiters} (hd : delimiters.OnLine)
    {content : Emit Unit} (hcontent : ∀ {e' d}, e'.Stands (d :: stack) s.touched →
      Leaves content e' (fun _ e'' => e''.Stands (d :: stack) s') fun _ _ => True) :
    Leaves (Emit.wrap command content delimiters) e (fun _ e' => e'.Stands stack s'.amid) fun _ _ => True := by
  refine (h.recordStart command hd).bind fun _ e₁ h₁ => Leaves.finishing ?_
  obtain ⟨d, hvalue, h₁⟩ := h₁
  refine (hcontent h₁).imp (fun _ e₂ h₂ => h₂.recordEnd hvalue hd) fun _ e₂ _ => ?_
  exact (Leaves.trivial _ e₂).imp (fun _ _ _ => trivial) fun _ _ _ => trivial

/-- With nothing held back, the formatting may be exchanged. -/
theorem Stands.exchange (h : e.Stands stack s) (hsettled : e.IsSettled) (hstack' : ∀ d ∈ stack', d.delimiters.OnLine) :
    { e with stack := stack' }.Stands stack' s := by
  have hwritten := (h.written hsettled).1
  have htokens : { e with stack := stack' }.tokens = [] := IsSettled.tokens_eq hsettled
  refine ⟨h.analyzer, h.ordered, h.open_of_due, h.unbroken, h.recordedOnLine, hstack', h.newEnv, h.newLine, h.newPara,
    h.settled, s.landmarks, s.footing, [], hwritten, ?_, (List.append_nil _).symm⟩
  rw [htokens]
  rfl

theorem Stands.enterIsolation (h : e.Stands stack s) :
    Leaves Emit.enterIsolation e (fun saved e' => saved = stack ∧ (∀ d ∈ saved, d.delimiters.OnLine) ∧
      e'.Stands [] s ∧ e'.IsSettled ∧ e'.stack = []) fun _ _ => True := by
  refine h.turn.bind fun _ e₁ h₁ => Leaves.get_bind ?_
  have hempty := h₁.1.exchange h₁.2 (List.forall_mem_nil _)
  refine Leaves.bind (Leaves.of_modify (P := fun _ e' => e'.Stands [] s ∧ e'.IsSettled ∧ e'.stack = [])
    ⟨hempty, h₁.2, rfl⟩) fun _ e₂ h₂ => Leaves.of_pure ⟨(h₁.1.written h₁.2).2, h₁.1.openOnLine, h₂⟩

theorem Stands.isolated (h : e.Stands stack s) {content : Emit Unit}
    (hcontent : ∀ {e'}, e'.Stands [] s → e'.IsSettled → e'.stack = [] →
      Leaves content e' (fun _ e'' => e''.Stands [] s') fun _ _ => True) :
    Leaves (Emit.isolated content) e (fun _ e' => e'.Stands stack s') fun _ _ => True := by
  refine h.enterIsolation.bind fun saved e₁ h₁ => Leaves.finishing ?_
  obtain ⟨rfl, honLine, h₁, hsettled, hstack⟩ := h₁
  have hchecked : Leaves (content >>= fun _ => checkIsolation) e₁ (fun _ e' => e'.Stands [] s' ∧ e'.IsSettled)
      fun _ _ => True := by
    refine (hcontent h₁ hsettled hstack).bind fun _ e₂ h₂ => h₂.turn.bind fun _ e₃ h₃ => Leaves.get_bind ?_
    dsimp only
    split
    · exact Leaves.of_pure h₃
    · exact Leaves.of_throw trivial
  exact hchecked.imp (fun _ e₂ h₂ => Leaves.of_modify (h₂.1.exchange h₂.2 honLine)) fun _ _ _ => Leaves.of_modify trivial

/-- A block with nothing held back: the break after it writes it, and ends its line. -/
theorem Stands.recordBlock (h : e.Stands [] s.envBreak) (hsettled : e.IsSettled) (hstack : e.stack = []) {d : Decoration}
    (hd : d.kind = .startBlock ∨ d.kind = .endBlock) :
    Leaves (Emit.record d >>= fun _ => Emit.envBreak) e (fun _ e' => e'.Stands [] (s.block d.value)) fun _ _ => True := by
  by_cases hclosed : e.closed = true
  · exact Leaves.bind (M := fun _ _ => False) (Leaves.of_error (perform_record_of_closed hclosed d) trivial)
      fun _ _ h => h.elim
  have hopen : e.closed = false := by simpa using hclosed
  refine Leaves.of_ok (perform_record_block h.analyzer hopen hsettled.1 hsettled.2 hstack hd) ?_
  set written : Emitter := (e.recorded d).turned [.block d.value] [] []
  have hblock := (h.wrote hsettled (.block d.value)).1.touched
  have hnewline := (hblock.wrote hsettled .newline).1
  have hwrittenStack : written.stack = e.stack := by
    have hcarried : (e.recorded d).carried = [] := carried_marks (marks_recorded hsettled.2 (.inr hd))
    have hturned : written.stack = (e.recorded d).carried.reverse ++ [] := rfl
    rw [hturned, hcarried, hstack]
    rfl
  have halike : ((e.wrote [.block d.value]).touched.wrote [.newline]).Alike { written.wrote [.newline] with newEnv := true } :=
    ⟨rfl, rfl, hsettled.1.symm, hsettled.2.symm, hwrittenStack, rfl, rfl⟩
  rw [s.block_eq]
  exact hnewline.alike halike rfl rfl rfl rfl rfl fun _ _ => hsettled

/-- A block on a line of its own. -/
theorem Stands.block (h : e.Stands stack s) {d : Decoration} (hd : d.kind = .startBlock ∨ d.kind = .endBlock) :
    Leaves (writeBlock d) e (fun _ e' => e'.Stands stack (s.block d.value)) fun _ _ => True :=
  h.envBreak.bind fun _ _ h₁ => h₁.1.isolated fun h₂ hsettled hstack => h₂.recordBlock hsettled hstack hd

theorem Stands.assumeDirection (h : e.Stands stack s) (direction : NamedDirection) :
    Leaves (Emit.assumeDirection direction) e (fun _ e' => e'.Stands stack s) fun _ _ => True := by
  refine h.turn.bind fun _ e₁ h₁ => Leaves.of_modify ?_
  obtain ⟨h₁, hsettled⟩ := h₁
  obtain ⟨hwritten, rfl⟩ := h₁.written hsettled
  set e₂ : Emitter := { e₁ with contextDir := direction, written := .assumeDirection direction :: e₁.written } with he₂
  have hdue : e₂.isDue = false := IsSettled.isDue_eq hsettled
  have htokens : e₂.tokens = [] := IsSettled.tokens_eq hsettled
  have houtput : e₂.output = e₁.output ++ [.assumeDirection direction] := List.reverse_cons
  refine ⟨h₁.analyzer, h₁.ordered, fun hd => ?_, h₁.unbroken, h₁.recordedOnLine, h₁.openOnLine, h₁.newEnv, h₁.newLine,
    h₁.newPara, h₁.settled, s.landmarks ++ [], s.footing, [], ?_, ?_, by simp⟩
  · cases hdue.symm.trans hd
  · -- A note has no characters, so the footing stays.
    rw [houtput]
    exact gather_append_of hwritten (lay_piece s.footing _)
  · rw [htokens]
    rfl

theorem Stands.switchDirection (h : e.Stands stack s) (direction : NamedDirection) :
    Leaves (Emit.switchDirection direction) e (fun _ e' => e'.Stands stack s) fun _ _ => True := by
  refine h.turn.bind fun _ e₁ h₁ => Leaves.of_modify ?_
  exact h₁.1.alike ⟨rfl, rfl, rfl, rfl, rfl, rfl, rfl⟩ rfl rfl h₁.1.newEnv h₁.1.newLine h₁.1.newPara fun _ _ => h₁.2

theorem Stands.setCoverage (h : e.Stands stack s) (latinCoverage : Bool) :
    Leaves (Emit.setCoverage latinCoverage) e (fun _ e' => e'.Stands stack s) fun _ _ => True := by
  refine h.turn.bind fun _ e₁ h₁ => Leaves.of_modify ?_
  exact h₁.1.alike ⟨rfl, rfl, rfl, rfl, rfl, rfl, rfl⟩ rfl rfl h₁.1.newEnv h₁.1.newLine h₁.1.newPara fun _ _ => h₁.2

theorem Stands.flush (h : e.Stands stack s) :
    Leaves Emit.flush e (fun _ e' => e'.Stands stack s.envBreak ∧ e'.IsSettled) fun _ _ => True := by
  refine h.envBreak.bind fun _ e₁ h₁ => h₁.1.turn.bind fun _ e₂ h₂ => Leaves.get_bind ?_
  dsimp only
  split
  · have hdue : ({ e₂ with closed := true } : Emitter).isDue = false := IsSettled.isDue_eq h₂.2
    exact Leaves.of_modify ⟨{ h₂.1 with open_of_due := fun hd => by cases hdue.symm.trans hd }, h₂.2⟩
  · exact Leaves.of_throw trivial

end Emitter

/-! ### Programs -/

mutual

theorem Operation.perform_stands (o : Operation) {e : Emitter} {s : Stance} {stack : List Decoration}
    (ho : o.isSet = true) (h : e.Stands stack s) :
    Leaves o.perform e (fun _ e' => e'.Stands stack (o.stand (!stack.isEmpty) s)) fun _ _ => True := by
  cases o with
  | write text => exact h.write text
  | record d =>
    simp only [Operation.isSet, Bool.and_eq_true, decide_eq_true_eq] at ho
    exact h.recordFragment ho.1 ho.2
  | wrap command delimiters content =>
    simp only [Operation.isSet, Bool.and_eq_true, decide_eq_true_eq] at ho
    exact h.wrap command ho.1 fun h' => performAll_stands content ho.2 h'
  | isolated content => exact h.isolated fun h' _ _ => performAll_stands content ho h'
  | beginEnv env options => exact (h.block (.inl rfl)).bind fun _ e' h' => h'.resetLine
  | endEnv env =>
    refine (h.block (.inr rfl)).bind fun _ e' h' => Leaves.of_modify ?_
    exact h'.alike ⟨rfl, rfl, rfl, rfl, rfl, rfl, rfl⟩ rfl rfl h'.newEnv rfl rfl fun _ hmarks => by cases hmarks
  | switchDirection direction => exact h.switchDirection direction
  | assumeDirection direction => exact h.assumeDirection direction
  | resuming content =>
    refine Leaves.get_bind ?_
    exact (performAll_stands content ho h).bind fun _ e' h' => h'.assumeDirection _
  | setCoverage latinCoverage => exact h.setCoverage latinCoverage
  | deepenList n =>
    exact Leaves.of_modify (h.alike ⟨rfl, rfl, rfl, rfl, rfl, rfl, rfl⟩ rfl rfl h.newEnv h.newLine h.newPara h.settled)
  | deepenToc n =>
    exact Leaves.of_modify (h.alike ⟨rfl, rfl, rfl, rfl, rfl, rfl, rfl⟩ rfl rfl h.newEnv h.newLine h.newPara h.settled)
  | paragraphBreak => exact h.paragraphBreak
  | lineBreak => exact h.lineBreak
  | envBreak => exact h.envBreak.imp_left fun _ _ h' => h'.1
  | dirBreak => exact h.turn.imp_left fun _ _ h' => h'.1
  | resetLine => exact h.resetLine
  | flush => exact h.flush.imp_left fun _ _ h' => h'.1

/-- An emitter stands where the program does, as long as no operation fails. -/
theorem performAll_stands (os : List Operation) {e : Emitter} {s : Stance} {stack : List Decoration}
    (hos : areSet os = true) (h : e.Stands stack s) :
    Leaves (performAll os) e (fun _ e' => e'.Stands stack (standAll (!stack.isEmpty) os s)) fun _ _ => True := by
  cases os with
  | nil => exact Leaves.of_pure h
  | cons o os =>
    simp only [areSet, Bool.and_eq_true] at hos
    exact (Operation.perform_stands o hos.1 h).bind fun _ e' h' => performAll_stands os hos.2 h'

end

theorem Begun.perform_stands (program : Begun) {e : Emitter} {s : Stance} {stack : List Decoration}
    (hp : program.isSet = true) (h : e.Stands stack s) :
    Leaves program.perform e (fun _ e' => ∃ stack', e'.Stands stack' (program.stand (!stack.isEmpty) s))
      fun _ _ => True := by
  induction program generalizing e s stack with
  | upTo os => exact (performAll_stands os hp h).imp_left fun _ _ h' => ⟨stack, h'⟩
  | inWrap os command delimiters content ih =>
    simp only [Begun.isSet, Bool.and_eq_true, decide_eq_true_eq] at hp
    refine (performAll_stands os hp.1.1 h).bind fun _ e₁ h₁ => (h₁.recordStart command hp.1.2).bind fun _ e₂ h₂ => ?_
    obtain ⟨d, -, h₂⟩ := h₂
    exact ih hp.2 h₂
  | inIsolated os content ih =>
    simp only [Begun.isSet, Bool.and_eq_true] at hp
    refine (performAll_stands os hp.1 h).bind fun _ e₁ h₁ => h₁.enterIsolation.bind fun _ e₂ h₂ => ?_
    exact ih hp.2 h₂.2.2.1

theorem start_stands (direction : NamedDirection) : (Emitter.start direction).Stands [] {} :=
  ⟨rfl, Nat.le_refl _, nofun, nofun, nofun, nofun, rfl, rfl, rfl, nofun, [], {}, [], rfl, rfl, rfl⟩

end WikiTypeset.Latex
