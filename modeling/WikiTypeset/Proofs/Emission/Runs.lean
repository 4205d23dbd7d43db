import Mathlib.Data.List.TakeWhile
import Mathlib.Tactic.Set
import WikiTypeset.Proofs.Bidi.Partition
import WikiTypeset.Proofs.Emission.Weave

/-!
# The runs of a text, written one after the other

`setRuns` is the row of spans that are written as one: the runs of the analysis, where right-to-left text absorbs the
numbers after it. `layRuns` is what they become, and `perform_writeRunsFrom` says that the emitter writes just that.
-/

namespace WikiTypeset.Latex

open Action Bidi Emit

/-! ### Spans that are written as one -/

/-- Whether a run stays with the right-to-left run before it. -/
def joins (text : List Char) (r : Run) : Bool := r.direction = .rtl || isNumeric (slice text r.start r.stop)

/-- The end of a right-to-left run with the runs that stay with it. -/
def absorbedEnd (text : List Char) : Nat → List Run → Nat
  | stop, [] => stop
  | stop, r :: rs => if joins text r then absorbedEnd text r.stop rs else stop

/-- The spans that begin with `current` and go on through more runs. -/
def joinRuns (text : List Char) (current : Run) : List Run → List Run
  | [] => [current]
  | r :: rs =>
    if current.direction = .rtl ∧ joins text r = true then joinRuns text { current with stop := r.stop } rs
    else current :: joinRuns text r rs

/-- The spans that are written as one while the ambient direction is `contextDir`. -/
def setRuns (text : List Char) (contextDir : NamedDirection) : List Run → List Run
  | [] => []
  | r :: rs => if contextDir = .known .rtl then joinRuns text r rs else r :: rs

/-- Whether a run absorbs what follows it. -/
def absorbs (contextDir : NamedDirection) (r : Run) : Bool := r.direction = .rtl && contextDir = .known .rtl

/-- The end of the span that a run begins. -/
def spanEnd (text : List Char) (contextDir : NamedDirection) (r : Run) (rs : List Run) : Nat :=
  if absorbs contextDir r then absorbedEnd text r.stop rs else r.stop

/-- The runs after the span that a run begins. -/
def runsAfter (text : List Char) (contextDir : NamedDirection) (r : Run) (rs : List Run) : List Run :=
  if absorbs contextDir r then rs.dropWhile (joins text) else rs

private theorem joinRuns_rtl (text : List Char) (r : Run) (rs : List Run) (h : r.direction = .rtl) :
    joinRuns text r rs = { r with stop := absorbedEnd text r.stop rs } ::
      setRuns text (.known .rtl) (rs.dropWhile (joins text)) := by
  induction rs generalizing r with
  | nil => rfl
  | cons r' rs ih =>
    by_cases hj : joins text r'
    · rw [joinRuns, if_pos ⟨h, hj⟩, ih { r with stop := r'.stop } h]
      simp [absorbedEnd, hj]
    · rw [joinRuns, if_neg (by simp [hj])]
      simp [absorbedEnd, hj, setRuns]

theorem setRuns_cons (text : List Char) (contextDir : NamedDirection) (r : Run) (rs : List Run) :
    setRuns text contextDir (r :: rs) = { r with stop := spanEnd text contextDir r rs } ::
      setRuns text contextDir (runsAfter text contextDir r rs) := by
  by_cases hc : contextDir = .known .rtl
  · subst hc
    by_cases hr : r.direction = .rtl
    · simpa [setRuns, spanEnd, runsAfter, absorbs, hr] using joinRuns_rtl text r rs hr
    · cases rs with
      | nil => simp [setRuns, spanEnd, runsAfter, absorbs, hr, joinRuns]
      | cons r' rs => simp [setRuns, spanEnd, runsAfter, absorbs, hr, joinRuns]
  · cases rs with
    | nil => simp [setRuns, spanEnd, runsAfter, absorbs, hc]
    | cons r' rs => simp [setRuns, spanEnd, runsAfter, absorbs, hc]

theorem contiguous_absorbed (text : List Char) {start stop : Nat} {rs : List Run} (h : Contiguous start rs stop) :
    start ≤ absorbedEnd text start rs ∧
      Contiguous (absorbedEnd text start rs) (rs.dropWhile (joins text)) stop := by
  induction rs generalizing start with
  | nil => exact ⟨Nat.le_refl _, h⟩
  | cons r rs ih =>
    by_cases hj : joins text r
    · obtain ⟨hs, hlt, hrest⟩ := h
      have := ih hrest
      rw [absorbedEnd, if_pos hj, List.dropWhile_cons_of_pos hj]
      exact ⟨by omega, this.2⟩
    · rw [absorbedEnd, if_neg hj, List.dropWhile_cons_of_neg hj]
      exact ⟨Nat.le_refl _, h⟩

/-- The runs after a span begin where it ends. -/
theorem contiguous_runsAfter (text : List Char) (contextDir : NamedDirection) {start stop : Nat} {r : Run}
    {rs : List Run} (h : Contiguous start (r :: rs) stop) :
    start < spanEnd text contextDir r rs ∧
      Contiguous (spanEnd text contextDir r rs) (runsAfter text contextDir r rs) stop := by
  obtain ⟨hs, hlt, hrest⟩ := h
  unfold spanEnd runsAfter
  split
  · have := contiguous_absorbed text hrest
    exact ⟨by omega, this.2⟩
  · exact ⟨hlt, hrest⟩

theorem runsAfter_suffix (text : List Char) (contextDir : NamedDirection) (r : Run) (rs : List Run) :
    runsAfter text contextDir r rs <:+ rs := by
  unfold runsAfter
  split
  · exact List.dropWhile_suffix _
  · exact List.suffix_refl rs

/-- The spans cover the same stretch of text as the runs. -/
theorem contiguous_setRuns (text : List Char) (contextDir : NamedDirection) {start stop : Nat} {rs : List Run}
    (h : Contiguous start rs stop) : Contiguous start (setRuns text contextDir rs) stop := by
  induction hn : rs.length using Nat.strongRecOn generalizing start rs with
  | ind n ih =>
    cases rs with
    | nil => exact h
    | cons r rs =>
      rw [setRuns_cons]
      have hafter := contiguous_runsAfter text contextDir h
      refine ⟨h.1, hafter.1, ih _ ?_ hafter.2 rfl⟩
      have := (runsAfter_suffix text contextDir r rs).length_le
      simp only [List.length_cons] at hn
      omega

/-! ### Spans as pieces -/

/-- What stands before a span: nothing if it runs in the ambient direction. -/
def enterPieces (contextDir : NamedDirection) (d : Direction) : List Piece :=
  if .known d = contextDir then [] else [.openRun d]

/-- What stands after such a span. -/
def exitPieces (contextDir : NamedDirection) (d : Direction) : List Piece :=
  if .known d = contextDir then [] else [.closeRun]

/-- A span with the decorations in it, inside the formatting that is open at its start. -/
def spanPieces (style : TextStyle) (text : List Char) (contextDir : NamedDirection) (r : Run)
    (stack stack' here : List Decoration) : List Piece :=
  enterPieces contextDir r.direction ++ openPieces stack ++ weave style text r.start here ++
    textPieces style (slice text (offsetAfter r.start here) r.stop) ++ closePieces stack' ++
    exitPieces contextDir r.direction

/-- Several spans, with the formatting that is open after them and the decorations that are left. -/
def layRuns (style : TextStyle) (text : List Char) (contextDir : NamedDirection) :
    List Run → List Decoration → List Decoration → Option (List Piece × List Decoration × List Decoration)
  | [], stack, ds => some ([], stack, ds)
  | r :: rs, stack, ds => do
    let here := ds.takeWhile (belongs r.stop)
    let stack' ← nest stack here
    let (ps, stack'', left) ← layRuns style text contextDir rs stack' (ds.dropWhile (belongs r.stop))
    return (spanPieces style text contextDir r stack stack' here ++ ps, stack'', left)

/-- The decorations of the spans and those that are left follow one another as they stand. -/
theorem nest_layRuns (style : TextStyle) (text : List Char) (contextDir : NamedDirection) (rs : List Run)
    (stack ds : List Decoration) :
    (layRuns style text contextDir rs stack ds).bind (fun laid => nest laid.2.1 laid.2.2) = nest stack ds := by
  induction rs generalizing stack ds with
  | nil => rfl
  | cons r rs ih =>
    have hsplit : nest stack ds = (nest stack (ds.takeWhile (belongs r.stop))).bind fun stack' =>
        nest stack' (ds.dropWhile (belongs r.stop)) := by
      rw [← nest_append, List.takeWhile_append_dropWhile]
    simp only [hsplit, layRuns, Option.bind_eq_bind, Option.bind_assoc]
    refine Option.bind_congr fun stack' _ => ?_
    rw [← ih]
    rfl

/-- Whether the ambient direction changes before a run. -/
def Emitter.switches (e : Emitter) (d : Direction) : Bool :=
  .known d ≠ e.contextDir && e.startPara && e.inList = 0 && .known d = e.paragraphDir

/-- The ambient direction of a text whose first run has the given direction. -/
def Emitter.directionFor (e : Emitter) (d : Direction) : NamedDirection := if e.switches d then d else e.contextDir

/-- The change of the ambient direction before a run, if there is one. -/
def Emitter.switchPieces (e : Emitter) (d : Direction) : List Piece :=
  if e.switches d then [.setDirection d] else []

/-- The ambient direction of a text with the given runs. -/
def Emitter.ambientFor (e : Emitter) : List Run → NamedDirection
  | [] => e.contextDir
  | r :: _ => e.directionFor r.direction

/-- The change of the ambient direction before a text with the given runs. -/
def Emitter.switchFor (e : Emitter) : List Run → List Piece
  | [] => []
  | r :: _ => e.switchPieces r.direction

/-- Within a paragraph the ambient direction stays. -/
theorem Emitter.switches_of_begun {e : Emitter} (h : e.startPara = false) (d : Direction) : e.switches d = false := by
  simp [switches, h]

theorem Emitter.ambientFor_of_begun {e : Emitter} (h : e.startPara = false) (rs : List Run) :
    e.ambientFor rs = e.contextDir := by
  cases rs with
  | nil => rfl
  | cons r rs => simp [ambientFor, directionFor, switches_of_begun h]

theorem Emitter.switchFor_of_begun {e : Emitter} (h : e.startPara = false) (rs : List Run) : e.switchFor rs = [] := by
  cases rs with
  | nil => rfl
  | cons r rs => simp [switchFor, switchPieces, switches_of_begun h]

/-! ### What the emitter writes -/

namespace Emit

variable {e : Emitter} {p : Paragraph} {text : List Char}

theorem perform_runAt {offset : Nat} {r : Run} (h : p.runAt offset = some r) :
    (runAt p offset).perform e = (.ok r, e) := by
  simp [runAt, h, perform_pure]

theorem perform_absorb (hp : p.Partitions text) (before rs : List Run) {fuel stop : Nat}
    (hruns : p.runs = before ++ rs) (hrs : Contiguous stop rs text.length) (hfuel : text.length - stop ≤ fuel) :
    (absorb p fuel stop).perform e = (.ok (absorbedEnd text stop rs), e) := by
  induction fuel generalizing before rs stop with
  | zero =>
    cases rs with
    | nil => rfl
    | cons r rs =>
      have := hrs.2.2.le
      have := hrs.2.1
      omega
  | succ fuel ih =>
    cases rs with
    | nil =>
      obtain rfl : stop = text.length := hrs
      simp [absorb, hp.text_eq, perform_pure, absorbedEnd]
    | cons r rs =>
      obtain ⟨rfl, hlt, hrest⟩ := hrs
      have hle := hrest.le
      have hstop : r.start < p.text.length := by rw [hp.text_eq]; omega
      simp only [absorb, if_pos hstop, perform_bind, perform_runAt (hp.runAt_start hruns)]
      by_cases hj : joins text r
      · have hj' : r.direction = .rtl ∨ isNumeric (slice p.text r.start r.stop) = true := by
          simpa [joins, hp.text_eq] using hj
        rw [if_pos hj', absorbedEnd, if_pos hj]
        exact ih (before ++ [r]) rs (by simp [hruns]) hrest (by omega)
      · have hj' : ¬ (r.direction = .rtl ∨ isNumeric (slice p.text r.start r.stop) = true) := by
          simpa [joins, hp.text_eq] using hj
        rw [if_neg hj', absorbedEnd, if_neg hj]
        rfl

theorem perform_enterRun (h : e.closed = false) (d : Direction) :
    (enterRun d).perform e = (.ok (decide (.known d ≠ e.directionFor d)),
      e.advance (e.switchPieces d ++ enterPieces (e.directionFor d) d) e.stack (e.directionFor d) e.startPara) := by
  simp only [enterRun, perform_bind, perform_get]
  by_cases hd : NamedDirection.known d = e.contextDir
  · have hs : e.switches d = false := by simp [Emitter.switches, hd]
    simp [hd, perform_pure, Emitter.directionFor, Emitter.switchPieces, enterPieces, hs]
  · by_cases hs : e.startPara = true ∧ e.inList = 0 ∧ NamedDirection.known d = e.paragraphDir
    · have hs' : e.switches d = true := by simpa [Emitter.switches, hd, and_assoc] using hs
      rw [if_neg hd, if_pos hs]
      simp only [perform_bind, perform_put h, perform_modify, perform_pure]
      simp [Emitter.directionFor, Emitter.switchPieces, enterPieces, hs', Emitter.advance]
    · have hs' : e.switches d = false := by
        simpa [Emitter.switches, hd] using hs
      rw [if_neg hd, if_neg hs]
      simp only [perform_bind, perform_put h, perform_pure]
      simp [Emitter.directionFor, Emitter.switchPieces, enterPieces, hs', hd]

theorem perform_beginRun (h : e.closed = false) (d : Direction) :
    (beginRun d).perform e = (.ok (decide (.known d ≠ e.directionFor d)),
      e.advance (e.switchPieces d ++ enterPieces (e.directionFor d) d ++ openPieces e.stack) e.stack
        (e.directionFor d) false) := by
  have hopen := perform_openStack (e := e.advance (e.switchPieces d ++ enterPieces (e.directionFor d) d) e.stack
    (e.directionFor d) false) h
  simp only [beginRun, perform_bind, perform_enterRun h, perform_modify]
  have hbegun : { e.advance (e.switchPieces d ++ enterPieces (e.directionFor d) d) e.stack (e.directionFor d)
      e.startPara with startPara := false } = e.advance (e.switchPieces d ++ enterPieces (e.directionFor d) d) e.stack
      (e.directionFor d) false := rfl
  rw [hbegun, hopen]
  simp [perform_pure, Emitter.wrote]

theorem perform_spanStop (hp : p.Partitions text) {before rs : List Run} {r : Run}
    (hruns : p.runs = before ++ r :: rs) (hrs : Contiguous r.start (r :: rs) text.length) :
    (spanStop p r).perform e = (.ok (spanEnd text e.contextDir r rs), e) := by
  simp only [spanStop, spanEnd, absorbs]
  by_cases hc : r.direction = .rtl ∧ e.contextDir = .known .rtl
  · have hfuel : text.length - r.stop ≤ p.text.length := by rw [hp.text_eq]; omega
    have habsorb := perform_absorb (e := e) hp (before ++ [r]) rs (by simpa using hruns) hrs.2.2 hfuel
    simp [hc.1, hc.2, perform_bind, perform_get, habsorb]
  · by_cases hr : r.direction = .rtl
    · have hd : ¬ e.contextDir = .known .rtl := fun h => hc ⟨hr, h⟩
      simp [hr, hd, perform_bind, perform_get, perform_pure]
    · rw [perform_bind, perform_get]
      simp [hr, perform_pure]

/-- The text from `pos` to `stop` is written with its decorations, and the formatting that is open then is closed. -/
theorem perform_writeSpan (h : e.closed = false) (text : List Char) (pos stop : Nat) {here : List Decoration}
    {d : Decoration} (later : List Decoration) (hin : ∀ x ∈ here, belongs stop x = true)
    (hd : belongs stop d = false) :
    match nest e.stack here with
    | some stack => (writeSpan text pos stop (here ++ d :: later)).perform e =
        (.ok (d :: later), e.advance (weave e.style text pos here ++
          textPieces e.style (slice text (offsetAfter pos here) stop) ++ closePieces stack) stack e.contextDir e.startPara)
    | none => ∃ (x : Decoration) (stack : List Decoration) (e' : Emitter),
        (writeSpan text pos stop (here ++ d :: later)).perform e = (.error (x.refusal stack), e') := by
  have hup := perform_writeUpTo h text stop pos later hin hd
  cases hn : nest e.stack here with
  | none =>
    simp only [hn] at hup ⊢
    obtain ⟨x, stack, e', hup⟩ := hup
    exact ⟨x, stack, e', by simp [writeSpan, perform_bind, hup]⟩
  | some stack =>
    simp only [hn] at hup ⊢
    simp only [writeSpan, perform_bind, hup, perform_putText, perform_closeStack, Emitter.closed_advance, h]
    simp [perform_pure]

theorem perform_leaveRun (h : e.closed = false) (contextDir : NamedDirection) (d : Direction) :
    (leaveRun (decide (.known d ≠ contextDir))).perform e = (.ok (), e.wrote (exitPieces contextDir d)) := by
  by_cases hd : NamedDirection.known d = contextDir
  · simp [leaveRun, hd, exitPieces, perform_pure]
  · simp [leaveRun, hd, exitPieces, perform_put h]

/-- One span is written with its decorations, inside the formatting that is open; the spans after it are left. -/
theorem perform_writeRun (h : e.closed = false) (hp : p.Partitions text) {before rs : List Run} {r : Run}
    (hruns : p.runs = before ++ r :: rs) (hrs : Contiguous r.start (r :: rs) text.length) {here : List Decoration}
    {d : Decoration} (later : List Decoration)
    (hin : ∀ x ∈ here, belongs (spanEnd text (e.directionFor r.direction) r rs) x = true)
    (hd : belongs (spanEnd text (e.directionFor r.direction) r rs) d = false) :
    match nest e.stack here with
    | some stack => (writeRun p r.start (here ++ d :: later)).perform e =
        (.ok (spanEnd text (e.directionFor r.direction) r rs, d :: later),
          e.advance (e.switchPieces r.direction ++ spanPieces e.style text (e.directionFor r.direction)
            { r with stop := spanEnd text (e.directionFor r.direction) r rs } e.stack stack here)
            stack (e.directionFor r.direction) false)
    | none => ∃ (x : Decoration) (stack : List Decoration) (e' : Emitter),
        (writeRun p r.start (here ++ d :: later)).perform e = (.error (x.refusal stack), e') := by
  have hbegun : ∀ e' : Emitter, (spanStop p r).perform e' = (.ok (spanEnd text e'.contextDir r rs), e') :=
    fun e' => perform_spanStop hp hruns hrs
  simp only [writeRun, perform_bind, perform_runAt (hp.runAt_start hruns), perform_beginRun h, hbegun, hp.text_eq,
    Emitter.contextDir_advance]
  have hspan := perform_writeSpan (e := e.advance (e.switchPieces r.direction ++
    enterPieces (e.directionFor r.direction) r.direction ++ openPieces e.stack) e.stack (e.directionFor r.direction)
    false) h text r.start _ later hin hd
  simp only [Emitter.stack_advance] at hspan
  cases hn : nest e.stack here with
  | none =>
    simp only [hn] at hspan ⊢
    obtain ⟨x, stack, e', hspan⟩ := hspan
    exact ⟨x, stack, e', by rw [hspan]⟩
  | some stack =>
    simp only [hn] at hspan ⊢
    simp only [hspan, perform_leaveRun, Emitter.closed_advance, h]
    simp [perform_pure, spanPieces]

/-- The mark after the last decoration belongs to no span. -/
theorem belongs_endOfText {stop : Nat} (h : stop ≤ text.length) :
    belongs stop { kind := .endOfText, pos := text.length } = false := by
  have : ¬ text.length < stop := by omega
  simp [belongs, Decoration.isEnd, this]

/-- What is left before a mark that belongs to no span begins with something that does not belong to this one. -/
private theorem exists_left {f : Decoration → Bool} {mark : Decoration} (hmark : f mark = false)
    (ds : List Decoration) : ∃ (d : Decoration) (later : List Decoration),
      ds.dropWhile f ++ [mark] = d :: later ∧ f d = false := by
  induction ds with
  | nil => exact ⟨mark, [], rfl, hmark⟩
  | cons d ds ih =>
    by_cases hd : f d
    · rw [List.dropWhile_cons_of_pos hd]
      exact ih
    · rw [List.dropWhile_cons_of_neg hd]
      exact ⟨d, ds ++ [mark], rfl, by simpa using hd⟩

/-- The runs of a text are written span by span, after a change of the ambient direction where one is due. -/
theorem perform_writeRunsFrom (h : e.closed = false) (hp : p.Partitions text) {before rs : List Run} {fuel pos : Nat}
    (hruns : p.runs = before ++ rs) (hrs : Contiguous pos rs text.length) (hfuel : text.length - pos ≤ fuel)
    (ds : List Decoration) :
    match layRuns e.style text (e.ambientFor rs) (setRuns text (e.ambientFor rs) rs) e.stack ds with
    | some (ps, stack, left) =>
      (writeRunsFrom p fuel pos (ds ++ [{ kind := .endOfText, pos := text.length }])).perform e =
        (.ok (left ++ [{ kind := .endOfText, pos := text.length }]),
          e.advance (e.switchFor rs ++ ps) stack (e.ambientFor rs) (e.startPara && rs.isEmpty))
    | none => ∃ (x : Decoration) (stack : List Decoration) (e' : Emitter),
      (writeRunsFrom p fuel pos (ds ++ [{ kind := .endOfText, pos := text.length }])).perform e =
        (.error (x.refusal stack), e') := by
  -- Each span takes some of the text, so the fuel, which bounds what is left of the text, bounds the spans.
  induction fuel generalizing e before rs pos ds with
  | zero =>
    cases rs with
    | nil =>
      obtain rfl : pos = text.length := hrs
      simp [setRuns, layRuns, writeRunsFrom, hp.text_eq, perform_pure, Emitter.ambientFor, Emitter.switchFor]
    | cons r rs =>
      have := hrs.2.2.le
      have := hrs.2.1
      omega
  | succ fuel ih =>
    cases rs with
    | nil =>
      obtain rfl : pos = text.length := hrs
      simp [setRuns, layRuns, writeRunsFrom, hp.text_eq, perform_pure, Emitter.ambientFor, Emitter.switchFor]
    | cons r rs =>
      obtain rfl : r.start = pos := hrs.1
      set contextDir := e.directionFor r.direction with hcontextDir
      set stop := spanEnd text contextDir r rs with hstop
      obtain ⟨hlt, hafter⟩ := contiguous_runsAfter text contextDir hrs
      have hle := hafter.le
      have hpos : r.start < p.text.length := by rw [hp.text_eq]; omega
      obtain ⟨absorbed, habsorbed⟩ := runsAfter_suffix text contextDir r rs
      obtain ⟨d, later, hlater, hd⟩ := exists_left (belongs_endOfText hle) ds
      have hhere : ∀ x ∈ ds.takeWhile (belongs stop), belongs stop x = true := fun x hx => List.mem_takeWhile_imp hx
      have hsplit := perform_writeRun h hp hruns hrs later hhere hd
      have hds : ds ++ [{ kind := .endOfText, pos := text.length }] = ds.takeWhile (belongs stop) ++ d :: later := by
        rw [← hlater, ← List.append_assoc, List.takeWhile_append_dropWhile]
      simp only [writeRunsFrom, if_pos hpos, perform_bind, hds, Emitter.ambientFor, setRuns_cons, layRuns,
        ← hcontextDir, ← hstop]
      cases hn : nest e.stack (ds.takeWhile (belongs stop)) with
      | none =>
        simp only [hn] at hsplit
        obtain ⟨x, stack, e', hsplit⟩ := hsplit
        exact ⟨x, stack, e', by rw [hsplit]⟩
      | some stack =>
        simp only [hn] at hsplit
        simp only [hsplit]
        rw [← hlater]
        -- The paragraph has begun with this span, so the rest is written in the same ambient direction.
        set e' := e.advance (e.switchPieces r.direction ++ spanPieces e.style text contextDir { r with stop := stop }
          e.stack stack (ds.takeWhile (belongs stop))) stack contextDir false with he'
        have hruns' : p.runs = (before ++ r :: absorbed) ++ runsAfter text contextDir r rs := by
          simp [hruns, habsorbed]
        have hrest := ih (e := e') h hruns' hafter (by omega) (ds.dropWhile (belongs stop))
        rw [Emitter.ambientFor_of_begun rfl, Emitter.switchFor_of_begun rfl] at hrest
        have hstyle : e'.style = e.style := rfl
        have hcontext : e'.contextDir = contextDir := rfl
        have hstack : e'.stack = stack := rfl
        have hbegun : e'.startPara = false := rfl
        rw [hstyle, hcontext, hstack, hbegun] at hrest
        simp only [Option.bind_eq_bind, Option.bind_some]
        cases hl : layRuns e.style text contextDir (setRuns text contextDir (runsAfter text contextDir r rs)) stack
            (ds.dropWhile (belongs stop)) with
        | none => simpa [hl] using hrest
        | some laid =>
          obtain ⟨ps, stack', left⟩ := laid
          simpa [hl, he', Emitter.switchFor] using hrest

end Emit

end WikiTypeset.Latex
