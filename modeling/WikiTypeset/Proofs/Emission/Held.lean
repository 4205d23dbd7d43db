import WikiTypeset.Proofs.Emission.Runs
import WikiTypeset.Proofs.Leaves

/-!
# A text that is held back, written

`setText` is a whole text with its decorations as pieces: its spans, then what stands after the last character.
`perform_writeHeld` says that the emitter writes this and keeps the formatting that opens at the very end for the text
that follows. It fails only where the text cannot be analysed or the formatting does not nest. A property of decorations,
and one of open formatting, may make for a property of the pieces they become: then all pieces of a text have it
(`Inherits.setText`).
-/

namespace WikiTypeset.Latex

open Action Bidi Emit

/-- The decorations after the last character, inside the formatting that is open there. -/
def trailPieces (stack stack' left : List Decoration) : List Piece :=
  if left.isEmpty then [] else openPieces stack ++ left.flatMap Decoration.pieces ++ closePieces stack'

/-- A text with its decorations, and the formatting that is open after it. -/
def setText (style : TextStyle) (text : List Char) (contextDir : NamedDirection) (runs : List Run)
    (stack ds : List Decoration) : Option (List Piece × List Decoration) := do
  let (ps, stack', left) ← layRuns style text contextDir (setRuns text contextDir runs) stack ds
  let stack'' ← nest stack' left
  return (ps ++ trailPieces stack' stack'' left, stack'')

/-- A text is set if its decorations nest, wherever they stand in it. -/
theorem map_snd_setText (style : TextStyle) (text : List Char) (contextDir : NamedDirection) (runs : List Run)
    (stack ds : List Decoration) : (setText style text contextDir runs stack ds).map Prod.snd = nest stack ds := by
  rw [← nest_layRuns style text contextDir (setRuns text contextDir runs)]
  simp only [setText, Option.bind_eq_bind, Option.map_bind]
  refine Option.bind_congr fun laid _ => ?_
  simp [Function.comp_def]

/-- Nothing is set where there is nothing. -/
theorem setText_nil (style : TextStyle) (text : List Char) (contextDir : NamedDirection) (stack : List Decoration) :
    setText style text contextDir [] stack [] = some ([], stack) := by
  simp [setText, setRuns, layRuns, nest, trailPieces]

namespace Emitter

/-- The emitter when nothing is held back any more. -/
def settled (e : Emitter) : Emitter := { e with buffer := [], decorations := [] }

/-- What is held back, less the formatting that opens at the very end. -/
def due (e : Emitter) : List Decoration := (splitCarried e.pos e.decorations).1

/-- The formatting that opens at the very end. -/
def carried (e : Emitter) : List Decoration := (splitCarried e.pos e.decorations).2

/-- Whether there is anything to write. -/
def isDue (e : Emitter) : Bool := !(e.buffer.isEmpty && e.due.isEmpty)

/-- The emitter after the held text has been written as some pieces. -/
def turned (e : Emitter) (ps : List Piece) (stack : List Decoration) (runs : List Run) : Emitter :=
  (e.advance (e.switchFor runs ++ ps) (e.carried.reverse ++ stack) (e.ambientFor runs)
    (e.startPara && runs.isEmpty)).settled

theorem output_turned (e : Emitter) (ps : List Piece) (stack : List Decoration) (runs : List Run) :
    (e.turned ps stack runs).output = e.output ++ (e.switchFor runs ++ ps) :=
  output_advance e _ (e.carried.reverse ++ stack) (e.ambientFor runs) (e.startPara && runs.isEmpty)

end Emitter

namespace Emit

variable {e : Emitter}

theorem perform_forM_putDecoration (h : e.closed = false) (ds : List Decoration) :
    match nest e.stack ds with
    | some stack => (ds.forM putDecoration).perform e =
        (.ok (), e.advance (ds.flatMap Decoration.pieces) stack e.contextDir e.startPara)
    | none => ∃ (x : Decoration) (stack : List Decoration) (e' : Emitter),
        (ds.forM putDecoration).perform e = (.error (x.refusal stack), e') := by
  induction ds generalizing e with
  | nil => rfl
  | cons d ds ih =>
    have hcons : ((d :: ds).forM putDecoration) = (putDecoration d >>= fun _ => ds.forM putDecoration) := rfl
    simp only [nest, hcons, perform_bind, perform_putDecoration h]
    cases hd : d.after? e.stack with
    | none => exact ⟨d, e.stack, e, rfl⟩
    | some stack =>
      have hrest := ih (e := e.advance d.pieces stack e.contextDir e.startPara) h
      simp only [Emitter.stack_advance] at hrest
      cases hn : nest stack ds with
      | none => simpa [hn] using hrest
      | some stack' => simpa [hn] using hrest

theorem perform_writeTrailing (h : e.closed = false) (left : List Decoration) :
    match nest e.stack left with
    | some stack => (writeTrailing left).perform e =
        (.ok (), e.advance (trailPieces e.stack stack left) stack e.contextDir e.startPara)
    | none => ∃ (x : Decoration) (stack : List Decoration) (e' : Emitter),
        (writeTrailing left).perform e = (.error (x.refusal stack), e') := by
  by_cases hl : left.isEmpty
  · simp [List.isEmpty_iff.1 hl, nest, writeTrailing, trailPieces, perform_pure]
  · have hds := perform_forM_putDecoration (e := e.wrote (openPieces e.stack)) h left
    simp only [Emitter.stack_advance] at hds
    have hsteps : writeTrailing left = (openStack >>= fun _ => left.forM putDecoration >>= fun _ => closeStack) := by
      rw [writeTrailing, if_neg hl]
    simp only [hsteps, perform_bind, perform_openStack h]
    cases hn : nest e.stack left with
    | none =>
      simp only [hn] at hds
      obtain ⟨x, stack, e', hds⟩ := hds
      exact ⟨x, stack, e', by rw [hds]⟩
    | some stack =>
      simp only [hn] at hds
      simp only [hds, perform_closeStack, Emitter.closed_advance, h]
      simp [trailPieces, hl]

/-- A text is written as `setText` says if it can be analysed and its formatting nests. -/
theorem perform_writeParagraph (h : e.closed = false) {p : Paragraph}
    (hp : e.analyzer e.buffer e.paragraphDir.base = .ok p) (hpart : p.Partitions e.buffer) :
    match setText e.style e.buffer (e.ambientFor p.runs) p.runs e.stack e.decorations with
    | some (ps, stack) => ∃ ds, (writeParagraph e.buffer).perform e =
        (.ok (), { e.advance (e.switchFor p.runs ++ ps) stack (e.ambientFor p.runs)
          (e.startPara && p.runs.isEmpty) with decorations := ds })
    | none => ∃ (x : Decoration) (stack : List Decoration) (e' : Emitter),
        (writeParagraph e.buffer).perform e = (.error (x.refusal stack), e') := by
  set marked : Emitter :=
    { e with decorations := e.decorations ++ [{ kind := .endOfText, pos := e.buffer.length }] } with hmarked
  have hruns := perform_writeRunsFrom (e := marked) h hpart (List.nil_append p.runs).symm hpart.contiguous
    (Nat.sub_le e.buffer.length 0) e.decorations
  have hsteps : (writeParagraph e.buffer).perform e = (writeRunsFrom p e.buffer.length 0 marked.decorations >>=
      fun rest => writeTrailing rest.dropLast).perform marked := by
    simp only [writeParagraph, perform_bind, perform_modify, perform_get, hp]
    rfl
  have hambient : marked.ambientFor p.runs = e.ambientFor p.runs := rfl
  have hstyle : marked.style = e.style := rfl
  have hstack : marked.stack = e.stack := rfl
  have hswitch : marked.switchFor p.runs = e.switchFor p.runs := rfl
  have hds : marked.decorations = e.decorations ++ [{ kind := .endOfText, pos := e.buffer.length }] := rfl
  rw [hambient, hstyle, hstack, hswitch] at hruns
  simp only [hsteps, perform_bind, setText, hds]
  cases hl : layRuns e.style e.buffer (e.ambientFor p.runs) (setRuns e.buffer (e.ambientFor p.runs) p.runs) e.stack
      e.decorations with
  | none =>
    simp only [hl] at hruns
    obtain ⟨x, stack, e', hruns⟩ := hruns
    exact ⟨x, stack, e', by rw [hruns]⟩
  | some laid =>
    obtain ⟨ps, stack', left⟩ := laid
    simp only [hl] at hruns
    have htrail := perform_writeTrailing (e := marked.advance (e.switchFor p.runs ++ ps) stack' (e.ambientFor p.runs)
      (e.startPara && p.runs.isEmpty)) h left
    simp only [Emitter.stack_advance] at htrail
    simp only [hruns, List.dropLast_concat, Option.bind_eq_bind, Option.bind_some]
    cases hn : nest stack' left with
    | none =>
      simp only [hn] at htrail
      simpa using htrail
    | some stack'' =>
      simp only [hn] at htrail
      refine ⟨marked.decorations, ?_⟩
      refine htrail.trans ?_
      rw [Emitter.advance_advance, List.append_assoc]
      rfl

/-! ### Writing what is held back -/

theorem perform_writeHeld_of_not_isDue (h : e.isDue = false) :
    writeHeld.perform e = (.ok (), e.turned [] e.stack []) := by
  have hdue : (e.buffer.isEmpty && (splitCarried e.pos e.decorations).1.isEmpty) = true := by
    simpa [Emitter.isDue, Emitter.due] using h
  simp only [writeHeld, perform_bind, perform_get, perform_set, hdue, if_true, perform_modify]
  simp [Emitter.turned, Emitter.settled, Emitter.advance, Emitter.carried, Emitter.switchFor, Emitter.ambientFor]

/-- What is held back is written as `setText` says if it can be analysed and its formatting nests. -/
theorem perform_writeHeld (h : e.closed = false) (hdue : e.isDue = true)
    (hpart : ∀ p, e.analyzer e.buffer e.paragraphDir.base = .ok p → p.Partitions e.buffer) :
    match e.analyzer e.buffer e.paragraphDir.base with
    | .error cause => ∃ e' : Emitter, writeHeld.perform e = (.error (.analysis cause), e') ∧ e'.closed = false
    | .ok p =>
      match setText e.style e.buffer (e.ambientFor p.runs) p.runs e.stack e.due with
      | some (ps, stack) => writeHeld.perform e = (.ok (), e.turned ps stack p.runs)
      | none => ∃ (x : Decoration) (stack : List Decoration) (e' : Emitter),
          writeHeld.perform e = (.error (x.refusal stack), e') := by
  have hnone : ¬ (e.buffer.isEmpty && (splitCarried e.pos e.decorations).1.isEmpty) = true := by
    simpa [Emitter.isDue, Emitter.due, ← not_and_or] using hdue
  set trimmed : Emitter := { e with decorations := e.due } with htrimmed
  have hsteps : writeHeld.perform e = (writeParagraph e.buffer >>= fun _ => modify fun e' : Emitter =>
      { e' with stack := e.carried.reverse ++ e'.stack, buffer := [], decorations := [] }).perform trimmed := by
    simp only [writeHeld, perform_bind, perform_get, perform_set, if_neg hnone]
    rfl
  rw [hsteps, perform_bind]
  cases ha : e.analyzer e.buffer e.paragraphDir.base with
  | error cause =>
    have hfails : (writeParagraph e.buffer).perform trimmed = (.error (.analysis cause),
        { e with decorations := e.due ++ [{ kind := .endOfText, pos := e.buffer.length }] }) := by
      simp only [writeParagraph, perform_bind, perform_modify, perform_get, htrimmed, ha, perform_throw]
    refine ⟨{ e with decorations := e.due ++ [{ kind := .endOfText, pos := e.buffer.length }] }, ?_, h⟩
    rw [hfails]
  | ok p =>
    have htext := perform_writeParagraph (e := trimmed) h ha (hpart p ha)
    have hset : setText e.style e.buffer (e.ambientFor p.runs) p.runs e.stack e.due = setText trimmed.style
      trimmed.buffer (trimmed.ambientFor p.runs) p.runs trimmed.stack trimmed.decorations := rfl
    simp only [hset]
    cases hl : setText trimmed.style trimmed.buffer (trimmed.ambientFor p.runs) p.runs trimmed.stack
        trimmed.decorations with
    | none =>
      simp only [hl] at htext
      obtain ⟨x, stack, e', htext⟩ := htext
      have hbuffer : trimmed.buffer = e.buffer := rfl
      exact ⟨x, stack, e', by rw [← hbuffer, htext]⟩
    | some laid =>
      obtain ⟨ps, stack⟩ := laid
      simp only [hl] at htext
      obtain ⟨ds, htext⟩ := htext
      have hbuffer : trimmed.buffer = e.buffer := rfl
      simp only [← hbuffer, htext, perform_modify]
      rfl

/-- What holds after what is held back has been written, and if there is nothing to write, holds afterwards. -/
theorem leaves_writeHeld {P : Emitter → Prop} (hanalyzer : e.analyzer = paragraph)
    (hopen : e.isDue = true → e.closed = false)
    (hdue : ∀ {p ps stack}, e.isDue = true → paragraph e.buffer e.paragraphDir.base = .ok p →
      setText e.style e.buffer (e.ambientFor p.runs) p.runs e.stack e.due = some (ps, stack) → P (e.turned ps stack p.runs))
    (hnot : e.isDue = false → P (e.turned [] e.stack [])) : Leaves writeHeld e (fun _ e' => P e') fun _ _ => True := by
  by_cases hd : e.isDue = true
  · have hwrite := perform_writeHeld (hopen hd) hd fun p hp => paragraph_partitions (by rwa [hanalyzer] at hp)
    rw [hanalyzer] at hwrite
    cases hp : paragraph e.buffer e.paragraphDir.base with
    | error cause =>
      simp only [hp] at hwrite
      obtain ⟨e', hperform, -⟩ := hwrite
      exact Leaves.of_error hperform trivial
    | ok p =>
      simp only [hp] at hwrite
      cases hset : setText e.style e.buffer (e.ambientFor p.runs) p.runs e.stack e.due with
      | none =>
        simp only [hset] at hwrite
        obtain ⟨x, stack, e', hperform⟩ := hwrite
        exact Leaves.of_error hperform trivial
      | some laid =>
        simp only [hset] at hwrite
        exact Leaves.of_ok hwrite (hdue hd hp hset)
  · have hd' : e.isDue = false := by simpa using hd
    exact Leaves.of_ok (perform_writeHeld_of_not_isDue hd') (hnot hd')

/-- Afterwards nothing is held back. -/
theorem writeHeld_settles (e : Emitter) :
    Leaves writeHeld e (fun _ e' => e'.buffer = [] ∧ e'.decorations = []) fun _ _ => True := by
  refine Leaves.get_bind ?_
  refine Leaves.bind (M := fun _ _ => True) (Leaves.of_ok (perform_set _ _) trivial) fun _ e₁ _ => ?_
  dsimp only
  split
  · exact Leaves.of_modify ⟨rfl, rfl⟩
  · exact (Leaves.trivial _ _).bind fun _ _ _ => Leaves.of_modify ⟨rfl, rfl⟩

end Emit

/-! ### What pieces have from their decorations -/

/-- Pieces other than the ends of runs have the property `Q` if the decorations they come from have `D`, and the
formatting around them has `S`. -/
structure Weaves (D S : Decoration → Prop) (Q : Piece → Prop) : Prop where
  text : ∀ style s, Q (.text style s)
  opening : ∀ {d}, S d → Q (.openInline d.value d.delimiters)
  closing : ∀ {d}, S d → Q (.closeInline d.delimiters.closing)
  pieces : ∀ {d}, D d → ∀ p ∈ d.pieces, Q p
  stacked : ∀ {d}, d.kind = .startInline → D d → S d

/-- All pieces have the property. -/
structure Inherits (D S : Decoration → Prop) (Q : Piece → Prop) : Prop extends Weaves D S Q where
  openRun : ∀ d, Q (.openRun d)
  closeRun : Q .closeRun

namespace Weaves

variable {D S : Decoration → Prop} {Q : Piece → Prop} {stack stack' ds : List Decoration}

theorem after (hQ : Weaves D S Q) {d : Decoration} (hd : D d) (hstack : ∀ x ∈ stack, S x)
    (h : d.after? stack = some stack') : ∀ x ∈ stack', S x := by
  unfold Decoration.after? at h
  cases hk : d.kind <;> simp only [hk, reduceCtorEq, Option.some.injEq] at h
  case startInline => exact h ▸ List.forall_mem_cons.2 ⟨hQ.stacked hk hd, hstack⟩
  case endInline =>
    cases stack with
    | nil => cases h
    | cons innermost rest =>
      by_cases hv : innermost.value = d.value
      · simp only [hv, if_true, Option.some.injEq] at h
        exact h ▸ fun x hx => hstack x (by simp [hx])
      · simp [hv] at h
  all_goals exact h ▸ hstack

theorem nest (hQ : Weaves D S Q) (hds : ∀ d ∈ ds, D d) (hstack : ∀ x ∈ stack, S x)
    (h : nest stack ds = some stack') : ∀ x ∈ stack', S x := by
  induction ds generalizing stack with
  | nil =>
    cases h
    exact hstack
  | cons d ds ih =>
    obtain ⟨mid, hd, hrest⟩ := Option.bind_eq_some_iff.1 h
    exact ih (fun x hx => hds x (by simp [hx])) (hQ.after (hds d (by simp)) hstack hd) hrest

theorem openPieces (hQ : Weaves D S Q) (hstack : ∀ x ∈ stack, S x) : ∀ p ∈ openPieces stack, Q p := by
  intro p hp
  obtain ⟨d, hd, rfl⟩ := List.mem_map.1 hp
  exact hQ.opening (hstack d (List.mem_reverse.1 hd))

theorem closePieces (hQ : Weaves D S Q) (hstack : ∀ x ∈ stack, S x) : ∀ p ∈ closePieces stack, Q p := by
  intro p hp
  obtain ⟨d, hd, rfl⟩ := List.mem_map.1 hp
  exact hQ.closing (hstack d hd)

theorem textPieces (hQ : Weaves D S Q) (style : TextStyle) (s : List Char) : ∀ p ∈ textPieces style s, Q p := by
  unfold Latex.textPieces
  split
  · nofun
  · exact List.forall_mem_singleton.2 (hQ.text style s)

theorem weave (hQ : Weaves D S Q) (style : TextStyle) (text : List Char) (pos : Nat) (hds : ∀ d ∈ ds, D d) :
    ∀ p ∈ weave style text pos ds, Q p := by
  induction ds generalizing pos with
  | nil => nofun
  | cons d ds ih =>
    have hrest := ih d.pos fun x hx => hds x (by simp [hx])
    exact List.forall_mem_append.2 ⟨List.forall_mem_append.2 ⟨hQ.textPieces style _, hQ.pieces (hds d (by simp))⟩, hrest⟩

/-- What stands between the ends of a span. -/
theorem spanText (hQ : Weaves D S Q) (style : TextStyle) (text : List Char) (r : Run) (hstack : ∀ x ∈ stack, S x)
    (hstack' : ∀ x ∈ stack', S x) (hds : ∀ d ∈ ds, D d) : ∀ p ∈ Latex.openPieces stack ++ Latex.weave style text r.start ds ++
      Latex.textPieces style (slice text (offsetAfter r.start ds) r.stop) ++ Latex.closePieces stack', Q p := by
  simp only [List.forall_mem_append]
  exact ⟨⟨⟨hQ.openPieces hstack, hQ.weave style text r.start hds⟩, hQ.textPieces style _⟩, hQ.closePieces hstack'⟩

theorem trailPieces (hQ : Weaves D S Q) (hstack : ∀ x ∈ stack, S x) (hstack' : ∀ x ∈ stack', S x)
    (hds : ∀ d ∈ ds, D d) : ∀ p ∈ trailPieces stack stack' ds, Q p := by
  have hmarks : ∀ p ∈ ds.flatMap Decoration.pieces, Q p := by
    intro p hp
    obtain ⟨d, hd, hp⟩ := List.mem_flatMap.1 hp
    exact hQ.pieces (hds d hd) p hp
  unfold Latex.trailPieces
  split
  · nofun
  · simp only [List.forall_mem_append]
    exact ⟨⟨hQ.openPieces hstack, hmarks⟩, hQ.closePieces hstack'⟩

end Weaves

namespace Inherits

variable {D S : Decoration → Prop} {Q : Piece → Prop} {stack stack' ds : List Decoration}

theorem spanPieces (hQ : Inherits D S Q) (style : TextStyle) (text : List Char) (contextDir : NamedDirection) (r : Run)
    (hstack : ∀ x ∈ stack, S x) (hstack' : ∀ x ∈ stack', S x) (hds : ∀ d ∈ ds, D d) :
    ∀ p ∈ spanPieces style text contextDir r stack stack' ds, Q p := by
  have henter : ∀ p ∈ enterPieces contextDir r.direction, Q p := by
    unfold enterPieces
    split
    · nofun
    · exact List.forall_mem_singleton.2 (hQ.openRun r.direction)
  have hexit : ∀ p ∈ exitPieces contextDir r.direction, Q p := by
    unfold exitPieces
    split
    · nofun
    · exact List.forall_mem_singleton.2 hQ.closeRun
  have htext := hQ.spanText style text r hstack hstack' hds
  simp only [List.forall_mem_append] at htext
  obtain ⟨⟨⟨hopen, hweave⟩, hlast⟩, hclose⟩ := htext
  simp only [Latex.spanPieces, List.forall_mem_append]
  exact ⟨⟨⟨⟨⟨henter, hopen⟩, hweave⟩, hlast⟩, hclose⟩, hexit⟩

theorem layRuns (hQ : Inherits D S Q) {style : TextStyle} {text : List Char} {contextDir : NamedDirection}
    {rs : List Run} {left : List Decoration} {ps : List Piece} (hds : ∀ d ∈ ds, D d) (hstack : ∀ x ∈ stack, S x)
    (h : layRuns style text contextDir rs stack ds = some (ps, stack', left)) :
    (∀ p ∈ ps, Q p) ∧ (∀ x ∈ stack', S x) ∧ ∀ d ∈ left, D d := by
  induction rs generalizing stack ds ps with
  | nil =>
    cases h
    exact ⟨nofun, hstack, hds⟩
  | cons r rs ih =>
    simp only [Latex.layRuns, Option.bind_eq_bind] at h
    obtain ⟨mid, hmid, h⟩ := Option.bind_eq_some_iff.1 h
    obtain ⟨⟨ps', stack'', left'⟩, hlay, h⟩ := Option.bind_eq_some_iff.1 h
    cases h
    have hhere : ∀ d ∈ ds.takeWhile (belongs r.stop), D d := fun d hd => hds d (List.takeWhile_subset _ hd)
    have hmidS := hQ.nest hhere hstack hmid
    obtain ⟨hps, hstack', hleft⟩ := ih (fun d hd => hds d (List.dropWhile_subset _ hd)) hmidS hlay
    exact ⟨List.forall_mem_append.2 ⟨hQ.spanPieces style text contextDir r hstack hmidS hhere, hps⟩, hstack', hleft⟩

/-- All pieces of a text have the property, and the formatting that is open after it has the one of formatting. -/
theorem setText (hQ : Inherits D S Q) {style : TextStyle} {text : List Char} {contextDir : NamedDirection}
    {runs : List Run} {ps : List Piece} (hds : ∀ d ∈ ds, D d) (hstack : ∀ x ∈ stack, S x)
    (h : setText style text contextDir runs stack ds = some (ps, stack')) : (∀ p ∈ ps, Q p) ∧ ∀ x ∈ stack', S x := by
  simp only [Latex.setText, Option.bind_eq_bind] at h
  obtain ⟨⟨ps', mid, left⟩, hlay, h⟩ := Option.bind_eq_some_iff.1 h
  obtain ⟨stack'', hnest, h⟩ := Option.bind_eq_some_iff.1 h
  cases h
  obtain ⟨hps, hmid, hleft⟩ := hQ.layRuns hds hstack hlay
  have hstack' := hQ.nest hleft hmid hnest
  exact ⟨List.forall_mem_append.2 ⟨hps, hQ.trailPieces hmid hstack' hleft⟩, hstack'⟩

end Inherits

end WikiTypeset.Latex
