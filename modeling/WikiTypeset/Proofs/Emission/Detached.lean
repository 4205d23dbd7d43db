import WikiTypeset.Proofs.Emission.Following
import WikiTypeset.Proofs.Emission.Formatting
import WikiTypeset.Proofs.Emission.Held

/-!
# Fragments outside all runs

A fragment that is recorded after the last character of a text stands behind its last run when the text is written. So a
program keeps some fragments outside all runs if it turns before it writes anything after one of them; its blocks are
there anyway. `Operation.detach` checks this. Main statement: `performAll_detaches`.
-/

namespace WikiTypeset.Latex

open Action Bidi Emit

/-! ### Pieces outside runs -/

section Pieces

variable (chosen : String → Bool)

/-- Whether a decoration is a block or one of the chosen fragments. -/
def Decoration.isChosen (d : Decoration) : Bool :=
  match d.kind with
  | .raw => chosen d.value
  | .startBlock | .endBlock => true
  | _ => false

/-- Whether a piece is a block or one of the chosen fragments. -/
def Piece.isChosen : Piece → Bool
  | .fragment value => chosen value
  | .block _ => true
  | _ => false

/-- Whether a run starts or ends with a piece. -/
def Piece.isRunEnd : Piece → Bool
  | .openRun _ | .closeRun => true
  | _ => false

/-- Whether a run is open after a piece. Runs do not nest, and what is chosen stands outside them. -/
def Piece.apart (inRun : Bool) : Piece → Option Bool
  | .openRun _ => if inRun then none else some true
  | .closeRun => if inRun then some false else none
  | p => if inRun && p.isChosen chosen then none else some inRun

/-- Whether a run is open after some pieces. -/
abbrev apartAll : Bool → List Piece → Option Bool := List.foldlM (Piece.apart chosen)

variable {chosen} {inRun : Bool} {ps : List Piece}

theorem Piece.apart_of_not_isRunEnd {p : Piece} (hp : p.isRunEnd = false) (hinRun : (inRun && p.isChosen chosen) = false) :
    p.apart chosen inRun = some inRun := by
  cases p with
  | openRun _ | closeRun => cases hp
  | _ => simp [apart, hinRun]

/-- Pieces that are neither chosen nor ends of runs may stand in runs too. -/
theorem apartAll_of_unchosen (h : ∀ p ∈ ps, p.isRunEnd = false ∧ p.isChosen chosen = false) :
    apartAll chosen inRun ps = some inRun := by
  induction ps with
  | nil => rfl
  | cons p ps ih =>
    obtain ⟨⟨hp, hchosen⟩, hps⟩ := List.forall_mem_cons.1 h
    have hone : p.apart chosen inRun = some inRun := Piece.apart_of_not_isRunEnd hp (by simp [hchosen])
    simpa [List.foldlM_cons, hone] using ih hps

/-- Outside runs all pieces may stand. -/
theorem apartAll_outside (h : ∀ p ∈ ps, p.isRunEnd = false) : apartAll chosen false ps = some false := by
  induction ps with
  | nil => rfl
  | cons p ps ih =>
    obtain ⟨hp, hps⟩ := List.forall_mem_cons.1 h
    have hone : p.apart chosen false = some false := Piece.apart_of_not_isRunEnd hp rfl
    simpa [List.foldlM_cons, hone] using ih hps

theorem apartAll_append_of {qs : List Piece} {mid after : Bool} (h : apartAll chosen inRun ps = some mid)
    (h' : apartAll chosen mid qs = some after) : apartAll chosen inRun (ps ++ qs) = some after := by
  have hbind : apartAll chosen inRun (ps ++ qs) = (apartAll chosen inRun ps).bind fun b => apartAll chosen b qs :=
    List.foldlM_append
  rw [hbind, h]
  exact h'

/-- What stands in a span without chosen fragments. -/
theorem weaves_unchosen : Weaves (·.isChosen chosen = false) (fun _ => True)
    fun p => p.isRunEnd = false ∧ p.isChosen chosen = false where
  text _ _ := ⟨rfl, rfl⟩
  opening _ := ⟨rfl, rfl⟩
  closing _ := ⟨rfl, rfl⟩
  pieces {d} hd := by
    unfold Decoration.isChosen at hd
    unfold Decoration.pieces
    cases hk : d.kind <;> simp only [hk, Bool.true_eq_false] at hd <;> simp [Piece.isRunEnd, Piece.isChosen, hd]
  stacked _ _ := trivial

/-- Formatting and fragments start and end no runs. -/
theorem weaves_inline : Weaves (fun _ => True) (fun _ => True) (·.isRunEnd = false) where
  text _ _ := rfl
  opening _ := rfl
  closing _ := rfl
  pieces {d} _ := by
    unfold Decoration.pieces
    cases d.kind <;> simp [Piece.isRunEnd]
  stacked _ _ := trivial

/-- No formatting is chosen. -/
theorem inherits_unchosen : Inherits (fun _ => True) (·.isChosen chosen = false) (fun _ => True) where
  text _ _ := trivial
  openRun _ := trivial
  closeRun := trivial
  opening _ := trivial
  closing _ := trivial
  pieces _ _ _ := trivial
  stacked hk _ := by simp [Decoration.isChosen, hk]

variable {style : TextStyle} {text : List Char} {contextDir : NamedDirection} {stack stack' ds left : List Decoration}

/-- A span without chosen fragments ends the run that it starts. -/
theorem apart_spanPieces (r : Run) (hds : ∀ d ∈ ds, d.isChosen chosen = false) :
    apartAll chosen false (spanPieces style text contextDir r stack stack' ds) = some false := by
  have hany : ∀ ds : List Decoration, ∀ d ∈ ds, True := fun _ _ _ => trivial
  have htext := weaves_unchosen.spanText style text r (hany stack) (hany stack') hds
  have houtside : apartAll chosen false _ = some false := apartAll_of_unchosen htext
  unfold spanPieces enterPieces exitPieces
  by_cases hd : NamedDirection.known r.direction = contextDir
  · simpa [hd] using houtside
  · have hwrapped : apartAll chosen false ([.openRun r.direction] ++ _ ++ [.closeRun]) = some false :=
      apartAll_append_of (apartAll_append_of rfl (apartAll_of_unchosen htext)) rfl
    simpa [hd] using hwrapped

/-- Chosen fragments after the last character stand in no span. -/
theorem apart_layRuns {rs : List Run} {start stop : Nat} {ps : List Piece} (hrs : Contiguous start rs stop)
    (hds : ∀ d ∈ ds, d.isChosen chosen = true → d.pos = stop ∧ (d.isEnd = true → rs = []))
    (h : layRuns style text contextDir rs stack ds = some (ps, stack', left)) : apartAll chosen false ps = some false := by
  induction rs generalizing start stack ds ps with
  | nil =>
    cases h
    rfl
  | cons r rs ih =>
    obtain ⟨rfl, hlt, hrest⟩ := hrs
    simp only [layRuns, Option.bind_eq_bind] at h
    obtain ⟨mid, hmid, h⟩ := Option.bind_eq_some_iff.1 h
    obtain ⟨⟨ps', stack'', left'⟩, hlay, h⟩ := Option.bind_eq_some_iff.1 h
    cases h
    have hle := hrest.le
    have hhere : ∀ d ∈ ds.takeWhile (belongs r.stop), d.isChosen chosen = false := by
      intro d hd
      have hbelongs := List.mem_takeWhile_imp hd
      by_contra hchosen
      obtain ⟨hpos, hend⟩ := hds d (List.takeWhile_subset _ hd) (by simpa using hchosen)
      have hnotEnd : d.isEnd = false := by simpa using fun he => List.cons_ne_nil r rs (hend he)
      simp only [belongs, hnotEnd, Bool.and_false, Bool.or_false, decide_eq_true_eq] at hbelongs
      omega
    have hleft : ∀ d ∈ ds.dropWhile (belongs r.stop), d.isChosen chosen = true →
        d.pos = stop ∧ (d.isEnd = true → rs = []) := by
      intro d hd hchosen
      obtain ⟨hpos, hend⟩ := hds d (List.dropWhile_subset _ hd) hchosen
      exact ⟨hpos, fun he => absurd (hend he) (List.cons_ne_nil r rs)⟩
    exact apartAll_append_of (apart_spanPieces r hhere) (ih hrest hleft hlay)

/-- In a text with the chosen fragments after its last character they stand outside all runs. -/
theorem apart_setText {runs : List Run} {ps : List Piece} (hruns : Contiguous 0 runs text.length)
    (hds : ∀ d ∈ ds, d.isChosen chosen = true → d.pos = text.length ∧ (d.isEnd = true → text = []))
    (hstack : ∀ d ∈ stack, d.isChosen chosen = false)
    (h : setText style text contextDir runs stack ds = some (ps, stack')) :
    apartAll chosen false ps = some false ∧ ∀ d ∈ stack', d.isChosen chosen = false := by
  have hstack' := (inherits_unchosen.setText (fun _ _ => trivial) hstack h).2
  refine ⟨?_, hstack'⟩
  simp only [setText, Option.bind_eq_bind] at h
  obtain ⟨⟨ps', mid, left⟩, hlay, h⟩ := Option.bind_eq_some_iff.1 h
  obtain ⟨stack'', -, h⟩ := Option.bind_eq_some_iff.1 h
  cases h
  have hset := contiguous_setRuns text contextDir hruns
  have hlate : ∀ d ∈ ds, d.isChosen chosen = true → d.pos = text.length ∧
      (d.isEnd = true → setRuns text contextDir runs = []) := by
    intro d hd hchosen
    obtain ⟨hpos, hend⟩ := hds d hd hchosen
    refine ⟨hpos, fun he => ?_⟩
    obtain rfl := hend he
    -- Where there is no text there is no run.
    cases hrs : setRuns [] contextDir runs with
    | nil => rfl
    | cons r rs =>
      rw [hrs] at hset
      have hle : r.stop ≤ 0 := hset.2.2.le
      have hlt := hset.2.1
      omega
  refine apartAll_append_of (apart_layRuns hset hlate hlay) (apartAll_outside ?_)
  exact weaves_inline.trailPieces (fun _ _ => trivial) (fun _ _ => trivial) fun _ _ => trivial

end Pieces

/-! ### Emitters -/

variable {chosen : String → Bool} {late : Bool}

namespace Emitter

variable {e : Emitter} {l : Ledger} {inside : List Wrapper}

/-- What is chosen stands outside all runs of the output. None of it is held back, or, if `late`, none of it before more
text. -/
structure Detaches (chosen : String → Bool) (late : Bool) (e : Emitter) (l : Ledger) : Prop extends e.Agrees l where
  analyzer : e.analyzer = paragraph
  open_of_due : e.isDue = true → e.closed = false
  held : ∀ d ∈ e.decorations, d.isChosen chosen = true →
    late = true ∧ d.pos = e.buffer.length ∧ (d.isEnd = true → e.buffer = [])
  stack : ∀ d ∈ e.stack, d.isChosen chosen = false
  output : apartAll chosen false e.output = some false

theorem Detaches.unchosen (h : e.Detaches chosen false l) : ∀ d ∈ e.decorations, d.isChosen chosen = false := by
  intro d hd
  by_contra hchosen
  obtain ⟨hlate, -⟩ := h.held d hd (by simpa using hchosen)
  cases hlate

theorem apart_switchFor (e : Emitter) (runs : List Run) : apartAll chosen false (e.switchFor runs) = some false := by
  refine apartAll_outside ?_
  cases runs with
  | nil => exact List.forall_mem_nil _
  | cons r runs =>
    by_cases hs : e.switches r.direction = true
    · simp [switchFor, switchPieces, hs, Piece.isRunEnd]
    · simp [switchFor, switchPieces, hs]

theorem Detaches.turn (h : e.Detaches chosen late l) :
    Leaves writeHeld e (fun _ e' => e'.Detaches chosen false l.turn) fun _ _ => True := by
  have hcarried : ∀ d ∈ e.carried.reverse, d.isChosen chosen = false := by
    intro d hd
    have hopens := opensAt_of_mem_carried (List.mem_reverse.1 hd)
    simp only [opensAt, Bool.and_eq_true, decide_eq_true_eq] at hopens
    simp [Decoration.isChosen, hopens.1]
  refine leaves_writeHeld h.analyzer h.open_of_due (fun {p ps stack} _ hp hset => ?_) fun _ => ?_
  · have hdue : ∀ d ∈ e.due, d.isChosen chosen = true → d.pos = e.buffer.length ∧ (d.isEnd = true → e.buffer = []) :=
      fun d hd hchosen => (h.held d (e.due_append_carried ▸ List.mem_append_left _ hd) hchosen).2
    obtain ⟨hps, hstack⟩ := apart_setText (paragraph_partitions hp).contiguous hdue h.stack hset
    refine ⟨h.toAgrees.turned _ _ _, h.analyzer, fun hdue => absurd hdue Bool.false_ne_true, List.forall_mem_nil _,
      List.forall_mem_append.2 ⟨hcarried, hstack⟩, ?_⟩
    rw [output_turned]
    exact apartAll_append_of h.output (apartAll_append_of (e.apart_switchFor p.runs) hps)
  · refine ⟨h.toAgrees.turned _ _ _, h.analyzer, fun hdue => absurd hdue Bool.false_ne_true, List.forall_mem_nil _,
      List.forall_mem_append.2 ⟨hcarried, h.stack⟩, ?_⟩
    rw [output_turned]
    exact apartAll_append_of h.output rfl

/-- Only what is held back and what has been written matter, besides what the ledger knows. -/
theorem Detaches.of_agrees {late' : Bool} {e' : Emitter} {l' : Ledger} (h : e.Detaches chosen late l) (hag : e'.Agrees l')
    (hanalyzer : e'.analyzer = e.analyzer) (hopen : e'.isDue = true → e'.closed = false)
    (hheld : ∀ d ∈ e'.decorations, d.isChosen chosen = true →
      late' = true ∧ d.pos = e'.buffer.length ∧ (d.isEnd = true → e'.buffer = []))
    (hstack : ∀ d ∈ e'.stack, d.isChosen chosen = false) (hwritten : e'.written = e.written) :
    e'.Detaches chosen late' l' := by
  have houtput : e'.output = e.output := congrArg List.reverse hwritten
  refine ⟨hag, hanalyzer.trans h.analyzer, hopen, hheld, hstack, ?_⟩
  rw [houtput]
  exact h.output

theorem Detaches.weaken (h : e.Detaches chosen false l) (late : Bool) : e.Detaches chosen late l :=
  h.of_agrees h.toAgrees rfl h.open_of_due (fun d hd hchosen => absurd (h.unchosen d hd) (by simp [hchosen])) h.stack rfl

/-- A piece outside all runs. -/
theorem Detaches.wrote (h : e.Detaches chosen late l) (hopen : e.closed = false) {p : Piece} (hp : p.isRunEnd = false) :
    (e.wrote [p]).Detaches chosen late l := by
  refine ⟨{ h.toAgrees with }, h.analyzer, fun _ => hopen, h.held, h.stack, ?_⟩
  rw [output_advance]
  exact apartAll_append_of h.output (apartAll_outside (List.forall_mem_singleton.2 hp))

theorem coupled_detaches (chosen : String → Bool) (late : Bool) (all : List Turn) :
    Coupled (fun e l => e.Detaches chosen late l) (fun _ _ => True) all where
  agrees h := h.toAgrees
  turn h _ := h.turn.imp_left fun _ _ h' => h'.weaken late
  lineEnd h hp := leaves_put _ fun hopen => h.wrote hopen (by rcases hp with rfl | rfl | rfl <;> rfl)
  alike h ha hag _ _ := by
    refine h.of_agrees hag ha.analyzer (fun hdue => ?_) ?_ ?_ ha.written
    · rw [ha.closed]
      exact h.open_of_due (ha.isDue_eq ▸ hdue)
    · rw [ha.decorations, ha.buffer]
      exact h.held
    · rw [ha.stack]
      exact h.stack

theorem formats_detaches (chosen : String → Bool) :
    Formats (·.isChosen chosen = false) fun e l => e.Detaches chosen false l where
  agrees h := h.toAgrees
  open_of_due h := h.open_of_due
  decorations h := h.unchosen
  stack h := h.stack
  moved _ hd := hd
  turn h := h.turn
  lineEnd h hopen hp := h.wrote hopen (by rcases hp with rfl | rfl | rfl <;> rfl)
  of_agrees h hag hanalyzer hopen hdecorations hstack hwritten _ _ :=
    h.of_agrees hag hanalyzer hopen (fun d hd hchosen => absurd (hdecorations d hd) (by simp [hchosen])) hstack hwritten

/-- What is recorded comes after all text so far. -/
theorem Detaches.record (h : e.Detaches chosen late l) (d : Decoration)
    (hd : d.isChosen chosen = true → d.isEnd = true → l.text = [])
    (inside : List Wrapper) :
    Leaves (Emit.record d) e (fun _ e' => e'.Detaches chosen (late || d.isChosen chosen) (l.record d inside))
      fun _ _ => True := by
  refine leaves_record d fun hopen =>
    ⟨h.toAgrees.recorded d inside, h.analyzer, fun _ => hopen, fun x hx hchosen => ?_, h.stack, h.output⟩
  rcases List.mem_append.1 hx with hx | hx
  · obtain ⟨hlate, hpos⟩ := h.held x hx hchosen
    exact ⟨by simp [hlate], hpos⟩
  · obtain rfl := List.mem_singleton.1 hx
    have hd' : d.isChosen chosen = true := hchosen
    exact ⟨by simp [hd'], rfl, fun he => h.text.trans (hd hd' he)⟩

/-- A block on a line of its own. -/
theorem Detaches.block (h : e.Detaches chosen false l) {d : Decoration} (hkind : d.kind = .startBlock ∨ d.kind = .endBlock) :
    Leaves (writeBlock d) e (fun _ e' => e'.Detaches chosen false (l.block d.value)) fun _ _ => True := by
  have hrecord : l.envBreak.turn.record d [] = l.envBreak.turn.place (.block d.value) [] := Ledger.record_block hkind
  refine ((coupled_detaches chosen false _).envBreak h (List.Subset.refl _)).bind fun _ e₁ h₁ => ?_
  refine (formats_detaches chosen).isolated_of_turn h₁ (P := fun e' => e'.Detaches chosen true
    (l.envBreak.turn.place (.block d.value) []).envBreak) (fun h₂ => ?_) fun h₂ => h₂.turn
  have hchosen : d.isChosen chosen = true := by rcases hkind with hk | hk <;> simp [Decoration.isChosen, hk]
  have hrecorded := h₂.record d (fun _ _ => rfl) []
  rw [hrecord, hchosen] at hrecorded
  exact hrecorded.bind fun _ e₃ h₃ => (coupled_detaches chosen true _).envBreak h₃ (List.Subset.refl _)

theorem Detaches.assumeDirection (h : e.Detaches chosen late l) (direction : NamedDirection) :
    Leaves (Emit.assumeDirection direction) e (fun _ e' => e'.Detaches chosen false l.turn) fun _ _ => True := by
  refine h.turn.bind fun _ e₁ h₁ => Leaves.of_modify ?_
  refine ⟨{ h₁.toAgrees with }, h₁.analyzer, h₁.open_of_due, h₁.held, h₁.stack, ?_⟩
  have houtput : ({ e₁ with contextDir := direction, written := .assumeDirection direction :: e₁.written } : Emitter).output =
      e₁.output ++ [.assumeDirection direction] := List.reverse_cons
  rw [houtput]
  exact apartAll_append_of h₁.output rfl

end Emitter

/-! ### Programs -/

section Programs

variable (chosen)

mutual

/-- Whether something chosen may be held back after an operation, if `late` says so before it. None if the operation
writes text after it. -/
def Operation.detach? (late : Bool) : Operation → Option Bool
  | .write _ | .beginEnv _ _ | .endEnv _ | .flush => if late then none else some false
  | .record d => if d.kind = .endBlock then none else some (late || d.isChosen chosen)
  | .wrap _ _ content => detachAll? late content
  | .isolated content => if late then none else (detachAll? false content).map fun _ => false
  | .resuming content => (detachAll? late content).map fun _ => false
  | .assumeDirection _ | .dirBreak => some false
  | _ => some late

/-- Whether something chosen may be held back after a program. -/
def detachAll? (late : Bool) : List Operation → Option Bool
  | [] => some late
  | o :: os => (o.detach? late).bind fun late => detachAll? late os

end

variable {chosen}

theorem detachAll?_append_of {os os' : List Operation} {mid after : Bool} (h : detachAll? chosen late os = some mid)
    (h' : detachAll? chosen mid os' = some after) : detachAll? chosen late (os ++ os') = some after := by
  induction os generalizing late with
  | nil =>
    cases h
    exact h'
  | cons o os ih =>
    obtain ⟨first, hfirst, hrest⟩ := Option.bind_eq_some_iff.1 h
    simp [detachAll?, hfirst, ih hrest]

theorem detachAll?_isolated {os : List Operation} (h : detachAll? chosen false os = some late) :
    detachAll? chosen false [.isolated os] = some false := by
  simp [detachAll?, Operation.detach?, h]

mutual

theorem Operation.perform_detaches (o : Operation) {e : Emitter} {l : Ledger} (inside : List Wrapper) {late late' : Bool}
    (ho : o.detach? chosen late = some late') (h : e.Detaches chosen late l) :
    Leaves o.perform e (fun _ e' => e'.Detaches chosen late' (o.keep inside l)) fun _ _ => True := by
  have hf := Emitter.formats_detaches chosen
  have hc := Emitter.coupled_detaches chosen late (o.keep inside l).turns
  have hall := List.Subset.refl (o.keep inside l).turns
  cases o with
  | write text =>
    cases late <;> cases ho
    exact hf.write inside h text
  | record d =>
    rw [Operation.detach?] at ho
    split at ho
    next => cases ho
    next hk =>
      cases ho
      refine h.record d (fun hchosen hend => ?_) inside
      unfold Decoration.isChosen at hchosen
      unfold Decoration.isEnd at hend
      cases hkind : d.kind <;> simp [hkind] at hchosen hend hk
  | wrap command delimiters content =>
    have hstart : (Decoration.startInline command delimiters).isChosen chosen = false := rfl
    have hend : (Decoration.endInline command delimiters).isChosen chosen = false := rfl
    have hopened := h.record (.startInline command delimiters) (fun hd => absurd hd (by simp [hstart])) []
    rw [hstart, Bool.or_false] at hopened
    refine hopened.bind fun _ e₁ h₁ => Leaves.finishing ?_
    refine (performAll_detaches content (inside ++ [⟨command, delimiters⟩]) ho h₁).imp (fun _ e₂ h₂ => ?_)
      fun _ e₂ _ => (Leaves.trivial _ e₂).imp (fun _ _ _ => trivial) fun _ _ _ => trivial
    have hclosed := h₂.record (.endInline command delimiters) (fun hd => absurd hd (by simp [hend])) []
    rw [hend, Bool.or_false] at hclosed
    exact hclosed
  | isolated content =>
    cases late with
    | true => cases ho
    | false =>
      obtain ⟨held, hcontent, rfl⟩ := Option.map_eq_some_iff.1 ho
      exact hf.isolated_of_turn h (fun h₁ => performAll_detaches content [] hcontent h₁) fun h₂ => h₂.turn
  | beginEnv env options =>
    cases late <;> cases ho
    exact (h.block (.inl rfl)).bind fun _ e' h' => hc.resetLine h'
  | endEnv env =>
    cases late <;> cases ho
    refine (h.block (.inr rfl)).bind fun _ e' h' => Leaves.of_modify ?_
    have hag := h'.toAgrees
    exact hc.alike h' ⟨rfl, rfl, rfl, rfl, rfl, rfl, rfl⟩ { hag with newLine := rfl, newPara := rfl } rfl rfl
  | switchDirection direction =>
    cases ho
    exact hc.switchDirection h hall direction
  | assumeDirection direction =>
    cases ho
    exact h.assumeDirection direction
  | resuming content =>
    obtain ⟨held, hcontent, rfl⟩ := Option.map_eq_some_iff.1 ho
    refine Leaves.get_bind ?_
    exact (performAll_detaches content inside hcontent h).bind fun _ e' h' => h'.assumeDirection _
  | setCoverage latinCoverage =>
    cases ho
    exact hc.setCoverage h hall latinCoverage
  | deepenList n =>
    cases ho
    exact Leaves.of_modify (hc.deepenList h n)
  | deepenToc n =>
    cases ho
    exact Leaves.of_modify (hc.deepenToc h n)
  | paragraphBreak =>
    cases ho
    exact hc.paragraphBreak h hall
  | lineBreak =>
    cases ho
    exact hc.lineBreak h hall
  | envBreak =>
    cases ho
    exact hc.envBreak h hall
  | dirBreak =>
    cases ho
    exact h.turn
  | resetLine =>
    cases ho
    exact hc.resetLine h
  | flush =>
    cases late <;> cases ho
    exact hf.flush h

/-- A program that writes no text between what is chosen and the next turn keeps it outside all runs. -/
theorem performAll_detaches (os : List Operation) {e : Emitter} {l : Ledger} (inside : List Wrapper) {late late' : Bool}
    (hos : detachAll? chosen late os = some late') (h : e.Detaches chosen late l) :
    Leaves (performAll os) e (fun _ e' => e'.Detaches chosen late' (keepAll inside os l)) fun _ _ => True := by
  cases os with
  | nil =>
    cases hos
    exact Leaves.of_pure h
  | cons o os =>
    obtain ⟨mid, ho, hos⟩ := Option.bind_eq_some_iff.1 hos
    exact (Operation.perform_detaches o inside ho h).bind fun _ e' h' => performAll_detaches os inside hos h'

end

theorem start_detaches (chosen : String → Bool) (direction : NamedDirection) :
    (Emitter.start direction).Detaches chosen false (Ledger.start direction) :=
  ⟨⟨rfl, rfl, rfl, rfl, rfl, rfl, rfl, Nat.le_refl _⟩, rfl, nofun, List.forall_mem_nil _, List.forall_mem_nil _, rfl⟩

end Programs

/-! ### What is open around a chosen piece -/

section Frames

variable {frames frames' : List Frame} {found : List Placed} {inRun inRun' : Bool} {ps : List Piece}

theorem Piece.count_run {p : Piece} (hread : p.read frames = some (found, frames'))
    (hapart : p.apart chosen inRun = some inRun') (hframes : frames.count .run = inRun.toNat) :
    frames'.count .run = inRun'.toNat := by
  cases p with
  | openRun d =>
    cases inRun <;> cases hapart
    cases hread
    simp [hframes]
  | closeRun =>
    cases inRun <;> cases hapart
    obtain _ | ⟨_ | _, frames⟩ := frames <;> cases hread
    simpa using hframes
  | closeInline delimiter =>
    obtain _ | ⟨_ | _, frames⟩ := frames <;> simp only [read, reduceCtorEq, Option.ite_none_right_eq_some] at hread
    obtain ⟨-, hread⟩ := hread
    cases hread
    obtain ⟨-, hinRun⟩ := Option.ite_none_left_eq_some.1 hapart
    cases hinRun
    simpa using hframes
  | openInline command delimiters =>
    cases hread
    obtain ⟨-, hinRun⟩ := Option.ite_none_left_eq_some.1 hapart
    cases hinRun
    simpa using hframes
  | _ =>
    cases hread
    obtain ⟨-, hinRun⟩ := Option.ite_none_left_eq_some.1 hapart
    cases hinRun
    exact hframes

/-- A reading has the runs open that are. -/
theorem count_run (hread : readPieces frames ps = some (found, frames')) (hapart : apartAll chosen inRun ps = some inRun')
    (hframes : frames.count .run = inRun.toNat) : frames'.count .run = inRun'.toNat := by
  induction ps generalizing frames found inRun with
  | nil =>
    cases hread
    cases hapart
    exact hframes
  | cons p ps ih =>
    obtain ⟨first, mid, rest, hfirst, hrest, rfl⟩ := gather_cons_inv hread
    obtain ⟨between, hp, hps⟩ := Option.bind_eq_some_iff.1 (List.foldlM_cons.symm.trans hapart)
    exact ih hrest hps (Piece.count_run hfirst hp hframes)

/-- Without runs only formatting is open. -/
theorem frames_eq_of_not_mem (h : .run ∉ frames) : frames = (insideOf frames).reverse.map .inline := by
  induction frames with
  | nil => rfl
  | cons f frames ih =>
    obtain ⟨hf, hframes⟩ := List.ne_and_not_mem_of_not_mem_cons h
    have hrest := ih hframes
    cases f with
    | run => exact absurd rfl hf
    | inline w =>
      have hinside : (insideOf (.inline w :: frames)).reverse = w :: (insideOf frames).reverse := by simp [insideOf]
      rw [hinside, List.map_cons, ← hrest]

/-- Before a chosen piece only formatting is open. -/
theorem frames_before_chosen {before after : List Piece} {p : Piece}
    (hapart : apartAll chosen false (before ++ p :: after) = some false) (hp : p.isChosen chosen = true)
    (hread : readPieces [] before = some (found, frames)) : frames = (insideOf frames).reverse.map .inline := by
  have hsplit : apartAll chosen false (before ++ p :: after) =
      (apartAll chosen false before).bind fun b => apartAll chosen b (p :: after) := List.foldlM_append
  obtain ⟨inRun, hbefore, hrest⟩ := Option.bind_eq_some_iff.1 (hsplit.symm.trans hapart)
  obtain ⟨between, hone, -⟩ := Option.bind_eq_some_iff.1 (List.foldlM_cons.symm.trans hrest)
  have houtside : inRun = false := by
    cases p with
    | fragment _ | block _ => cases inRun <;> simp_all [Piece.apart]
    | _ => cases hp
  have hcount : frames.count .run = 0 := by
    rw [count_run hread hbefore rfl, houtside]
    rfl
  exact frames_eq_of_not_mem (List.count_eq_zero.1 hcount)

end Frames

end WikiTypeset.Latex
