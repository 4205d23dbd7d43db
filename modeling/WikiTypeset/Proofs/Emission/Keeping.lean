import WikiTypeset.Proofs.Emission.Coupling

/-!
# Invariants of emitters

An invariant is kept by all actions of an emitter, whether or not they fail, if three things do not break it: a piece that
marks no direction, changes of the fields that only serve the writing, and the marks of the runs that the analysis finds.
These are the conditions of `Robust`; the actions that change a setting are not among those that it is about. The depths
in lists and in the table of contents, the base direction and the font of Latin words make up the mode of an emitter, and
the mode is such an invariant: only the actions that set a part of it change it, and those change nothing if they fail.
-/

namespace WikiTypeset.Latex

open Action Bidi Emit

/-- Whether the piece changes the direction, or is an end of a run against it. -/
def Piece.marksDirection : Piece → Bool
  | .setDirection _ | .openRun _ | .closeRun => true
  | _ => false

/-- Whether or not it fails, the action keeps up what holds of the emitter. -/
def Keeps (I : Emitter → Prop) {α : Type} (a : Emit α) : Prop :=
  ∀ e, I e → Leaves a e (fun _ e' => I e') fun _ e' => I e'

namespace Keeps

variable {I : Emitter → Prop} {α β γ : Type} {a : Emit α} {f : α → Emit β}

theorem of_pure (x : α) : Keeps I (pure x) := fun _ he => Leaves.of_pure he

theorem of_throw (c : EmitError) : Keeps I (throw c : Emit α) := fun _ he => Leaves.of_throw he

theorem of_modify {g : Emitter → Emitter} (hg : ∀ e, I e → I (g e)) : Keeps I (modify g : Emit Unit) :=
  fun e he => Leaves.of_modify (hg e he)

theorem bind (ha : Keeps I a) (hf : ∀ x, Keeps I (f x)) : Keeps I (a >>= f) :=
  fun e he => (ha e he).bind fun x e' he' => hf x e' he'

theorem get_bind {f : Emitter → Emit β} (hf : ∀ e, I e → Keeps I (f e)) : Keeps I (get >>= f) :=
  fun e he => Leaves.get_bind (hf e he e he)

theorem finishing {last : Emit Unit} {a : Emit Unit} (ha : Keeps I a) (hlast : Keeps I last) :
    Keeps I (Action.finishing a last) := by
  intro e he
  refine Leaves.finishing ((ha e he).imp (fun _ e₁ h₁ => ?_) fun _ e₁ h₁ => ?_)
  · exact hlast e₁ h₁
  · exact hlast e₁ h₁

theorem forM {g : γ → Emit Unit} (hg : ∀ x, Keeps I (g x)) (xs : List γ) : Keeps I (xs.forM g) := by
  induction xs with
  | nil => exact of_pure ()
  | cons x xs ih => exact (hg x).bind fun _ => ih

theorem ite {p : Prop} [Decidable p] {b : Emit α} (ha : Keeps I a) (hb : Keeps I b) : Keeps I (if p then a else b) := by
  by_cases hp : p
  · rw [if_pos hp]
    exact ha
  · rw [if_neg hp]
    exact hb

end Keeps

/-- The emitter differs from another one in the marks of breaks, the formatting, and the text that is held back, of which
nothing may be left. -/
structure Emitter.Resembles (e e' : Emitter) : Prop where
  analyzer : e'.analyzer = e.analyzer
  written : e'.written = e.written
  buffer : e'.buffer = e.buffer ∨ e'.buffer = []
  inList : e'.inList = e.inList
  inToc : e'.inToc = e.inToc
  latinSwitch : e'.latinSwitch = e.latinSwitch
  contextDir : e'.contextDir = e.contextDir
  paragraphDir : e'.paragraphDir = e.paragraphDir

/-- A run of the direction begins and ends without breaking the invariant. -/
def AdmitsRun (I : Emitter → Prop) (d : Direction) : Prop :=
  ∀ e, I e → Leaves (enterRun d) e (fun wrapped e' => I e' ∧ Keeps I (leaveRun wrapped)) fun _ e' => I e'

/-- An invariant that writing does not break, if the characters of the text are as `C` says. -/
structure Robust (C : Char → Prop) (I : Emitter → Prop) : Prop where
  wrote : ∀ {e p}, I e → p.marksDirection = false → I { e with written := p :: e.written }
  resembles : ∀ {e e'}, I e → e.Resembles e' → I e'
  extended : ∀ {e s}, I e → (∀ c ∈ s, C c) → I (e.extended s)
  run : ∀ {e p r}, I e → e.analyzer e.buffer e.paragraphDir.base = .ok p → r ∈ p.runs → AdmitsRun I r.direction

namespace Robust

variable {C : Char → Prop} {I : Emitter → Prop}

/-! ### Writing -/

theorem keeps_checkOpen : Keeps I checkOpen :=
  .get_bind fun _ _ => .ite (.of_throw _) (.of_pure ())

theorem keeps_put (h : Robust C I) {p : Piece} (hp : p.marksDirection = false) : Keeps I (put p) :=
  .bind keeps_checkOpen fun _ => .of_modify fun _ he => h.wrote he hp

theorem keeps_stack (h : Robust C I) (g : Emitter → List Decoration) :
    Keeps I (modify fun e => { e with stack := g e } : Emit Unit) :=
  .of_modify fun _ he => h.resembles he ⟨rfl, rfl, .inl rfl, rfl, rfl, rfl, rfl, rfl⟩

theorem keeps_putText (h : Robust C I) (s : List Char) : Keeps I (putText s) :=
  .bind keeps_checkOpen fun _ => .ite (.of_pure ()) (.of_modify fun _ he => h.wrote he rfl)

theorem keeps_putDecoration (h : Robust C I) (d : Decoration) : Keeps I (putDecoration d) := by
  unfold putDecoration
  cases d.kind with
  | startInline => exact (h.keeps_stack _).bind fun _ => h.keeps_put rfl
  | endInline =>
    refine .get_bind fun e _ => ?_
    cases e.stack with
    | nil => exact .of_throw _
    | cons innermost rest => exact .ite ((h.keeps_stack _).bind fun _ => h.keeps_put rfl) (.of_throw _)
  | raw => exact h.keeps_put rfl
  | startBlock => exact h.keeps_put rfl
  | endBlock => exact h.keeps_put rfl
  | endOfText => exact .of_throw _

theorem keeps_openStack (h : Robust C I) : Keeps I openStack :=
  .get_bind fun _ _ => .forM (fun _ => h.keeps_put rfl) _

theorem keeps_closeStack (h : Robust C I) : Keeps I closeStack :=
  .get_bind fun _ _ => .forM (fun _ => h.keeps_put rfl) _

/-! ### Runs -/

theorem keeps_runAt (p : Paragraph) (offset : Nat) : Keeps I (runAt p offset) := by
  unfold runAt
  cases p.runAt offset with
  | none => exact .of_throw _
  | some run => exact .of_pure run

theorem keeps_absorb (p : Paragraph) (fuel stop : Nat) : Keeps I (absorb p fuel stop) := by
  induction fuel generalizing stop with
  | zero => exact .of_pure stop
  | succ fuel ih =>
    exact .ite ((keeps_runAt p stop).bind fun following => .ite (ih following.stop) (.of_pure stop)) (.of_pure stop)

theorem keeps_writeUpTo (h : Robust C I) (text : List Char) (stop pos : Nat) (ds : List Decoration) :
    Keeps I (writeUpTo text stop pos ds) := by
  induction ds generalizing pos with
  | nil => exact .of_throw _
  | cons d ds ih =>
    refine .ite ?_ (.of_pure _)
    exact (h.keeps_putText _).bind fun _ => (h.keeps_putDecoration d).bind fun _ => ih d.pos

theorem keeps_spanStop (p : Paragraph) (run : Run) : Keeps I (spanStop p run) :=
  .get_bind fun _ _ => .ite (keeps_absorb p _ _) (.of_pure _)

theorem keeps_writeSpan (h : Robust C I) (text : List Char) (pos stop : Nat) (ds : List Decoration) :
    Keeps I (writeSpan text pos stop ds) :=
  (h.keeps_writeUpTo text stop pos ds).bind fun _ => (h.keeps_putText _).bind fun _ =>
    h.keeps_closeStack.bind fun _ => .of_pure _

theorem leaves_beginRun (h : Robust C I) {d : Direction} (hd : AdmitsRun I d) {e : Emitter} (he : I e) :
    Leaves (beginRun d) e (fun wrapped e' => I e' ∧ Keeps I (leaveRun wrapped)) fun _ e' => I e' := by
  refine (hd e he).bind fun wrapped e₁ h₁ => ?_
  have hbegun : Keeps I (modify fun e => { e with startPara := false } : Emit Unit) :=
    .of_modify fun _ he => h.resembles he ⟨rfl, rfl, .inl rfl, rfl, rfl, rfl, rfl, rfl⟩
  exact (hbegun e₁ h₁.1).bind fun _ e₂ h₂ => (h.keeps_openStack e₂ h₂).bind fun _ e₃ h₃ => Leaves.of_pure ⟨h₃, h₁.2⟩

/-- Every run that is found is one of the paragraph. -/
theorem mem_runs_of_runAt {p : Paragraph} {offset : Int} {r : Run} (h : p.runAt offset = some r) : r ∈ p.runs := by
  unfold Paragraph.runAt at h
  split at h
  · cases h
  · exact List.takeWhile_subset _ (List.mem_of_getLast? h)

theorem keeps_writeRun (h : Robust C I) {p : Paragraph} (hp : ∀ r ∈ p.runs, AdmitsRun I r.direction) (pos : Nat)
    (ds : List Decoration) : Keeps I (writeRun p pos ds) := by
  have hrest : ∀ (run : Run) (wrapped : Bool), Keeps I (leaveRun wrapped) → Keeps I (do
      let stop ← spanStop p run
      let rest ← writeSpan p.text pos stop ds
      leaveRun wrapped
      return (stop, rest)) := by
    intro run wrapped hleave
    exact (keeps_spanStop p run).bind fun stop => (h.keeps_writeSpan p.text pos stop ds).bind fun rest =>
      hleave.bind fun _ => .of_pure _
  intro e he
  cases hrun : p.runAt pos with
  | none =>
    have hfails : (writeRun p pos ds).perform e = (.error .uncovered, e) := by
      rw [writeRun, runAt, hrun]
      rfl
    exact Leaves.of_error hfails he
  | some run =>
    have hsteps := (h.leaves_beginRun (hp run (mem_runs_of_runAt hrun)) he).bind fun wrapped e₁ h₁ =>
      hrest run wrapped h₁.2 e₁ h₁.1
    refine hsteps.of_perform_eq ?_
    rw [writeRun, runAt, hrun]
    rfl

theorem keeps_writeRunsFrom (h : Robust C I) {p : Paragraph} (hp : ∀ r ∈ p.runs, AdmitsRun I r.direction)
    (fuel pos : Nat) (ds : List Decoration) : Keeps I (writeRunsFrom p fuel pos ds) := by
  induction fuel generalizing pos ds with
  | zero =>
    unfold writeRunsFrom
    exact .ite (.of_throw _) (.of_pure ds)
  | succ fuel ih =>
    unfold writeRunsFrom
    exact .ite ((h.keeps_writeRun hp pos ds).bind fun r => ih r.1 r.2) (.of_pure ds)

theorem keeps_writeTrailing (h : Robust C I) (ds : List Decoration) : Keeps I (writeTrailing ds) := by
  refine .ite (.of_pure ()) ?_
  exact h.keeps_openStack.bind fun _ => (Keeps.forM h.keeps_putDecoration ds).bind fun _ => h.keeps_closeStack

/-- The text that is held back is written as the analysis has it. -/
theorem leaves_writeParagraph (h : Robust C I) {e : Emitter} (he : I e) :
    Leaves (writeParagraph e.buffer) e (fun _ e' => I e') fun _ e' => I e' := by
  have hmarked : I { e with decorations := e.decorations ++ [{ kind := .endOfText, pos := e.buffer.length }] } :=
    h.resembles he ⟨rfl, rfl, .inl rfl, rfl, rfl, rfl, rfl, rfl⟩
  refine Leaves.bind (M := fun _ e' => e' = { e with decorations := _ }) (Leaves.of_modify rfl) ?_
  rintro _ _ rfl
  refine Leaves.get_bind ?_
  dsimp only
  cases hp : e.analyzer e.buffer e.paragraphDir.base with
  | error cause => exact Leaves.of_throw hmarked
  | ok p =>
    have hruns : ∀ r ∈ p.runs, AdmitsRun I r.direction := fun r hr => h.run he hp hr
    exact ((h.keeps_writeRunsFrom hruns _ _ _).bind fun rest => h.keeps_writeTrailing _) _ hmarked

theorem keeps_writeHeld (h : Robust C I) : Keeps I writeHeld := by
  intro e he
  refine Leaves.get_bind ?_
  have hdue : I { e with decorations := (splitCarried e.pos e.decorations).1 } :=
    h.resembles he ⟨rfl, rfl, .inl rfl, rfl, rfl, rfl, rfl, rfl⟩
  have hlast : Keeps I (modify fun e' : Emitter =>
      { e' with stack := (splitCarried e.pos e.decorations).2.reverse ++ e'.stack, buffer := [], decorations := [] } :
        Emit Unit) :=
    .of_modify fun _ he' => h.resembles he' ⟨rfl, rfl, .inr rfl, rfl, rfl, rfl, rfl, rfl⟩
  refine Leaves.bind (M := fun _ e' => e' = { e with decorations := (splitCarried e.pos e.decorations).1 })
    (Leaves.of_ok (perform_set _ _) rfl) ?_
  rintro _ _ rfl
  dsimp only
  split
  · exact hlast _ hdue
  · exact (h.leaves_writeParagraph hdue).bind fun _ e₁ h₁ => hlast e₁ h₁

/-! ### Breaks -/

theorem keeps_marks (h : Robust C I) {g : Emitter → Emitter} (hg : ∀ e : Emitter, e.Resembles (g e)) :
    Keeps I (modify g : Emit Unit) :=
  .of_modify fun e he => h.resembles he (hg e)

theorem keeps_resetLine (h : Robust C I) : Keeps I resetLine :=
  h.keeps_marks fun _ => ⟨rfl, rfl, .inl rfl, rfl, rfl, rfl, rfl, rfl⟩

theorem keeps_envBreak (h : Robust C I) : Keeps I envBreak := by
  refine .get_bind fun _ _ => .ite (.of_pure ()) (h.keeps_writeHeld.bind fun _ => (h.keeps_put rfl).bind fun _ => ?_)
  exact h.keeps_marks fun _ => ⟨rfl, rfl, .inl rfl, rfl, rfl, rfl, rfl, rfl⟩

theorem keeps_paragraphBreak (h : Robust C I) : Keeps I paragraphBreak := by
  refine .get_bind fun _ _ => .ite (.of_pure ()) (h.keeps_envBreak.bind fun _ => (h.keeps_put rfl).bind fun _ => ?_)
  refine .bind (h.keeps_marks fun _ => ⟨rfl, rfl, .inl rfl, rfl, rfl, rfl, rfl, rfl⟩) fun _ => ?_
  refine h.keeps_writeHeld.bind fun _ => ?_
  exact h.keeps_marks fun _ => ⟨rfl, rfl, .inl rfl, rfl, rfl, rfl, rfl, rfl⟩

theorem keeps_lineBreak (h : Robust C I) : Keeps I lineBreak := by
  refine .get_bind fun _ _ => .ite (.of_pure ()) (h.keeps_envBreak.bind fun _ => (h.keeps_put rfl).bind fun _ => ?_)
  exact h.keeps_marks fun _ => ⟨rfl, rfl, .inl rfl, rfl, rfl, rfl, rfl, rfl⟩

/-! ### Content -/

theorem keeps_record (h : Robust C I) (d : Decoration) : Keeps I (record d) :=
  .bind keeps_checkOpen fun _ => h.keeps_marks fun _ => ⟨rfl, rfl, .inl rfl, rfl, rfl, rfl, rfl, rfl⟩

theorem keeps_write (h : Robust C I) (hspace : C ' ') {text : List Char} (htext : ∀ c ∈ text, C c) :
    Keeps I (Emit.write text) := by
  have hadded : ∀ {s : List Char}, s ⊆ text → ∀ c ∈ collapseBlanks false s, C c := by
    intro s hs c hc
    rcases mem_collapseBlanks hc with rfl | hc
    · exact hspace
    · exact htext c (hs hc)
  have htouched : ∀ {e : Emitter}, I e → I e.touched :=
    fun he => h.resembles he ⟨rfl, rfl, .inl rfl, rfl, rfl, rfl, rfl, rfl⟩
  intro e he
  by_cases hclosed : e.closed = true
  · exact Leaves.of_error (Emitter.perform_write_of_closed hclosed text) he
  · refine Leaves.of_ok (perform_write (by simpa using hclosed) text) ?_
    split
    · split
      · exact he
      · exact h.extended (htouched he) (hadded (List.dropWhile_subset _))
    · exact h.extended he (hadded (List.Subset.refl _))

theorem keeps_wrap (h : Robust C I) (command : String) (delimiters : Delimiters) {content : Emit Unit}
    (hcontent : Keeps I content) : Keeps I (wrap command content delimiters) :=
  (h.keeps_record _).bind fun _ => hcontent.finishing (h.keeps_record _)

theorem keeps_enterIsolation (h : Robust C I) : Keeps I enterIsolation :=
  h.keeps_writeHeld.bind fun _ => .get_bind fun _ _ => (h.keeps_stack _).bind fun _ => .of_pure _

theorem keeps_checkIsolation (h : Robust C I) : Keeps I checkIsolation :=
  h.keeps_writeHeld.bind fun _ => .get_bind fun _ _ => .ite (.of_pure ()) (.of_throw _)

theorem keeps_leaveIsolation (h : Robust C I) (saved : List Decoration) : Keeps I (leaveIsolation saved) :=
  h.keeps_stack _

theorem keeps_isolated (h : Robust C I) {content : Emit Unit} (hcontent : Keeps I content) :
    Keeps I (isolated content) :=
  h.keeps_enterIsolation.bind fun saved =>
    (hcontent.bind fun _ => h.keeps_checkIsolation).finishing (h.keeps_leaveIsolation saved)

theorem keeps_writeBlock (h : Robust C I) (d : Decoration) : Keeps I (writeBlock d) :=
  h.keeps_envBreak.bind fun _ => h.keeps_isolated ((h.keeps_record d).bind fun _ => h.keeps_envBreak)

theorem keeps_beginEnv (h : Robust C I) (env options : String) : Keeps I (beginEnv env options) :=
  (h.keeps_writeBlock _).bind fun _ => h.keeps_resetLine

theorem keeps_endEnv (h : Robust C I) (env : String) : Keeps I (endEnv env) :=
  (h.keeps_writeBlock _).bind fun _ => h.keeps_marks fun _ => ⟨rfl, rfl, .inl rfl, rfl, rfl, rfl, rfl, rfl⟩

theorem keeps_flush (h : Robust C I) : Keeps I flush := by
  refine h.keeps_envBreak.bind fun _ => h.keeps_writeHeld.bind fun _ => .get_bind fun _ _ => .ite ?_ (.of_throw _)
  exact h.keeps_marks fun _ => ⟨rfl, rfl, .inl rfl, rfl, rfl, rfl, rfl, rfl⟩

end Robust

/-! ### The mode of an emitter -/

/-- What stays the same while content is emitted. -/
structure EmitMode where
  inList : Int
  inToc : Int
  paragraphDir : NamedDirection
  latinSwitch : Bool

/-- The mode of an emitter. -/
def Emitter.mode (e : Emitter) : EmitMode where
  inList := e.inList
  inToc := e.inToc
  paragraphDir := e.paragraphDir
  latinSwitch := e.latinSwitch

/-- In the mode `m` the action stays in it, whether or not it fails. -/
abbrev KeepsMode (m : EmitMode) {α : Type} (a : Emit α) : Prop := Keeps (fun e => e.mode = m) a

variable {m : EmitMode}

/-- Runs of any direction may be written, whatever they mark. -/
theorem admitsRun_mode (d : Direction) : AdmitsRun (fun e => e.mode = m) d := by
  have hput : ∀ p : Piece, KeepsMode m (put p) := fun p =>
    .bind Robust.keeps_checkOpen fun _ => .of_modify fun _ he => he
  have hleave : ∀ wrapped, KeepsMode m (leaveRun wrapped) := fun wrapped => .ite (hput _) (.of_pure ())
  have henter : KeepsMode m (enterRun d) := by
    refine .get_bind fun e _ => .ite (.of_pure false) (.ite ?_ ?_)
    · exact (hput _).bind fun _ => .bind (.of_modify fun _ he => he) fun _ => .of_pure false
    · exact (hput _).bind fun _ => .of_pure true
  intro e he
  exact (henter e he).imp_left fun wrapped e' he' => ⟨he', hleave wrapped⟩

theorem robust_mode (m : EmitMode) : Robust (fun _ => True) fun e => e.mode = m where
  wrote he _ := he
  extended he _ := he
  run _ _ _ := admitsRun_mode _
  resembles {e e'} he h := by
    rw [← he, Emitter.mode, Emitter.mode, h.inList, h.inToc, h.paragraphDir, h.latinSwitch]

theorem keeps_write (text : List Char) : KeepsMode m (Emit.write text) :=
  (robust_mode m).keeps_write trivial fun _ _ => trivial

theorem keeps_assumeDirection (direction : NamedDirection) : KeepsMode m (assumeDirection direction) :=
  (robust_mode m).keeps_writeHeld.bind fun _ => .of_modify fun _ he => he

/-! ### Changes of the mode -/

theorem leaves_switchDirection (direction : NamedDirection) {e : Emitter} (he : e.mode = m) :
    Leaves (switchDirection direction) e (fun _ e' => e'.mode = { m with paragraphDir := direction })
      fun _ e' => e'.mode = m := by
  refine ((robust_mode m).keeps_writeHeld e he).bind fun _ e₁ h₁ => Leaves.of_modify ?_
  rw [← h₁]
  rfl

theorem leaves_setCoverage (latinCoverage : Bool) {e : Emitter} (he : e.mode = m) :
    Leaves (setCoverage latinCoverage) e (fun _ e' => e'.mode = { m with latinSwitch := !latinCoverage })
      fun _ e' => e'.mode = m := by
  refine ((robust_mode m).keeps_writeHeld e he).bind fun _ e₁ h₁ => Leaves.of_modify ?_
  rw [← h₁]
  rfl

end WikiTypeset.Latex
