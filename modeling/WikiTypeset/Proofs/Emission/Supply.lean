import WikiTypeset.Proofs.Emission.Coupling

/-!
# What an emitter draws on

A supply says which decorations and characters an emitter may be given, and whether it may be told to set Latin words in
a font of their own. An emitter draws on a supply if all that it has written, holds back and has open comes from there.
`Steady` actions keep to the supply and leave the depths in lists and in the table of contents alone, whether or not they
fail.
All operations are steady that are given what the supply allows.
-/

namespace WikiTypeset.Latex

open Action Bidi Emit

/-- What an emitter may be given. -/
structure Supply where
  mark : DecorationKind → String → Prop
  char : Char → Prop
  /-- Latin words may be set in a font of their own. -/
  latinFont : Prop

namespace Supply

/-- A supply that allows all that another one does. -/
structure Le (u v : Supply) : Prop where
  mark : ∀ {kind value}, u.mark kind value → v.mark kind value
  char : ∀ {c}, u.char c → v.char c
  latinFont : u.latinFont → v.latinFont

end Supply

/-- A failure of the analysis is one of a text of the given characters. -/
def EmitError.StemsFrom (char : Char → Prop) (c : EmitError) : Prop :=
  ∀ cause, c = .analysis cause → ∃ s base, (∀ x ∈ s, char x) ∧ paragraph s base = .error cause

/-- The piece comes from the supply. -/
def Piece.IsFrom (u : Supply) : Piece → Prop
  | .text style _ => style.latinFont = true → u.latinFont
  | .openInline command _ => u.mark .startInline command
  | .fragment value => u.mark .raw value
  | .block value => u.mark .startBlock value ∨ u.mark .endBlock value
  | _ => True

/-- All that the emitter has written, holds back and has open comes from the supply; its own end mark apart. -/
structure Emitter.Draws (u : Supply) (e : Emitter) : Prop where
  analyzer : e.analyzer = paragraph
  written : ∀ p ∈ e.written, p.IsFrom u
  buffer : ∀ c ∈ e.buffer, u.char c
  decorations : ∀ d ∈ e.decorations, d.kind = .endOfText ∨ u.mark d.kind d.value
  stack : ∀ d ∈ e.stack, u.mark .startInline d.value
  latinSwitch : e.latinSwitch = true → u.latinFont

/-- Two emitters are as deep in lists and in the table of contents. -/
def Emitter.AsDeep (e e' : Emitter) : Prop := e'.inList = e.inList ∧ e'.inToc = e.inToc

theorem Emitter.AsDeep.trans {e e₁ e₂ : Emitter} (h : e.AsDeep e₁) (h' : e₁.AsDeep e₂) : e.AsDeep e₂ :=
  ⟨h'.1.trans h.1, h'.2.trans h.2⟩

theorem Piece.IsFrom.mono {u v : Supply} (h : u.Le v) {p : Piece} (hp : p.IsFrom u) : p.IsFrom v := by
  cases p with
  | text style s => exact fun hs => h.latinFont (hp hs)
  | openInline command delimiters => exact h.mark hp
  | fragment value => exact h.mark hp
  | block value => exact hp.imp h.mark h.mark
  | _ => trivial

theorem Emitter.Draws.mono {u v : Supply} (h : u.Le v) {e : Emitter} (he : e.Draws u) : e.Draws v where
  analyzer := he.analyzer
  written p hp := (he.written p hp).mono h
  buffer c hc := h.char (he.buffer c hc)
  decorations d hd := (he.decorations d hd).imp_right h.mark
  stack d hd := h.mark (he.stack d hd)
  latinSwitch hs := h.latinFont (he.latinSwitch hs)

/-- Whether or not it fails, the action keeps to the supply and leaves the depths alone; a result is as `R` says. -/
def SteadyWith (u : Supply) {α : Type} (R : α → Prop) (a : Emit α) : Prop :=
  ∀ e : Emitter, e.Draws u → Leaves a e (fun x e' => R x ∧ e'.Draws u ∧ e.AsDeep e')
    fun c e' => c.StemsFrom u.char ∧ e'.Draws u ∧ e.AsDeep e'

/-- Whether or not it fails, the action keeps to the supply and leaves the depths alone. -/
abbrev Steady (u : Supply) {α : Type} (a : Emit α) : Prop := SteadyWith u (fun _ => True) a

namespace SteadyWith

variable {u : Supply} {α β : Type} {R : α → Prop} {R' : β → Prop} {a : Emit α} {f : α → Emit β}

theorem of_pure {x : α} (hx : R x) : SteadyWith u R (pure x) := fun _ he => Leaves.of_pure ⟨hx, he, rfl, rfl⟩

theorem of_throw {c : EmitError} (hc : c.StemsFrom u.char) : SteadyWith u R (throw c : Emit α) :=
  fun _ he => Leaves.of_throw ⟨hc, he, rfl, rfl⟩

theorem of_modify {g : Emitter → Emitter} (hg : ∀ e, e.Draws u → (g e).Draws u) (hdeep : ∀ e : Emitter, e.AsDeep (g e)) :
    Steady u (modify g : Emit Unit) :=
  fun e he => Leaves.of_modify ⟨trivial, hg e he, hdeep e⟩

theorem bind (ha : SteadyWith u R a) (hf : ∀ x, R x → SteadyWith u R' (f x)) : SteadyWith u R' (a >>= f) := by
  intro e he
  refine (ha e he).bind fun x e₁ h₁ => ?_
  obtain ⟨hx, he₁, hdeep⟩ := h₁
  have hrest := hf x hx e₁ he₁
  exact hrest.imp (fun y e₂ h₂ => ⟨h₂.1, h₂.2.1, hdeep.trans h₂.2.2⟩) fun c e₂ h₂ => ⟨h₂.1, h₂.2.1, hdeep.trans h₂.2.2⟩

theorem get_bind {f : Emitter → Emit β} (hf : ∀ e, e.Draws u → SteadyWith u R' (f e)) :
    SteadyWith u R' (get >>= f) :=
  fun e he => Leaves.get_bind (hf e he e he)

/-- What comes last comes whether or not the action fails. -/
theorem finishing {a last : Emit Unit} (ha : Steady u a) (hlast : Steady u last) : Steady u (Action.finishing a last) := by
  intro e he
  refine Leaves.finishing ((ha e he).imp (fun _ e₁ h₁ => ?_) fun c e₁ h₁ => ?_)
  · obtain ⟨-, he₁, hdeep⟩ := h₁
    exact (hlast e₁ he₁).imp (fun _ e₂ h₂ => ⟨trivial, h₂.2.1, hdeep.trans h₂.2.2⟩)
      fun _ e₂ h₂ => ⟨h₂.1, h₂.2.1, hdeep.trans h₂.2.2⟩
  · obtain ⟨hc, he₁, hdeep⟩ := h₁
    exact (hlast e₁ he₁).imp (fun _ e₂ h₂ => ⟨hc, h₂.2.1, hdeep.trans h₂.2.2⟩)
      fun _ e₂ h₂ => ⟨h₂.1, h₂.2.1, hdeep.trans h₂.2.2⟩

theorem forM {γ : Type} {g : γ → Emit Unit} {xs : List γ} (hg : ∀ x ∈ xs, Steady u (g x)) : Steady u (xs.forM g) := by
  induction xs with
  | nil => exact of_pure trivial
  | cons x xs ih =>
    obtain ⟨hx, hxs⟩ := List.forall_mem_cons.1 hg
    exact hx.bind fun _ _ => ih hxs

end SteadyWith

/-! ### Writing pieces -/

variable {u : Supply}

theorem EmitError.stemsFrom_of_ne {C : Char → Prop} {c : EmitError} (h : ∀ cause, c ≠ .analysis cause) : c.StemsFrom C :=
  fun cause hc => absurd hc (h cause)

theorem steady_checkOpen : Steady u checkOpen := by
  refine .get_bind fun e he => ?_
  split
  · exact .of_throw (EmitError.stemsFrom_of_ne nofun)
  · exact .of_pure trivial

theorem Emitter.Draws.wrote {e : Emitter} (he : e.Draws u) {p : Piece} (hp : p.IsFrom u) :
    Emitter.Draws u { e with written := p :: e.written } :=
  { he with written := List.forall_mem_cons.2 ⟨hp, he.written⟩ }

theorem steady_put {p : Piece} (hp : p.IsFrom u) : Steady u (put p) :=
  .bind steady_checkOpen fun _ _ => .of_modify (fun _ he => he.wrote hp) fun _ => ⟨rfl, rfl⟩

theorem steady_putText (s : List Char) : Steady u (putText s) := by
  refine .bind steady_checkOpen fun _ _ => ?_
  split
  · exact .of_pure trivial
  · exact .of_modify (fun _ he => he.wrote he.latinSwitch) fun _ => ⟨rfl, rfl⟩

theorem steady_putDecoration {d : Decoration} (hd : d.kind = .endOfText ∨ u.mark d.kind d.value) :
    Steady u (putDecoration d) := by
  unfold putDecoration
  cases hk : d.kind <;> simp only [hk, reduceCtorEq, false_or] at hd ⊢
  case startInline =>
    refine SteadyWith.bind (R := fun _ => True) (.of_modify (fun e he => ?_) fun _ => ⟨rfl, rfl⟩) fun _ _ => steady_put hd
    exact { he with stack := List.forall_mem_cons.2 ⟨hd, he.stack⟩ }
  case endInline =>
    refine .get_bind fun e he => ?_
    cases hstack : e.stack with
    | nil => exact .of_throw (EmitError.stemsFrom_of_ne nofun)
    | cons innermost rest =>
      have hrest : ∀ x ∈ rest, u.mark .startInline x.value := fun x hx => he.stack x (by simp [hstack, hx])
      dsimp only
      split
      · refine SteadyWith.bind (R := fun _ => True) (.of_modify (fun e' he' => ?_) fun _ => ⟨rfl, rfl⟩)
          fun _ _ => steady_put trivial
        exact { he' with stack := hrest }
      · exact .of_throw (EmitError.stemsFrom_of_ne nofun)
  case raw => exact steady_put hd
  case startBlock => exact steady_put (.inl hd)
  case endBlock => exact steady_put (.inr hd)
  case endOfText => exact .of_throw (EmitError.stemsFrom_of_ne nofun)

theorem steady_openStack : Steady u openStack := by
  refine .get_bind fun e he => .forM fun d hd => steady_put ?_
  exact he.stack d (List.mem_reverse.1 hd)

theorem steady_closeStack : Steady u closeStack :=
  .get_bind fun _ _ => .forM fun _ _ => steady_put trivial

/-! ### Runs -/

/-- The decorations come from the supply; end marks apart. -/
abbrev Allowed (u : Supply) (ds : List Decoration) : Prop := ∀ d ∈ ds, d.kind = .endOfText ∨ u.mark d.kind d.value

theorem steady_runAt (p : Paragraph) (offset : Nat) : Steady u (runAt p offset) := by
  unfold runAt
  split
  · exact .of_pure trivial
  · exact .of_throw (EmitError.stemsFrom_of_ne nofun)

theorem steady_absorb (p : Paragraph) (fuel stop : Nat) : Steady u (absorb p fuel stop) := by
  induction fuel generalizing stop with
  | zero => exact .of_pure trivial
  | succ fuel ih =>
    unfold absorb
    split
    · refine (steady_runAt p stop).bind fun following _ => ?_
      split
      · exact ih following.stop
      · exact .of_pure trivial
    · exact .of_pure trivial

theorem steady_writeUpTo (text : List Char) (stop pos : Nat) {ds : List Decoration} (hds : Allowed u ds) :
    SteadyWith u (fun r => Allowed u r.2) (writeUpTo text stop pos ds) := by
  induction ds generalizing pos with
  | nil => exact .of_throw (EmitError.stemsFrom_of_ne nofun)
  | cons d ds ih =>
    obtain ⟨hd, hrest⟩ := List.forall_mem_cons.1 hds
    unfold writeUpTo
    split
    · exact (steady_putText _).bind fun _ _ => (steady_putDecoration hd).bind fun _ _ => ih d.pos hrest
    · exact .of_pure hds

theorem steady_enterRun (direction : Direction) : Steady u (enterRun direction) := by
  refine .get_bind fun e _ => ?_
  have hopen : Steady u (do put (.openRun direction); return true) := (steady_put (p := .openRun direction) trivial).bind fun _ _ =>
    .of_pure trivial
  split
  · exact .of_pure trivial
  · split
    · refine (steady_put (p := .setDirection direction) trivial).bind fun _ _ => SteadyWith.bind (R := fun _ => True) ?_ fun _ _ => .of_pure trivial
      exact .of_modify (fun e he => { he with }) fun _ => ⟨rfl, rfl⟩
    · exact hopen

theorem steady_beginRun (direction : Direction) : Steady u (beginRun direction) := by
  refine (steady_enterRun direction).bind fun wrapped _ => ?_
  refine SteadyWith.bind (R := fun _ => True) (.of_modify (fun e he => { he with }) fun _ => ⟨rfl, rfl⟩) fun _ _ => ?_
  exact .bind steady_openStack fun _ _ => .of_pure trivial

theorem steady_spanStop (p : Paragraph) (run : Run) : Steady u (spanStop p run) := by
  refine .get_bind fun e _ => ?_
  split
  · exact steady_absorb p _ _
  · exact .of_pure trivial

theorem steady_writeSpan (text : List Char) (pos stop : Nat) {ds : List Decoration} (hds : Allowed u ds) :
    SteadyWith u (Allowed u) (writeSpan text pos stop ds) := by
  refine (steady_writeUpTo text stop pos hds).bind fun r hr => ?_
  exact (steady_putText _).bind fun _ _ => .bind steady_closeStack fun _ _ => .of_pure hr

theorem steady_writeRun (p : Paragraph) (pos : Nat) {ds : List Decoration} (hds : Allowed u ds) :
    SteadyWith u (fun r => Allowed u r.2) (writeRun p pos ds) := by
  refine (steady_runAt p pos).bind fun run _ => (steady_beginRun run.direction).bind fun wrapped _ => ?_
  refine (steady_spanStop p run).bind fun stop _ => (steady_writeSpan p.text pos stop hds).bind fun rest hrest => ?_
  refine SteadyWith.bind (R := fun _ => True) ?_ fun _ _ => .of_pure hrest
  unfold leaveRun
  split
  · exact steady_put trivial
  · exact .of_pure trivial

theorem steady_writeRunsFrom (p : Paragraph) (fuel pos : Nat) {ds : List Decoration} (hds : Allowed u ds) :
    SteadyWith u (Allowed u) (writeRunsFrom p fuel pos ds) := by
  induction fuel generalizing pos ds with
  | zero =>
    unfold writeRunsFrom
    split
    · exact .of_throw (EmitError.stemsFrom_of_ne fun _ h => by cases h)
    · exact .of_pure hds
  | succ fuel ih =>
    unfold writeRunsFrom
    split
    · exact (steady_writeRun p pos hds).bind fun r hr => ih r.1 hr
    · exact .of_pure hds

theorem steady_writeTrailing {ds : List Decoration} (hds : Allowed u ds) : Steady u (writeTrailing ds) := by
  unfold writeTrailing
  split
  · exact .of_pure trivial
  · exact .bind steady_openStack fun _ _ => (SteadyWith.forM fun d hd => steady_putDecoration (hds d hd)).bind fun _ _ =>
      steady_closeStack

theorem steady_writeParagraph {text : List Char} (htext : ∀ c ∈ text, u.char c) : Steady u (writeParagraph text) := by
  refine SteadyWith.bind (R := fun _ => True) (.of_modify (fun e he => ?_) fun _ => ⟨rfl, rfl⟩) fun _ _ => ?_
  · exact { he with decorations := List.forall_mem_append.2 ⟨he.decorations, List.forall_mem_singleton.2 (.inl rfl)⟩ }
  · refine .get_bind fun e he => ?_
    cases hp : e.analyzer text e.paragraphDir.base with
    | error cause =>
      refine .of_throw fun cause' hc => ?_
      cases hc
      rw [he.analyzer] at hp
      exact ⟨text, _, htext, hp⟩
    | ok p =>
      refine (steady_writeRunsFrom p text.length 0 he.decorations).bind fun rest hrest => ?_
      exact steady_writeTrailing fun d hd => hrest d (List.dropLast_subset _ hd)

/-- What is held back is written. -/
theorem steady_writeHeld : Steady u writeHeld := by
  intro e he
  have hdue : Allowed u e.due := fun d hd => he.decorations d (e.due_append_carried ▸ List.mem_append_left _ hd)
  have hcarried : ∀ d ∈ e.carried, u.mark .startInline d.value := by
    intro d hd
    have hopens := Emitter.opensAt_of_mem_carried hd
    have hkind : d.kind = .startInline := by simpa [opensAt] using And.left (by simpa [opensAt] using hopens)
    have hmark := he.decorations d (e.due_append_carried ▸ List.mem_append_right _ hd)
    rw [hkind] at hmark
    simpa using hmark
  have hlast : Steady u (modify fun e' : Emitter =>
      { e' with stack := e.carried.reverse ++ e'.stack, buffer := [], decorations := [] } : Emit Unit) := by
    refine .of_modify (fun e' he' => ?_) fun _ => ⟨rfl, rfl⟩
    refine { he' with buffer := List.forall_mem_nil _, decorations := List.forall_mem_nil _, stack := ?_ }
    exact List.forall_mem_append.2 ⟨fun d hd => hcarried d (List.mem_reverse.1 hd), he'.stack⟩
  have hrest : Steady u (do
      unless e.buffer.isEmpty && e.due.isEmpty do writeParagraph e.buffer
      modify fun e' : Emitter => { e' with stack := e.carried.reverse ++ e'.stack, buffer := [], decorations := [] }) := by
    dsimp only
    split
    · exact hlast
    · exact (steady_writeParagraph he.buffer).bind fun _ _ => hlast
  have hset := hrest { e with decorations := e.due } { he with decorations := hdue }
  exact Leaves.get_bind (hset.of_perform_eq (by rw [perform_bind, perform_set]; rfl))

/-! ### Breaks -/

theorem steady_resetLine : Steady u resetLine := .of_modify (fun _ he => { he with }) fun _ => ⟨rfl, rfl⟩

theorem steady_envBreak : Steady u envBreak := by
  refine .get_bind fun e _ => ?_
  split
  · exact .of_pure trivial
  · refine .bind steady_writeHeld fun _ _ => (steady_put (p := .newline) trivial).bind fun _ _ => ?_
    exact .of_modify (fun _ he => { he with }) fun _ => ⟨rfl, rfl⟩

theorem steady_paragraphBreak : Steady u paragraphBreak := by
  refine .get_bind fun e _ => ?_
  split
  · exact .of_pure trivial
  · refine .bind steady_envBreak fun _ _ => (steady_put (p := .paragraphEnd) trivial).bind fun _ _ => ?_
    refine SteadyWith.bind (R := fun _ => True) (.of_modify (fun _ he => { he with }) fun _ => ⟨rfl, rfl⟩) fun _ _ => ?_
    exact .bind steady_writeHeld fun _ _ => .of_modify (fun _ he => { he with }) fun _ => ⟨rfl, rfl⟩

theorem steady_lineBreak : Steady u lineBreak := by
  refine .get_bind fun e _ => ?_
  split
  · exact .of_pure trivial
  · refine .bind steady_envBreak fun _ _ => (steady_put (p := .lineBreak) trivial).bind fun _ _ => ?_
    exact .of_modify (fun _ he => { he with }) fun _ => ⟨rfl, rfl⟩

/-! ### Content -/

theorem Emitter.Draws.touched {e : Emitter} (he : e.Draws u) : e.touched.Draws u := { he with }

theorem steady_record {d : Decoration} (hd : u.mark d.kind d.value) : Steady u (record d) := by
  refine .bind steady_checkOpen fun _ _ => .of_modify (fun e he => ?_) fun _ => ⟨rfl, rfl⟩
  exact { he with decorations := List.forall_mem_append.2 ⟨he.decorations, List.forall_mem_singleton.2 (.inr hd)⟩ }

theorem steady_write (hspace : u.char ' ') {text : List Char} (htext : ∀ c ∈ text, u.char c) :
    Steady u (Emit.write text) := by
  have hcollapsed : ∀ {s : List Char}, s ⊆ text → ∀ c ∈ collapseBlanks false s, u.char c := by
    intro s hs c hc
    rcases mem_collapseBlanks hc with rfl | hc
    · exact hspace
    · exact htext c (hs hc)
  intro e he
  refine (steady_checkOpen e he).bind fun _ e₁ h₁ => ?_
  obtain ⟨-, he₁, hdeep⟩ := h₁
  refine Leaves.get_bind ?_
  have hadded : ∀ {s : List Char}, s ⊆ text → ∀ c ∈ e₁.buffer ++ collapseBlanks false s, u.char c :=
    fun hs => List.forall_mem_append.2 ⟨he₁.buffer, hcollapsed hs⟩
  dsimp only
  by_cases hbreak : (e₁.newEnv || e₁.newLine || e₁.newPara) = true
  · simp only [hbreak, if_true, Bool.true_and]
    split
    · exact Leaves.of_pure ⟨trivial, he₁, hdeep⟩
    · refine Leaves.of_ok (perform_set _ _) ⟨trivial, ?_, hdeep⟩
      exact { he₁.touched with buffer := hadded (List.dropWhile_subset _) }
  · simp only [hbreak, Bool.false_eq_true, if_false, Bool.false_and]
    refine Leaves.of_ok (perform_set _ _) ⟨trivial, ?_, hdeep⟩
    exact { he₁ with buffer := hadded (List.Subset.refl _) }

/-! ### Isolation and environments -/

theorem Emitter.Draws.exchange {e : Emitter} (he : e.Draws u) {stack : List Decoration}
    (hstack : ∀ d ∈ stack, u.mark .startInline d.value) : Emitter.Draws u { e with stack := stack } :=
  { he with stack := hstack }

/-- The formatting that is put aside comes from the supply. -/
theorem steady_enterIsolation :
    SteadyWith u (fun saved => ∀ d ∈ saved, u.mark .startInline d.value) enterIsolation := by
  refine .bind steady_writeHeld fun _ _ => .get_bind fun e he => ?_
  refine SteadyWith.bind (R := fun _ => True) (.of_modify (fun _ he' => ?_) fun _ => ⟨rfl, rfl⟩) fun _ _ => .of_pure he.stack
  exact he'.exchange (List.forall_mem_nil _)

theorem steady_checkIsolation : Steady u checkIsolation := by
  refine .bind steady_writeHeld fun _ _ => .get_bind fun e _ => ?_
  dsimp only
  split
  · exact .of_pure trivial
  · exact .of_throw (EmitError.stemsFrom_of_ne nofun)

theorem steady_leaveIsolation {saved : List Decoration} (h : ∀ d ∈ saved, u.mark .startInline d.value) :
    Steady u (leaveIsolation saved) :=
  .of_modify (fun _ he => he.exchange h) fun _ => ⟨rfl, rfl⟩

theorem steady_isolated {content : Emit Unit} (h : Steady u content) : Steady u (isolated content) :=
  .bind steady_enterIsolation fun _ hsaved =>
    (h.bind fun _ _ => steady_checkIsolation).finishing (steady_leaveIsolation hsaved)

theorem steady_writeBlock {d : Decoration} (hd : u.mark d.kind d.value) : Steady u (writeBlock d) :=
  .bind steady_envBreak fun _ _ => steady_isolated ((steady_record hd).bind fun _ _ => steady_envBreak)

theorem steady_beginEnv {env options : String} (h : u.mark .startBlock (beginCommand env options)) :
    Steady u (beginEnv env options) :=
  (steady_writeBlock h).bind fun _ _ => steady_resetLine

theorem steady_endEnv {env : String} (h : u.mark .endBlock (endCommand env)) : Steady u (endEnv env) :=
  (steady_writeBlock h).bind fun _ _ => .of_modify (fun _ he => { he with }) fun _ => ⟨rfl, rfl⟩

/-! ### Direction and fonts -/

theorem steady_switchDirection (direction : NamedDirection) : Steady u (switchDirection direction) :=
  .bind steady_writeHeld fun _ _ => .of_modify (fun _ he => { he with }) fun _ => ⟨rfl, rfl⟩

theorem steady_assumeDirection (direction : NamedDirection) : Steady u (assumeDirection direction) :=
  .bind steady_writeHeld fun _ _ => .of_modify (fun _ he => { he.wrote (p := .assumeDirection direction) trivial with })
    fun _ => ⟨rfl, rfl⟩

theorem steady_setCoverage {latinCoverage : Bool} (h : latinCoverage = false → u.latinFont) :
    Steady u (setCoverage latinCoverage) := by
  refine .bind steady_writeHeld fun _ _ => .of_modify (fun _ he => { he with latinSwitch := fun hs => h ?_ }) fun _ => ⟨rfl, rfl⟩
  simpa using hs

theorem steady_flush : Steady u flush := by
  refine .bind steady_envBreak fun _ _ => .bind steady_writeHeld fun _ _ => .get_bind fun e _ => ?_
  dsimp only
  split
  · exact .of_modify (fun _ he => { he with }) fun _ => ⟨rfl, rfl⟩
  · exact .of_throw (EmitError.stemsFrom_of_ne nofun)

theorem start_draws (u : Supply) (direction : NamedDirection) : (Emitter.start direction).Draws u where
  analyzer := rfl
  written := List.forall_mem_nil _
  buffer := List.forall_mem_nil _
  decorations := List.forall_mem_nil _
  stack := List.forall_mem_nil _
  latinSwitch := nofun

end WikiTypeset.Latex
