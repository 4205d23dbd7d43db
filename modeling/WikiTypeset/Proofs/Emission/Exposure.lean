import WikiTypeset.Proofs.Emission.OptionalArguments

/-!
# What a program exposes to its commands

What an emitter exposes to the last command is what it has written and what it still holds back. An exposure follows a
program without writing anything, along with its stance, and the emitter exposes what the program does, marks of
direction apart. Main statement: `performAll_exposes`.
-/

namespace WikiTypeset.Latex

open Action Bidi Emit

/-! ### Emitters -/

namespace Emitter

variable {e e' : Emitter} {s s' : Stance} {stack stack' : List Decoration}

/-- What the text that is held back opens with once it is written. -/
def shown (e : Emitter) : Option Opening := front e.stack (Latex.tokens e.buffer e.buffer.length 0 e.due)

/-- The exposure after what has been written and what is held back. -/
def exposure (e : Emitter) : Exposure := (exposed false e.output).meet e.shown

/-- Decorations that show in a layout are no blocks. -/
theorem isInline_of_layTokens {a a' : Footing × List Decoration} {ts : List Token} {ms : List Landmark}
    (h : layTokens a ts = some (ms, a')) {d : Decoration} (hd : .mark d ∈ ts) : d.IsInline := by
  induction ts generalizing a ms with
  | nil => cases hd
  | cons t ts ih =>
    obtain ⟨first, a₁, rest, hfirst, hrest, rfl⟩ := gather_cons_inv h
    rcases List.mem_cons.1 hd with rfl | hd
    · unfold Token.lay at hfirst
      refine ⟨fun hk => ?_, fun hk => ?_⟩ <;> simp [hk] at hfirst
    · exact ih hrest hd

theorem Stands.isInline (h : e.Stands stack s) : ∀ d ∈ e.decorations, d.IsInline := by
  obtain ⟨ms, f, held, -, hheld, -⟩ := h.lies
  exact fun d hd => isInline_of_layTokens hheld (mark_mem_tokens hd _ _ _)

theorem Stands.nest (h : e.Stands stack s) :
    ∃ stack₁, Latex.nest e.stack e.due = some stack₁ ∧ stack = e.carried.reverse ++ stack₁ := by
  obtain ⟨ms, f, held, -, hheld, -⟩ := h.lies
  have hopened : e.opened? = some stack := nest_of_lay hheld
  rw [opened?_eq] at hopened
  obtain ⟨stack₁, hnest, heq⟩ := Option.map_eq_some_iff.1 hopened
  exact ⟨stack₁, hnest, heq.symm⟩

/-- More that is held back shows behind what is due: inside formatting, this is opened before it. -/
theorem Stands.front_append (h : e.Stands stack s) {ts : List Token} (hts : ts ≠ []) :
    front e.stack (e.tokens ++ ts) = e.shown.or (if stack.isEmpty then ts.findSome? Token.shows else some .other) := by
  obtain ⟨stack₁, hnest, hstack⟩ := h.nest
  have hmarks : e.carried ≠ [] → (e.carried.map Token.mark).findSome? Token.shows = some .other := by
    intro hne
    obtain ⟨d, ds, hcarried⟩ := List.exists_cons_of_ne_nil hne
    have hopens := opensAt_of_mem_carried (e := e) (d := d) (by simp [hcarried])
    have hk : d.kind = .startInline := of_decide_eq_true (Bool.and_eq_true_iff.1 hopens).1
    rw [hcarried, List.map_cons, findSome?_cons_or, shows_startInline hk, Option.some_or]
  rw [tokens_eq_due h.ordered, shown]
  set due := Latex.tokens e.buffer e.buffer.length 0 e.due with hdue
  by_cases hopen : e.stack = []
  · rw [hopen] at hnest ⊢
    rw [front_nil, front_nil, List.append_assoc, List.findSome?_append, List.findSome?_append]
    cases hshows : due.findSome? Token.shows with
    | some o => rfl
    | none =>
      rw [nest_of_unseen (shows_mark_of_tokens hshows) hnest, List.append_nil] at hstack
      by_cases hcarried : e.carried = []
      · simp [hstack, hcarried]
      · simp [hstack, hcarried, hmarks hcarried]
  · rw [front_of_open hopen (by simp [hts])]
    by_cases hnone : due = []
    · -- Only formatting that opens at the end is held back, so that it is open around what comes.
      have hds : e.due = [] := by
        by_contra hne
        exact tokens_ne_nil (.inr hne) hnone
      rw [hds] at hnest
      cases hnest
      simp [hnone, front, hstack, hopen]
    · rw [front_of_open hopen hnone, Option.some_or]

theorem exposure_eq_of_alike (ha : e.Alike e') : e'.exposure = e.exposure := by
  have houtput : e'.output = e.output := congrArg List.reverse ha.written
  have hpos : e'.pos = e.pos := congrArg List.length ha.buffer
  rw [exposure, exposure, houtput, shown, shown, due, due, hpos, ha.buffer, ha.decorations, ha.stack]

theorem due_recorded (e : Emitter) (d : Decoration) :
    (e.recorded d).due = if d.kind = .startInline then e.due else (e.recorded d).decorations := by
  have hreverse : (e.recorded d).decorations.reverse = { d with pos := e.pos } :: e.decorations.reverse := by
    simp [recorded, Emitter.touched]
  have hpos : (e.recorded d).pos = e.pos := rfl
  rw [due, due, splitCarried_eq, splitCarried_eq, hreverse, hpos]
  by_cases hk : d.kind = .startInline
  · rw [if_pos hk, List.dropWhile_cons_of_pos (by simp [opensAt, hk])]
  · rw [if_neg hk, List.dropWhile_cons_of_neg (by simp [opensAt, hk]), ← hreverse, List.reverse_reverse]

/-- The start of formatting shows nothing yet. -/
theorem exposure_recorded_start (e : Emitter) {d : Decoration} (hd : d.kind = .startInline) :
    (e.recorded d).exposure = e.exposure := by
  rw [exposure, exposure, shown, shown, due_recorded, if_pos hd]
  rfl

theorem Stands.exposure_recorded (h : e.Stands stack s) {d : Decoration} (hd : d.kind ≠ .startInline) :
    (e.recorded d).exposure = e.exposure.meet (if stack.isEmpty then
      (Token.mark { d with pos := e.pos }).shows else some .other) := by
  have htokens : (e.recorded d).shown = front e.stack (e.recorded d).tokens := by
    rw [shown, due_recorded, if_neg hd]
    rfl
  have hone : [Token.mark { d with pos := e.pos }].findSome? Token.shows = (Token.mark { d with pos := e.pos }).shows := by
    rw [findSome?_cons_or]
    exact Option.or_none
  rw [exposure, exposure, htokens, tokens_recorded h.ordered, h.front_append (by simp), hone, Exposure.meet_or]
  rfl

theorem Stands.exposure_extended (h : e.Stands stack s) {t : List Char} (ht : t ≠ []) :
    (e.extended t).exposure = e.exposure.meet (if stack.isEmpty then opening? t else some .other) := by
  have hcarried : (e.extended t).carried = [] := by
    refine List.eq_nil_iff_forall_not_mem.2 fun d hd => ?_
    have hopens := opensAt_of_mem_carried hd
    have hmem : d ∈ e.decorations := by
      have hall := (e.extended t).due_append_carried
      exact hall ▸ List.mem_append_right _ hd
    have hle : d.pos ≤ e.buffer.length := h.ordered.pos_le d hmem
    have hpos : d.pos = (e.extended t).pos := by
      simp only [opensAt, Bool.and_eq_true, beq_iff_eq] at hopens
      exact hopens.2
    have hlength : (e.extended t).pos = e.buffer.length + t.length := List.length_append
    have := List.length_pos_iff.2 ht
    omega
  have hdue : (e.extended t).due = (e.extended t).decorations := by
    have hall := (e.extended t).due_append_carried
    rwa [hcarried, List.append_nil] at hall
  have htokens : (e.extended t).shown = front e.stack (e.tokens ++ t.map .char) := by
    rw [shown, hdue]
    exact congrArg (front e.stack) (tokens_extended h.ordered t)
  rw [exposure, exposure, htokens, h.front_append (by simpa using ht), shows_chars, Exposure.meet_or]
  rfl

theorem IsSettled.exposure_eq (h : e.IsSettled) : e.exposure = exposed false e.output := by
  have hnone : e.shown = none := by
    simp [shown, due, splitCarried_eq, h.1, h.2, Latex.tokens, slice, front]
  rw [exposure, hnone, Exposure.meet_none]

/-- A turn writes what was held back, so that it shows. -/
theorem Stands.exposure_turned (h : e.Stands stack s) {runs : List Run} (hruns : Contiguous 0 runs e.buffer.length)
    {ps : List Piece} (hset : setText e.style e.buffer (e.ambientFor runs) runs e.stack e.due = some (ps, stack')) :
    (e.turned ps stack' runs).exposure = e.exposure := by
  have hdue : Ordered 0 e.due e.buffer.length := (e.due_append_carried ▸ h.ordered).of_append
  have hinline : ∀ d ∈ e.due, d.IsInline := fun d hd =>
    h.isInline d (e.due_append_carried ▸ List.mem_append_left _ hd)
  have hswitch : (∀ p ∈ e.switchFor runs, p.takes = []) ∧ (e.switchFor runs).findSome? (Piece.shows false) = none := by
    cases runs with
    | nil => exact ⟨nofun, rfl⟩
    | cons r runs =>
      rw [switchFor, switchPieces]
      by_cases hs : e.switches r.direction = true
      · rw [if_pos hs]
        exact ⟨List.forall_mem_singleton.2 rfl, rfl⟩
      · rw [if_neg hs]
        exact ⟨List.forall_mem_nil _, rfl⟩
  have hcalm : ∀ p ∈ e.switchFor runs ++ ps, p.takes = [] :=
    List.forall_mem_append.2 ⟨hswitch.1, (inherits_untaking.setText hinline (fun _ _ => trivial) hset).1⟩
  have hsettled : (e.turned ps stack' runs).IsSettled := ⟨rfl, rfl⟩
  rw [hsettled.exposure_eq, output_turned, exposed_append, foldl_expose hcalm, List.findSome?_append, hswitch.2,
    Option.none_or, shows_setText hruns hdue hset]
  rfl

/-- Writing what is held back leaves nothing held back, and the exposure as it is. -/
theorem Stands.turn_exposes (h : e.Stands stack s) :
    Leaves writeHeld e (fun _ e' => e'.Stands stack s ∧ e'.IsSettled ∧ e'.exposure = e.exposure) fun _ _ => True := by
  have hturn : Leaves writeHeld e (fun _ e' => e'.exposure = e.exposure) fun _ _ => True := by
    refine leaves_writeHeld h.analyzer h.open_of_due (fun _ hp hset => ?_) fun hnot => ?_
    · exact h.exposure_turned (paragraph_partitions hp).contiguous hset
    · obtain ⟨hbuffer, hdue⟩ : e.buffer = [] ∧ e.due = [] := by simpa [isDue] using hnot
      have hnothing : Contiguous 0 [] e.buffer.length := by rw [hbuffer]; rfl
      refine Stands.exposure_turned h hnothing ?_
      rw [hdue]
      exact setText_nil _ _ _ _
  exact (h.turn.both hturn).imp_left fun _ _ h' => ⟨h'.1.1, h'.1.2, h'.2⟩

theorem IsSettled.exposure_wrote (h : e.IsSettled) (p : Piece) : (e.wrote [p]).exposure = p.expose false e.exposure := by
  have hwrote : (e.wrote [p]).IsSettled := h
  rw [hwrote.exposure_eq, h.exposure_eq, output_advance, exposed_append]
  rfl

theorem Stands.put_exposes (h : e.Stands stack s) (hsettled : e.IsSettled) (p : Piece) :
    Leaves (Emit.put p) e
      (fun _ e' => e'.Stands stack (s.put p) ∧ e'.IsSettled ∧ e'.exposure = p.expose false e.exposure)
      fun _ _ => True := by
  obtain ⟨hstands, hwrote⟩ := h.wrote hsettled p
  exact leaves_put p fun _ => ⟨hstands, hwrote, hsettled.exposure_wrote p⟩

end Emitter

/-! ### Exposures of programs -/

theorem Piece.expose_of_blank {p : Piece} (hshows : p.shows false = none) (htakes : p.takes = []) (x : Exposure) :
    p.expose false x = x := by
  rw [p.expose_of_takes htakes, hshows, Exposure.meet_none]

namespace Exposure

/-- The exposure after text. Inside formatting, what is left of it without blanks after a break shows as that. -/
def write (x : Exposure) (inside atBreak : Bool) (text : List Char) : Exposure :=
  if inside && !(if atBreak then text.dropWhile isSpace else text).isEmpty then x.meet (some .other)
  else x.meet (opening? text)

/-- The exposure after a fragment. -/
def fragment (x : Exposure) (inside : Bool) (value : String) : Exposure :=
  x.meet (if inside then some .other else (opening? value.toList).map fun _ => .other)

end Exposure

mutual

/-- The exposure after an operation at a stance; `inside` says whether formatting is open. -/
def Operation.expose (inside : Bool) : Operation → Stance → Exposure → Exposure
  | .write text, s, x => x.write inside s.atBreak text
  | .record d, _, x => x.fragment inside d.value
  | .wrap _ _ content, s, x => (exposeAll true content s.touched x).meet (some .other)
  | .isolated content, s, x => exposeAll false content s x
  | .beginEnv env options, _, x => (Piece.block (beginCommand env options)).expose false x
  | .endEnv env, _, x => (Piece.block (endCommand env)).expose false x
  | .resuming content, s, x => exposeAll inside content s x
  | .lineBreak, s, x => if s.newLine then x else Piece.lineBreak.expose false x
  | .paragraphBreak, _, x | .envBreak, _, x | .dirBreak, _, x | .resetLine, _, x | .flush, _, x
  | .switchDirection _, _, x | .assumeDirection _, _, x | .setCoverage _, _, x | .deepenList _, _, x
  | .deepenToc _, _, x => x

/-- The exposure after a program. -/
def exposeAll (inside : Bool) : List Operation → Stance → Exposure → Exposure
  | [], _, x => x
  | o :: os, s, x => exposeAll inside os (o.stand inside s) (o.expose inside s x)

end

theorem exposeAll_append (inside : Bool) (os os' : List Operation) (s : Stance) (x : Exposure) :
    exposeAll inside (os ++ os') s x = exposeAll inside os' (standAll inside os s) (exposeAll inside os s x) := by
  induction os generalizing s x with
  | nil => rfl
  | cons o os ih => exact ih (o.stand inside s) (o.expose inside s x)

theorem opening?_dropWhile (text : List Char) : opening? (text.dropWhile isSpace) = opening? text := by
  induction text with
  | nil => rfl
  | cons c text ih =>
    by_cases hc : isSpace c = true
    · have hnone : charOpening? c = none := by simp [charOpening?, hc]
      rw [List.dropWhile_cons_of_pos hc, ih, opening?_cons, hnone, Option.none_or]
    · rw [List.dropWhile_cons_of_neg hc]

theorem opening?_collapseBlanks (afterBlank : Bool) (text : List Char) :
    opening? (collapseBlanks afterBlank text) = opening? text := by
  have hspace : charOpening? ' ' = none := by decide
  induction text generalizing afterBlank with
  | nil => rfl
  | cons c text ih =>
    rw [collapseBlanks, opening?_cons]
    by_cases hc : isSpace c = true
    · have hnone : charOpening? c = none := by simp [charOpening?, hc]
      rw [if_pos hc, hnone, Option.none_or]
      split
      · exact ih true
      · rw [opening?_cons, hspace, Option.none_or, ih]
    · rw [if_neg hc, opening?_cons, ih]

namespace Emitter

variable {e e' : Emitter} {s s' : Stance} {stack stack' : List Decoration}

/-! ### Breaks -/

theorem Stands.exposure_envBreak (h : e.Stands stack s) :
    Leaves Emit.envBreak e (fun _ e' => e'.exposure = e.exposure) fun _ _ => True := by
  unfold Emit.envBreak
  refine Leaves.get_bind ?_
  cases e.newEnv with
  | true => exact Leaves.of_pure rfl
  | false =>
    refine h.turn_exposes.bind fun _ e₁ h₁ => (h₁.1.put_exposes h₁.2.1 .newline).bind fun _ e₂ h₂ => Leaves.of_modify ?_
    refine (exposure_eq_of_alike ⟨rfl, rfl, rfl, rfl, rfl, rfl, rfl⟩).trans (h₂.2.2.trans ?_)
    rw [Piece.expose_of_blank rfl rfl, h₁.2.2]

theorem Stands.exposure_paragraphBreak (h : e.Stands stack s) :
    Leaves Emit.paragraphBreak e (fun _ e' => e'.exposure = e.exposure) fun _ _ => True := by
  unfold Emit.paragraphBreak
  refine Leaves.get_bind ?_
  rw [h.newPara]
  cases hs : s.newPara with
  | true => exact Leaves.of_pure rfl
  | false =>
    refine (h.envBreak.both h.exposure_envBreak).bind fun _ e₁ h₁ => ?_
    obtain ⟨⟨h₁, -⟩, hx₁⟩ := h₁
    refine (h₁.put_exposes (h₁.isSettled_envBreak (by simp [hs])) .paragraphEnd).bind fun _ e₂ h₂ => ?_
    obtain ⟨h₂, hsettled, hx₂⟩ := h₂
    rw [Piece.expose_of_blank rfl rfl, hx₁] at hx₂
    set s₃ : Stance := { s.envBreak.put .paragraphEnd with newPara := true, newLine := true } with hs₃
    have h₃ : { e₂ with newPara := true, newLine := true }.Stands stack s₃ :=
      h₂.alike ⟨rfl, rfl, rfl, rfl, rfl, rfl, rfl⟩ rfl rfl h₂.newEnv rfl rfl fun _ _ => hsettled
    refine Leaves.bind (M := fun _ e₃ => e₃.Stands stack s₃ ∧ e₃.exposure = e.exposure) (Leaves.of_modify ⟨h₃, hx₂⟩)
      fun _ e₃ h₃ => h₃.1.turn_exposes.bind fun _ e₄ h₄ => Leaves.of_modify ?_
    exact (exposure_eq_of_alike ⟨rfl, rfl, rfl, rfl, rfl, rfl, rfl⟩).trans (h₄.2.2.trans h₃.2)

theorem Stands.exposure_lineBreak (h : e.Stands stack s) :
    Leaves Emit.lineBreak e
      (fun _ e' => e'.exposure = if s.newLine then e.exposure else Piece.lineBreak.expose false e.exposure)
      fun _ _ => True := by
  unfold Emit.lineBreak
  refine Leaves.get_bind ?_
  rw [h.newLine]
  cases hs : s.newLine with
  | true => exact Leaves.of_pure rfl
  | false =>
    refine (h.envBreak.both h.exposure_envBreak).bind fun _ e₁ h₁ => ?_
    obtain ⟨⟨h₁, -⟩, hx₁⟩ := h₁
    refine (h₁.put_exposes (h₁.isSettled_envBreak (by simp [hs])) .lineBreak).bind fun _ e₂ h₂ => Leaves.of_modify ?_
    refine (exposure_eq_of_alike ⟨rfl, rfl, rfl, rfl, rfl, rfl, rfl⟩).trans (h₂.2.2.trans ?_)
    rw [hx₁]
    rfl

/-! ### Content -/

theorem Stands.exposure_recordFragment (h : e.Stands stack s) {d : Decoration} (hk : d.kind = .raw) :
    Leaves (Emit.record d) e (fun _ e' => e'.exposure = e.exposure.fragment (!stack.isEmpty) d.value)
      fun _ _ => True := by
  refine leaves_record d fun _ => ?_
  have hmark : (Token.mark { d with pos := e.pos }).shows = (opening? d.value.toList).map fun _ => .other := by
    rw [Token.shows, Decoration.pieces]
    simp only [hk]
    rw [findSome?_cons_or]
    exact Option.or_none
  rw [h.exposure_recorded (by simp [hk]), hmark, Exposure.fragment]
  cases stack <;> rfl

/-- The end of formatting shows, at the latest, that it was started. -/
theorem Stands.exposure_recordEnd {d : Decoration} (h : e.Stands (d :: stack) s) (command : String)
    (delimiters : Delimiters) :
    Leaves (Emit.record (.endInline command delimiters)) e (fun _ e' => e'.exposure = e.exposure.meet (some .other))
      fun _ _ => True := by
  refine leaves_record _ fun _ => ?_
  rw [h.exposure_recorded (by simp [Decoration.endInline])]
  rfl

theorem Stands.exposure_added (h : e.Stands stack s) (t : List Char) :
    (e.extended (collapseBlanks false t)).exposure =
      if !stack.isEmpty && !t.isEmpty then e.exposure.meet (some .other) else e.exposure.meet (opening? t) := by
  by_cases ht : t = []
  · subst ht
    have hsame : e.extended (collapseBlanks false []) = e := by
      simp [Emitter.extended, collapseBlanks]
    rw [hsame, List.isEmpty_nil, Bool.not_true, Bool.and_false, if_neg Bool.false_ne_true]
    rfl
  · have hne : collapseBlanks false t ≠ [] := fun hnil => ht <| by
      rw [← List.isEmpty_iff, ← collapseBlanks_isEmpty, hnil]
      rfl
    rw [h.exposure_extended hne, opening?_collapseBlanks]
    cases stack <;> simp [ht]

theorem Stands.exposure_write (h : e.Stands stack s) (text : List Char) :
    Leaves (Emit.write text) e (fun _ e' => e'.exposure = e.exposure.write (!stack.isEmpty) s.atBreak text)
      fun _ _ => True := by
  refine leaves_extend text fun _ => ?_
  have hbreak : (e.newEnv || e.newLine || e.newPara) = s.atBreak := by
    rw [h.newEnv, h.newLine, h.newPara]
    rfl
  rw [hbreak, Exposure.write]
  cases s.atBreak with
  | true =>
    rw [if_pos rfl, if_pos rfl, ← opening?_dropWhile text]
    by_cases htext : (text.dropWhile isSpace).isEmpty = true
    · rw [if_pos htext, htext, List.isEmpty_iff.1 htext, Bool.not_true, Bool.and_false, if_neg Bool.false_ne_true]
      rfl
    · rw [if_neg htext]
      exact h.touched.exposure_added (text.dropWhile isSpace)
  | false =>
    rw [if_neg Bool.false_ne_true, if_neg Bool.false_ne_true]
    exact h.exposure_added text

theorem Stands.exposure_wrap (h : e.Stands stack s) (s' : Stance) (command : String) {delimiters : Delimiters}
    (hd : delimiters.OnLine) {content : Emit Unit} {x : Exposure} (hcontent : ∀ {e' d}, e'.Stands (d :: stack) s.touched →
      e'.exposure = e.exposure → Leaves content e' (fun _ e'' => e''.Stands (d :: stack) s' ∧ e''.exposure = x)
        fun _ _ => True) :
    Leaves (Emit.wrap command content delimiters) e (fun _ e' => e'.exposure = x.meet (some .other)) fun _ _ => True := by
  have hstart : Leaves (Emit.record (.startInline command delimiters)) e (fun _ e' => e'.exposure = e.exposure)
      fun _ _ => True := leaves_record _ fun _ => e.exposure_recorded_start rfl
  refine ((h.recordStart command hd).both hstart).bind fun _ e₁ h₁ => Leaves.finishing ?_
  obtain ⟨⟨d, -, h₁⟩, hx₁⟩ := h₁
  refine (hcontent h₁ hx₁).imp (fun _ e₂ h₂ => ?_) fun _ e₂ _ => ?_
  · rw [← h₂.2]
    exact h₂.1.exposure_recordEnd command delimiters
  · exact (Leaves.trivial _ e₂).imp (fun _ _ _ => trivial) fun _ _ _ => trivial

/-- With nothing held back, the formatting may be exchanged. -/
theorem IsSettled.exposure_exchange (h : e.IsSettled) (stack' : List Decoration) :
    { e with stack := stack' }.exposure = e.exposure := by
  have hexchanged : { e with stack := stack' }.IsSettled := h
  rw [hexchanged.exposure_eq, h.exposure_eq]
  rfl

theorem Stands.exposure_isolated (h : e.Stands stack s) (s' : Stance) {content : Emit Unit} {x : Exposure}
    (hcontent : ∀ {e'}, e'.Stands [] s → e'.IsSettled → e'.stack = [] → e'.exposure = e.exposure →
      Leaves content e' (fun _ e'' => e''.Stands [] s' ∧ e''.exposure = x) fun _ _ => True) :
    Leaves (Emit.isolated content) e (fun _ e' => e'.exposure = x) fun _ _ => True := by
  have henter : Leaves Emit.enterIsolation e (fun _ e' => e'.exposure = e.exposure) fun _ _ => True := by
    refine h.turn_exposes.bind fun _ e₁ h₁ => Leaves.get_bind ?_
    refine Leaves.bind (M := fun _ e₂ => e₂.exposure = e.exposure) (Leaves.of_modify ?_) fun _ e₂ h₂ => Leaves.of_pure h₂
    exact (h₁.2.1.exposure_exchange []).trans h₁.2.2
  refine (h.enterIsolation.both henter).bind fun saved e₁ h₁ => Leaves.finishing ?_
  obtain ⟨⟨-, -, h₁, hsettled, hstack⟩, hx₁⟩ := h₁
  have hchecked : Leaves (content >>= fun _ => checkIsolation) e₁ (fun _ e' => e'.IsSettled ∧ e'.exposure = x)
      fun _ _ => True := by
    refine (hcontent h₁ hsettled hstack hx₁).bind fun _ e₂ h₂ => h₂.1.turn_exposes.bind fun _ e₃ h₃ => ?_
    refine Leaves.get_bind ?_
    dsimp only
    split
    · exact Leaves.of_pure ⟨h₃.2.1, h₃.2.2.trans h₂.2⟩
    · exact Leaves.of_throw trivial
  refine hchecked.imp (fun _ e₂ h₂ => Leaves.of_modify ?_) fun _ _ _ => Leaves.of_modify trivial
  exact (h₂.1.exposure_exchange saved).trans h₂.2

theorem Stands.exposure_recordBlock (h : e.Stands [] s) (hsettled : e.IsSettled) (hstack : e.stack = []) {d : Decoration}
    (hd : d.kind = .startBlock ∨ d.kind = .endBlock) :
    Leaves (Emit.record d >>= fun _ => Emit.envBreak) e
      (fun _ e' => e'.exposure = (Piece.block d.value).expose false e.exposure) fun _ _ => True := by
  by_cases hclosed : e.closed = true
  · exact Leaves.bind (M := fun _ _ => False) (Leaves.of_error (perform_record_of_closed hclosed d) trivial)
      fun _ _ h => h.elim
  refine Leaves.of_ok (perform_record_block h.analyzer (by simpa using hclosed) hsettled.1 hsettled.2 hstack hd) ?_
  set written : Emitter := (e.recorded d).turned [.block d.value] [] [] with hwritten
  have houtput : { written.wrote [.newline] with newEnv := true }.output = e.output ++ [.block d.value] ++ [.newline] :=
    (output_advance written [.newline] written.stack written.contextDir written.startPara).trans
      (congrArg (· ++ [.newline]) (output_turned (e.recorded d) [.block d.value] [] []))
  have hsettled' : { written.wrote [.newline] with newEnv := true }.IsSettled := ⟨rfl, rfl⟩
  rw [hsettled'.exposure_eq, houtput, exposed_append, exposed_append, hsettled.exposure_eq]
  exact Piece.expose_of_blank rfl rfl _

theorem Stands.exposure_block (h : e.Stands stack s) {d : Decoration} (hd : d.kind = .startBlock ∨ d.kind = .endBlock) :
    Leaves (writeBlock d) e (fun _ e' => e'.exposure = (Piece.block d.value).expose false e.exposure)
      fun _ _ => True := by
  refine (h.envBreak.both h.exposure_envBreak).bind fun _ e₁ h₁ => ?_
  obtain ⟨⟨h₁, -⟩, hx₁⟩ := h₁
  rw [← hx₁]
  refine h₁.exposure_isolated (s.block d.value) fun {e₂} h₂ hsettled hstack hx₂ => ?_
  rw [← hx₂]
  exact (h₂.recordBlock hsettled hstack hd).both (h₂.exposure_recordBlock hsettled hstack hd)

theorem Stands.exposure_assumeDirection (h : e.Stands stack s) (direction : NamedDirection) :
    Leaves (Emit.assumeDirection direction) e (fun _ e' => e'.exposure = e.exposure) fun _ _ => True := by
  refine h.turn_exposes.bind fun _ e₁ h₁ => Leaves.of_modify ?_
  have hnoted := h₁.2.1.exposure_wrote (.assumeDirection direction)
  rw [Piece.expose_of_blank rfl rfl, h₁.2.2] at hnoted
  exact (exposure_eq_of_alike ⟨rfl, rfl, rfl, rfl, rfl, rfl, rfl⟩).trans hnoted

/-- A change of a setting comes after what is held back, and shows nothing. -/
theorem Stands.exposure_setting (h : e.Stands stack s) {change : Emitter → Emitter}
    (hchange : ∀ e' : Emitter, e'.Alike (change e')) :
    Leaves (writeHeld >>= fun _ => modify change) e (fun _ e' => e'.exposure = e.exposure) fun _ _ => True :=
  h.turn_exposes.bind fun _ e₁ h₁ => Leaves.of_modify ((exposure_eq_of_alike (hchange e₁)).trans h₁.2.2)

theorem Stands.exposure_flush (h : e.Stands stack s) :
    Leaves Emit.flush e (fun _ e' => e'.exposure = e.exposure) fun _ _ => True := by
  refine (h.envBreak.both h.exposure_envBreak).bind fun _ e₁ h₁ => ?_
  obtain ⟨⟨h₁, -⟩, hx₁⟩ := h₁
  refine h₁.turn_exposes.bind fun _ e₂ h₂ => Leaves.get_bind ?_
  dsimp only
  split
  · refine Leaves.of_modify ?_
    have hclosed : { e₂ with closed := true }.IsSettled := h₂.2.1
    rw [hclosed.exposure_eq, ← hx₁, ← h₂.2.2, h₂.2.1.exposure_eq]
    rfl
  · exact Leaves.of_throw trivial

end Emitter

mutual

theorem Operation.perform_exposes (o : Operation) {e : Emitter} {s : Stance} {stack : List Decoration}
    (ho : o.isSet = true) (h : e.Stands stack s) :
    Leaves o.perform e (fun _ e' => e'.exposure = o.expose (!stack.isEmpty) s e.exposure) fun _ _ => True := by
  have hmarks : ∀ {e' : Emitter}, e.Alike e' → e'.exposure = e.exposure := Emitter.exposure_eq_of_alike
  cases o with
  | write text => exact h.exposure_write text
  | record d =>
    simp only [Operation.isSet, Bool.and_eq_true, decide_eq_true_eq] at ho
    exact h.exposure_recordFragment ho.1
  | wrap command delimiters content =>
    simp only [Operation.isSet, Bool.and_eq_true, decide_eq_true_eq] at ho
    refine h.exposure_wrap (standAll true content s.touched) command ho.1 fun h' hx => ?_
    rw [← hx]
    exact (performAll_stands content ho.2 h').both (performAll_exposes content ho.2 h')
  | isolated content =>
    refine h.exposure_isolated (standAll false content s) fun h' _ _ hx => ?_
    rw [← hx]
    exact (performAll_stands content ho h').both (performAll_exposes content ho h')
  | beginEnv env options =>
    refine (h.exposure_block (.inl rfl)).bind fun _ e' hx => Leaves.of_modify ?_
    exact (Emitter.exposure_eq_of_alike ⟨rfl, rfl, rfl, rfl, rfl, rfl, rfl⟩).trans hx
  | endEnv env =>
    refine (h.exposure_block (.inr rfl)).bind fun _ e' hx => Leaves.of_modify ?_
    exact (Emitter.exposure_eq_of_alike ⟨rfl, rfl, rfl, rfl, rfl, rfl, rfl⟩).trans hx
  | switchDirection direction => exact h.exposure_setting fun _ => ⟨rfl, rfl, rfl, rfl, rfl, rfl, rfl⟩
  | assumeDirection direction => exact h.exposure_assumeDirection direction
  | resuming content =>
    refine Leaves.get_bind ?_
    refine ((performAll_stands content ho h).both (performAll_exposes content ho h)).bind fun _ e' h' => ?_
    exact (h'.1.exposure_assumeDirection _).imp_left fun _ _ hx => hx.trans h'.2
  | setCoverage latinCoverage => exact h.exposure_setting fun _ => ⟨rfl, rfl, rfl, rfl, rfl, rfl, rfl⟩
  | deepenList n => exact Leaves.of_modify (hmarks ⟨rfl, rfl, rfl, rfl, rfl, rfl, rfl⟩)
  | deepenToc n => exact Leaves.of_modify (hmarks ⟨rfl, rfl, rfl, rfl, rfl, rfl, rfl⟩)
  | paragraphBreak => exact h.exposure_paragraphBreak
  | lineBreak => exact h.exposure_lineBreak
  | envBreak => exact h.exposure_envBreak
  | dirBreak => exact h.turn_exposes.imp_left fun _ _ h' => h'.2.2
  | resetLine => exact Leaves.of_modify (hmarks ⟨rfl, rfl, rfl, rfl, rfl, rfl, rfl⟩)
  | flush => exact h.exposure_flush

/-- What an emitter exposes is what the program does, marks of direction apart, as long as no operation fails. -/
theorem performAll_exposes (os : List Operation) {e : Emitter} {s : Stance} {stack : List Decoration}
    (hos : areSet os = true) (h : e.Stands stack s) :
    Leaves (performAll os) e (fun _ e' => e'.exposure = exposeAll (!stack.isEmpty) os s e.exposure) fun _ _ => True := by
  cases os with
  | nil => exact Leaves.of_pure rfl
  | cons o os =>
    simp only [areSet, Bool.and_eq_true] at hos
    refine ((Operation.perform_stands o hos.1 h).both (Operation.perform_exposes o hos.1 h)).bind fun _ e' h' => ?_
    exact (performAll_exposes os hos.2 h'.1).imp_left fun _ _ hx => by rw [hx, h'.2, exposeAll]

end

theorem start_exposure (direction : NamedDirection) : (Emitter.start direction).exposure = {} := by
  have hsettled : (Emitter.start direction).IsSettled := ⟨rfl, rfl⟩
  rw [hsettled.exposure_eq]
  rfl

end WikiTypeset.Latex
