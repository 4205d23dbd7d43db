import WikiTypeset.Proofs.Emission.Stance

/-!
# Line breaks come after something of their paragraph

A line break is written where breaks have an effect, and the start of formatting is enough for that. But formatting that
has only been started may be carried over a break without having been written, so that the line break comes first in its
paragraph. Main statement: `program_breaks_begun_iff`, by which this is the only way: a program breaks lines that have
begun just if it does so when the start of formatting counts for nothing.
-/

namespace WikiTypeset.Latex

open Action Bidi Emit

/-- Text, a fragment or inline formatting stands in an output since its start, its last blank line, its last line
break, and the last start or end of an environment. -/
def HasBegun (ps : List Piece) : Prop := ∃ ms f, layPieces {} ps = some (ms, f) ∧ f.begun = true

/-- Whether a landmark is a line break that comes first in its paragraph. -/
def Landmark.isBare : Landmark → Bool
  | .lineBreak begun => !begun
  | _ => false

/-- The line breaks of an output show in its landmarks. -/
theorem hasBegun_iff {ps : List Piece} {ms : List Landmark} {f : Footing} (h : layPieces {} ps = some (ms, f)) :
    (∀ before after, ps = before ++ .lineBreak :: after → HasBegun before) ↔ ∀ m ∈ ms, m.isBare = false := by
  constructor
  · intro hbegun m hm
    obtain ⟨before, p, after, found, g, here, next, rfl, hbefore, hstep, hp⟩ := (mem_gather h).1 hm
    cases hstep
    unfold Piece.landmarks at hp
    cases p with
    | lineBreak =>
      obtain ⟨found', g', hbefore', hg'⟩ := hbegun before after rfl
      cases hbefore.symm.trans hbefore'
      rw [List.mem_singleton.1 hp, Landmark.isBare, hg']
      rfl
    | fragment value =>
      rw [List.mem_singleton.1 hp]
      rfl
    | block value =>
      rw [List.mem_singleton.1 hp]
      rfl
    | newline =>
      dsimp only at hp
      split at hp
      · rw [List.mem_singleton.1 hp]
        rfl
      · cases hp
    | paragraphEnd =>
      dsimp only at hp
      split at hp
      · rw [List.mem_singleton.1 hp]
        rfl
      · cases hp
    | _ => cases hp
  · rintro hbare before after rfl
    obtain ⟨found, g, rest, hbefore, hrest, rfl⟩ := gather_append_inv h
    obtain ⟨first, g', more, hfirst, -, rfl⟩ := gather_cons_inv hrest
    cases hfirst
    have hbegun := hbare (.lineBreak g.begun) (by simp [Piece.landmarks])
    exact ⟨found, g, hbefore, by simpa [Landmark.isBare] using hbegun⟩

/-- Held text holds fragments only. -/
theorem fragment_of_mem_layTokens {a a' : Footing × List Decoration} {ts : List Token} {ms : List Landmark}
    (h : layTokens a ts = some (ms, a')) : ∀ m ∈ ms, ∃ value, m = .fragment value := by
  induction ts generalizing a ms with
  | nil =>
    cases h
    nofun
  | cons t ts ih =>
    obtain ⟨first, a₁, rest, hfirst, hrest, rfl⟩ := gather_cons_inv h
    refine List.forall_mem_append.2 ⟨?_, ih hrest⟩
    unfold Token.lay at hfirst
    cases t with
    | char c =>
      cases hfirst
      nofun
    | mark d =>
      cases hk : d.kind <;> simp only [hk, reduceCtorEq, Option.map_eq_some_iff, Option.some.injEq] at hfirst
      case startInline =>
        cases hfirst
        nofun
      case endInline =>
        obtain ⟨_, -, hfirst⟩ := hfirst
        cases hfirst
        nofun
      case raw =>
        cases hfirst
        exact List.forall_mem_singleton.2 ⟨_, rfl⟩

/-- The line breaks that a program issues are those of the output of an emitter that stands where the program does. -/
theorem Emitter.Stands.hasBegun_iff {e : Emitter} {stack : List Decoration} {s : Stance} (h : e.Stands stack s) :
    (∀ before after, e.output = before ++ .lineBreak :: after → HasBegun before) ↔
      ∀ m ∈ s.landmarks, m.isBare = false := by
  obtain ⟨ms, f, held, hwritten, hheld, hlandmarks⟩ := h.lies
  have hfragments : ∀ m ∈ held, m.isBare = false := by
    intro m hm
    obtain ⟨value, rfl⟩ := fragment_of_mem_layTokens hheld m hm
    rfl
  rw [Latex.hasBegun_iff hwritten, hlandmarks, List.forall_mem_append]
  exact ⟨fun hms => ⟨hms, hfragments⟩, fun hms => hms.1⟩

/-- Wherever a program of fragments and of formatting with visible delimiters has come, as long as no operation fails:
each line break of the output comes after something of its paragraph just if each line break that the program issues
does so when fragments, text other than blanks after a break, and the ends of formatting count, and its starts do not. -/
theorem program_breaks_begun_iff (direction : NamedDirection) (program : Begun) (hp : program.isSet = true) {e : Emitter}
    (hrun : program.perform.perform (Emitter.start direction) = (.ok (), e)) :
    (∀ before after, e.output = before ++ .lineBreak :: after → HasBegun before) ↔
      ∀ m ∈ (program.stand false {}).landmarks, m.isBare = false := by
  obtain ⟨stack, hstands⟩ := (program.perform_stands hp (start_stands direction)).ok hrun
  exact hstands.hasBegun_iff

/-- Formatting across a line break, and a fragment that ends a line. -/
def brokenEmphasis : Begun :=
  .inWrap [.write "a".toList, .lineBreak, .record (.raw "\\small\n"), .paragraphBreak] "\\emph" {}
    (.upTo [.write "b".toList, .lineBreak, .write "c".toList, .beginEnv "quote" "", .lineBreak])

theorem brokenEmphasis_breaks_begun : ∃ e, brokenEmphasis.perform.perform (Emitter.start (.known .ltr)) = (.ok (), e) ∧
    brokenEmphasis.isSet = true ∧ ∀ before after, e.output = before ++ .lineBreak :: after → HasBegun before := by
  have hok : (brokenEmphasis.perform.perform (Emitter.start (.known .ltr))).1.toBool = true := by decide +kernel
  have hset : brokenEmphasis.isSet = true := by decide +kernel
  have hbegun : ∀ m ∈ (brokenEmphasis.stand false {}).landmarks, m.isBare = false := by decide +kernel
  generalize hrun : brokenEmphasis.perform.perform (Emitter.start (.known .ltr)) = r at hok
  obtain ⟨_ | _, e⟩ := r
  · cases hok
  · exact ⟨e, rfl, hset, (program_breaks_begun_iff (.known .ltr) brokenEmphasis hset hrun).2 hbegun⟩

/-- A paragraph that begins with bold text, and a line break at its start. -/
def boldBreak : List Operation :=
  [.paragraphBreak, .wrap "\\textbf" {} [.lineBreak, .write "x".toList], .paragraphBreak]

/-- The line break is written before anything of the paragraph, because the bold text has only been started. -/
theorem boldBreak_breaks_bare : ∃ e, (performAll boldBreak).perform (Emitter.start (.known .ltr)) = (.ok (), e) ∧
    ¬ ∀ before after, e.output = before ++ .lineBreak :: after → HasBegun before := by
  have hok : ((performAll boldBreak).perform (Emitter.start (.known .ltr))).1.toBool = true := by decide +kernel
  have hbare : (layPieces {} ((performAll boldBreak).perform (Emitter.start (.known .ltr))).2.output).any
      (fun r => r.1.any Landmark.isBare) = true := by decide +kernel
  generalize (performAll boldBreak).perform (Emitter.start (.known .ltr)) = r at hok hbare
  obtain ⟨_ | _, e⟩ := r
  · cases hok
  · refine ⟨e, rfl, fun hbegun => ?_⟩
    obtain ⟨⟨ms, f⟩, hlay, hany⟩ := (Option.any_eq_true _ _).1 hbare
    obtain ⟨m, hm, hbare⟩ := List.any_eq_true.1 hany
    rw [(hasBegun_iff hlay).1 hbegun m hm] at hbare
    cases hbare

end WikiTypeset.Latex
