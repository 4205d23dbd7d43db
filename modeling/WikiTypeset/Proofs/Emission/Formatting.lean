import WikiTypeset.Proofs.Emission.Coupling

/-!
# Relations that know the formatting

A relation between emitters and ledgers may say that all decorations that are held back or open have some property. If it
survives a turn and the ends of lines, it survives all that an emitter does with text and formatting: these are the lemmas
of `Formats`.
-/

namespace WikiTypeset.Latex

open Action Bidi Emit

/-- A relation between emitters and ledgers by which all decorations that are held back or open have a property. It
survives a turn and the ends of lines, and depends on what has been written, on the ambient direction and on the turns. -/
structure Formats (has : Decoration → Prop) (rel : Emitter → Ledger → Prop) : Prop where
  agrees : ∀ {e l}, rel e l → e.Agrees l
  open_of_due : ∀ {e l}, rel e l → e.isDue = true → e.closed = false
  decorations : ∀ {e l}, rel e l → ∀ d ∈ e.decorations, has d
  stack : ∀ {e l}, rel e l → ∀ d ∈ e.stack, has d
  moved : ∀ {d : Decoration} (pos : Nat), has d → has { d with pos }
  turn : ∀ {e l}, rel e l → Leaves writeHeld e (fun _ e' => rel e' l.turn) fun _ _ => True
  lineEnd : ∀ {e l p}, rel e l → e.closed = false → p = .newline ∨ p = .paragraphEnd ∨ p = .lineBreak → rel (e.wrote [p]) l
  of_agrees : ∀ {e e' : Emitter} {l l' : Ledger}, rel e l → e'.Agrees l' → e'.analyzer = e.analyzer →
    (e'.isDue = true → e'.closed = false) → (∀ d ∈ e'.decorations, has d) → (∀ d ∈ e'.stack, has d) →
    e'.written = e.written → e'.contextDir = e.contextDir → l'.turns = l.turns → rel e' l'

namespace Formats

variable {has : Decoration → Prop} {rel : Emitter → Ledger → Prop} {e : Emitter} {l : Ledger}

theorem write (hf : Formats has rel) (inside : List Wrapper) (h : rel e l) (text : List Char) :
    Leaves (Emit.write text) e (fun _ e' => rel e' (l.write text inside)) fun _ _ => True := by
  by_cases hclosed : e.closed = true
  · exact Leaves.of_error (Emitter.perform_write_of_closed hclosed text) trivial
  · have hopen : e.closed = false := by simpa using hclosed
    -- More text may make an emitter due, so it has to be known to be open.
    have hwrite : Leaves (Emit.write text) e (fun _ e' => rel e' (l.write text inside) ∧ e'.closed = false)
        fun _ _ => True := by
      refine leaves_write (fun e l => rel e l ∧ e.closed = false) (fun h => hf.agrees h.1) ?_ ?_ ⟨h, hopen⟩ hopen text
      · intro e l h
        have hdecorations := hf.decorations h.1
        have hstack := hf.stack h.1
        exact ⟨hf.of_agrees h.1 (hf.agrees h.1).touched rfl (fun _ => h.2) hdecorations hstack rfl rfl rfl, h.2⟩
      · intro e l s h
        have hdecorations := hf.decorations h.1
        have hstack := hf.stack h.1
        have hag := (hf.agrees h.1).extended s inside
        exact ⟨hf.of_agrees h.1 hag rfl (fun _ => h.2) hdecorations hstack rfl rfl rfl, h.2⟩
    exact hwrite.imp_left fun _ _ h => h.1

theorem coupled (hf : Formats has rel) (all : List Turn) : Coupled rel (fun _ _ => True) all where
  agrees h := hf.agrees h
  turn h _ := hf.turn h
  lineEnd h hp := leaves_put _ fun hopen => hf.lineEnd h hopen hp
  alike h ha hag _ hturns := by
    refine hf.of_agrees h hag ha.analyzer (fun hdue => ?_) ?_ ?_ ha.written ha.contextDir hturns
    · rw [ha.closed]
      exact hf.open_of_due h (ha.isDue_eq ▸ hdue)
    · rw [ha.decorations]
      exact hf.decorations h
    · rw [ha.stack]
      exact hf.stack h

theorem record (hf : Formats has rel) (h : rel e l) {d : Decoration} (hd : has d) (inside : List Wrapper) :
    Leaves (Emit.record d) e (fun _ e' => rel e' (l.record d inside)) fun _ _ => True := by
  refine leaves_record d fun hopen => ?_
  have hdecorations : ∀ x ∈ (e.recorded d).decorations, has x :=
    List.forall_mem_append.2 ⟨hf.decorations h, List.forall_mem_singleton.2 (hf.moved _ hd)⟩
  have hstack := hf.stack h
  have hag := (hf.agrees h).recorded d inside
  exact hf.of_agrees h hag rfl (fun _ => hopen) hdecorations hstack rfl rfl (l.turns_record d inside)

theorem exchange (hf : Formats has rel) (h : rel e l) {stack : List Decoration} (hstack : ∀ d ∈ stack, has d) :
    rel { e with stack := stack } l := by
  have hag := hf.agrees h
  have hopen := hf.open_of_due h
  have hdecorations := hf.decorations h
  exact hf.of_agrees h { hag with } rfl hopen hdecorations hstack rfl rfl rfl

/-- The formatting that is put aside has the property too. -/
theorem enterIsolation (hf : Formats has rel) (h : rel e l) : Leaves Emit.enterIsolation e
    (fun saved e' => rel e' l.turn ∧ ∀ d ∈ saved, has d) fun _ _ => True := by
  refine (hf.turn h).bind fun _ e₁ h₁ => Leaves.get_bind ?_
  have hempty := hf.exchange h₁ (List.forall_mem_nil _)
  exact Leaves.bind (Leaves.of_modify (P := fun _ e' => rel e' l.turn) hempty) fun _ e₂ h₂ =>
    Leaves.of_pure ⟨h₂, hf.stack h₁⟩

/-- An isolated part whose content ends where a turn brings the relation back. -/
theorem isolated_of_turn (hf : Formats has rel) (h : rel e l) {content : Emit Unit} {P : Emitter → Prop} {l' : Ledger}
    (hcontent : ∀ {e'}, rel e' l.turn → Leaves content e' (fun _ e'' => P e'') fun _ _ => True)
    (hturn : ∀ {e'}, P e' → Leaves writeHeld e' (fun _ e'' => rel e'' l'.turn) fun _ _ => True) :
    Leaves (Emit.isolated content) e (fun _ e' => rel e' l'.turn) fun _ _ => True := by
  refine (hf.enterIsolation h).bind fun saved e₁ h₁ => Leaves.finishing ?_
  have hchecked : Leaves (content >>= fun _ => checkIsolation) e₁ (fun _ e' => rel e' l'.turn) fun _ _ => True := by
    refine (hcontent h₁.1).bind fun _ e₂ h₂ => (hturn h₂).bind fun _ e₃ h₃ => Leaves.get_bind ?_
    dsimp only
    split
    · exact Leaves.of_pure h₃
    · exact Leaves.of_throw trivial
  exact hchecked.imp (fun _ e₂ h₂ => Leaves.of_modify (hf.exchange h₂ h₁.2)) fun _ _ _ => Leaves.of_modify trivial

theorem isolated (hf : Formats has rel) (h : rel e l) {content : Emit Unit} {l' : Ledger}
    (hcontent : ∀ {e'}, rel e' l.turn → Leaves content e' (fun _ e'' => rel e'' l') fun _ _ => True) :
    Leaves (Emit.isolated content) e (fun _ e' => rel e' l'.turn) fun _ _ => True :=
  hf.isolated_of_turn h hcontent hf.turn

theorem flush (hf : Formats has rel) (h : rel e l) :
    Leaves Emit.flush e (fun _ e' => rel e' l.envBreak.turn) fun _ _ => True := by
  have hc := hf.coupled l.envBreak.turns
  refine (hc.envBreak h (List.Subset.refl _)).bind fun _ e₁ h₁ => (hf.turn h₁).bind fun _ e₂ h₂ => Leaves.get_bind ?_
  have hag := hf.agrees h₂
  have hdue : e₂.isDue = false := hag.due
  have hdecorations := hf.decorations h₂
  have hstack := hf.stack h₂
  dsimp only
  split
  · refine Leaves.of_modify (hf.of_agrees h₂ { hag with } rfl (fun h => ?_) hdecorations hstack rfl rfl rfl)
    cases hdue.symm.trans h
  · exact Leaves.of_throw trivial

end Formats

end WikiTypeset.Latex
