import WikiTypeset.Action

/-!
# What an action leaves behind

`Leaves a s P F` says what holds after `a` has been performed in `s`: `P` of the result and the state if there
is a result, `F` of the cause and the state if there is none. An alteration is a relation between a state and a later one
that any number of steps keep to if each of them does; `Moves` says of an action that it keeps to one, whether or not it
fails. An action that is given a part to run may be given another one; `Retraces` says that the second run goes as the
first one does, unless the first one fails for one of some causes. Every way of composing actions has a rule.
-/

namespace WikiTypeset

open Action

variable {σ τ ε δ α β γ : Type}

/-- What holds after an action: `P` if it gives a result, `F` if it does not. -/
@[irreducible] def Leaves (a : Action σ ε α) (s : σ) (P : α → σ → Prop) (F : ε → σ → Prop) : Prop :=
  match a.perform s with
  | (.ok x, s') => P x s'
  | (.error c, s') => F c s'

namespace Leaves

variable {a : Action σ ε α} {f : α → Action σ ε β} {s s' : σ} {x : α} {c : ε}
variable {P Q : α → σ → Prop} {F G : ε → σ → Prop}

theorem of_ok (h : a.perform s = (.ok x, s')) (hp : P x s') : Leaves a s P F := by
  unfold Leaves
  rw [h]
  exact hp

theorem of_error (h : a.perform s = (.error c, s')) (hf : F c s') : Leaves a s P F := by
  unfold Leaves
  rw [h]
  exact hf

theorem ok (h : Leaves a s P F) (ha : a.perform s = (.ok x, s')) : P x s' := by
  unfold Leaves at h
  rwa [ha] at h

theorem error (h : Leaves a s P F) (ha : a.perform s = (.error c, s')) : F c s' := by
  unfold Leaves at h
  rwa [ha] at h

/-- Only what performing an action gives matters. -/
theorem of_perform_eq {b : Action σ ε α} (hb : Leaves b s' P F) (h : a.perform s = b.perform s') : Leaves a s P F := by
  unfold Leaves at hb ⊢
  rw [h]
  exact hb

theorem imp (h : Leaves a s P F) (hp : ∀ x s', P x s' → Q x s')
    (hf : ∀ c s', F c s' → G c s') : Leaves a s Q G := by
  rcases ha : a.perform s with ⟨_ | _, s'⟩
  · exact of_error ha (hf _ _ (h.error ha))
  · exact of_ok ha (hp _ _ (h.ok ha))

theorem imp_left (h : Leaves a s P F) (hp : ∀ x s', P x s' → Q x s') : Leaves a s Q F :=
  h.imp hp fun _ _ hf => hf

theorem and (h : Leaves a s P F) (h' : Leaves a s Q G) :
    Leaves a s (fun x s' => P x s' ∧ Q x s') fun c s' => F c s' ∧ G c s' := by
  rcases ha : a.perform s with ⟨_ | _, s'⟩
  · exact of_error ha ⟨h.error ha, h'.error ha⟩
  · exact of_ok ha ⟨h.ok ha, h'.ok ha⟩

/-- What comes of an action that may fail in any way. -/
theorem both (h : Leaves a s P fun _ _ => True) (h' : Leaves a s Q fun _ _ => True) :
    Leaves a s (fun x s' => P x s' ∧ Q x s') fun _ _ => True :=
  (h.and h').imp (fun _ _ hp => hp) fun _ _ _ => True.intro

theorem trivial (a : Action σ ε α) (s : σ) : Leaves a s (fun _ _ => True) fun _ _ => True := by
  rcases ha : a.perform s with ⟨_ | _, s'⟩
  · exact of_error ha True.intro
  · exact of_ok ha True.intro

/-- What performing the action gives. -/
theorem self (a : Action σ ε α) (s : σ) :
    Leaves a s (fun x s' => a.perform s = (.ok x, s')) fun c s' => a.perform s = (.error c, s') := by
  rcases ha : a.perform s with ⟨_ | _, s'⟩
  · exact of_error ha rfl
  · exact of_ok ha rfl

theorem of_pure (h : P x s) : Leaves (pure x : Action σ ε α) s P F := of_ok (perform_pure x s) h

theorem of_modify {g : σ → σ} {P : Unit → σ → Prop} (h : P () (g s)) :
    Leaves (modify g : Action σ ε Unit) s P F :=
  of_ok (perform_modify g s) h

theorem of_throw (h : F c s) : Leaves (throw c : Action σ ε α) s P F :=
  of_error (perform_throw c s) h

theorem bind {P : β → σ → Prop} {M : α → σ → Prop} (ha : Leaves a s M F)
    (hf : ∀ x s', M x s' → Leaves (f x) s' P F) : Leaves (a >>= f) s P F := by
  rcases h : a.perform s with ⟨c | x, s'⟩
  · exact of_error (by rw [perform_bind, h]) (ha.error h)
  · exact (hf x s' (ha.ok h)).of_perform_eq (by rw [perform_bind, h])

/-- An action that looks at the state first. -/
theorem get_bind {f : σ → Action σ ε β} {P : β → σ → Prop} (h : Leaves (f s) s P F) :
    Leaves (get >>= f) s P F :=
  h.of_perform_eq (by rw [perform_bind, perform_get])

/-- An action that needs a result that may not be there. -/
theorem lift_bind {r : Except ε α} {P : β → σ → Prop} (hf : ∀ x, r = .ok x → Leaves (f x) s P F)
    (hr : ∀ c, r = .error c → F c s) : Leaves ((liftM r : Action σ ε α) >>= f) s P F := by
  cases r with
  | ok x => exact (hf x rfl).of_perform_eq rfl
  | error c => exact of_error rfl (hr c rfl)

/-- The result or the cause of the failure of an action. -/
theorem attempt {G : δ → σ → Prop} (h : Leaves a s P F) : Leaves (Action.attempt a : Action σ δ (Except ε α)) s
    (fun r s' => (∀ x, r = .ok x → P x s') ∧ ∀ c, r = .error c → F c s') G := by
  rcases ha : a.perform s with ⟨c | x, s'⟩
  · have hattempt : (Action.attempt a : Action σ δ (Except ε α)).perform s = (.ok (.error c), s') := by
      rw [perform_attempt, ha]
    refine of_ok hattempt ⟨nofun, fun c' hc => ?_⟩
    cases hc
    exact h.error ha
  · have hattempt : (Action.attempt a : Action σ δ (Except ε α)).perform s = (.ok (.ok x), s') := by
      rw [perform_attempt, ha]
    refine of_ok hattempt ⟨fun x' hx => ?_, nofun⟩
    cases hx
    exact h.ok ha

/-- The last action is performed in either case. -/
theorem finishing {last : Action σ ε Unit}
    (h : Leaves a s (fun x s' => Leaves last s' (fun _ s'' => P x s'') F)
      fun c s' => Leaves last s' (fun _ s'' => F c s'') F) : Leaves (finishing a last) s P F := by
  unfold Leaves
  rw [perform_finishing]
  rcases ha : a.perform s with ⟨c | x, s'⟩
  · have hlast := h.error ha
    rcases hl : last.perform s' with ⟨c' | _, s''⟩
    · simpa only [hl] using hlast.error hl
    · simpa only [hl] using hlast.ok hl
  · have hlast := h.ok ha
    rcases hl : last.perform s' with ⟨c' | _, s''⟩
    · simpa only [hl] using hlast.error hl
    · simpa only [hl] using hlast.ok hl

/-- An action on a part of a state. -/
theorem within {part : τ → σ} {replace : τ → σ → τ} {cause : ε → δ} {t : τ} {P : α → τ → Prop} {F : δ → τ → Prop}
    (h : Leaves a (part t) (fun x s' => P x (replace t s')) fun c s' => F (cause c) (replace t s')) :
    Leaves (within part replace cause a) t P F := by
  unfold Leaves
  rw [perform_within]
  rcases ha : a.perform (part t) with ⟨c | x, s'⟩
  · exact h.error ha
  · exact h.ok ha

end Leaves

/-! ### What changes an action makes -/

/-- A relation between the states before and after some steps, however many they are. -/
structure Alteration (σ : Type) where
  rel : σ → σ → Prop
  refl : ∀ s, rel s s
  trans : ∀ {s t u}, rel s t → rel t u → rel s u

/-- The action keeps to the alteration whether or not it fails, and its results are as `Q` says. -/
def MovesWith (c : Alteration σ) (Q : α → Prop) (a : Action σ ε α) : Prop :=
  ∀ s, Leaves a s (fun x s' => Q x ∧ c.rel s s') fun _ s' => c.rel s s'

/-- The action keeps to the alteration whether or not it fails. -/
abbrev Moves (c : Alteration σ) (a : Action σ ε α) : Prop := MovesWith c (fun _ => True) a

namespace MovesWith

variable {c d : Alteration σ} {Q : α → Prop} {Q' : β → Prop} {a : Action σ ε α} {f : α → Action σ ε β}

theorem of_pure {x : α} (hx : Q x) : MovesWith c Q (pure x : Action σ ε α) := fun s => Leaves.of_pure ⟨hx, c.refl s⟩

theorem of_throw {e : ε} : MovesWith c Q (throw e : Action σ ε α) := fun s => Leaves.of_throw (c.refl s)

theorem of_modify {g : σ → σ} (h : ∀ s, c.rel s (g s)) : Moves c (modify g : Action σ ε Unit) :=
  fun s => Leaves.of_modify ⟨True.intro, h s⟩

theorem mono {Q₁ : α → Prop} (h : MovesWith c Q a) (hQ : ∀ x, Q x → Q₁ x) : MovesWith c Q₁ a :=
  fun s => (h s).imp_left fun x _ h' => ⟨hQ x h'.1, h'.2⟩

theorem weaken (h : MovesWith c Q a) (hcd : ∀ s s', c.rel s s' → d.rel s s') : MovesWith d Q a :=
  fun s => (h s).imp (fun _ s' h' => ⟨h'.1, hcd s s' h'.2⟩) fun _ s' h' => hcd s s' h'

theorem bind (ha : MovesWith c Q a) (hf : ∀ x, Q x → MovesWith c Q' (f x)) : MovesWith c Q' (a >>= f) := by
  intro s
  refine (ha s).bind fun x s₁ h₁ => ?_
  obtain ⟨hx, h₁⟩ := h₁
  exact (hf x hx s₁).imp (fun _ _ h₂ => ⟨h₂.1, c.trans h₁ h₂.2⟩) fun _ _ h₂ => c.trans h₁ h₂

theorem get_bind {f : σ → Action σ ε β} (hf : ∀ s, MovesWith c Q' (f s)) : MovesWith c Q' (get >>= f) :=
  fun s => Leaves.get_bind (hf s s)

theorem attempt (h : MovesWith c Q a) :
    MovesWith c (fun r : Except ε α => ∀ x, r = .ok x → Q x) (Action.attempt a : Action σ δ (Except ε α)) := by
  refine fun s => (h s).attempt.imp_left fun r s' hr => ⟨fun x hx => (hr.1 x hx).1, ?_⟩
  cases r with
  | ok x => exact (hr.1 x rfl).2
  | error e => exact hr.2 e rfl

theorem forM {g : γ → Action σ ε Unit} {xs : List γ} (hg : ∀ x ∈ xs, Moves c (g x)) : Moves c (xs.forM g) := by
  induction xs with
  | nil => exact of_pure True.intro
  | cons x xs ih =>
    obtain ⟨hx, hxs⟩ := List.forall_mem_cons.1 hg
    exact hx.bind fun _ _ => ih hxs

theorem foldlM {g : β → γ → Action σ ε β} {xs : List γ} (hg : ∀ y, ∀ x ∈ xs, Moves c (g y x)) (y : β) :
    Moves c (xs.foldlM g y) := by
  induction xs generalizing y with
  | nil => exact of_pure True.intro
  | cons x xs ih =>
    rw [List.foldlM_cons]
    exact (hg y x List.mem_cons_self).bind fun y' _ => ih (fun y x hx => hg y x (List.mem_cons_of_mem _ hx)) y'

theorem mapM {g : γ → Action σ ε β} {xs : List γ} (hg : ∀ x ∈ xs, Moves c (g x)) : Moves c (xs.mapM g) := by
  induction xs with
  | nil => exact of_pure True.intro
  | cons x xs ih =>
    rw [List.mapM_cons]
    obtain ⟨hx, hxs⟩ := List.forall_mem_cons.1 hg
    exact hx.bind fun _ _ => (ih hxs).bind fun _ _ => of_pure True.intro

end MovesWith

/-! ### Two runs of an action -/

/-- The second action does what the first one does, unless that fails for one of the causes. -/
def Retraces (causes : ε → Prop) (a a' : Action σ ε α) (s : σ) : Prop :=
  a'.perform s = a.perform s ∨ ∃ c s', a.perform s = (.error c, s') ∧ causes c

namespace Retraces

variable {causes : ε → Prop} {a a' : Action σ ε α} {s : σ}

theorem refl (a : Action σ ε α) (s : σ) : Retraces causes a a s := .inl rfl

/-- Without causes the runs are the same. -/
theorem eq_of_none {a a' : Action σ ε α} {s : σ} (h : Retraces (fun _ => False) a a' s) : a'.perform s = a.perform s := by
  rcases h with h | ⟨c, s', -, hc⟩
  · exact h
  · exact hc.elim

theorem bind {f f' : α → Action σ ε β} (ha : Retraces causes a a' s)
    (hf : ∀ x s', a.perform s = (.ok x, s') → Retraces causes (f x) (f' x) s') :
    Retraces causes (a >>= f) (a' >>= f') s := by
  rcases hperform : a.perform s with ⟨c | x, s'⟩
  · rcases ha with ha | ⟨c', s'', hfail, hc⟩
    · left
      rw [perform_bind, perform_bind, ha, hperform]
    · right
      rw [hperform] at hfail
      cases hfail
      exact ⟨c, s', by rw [perform_bind, hperform], hc⟩
  · have ha : a'.perform s = a.perform s := by
      rcases ha with ha | ⟨c', s'', hfail, -⟩
      · exact ha
      · rw [hperform] at hfail
        cases hfail
    unfold Retraces
    simp only [perform_bind, ha, hperform]
    exact hf x s' hperform

theorem get_bind {f f' : σ → Action σ ε β} (h : Retraces causes (f s) (f' s) s) :
    Retraces causes (get >>= f) (get >>= f') s := by
  refine (refl get s).bind fun x s' hperform => ?_
  rw [perform_get] at hperform
  cases hperform
  exact h

/-- What comes last must not fail where the run ends for one of the causes. -/
theorem finishing {last : Action σ ε Unit} (ha : Retraces causes a a' s)
    (hlast : ∀ c s', a.perform s = (.error c, s') → causes c → ∃ s'', last.perform s' = (.ok (), s'')) :
    Retraces causes (Action.finishing a last) (Action.finishing a' last) s := by
  rcases ha with ha | ⟨c, s', hfail, hc⟩
  · left
    rw [perform_finishing, perform_finishing, ha]
  · right
    obtain ⟨s'', hs⟩ := hlast c s' hfail hc
    exact ⟨c, s'', by rw [perform_finishing, hfail]; simp only [hs], hc⟩

end Retraces

end WikiTypeset
