/-!
# Actions on a state

An action changes a state and may fail. The state that it has reached is kept in either case, so that work can
go on after a failure. Main definitions: `Action`, `Action.finishing`, `Action.within`.
-/

namespace WikiTypeset

/-- A computation on a state `σ` that may fail with a cause `ε`. -/
abbrev Action (σ ε α : Type) := ExceptT ε (StateM σ) α

namespace Action

variable {σ τ ε δ α β : Type}

/-- The result of an action and the state that it leaves. -/
def perform (a : Action σ ε α) (s : σ) : Except ε α × σ := (ExceptT.run a).run s

/-- The action with the given results and states. -/
def of (f : σ → Except ε α × σ) : Action σ ε α := ExceptT.mk fun s => f s

/-- `a`, then `last` whatever becomes of `a`. A failure of `last` replaces the result of `a`. -/
def finishing (a : Action σ ε α) (last : Action σ ε Unit) : Action σ ε α :=
  of fun s =>
    match a.perform s with
    | (result, s) =>
      match last.perform s with
      | (.ok _, s) => (result, s)
      | (.error e, s) => (.error e, s)

/-- An action that does not fail: it gives the result of `a`, or the cause of its failure. -/
def attempt (a : Action σ ε α) : Action σ δ (Except ε α) :=
  of fun s =>
    match a.perform s with
    | (result, s) => (.ok result, s)

/-- An action on a part of a larger state. -/
def within (part : τ → σ) (replace : τ → σ → τ) (cause : ε → δ) (a : Action σ ε α) : Action τ δ α :=
  of fun t =>
    match a.perform (part t) with
    | (.ok x, s) => (.ok x, replace t s)
    | (.error e, s) => (.error (cause e), replace t s)

/-! ### What performing an action gives -/

theorem perform_pure (x : α) (s : σ) : (pure x : Action σ ε α).perform s = (.ok x, s) := rfl

theorem perform_bind (a : Action σ ε α) (f : α → Action σ ε β) (s : σ) :
    (a >>= f).perform s = match a.perform s with
      | (.ok x, s') => (f x).perform s'
      | (.error c, s') => (.error c, s') := by
  have h : (a >>= f).perform s = (ExceptT.bindCont f (a.perform s).1) (a.perform s).2 := rfl
  rw [h]
  rcases a.perform s with ⟨_ | _, s'⟩ <;> rfl

theorem perform_throw (c : ε) (s : σ) : (throw c : Action σ ε α).perform s = (.error c, s) := rfl

theorem perform_get (s : σ) : (get : Action σ ε σ).perform s = (.ok s, s) := rfl

theorem perform_set (s s' : σ) : (set s' : Action σ ε Unit).perform s = (.ok (), s') := rfl

theorem perform_modify (f : σ → σ) (s : σ) : (modify f : Action σ ε Unit).perform s = (.ok (), f s) := rfl

theorem perform_finishing (a : Action σ ε α) (last : Action σ ε Unit) (s : σ) :
    (finishing a last).perform s = match a.perform s with
      | (result, s) =>
        match last.perform s with
        | (.ok _, s) => (result, s)
        | (.error e, s) => (.error e, s) := rfl

theorem perform_attempt (a : Action σ ε α) (s : σ) :
    (attempt a : Action σ δ (Except ε α)).perform s = (.ok (a.perform s).1, (a.perform s).2) := rfl

theorem perform_within (part : τ → σ) (replace : τ → σ → τ) (cause : ε → δ) (a : Action σ ε α) (t : τ) :
    (within part replace cause a).perform t = match a.perform (part t) with
      | (.ok x, s) => (.ok x, replace t s)
      | (.error e, s) => (.error (cause e), replace t s) := rfl

end Action

end WikiTypeset
