/-!
# Going through a row with a state

`gather` takes a partial step at every entry of a row and collects what the steps find. The ways of reading an output
back are all of this form.
-/

namespace WikiTypeset

variable {σ α β : Type}

/-- A partial step at every entry of a row; what the steps find, and the last state. -/
def gather (step : σ → α → Option (List β × σ)) : σ → List α → Option (List β × σ)
  | s, [] => some ([], s)
  | s, x :: xs => do
    let (found, s') ← step s x
    let (more, s'') ← gather step s' xs
    return (found ++ more, s'')

variable {step : σ → α → Option (List β × σ)} {s s' s'' : σ} {xs ys : List α} {found more : List β}

@[simp] theorem gather_nil : gather step s [] = some ([], s) := rfl

theorem gather_cons (x : α) (h : step s x = some (found, s')) (hs : gather step s' xs = some (more, s'')) :
    gather step s (x :: xs) = some (found ++ more, s'') := by
  simp [gather, h, hs]

@[simp] theorem gather_singleton (x : α) : gather step s [x] = step s x := by
  cases h : step s x <;> simp [gather, h]

/-- The rest of a row is gone through in the state that its first part leaves. -/
theorem gather_append (step : σ → α → Option (List β × σ)) (s : σ) (xs ys : List α) :
    gather step s (xs ++ ys) = (gather step s xs).bind fun r =>
      (gather step r.2 ys).map fun r' => (r.1 ++ r'.1, r'.2) := by
  induction xs generalizing s with
  | nil => simp
  | cons x xs ih =>
    simp only [List.cons_append, gather, ih]
    cases step s x with
    | none => rfl
    | some r =>
      obtain ⟨found, s'⟩ := r
      simp only [Option.bind_eq_bind, Option.bind_some]
      cases gather step s' xs with
      | none => rfl
      | some r' =>
        obtain ⟨more, s''⟩ := r'
        cases hys : gather step s'' ys with
        | none => simp [hys]
        | some r'' => simp [hys]

theorem gather_append_of (h : gather step s xs = some (found, s')) (h' : gather step s' ys = some (more, s'')) :
    gather step s (xs ++ ys) = some (found ++ more, s'') := by
  simp [gather_append, h, h']

/-- A row that can be gone through can be so in two parts. -/
theorem gather_append_inv (h : gather step s (xs ++ ys) = some (found, s'')) :
    ∃ first s' second, gather step s xs = some (first, s') ∧ gather step s' ys = some (second, s'') ∧
      found = first ++ second := by
  rw [gather_append] at h
  obtain ⟨⟨first, s'⟩, h₁, h₂⟩ := Option.bind_eq_some_iff.1 h
  obtain ⟨⟨second, t⟩, h₃, h₄⟩ := Option.map_eq_some_iff.1 h₂
  cases h₄
  exact ⟨first, s', second, h₁, h₃, rfl⟩

theorem gather_cons_inv {x : α} (h : gather step s (x :: xs) = some (found, s'')) :
    ∃ first s' second, step s x = some (first, s') ∧ gather step s' xs = some (second, s'') ∧
      found = first ++ second := by
  have hsplit : gather step s ([x] ++ xs) = some (found, s'') := h
  obtain ⟨first, s', second, hfirst, hsecond, rfl⟩ := gather_append_inv hsplit
  exact ⟨first, s', second, (gather_singleton x).symm.trans hfirst, hsecond, rfl⟩

/-- What is found at a place comes from a step at an entry, in the state that the entries before it leave. -/
theorem gather_split {y : β} {first rest : List β} (h : gather step s xs = some (first ++ y :: rest, s'')) :
    ∃ before x after earlier mid here later next, xs = before ++ x :: after ∧ gather step s before = some (earlier, mid) ∧
      step mid x = some (here ++ y :: later, next) ∧ first = earlier ++ here := by
  generalize hfound : first ++ y :: rest = found at h
  induction xs generalizing s first found with
  | nil =>
    cases h
    simp at hfound
  | cons x xs ih =>
    obtain ⟨here, mid, more, hstep, hmore, rfl⟩ := gather_cons_inv h
    have hbehind : ∀ between, more = between ++ y :: rest → first = here ++ between →
        ∃ before x' after earlier mid here later next, x :: xs = before ++ x' :: after ∧
          gather step s before = some (earlier, mid) ∧ step mid x' = some (here ++ y :: later, next) ∧
          first = earlier ++ here := by
      rintro between rfl rfl
      obtain ⟨before, x', after, earlier, mid', here', later, next, rfl, hbefore, hhere, rfl⟩ := ih _ rfl hmore
      exact ⟨x :: before, x', after, here ++ earlier, mid', here', later, next, rfl, gather_cons x hstep hbefore, hhere,
        by rw [List.append_assoc]⟩
    rcases List.append_eq_append_iff.1 hfound with ⟨between, rfl, hrest⟩ | ⟨between, hfirst, hrest⟩
    · cases between with
      | nil => exact hbehind [] hrest.symm (by simp)
      | cons _ later =>
        cases hrest
        exact ⟨[], x, xs, [], s, first, later, mid, rfl, rfl, hstep, rfl⟩
    · exact hbehind between hrest hfirst

/-- What is found comes from a step at an entry, in the state that the entries before it leave. -/
theorem mem_gather {y : β} (h : gather step s xs = some (found, s'')) : y ∈ found ↔
    ∃ before x after first mid here next, xs = before ++ x :: after ∧ gather step s before = some (first, mid) ∧
      step mid x = some (here, next) ∧ y ∈ here := by
  constructor
  · intro hy
    obtain ⟨first, rest, rfl⟩ := List.append_of_mem hy
    obtain ⟨before, x, after, earlier, mid, here, later, next, hxs, hbefore, hstep, -⟩ := gather_split h
    exact ⟨before, x, after, earlier, mid, _, next, hxs, hbefore, hstep, by simp⟩
  · rintro ⟨before, x, after, first, mid, here, next, rfl, hbefore, hstep, hhere⟩
    obtain ⟨first', mid', rest, hbefore', hrest, rfl⟩ := gather_append_inv h
    cases hbefore.symm.trans hbefore'
    obtain ⟨here', next', more, hstep', -, rfl⟩ := gather_cons_inv hrest
    cases hstep.symm.trans hstep'
    exact List.mem_append_right _ (List.mem_append_left _ hhere)

/-- Entries that leave the state alone. -/
theorem gather_map {γ : Type} (f : γ → α) (g : γ → β) (h : ∀ x, step s (f x) = some ([g x], s)) (zs : List γ) :
    gather step s (zs.map f) = some (zs.map g, s) := by
  induction zs with
  | nil => rfl
  | cons z zs ih => exact gather_cons (f z) (h z) ih

/-- What is made of a row, entry by entry, is made of its entries. -/
theorem mem_of_mapM_some {g : α → Option β} {xs : List α} {ys : List β} (h : xs.mapM g = some ys) :
    ∀ y ∈ ys, ∃ x ∈ xs, g x = some y := by
  induction xs generalizing ys with
  | nil =>
    cases h
    nofun
  | cons x xs ih =>
    simp only [List.mapM_cons, Option.bind_eq_bind, Option.bind_eq_some_iff, Option.pure_def, Option.some.injEq] at h
    obtain ⟨y, hy, ys, hys, rfl⟩ := h
    refine List.forall_mem_cons.2 ⟨⟨x, List.mem_cons_self .., hy⟩, fun z hz => ?_⟩
    obtain ⟨w, hw, hz⟩ := ih hys z hz
    exact ⟨w, List.mem_cons_of_mem x hw, hz⟩

end WikiTypeset
