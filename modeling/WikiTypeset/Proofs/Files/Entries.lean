import WikiTypeset.Files.Tree

/-!
# What stands where after a change

Putting, removing and moving change what stands at the places that they name, and below them where they say so, and
nothing else. Writing never makes or unmakes a directory.
-/

namespace WikiTypeset.Files.Tree

variable {t t' : Tree} {p q r : List String}

theorem isDirectory_iff : t.isDirectory p = true ↔ t.entry p = some .directory := by
  unfold isDirectory
  split
  · rename_i h
    simp [h]
  · rename_i h
    simpa using h

theorem isDirectory_congr (h : t'.entry p = t.entry p) : t'.isDirectory p = t.isDirectory p := by
  unfold isDirectory
  rw [h]

/-- What the first entry for a place says. -/
def firstAt (entries : List (List String × Entry)) (p : List String) : Option Entry :=
  (entries.find? (·.1 == p)).map (·.2)

@[simp] theorem firstAt_nil : firstAt [] p = none := rfl

@[simp] theorem firstAt_cons {x : List String × Entry} {entries : List (List String × Entry)} :
    firstAt (x :: entries) p = if x.1 = p then some x.2 else firstAt entries p := by
  unfold firstAt
  by_cases hx : x.1 = p
  · simp [hx]
  · rw [List.find?_cons_of_neg (by simpa using hx), if_neg hx]

theorem firstAt_append {entries more : List (List String × Entry)} :
    firstAt (entries ++ more) p = (firstAt entries p).or (firstAt more p) := by
  induction entries with
  | nil => rfl
  | cons x entries ih =>
    rw [List.cons_append, firstAt_cons, firstAt_cons, ih]
    split <;> rfl

theorem entry_of_ne_nil (h : p ≠ []) : t.entry p = firstAt t.entries p := by
  unfold entry
  rw [if_neg]
  · rfl
  · simpa using h

@[simp] theorem entry_nil : t.entry [] = some .directory := rfl

/-! ### Putting and removing -/

private theorem firstAt_exchanged_self {entries : List (List String × Entry)} {e : Entry}
    (h : ∃ x ∈ entries, x.1 = p) : firstAt (entries.map fun x => if x.1 == p then (p, e) else x) p = some e := by
  induction entries with
  | nil => simp at h
  | cons x entries ih =>
    rw [List.map_cons, firstAt_cons]
    by_cases hx : x.1 = p
    · simp [hx]
    · have hrest : ∃ x ∈ entries, x.1 = p := by simpa [hx] using h
      rw [ih hrest]
      simp [hx]

private theorem firstAt_exchanged_of_ne {entries : List (List String × Entry)} {e : Entry} (hq : q ≠ p) :
    firstAt (entries.map fun x => if x.1 == p then (p, e) else x) q = firstAt entries q := by
  induction entries with
  | nil => rfl
  | cons x entries ih =>
    rw [List.map_cons, firstAt_cons, firstAt_cons, ih]
    by_cases hx : x.1 = p
    · have hne : p ≠ q := fun h => hq h.symm
      simp [hx, hne]
    · simp [hx]

theorem entry_put_of_ne {e : Entry} (hq : q ≠ p) : (t.put p e).entry q = t.entry q := by
  by_cases hnil : q = []
  · subst hnil
    rfl
  · rw [entry_of_ne_nil hnil, entry_of_ne_nil hnil]
    unfold put
    split
    · exact firstAt_exchanged_of_ne hq
    · have hne : p ≠ q := fun h => hq h.symm
      rw [firstAt_append, firstAt_cons, firstAt_nil, if_neg hne, Option.or_none]

theorem entry_put_self {e : Entry} (hp : p ≠ []) : (t.put p e).entry p = some e := by
  rw [entry_of_ne_nil hp]
  unfold put
  split
  · rename_i hany
    exact firstAt_exchanged_self (by simpa using hany)
  · rename_i hany
    have hnone : firstAt t.entries p = none := by
      unfold firstAt
      rw [Option.map_eq_none_iff, List.find?_eq_none]
      intro x hx hkey
      exact hany (List.any_eq_true.2 ⟨x, hx, hkey⟩)
    rw [firstAt_append, hnone, firstAt_cons, if_pos rfl]
    rfl

/-- What is put somewhere does not change what stands below another place that does not lead there. -/
theorem below_put {e : Entry} (h : ¬ q <+: p) : (t.put p e).below q = t.below q := by
  unfold put below
  split
  · rw [List.filterMap_map]
    congr 1
    funext x
    by_cases hx : x.1 = p
    · simp [hx, h]
    · simp [hx]
  · simp [h]

private theorem firstAt_kept (entries : List (List String × Entry)) (keep : List String → Bool) (q : List String) :
    firstAt (entries.filter fun x => keep x.1) q = if keep q then firstAt entries q else none := by
  induction entries with
  | nil => simp
  | cons x entries ih =>
    by_cases hkeep : keep x.1 = true
    · rw [List.filter_cons_of_pos (by simpa using hkeep), firstAt_cons, firstAt_cons, ih]
      by_cases hx : x.1 = q
      · subst hx
        simp [hkeep]
      · simp [hx]
    · rw [List.filter_cons_of_neg (by simpa using hkeep), firstAt_cons, ih]
      by_cases hx : x.1 = q
      · subst hx
        simp [hkeep]
      · simp [hx]

theorem entry_remove (hq : q ≠ []) : (t.remove p).entry q = if q = p then none else t.entry q := by
  rw [entry_of_ne_nil hq, entry_of_ne_nil hq, remove, firstAt_kept t.entries (· != p)]
  by_cases hqp : q = p <;> simp [hqp]

theorem entry_removeAll (hq : q ≠ []) : (t.removeAll p).entry q = if p <+: q then none else t.entry q := by
  rw [entry_of_ne_nil hq, entry_of_ne_nil hq, removeAll, firstAt_kept t.entries fun r => !p.isPrefixOf r]
  by_cases hqp : p <+: q
  · have hstart : p.isPrefixOf q = true := List.isPrefixOf_iff_prefix.2 hqp
    simp [hqp, hstart]
  · have hstart : p.isPrefixOf q = false := by
      rw [Bool.eq_false_iff]
      exact fun h => hqp (List.isPrefixOf_iff_prefix.1 h)
    simp [hqp, hstart]

private theorem firstAt_rebased (entries : List (List String × Entry)) (hp : ¬ p <+: r) (hq : ¬ q <+: r) :
    firstAt (entries.map fun x => (if p.isPrefixOf x.1 then q ++ x.1.drop p.length else x.1, x.2)) r =
      firstAt entries r := by
  induction entries with
  | nil => rfl
  | cons x entries ih =>
    rw [List.map_cons, firstAt_cons, firstAt_cons, ih]
    by_cases hx : p <+: x.1
    · have hmoved : q ++ x.1.drop p.length ≠ r := fun h => hq (h ▸ List.prefix_append q _)
      have hold : x.1 ≠ r := fun h => hp (h ▸ hx)
      simp [hx, hmoved, hold]
    · simp [hx]

theorem entry_rebase (hp : ¬ p <+: r) (hq : ¬ q <+: r) : (t.rebase p q).entry r = t.entry r := by
  by_cases hr : r = []
  · subst hr
    rfl
  · rw [entry_of_ne_nil hr, entry_of_ne_nil hr]
    exact firstAt_rebased t.entries hp hq

/-! ### Changes that succeed -/

/-- Where something may be made, all places on the way are directories. -/
theorem isDirectory_of_fault? (h : t.fault? p = none) {n : Nat} (hn : n < p.length) : t.isDirectory (p.take n) = true := by
  unfold fault? at h
  dsimp only at h
  split at h
  · cases h
  · rename_i hfind
    rw [List.find?_eq_none] at hfind
    simpa using hfind (p.take n) (List.mem_map_of_mem (List.mem_range.2 hn))

/-- A change that made an entry where none but a file stood. -/
structure Makes (t : Tree) (p : List String) (e : Entry) (t' : Tree) : Prop where
  eq : t' = t.put p e
  ne_nil : p ≠ []
  free : t.isDirectory p = false
  way : ∀ n < p.length, t.isDirectory (p.take n) = true

theorem makes_of_makeDirectory (h : t.makeDirectory p = .ok t') : t.Makes p .directory t' ∧ t.entry p = none := by
  unfold makeDirectory at h
  split at h
  · cases h
  · rename_i hfault
    split at h
    · cases h
    · rename_i htaken
      cases h
      have hnone : t.entry p = none := by simpa [isTaken] using htaken
      refine ⟨⟨rfl, ?_, ?_, fun n hn => isDirectory_of_fault? hfault hn⟩, hnone⟩
      · rintro rfl
        simp at hnone
      · simp [isDirectory, hnone]

theorem makes_of_write {c : Content} (h : t.write p c = .ok t') : t.Makes p (.file c) t' := by
  unfold write at h
  split at h
  · cases h
  · rename_i hfault
    split at h
    · cases h
    · rename_i hdirectory
      cases h
      refine ⟨rfl, ?_, by simpa using hdirectory, fun n hn => isDirectory_of_fault? hfault hn⟩
      rintro rfl
      simp [isDirectory] at hdirectory

theorem eq_of_unlink (h : t.unlink p = .ok t') : t' = t.remove p ∧ t.isDirectory p = false := by
  unfold unlink at h
  split at h
  · rename_i hfile
    cases h
    simp [isDirectory, hfile]
  · cases h
  · cases h

/-- A move changes nothing but what stands at its two places and below them. -/
theorem entry_move (h : t.move p q = .ok t') (hp : ¬ p <+: r) (hq : ¬ q <+: r) : t'.entry r = t.entry r := by
  unfold move at h
  split at h
  · cases h
  · cases h
  · cases h
  · cases h
  · split at h
    · cases h
      rfl
    · split at h
      · cases h
      · cases h
        have hrq : r ≠ q := fun hr => hq (hr ▸ List.prefix_rfl)
        rw [entry_rebase hp hq]
        by_cases hr : r = []
        · subst hr
          rfl
        · rw [entry_remove hr, if_neg hrq]

namespace Makes

variable {e : Entry}

theorem entry_self (h : t.Makes p e t') : t'.entry p = some e := by
  rw [h.eq]
  exact entry_put_self h.ne_nil

theorem entry_of_ne (h : t.Makes p e t') (hq : q ≠ p) : t'.entry q = t.entry q := by
  rw [h.eq]
  exact entry_put_of_ne hq

theorem isDirectory (h : t.Makes p e t') (hq : t.isDirectory q = true) : t'.isDirectory q = true := by
  have hne : q ≠ p := by
    rintro rfl
    rw [h.free] at hq
    cases hq
  rw [isDirectory_congr (h.entry_of_ne hne), hq]

/-- Writing a file makes no directory either. -/
theorem isDirectory_eq {c : Content} (h : t.Makes p (.file c) t') : t'.isDirectory q = t.isDirectory q := by
  by_cases hq : q = p
  · subst hq
    rw [h.free]
    simp [Tree.isDirectory, h.entry_self]
  · exact isDirectory_congr (h.entry_of_ne hq)

end Makes

/-! ### Trees from the root -/

/-- Whatever stands in the tree stands in a directory. -/
def IsGrounded (t : Tree) : Prop := ∀ p name, t.isTaken (p ++ [name]) = true → t.isDirectory p = true

theorem isGrounded_of_entries (h : ∀ x ∈ t.entries, t.isDirectory x.1.dropLast = true) : t.IsGrounded := by
  intro p name htaken
  rw [isTaken, entry_of_ne_nil (List.append_ne_nil_of_right_ne_nil _ (List.cons_ne_nil _ _)), firstAt,
    Option.isSome_map, List.find?_isSome] at htaken
  obtain ⟨x, hx, hkey⟩ := htaken
  have hdirectory := h x hx
  rwa [beq_iff_eq.1 hkey, List.dropLast_concat] at hdirectory

/-- Nothing stands below a place where nothing stands. -/
theorem IsGrounded.entry_eq_none (h : t.IsGrounded) (hp : t.entry p = none) (hq : p <+: q) : t.entry q = none := by
  obtain ⟨names, rfl⟩ := hq
  induction names generalizing p with
  | nil => rwa [List.append_nil]
  | cons name names ih =>
    have hnext : t.entry (p ++ [name]) = none := by
      cases htaken : t.entry (p ++ [name]) with
      | none => rfl
      | some e =>
        have hdirectory := h p name (by rw [isTaken, htaken, Option.isSome_some])
        rw [isDirectory_iff, hp] at hdirectory
        cases hdirectory
    have hrest := ih hnext
    rwa [List.append_assoc] at hrest

end WikiTypeset.Files.Tree
