import WikiTypeset.Proofs.Bidi.Levels

/-!
# What the rules keep up

Each rule goes through the units and carries a class or two along. What it does to one unit, under an invariant on what
it carries, is what it does to all of them: there is one statement for each recursion. Main statements:
`forall_explicitUnitsFrom` and `forall_resolveRuns`.
-/

namespace WikiTypeset.Bidi

variable {P Q : LevelUnit → Prop}

/-! ### Explicit rules -/

/-- What holds of the level and the override in force, and of all those to return to. -/
def Embedding.All (P : Nat → Override → Prop) (e : Embedding) : Prop :=
  ∀ x ∈ (e.level, e.override) :: e.enclosing, P x.1 x.2

theorem Embedding.All.push {P : Nat → Override → Prop} {e : Embedding} (h : e.All P) {level : Nat} {override : Override}
    (hnew : P level override) : (e.push level override).All P := by
  unfold Embedding.push
  split
  · exact h
  · split
    · exact List.forall_mem_cons.2 ⟨hnew, h⟩
    · split
      · exact h
      · exact h

theorem Embedding.All.pop {P : Nat → Override → Prop} {e : Embedding} (h : e.All P) : e.pop.All P := by
  unfold Embedding.pop
  split
  · exact h
  · split
    · exact h
    · split
      · exact h
      next level override rest heq =>
        have hrest : ∀ x ∈ e.enclosing, P x.1 x.2 := fun x hx => h x (List.mem_cons_of_mem _ hx)
        rwa [heq] at hrest

theorem Embedding.all_start {P : Nat → Override → Prop} {base : Nat} (h : P base none) :
    Embedding.All P { level := base } :=
  List.forall_mem_singleton.2 h

/-- What the explicit rules leave of the characters, if every step keeps up what holds of the embedding. -/
theorem forall_explicitUnitsFrom {base : Nat} {I : Embedding → Prop} {C : Char → Option BidiClass → Prop}
    (hstep : ∀ {e : Embedding} {c cls}, I e → C c cls →
      I (explicitStep base e c cls).1 ∧ ∀ u, (explicitStep base e c cls).2 = some u → Q u)
    {e : Embedding} (he : I e) {cs : List (Char × Option BidiClass)} (h : ∀ x ∈ cs, C x.1 x.2) :
    ∀ u ∈ explicitUnitsFrom base e cs, Q u := by
  induction cs generalizing e with
  | nil => exact nofun
  | cons x cs ih =>
    obtain ⟨hx, hcs⟩ := List.forall_mem_cons.1 h
    obtain ⟨hnext, hunit⟩ := hstep he hx
    rw [explicitUnitsFrom]
    split
    next e' u heq =>
      rw [heq] at hnext hunit
      exact List.forall_mem_cons.2 ⟨hunit u rfl, ih hnext hcs⟩
    next e' heq =>
      rw [heq] at hnext
      exact ih hnext hcs

/-! ### Weak rules -/

/-- W1 and W2, where `S` holds of the strong class before a unit and `C` of the class directly before it. -/
theorem forall_resolveMarks {S C : Option BidiClass → Prop}
    (hmark : ∀ {previous : Option BidiClass} {u : LevelUnit}, C previous → P u →
      Q { u with cls := if u.cls = some .NSM then previous else u.cls })
    (hnumber : ∀ {strong : Option BidiClass} {u : LevelUnit}, S strong → Q u →
      Q { u with cls := if u.cls = some .EN ∧ strong = some .AL then some .AN else u.cls })
    (hcls : ∀ {u : LevelUnit}, Q u → S u.cls ∧ C u.cls)
    {strong previous : Option BidiClass} (hstrong : S strong) (hprevious : C previous) {us : List LevelUnit}
    (h : ∀ u ∈ us, P u) : ∀ u ∈ resolveMarks strong previous us, Q u := by
  induction us generalizing strong previous with
  | nil => exact nofun
  | cons u us ih =>
    obtain ⟨hu, hus⟩ := List.forall_mem_cons.1 h
    have hmarked := hmark hprevious hu
    have hfinal := hnumber hstrong hmarked
    refine List.forall_mem_cons.2 ⟨hfinal, ih ?_ (hcls hfinal).2 hus⟩
    exact iteInduction (motive := S) (fun _ => (hcls hmarked).1) (fun _ => hstrong)

/-- W4, where `C` holds of the class before a unit. -/
theorem forall_resolveSeparators {C : Option BidiClass → Prop}
    (hstep : ∀ {previous : Option BidiClass} {u v : LevelUnit}, C previous → P u → P v →
      P { u with cls := separatorClass previous u.cls v.cls })
    (hcls : ∀ {u : LevelUnit}, P u → C u.cls) {previous : Option BidiClass} (hprevious : C previous)
    {us : List LevelUnit} (h : ∀ u ∈ us, P u) : ∀ u ∈ resolveSeparators previous us, P u := by
  fun_induction resolveSeparators previous us with
  | case1 | case2 => exact h
  | case3 previous u v us u' ih =>
    obtain ⟨hu, hrest⟩ := List.forall_mem_cons.1 h
    have hunit := hstep hprevious hu (hrest v List.mem_cons_self)
    exact List.forall_mem_cons.2 ⟨hunit, ih (hcls hunit) hrest⟩

theorem forall_extendNumbers {N : Prop} (hnumber : ∀ {u : LevelUnit}, P u → u.cls = some .EN → N)
    (hstep : ∀ {u : LevelUnit}, N → P u → u.cls = some .ET → P { u with cls := some .EN })
    {afterNumber : Bool} (hafter : afterNumber = true → N) {us : List LevelUnit} (h : ∀ u ∈ us, P u) :
    ∀ u ∈ extendNumbers afterNumber us, P u := by
  fun_induction extendNumbers afterNumber us with
  | case1 => exact h
  | case2 _ u us hcls ih =>
    obtain ⟨hu, hus⟩ := List.forall_mem_cons.1 h
    exact List.forall_mem_cons.2 ⟨hu, ih (fun _ => hnumber hu hcls) hus⟩
  | case3 _ u us _ hcls ih =>
    obtain ⟨hu, hus⟩ := List.forall_mem_cons.1 h
    exact List.forall_mem_cons.2 ⟨hstep (hafter hcls.2) hu hcls.1, ih (fun _ => hafter hcls.2) hus⟩
  | case4 _ u us _ _ ih =>
    obtain ⟨hu, hus⟩ := List.forall_mem_cons.1 h
    exact List.forall_mem_cons.2 ⟨hu, ih (fun hfalse => absurd hfalse Bool.false_ne_true) hus⟩

/-- W5, where `N` holds if there is a European number at all. -/
theorem forall_resolveTerminators {N : Prop} (hnumber : ∀ {u : LevelUnit}, P u → u.cls = some .EN → N)
    (hstep : ∀ {u : LevelUnit}, N → P u → u.cls = some .ET → P { u with cls := some .EN })
    {us : List LevelUnit} (h : ∀ u ∈ us, P u) : ∀ u ∈ resolveTerminators us, P u := by
  have hextend : ∀ {us : List LevelUnit}, (∀ u ∈ us, P u) → ∀ u ∈ (extendNumbers false us).reverse, P u := by
    intro us h u hu
    have hafter : false = true → N := nofun
    exact forall_extendNumbers hnumber hstep hafter h u (List.mem_reverse.1 hu)
  exact hextend (hextend h)

/-- W7, where `S` holds of the strong class before a unit. -/
theorem forall_resolveNumbers {S : Option BidiClass → Prop}
    (hstep : ∀ {strong : Option BidiClass} {u : LevelUnit}, S strong → P u →
      Q { u with cls := if u.cls = some .EN ∧ strong = some .L then some .L else u.cls })
    (hstrong : ∀ {u : LevelUnit}, Q u → u.cls = some .L ∨ u.cls = some .R → S u.cls)
    {strong : Option BidiClass} (hs : S strong) {us : List LevelUnit} (h : ∀ u ∈ us, P u) :
    ∀ u ∈ resolveNumbers strong us, Q u := by
  induction us generalizing strong with
  | nil => exact nofun
  | cons u us ih =>
    obtain ⟨hu, hus⟩ := List.forall_mem_cons.1 h
    have hunit := hstep hs hu
    refine List.forall_mem_cons.2 ⟨hunit, ih ?_ hus⟩
    exact iteInduction (motive := S) (hstrong hunit) (fun _ => hs)

/-! ### Neutral rules -/

/-- N1 and N2, where `C` holds of the class before the neutrals. -/
theorem forall_resolveNeutral {C : Option BidiClass → Prop}
    (hneutral : ∀ {previous : Option BidiClass} {u : LevelUnit} (next : Option BidiClass), C previous → P u →
      isNeutral u.cls = true → Q { u with cls := neutralClass previous next u.level })
    (hother : ∀ {u : LevelUnit}, P u → isNeutral u.cls = false → Q u ∧ C u.cls)
    {previous : Option BidiClass} (hprevious : C previous) (after : Option BidiClass) {us : List LevelUnit}
    (h : ∀ u ∈ us, P u) : ∀ u ∈ resolveNeutral previous after us, Q u := by
  fun_induction resolveNeutral previous after us with
  | case1 => exact List.forall_mem_nil _
  | case2 previous u us hcls ih =>
    obtain ⟨hu, hus⟩ := List.forall_mem_cons.1 h
    exact List.forall_mem_cons.2 ⟨hneutral _ hprevious hu hcls, ih hprevious hus⟩
  | case3 previous u us hcls ih =>
    obtain ⟨hu, hus⟩ := List.forall_mem_cons.1 h
    obtain ⟨hunit, hnext⟩ := hother hu (Bool.eq_false_iff.2 hcls)
    exact List.forall_mem_cons.2 ⟨hunit, ih hnext hus⟩

/-! ### Level runs -/

/-- The surroundings of a level run are the strong classes of two of the levels that there are. -/
theorem boundaries_of_mem_levelRunsFrom {L : Nat → Prop} {base previous : Nat} (hbase : L base) (hprevious : L previous)
    {ss : List (List LevelUnit)} (hss : ∀ s ∈ ss, ∀ u ∈ s, L u.level) {r : LevelRun}
    (hr : r ∈ levelRunsFrom base previous ss) :
    ∃ m n, L m ∧ L n ∧ r.before = strongOf m ∧ r.after = strongOf n := by
  have hstretch : ∀ {s : List LevelUnit}, (∀ u ∈ s, L u.level) → L (stretchLevel base s) := by
    intro s hs
    cases s with
    | nil => exact hbase
    | cons u s => exact hs u List.mem_cons_self
  have hmax : ∀ {m n : Nat}, L m → L n → L (max m n) := by
    intro m n hm hn
    rcases Nat.le_total m n with hle | hle
    · rwa [Nat.max_eq_right hle]
    · rwa [Nat.max_eq_left hle]
  induction ss generalizing previous with
  | nil => cases hr
  | cons s ss ih =>
    obtain ⟨hs, hrest⟩ := List.forall_mem_cons.1 hss
    have hlevel := hstretch hs
    rcases List.mem_cons.1 hr with rfl | hr
    · refine ⟨_, _, hmax hprevious hlevel, hmax hlevel ?_, rfl, rfl⟩
      cases ss with
      | nil => exact hbase
      | cons t ts => exact hstretch (hrest t List.mem_cons_self)
    · exact ih hlevel hrest hr

/-- What the rules make of the level runs of some units, if `L` holds of all levels. -/
theorem forall_resolveRuns {L : Nat → Prop} {base : Nat} (hbase : L base)
    (hlevel : ∀ u, P u → L u.level) (hrun : ∀ {r : LevelRun} {m n : Nat}, L m → L n → r.before = strongOf m →
      r.after = strongOf n → (∀ u ∈ r.units, P u) → ∀ u ∈ resolveRun r, Q u)
    {us : List LevelUnit} (h : ∀ u ∈ us, P u) : ∀ u ∈ (levelRuns base us).flatMap resolveRun, Q u := by
  intro u hu
  obtain ⟨r, hr, hu⟩ := List.mem_flatMap.1 hu
  have hunits : ∀ v ∈ r.units, P v := by
    intro v hv
    have hmem : v ∈ ((levelRuns base us).map (·.units)).flatten :=
      List.mem_flatten.2 ⟨r.units, List.mem_map_of_mem hr, hv⟩
    rw [levelRuns, units_levelRunsFrom, flatten_stretches] at hmem
    exact h v hmem
  have hstretches : ∀ s ∈ stretches us, ∀ v ∈ s, L v.level := by
    intro s hs v hv
    have hmem : v ∈ us := flatten_stretches us ▸ List.mem_flatten.2 ⟨s, hs, hv⟩
    exact hlevel v (h v hmem)
  obtain ⟨m, n, hm, hn, hbefore, hafter⟩ := boundaries_of_mem_levelRunsFrom hbase hbase hstretches hr
  exact hrun hm hn hbefore hafter hunits u hu

end WikiTypeset.Bidi
