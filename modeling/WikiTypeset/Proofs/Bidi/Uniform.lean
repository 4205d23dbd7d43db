import WikiTypeset.Proofs.Bidi.Strong

/-!
# Texts of one direction

In a text that goes with a direction nothing speaks for the other one: no letter, no number that would change it and no
control that opens it. Then all levels keep to the direction, through embeddings of any depth, and the text is one run.
Main statement: `paragraph_of_goesWith`.
-/

namespace WikiTypeset.Bidi

/-- Whether the class goes with the direction. Digits do not go with right to left, and among the isolates the one of
unknown direction goes only with left to right. -/
def BidiClass.goesWith : Direction → BidiClass → Bool
  | .ltr, .R | .ltr, .AL | .ltr, .AN | .ltr, .RLE | .ltr, .RLO | .ltr, .RLI => false
  | .rtl, .L | .rtl, .EN | .rtl, .AN | .rtl, .LRE | .rtl, .LRO | .rtl, .LRI | .rtl, .FSI => false
  | _, _ => true

/-- All characters of the text have a class that goes with the direction. -/
def GoesWith (d : Direction) (s : List Char) : Prop := ∀ c ∈ s, (assignedClass c).any (·.goesWith d) = true

instance (d : Direction) (s : List Char) : Decidable (GoesWith d s) := List.decidableBAll _ s

theorem goesWith_bidiClass {d : Direction} {c : Char} (h : (assignedClass c).any (·.goesWith d) = true) :
    (bidiClass c).goesWith d = true := by
  unfold bidiClass
  cases hcls : assignedClass c with
  | none => rw [hcls] at h; cases h
  | some cls => rwa [hcls] at h

/-- Whether the class is one of a letter or number that does not go with the direction. -/
def isForeign : Direction → Option BidiClass → Bool
  | .ltr, some .R | .ltr, some .AL | .ltr, some .AN | .rtl, some .L | .rtl, some .EN | .rtl, some .AN => true
  | _, _ => false

theorem isForeign_of_goesWith {d : Direction} {cls : Option BidiClass} (h : cls.any (·.goesWith d) = true) :
    isForeign d cls = false := by
  rcases cls with _ | cls
  · cases h
  · revert h
    cases d <;> cases cls <;> decide

theorem GoesWith.isClassified {d : Direction} {s : List Char} (h : GoesWith d s) : IsClassified s := by
  intro c hc
  obtain ⟨hsome, -⟩ := (Option.any_eq_true_iff_get _ _).1 (h c hc)
  exact hsome

/-- The unit has a level of the direction, and its class is not against it. -/
def LevelUnit.Suits (d : Direction) (u : LevelUnit) : Prop :=
  Direction.ofLevel u.level = d ∧ isForeign d u.cls = false

theorem LevelUnit.Suits.become {d : Direction} {u : LevelUnit} (h : u.Suits d) {cls : Option BidiClass}
    (hcls : isForeign d cls = false) : LevelUnit.Suits d { u with cls } :=
  ⟨h.1, hcls⟩

/-- The letters of the direction itself. -/
theorem isForeign_strongOf {d : Direction} {n : Nat} (h : Direction.ofLevel n = d) :
    isForeign d (some (strongOf n)) = false := by
  subst h
  unfold Direction.ofLevel strongOf
  split <;> rfl

/-! ### Explicit rules -/

/-- What goes with the direction opens levels of the direction. -/
theorem suits_opening? {d : Direction} {n level : Nat} {cls : Option BidiClass} {override : Override}
    (hcls : cls.any (·.goesWith d) = true) (h : opening? n cls = some (level, override)) :
    Direction.ofLevel level = d ∧ isForeign d override = false := by
  have hodd : Direction.ofLevel (nextOdd n) = .rtl := if_neg (by unfold nextOdd; split <;> omega)
  have heven : Direction.ofLevel (nextEven n) = .ltr := if_pos (by unfold nextEven; split <;> omega)
  unfold opening? at h
  split at h
  · cases d
    · cases hcls
    · cases h
      exact ⟨hodd, rfl⟩
  · cases d
    · cases h
      exact ⟨heven, rfl⟩
    · cases hcls
  · cases d
    · cases hcls
    · cases h
      exact ⟨hodd, rfl⟩
  · cases d
    · cases h
      exact ⟨heven, rfl⟩
    · cases hcls
  · cases h

theorem explicitStep_suits {d : Direction} {base : Nat} (hbase : Direction.ofLevel base = d) {e : Embedding}
    (he : e.All fun level override => Direction.ofLevel level = d ∧ isForeign d override = false) {c : Char}
    {cls : Option BidiClass} (hcls : cls.any (·.goesWith d) = true) :
    (explicitStep base e c cls).1.All (fun level override => Direction.ofLevel level = d ∧ isForeign d override = false) ∧
      ∀ u, (explicitStep base e c cls).2 = some u → u.Suits d := by
  obtain ⟨hlevel, hoverride⟩ := he _ List.mem_cons_self
  unfold explicitStep
  split
  next level override h => exact ⟨he.push (suits_opening? hcls h), nofun⟩
  next h =>
    split
    · exact ⟨he.pop, nofun⟩
    · exact ⟨he, nofun⟩
    · refine ⟨Embedding.all_start ⟨hbase, by cases d <;> rfl⟩, fun u hu => ?_⟩
      obtain rfl := Option.some.inj hu
      exact ⟨hbase, by cases d <;> rfl⟩
    · refine ⟨he, fun u hu => ?_⟩
      obtain rfl := Option.some.inj hu
      refine ⟨hlevel, ?_⟩
      dsimp only
      split
      next o heq => exact heq ▸ hoverride
      · exact isForeign_of_goesWith hcls

theorem suits_explicitUnits {d : Direction} {base : Nat} (hbase : Direction.ofLevel base = d) {s : List Char}
    (h : GoesWith d s) : ∀ u ∈ explicitUnits base (s.map fun c => (c, assignedClass c)), u.Suits d := by
  have hstart : isForeign d none = false := by cases d <;> rfl
  exact forall_explicitUnitsFrom
    (I := fun e => e.All fun level override => Direction.ofLevel level = d ∧ isForeign d override = false)
    (C := fun _ cls => cls.any (·.goesWith d) = true) (fun he hcls => explicitStep_suits hbase he hcls)
    (Embedding.all_start ⟨hbase, hstart⟩) (List.forall_mem_map.2 h)

/-! ### Weak rules -/

section Rules

variable {d : Direction}

theorem suits_resolveMarks {strong previous : Option BidiClass} (hstrong : isForeign d strong = false)
    (hprevious : isForeign d previous = false) {us : List LevelUnit} (h : ∀ u ∈ us, u.Suits d) :
    ∀ u ∈ resolveMarks strong previous us, u.Suits d := by
  refine forall_resolveMarks (S := fun cls => isForeign d cls = false) (C := fun cls => isForeign d cls = false)
    (fun hprevious hu => hu.become ?_) (fun hstrong hu => hu.become ?_) (fun hu => ⟨hu.2, hu.2⟩) hstrong hprevious h
  · split
    · exact hprevious
    · exact hu.2
  · split
    next hcls =>
      -- Arabic letters go with right to left, and European numbers with left to right.
      obtain ⟨hnumber, rfl⟩ := hcls
      have hforeign := hu.2
      rw [hnumber] at hforeign
      cases d
      · cases hstrong
      · cases hforeign
    · exact hu.2

theorem suits_resolveArabic {us : List LevelUnit} (h : ∀ u ∈ us, u.Suits d) : ∀ u ∈ resolveArabic us, u.Suits d := by
  refine List.forall_mem_map.2 fun u hu => ?_
  split
  next hcls =>
    have hforeign := (h u hu).2
    rw [hcls] at hforeign
    refine (h u hu).become ?_
    cases d
    · cases hforeign
    · rfl
  · exact h u hu

theorem suits_resolveSeparators {us : List LevelUnit} (h : ∀ u ∈ us, u.Suits d) :
    ∀ u ∈ resolveSeparators none us, u.Suits d := by
  refine forall_resolveSeparators (C := fun cls => isForeign d cls = false) (fun hprevious hu _ => hu.become ?_)
    (fun hu => hu.2) (by cases d <;> rfl) h
  unfold separatorClass
  split
  next hjoined => exact hjoined.2.1 ▸ hprevious
  · split
    · exact hprevious
    · exact hu.2

theorem suits_resolveTerminators {us : List LevelUnit} (h : ∀ u ∈ us, u.Suits d) :
    ∀ u ∈ resolveTerminators us, u.Suits d :=
  forall_resolveTerminators (N := isForeign d (some .EN) = false) (fun hu hcls => hcls ▸ hu.2)
    (fun hnumber hu _ => hu.become hnumber) h

theorem suits_resolveLoose {us : List LevelUnit} (h : ∀ u ∈ us, u.Suits d) : ∀ u ∈ resolveLoose us, u.Suits d := by
  refine List.forall_mem_map.2 fun u hu => ?_
  split
  · exact (h u hu).become (by cases d <;> rfl)
  · exact h u hu

/-- Whether the class is foreign to the direction or a number. -/
def isLoose (d : Direction) (cls : Option BidiClass) : Bool := isForeign d cls || cls == some .EN

theorem isLoose_strongOf {n : Nat} (hn : Direction.ofLevel n = d) : isLoose d (some (strongOf n)) = false := by
  subst hn
  unfold Direction.ofLevel strongOf
  split <;> rfl

/-- Letters that are not foreign are those of the direction. -/
theorem eq_strongOf_of_not_isLoose {n : Nat} (hn : Direction.ofLevel n = d) {cls : Option BidiClass}
    (hcls : isLoose d cls = false) (hletter : cls = some .L ∨ cls = some .R) : cls = some (strongOf n) := by
  subst hn
  revert hcls
  unfold Direction.ofLevel strongOf
  rcases hletter with rfl | rfl
  · split
    · exact fun _ => rfl
    · exact nofun
  · split
    · exact nofun
    · exact fun _ => rfl

/-- Left to right a number becomes a letter, which is what stands before it; right to left there is none. -/
theorem isLoose_resolveNumbers {n : Nat} (hn : Direction.ofLevel n = d) {us : List LevelUnit} (h : ∀ u ∈ us, u.Suits d) :
    ∀ u ∈ resolveNumbers (some (strongOf n)) us, Direction.ofLevel u.level = d ∧ isLoose d u.cls = false := by
  refine forall_resolveNumbers (S := fun strong => strong = some (strongOf n)) (fun {strong u} hstrong hu => ⟨hu.1, ?_⟩)
    (fun hu hletter => eq_strongOf_of_not_isLoose hn hu.2 hletter) rfl h
  subst hstrong
  dsimp only
  split
  next hcls =>
    rw [← hcls.2]
    exact isLoose_strongOf hn
  next hcls =>
    have hnumber : u.cls ≠ some .EN := by
      intro hnumber
      have hforeign := hu.2
      rw [hnumber] at hforeign
      have hltr : d = .ltr := by
        cases d
        · rfl
        · cases hforeign
      have heven : n % 2 = 0 := by
        by_contra hodd
        rw [Direction.ofLevel, if_neg hodd, hltr] at hn
        cases hn
      exact hcls ⟨hnumber, by rw [strongOf, if_pos heven]⟩
    rw [isLoose, hu.2, Bool.false_or]
    exact beq_false_of_ne hnumber

theorem isLoose_resolveWeak {n : Nat} (hn : Direction.ofLevel n = d) {us : List LevelUnit} (h : ∀ u ∈ us, u.Suits d) :
    ∀ u ∈ resolveWeak (strongOf n) us, Direction.ofLevel u.level = d ∧ isLoose d u.cls = false :=
  isLoose_resolveNumbers hn (suits_resolveLoose (suits_resolveTerminators (suits_resolveSeparators (suits_resolveArabic
    (suits_resolveMarks (isForeign_strongOf hn) (isForeign_strongOf hn) h)))))

/-! ### Neutral rules and levels -/

/-- Between letters of the direction neutrals become letters of it, and so they do at a level of it. -/
theorem isLoose_resolveNeutral {previous : Option BidiClass} (hprevious : isLoose d previous = false)
    (after : Option BidiClass) {us : List LevelUnit}
    (h : ∀ u ∈ us, Direction.ofLevel u.level = d ∧ isLoose d u.cls = false) :
    ∀ u ∈ resolveNeutral previous after us, isLoose d u.cls = false := by
  have hinfluence : ∀ {cls : Option BidiClass}, isLoose d cls = false → influence cls = cls := by
    intro cls hcls
    refine if_neg ?_
    rintro (rfl | rfl)
    · cases d <;> cases hcls
    · cases d <;> cases hcls
  refine forall_resolveNeutral (C := fun cls => isLoose d cls = false) (fun {previous u} next hprevious hu _ => ?_)
    (fun hu _ => ⟨hu.2, hu.2⟩) hprevious after h
  show isLoose d (neutralClass previous next u.level) = false
  unfold neutralClass
  split
  · rwa [hinfluence hprevious]
  · exact isLoose_strongOf hu.1

/-- Every level of the resolved units is one of the direction. -/
theorem ofLevel_of_suits {base : Nat} (hbase : Direction.ofLevel base = d) {us vs : List LevelUnit}
    (hsuits : ∀ u ∈ us, u.Suits d) (hunresolved : Have isUnresolved us) (h : resolveUnits base us = some vs) :
    ∀ v ∈ vs, Direction.ofLevel v.level = d := by
  have hloose : ∀ u ∈ (levelRuns base us).flatMap resolveRun, isLoose d u.cls = false := by
    refine forall_resolveRuns (L := fun n => Direction.ofLevel n = d) hbase (fun u hu => hu.1)
      (fun {r m n} hm _ hbefore _ hunits => ?_) hsuits
    rw [resolveRun, hbefore]
    exact isLoose_resolveNeutral (isLoose_strongOf hm) _ (isLoose_resolveWeak hm hunits)
  have hsettled := have_resolveRuns base hunresolved
  intro v hv
  obtain ⟨u, hu, hsettle⟩ := mem_of_mapM_some h v hv
  obtain ⟨level, hlevel, rfl⟩ := Option.map_eq_some_iff.1 hsettle
  refine ofLevel_implicitLevel? hlevel ?_
  -- What has a level and is not loose is a letter of the direction.
  have hown : ∀ cls : Option BidiClass, isSettled cls = true → isLoose d cls = false → ownDirectionOf cls = some d := by
    rintro (_ | cls)
    · exact nofun
    · cases d <;> cases cls <;> decide
  exact hown u.cls (hsettled u hu) (hloose u hu)

end Rules

/-! ### Texts -/

section Texts

variable {d : Direction}

/-- The first strong character can only be one of the direction. -/
theorem firstStrongFrom_of_goesWith {s : List Char} (h : GoesWith d s) {depth level : Nat}
    (hlevel : firstStrongFrom depth s = some level) : level = d.level := by
  induction s generalizing depth with
  | nil => cases hlevel
  | cons c s ih =>
    obtain ⟨hc, hs⟩ := List.forall_mem_cons.1 h
    have hclass := goesWith_bidiClass hc
    rw [firstStrongFrom] at hlevel
    split at hlevel
    · exact ih hs hlevel
    · split at hlevel
      · split at hlevel
        · cases hlevel
        · exact ih hs hlevel
      · split at hlevel
        next hleft =>
          rw [hleft.2] at hclass
          cases d
          · exact (Option.some.inj hlevel).symm
          · cases hclass
        · split at hlevel
          next hright =>
            cases d
            · rcases hright.2 with hcls | hcls
              · rw [hcls] at hclass
                cases hclass
              · rw [hcls] at hclass
                cases hclass
            · exact (Option.some.inj hlevel).symm
          · exact ih hs hlevel

theorem paragraphLevel_of_goesWith {s : List Char} (h : GoesWith d s) : paragraphLevel s d = d.level := by
  unfold paragraphLevel firstStrong
  cases hlevel : firstStrongFrom 0 s with
  | none => rfl
  | some level => exact firstStrongFrom_of_goesWith h hlevel

/-- What becomes of the isolates goes with the direction as they do. -/
theorem isolatesAsEmbeddings_goesWith {s : List Char} (h : GoesWith d s) : GoesWith d (isolatesAsEmbeddings s) := by
  induction s with
  | nil => exact nofun
  | cons c s ih =>
    obtain ⟨hc, hs⟩ := List.forall_mem_cons.1 h
    have hclass := goesWith_bidiClass hc
    refine List.forall_mem_cons.2 ⟨?_, ih hs⟩
    split
    next hcls =>
      rw [hcls] at hclass
      rw [assignedClass_leftEmbedding]
      cases d
      · rfl
      · cases hclass
    next hcls =>
      rw [hcls] at hclass
      rw [assignedClass_rightEmbedding]
      cases d
      · cases hclass
      · rfl
    next hcls =>
      -- Then the direction is left to right, and no strong character of the other one follows.
      rw [hcls] at hclass
      cases d with
      | rtl => cases hclass
      | ltr =>
        have hleft : firstStrong s ≠ some 1 := by
          intro hright
          cases firstStrongFrom_of_goesWith hs hright
        rw [if_neg hleft, assignedClass_leftEmbedding]
        rfl
    · rw [assignedClass_popEmbedding]
      cases d <;> rfl
    · exact hc

theorem spreadLevels_of_units {previous : Nat} (hprevious : Direction.ofLevel previous = d) {us : List LevelUnit}
    (h : ∀ u ∈ us, Direction.ofLevel u.level = d) (s : List Char) :
    ∀ level ∈ spreadLevels previous s us, Direction.ofLevel level = d := by
  fun_induction spreadLevels previous s us with
  | case1 => exact nofun
  | case2 previous _ s ih => exact List.forall_mem_cons.2 ⟨hprevious, ih hprevious h⟩
  | case3 previous s u us ih =>
    obtain ⟨hu, hus⟩ := List.forall_mem_cons.1 h
    exact List.forall_mem_cons.2 ⟨hu, ih hu hus⟩
  | case4 previous c s u us _ ih => exact List.forall_mem_cons.2 ⟨hprevious, ih hprevious h⟩

/-- Levels of one direction make a single run. -/
theorem runsFrom_of_levels {level : Nat} {ls : List Nat} (h : ∀ level' ∈ level :: ls, Direction.ofLevel level' = d)
    (start : Nat) : runsFrom start (level :: ls) = [⟨d, start, start + (ls.length + 1)⟩] := by
  induction ls generalizing start level with
  | nil =>
    obtain ⟨hlevel, -⟩ := List.forall_mem_cons.1 h
    simp [runsFrom, hlevel]
  | cons next ls ih =>
    obtain ⟨hlevel, hrest⟩ := List.forall_mem_cons.1 h
    have hstop : start + 1 + (ls.length + 1) = start + ((next :: ls).length + 1) := by
      rw [List.length_cons]
      omega
    rw [runsFrom, ih hrest]
    simp [hlevel, hstop]

/-- A text that goes with the base direction is one run of it. -/
theorem paragraph_of_goesWith {s : List Char} (hs : s ≠ []) (h : GoesWith d s) :
    paragraph s d = .ok ⟨s, d.level, [⟨d, 0, s.length⟩]⟩ := by
  have hlevel := paragraphLevel_of_goesWith h
  have hbase : Direction.ofLevel d.level = d := by cases d <;> rfl
  obtain ⟨us, hus⟩ := resolvedUnits?_of_classified h.isClassified d
  have hresolved := hus
  rw [resolvedUnits?, hlevel] at hresolved
  have hsuits : ∀ u ∈ explicitUnits d.level ((isolatesAsEmbeddings s).map fun c => (c, assignedClass c)), u.Suits d :=
    suits_explicitUnits hbase (isolatesAsEmbeddings_goesWith h)
  have hunits := ofLevel_of_suits hbase hsuits (isUnresolved_explicitUnits h.isClassified _) hresolved
  have hlevels := spreadLevels_of_units hbase hunits (isolatesAsEmbeddings s)
  have hlength : (spreadLevels d.level (isolatesAsEmbeddings s) us).length = s.length :=
    (length_spreadLevels _ _ _).trans (length_isolatesAsEmbeddings s)
  rw [paragraph_of_resolved hus, hlevel]
  cases hspread : spreadLevels d.level (isolatesAsEmbeddings s) us with
  | nil =>
    rw [hspread] at hlength
    exact absurd (List.eq_nil_of_length_eq_zero hlength.symm) hs
  | cons level ls =>
    rw [hspread] at hlevels hlength
    rw [buildRuns, runsFrom_of_levels hlevels, Nat.zero_add, ← List.length_cons, hlength]

end Texts

end WikiTypeset.Bidi
