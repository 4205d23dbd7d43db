import WikiTypeset.Proofs.Bidi.Settled
import WikiTypeset.Proofs.Emission.Gather

/-!
# Letters and digits run in their own directions

Letters have a direction of their own, and digits are left to right. Without overrides the explicit rules leave the
classes alone, and after them no rule takes its direction away from a class: numbers stay numbers or become left-to-right
letters, and whatever else is rewritten had no direction. The implicit rules then put every class at a level of its
direction, whatever the level of the embedding. Main statement: `paragraph_directs`.
-/

namespace WikiTypeset.Bidi

/-- The direction that a class has by itself: that of letters, and left to right for digits. -/
def BidiClass.ownDirection? : BidiClass → Option Direction
  | .L | .EN | .AN => some .ltr
  | .R | .AL => some .rtl
  | _ => none

/-- The direction that a class has by itself, if it is known. -/
def ownDirectionOf (cls : Option BidiClass) : Option Direction := cls.bind BidiClass.ownDirection?

/-- The second class has the direction of the first one, if that has one. -/
def Follows (cls cls' : Option BidiClass) : Prop := ∀ d, ownDirectionOf cls = some d → ownDirectionOf cls' = some d

/-- The unit has the direction of its character, if that has one. -/
def LevelUnit.IsTrue (u : LevelUnit) : Prop := Follows (assignedClass u.char) u.cls

theorem LevelUnit.IsTrue.follow {u : LevelUnit} (h : u.IsTrue) {cls : Option BidiClass} (hcls : Follows u.cls cls) :
    LevelUnit.IsTrue { u with cls } :=
  fun d hd => hcls d (h d hd)

theorem Follows.refl (cls : Option BidiClass) : Follows cls cls := fun _ hd => hd

theorem Follows.trans {a b c : Option BidiClass} (h : Follows a b) (h' : Follows b c) : Follows a c :=
  fun d hd => h' d (h d hd)

/-- A class without a direction may become any other one. -/
theorem Follows.of_none {cls : Option BidiClass} (h : ownDirectionOf cls = none) (cls' : Option BidiClass) :
    Follows cls cls' := by
  intro d hd
  rw [h] at hd
  cases hd

/-- Controls and removed characters have no direction of their own. -/
theorem keeps_of_ownDirection? {cls : BidiClass} {d : Direction} (h : cls.ownDirection? = some d) :
    (!(cls.opensIsolate || cls == .PDI || isRemoved (some cls))) = true := by
  revert h
  cases cls <;> simp [BidiClass.ownDirection?, BidiClass.opensIsolate, isRemoved]

/-! ### Explicit rules -/

/-- Without overrides a step leaves the class of the character, or nothing. -/
theorem explicitStep_isTrue {base : Nat} {e : Embedding} (he : e.All fun _ o => o = none) {c : Char}
    {cls : Option BidiClass} (hclass : assignedClass c = cls) (hplain : cls ≠ some .LRO ∧ cls ≠ some .RLO) :
    (explicitStep base e c cls).1.All (fun _ o => o = none) ∧
      ∀ u, (explicitStep base e c cls).2 = some u → u.IsTrue := by
  have hopening : ∀ {level o}, opening? e.level cls = some (level, o) → o = none := by
    intro level o h
    unfold opening? at h
    split at h
    · cases h
      rfl
    · cases h
      rfl
    · exact absurd rfl hplain.2
    · exact absurd rfl hplain.1
    · cases h
  have hoverride : e.override = none := he _ List.mem_cons_self
  unfold explicitStep
  split
  next level o h => exact ⟨he.push (hopening h), nofun⟩
  next h =>
    split
    · exact ⟨he.pop, nofun⟩
    · exact ⟨he, nofun⟩
    · refine ⟨Embedding.all_start rfl, fun u hu => ?_⟩
      obtain rfl := Option.some.inj hu
      rw [LevelUnit.IsTrue, hclass]
      exact .refl _
    · refine ⟨he, fun u hu => ?_⟩
      obtain rfl := Option.some.inj hu
      rw [LevelUnit.IsTrue, hclass, hoverride]
      exact .refl _

/-! ### Weak rules -/

theorem isTrue_resolveMarks (strong previous : Option BidiClass) {us : List LevelUnit} (h : ∀ u ∈ us, u.IsTrue) :
    ∀ u ∈ resolveMarks strong previous us, u.IsTrue := by
  refine forall_resolveMarks (S := fun _ => True) (C := fun _ => True) (fun _ hu => hu.follow ?_)
    (fun _ hu => hu.follow ?_) (fun _ => ⟨trivial, trivial⟩) trivial trivial h
  · split
    next hcls => exact .of_none (by rw [hcls]; rfl) _
    · exact .refl _
  · split
    next hcls =>
      rw [hcls.1]
      exact fun d hd => hd
    · exact .refl _

theorem isTrue_resolveArabic {us : List LevelUnit} (h : ∀ u ∈ us, u.IsTrue) : ∀ u ∈ resolveArabic us, u.IsTrue := by
  refine List.forall_mem_map.2 fun u hu => ?_
  split
  next hcls =>
    refine (h u hu).follow ?_
    rw [hcls]
    exact fun d hd => hd
  · exact h u hu

theorem follows_separatorClass (previous cls next : Option BidiClass) : Follows cls (separatorClass previous cls next) := by
  unfold separatorClass
  split
  next hcls => exact .of_none (by rw [hcls.1]; rfl) _
  · split
    next hcls => exact .of_none (by rw [hcls.1]; rfl) _
    · exact .refl _

theorem isTrue_resolveSeparators (previous : Option BidiClass) {us : List LevelUnit} (h : ∀ u ∈ us, u.IsTrue) :
    ∀ u ∈ resolveSeparators previous us, u.IsTrue :=
  forall_resolveSeparators (C := fun _ => True) (fun _ hu _ => hu.follow (follows_separatorClass _ _ _))
    (fun _ => trivial) trivial h

theorem isTrue_resolveTerminators {us : List LevelUnit} (h : ∀ u ∈ us, u.IsTrue) :
    ∀ u ∈ resolveTerminators us, u.IsTrue := by
  refine forall_resolveTerminators (N := True) (fun _ _ => trivial) (fun _ hu hcls => hu.follow ?_) h
  exact .of_none (by rw [hcls]; rfl) _

theorem isTrue_resolveLoose {us : List LevelUnit} (h : ∀ u ∈ us, u.IsTrue) : ∀ u ∈ resolveLoose us, u.IsTrue := by
  refine List.forall_mem_map.2 fun u hu => ?_
  split
  next hcls =>
    have hnone : ownDirectionOf u.cls = none := by rcases hcls with h | h | h <;> rw [h] <;> rfl
    exact (h u hu).follow (.of_none hnone _)
  · exact h u hu

theorem isTrue_resolveNumbers (strong : Option BidiClass) {us : List LevelUnit} (h : ∀ u ∈ us, u.IsTrue) :
    ∀ u ∈ resolveNumbers strong us, u.IsTrue := by
  refine forall_resolveNumbers (S := fun _ => True) (fun _ hu => hu.follow ?_) (fun _ _ => trivial) trivial h
  split
  next hcls =>
    rw [hcls.1]
    exact fun d hd => hd
  · exact .refl _

theorem isTrue_resolveWeak (before : BidiClass) {us : List LevelUnit} (h : ∀ u ∈ us, u.IsTrue) :
    ∀ u ∈ resolveWeak before us, u.IsTrue :=
  isTrue_resolveNumbers _ (isTrue_resolveLoose (isTrue_resolveTerminators (isTrue_resolveSeparators none
    (isTrue_resolveArabic (isTrue_resolveMarks _ _ h)))))

/-! ### Neutral rules and levels -/

theorem ownDirectionOf_neutral {cls : Option BidiClass} (h : isNeutral cls = true) : ownDirectionOf cls = none := by
  revert h
  rcases cls with _ | cls
  · exact nofun
  · cases cls <;> simp [isNeutral, ownDirectionOf, BidiClass.ownDirection?]

theorem isTrue_resolveNeutral (previous after : Option BidiClass) {us : List LevelUnit} (h : ∀ u ∈ us, u.IsTrue) :
    ∀ u ∈ resolveNeutral previous after us, u.IsTrue :=
  forall_resolveNeutral (C := fun _ => True)
    (fun _ _ hu hneutral => hu.follow (.of_none (ownDirectionOf_neutral hneutral) _)) (fun hu _ => ⟨hu, trivial⟩)
    trivial after h

/-- The implicit rules put a class that has a direction at a level of that direction. -/
theorem ofLevel_implicitLevel? {n level : Nat} {cls : Option BidiClass} {d : Direction}
    (hlevel : implicitLevel? n cls = some level) (hcls : ownDirectionOf cls = some d) : Direction.ofLevel level = d := by
  unfold implicitLevel? at hlevel
  split at hlevel
  · obtain rfl : Direction.ltr = d := by simpa [ownDirectionOf, BidiClass.ownDirection?] using hcls
    obtain rfl := Option.some.inj hlevel
    exact if_pos (by split <;> omega)
  · obtain rfl : Direction.rtl = d := by simpa [ownDirectionOf, BidiClass.ownDirection?] using hcls
    obtain rfl := Option.some.inj hlevel
    exact if_neg (by split <;> omega)
  · obtain rfl : Direction.ltr = d := by simpa [ownDirectionOf, BidiClass.ownDirection?] using hcls
    obtain rfl := Option.some.inj hlevel
    exact if_pos (by split <;> omega)
  · obtain rfl : Direction.ltr = d := by simpa [ownDirectionOf, BidiClass.ownDirection?] using hcls
    obtain rfl := Option.some.inj hlevel
    exact if_pos (by split <;> omega)
  · cases hlevel

/-- The resolved unit of a character that has a direction of its own is at a level of that direction. -/
theorem ofLevel_of_mem_resolved {base : Nat} {us vs : List LevelUnit} (hus : ∀ u ∈ us, u.IsTrue)
    (h : resolveUnits base us = some vs) {v : LevelUnit} (hv : v ∈ vs) {d : Direction}
    (hd : ownDirectionOf (assignedClass v.char) = some d) : Direction.ofLevel v.level = d := by
  have htrue : ∀ u ∈ (levelRuns base us).flatMap resolveRun, u.IsTrue :=
    forall_resolveRuns (L := fun _ => True) trivial (fun _ _ => trivial)
      (fun _ _ _ _ hunits => isTrue_resolveNeutral _ _ (isTrue_resolveWeak _ hunits)) hus
  obtain ⟨u, hu, hsettle⟩ := mem_of_mapM_some h v hv
  rw [settle?_char hsettle] at hd
  obtain ⟨level, hlevel, rfl⟩ := Option.map_eq_some_iff.1 hsettle
  exact ofLevel_implicitLevel? hlevel (htrue u hu d hd)

/-! ### Texts -/

/-- A text without overrides. -/
def IsPlain (s : List Char) : Prop := ∀ c ∈ s, bidiClass c ≠ .LRO ∧ bidiClass c ≠ .RLO

instance (s : List Char) : Decidable (IsPlain s) := List.decidableBAll _ s

/-- No override comes of an isolate. -/
theorem isolatesAsEmbeddings_plain {s : List Char} (h : IsPlain s) :
    ∀ c ∈ isolatesAsEmbeddings s, assignedClass c ≠ some .LRO ∧ assignedClass c ≠ some .RLO := by
  induction s with
  | nil => exact nofun
  | cons c s ih =>
    obtain ⟨hc, hs⟩ := List.forall_mem_cons.1 h
    refine List.forall_mem_cons.2 ⟨?_, ih hs⟩
    split
    · simp [assignedClass_leftEmbedding]
    · simp [assignedClass_rightEmbedding]
    · split
      · simp [assignedClass_rightEmbedding]
      · simp [assignedClass_leftEmbedding]
    · simp [assignedClass_popEmbedding]
    · constructor
      · intro hcls
        exact hc.1 (by simp [bidiClass, hcls])
      · intro hcls
        exact hc.2 (by simp [bidiClass, hcls])

theorem isTrue_explicitUnits {s : List Char} (h : IsPlain s) (base : Nat) :
    ∀ u ∈ explicitUnits base ((isolatesAsEmbeddings s).map fun c => (c, assignedClass c)), u.IsTrue := by
  refine forall_explicitUnitsFrom (I := fun e => e.All fun _ o => o = none)
    (C := fun c cls => assignedClass c = cls ∧ cls ≠ some .LRO ∧ cls ≠ some .RLO)
    (fun he hc => explicitStep_isTrue he hc.1 hc.2) (Embedding.all_start rfl) ?_
  exact List.forall_mem_map.2 fun c hc => ⟨rfl, isolatesAsEmbeddings_plain h c hc⟩

/-- In a text without overrides every letter and every digit stands in a run of its own direction, whatever embeddings
and isolates it is in and whatever the base direction is. -/
theorem paragraph_directs {s : List Char} (hclassified : IsClassified s) (hplain : IsPlain s) (base : Direction) :
    ∃ p, paragraph s base = .ok p ∧ ∀ i c d, s[i]? = some c → (bidiClass c).ownDirection? = some d →
      ∃ r ∈ p.runs, r.start ≤ i ∧ i < r.stop ∧ p.runAt i = some r ∧ r.direction = d := by
  obtain ⟨us, hus⟩ := resolvedUnits?_of_classified hclassified base
  have hparagraph := paragraph_of_resolved hus
  have hpartitions := paragraph_partitions hparagraph
  refine ⟨_, hparagraph, fun i c d hc hd => ?_⟩
  have hclass := assignedClass_eq_of_isSome (hclassified c (List.mem_of_getElem? hc))
  have hown : ownDirectionOf (assignedClass c) = some d := by rw [hclass]; exact hd
  have hkept : isKept c = true := by
    rw [isKept, hclass]
    exact keeps_of_ownDirection? hd
  -- The unit of the character has its level, and the run that holds the character has the direction of that level.
  obtain ⟨u, hu, rfl, hlevel⟩ := (isLevelling_spreadLevels (charsOf_resolved hus) _).kept i c hc hkept
  have hdirection : Direction.ofLevel u.level = d :=
    ofLevel_of_mem_resolved (isTrue_explicitUnits hplain _) hus (List.mem_of_getElem? hu) hown
  have hi : i < s.length := (List.getElem?_eq_some_iff.1 hc).1
  obtain ⟨r, hr, hstart, hstop⟩ := hpartitions.contiguous.exists_mem (Nat.zero_le i) hi
  have hrun := direction_of_mem_runsFrom hr (k := i) (by omega) (by omega)
  rw [hlevel, Option.map_some, hdirection, Option.some_inj] at hrun
  exact ⟨r, hr, hstart, hstop, hpartitions.runAt_of_mem hr hstart hstop, hrun.symm⟩

/-- Letters and digits of both directions, in an isolate that stands in an embedding. -/
def nestedText : List Char := "a\u202B\u05D01\u2066\u0627\u0661b\u2069\u202C2".toList

theorem nestedText_directs : IsClassified nestedText ∧ IsPlain nestedText ∧
    ∃ p, paragraph nestedText .rtl = .ok p ∧ ∀ i c d, nestedText[i]? = some c →
      (bidiClass c).ownDirection? = some d →
      ∃ r ∈ p.runs, r.start ≤ i ∧ i < r.stop ∧ p.runAt i = some r ∧ r.direction = d := by
  have hclassified : IsClassified nestedText := by decide +kernel
  have hplain : IsPlain nestedText := by decide +kernel
  exact ⟨hclassified, hplain, paragraph_directs hclassified hplain .rtl⟩

end WikiTypeset.Bidi
