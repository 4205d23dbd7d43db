import Mathlib.Data.List.Forall2
import WikiTypeset.Proofs.Bidi.Settled

/-!
# Characters without a class

For the paragraph level and the isolates, a character without a bidi class counts as a left-to-right letter. The rules
behind them ask the table again and find no class: it stays missing through all of them, and no level can be settled,
unless an override gives the character a class. Under one the text is analysed just as with the letter in its place.
Main statement: `paragraph_of_unassigned`.
-/

namespace WikiTypeset.Bidi

/-- What may stand in the place of a character: a left-to-right letter if it has no class, else the character itself. -/
inductive CountsAs : Char → Char → Prop
  | letter {c c' : Char} (unassigned : assignedClass c = none) (isLetter : assignedClass c' = some .L) : CountsAs c c'
  | itself {c : Char} (assigned : assignedClass c ≠ none) : CountsAs c c

theorem countsAs_iff {c c' : Char} : CountsAs c c' ↔
    assignedClass c = none ∧ assignedClass c' = some .L ∨ assignedClass c ≠ none ∧ c' = c := by
  constructor
  · rintro (⟨hnone, hletter⟩ | hassigned)
    · exact .inl ⟨hnone, hletter⟩
    · exact .inr ⟨hassigned, rfl⟩
  · rintro (⟨hnone, hletter⟩ | ⟨hassigned, rfl⟩)
    · exact .letter hnone hletter
    · exact .itself hassigned

instance (c c' : Char) : Decidable (CountsAs c c') := decidable_of_iff' _ countsAs_iff

theorem CountsAs.bidiClass_eq {c c' : Char} (h : CountsAs c c') : bidiClass c' = bidiClass c := by
  cases h with
  | letter hnone hletter => simp [bidiClass, hnone, hletter]
  | itself => rfl

theorem CountsAs.isKept_eq {c c' : Char} (h : CountsAs c c') : isKept c' = isKept c := by
  cases h with
  | letter hnone hletter => simp [isKept, bidiClass, hnone, hletter, isRemoved]
  | itself => rfl

/-- The embedding in force behind some characters. -/
def embeddingAfter (base : Nat) (e : Embedding) (s : List Char) : Embedding :=
  s.foldl (fun e c => (explicitStep base e c (assignedClass c)).1) e

/-- An override of an embedding or an isolate is in force at an offset. -/
def IsOverriddenAt (s : List Char) (base : Direction) (i : Nat) : Prop :=
  let level := paragraphLevel s base
  (embeddingAfter level { level } ((isolatesAsEmbeddings s).take i)).override ≠ none

/-- Every character without a class is under an override. -/
def OverridesUnassigned (s : List Char) (base : Direction) : Prop :=
  ∀ i c, s[i]? = some c → assignedClass c = none → IsOverriddenAt s base i

/-! ### What is read through `bidiClass` -/

section Places

variable {s s' : List Char}

theorem firstStrongFrom_countsAs (h : List.Forall₂ CountsAs s s') (depth : Nat) :
    firstStrongFrom depth s' = firstStrongFrom depth s := by
  induction h generalizing depth with
  | nil => rfl
  | cons hc _ ih => simp only [firstStrongFrom, hc.bidiClass_eq, ih]

theorem paragraphLevel_countsAs (h : List.Forall₂ CountsAs s s') (base : Direction) :
    paragraphLevel s' base = paragraphLevel s base := by
  rw [paragraphLevel, firstStrong, firstStrongFrom_countsAs h 0]
  rfl

theorem isolatesAsEmbeddings_countsAs (h : List.Forall₂ CountsAs s s') :
    List.Forall₂ CountsAs (isolatesAsEmbeddings s) (isolatesAsEmbeddings s') := by
  induction h with
  | nil => exact .nil
  | @cons c c' s s' hc hs ih =>
    refine .cons ?_ ih
    have hstrong : firstStrong s' = firstStrong s := firstStrongFrom_countsAs hs 0
    cases hc with
    | letter hnone hletter =>
      have hclass : bidiClass c = .L := by simp [bidiClass, hnone]
      have hclass' : bidiClass c' = .L := by simp [bidiClass, hletter]
      simpa only [hclass, hclass'] using CountsAs.letter hnone hletter
    | itself hassigned =>
      -- Of one character the same control comes, and no control lacks a class.
      have hleft : assignedClass leftEmbedding ≠ none :=
        ne_of_eq_of_ne assignedClass_leftEmbedding (Option.some_ne_none _)
      have hright : assignedClass rightEmbedding ≠ none :=
        ne_of_eq_of_ne assignedClass_rightEmbedding (Option.some_ne_none _)
      have hpop : assignedClass popEmbedding ≠ none :=
        ne_of_eq_of_ne assignedClass_popEmbedding (Option.some_ne_none _)
      rw [hstrong]
      split
      · exact .itself hleft
      · exact .itself hright
      · split
        · exact .itself hright
        · exact .itself hleft
      · exact .itself hpop
      · exact .itself hassigned

theorem keptBefore_countsAs (h : List.Forall₂ CountsAs s s') (i : Nat) : keptBefore s' i = keptBefore s i := by
  induction h generalizing i with
  | nil => simp [keptBefore]
  | cons hc _ ih =>
    cases i with
    | zero => rfl
    | succ i => rw [keptBefore_cons_succ, keptBefore_cons_succ, hc.isKept_eq, ih]

/-- What is in place of a character without a class is one that has a class. -/
theorem isClassified_of_countsAs (h : List.Forall₂ CountsAs s s') : IsClassified s' := by
  intro c' hc'
  obtain ⟨i, hi, rfl⟩ := List.getElem_of_mem hc'
  have hlength : i < s.length := by rw [h.length_eq]; exact hi
  have hcounts : CountsAs s[i] s'[i] := h.get hlength hi
  rcases countsAs_iff.1 hcounts with ⟨-, hletter⟩ | ⟨hassigned, hsame⟩
  · rw [hletter]; rfl
  · rw [hsame]; exact Option.isSome_iff_ne_none.2 hassigned

end Places

/-! ### A missing class stays missing -/

/-- Some unit has no class. -/
def Lacks (us : List LevelUnit) : Prop := ∃ u ∈ us, u.cls = none

instance (us : List LevelUnit) : Decidable (Lacks us) := inferInstanceAs (Decidable (∃ u ∈ us, u.cls = none))

theorem lacks_cons {u : LevelUnit} {us : List LevelUnit} : Lacks (u :: us) ↔ u.cls = none ∨ Lacks us := by
  simp [Lacks]

theorem Lacks.map {f : LevelUnit → LevelUnit} {us : List LevelUnit} (hf : ∀ u : LevelUnit, u.cls = none → (f u).cls = none)
    (h : Lacks us) : Lacks (us.map f) := by
  obtain ⟨u, hu, hnone⟩ := h
  exact ⟨f u, List.mem_map_of_mem hu, hf u hnone⟩

theorem Lacks.reverse {us : List LevelUnit} (h : Lacks us) : Lacks us.reverse := by
  obtain ⟨u, hu, hnone⟩ := h
  exact ⟨u, List.mem_reverse.2 hu, hnone⟩

theorem lacks_resolveMarks (strong previous : Option BidiClass) {us : List LevelUnit} (h : Lacks us) :
    Lacks (resolveMarks strong previous us) := by
  induction us generalizing strong previous with
  | nil => exact h
  | cons u us ih =>
    rcases lacks_cons.1 h with hnone | hrest
    · exact lacks_cons.2 (.inl (by simp [hnone]))
    · exact lacks_cons.2 (.inr (ih _ _ hrest))

theorem lacks_resolveSeparators (previous : Option BidiClass) {us : List LevelUnit} (h : Lacks us) :
    Lacks (resolveSeparators previous us) := by
  fun_induction resolveSeparators previous us with
  | case1 | case2 => exact h
  | case3 previous u v us u' ih =>
    rcases lacks_cons.1 h with hnone | hrest
    · have hclass : u'.cls = none := by simp [u', separatorClass, hnone]
      exact lacks_cons.2 (.inl hclass)
    · exact lacks_cons.2 (.inr (ih hrest))

theorem lacks_extendNumbers (afterNumber : Bool) {us : List LevelUnit} (h : Lacks us) :
    Lacks (extendNumbers afterNumber us) := by
  fun_induction extendNumbers afterNumber us with
  | case1 => exact h
  | case2 _ u us hnumber ih =>
    rcases lacks_cons.1 h with hnone | hrest
    · simp [hnone] at hnumber
    · exact lacks_cons.2 (.inr (ih hrest))
  | case3 _ u us _ hterminator ih =>
    rcases lacks_cons.1 h with hnone | hrest
    · simp [hnone] at hterminator
    · exact lacks_cons.2 (.inr (ih hrest))
  | case4 _ u us _ _ ih => exact lacks_cons.2 ((lacks_cons.1 h).imp_right ih)

theorem lacks_resolveNumbers (strong : Option BidiClass) {us : List LevelUnit} (h : Lacks us) :
    Lacks (resolveNumbers strong us) := by
  induction us generalizing strong with
  | nil => exact h
  | cons u us ih =>
    rcases lacks_cons.1 h with hnone | hrest
    · exact lacks_cons.2 (.inl (by simp [hnone]))
    · exact lacks_cons.2 (.inr (ih _ hrest))

theorem lacks_resolveNeutral (previous after : Option BidiClass) {us : List LevelUnit} (h : Lacks us) :
    Lacks (resolveNeutral previous after us) := by
  fun_induction resolveNeutral previous after us with
  | case1 => exact h
  | case2 previous u us hneutral ih =>
    rcases lacks_cons.1 h with hnone | hrest
    · simp [hnone, isNeutral] at hneutral
    · exact lacks_cons.2 (.inr (ih hrest))
  | case3 previous u us _ ih => exact lacks_cons.2 ((lacks_cons.1 h).imp_right ih)

theorem lacks_resolveRun {r : LevelRun} (h : Lacks r.units) : Lacks (resolveRun r) := by
  have harabic : Lacks (resolveArabic (resolveMarks (some r.before) (some r.before) r.units)) := by
    refine (lacks_resolveMarks _ _ h).map fun u hnone => ?_
    simp [hnone]
  have hseparators := lacks_resolveSeparators none harabic
  have hterminators := (lacks_extendNumbers false (lacks_extendNumbers false hseparators).reverse).reverse
  have hloose := hterminators.map (f := fun u =>
    if u.cls = some .ET ∨ u.cls = some .ES ∨ u.cls = some .CS then { u with cls := some .ON } else u)
    fun u hnone => by simp [hnone]
  exact lacks_resolveNeutral _ _ (lacks_resolveNumbers _ hloose)

theorem mapM_settle?_of_lacks {us : List LevelUnit} (h : Lacks us) : us.mapM settle? = none := by
  induction us with
  | nil =>
    obtain ⟨u, hu, -⟩ := h
    cases hu
  | cons u us ih =>
    rcases lacks_cons.1 h with hnone | hrest
    · simp [List.mapM_cons, settle?, hnone, implicitLevel?]
    · simp [List.mapM_cons, ih hrest]

/-- Without the class of every unit there are no levels. -/
theorem resolveUnits_of_lacks (base : Nat) {us : List LevelUnit} (h : Lacks us) : resolveUnits base us = none := by
  obtain ⟨u, hu, hnone⟩ := h
  have hruns : ((levelRuns base us).map (·.units)).flatten = us := by
    rw [levelRuns, units_levelRunsFrom, flatten_stretches]
  rw [← hruns] at hu
  obtain ⟨units, hunits, hu⟩ := List.mem_flatten.1 hu
  obtain ⟨r, hr, rfl⟩ := List.mem_map.1 hunits
  obtain ⟨v, hv, hlacks⟩ := lacks_resolveRun ⟨u, hu, hnone⟩
  exact mapM_settle?_of_lacks ⟨v, List.mem_flatMap.2 ⟨r, hr, hv⟩, hlacks⟩

/-! ### The rules see classes and levels only -/

/-- The unit without its character. -/
def LevelUnit.bare (u : LevelUnit) : LevelUnit := { u with char := ' ' }

@[simp] theorem LevelUnit.bare_cls (u : LevelUnit) : u.bare.cls = u.cls := rfl

@[simp] theorem LevelUnit.bare_level (u : LevelUnit) : u.bare.level = u.level := rfl

/-- Some units without their characters. -/
abbrev bareAll (us : List LevelUnit) : List LevelUnit := us.map LevelUnit.bare

theorem resolveMarks_bare (strong previous : Option BidiClass) (us : List LevelUnit) :
    resolveMarks strong previous (bareAll us) = bareAll (resolveMarks strong previous us) := by
  induction us generalizing strong previous with
  | nil => rfl
  | cons u us ih => exact congrArg (List.cons _) (ih _ _)

theorem resolveArabic_bare (us : List LevelUnit) : resolveArabic (bareAll us) = bareAll (resolveArabic us) := by
  simp only [resolveArabic, List.map_map]
  refine List.map_congr_left fun u _ => ?_
  by_cases hclass : u.cls = some .AL <;> simp [LevelUnit.bare, hclass]

theorem resolveSeparators_bare (previous : Option BidiClass) (us : List LevelUnit) :
    resolveSeparators previous (bareAll us) = bareAll (resolveSeparators previous us) := by
  fun_induction resolveSeparators previous us with
  | case1 | case2 => rfl
  | case3 previous u v us u' ih =>
    simp only [List.map_cons, resolveSeparators, LevelUnit.bare_cls] at ih ⊢
    rw [ih]
    rfl

theorem extendNumbers_bare (afterNumber : Bool) (us : List LevelUnit) :
    extendNumbers afterNumber (bareAll us) = bareAll (extendNumbers afterNumber us) := by
  fun_induction extendNumbers afterNumber us with
  | case1 => rfl
  | case2 afterNumber u us hnumber ih => simp [extendNumbers, hnumber, ih]
  | case3 afterNumber u us hnumber hterminator ih =>
    simp only [List.map_cons, extendNumbers, LevelUnit.bare_cls, hterminator, and_self, if_true, ih]
    rfl
  | case4 afterNumber u us hnumber hterminator ih =>
    simp only [List.map_cons, extendNumbers, LevelUnit.bare_cls, hnumber, hterminator, if_false, ih]

theorem resolveTerminators_bare (us : List LevelUnit) :
    resolveTerminators (bareAll us) = bareAll (resolveTerminators us) := by
  simp [resolveTerminators, extendNumbers_bare, ← List.map_reverse]

theorem resolveLoose_bare (us : List LevelUnit) : resolveLoose (bareAll us) = bareAll (resolveLoose us) := by
  simp only [resolveLoose, List.map_map]
  refine List.map_congr_left fun u _ => ?_
  by_cases hclass : u.cls = some .ET ∨ u.cls = some .ES ∨ u.cls = some .CS <;> simp [LevelUnit.bare, hclass]

theorem resolveNumbers_bare (strong : Option BidiClass) (us : List LevelUnit) :
    resolveNumbers strong (bareAll us) = bareAll (resolveNumbers strong us) := by
  induction us generalizing strong with
  | nil => rfl
  | cons u us ih => exact congrArg (List.cons _) (ih _)

theorem resolveWeak_bare (before : BidiClass) (us : List LevelUnit) :
    resolveWeak before (bareAll us) = bareAll (resolveWeak before us) := by
  simp only [resolveWeak, resolveMarks_bare, resolveArabic_bare, resolveSeparators_bare, resolveTerminators_bare,
    resolveLoose_bare, resolveNumbers_bare]

theorem classAfter_bare (after : Option BidiClass) (us : List LevelUnit) :
    classAfter after (bareAll us) = classAfter after us := by
  induction us with
  | nil => rfl
  | cons u us ih => simp [classAfter, ih]

theorem resolveNeutral_bare (previous after : Option BidiClass) (us : List LevelUnit) :
    resolveNeutral previous after (bareAll us) = bareAll (resolveNeutral previous after us) := by
  fun_induction resolveNeutral previous after us with
  | case1 => rfl
  | case2 previous u us hneutral ih =>
    simp only [List.map_cons, resolveNeutral, LevelUnit.bare_cls, hneutral, if_true, ih, classAfter_bare]
    rfl
  | case3 previous u us hneutral ih =>
    simp only [List.map_cons, resolveNeutral, LevelUnit.bare_cls, hneutral, Bool.false_eq_true, if_false, ih]

/-- The run without the characters of its units. -/
def LevelRun.bare (r : LevelRun) : LevelRun := { r with units := bareAll r.units }

theorem resolveRun_bare (r : LevelRun) : resolveRun r.bare = bareAll (resolveRun r) := by
  simp only [resolveRun, LevelRun.bare, resolveWeak_bare, resolveNeutral_bare]

theorem stretches_bare (us : List LevelUnit) : stretches (bareAll us) = (stretches us).map bareAll := by
  induction us with
  | nil => rfl
  | cons u us ih =>
    simp only [List.map_cons, stretches, ih]
    cases stretches us with
    | nil => rfl
    | cons first others =>
      cases first with
      | nil => rfl
      | cons v vs =>
        by_cases hlevel : u.level = v.level <;> simp [hlevel]

theorem stretchLevel_bare (base : Nat) (us : List LevelUnit) : stretchLevel base (bareAll us) = stretchLevel base us := by
  cases us <;> rfl

theorem levelRunsFrom_bare (base previous : Nat) (ss : List (List LevelUnit)) :
    levelRunsFrom base previous (ss.map bareAll) = (levelRunsFrom base previous ss).map LevelRun.bare := by
  induction ss generalizing previous with
  | nil => rfl
  | cons s ss ih =>
    simp only [List.map_cons, levelRunsFrom, stretchLevel_bare, ih]
    cases ss with
    | nil => rfl
    | cons t ts =>
      simp only [List.map_cons, stretchLevel_bare]
      rfl

theorem mapM_settle?_bare (us : List LevelUnit) :
    (bareAll us).mapM settle? = (us.mapM settle?).map bareAll := by
  induction us with
  | nil => rfl
  | cons u us ih =>
    simp only [List.map_cons, List.mapM_cons, settle?, LevelUnit.bare_cls, LevelUnit.bare_level]
    cases implicitLevel? u.level u.cls with
    | none => rfl
    | some level =>
      simp only [Option.map_some, Option.bind_eq_bind, Option.bind_some, ih]
      cases us.mapM settle? <;> rfl

theorem resolveUnits_bare (base : Nat) (us : List LevelUnit) :
    resolveUnits base (bareAll us) = (resolveUnits base us).map bareAll := by
  have hruns : (levelRuns base (bareAll us)).flatMap resolveRun = bareAll ((levelRuns base us).flatMap resolveRun) := by
    simp only [levelRuns, stretches_bare, levelRunsFrom_bare, List.flatMap_map, resolveRun_bare, List.map_flatMap]
  rw [resolveUnits, hruns, mapM_settle?_bare]
  rfl

/-! ### Overrides -/

/-- The characters with the classes of the table, as the explicit rules read them. -/
def classified (s : List Char) : List (Char × Option BidiClass) := s.map fun c => (c, assignedClass c)

/-- A step of the explicit rules at a character without a class, or at a letter. -/
theorem explicitStep_plain (base : Nat) (e : Embedding) (c : Char) {cls : Option BidiClass} (h : cls = none ∨ cls = some .L) :
    explicitStep base e c cls = (e, some ⟨c, e.level, match e.override with | some o => some o | none => cls⟩) := by
  rcases h with rfl | rfl <;> rfl

/-- The explicit rules leave a class missing only where no override is in force. -/
theorem explicitStep_lacks (base : Nat) (e : Embedding) (c : Char) (cls : Option BidiClass) :
    (∃ u, (explicitStep base e c cls).2 = some u ∧ u.cls = none) ↔ cls = none ∧ e.override = none := by
  rcases cls with _ | cls
  · rw [explicitStep_plain base e c (.inl rfl)]
    cases e.override <;> simp
  · cases hoverride : e.override <;> cases cls <;> simp [explicitStep, opening?, hoverride]

theorem explicitUnitsFrom_lacks_iff (base : Nat) (e : Embedding) (s : List Char) :
    Lacks (explicitUnitsFrom base e (classified s)) ↔
      ∃ i c, s[i]? = some c ∧ assignedClass c = none ∧ (embeddingAfter base e (s.take i)).override = none := by
  induction s generalizing e with
  | nil => simp [Lacks, classified, explicitUnitsFrom]
  | cons c s ih =>
    have hstep := explicitStep_lacks base e c (assignedClass c)
    have hrest := ih (explicitStep base e c (assignedClass c)).1
    have hsplit : (∃ i c', (c :: s)[i]? = some c' ∧ assignedClass c' = none ∧
          (embeddingAfter base e ((c :: s).take i)).override = none) ↔
        (assignedClass c = none ∧ e.override = none) ∨ ∃ i c', s[i]? = some c' ∧ assignedClass c' = none ∧
          (embeddingAfter base (explicitStep base e c (assignedClass c)).1 (s.take i)).override = none := by
      constructor
      · rintro ⟨_ | i, c', hc', hnone, hoverride⟩
        · obtain rfl : c = c' := by simpa using hc'
          exact .inl ⟨hnone, hoverride⟩
        · exact .inr ⟨i, c', by simpa using hc', hnone, hoverride⟩
      · rintro (⟨hnone, hoverride⟩ | ⟨i, c', hc', hnone, hoverride⟩)
        · exact ⟨0, c, rfl, hnone, hoverride⟩
        · exact ⟨i + 1, c', by simpa using hc', hnone, hoverride⟩
    rw [hsplit, ← hrest, ← hstep]
    simp only [classified, List.map_cons, explicitUnitsFrom]
    split
    next e' u heq => simp [heq, lacks_cons]
    next e' heq => simp [heq]

/-- Under overrides a character without a class and a letter leave the same level and class. -/
theorem explicitUnitsFrom_countsAs (base : Nat) (e : Embedding) {s s' : List Char} (h : List.Forall₂ CountsAs s s')
    (hs : ¬ Lacks (explicitUnitsFrom base e (classified s))) :
    bareAll (explicitUnitsFrom base e (classified s')) = bareAll (explicitUnitsFrom base e (classified s)) := by
  induction h generalizing e with
  | nil => rfl
  | @cons c c' s s' hc _ ih =>
    simp only [classified, List.map_cons, explicitUnitsFrom] at hs ⊢
    cases hc with
    | letter hnone hletter =>
      rw [hnone, explicitStep_plain base e c (.inl rfl)] at hs ⊢
      rw [hletter, explicitStep_plain base e c' (.inr rfl)]
      simp only [lacks_cons, not_or] at hs
      cases hoverride : e.override with
      | none => simp [hoverride] at hs
      | some o => exact congrArg (List.cons _) (ih e hs.2)
    | itself =>
      split
      next e' u heq =>
        simp only [heq, lacks_cons, not_or] at hs
        exact congrArg (List.cons _) (ih e' hs.2)
      next e' heq =>
        simp only [heq] at hs
        exact ih e' hs

/-! ### Paragraphs -/

/-- Equal levels of the kept characters are spread alike. -/
theorem spreadLevels_countsAs {s s' : List Char} (h : List.Forall₂ CountsAs s s') {us us' : List LevelUnit}
    (hus : charsOf us = s.filter isKept) (hus' : charsOf us' = s'.filter isKept) (hbare : bareAll us' = bareAll us)
    (previous : Nat) :
    spreadLevels previous (isolatesAsEmbeddings s') us' = spreadLevels previous (isolatesAsEmbeddings s) us := by
  have hlevel : ∀ n, levelAfter previous us' n = levelAfter previous us n := by
    intro n
    have htake : ∀ us : List LevelUnit, levelAfter previous us n = levelAfter previous (bareAll us) n := by
      intro us
      simp [levelAfter, ← List.map_take, List.getLast?_map, Option.map_map, Function.comp_def]
    rw [htake us', hbare, ← htake us]
  refine List.ext_getElem? fun i => ?_
  by_cases hi : i < s.length
  · have hi' : i < s'.length := by rw [← h.length_eq]; exact hi
    rw [getElem?_spreadLevels hus previous hi, getElem?_spreadLevels hus' previous hi', keptBefore_countsAs h, hlevel]
  · have hi' : ¬ i < s'.length := by rw [← h.length_eq]; exact hi
    rw [List.getElem?_eq_none, List.getElem?_eq_none]
    · rw [length_spreadLevels, length_isolatesAsEmbeddings]; omega
    · rw [length_spreadLevels, length_isolatesAsEmbeddings]; omega

/-- The units that the explicit rules leave of a text. -/
def unitsOf (s : List Char) (base : Direction) : List LevelUnit :=
  explicitUnits (paragraphLevel s base) (classified (isolatesAsEmbeddings s))

theorem resolvedUnits?_eq (s : List Char) (base : Direction) :
    resolvedUnits? s base = resolveUnits (paragraphLevel s base) (unitsOf s base) := rfl

/-- Replacing isolates neither adds nor moves a character without a class. -/
theorem getElem?_isolatesAsEmbeddings {c : Char} (hc : assignedClass c = none) (s : List Char) (i : Nat) :
    (isolatesAsEmbeddings s)[i]? = some c ↔ s[i]? = some c := by
  induction s generalizing i with
  | nil => rfl
  | cons d s ih =>
    obtain ⟨d', heq, hsame, hremoved⟩ := isolatesAsEmbeddings_cons d s
    rw [heq]
    cases i with
    | succ i => simpa using ih i
    | zero =>
      simp only [List.getElem?_cons_zero, Option.some.injEq]
      constructor
      · rintro rfl
        have hkept : isKept d = true := by simpa [hc, isRemoved] using hremoved
        exact (hsame hkept).symm
      · rintro rfl
        have hkept : isKept d = true := by simp [isKept, bidiClass, hc, isRemoved, BidiClass.opensIsolate]
        exact hsame hkept

theorem overridesUnassigned_iff (s : List Char) (base : Direction) :
    OverridesUnassigned s base ↔ ¬ Lacks (unitsOf s base) := by
  rw [unitsOf, explicitUnits, explicitUnitsFrom_lacks_iff]
  constructor
  · rintro h ⟨i, c, hc, hnone, hoverride⟩
    exact h i c ((getElem?_isolatesAsEmbeddings hnone s i).1 hc) hnone hoverride
  · intro h i c hc hnone hoverride
    exact h ⟨i, c, (getElem?_isolatesAsEmbeddings hnone s i).2 hc, hnone, hoverride⟩

theorem paragraph_of_lacks {s : List Char} {base : Direction} (h : Lacks (unitsOf s base)) :
    paragraph s base = .error .unclassified := by
  have hlevels : levels (isolatesAsEmbeddings s) (paragraphLevel s base) = .error .unclassified := by
    have hunits := resolveUnits_of_lacks (paragraphLevel s base) h
    unfold unitsOf classified at hunits
    rw [levels, hunits]
  unfold paragraph
  cases s with
  | nil =>
    obtain ⟨u, hu, -⟩ := h
    cases hu
  | cons c s => simp only [List.isEmpty_cons, Bool.false_eq_true, if_false, hlevels]; rfl

/-- Letters in place of the characters without a class are analysed as those are under their overrides. -/
theorem paragraph_countsAs {s s' : List Char} (h : List.Forall₂ CountsAs s s') {base : Direction}
    (hs : ¬ Lacks (unitsOf s base)) :
    ∃ p, paragraph s base = .ok p ∧ paragraph s' base = .ok { p with text := s' } := by
  have hlevel : paragraphLevel s' base = paragraphLevel s base := paragraphLevel_countsAs h base
  have hunits : bareAll (unitsOf s' base) = bareAll (unitsOf s base) := by
    rw [unitsOf, hlevel]
    exact explicitUnitsFrom_countsAs _ _ (isolatesAsEmbeddings_countsAs h) hs
  obtain ⟨us', hus'⟩ := resolvedUnits?_of_classified (isClassified_of_countsAs h) base
  -- The units without their characters are the same, and so are those at their levels.
  have hresolved : (resolvedUnits? s base).map bareAll = some (bareAll us') := by
    rw [resolvedUnits?_eq, ← resolveUnits_bare, ← hunits, resolveUnits_bare, ← hlevel, ← resolvedUnits?_eq, hus']
    rfl
  obtain ⟨us, hus, hbare⟩ := Option.map_eq_some_iff.1 hresolved
  have hspread := spreadLevels_countsAs h (charsOf_resolved hus) (charsOf_resolved hus') hbare.symm
  refine ⟨_, paragraph_of_resolved hus, ?_⟩
  rw [paragraph_of_resolved hus', hlevel, hspread]

theorem exists_countsAs (s : List Char) : ∃ s', List.Forall₂ CountsAs s s' := by
  induction s with
  | nil => exact ⟨[], .nil⟩
  | cons c s ih =>
    obtain ⟨s', hs⟩ := ih
    by_cases hclass : assignedClass c = none
    · have hletter : assignedClass 'a' = some .L := by decide +kernel
      exact ⟨'a' :: s', .cons (.letter hclass hletter) hs⟩
    · exact ⟨c :: s', .cons (.itself hclass) hs⟩

/-- A text is analysed just if each of its characters without a class is under an override. Then the analysis is that of
the text with letters in their places, which is analysed in any case. -/
theorem paragraph_of_unassigned (s : List Char) (base : Direction) :
    (OverridesUnassigned s base → ∃ p, paragraph s base = .ok p ∧
      ∀ s', List.Forall₂ CountsAs s s' → paragraph s' base = .ok { p with text := s' }) ∧
    (¬ OverridesUnassigned s base → paragraph s base = .error .unclassified ∧
      ∀ s', List.Forall₂ CountsAs s s' → ∃ p, paragraph s' base = .ok p) := by
  rw [overridesUnassigned_iff, not_not]
  constructor
  · intro hs
    obtain ⟨letters, hletters⟩ := exists_countsAs s
    obtain ⟨p, hp, -⟩ := paragraph_countsAs hletters hs
    refine ⟨p, hp, fun s' h => ?_⟩
    obtain ⟨p', hp', hs'⟩ := paragraph_countsAs h hs
    obtain rfl : p = p' := by simpa using hp.symm.trans hp'
    exact hs'
  · intro hs
    refine ⟨paragraph_of_lacks hs, fun s' h => ?_⟩
    exact paragraph_of_classified (isClassified_of_countsAs h) base

/-- The code point U+0378 is not assigned: behind a letter it stops the analysis, where another letter does not. -/
theorem unassigned_unclassified : assignedClass '\u0378' = none ∧
    paragraph ['a', '\u0378'] .ltr = .error .unclassified ∧
    paragraph ['a', 'b'] .ltr = .ok ⟨['a', 'b'], 0, [⟨.ltr, 0, 2⟩]⟩ := by
  decide +kernel

/-- Under a right-to-left override it is analysed, as a letter in its place is. -/
theorem overridden_countsAs : ¬ Lacks (unitsOf ['\u202E', '\u0378'] .ltr) ∧
    ∃ p, paragraph ['\u202E', '\u0378'] .ltr = .ok p ∧
      paragraph ['\u202E', 'b'] .ltr = .ok { p with text := ['\u202E', 'b'] } := by
  have hs : ¬ Lacks (unitsOf ['\u202E', '\u0378'] .ltr) := by decide +kernel
  exact ⟨hs, paragraph_countsAs (by decide +kernel) hs⟩

end WikiTypeset.Bidi
