import Mathlib.Data.List.Chain
import WikiTypeset.Proofs.Bidi.Partition

/-!
# The levels behind the runs

Levels are resolved for the characters that the explicit rules keep, and spread from them over the text. The rules treat
every unit at its place: none is lost, added or moved, so the levels come back in the order of the kept characters.
Main statement: `paragraph_isAnalysis`, by which each run has the direction of its characters' levels.
-/

namespace WikiTypeset.Bidi

/-- Whether the levels of a character are resolved: isolate controls are gone by then, and others are removed. -/
def isKept (c : Char) : Bool :=
  !((bidiClass c).opensIsolate || bidiClass c == .PDI || isRemoved (assignedClass c))

/-- How many kept characters stand before an offset. -/
def keptBefore (s : List Char) (i : Nat) : Nat := (s.take i).countP isKept

/-- The kept characters of a text as the rules resolve them. -/
def resolvedUnits? (s : List Char) (base : Direction) : Option (List LevelUnit) :=
  resolveUnits (paragraphLevel s base)
    (explicitUnits (paragraphLevel s base) ((isolatesAsEmbeddings s).map fun c => (c, assignedClass c)))

/-- Levels of a text for the resolved units of its kept characters. -/
structure IsLevelling (s : List Char) (base : Nat) (units : List LevelUnit) (ls : List Nat) : Prop where
  length_eq : ls.length = s.length
  /-- A kept character has the level of its own unit. -/
  kept : ∀ i c, s[i]? = some c → isKept c = true →
    ∃ u, units[keptBefore s i]? = some u ∧ u.char = c ∧ ls[i]? = some u.level
  /-- A removed one has the level of the nearest kept one before it, as have all between them. -/
  inherited : ∀ i j, j < i → i < s.length → (∀ k c, j < k → k ≤ i → s[k]? = some c → isKept c = false) →
    ls[i]? = ls[j]?
  /-- Before the first kept one they have the paragraph level. -/
  initial : ∀ i, i < s.length → (∀ k c, k ≤ i → s[k]? = some c → isKept c = false) → ls[i]? = some base

/-- What the analysis of a text is, with `units` as the resolved units of its kept characters. -/
structure Paragraph.IsAnalysis (p : Paragraph) (s : List Char) (base : Direction) (units : List LevelUnit) : Prop where
  text_eq : p.text = s
  level_eq : p.level = paragraphLevel s base
  contiguous : Contiguous 0 p.runs s.length
  alternating : p.runs.IsChain fun r r' => r.direction ≠ r'.direction
  runAt_eq_some : ∀ (i : Nat) (r : Run), p.runAt i = some r ↔ r ∈ p.runs ∧ r.start ≤ i ∧ i < r.stop
  runAt_eq_none : ∀ i : Int, p.runAt i = none ↔ i < 0 ∨ (s.length : Int) ≤ i
  units_kept : units.map (·.char) = s.filter isKept
  levelling : ∃ ls, IsLevelling s (paragraphLevel s base) units ls ∧
    ∀ (i : Nat) (r : Run), p.runAt i = some r → ls[i]?.map Direction.ofLevel = some r.direction

/-! ### Runs -/

theorem runsFrom_alternating (start : Nat) (ls : List Nat) :
    (runsFrom start ls).IsChain fun r r' => r.direction ≠ r'.direction := by
  induction ls generalizing start with
  | nil => simp [runsFrom]
  | cons level rest ih =>
    have ih := ih (start + 1)
    rw [runsFrom]
    cases hr : runsFrom (start + 1) rest with
    | nil => simp
    | cons r rs =>
      rw [hr] at ih
      dsimp only
      split
      next hsame =>
        cases rs with
        | nil => simp
        | cons r' rs => simpa [List.isChain_cons_cons] using ih
      next hother => exact List.isChain_cons_cons.2 ⟨fun h => hother h.symm, ih⟩

/-- A run has the direction of every level in it. -/
theorem direction_of_mem_runsFrom {start : Nat} {ls : List Nat} {r : Run} (hr : r ∈ runsFrom start ls) {k : Nat}
    (hstart : r.start ≤ start + k) (hstop : start + k < r.stop) : ls[k]?.map Direction.ofLevel = some r.direction := by
  induction ls generalizing start r k with
  | nil => simp [runsFrom] at hr
  | cons level rest ih =>
    have hcontiguous := contiguous_runsFrom (start + 1) rest
    -- The runs of the rest begin behind `start`, and only the first of them may be extended to it.
    have hrest : ∀ r' ∈ runsFrom (start + 1) rest, r'.start ≤ start + k → start + k < r'.stop →
        (level :: rest)[k]?.map Direction.ofLevel = some r'.direction := by
      intro r' hr' hstart' hstop'
      have hle := hcontiguous.le_start hr'
      cases k with
      | zero => omega
      | succ k => exact ih hr' (by omega) (by omega)
    have hsingle : start + k < start + 1 →
        (level :: rest)[k]?.map Direction.ofLevel = some (Direction.ofLevel level) := by
      intro hlt
      have hk : k = 0 := by omega
      simp [hk]
    rw [runsFrom] at hr
    cases hruns : runsFrom (start + 1) rest with
    | nil =>
      rw [hruns] at hr
      obtain rfl := List.mem_singleton.1 hr
      exact hsingle hstop
    | cons first others =>
      rw [hruns] at hr hrest hcontiguous
      dsimp only at hr
      split at hr
      next hsame =>
        rcases List.mem_cons.1 hr with rfl | hr
        · have hfirst : first.start = start + 1 := hcontiguous.1
          rcases Nat.eq_zero_or_pos k with rfl | hk
          · simpa using hsame.symm
          · exact hrest first (by simp) (by omega) hstop
        · exact hrest r (by simp [hr]) hstart hstop
      next =>
        rcases List.mem_cons.1 hr with rfl | hr
        · exact hsingle hstop
        · exact hrest r hr hstart hstop

/-! ### Characters under the rules -/

/-- The characters of some units. -/
def charsOf (us : List LevelUnit) : List Char := us.map (·.char)

@[simp] theorem charsOf_nil : charsOf [] = [] := rfl

@[simp] theorem charsOf_cons (u : LevelUnit) (us : List LevelUnit) : charsOf (u :: us) = u.char :: charsOf us := rfl

@[simp] theorem charsOf_reverse (us : List LevelUnit) : charsOf us.reverse = (charsOf us).reverse := List.map_reverse

theorem charsOf_flatten (uss : List (List LevelUnit)) : charsOf uss.flatten = uss.flatMap charsOf := List.map_flatten

theorem charsOf_map {f : LevelUnit → LevelUnit} (h : ∀ u, (f u).char = u.char) (us : List LevelUnit) :
    charsOf (us.map f) = charsOf us := by
  simp [charsOf, h]

theorem explicitStep_char (base : Nat) (e : Embedding) (c : Char) (cls : Option BidiClass) :
    (explicitStep base e c cls).2.map (·.char) = if isRemoved cls then none else some c := by
  cases cls with
  | none => rfl
  | some cls => cases cls <;> rfl

theorem charsOf_explicitUnitsFrom (base : Nat) (e : Embedding) (cs : List (Char × Option BidiClass)) :
    charsOf (explicitUnitsFrom base e cs) = (cs.filter fun x => !isRemoved x.2).map (·.1) := by
  induction cs generalizing e with
  | nil => rfl
  | cons x cs ih =>
    obtain ⟨c, cls⟩ := x
    have hchar := explicitStep_char base e c cls
    rw [explicitUnitsFrom]
    split
    next e' u hstep =>
      rw [hstep] at hchar
      by_cases hremoved : isRemoved cls = true
      · simp [hremoved] at hchar
      · simp only [hremoved, Option.map_some, Bool.false_eq_true, if_false, Option.some.injEq] at hchar
        simp [hremoved, hchar, ih]
    next e' hstep =>
      rw [hstep] at hchar
      by_cases hremoved : isRemoved cls = true
      · simpa [hremoved] using ih e'
      · simp [hremoved] at hchar

theorem charsOf_resolveMarks (strong previous : Option BidiClass) (us : List LevelUnit) :
    charsOf (resolveMarks strong previous us) = charsOf us := by
  induction us generalizing strong previous with
  | nil => rfl
  | cons u us ih => simp [resolveMarks, ih]

theorem charsOf_resolveArabic (us : List LevelUnit) : charsOf (resolveArabic us) = charsOf us := by
  refine charsOf_map (fun u => ?_) us
  split <;> rfl

theorem charsOf_resolveSeparators (previous : Option BidiClass) (us : List LevelUnit) :
    charsOf (resolveSeparators previous us) = charsOf us := by
  fun_induction resolveSeparators previous us with
  | case1 | case2 => rfl
  | case3 previous u v us u' ih => simpa [u'] using ih

theorem charsOf_extendNumbers (afterNumber : Bool) (us : List LevelUnit) :
    charsOf (extendNumbers afterNumber us) = charsOf us := by
  fun_induction extendNumbers afterNumber us with
  | case1 => rfl
  | case2 | case3 | case4 => simp_all

theorem charsOf_resolveTerminators (us : List LevelUnit) : charsOf (resolveTerminators us) = charsOf us := by
  simp [resolveTerminators, charsOf_extendNumbers]

theorem charsOf_resolveLoose (us : List LevelUnit) : charsOf (resolveLoose us) = charsOf us := by
  refine charsOf_map (fun u => ?_) us
  split <;> rfl

theorem charsOf_resolveNumbers (strong : Option BidiClass) (us : List LevelUnit) :
    charsOf (resolveNumbers strong us) = charsOf us := by
  induction us generalizing strong with
  | nil => rfl
  | cons u us ih => simp [resolveNumbers, ih]

theorem charsOf_resolveWeak (before : BidiClass) (us : List LevelUnit) :
    charsOf (resolveWeak before us) = charsOf us := by
  simp only [resolveWeak]
  rw [charsOf_resolveNumbers, charsOf_resolveLoose, charsOf_resolveTerminators, charsOf_resolveSeparators,
    charsOf_resolveArabic, charsOf_resolveMarks]

theorem charsOf_resolveNeutral (previous after : Option BidiClass) (us : List LevelUnit) :
    charsOf (resolveNeutral previous after us) = charsOf us := by
  fun_induction resolveNeutral previous after us with
  | case1 => rfl
  | case2 | case3 => simp_all

theorem charsOf_resolveRun (r : LevelRun) : charsOf (resolveRun r) = charsOf r.units :=
  (charsOf_resolveNeutral _ _ _).trans (charsOf_resolveWeak _ _)

theorem flatten_stretches (us : List LevelUnit) : (stretches us).flatten = us := by
  induction us with
  | nil => rfl
  | cons u us ih =>
    rw [stretches]
    split
    next heq => simp_all
    next heq => simp_all
    next heq => split <;> simp_all

theorem units_levelRunsFrom (base previous : Nat) (ss : List (List LevelUnit)) :
    (levelRunsFrom base previous ss).map (·.units) = ss := by
  induction ss generalizing previous with
  | nil => rfl
  | cons s ss ih => simp [levelRunsFrom, ih]

theorem charsOf_resolveRuns (base : Nat) (us : List LevelUnit) :
    charsOf ((levelRuns base us).flatMap resolveRun) = charsOf us := by
  have hunits : (levelRuns base us).flatMap (·.units) = us := by
    rw [levelRuns, List.flatMap, units_levelRunsFrom, flatten_stretches]
  calc charsOf ((levelRuns base us).flatMap resolveRun)
      = (levelRuns base us).flatMap fun r => charsOf (resolveRun r) := by
        rw [List.flatMap, charsOf_flatten, List.flatMap_map]
    _ = (levelRuns base us).flatMap fun r => charsOf r.units := by simp only [charsOf_resolveRun]
    _ = charsOf ((levelRuns base us).flatMap (·.units)) := by
        rw [List.flatMap, List.flatMap, charsOf_flatten, List.flatMap_map, List.flatMap]
    _ = charsOf us := by rw [hunits]

theorem settle?_char {u v : LevelUnit} (h : settle? u = some v) : v.char = u.char := by
  obtain ⟨level, -, rfl⟩ := Option.map_eq_some_iff.1 h
  rfl

theorem charsOf_settled {us vs : List LevelUnit} (h : us.mapM settle? = some vs) : charsOf vs = charsOf us := by
  induction us generalizing vs with
  | nil =>
    obtain rfl : [] = vs := by simpa using h
    rfl
  | cons u us ih =>
    simp only [List.mapM_cons, Option.bind_eq_bind, Option.bind_eq_some_iff, Option.pure_def, Option.some.injEq] at h
    obtain ⟨v, hv, vs, hvs, rfl⟩ := h
    rw [charsOf_cons, charsOf_cons, settle?_char hv, ih hvs]

/-- The rules of resolution neither lose nor move a character. -/
theorem charsOf_resolveUnits {base : Nat} {us vs : List LevelUnit} (h : resolveUnits base us = some vs) :
    charsOf vs = charsOf us :=
  (charsOf_settled h).trans (charsOf_resolveRuns base us)

/-! ### Kept characters -/

theorem assignedClass_leftEmbedding : assignedClass leftEmbedding = some .LRE := by decide +kernel

theorem assignedClass_rightEmbedding : assignedClass rightEmbedding = some .RLE := by decide +kernel

theorem assignedClass_popEmbedding : assignedClass popEmbedding = some .PDF := by decide +kernel

theorem assignedClass_space : assignedClass ' ' = some .WS := by decide +kernel

/-- A kept character stays when isolates become embeddings, and what becomes of another one is removed. -/
theorem isolatesAsEmbeddings_cons (c : Char) (s : List Char) :
    ∃ c', isolatesAsEmbeddings (c :: s) = c' :: isolatesAsEmbeddings s ∧ (isKept c = true → c' = c) ∧
      isRemoved (assignedClass c') = !isKept c := by
  have hleft : isRemoved (assignedClass leftEmbedding) = true := by rw [assignedClass_leftEmbedding]; rfl
  have hright : isRemoved (assignedClass rightEmbedding) = true := by rw [assignedClass_rightEmbedding]; rfl
  have hpop : isRemoved (assignedClass popEmbedding) = true := by rw [assignedClass_popEmbedding]; rfl
  refine ⟨_, rfl, ?_⟩
  split
  next hcls => simp [isKept, hcls, hleft, BidiClass.opensIsolate]
  next hcls => simp [isKept, hcls, hright, BidiClass.opensIsolate]
  next hcls =>
    split
    · simp [isKept, hcls, hright, BidiClass.opensIsolate]
    · simp [isKept, hcls, hleft, BidiClass.opensIsolate]
  next hcls => simp [isKept, hcls, hpop]
  next hlri hrli hfsi hpdi =>
    have hopens : (bidiClass c).opensIsolate = false := by
      cases hcls : bidiClass c <;> simp_all [BidiClass.opensIsolate]
    have hpop : (bidiClass c == .PDI) = false := by simpa using hpdi
    simp [isKept, hopens, hpop]

theorem filter_isolatesAsEmbeddings (s : List Char) :
    (isolatesAsEmbeddings s).filter (fun c => !isRemoved (assignedClass c)) = s.filter isKept := by
  induction s with
  | nil => rfl
  | cons c s ih =>
    obtain ⟨c', heq, hsame, hremoved⟩ := isolatesAsEmbeddings_cons c s
    rw [heq]
    cases hkept : isKept c with
    | true =>
      obtain rfl := hsame hkept
      simp [hremoved, hkept, ih]
    | false => simp [hremoved, hkept, ih]

theorem charsOf_explicitUnits (base : Nat) (s : List Char) :
    charsOf (explicitUnits base ((isolatesAsEmbeddings s).map fun c => (c, assignedClass c))) = s.filter isKept := by
  rw [explicitUnits, charsOf_explicitUnitsFrom, List.filter_map, List.map_map, ← filter_isolatesAsEmbeddings]
  simp [Function.comp_def]

theorem keptBefore_cons_succ (c : Char) (s : List Char) (i : Nat) :
    keptBefore (c :: s) (i + 1) = keptBefore s i + if isKept c then 1 else 0 := by
  simp [keptBefore, List.countP_cons]

/-- The level of the last of the first units, or the one before them. -/
def levelAfter (previous : Nat) (units : List LevelUnit) (n : Nat) : Nat :=
  ((units.take n).getLast?.map (·.level)).getD previous

theorem levelAfter_cons (previous : Nat) (u : LevelUnit) (us : List LevelUnit) (n : Nat) :
    levelAfter previous (u :: us) (n + 1) = levelAfter u.level us n := by
  simp only [levelAfter, List.take_succ_cons, List.getLast?_cons]
  cases (us.take n).getLast? <;> rfl

/-- Every character has the level of the last unit up to it. -/
theorem getElem?_spreadLevels {s : List Char} {us : List LevelUnit} (h : charsOf us = s.filter isKept) (previous : Nat)
    {i : Nat} (hi : i < s.length) :
    (spreadLevels previous (isolatesAsEmbeddings s) us)[i]? = some (levelAfter previous us (keptBefore s (i + 1))) := by
  induction s generalizing us previous i with
  | nil => simp at hi
  | cons c s ih =>
    obtain ⟨c', heq, hsame, hremoved⟩ := isolatesAsEmbeddings_cons c s
    rw [heq, keptBefore_cons_succ]
    cases hkept : isKept c with
    | true =>
      obtain rfl := hsame hkept
      cases us with
      | nil => simp [hkept] at h
      | cons u us =>
        obtain ⟨hchar, hrest⟩ : u.char = c' ∧ charsOf us = s.filter isKept := by simpa [hkept] using h
        simp only [spreadLevels, hchar, if_true, levelAfter_cons]
        cases i with
        | zero => simp [keptBefore, levelAfter]
        | succ i => simpa using ih hrest u.level (by simpa using hi)
    | false =>
      have hrest : charsOf us = s.filter isKept := by simpa [hkept] using h
      -- No unit has the character, so all of them wait for the rest.
      have hspread : spreadLevels previous (c' :: isolatesAsEmbeddings s) us =
          previous :: spreadLevels previous (isolatesAsEmbeddings s) us := by
        cases us with
        | nil => rfl
        | cons u us =>
          have hmem : u.char ∈ s.filter isKept := by simp [← hrest]
          have hne : u.char ≠ c' := by
            rintro rfl
            have hkeeps : isKept u.char = true := (List.mem_filter.1 hmem).2
            simp [isKept, hkept ▸ hremoved] at hkeeps
          simp [spreadLevels, hne]
      rw [hspread]
      cases i with
      | zero => simp [keptBefore, levelAfter]
      | succ i => simpa using ih hrest previous (by simpa using hi)

theorem keptBefore_succ {s : List Char} {i : Nat} {c : Char} (hc : s[i]? = some c) :
    keptBefore s (i + 1) = keptBefore s i + if isKept c then 1 else 0 := by
  simp [keptBefore, List.take_add_one, hc, List.countP_singleton]

/-- Without kept characters between them two offsets have as many of them before. -/
theorem keptBefore_eq_of_removed {s : List Char} {i j : Nat} (hij : i ≤ j)
    (h : ∀ k c, i ≤ k → k < j → s[k]? = some c → isKept c = false) : keptBefore s j = keptBefore s i := by
  induction j, hij using Nat.le_induction with
  | base => rfl
  | succ j hij ih =>
    have hinit := ih fun k c hik hkj hc => h k c hik (by omega) hc
    cases hc : s[j]? with
    | some c => rw [keptBefore_succ hc, hinit, h j c hij (by omega) hc]; rfl
    | none => rw [← hinit, keptBefore, keptBefore, List.take_add_one, hc]; simp

/-- A kept character is at the place among the kept ones that counts those before it. -/
theorem getElem?_filter_isKept {s : List Char} {i : Nat} {c : Char} (hc : s[i]? = some c) (hkept : isKept c = true) :
    (s.filter isKept)[keptBefore s i]? = some c := by
  obtain ⟨hi, rfl⟩ := List.getElem?_eq_some_iff.1 hc
  have hsplit : s.filter isKept = (s.take i).filter isKept ++ (s.drop i).filter isKept := by
    rw [← List.filter_append, List.take_append_drop]
  have hlength : keptBefore s i = ((s.take i).filter isKept).length := List.countP_eq_length_filter
  rw [hsplit, hlength, List.getElem?_append_right (Nat.le_refl _), Nat.sub_self, List.drop_eq_getElem_cons hi,
    List.filter_cons_of_pos hkept, List.getElem?_cons_zero]

theorem isLevelling_spreadLevels {s : List Char} {us : List LevelUnit} (h : charsOf us = s.filter isKept) (base : Nat) :
    IsLevelling s base us (spreadLevels base (isolatesAsEmbeddings s) us) where
  length_eq := (length_spreadLevels _ _ _).trans (length_isolatesAsEmbeddings s)
  kept i c hc hkept := by
    have hi : i < s.length := (List.getElem?_eq_some_iff.1 hc).1
    have hchar : (charsOf us)[keptBefore s i]? = some c := by rw [h, getElem?_filter_isKept hc hkept]
    obtain ⟨u, hu, rfl⟩ := Option.map_eq_some_iff.1 ((List.getElem?_map ..).symm.trans hchar)
    refine ⟨u, hu, rfl, ?_⟩
    rw [getElem?_spreadLevels h base hi, keptBefore_succ hc, hkept]
    simp [levelAfter, List.take_add_one, hu]
  inherited i j hji hi hremoved := by
    have hbefore : keptBefore s (i + 1) = keptBefore s (j + 1) :=
      keptBefore_eq_of_removed (by omega) fun k c hjk hki => hremoved k c (by omega) (by omega)
    rw [getElem?_spreadLevels h base hi, getElem?_spreadLevels h base (hji.trans hi), hbefore]
  initial i hi hremoved := by
    have hbefore : keptBefore s (i + 1) = keptBefore s 0 :=
      keptBefore_eq_of_removed (by omega) fun k c _ hki => hremoved k c (by omega)
    rw [getElem?_spreadLevels h base hi, hbefore]
    simp [levelAfter, keptBefore]

/-- The paragraph of a text whose levels can be resolved. -/
theorem paragraph_of_resolved {s : List Char} {base : Direction} {units : List LevelUnit}
    (h : resolvedUnits? s base = some units) :
    paragraph s base = .ok ⟨s, paragraphLevel s base,
      buildRuns (spreadLevels (paragraphLevel s base) (isolatesAsEmbeddings s) units)⟩ := by
  have hlevels : levels (isolatesAsEmbeddings s) (paragraphLevel s base) =
      .ok (spreadLevels (paragraphLevel s base) (isolatesAsEmbeddings s) units) := by
    unfold resolvedUnits? at h
    rw [levels, h]
  unfold paragraph
  cases s with
  | nil => rfl
  | cons c s => simp only [List.isEmpty_cons, Bool.false_eq_true, if_false, hlevels]; rfl

theorem charsOf_resolved {s : List Char} {base : Direction} {units : List LevelUnit}
    (h : resolvedUnits? s base = some units) : charsOf units = s.filter isKept :=
  (charsOf_resolveUnits h).trans (charsOf_explicitUnits _ s)

/-- A text whose levels can be resolved is analysed, and its runs are those of the resolved levels. -/
theorem paragraph_isAnalysis {s : List Char} {base : Direction} {units : List LevelUnit}
    (h : resolvedUnits? s base = some units) : ∃ p, paragraph s base = .ok p ∧ p.IsAnalysis s base units := by
  have hunits := charsOf_resolved h
  have hlevelling := isLevelling_spreadLevels hunits (paragraphLevel s base)
  have hparagraph := paragraph_of_resolved h
  have hpartitions := paragraph_partitions hparagraph
  refine ⟨_, hparagraph, rfl, rfl, hpartitions.contiguous, runsFrom_alternating 0 _,
    fun i r => hpartitions.runAt_eq_some, hpartitions.runAt_eq_none, hunits, _, hlevelling, fun i r hr => ?_⟩
  obtain ⟨hmem, hstart, hstop⟩ := hpartitions.runAt_eq_some.1 hr
  exact direction_of_mem_runsFrom hmem (by omega) (by omega)

/-- A text with a right-to-left isolate, and with removed characters before and in it. -/
def isolatedText : List Char := "\u00ADa\u2067\u05D11\u200F\u00AD\u2069!".toList

/-- The five kept characters of `isolatedText`. -/
def isolatedUnits : List LevelUnit :=
  [⟨'a', 0, some .L⟩, ⟨'\u05D1', 1, some .R⟩, ⟨'1', 2, some .EN⟩, ⟨'\u200F', 1, some .R⟩, ⟨'!', 0, some .L⟩]

theorem isolatedText_isAnalysis : resolvedUnits? isolatedText .ltr = some isolatedUnits ∧
    ∃ p, paragraph isolatedText .ltr = .ok p ∧ p.IsAnalysis isolatedText .ltr isolatedUnits := by
  have hunits : resolvedUnits? isolatedText .ltr = some isolatedUnits := by decide +kernel
  exact ⟨hunits, paragraph_isAnalysis hunits⟩

end WikiTypeset.Bidi
