import WikiTypeset.Proofs.Bidi.Unassigned
import WikiTypeset.Proofs.Pairs

/-!
# Isolates and the paragraph level

Isolate initiators and PDIs are brackets that may be left unpaired: an isolate without a PDI goes on to the end of the
text, and a PDI without an initiator closes nothing. By rules P2 and P3 the first strong character outside all isolates
decides the paragraph level. The scan for it, which also serves for the content of an isolate of unknown direction, counts
the open isolates and ends at a PDI where none is open. Main statement: `paragraph_decides_iff`, by which such a PDI is
all that can make a difference.
-/

namespace WikiTypeset.Bidi

/-- The bracket around an isolate that the character is. -/
def isolateBracket (c : Char) : Bracket Unit :=
  if (bidiClass c).opensIsolate then .opening () else if bidiClass c = .PDI then .closing () else .neither

/-- The PDI that matches an initiator before `s` stands in `s`. -/
def HasMatch (s : List Char) : Prop :=
  ∃ inside c rest, s = inside ++ c :: rest ∧ isolateBracket c = .closing () ∧ Paired isolateBracket inside

/-- What comes after `s` is in an isolate: one opens in `s`, and the PDI that matches its initiator is not there. -/
def EndsInIsolate (s : List Char) : Prop :=
  ∃ before c after, s = before ++ c :: after ∧ isolateBracket c = .opening () ∧ ¬ HasMatch after

/-- A PDI after `s` matches an initiator in `s`. -/
def AwaitsClosing (s : List Char) : Prop :=
  ∃ before c inside, s = before ++ c :: inside ∧ isolateBracket c = .opening () ∧ Paired isolateBracket inside

/-- The level that a letter of the class implies. -/
def BidiClass.strongLevel? : BidiClass → Option Nat
  | .L => some 0
  | .R | .AL => some 1
  | _ => none

/-- A strong character that implies the level stands at an offset, outside every isolate. -/
def IsOutside (s : List Char) (i level : Nat) : Prop :=
  ∃ c, s[i]? = some c ∧ (bidiClass c).strongLevel? = some level ∧ ¬ EndsInIsolate (s.take i)

/-- A PDI that matches no initiator stands at an offset. -/
def IsStray (s : List Char) (i : Nat) : Prop :=
  ∃ c, s[i]? = some c ∧ bidiClass c = .PDI ∧ ¬ AwaitsClosing (s.take i)

/-- The first strong character outside every isolate stands at an offset, and implies the level. -/
structure IsFirstOutside (s : List Char) (i level : Nat) : Prop where
  outside : IsOutside s i level
  first : ∀ j < i, ∀ level', ¬ IsOutside s j level'

/-- The level is the one that the first strong character outside every isolate implies, and that of the base direction if
there is no such character. -/
def IsDecided (s : List Char) (base : Direction) (level : Nat) : Prop :=
  (∃ i, IsFirstOutside s i level) ∨ (∀ i level', ¬ IsOutside s i level') ∧ level = base.level

theorem IsFirstOutside.eq {s : List Char} {i j level level' : Nat} (h : IsFirstOutside s i level)
    (h' : IsFirstOutside s j level') : i = j ∧ level = level' := by
  have hij : i = j := by
    rcases Nat.lt_trichotomy i j with hlt | heq | hlt
    · exact absurd h.outside (h'.first i hlt level)
    · exact heq
    · exact absurd h'.outside (h.first j hlt level')
  subst hij
  obtain ⟨c, hc, hlevel, -⟩ := h.outside
  obtain ⟨c', hc', hlevel', -⟩ := h'.outside
  obtain rfl : c = c' := Option.some.inj (hc.symm.trans hc')
  exact ⟨rfl, Option.some.inj (hlevel.symm.trans hlevel')⟩

/-! ### Counting open isolates -/

/-- The number of open isolates after a character, if there were `n` before it. -/
def depthStep (n : Nat) (c : Char) : Nat :=
  match isolateBracket c with
  | .opening _ => n + 1
  | .closing _ => n - 1
  | .neither => n

/-- The number of open isolates after some characters. -/
def isolateDepth (n : Nat) (s : List Char) : Nat := s.foldl depthStep n

theorem isolateDepth_append (n : Nat) (s t : List Char) : isolateDepth n (s ++ t) = isolateDepth (isolateDepth n s) t :=
  List.foldl_append

theorem isolateDepth_of_paired {s : List Char} (h : Paired isolateBracket s) (n : Nat) : isolateDepth n s = n := by
  induction h generalizing n with
  | nil => rfl
  | @neither c s hc _ ih =>
    have hstep : depthStep n c = n := by rw [depthStep, hc]
    show isolateDepth (depthStep n c) s = n
    rw [hstep, ih]
  | @pair a c _ inside rest ha hc _ _ ih ih' =>
    have hopen : depthStep n a = n + 1 := by rw [depthStep, ha]
    have hclose : depthStep (n + 1) c = n := by rw [depthStep, hc]; rfl
    show isolateDepth (depthStep n a) (inside ++ c :: rest) = n
    rw [hopen, isolateDepth_append, ih]
    show isolateDepth (depthStep (n + 1) c) rest = n
    rw [hclose, ih']

/-- If fewer isolates are open in the end, the innermost one has been closed. -/
theorem exists_match {n : Nat} {s : List Char} (h : isolateDepth (n + 1) s ≤ n) :
    ∃ inside c rest, s = inside ++ c :: rest ∧ isolateBracket c = .closing () ∧ Paired isolateBracket inside ∧
      isolateDepth n rest = isolateDepth (n + 1) s := by
  induction hlength : s.length using Nat.strongRecOn generalizing n s with
  | ind k ih =>
    cases s with
    | nil => exact absurd h (Nat.not_succ_le_self n)
    | cons a s =>
      rw [List.length_cons] at hlength
      have hsplit : isolateDepth (n + 1) (a :: s) = isolateDepth (depthStep (n + 1) a) s := rfl
      rw [hsplit] at h ⊢
      cases ha : isolateBracket a with
      | closing =>
        have hstep : depthStep (n + 1) a = n := by rw [depthStep, ha]; rfl
        rw [hstep]
        exact ⟨[], a, s, rfl, ha, .nil, rfl⟩
      | neither =>
        have hstep : depthStep (n + 1) a = n + 1 := by rw [depthStep, ha]
        rw [hstep] at h ⊢
        obtain ⟨inside, c, rest, rfl, hc, hinside, hdepth⟩ := ih s.length (by omega) h rfl
        exact ⟨a :: inside, c, rest, rfl, hc, .neither ha hinside, hdepth⟩
      | opening =>
        have hstep : depthStep (n + 1) a = n + 2 := by rw [depthStep, ha]
        rw [hstep] at h ⊢
        -- The isolate that opens here is closed first, and the one asked for behind it.
        obtain ⟨inner, c, rest, rfl, hc, hinner, hdepth⟩ := ih s.length (by omega) (Nat.le_succ_of_le h) rfl
        rw [List.length_append, List.length_cons] at hlength
        rw [← hdepth] at h ⊢
        obtain ⟨inside, c', rest', rfl, hc', hinside, hdepth'⟩ := ih rest.length (by omega) h rfl
        refine ⟨a :: (inner ++ c :: inside), c', rest', ?_, hc', .pair ha hc hinner hinside, hdepth'⟩
        simp

/-- If an isolate is open in the end, the innermost one has only paired isolates in it. -/
theorem awaitsClosing_of_pos {s : List Char} (h : 0 < isolateDepth 0 s) : AwaitsClosing s := by
  induction hlength : s.length using Nat.strongRecOn generalizing s with
  | ind k ih =>
    rcases List.eq_nil_or_concat' s with rfl | ⟨t, a, rfl⟩
    · exact absurd h (Nat.lt_irrefl 0)
    · rw [List.length_append, List.length_singleton] at hlength
      have hlast : isolateDepth 0 (t ++ [a]) = depthStep (isolateDepth 0 t) a := isolateDepth_append 0 t [a]
      rw [hlast, depthStep] at h
      cases ha : isolateBracket a with
      | opening => exact ⟨t, a, [], rfl, ha, .nil⟩
      | neither =>
        rw [ha] at h
        obtain ⟨before, c, inside, rfl, hc, hinside⟩ := ih t.length (by omega) h rfl
        exact ⟨before, c, inside ++ [a], by simp, hc, hinside.append (.neither ha .nil)⟩
      | closing =>
        -- The innermost isolate is closed here, and it stands in another one.
        rw [ha] at h
        have htwo : 1 < isolateDepth 0 t := Nat.lt_of_sub_pos h
        obtain ⟨before, c, inside, rfl, hc, hinside⟩ := ih t.length (by omega) (by omega) rfl
        have hdepth : isolateDepth 0 (before ++ c :: inside) = isolateDepth 0 before + 1 := by
          have hopen : depthStep (isolateDepth 0 before) c = isolateDepth 0 before + 1 := by rw [depthStep, hc]
          rw [isolateDepth_append]
          show isolateDepth (depthStep (isolateDepth 0 before) c) inside = _
          rw [hopen, isolateDepth_of_paired hinside]
        rw [List.length_append, List.length_cons] at hlength
        obtain ⟨before', c', inside', rfl, hc', hinside'⟩ := ih before.length (by omega) (by omega) rfl
        exact ⟨before', c', inside' ++ c :: (inside ++ [a]), by simp, hc', hinside'.concat hc ha hinside⟩

theorem AwaitsClosing.endsInIsolate {s : List Char} (h : AwaitsClosing s) : EndsInIsolate s := by
  obtain ⟨before, c, inside, rfl, hc, hinside⟩ := h
  refine ⟨before, c, inside, rfl, hc, ?_⟩
  rintro ⟨inner, c', rest, rfl, hc', hinner⟩
  -- A paired word closes nothing that is not opened in it.
  have hopen := paired_iff.1 hinside
  rw [openAfter_append, hinner.openAfter_eq, Option.bind_some, openAfter_closing hc'] at hopen
  cases hopen

theorem EndsInIsolate.pos {s : List Char} (h : EndsInIsolate s) : 0 < isolateDepth 0 s := by
  obtain ⟨before, c, after, rfl, hc, hmatch⟩ := h
  have hopen : depthStep (isolateDepth 0 before) c = isolateDepth 0 before + 1 := by rw [depthStep, hc]
  rw [isolateDepth_append]
  show 0 < isolateDepth (depthStep (isolateDepth 0 before) c) after
  rw [hopen]
  by_contra hnone
  obtain ⟨inside, c', rest, heq, hc', hinside, -⟩ :=
    exists_match (n := isolateDepth 0 before) (s := after) (by omega)
  exact hmatch ⟨inside, c', rest, heq, hc', hinside⟩

theorem endsInIsolate_iff (s : List Char) : EndsInIsolate s ↔ 0 < isolateDepth 0 s :=
  ⟨EndsInIsolate.pos, fun h => (awaitsClosing_of_pos h).endsInIsolate⟩

instance (s : List Char) : Decidable (EndsInIsolate s) := decidable_of_iff _ (endsInIsolate_iff s).symm

theorem awaitsClosing_iff (s : List Char) : AwaitsClosing s ↔ 0 < isolateDepth 0 s :=
  ⟨fun h => h.endsInIsolate.pos, awaitsClosing_of_pos⟩

/-! ### The scan -/

/-- `IsOutside` where `n` isolates are open already. -/
def IsOutsideFrom (n : Nat) (s : List Char) (i level : Nat) : Prop :=
  ∃ c, s[i]? = some c ∧ (bidiClass c).strongLevel? = some level ∧ isolateDepth n (s.take i) = 0

/-- `IsStray` where `n` isolates are open already. -/
def IsStrayFrom (n : Nat) (s : List Char) (i : Nat) : Prop :=
  ∃ c, s[i]? = some c ∧ bidiClass c = .PDI ∧ isolateDepth n (s.take i) = 0

theorem isOutside_iff (s : List Char) (i level : Nat) : IsOutside s i level ↔ IsOutsideFrom 0 s i level := by
  simp only [IsOutside, IsOutsideFrom, endsInIsolate_iff, Nat.pos_iff_ne_zero, not_not]

theorem isStray_iff (s : List Char) (i : Nat) : IsStray s i ↔ IsStrayFrom 0 s i := by
  simp only [IsStray, IsStrayFrom, awaitsClosing_iff, Nat.pos_iff_ne_zero, not_not]

theorem isOutsideFrom_zero {n : Nat} {c : Char} {s : List Char} {level : Nat} :
    IsOutsideFrom n (c :: s) 0 level ↔ (bidiClass c).strongLevel? = some level ∧ n = 0 := by
  constructor
  · rintro ⟨c', hc', hlevel, hdepth⟩
    obtain rfl := Option.some.inj hc'
    exact ⟨hlevel, hdepth⟩
  · rintro ⟨hlevel, hn⟩
    exact ⟨c, rfl, hlevel, hn⟩

theorem isStrayFrom_zero {n : Nat} {c : Char} {s : List Char} :
    IsStrayFrom n (c :: s) 0 ↔ bidiClass c = .PDI ∧ n = 0 := by
  constructor
  · rintro ⟨c', hc', hclass, hdepth⟩
    obtain rfl := Option.some.inj hc'
    exact ⟨hclass, hdepth⟩
  · rintro ⟨hclass, hn⟩
    exact ⟨c, rfl, hclass, hn⟩

theorem isOutsideFrom_succ {n : Nat} {c : Char} {s : List Char} {i level : Nat} :
    IsOutsideFrom n (c :: s) (i + 1) level ↔ IsOutsideFrom (depthStep n c) s i level := Iff.rfl

/-- The scan ends at a PDI and at a strong character outside the isolates, and goes on behind any other character. -/
theorem firstStrongFrom_cons (n : Nat) (c : Char) (s : List Char) :
    firstStrongFrom n (c :: s) = if n = 0 ∧ bidiClass c = .PDI then none
      else if n = 0 ∧ (bidiClass c).strongLevel?.isSome = true then (bidiClass c).strongLevel?
      else firstStrongFrom (depthStep n c) s := by
  rw [firstStrongFrom, depthStep, isolateBracket]
  cases bidiClass c <;> cases n <;> simp [BidiClass.opensIsolate, BidiClass.strongLevel?]

/-- The scan finds the first strong character outside the isolates unless it comes to a PDI first that closes none. -/
theorem firstStrongFrom_eq_some_iff {n : Nat} {s : List Char} {level : Nat} :
    firstStrongFrom n s = some level ↔ ∃ i, IsOutsideFrom n s i level ∧
      ∀ j < i, ¬ IsStrayFrom n s j ∧ ∀ level', ¬ IsOutsideFrom n s j level' := by
  induction s generalizing n with
  | nil =>
    constructor
    · nofun
    · rintro ⟨i, ⟨c, hc, -⟩, -⟩
      cases hc
  | cons c s ih =>
    rw [firstStrongFrom_cons]
    by_cases hstray : n = 0 ∧ bidiClass c = .PDI
    · rw [if_pos hstray]
      refine ⟨nofun, ?_⟩
      rintro ⟨_ | i, houtside, hfirst⟩
      · rw [isOutsideFrom_zero, hstray.2] at houtside
        cases houtside.1
      · exact absurd (isStrayFrom_zero.2 hstray.symm) (hfirst 0 (Nat.succ_pos i)).1
    · rw [if_neg hstray]
      by_cases hstrong : n = 0 ∧ (bidiClass c).strongLevel?.isSome = true
      · rw [if_pos hstrong]
        constructor
        · intro hlevel
          exact ⟨0, isOutsideFrom_zero.2 ⟨hlevel, hstrong.1⟩, nofun⟩
        · rintro ⟨_ | i, houtside, hfirst⟩
          · exact (isOutsideFrom_zero.1 houtside).1
          · obtain ⟨level', hlevel'⟩ := Option.isSome_iff_exists.1 hstrong.2
            exact absurd (isOutsideFrom_zero.2 ⟨hlevel', hstrong.1⟩) ((hfirst 0 (Nat.succ_pos i)).2 level')
      · rw [if_neg hstrong, ih]
        have hhead : ¬ IsStrayFrom n (c :: s) 0 ∧ ∀ level', ¬ IsOutsideFrom n (c :: s) 0 level' := by
          refine ⟨fun h => hstray (isStrayFrom_zero.1 h).symm, fun level' h => ?_⟩
          obtain ⟨hlevel', hn⟩ := isOutsideFrom_zero.1 h
          exact hstrong ⟨hn, Option.isSome_iff_exists.2 ⟨level', hlevel'⟩⟩
        constructor
        · rintro ⟨i, houtside, hfirst⟩
          refine ⟨i + 1, isOutsideFrom_succ.2 houtside, ?_⟩
          rintro (_ | j) hj
          · exact hhead
          · exact hfirst j (Nat.lt_of_succ_lt_succ hj)
        · rintro ⟨_ | i, houtside, hfirst⟩
          · exact absurd houtside (hhead.2 level)
          · exact ⟨i, isOutsideFrom_succ.1 houtside, fun j hj => hfirst (j + 1) (Nat.succ_lt_succ hj)⟩

theorem firstStrong_eq_some_iff {s : List Char} {level : Nat} :
    firstStrong s = some level ↔ ∃ i, IsFirstOutside s i level ∧ ∀ j < i, ¬ IsStray s j := by
  rw [firstStrong, firstStrongFrom_eq_some_iff]
  constructor
  · rintro ⟨i, houtside, hfirst⟩
    refine ⟨i, ⟨(isOutside_iff s i level).2 houtside, fun j hj level' h => ?_⟩, fun j hj h => ?_⟩
    · exact (hfirst j hj).2 level' ((isOutside_iff s j level').1 h)
    · exact (hfirst j hj).1 ((isStray_iff s j).1 h)
  · rintro ⟨i, hfirst, hnone⟩
    refine ⟨i, (isOutside_iff s i level).1 hfirst.outside, fun j hj => ⟨fun h => ?_, fun level' h => ?_⟩⟩
    · exact hnone j hj ((isStray_iff s j).2 h)
    · exact hfirst.first j hj level' ((isOutside_iff s j level').2 h)

theorem exists_isFirstOutside {s : List Char} {i level : Nat} (h : IsOutside s i level) :
    ∃ j level', IsFirstOutside s j level' := by
  induction i using Nat.strongRecOn generalizing level with
  | ind i ih =>
    by_cases hearlier : ∃ j < i, ∃ level', IsOutside s j level'
    · obtain ⟨j, hj, level', h'⟩ := hearlier
      exact ih j hj h'
    · refine ⟨i, level, h, fun j hj level' h' => hearlier ⟨j, hj, level', h'⟩⟩

/-! ### Paragraphs -/

/-- The level of a text is the decided one unless a stray PDI hides the character that decides it, and this character has
another level than the base direction. -/
theorem isDecided_paragraphLevel_iff (s : List Char) (base : Direction) :
    IsDecided s base (paragraphLevel s base) ↔
      ∀ i level, IsFirstOutside s i level → (∃ j < i, IsStray s j) → level = base.level := by
  have hnone : ∀ {i level}, IsFirstOutside s i level → (∃ j < i, IsStray s j) → firstStrong s = none := by
    rintro i level hfirst ⟨j, hj, hstray⟩
    cases hstrong : firstStrong s with
    | none => rfl
    | some level' =>
      obtain ⟨i', hfirst', hclear⟩ := firstStrong_eq_some_iff.1 hstrong
      obtain ⟨rfl, -⟩ := hfirst.eq hfirst'
      exact absurd hstray (hclear j hj)
  unfold paragraphLevel
  constructor
  · intro hdecided i level hfirst hstray
    rw [hnone hfirst hstray, Option.getD_none] at hdecided
    rcases hdecided with ⟨i', hfirst'⟩ | ⟨hnever, -⟩
    · exact (hfirst.eq hfirst').2
    · exact absurd hfirst.outside (hnever i level)
  · intro hstrays
    by_cases hsome : ∃ i level, IsOutside s i level
    · obtain ⟨i, level, houtside⟩ := hsome
      obtain ⟨i, level, hfirst⟩ := exists_isFirstOutside houtside
      by_cases hstray : ∃ j < i, IsStray s j
      · rw [hnone hfirst hstray, Option.getD_none]
        exact .inl ⟨i, hstrays i level hfirst hstray ▸ hfirst⟩
      · have hstrong : firstStrong s = some level :=
          firstStrong_eq_some_iff.2 ⟨i, hfirst, fun j hj h => hstray ⟨j, hj, h⟩⟩
        rw [hstrong, Option.getD_some]
        exact .inl ⟨i, hfirst⟩
    · have hweak : firstStrong s = none := by
        cases hstrong : firstStrong s with
        | none => rfl
        | some level =>
          obtain ⟨i, hfirst, -⟩ := firstStrong_eq_some_iff.1 hstrong
          exact absurd ⟨i, level, hfirst.outside⟩ hsome
      rw [hweak, Option.getD_none]
      exact .inr ⟨fun i level h => hsome ⟨i, level, h⟩, rfl⟩

theorem level_of_paragraph {s : List Char} {base : Direction} {p : Paragraph} (h : paragraph s base = .ok p) :
    p.level = paragraphLevel s base := by
  unfold paragraph at h
  by_cases hempty : s.isEmpty = true
  · simp only [hempty, if_true] at h
    obtain rfl := Except.ok.inj h
    rfl
  · simp only [hempty, Bool.false_eq_true, if_false] at h
    cases hlevels : levels (isolatesAsEmbeddings s) (paragraphLevel s base) with
    | error cause =>
      rw [hlevels] at h
      cases h
    | ok ls =>
      rw [hlevels] at h
      obtain rfl := Except.ok.inj h
      rfl

theorem exists_paragraph_iff (s : List Char) (base : Direction) :
    (∃ p, paragraph s base = .ok p) ↔ OverridesUnassigned s base := by
  rw [overridesUnassigned_iff]
  constructor
  · rintro ⟨p, hp⟩ hlacks
    rw [paragraph_of_lacks hlacks] at hp
    cases hp
  · intro hlacks
    obtain ⟨s', hs'⟩ := exists_countsAs s
    obtain ⟨p, hp, -⟩ := paragraph_countsAs hs' hlacks
    exact ⟨p, hp⟩

/-- A text is analysed with the level that the first strong character outside every isolate decides just if all its
characters without a class are under overrides, and no PDI that matches no initiator comes before that character, as long
as it does not have the level of the base direction anyway. -/
theorem paragraph_decides_iff (s : List Char) (base : Direction) :
    (∃ p, paragraph s base = .ok p ∧ IsDecided s base p.level) ↔
      OverridesUnassigned s base ∧
        ∀ i level, IsFirstOutside s i level → (∃ j < i, IsStray s j) → level = base.level := by
  rw [← exists_paragraph_iff, ← isDecided_paragraphLevel_iff]
  constructor
  · rintro ⟨p, hp, hdecided⟩
    rw [level_of_paragraph hp] at hdecided
    exact ⟨⟨p, hp⟩, hdecided⟩
  · rintro ⟨⟨p, hp⟩, hdecided⟩
    refine ⟨p, hp, ?_⟩
    rwa [level_of_paragraph hp]

/-- A PDI that matches nothing, and a right-to-left letter. -/
def strayText : List Char := ['\u2069', '\u05D0']

/-- The letter decides the level, but the text is analysed with the level of its base direction. -/
theorem strayText_misses : paragraph strayText .ltr = .ok ⟨strayText, 0, [⟨.ltr, 0, 1⟩, ⟨.rtl, 1, 2⟩]⟩ ∧
    IsDecided strayText .ltr 1 ∧ ¬ IsDecided strayText .ltr 0 := by
  have hanalysed : paragraph strayText .ltr = .ok ⟨strayText, 0, [⟨.ltr, 0, 1⟩, ⟨.rtl, 1, 2⟩]⟩ := by decide +kernel
  have hstrong : (bidiClass '\u05D0').strongLevel? = some 1 ∧ (bidiClass '\u2069').strongLevel? = none ∧
      ¬ EndsInIsolate (strayText.take 1) := by
    decide +kernel
  have hfirst : IsFirstOutside strayText 1 1 := by
    refine ⟨⟨'\u05D0', rfl, hstrong.1, hstrong.2.2⟩, ?_⟩
    rintro j hj level' ⟨c, hc, hlevel, -⟩
    obtain rfl := Nat.lt_one_iff.1 hj
    obtain rfl := Option.some.inj hc
    rw [hstrong.2.1] at hlevel
    cases hlevel
  refine ⟨hanalysed, .inl ⟨1, hfirst⟩, ?_⟩
  rintro (⟨i, hzero⟩ | ⟨hnever, -⟩)
  · cases (hfirst.eq hzero).2
  · exact hnever 1 1 hfirst.outside

end WikiTypeset.Bidi
