import WikiTypeset.Formula.Lexeme
import WikiTypeset.Proofs.Formula.Translation

/-!
# Commands that stand apart

The search for command words and the scan for lexemes take a formula apart in different ways where a row break stands
right before letters of the dialect, and where a letter outside ASCII stands right behind a command of the dialect.
Elsewhere the standard form goes on as the formula does behind anything but a backslash: the same characters are letters,
blanks and ligatures there. Main statements: `standardize_cons`, `Apart.standardize_break` and `skipBlanks_standardize`.
-/

namespace WikiTypeset.Formula

open Latex Text

/-! ### Commands that stand apart -/

/-- The first of some tokens is a letter of some script. -/
def startsWithLetter : List TexToken → Bool
  | .char c :: _ => isLetter c
  | _ => false

/-- A command of the dialect is followed directly by a letter, which can be none of ASCII. -/
def RunsIntoLetter : List TexToken → Prop
  | [] => False
  | .word word :: ts =>
    (standardSpelling? (String.ofList word)).isSome = true ∧ startsWithLetter ts = true ∨ RunsIntoLetter ts
  | _ :: ts => RunsIntoLetter ts

instance decidableRunsIntoLetter : (ts : List TexToken) → Decidable (RunsIntoLetter ts)
  | [] => inferInstanceAs (Decidable False)
  | .word _ :: ts => have := decidableRunsIntoLetter ts; inferInstanceAs (Decidable (_ ∧ _ ∨ _))
  | .symbol _ :: ts | .opening :: ts | .closing :: ts | .char _ :: ts | .unpaired :: ts => decidableRunsIntoLetter ts

/-- The commands of the dialect in a formula stand apart from what is around them. -/
structure Apart (s : List Char) : Prop where
  breaks : ¬ BreaksBeforeDialect (texTokens s)
  letters : ¬ RunsIntoLetter (texTokens s)

instance (s : List Char) : Decidable (Apart s) :=
  decidable_of_iff (¬ BreaksBeforeDialect (texTokens s) ∧ ¬ RunsIntoLetter (texTokens s))
    ⟨fun h => ⟨h.1, h.2⟩, fun h => ⟨h.breaks, h.letters⟩⟩

theorem BreaksBeforeDialect.cons {t : TexToken} {ts : List TexToken} (h : BreaksBeforeDialect ts) :
    BreaksBeforeDialect (t :: ts) :=
  .inr h

theorem RunsIntoLetter.cons {t : TexToken} {ts : List TexToken} (h : RunsIntoLetter ts) : RunsIntoLetter (t :: ts) := by
  cases t with
  | word word => exact .inr h
  | symbol | opening | closing | char | unpaired => exact h

theorem isAsciiLetter_bounds {c : Char} (h : isAsciiLetter c = true) :
    (97 ≤ c.toNat ∧ c.toNat ≤ 122) ∨ (65 ≤ c.toNat ∧ c.toNat ≤ 90) := by
  simpa [isAsciiLetter, Char.le_def, UInt32.le_iff_toNat_le] using h

theorem isLetter_of_ascii {c : Char} (h : isAsciiLetter c = true) : isLetter c = true := by
  obtain ⟨rest, hrest⟩ : ∃ rest, letterRanges = (0x41, 0x5A) :: (0x61, 0x7A) :: rest := ⟨_, rfl⟩
  rw [isLetter, hrest]
  simp only [inRanges]
  rcases isAsciiLetter_bounds h with hbounds | hbounds
  · simp [show ¬ c.toNat < 65 by omega, show ¬ c.toNat < 97 by omega, hbounds.2]
  · simp [show ¬ c.toNat < 65 by omega, hbounds.2]

theorem stepPlain_isLetter {c : Char} (hc : isLetter c = true) : TexScan.stepPlain c = ([.char c], .plain) := by
  unfold TexScan.stepPlain
  split
  · exact absurd hc (by decide)
  · exact absurd hc (by decide)
  · exact absurd hc (by decide)
  · rfl

namespace Apart

variable {c : Char} {s s' p : List Char}

theorem of_tokens (h : Apart s) {t : TexToken} (ht : texTokens s = t :: texTokens s') : Apart s' := by
  obtain ⟨hbreaks, hletters⟩ := h
  rw [ht] at hbreaks hletters
  exact ⟨fun h => hbreaks h.cons, fun h => hletters h.cons⟩

/-- A character that is no backslash is read apart from what follows it. -/
theorem cons_iff (hc : c ≠ '\\') : Apart (c :: s) ↔ Apart s := by
  have htoken : ∃ t : TexToken, texTokens (c :: s) = t :: texTokens s ∧ t ≠ .symbol '\\' ∧ ∀ word, t ≠ .word word := by
    simp only [TexScan.tokens, TexScan.step]
    unfold TexScan.stepPlain
    split
    · contradiction
    all_goals exact ⟨_, rfl, by simp, by simp⟩
  obtain ⟨t, ht, hbreak, hword⟩ := htoken
  refine ⟨fun h => h.of_tokens ht, fun h => ⟨fun hbreaks => ?_, fun hruns => ?_⟩⟩
  · rw [ht] at hbreaks
    rcases hbreaks with hhead | hrest
    · exact hbreak hhead.1
    · exact h.breaks hrest
  · rw [ht] at hruns
    refine h.letters ?_
    cases t with
    | word word => exact absurd rfl (hword word)
    | symbol | opening | closing | char | unpaired => exact hruns

/-- What follows something with no backslash in it stands apart in itself. -/
theorem of_append (h : Apart (p ++ s)) (hp : '\\' ∉ p) : Apart s := by
  induction p with
  | nil => exact h
  | cons c p ih =>
    simp only [List.mem_cons, not_or] at hp
    exact ih ((cons_iff (Ne.symm hp.1)).1 h) hp.2

theorem of_symbol (h : Apart ('\\' :: c :: s)) (hc : isAsciiLetter c = false) : Apart s := by
  have htokens : texTokens ('\\' :: c :: s) = .symbol c :: texTokens s := by
    simp [TexScan.tokens, TexScan.step, TexScan.stepPlain, hc]
  exact h.of_tokens htokens

/-- Behind a command word the formula stands apart, and has no letter there if the word is of the dialect. -/
theorem of_command {word : List Char} (h : Apart ('\\' :: (word ++ s))) (hword : IsCommandWord word) (hs : EndsWord s) :
    Apart s ∧ ((standardSpelling? (String.ofList word)).isSome = true → ∀ c ∈ s.head?, isLetter c = false) := by
  have htokens : texTokens ('\\' :: (word ++ s)) = .word word :: texTokens s := tokens_command (.inl rfl) hword hs
  refine ⟨h.of_tokens htokens, fun hspelling c hc => ?_⟩
  by_contra hletter
  have hruns : startsWithLetter (texTokens s) = true := by
    cases s with
    | nil => cases hc
    | cons d s =>
      cases hc
      have hstep := stepPlain_isLetter (by simpa using hletter)
      show startsWithLetter ((TexScan.stepPlain c).1 ++ (TexScan.stepPlain c).2.tokens s) = true
      rw [hstep]
      simpa [startsWithLetter] using hletter
  refine h.letters ?_
  rw [htokens]
  exact .inl ⟨hspelling, hruns⟩

end Apart

/-! ### Standard forms around what is no command of the dialect -/

theorem standardize_append {p : List Char} (hp : '\\' ∉ p) (s : List Char) :
    standardize (p ++ s) = p ++ standardize s := by
  induction p with
  | nil => rfl
  | cons c p ih =>
    simp only [List.mem_cons, not_or] at hp
    rw [List.cons_append, standardize_plain (.of_ne (Ne.symm hp.1) _), ih hp.2, List.cons_append]

theorem standardize_cons_of_ne {c : Char} (hc : c ≠ '\\') (s : List Char) : standardize (c :: s) = c :: standardize s :=
  standardize_plain (.of_ne hc s)

theorem not_mem_of_letters {word : List Char} (h : ∀ c ∈ word, isLetter c = true) : '\\' ∉ word := fun hmem => by
  have hbackslash := h '\\' hmem
  exact absurd hbackslash (by decide)

/-- A text is the letters at its start, as a command word has them, and what follows. -/
theorem exists_takeWhile_letters (s : List Char) : ∃ rest, s = s.takeWhile isAsciiLetter ++ rest ∧ EndsWord rest := by
  refine ⟨s.dropWhile isAsciiLetter, (List.takeWhile_append_dropWhile).symm, fun c hc => ?_⟩
  have hhead := List.head?_dropWhile_not isAsciiLetter s
  rw [Option.mem_def.1 hc] at hhead
  exact hhead

/-- A backslash is kept where no command of the dialect begins. -/
theorem standardize_backslash {s : List Char} (h : standardSpelling? (String.ofList (s.takeWhile isAsciiLetter)) = none) :
    standardize ('\\' :: s) = '\\' :: standardize s := by
  obtain ⟨rest, hs, hrest⟩ := exists_takeWhile_letters s
  by_cases hnil : s.takeWhile isAsciiLetter = []
  · rw [hnil, List.nil_append] at hs
    exact standardize_plain fun _ => hs ▸ hrest
  · have hword : IsCommandWord (s.takeWhile isAsciiLetter) := ⟨hnil, fun c hc => List.mem_takeWhile_imp hc⟩
    have hself : respell (s.takeWhile isAsciiLetter) = '\\' :: s.takeWhile isAsciiLetter := by simp only [respell, h]
    have hplain : '\\' ∉ s.takeWhile isAsciiLetter := not_mem_of_letters fun c hc => isLetter_of_ascii (hword.letters c hc)
    have hcommand := standardize_command hword hrest
    rw [hself, List.cons_append, ← standardize_append hplain, ← hs] at hcommand
    exact hcommand

/-- The first character is kept, and the rest is the standard form of the rest behind anything but a backslash. -/
theorem standardize_cons (c : Char) (s : List Char) :
    ∃ rest, standardize (c :: s) = c :: rest ∧ (c ≠ '\\' → rest = standardize s) := by
  by_cases hc : c = '\\'
  · subst hc
    obtain ⟨word, hs, hrest⟩ := exists_takeWhile_letters s
    cases hspelling : standardSpelling? (String.ofList (s.takeWhile isAsciiLetter)) with
    | none => exact ⟨_, standardize_backslash hspelling, nofun⟩
    | some spelling =>
      have hword : IsCommandWord (s.takeWhile isAsciiLetter) := by
        refine ⟨fun hnil => ?_, fun c hc => List.mem_takeWhile_imp hc⟩
        rw [hnil] at hspelling
        cases hspelling
      obtain ⟨name, argument, -, -, heq, -⟩ := exists_respelling hword
      have hcommand := standardize_command hword hrest
      rw [← hs, heq] at hcommand
      exact ⟨_, hcommand, fun h => absurd rfl h⟩
  · exact ⟨_, standardize_cons_of_ne hc s, fun _ => rfl⟩

theorem head?_standardize (s : List Char) : (standardize s).head? = s.head? := by
  cases s with
  | nil => rw [standardize_nil]
  | cons c s =>
    obtain ⟨rest, hrest, -⟩ := standardize_cons c s
    rw [hrest, List.head?_cons, List.head?_cons]

theorem leadingLetters_eq (s : List Char) : leadingLetters (texTokens s) = s.takeWhile isAsciiLetter := by
  obtain ⟨rest, hs, hrest⟩ := exists_takeWhile_letters s
  have hletters : ∀ c ∈ s.takeWhile isAsciiLetter, isAsciiLetter c = true := fun c hc => List.mem_takeWhile_imp hc
  have htokens := tokens_letters hletters rest
  rw [← hs] at htokens
  rw [htokens, leadingLetters_append hletters (leadingLetters_texTokens hrest)]

/-- So no command of the dialect begins behind a row break that stands apart. -/
theorem Apart.standardize_break {s : List Char} (h : Apart ('\\' :: '\\' :: s)) :
    standardize ('\\' :: s) = '\\' :: standardize s := by
  refine standardize_backslash ?_
  by_contra hspelling
  have htokens : texTokens ('\\' :: '\\' :: s) = .symbol '\\' :: texTokens s := rfl
  refine h.breaks ?_
  rw [htokens]
  refine .inl ⟨rfl, ?_⟩
  rw [leadingLetters_eq]
  exact Option.isSome_iff_ne_none.2 hspelling

/-! ### Stretches without backslashes -/

theorem takeWhile_standardize {p : Char → Bool} (hp : p '\\' = false) (s : List Char) :
    (standardize s).takeWhile p = s.takeWhile p := by
  induction s with
  | nil => rw [standardize_nil]
  | cons c s ih =>
    obtain ⟨rest, hrest, hplain⟩ := standardize_cons c s
    rw [hrest, List.takeWhile_cons, List.takeWhile_cons]
    by_cases hc : p c = true
    · have hne : c ≠ '\\' := by
        rintro rfl
        rw [hp] at hc
        cases hc
      rw [hplain hne, ih]
    · rw [if_neg hc, if_neg hc]

theorem dropWhile_standardize {p : Char → Bool} (hp : p '\\' = false) (s : List Char) :
    (standardize s).dropWhile p = standardize (s.dropWhile p) := by
  induction s with
  | nil => rw [standardize_nil, List.dropWhile_nil, standardize_nil]
  | cons c s ih =>
    obtain ⟨rest, hrest, hplain⟩ := standardize_cons c s
    rw [hrest, List.dropWhile_cons, List.dropWhile_cons]
    by_cases hc : p c = true
    · have hne : c ≠ '\\' := by
        rintro rfl
        rw [hp] at hc
        cases hc
      rw [if_pos hc, if_pos hc, hplain hne, ih]
    · rw [if_neg hc, if_neg hc, hrest]

theorem not_mem_takeWhile {p : Char → Bool} (hp : p '\\' = false) (s : List Char) : '\\' ∉ s.takeWhile p := by
  intro hmem
  have hbackslash := List.mem_takeWhile_imp hmem
  rw [hp] at hbackslash
  cases hbackslash

theorem Apart.dropWhile {p : Char → Bool} {s : List Char} (h : Apart s) (hp : p '\\' = false) : Apart (s.dropWhile p) := by
  rw [← List.takeWhile_append_dropWhile (p := p) (l := s)] at h
  exact h.of_append (not_mem_takeWhile hp s)

theorem drop_length_takeWhile (p : Char → Bool) (s : List Char) : s.drop (s.takeWhile p).length = s.dropWhile p := by
  have hdrop : (s.takeWhile p ++ s.dropWhile p).drop (s.takeWhile p).length = s.dropWhile p := List.drop_left
  rwa [List.takeWhile_append_dropWhile] at hdrop

theorem isPrefixOf_standardize {l : List Char} (hl : '\\' ∉ l) (s : List Char) :
    l.isPrefixOf (standardize s) = l.isPrefixOf s := by
  induction l generalizing s with
  | nil => rfl
  | cons a l ih =>
    simp only [List.mem_cons, not_or] at hl
    cases s with
    | nil => rw [standardize_nil]
    | cons c s =>
      obtain ⟨rest, hrest, hplain⟩ := standardize_cons c s
      rw [hrest, List.isPrefixOf_cons_cons, List.isPrefixOf_cons_cons]
      by_cases hc : a = c
      · have hne : c ≠ '\\' := by
          rintro rfl
          exact hl.1 hc.symm
        rw [hplain hne, ih hl.2]
      · rw [beq_false_of_ne hc, Bool.false_and, Bool.false_and]

/-! ### Blanks -/

theorem isBlank_backslash : isBlank '\\' = false := by decide

theorem isBlank_letter {c : Char} (h : isAsciiLetter c = true) : isBlank c = false := by
  by_contra hblank
  obtain ⟨range, hrange, hlow, hhigh⟩ := exists_mem_of_inRanges (by simpa [isBlank] using hblank)
  have htable : ∀ range ∈ blankRanges, range.2 < 65 ∨ 122 < range.1 := by decide
  have hapart := htable range hrange
  rcases isAsciiLetter_bounds h with hbounds | hbounds <;> omega

theorem skipBlanks_cons {c : Char} (h : isBlank c = false) (s : List Char) :
    skipBlanks false (c :: s) = .input (c :: s) := by
  simp [skipBlanks, h]

theorem skipBlanks_standardize (afterNewline : Bool) (s : List Char) :
    skipBlanks afterNewline (standardize s) = match skipBlanks afterNewline s with
      | .paragraph rest => .paragraph (standardize rest)
      | .input rest => .input (standardize rest) := by
  induction s generalizing afterNewline with
  | nil => simp [skipBlanks]
  | cons c s ih =>
    obtain ⟨rest, hrest, hplain⟩ := standardize_cons c s
    rw [hrest, skipBlanks, skipBlanks]
    by_cases hpair : (decide (c = '\n') && afterNewline) = true
    · have hne : c ≠ '\\' := by
        simp only [Bool.and_eq_true, decide_eq_true_eq] at hpair
        rw [hpair.1]
        decide
      rw [if_pos hpair, if_pos hpair, hplain hne]
    · rw [if_neg hpair, if_neg hpair]
      by_cases hblank : isBlank c = true
      · have hne : c ≠ '\\' := by
          rintro rfl
          cases hblank
        rw [if_pos hblank, if_pos hblank, hplain hne]
        exact ih _
      · rw [if_neg hblank, if_neg hblank]
        simp only [hrest]

theorem skipSpace_standardize (s : List Char) : skipSpace (standardize s) = standardize (skipSpace s) := by
  induction s with
  | nil => simp [skipSpace]
  | cons c s ih =>
    obtain ⟨rest, hrest, hplain⟩ := standardize_cons c s
    rw [hrest, skipSpace, skipSpace]
    by_cases hblank : isBlank c = true
    · have hne : c ≠ '\\' := by
        rintro rfl
        cases hblank
      rw [hplain hne, head?_standardize, if_pos hblank, if_pos hblank, ih]
      split
      · rw [standardize_cons_of_ne hne]
      · rfl
    · have hline : c ≠ '\n' := by
        rintro rfl
        exact hblank (by decide)
      simp only [hline, hblank, decide_false, Bool.false_and, Bool.false_eq_true, if_false]
      rw [hrest]

/-- What is skipped holds no backslash. -/
theorem exists_skipSpace (s : List Char) : ∃ p, '\\' ∉ p ∧ s = p ++ skipSpace s := by
  induction s with
  | nil => exact ⟨[], nofun, rfl⟩
  | cons c s ih =>
    rw [skipSpace]
    split
    next => exact ⟨[], nofun, rfl⟩
    next =>
      split
      next hblank =>
        obtain ⟨p, hp, hs⟩ := ih
        have hne : '\\' ≠ c := by
          rintro rfl
          cases hblank
        refine ⟨c :: p, ?_, congrArg (c :: ·) hs⟩
        simp [hne, hp]
      next => exact ⟨[], nofun, rfl⟩

theorem exists_skipBlanks (afterNewline : Bool) (s : List Char) : ∃ p rest, '\\' ∉ p ∧ s = p ++ rest ∧
    (skipBlanks afterNewline s = .paragraph rest ∨ skipBlanks afterNewline s = .input rest) := by
  induction s generalizing afterNewline with
  | nil => exact ⟨[], [], nofun, rfl, .inr rfl⟩
  | cons c s ih =>
    rw [skipBlanks]
    split
    next hpair =>
      simp only [Bool.and_eq_true, decide_eq_true_eq] at hpair
      exact ⟨[c], s, by simp [hpair.1], rfl, .inl rfl⟩
    next =>
      split
      next hblank =>
        obtain ⟨p, rest, hp, hs, hskip⟩ := ih (decide (c = '\n'))
        have hne : '\\' ≠ c := by
          rintro rfl
          cases hblank
        refine ⟨c :: p, rest, ?_, congrArg (c :: ·) hs, hskip⟩
        simp [hne, hp]
      next => exact ⟨[], c :: s, nofun, rfl, .inr rfl⟩

/-- The blanks that a command word swallows would be skipped before the next lexeme. -/
theorem skipBlanks_skipSpace (s : List Char) : skipBlanks false (skipSpace s) = skipBlanks false s := by
  induction s with
  | nil => rfl
  | cons c s ih =>
    rw [skipSpace]
    split
    next => rfl
    next hpair =>
      split
      next hblank =>
        rw [ih, skipBlanks, Bool.and_false, if_neg Bool.false_ne_true, if_pos hblank]
        -- A line feed matters only before another one, where the blanks end.
        by_cases hline : c = '\n'
        · have hnext : s.head? ≠ some '\n' := by simpa [hline] using hpair
          cases s with
          | nil => rfl
          | cons d s =>
            have hd : d ≠ '\n' := by simpa using hnext
            simp [skipBlanks, hd]
        · simp [hline]
      next => rfl

theorem Apart.skipSpace {s : List Char} (h : Apart s) : Apart (skipSpace s) := by
  obtain ⟨p, hp, hs⟩ := exists_skipSpace s
  rw [hs] at h
  exact h.of_append hp

end WikiTypeset.Formula
