import Mathlib.Data.List.TakeWhile
import WikiTypeset.Formula.Check

/-!
# Formulas cut at their command words

A formula is a row of characters and of command words: backslashes with letters after them, as many as there are.
`cut_induction` goes through a formula in this way, and the equations beside it say what the command words and the
standard form of a formula are at each part. `exists_respelling` is all that other proofs need to know of the table of
spellings. Main statements: `commandWords_standardize`, by which the standard form has no other command words than those
kept and those of the spellings, and `check_ok`, by which a formula is accepted.
-/

namespace WikiTypeset.Formula

open Text

/-- The name of a command word. -/
structure IsCommandWord (word : List Char) : Prop where
  ne_nil : word ≠ []
  letters : ∀ c ∈ word, isAsciiLetter c = true

instance (word : List Char) : Decidable (IsCommandWord word) :=
  decidable_of_iff (word ≠ [] ∧ word.all isAsciiLetter = true)
    ⟨fun h => ⟨h.1, List.all_eq_true.1 h.2⟩, fun h => ⟨h.ne_nil, List.all_eq_true.2 h.letters⟩⟩

/-- The text does not go on with a letter. -/
def EndsWord (s : List Char) : Prop := ∀ c ∈ s.head?, isAsciiLetter c = false

theorem EndsWord.nil : EndsWord [] := nofun

theorem endsWord_cons {c : Char} {s : List Char} : EndsWord (c :: s) ↔ isAsciiLetter c = false := by
  simp [EndsWord]

theorem ne_of_isAsciiLetter {c d : Char} (hc : isAsciiLetter c = true) (hd : isAsciiLetter d = false) : c ≠ d := by
  rintro rfl
  rw [hc] at hd
  cases hd

/-- No command word begins at the first of the characters. -/
def IsPlainAt (c : Char) (s : List Char) : Prop := c = '\\' → EndsWord s

theorem IsPlainAt.of_ne {c : Char} (h : c ≠ '\\') (s : List Char) : IsPlainAt c s := fun hc => absurd hc h

/-! ### The scan for command words -/

theorem takeWhile_isAsciiLetter {word rest : List Char} (hword : IsCommandWord word) (hrest : EndsWord rest) :
    (word ++ rest).takeWhile isAsciiLetter = word := by
  rw [List.takeWhile_append_of_pos hword.letters]
  cases rest with
  | nil => simp
  | cons c rest => simp [endsWord_cons.1 hrest]

theorem commandLength?_plain {c : Char} {s : List Char} (h : IsPlainAt c s) (previous : Option Char) :
    commandLength? previous (c :: s) = none := by
  unfold commandLength?
  split
  next rest heq =>
    cases heq
    have hnone : s.takeWhile isAsciiLetter = [] := by
      cases s with
      | nil => rfl
      | cons d s => simp [endsWord_cons.1 (h rfl)]
    simp [hnone]
  next => rfl

theorem commandLength?_command {word rest : List Char} (hword : IsCommandWord word) (hrest : EndsWord rest)
    (previous : Option Char) : commandLength? previous ('\\' :: (word ++ rest)) = some (word.length + 1) := by
  simp [commandLength?, takeWhile_isAsciiLetter hword hrest, hword.ne_nil]

/-- What holds of the empty text, and carries over to a text with one more character or command word before it, holds of
every text. -/
@[elab_as_elim]
theorem cut_induction {motive : List Char → Prop} (s : List Char) (nil : motive [])
    (char : ∀ c s, IsPlainAt c s → motive s → motive (c :: s))
    (command : ∀ word rest, IsCommandWord word → EndsWord rest → motive rest → motive ('\\' :: (word ++ rest))) :
    motive s := by
  induction hn : s.length using Nat.strongRecOn generalizing s with
  | _ n ih =>
    cases s with
    | nil => exact nil
    | cons c s =>
      have hlength : (s.dropWhile isAsciiLetter).length ≤ s.length := (List.dropWhile_sublist _).length_le
      simp only [List.length_cons] at hn
      by_cases hplain : IsPlainAt c s
      · exact char c s hplain (ih s.length (by omega) s rfl)
      · simp only [IsPlainAt, Classical.not_imp] at hplain
        obtain ⟨rfl, hs⟩ := hplain
        have hword : IsCommandWord (s.takeWhile isAsciiLetter) := by
          refine ⟨fun hnil => hs ?_, fun c hc => List.mem_takeWhile_imp hc⟩
          intro c hc
          cases s with
          | nil => cases hc
          | cons d s =>
            cases hc
            by_contra hletter
            simp [hletter] at hnil
        have hrest : EndsWord (s.dropWhile isAsciiLetter) := by
          intro c hc
          have hhead := List.head?_dropWhile_not isAsciiLetter s
          rw [Option.mem_def.1 hc] at hhead
          exact hhead
        have h := command _ _ hword hrest (ih (s.dropWhile isAsciiLetter).length (by omega) _ rfl)
        rwa [List.takeWhile_append_dropWhile] at h

theorem segmentsFrom_plain {c : Char} {s : List Char} (h : IsPlainAt c s) (previous : Option Char)
    (plain : List Char) :
    segmentsFrom commandLength? previous plain (c :: s) = segmentsFrom commandLength? (some c) (c :: plain) s := by
  rw [segmentsFrom]
  simp [commandLength?_plain h]

theorem segmentsFrom_command {word rest : List Char} (hword : IsCommandWord word) (hrest : EndsWord rest)
    (previous : Option Char) (plain : List Char) :
    ∃ last, segmentsFrom commandLength? previous plain ('\\' :: (word ++ rest)) =
      ⟨false, plain.reverse⟩ :: ⟨true, '\\' :: word⟩ :: segmentsFrom commandLength? last [] rest := by
  refine ⟨('\\' :: word).getLast?, ?_⟩
  rw [segmentsFrom]
  simp [commandLength?_command hword hrest]

/-! ### Command words -/

/-- The command words of some segments. -/
private def wordsOf (pieces : List Segment) : List (List Char) :=
  (pieces.filter (·.marked)).map fun piece => piece.text.drop 1

private theorem wordsOf_segmentsFrom (s : List Char) (previous : Option Char) (plain : List Char) :
    wordsOf (segmentsFrom commandLength? previous plain s) = commandWords s := by
  induction s using cut_induction generalizing previous plain with
  | nil => simp [commandWords, segments, segmentsFrom, wordsOf]
  | char c s h ih =>
    have hs : commandWords (c :: s) = wordsOf (segmentsFrom commandLength? (some c) [c] s) :=
      congrArg wordsOf (segmentsFrom_plain h none [])
    rw [segmentsFrom_plain h, hs, ih, ih]
  | command word rest hword hrest ih =>
    obtain ⟨last, hsegments⟩ := segmentsFrom_command hword hrest previous plain
    obtain ⟨last', hsegments'⟩ := segmentsFrom_command hword hrest none []
    have hs : commandWords ('\\' :: (word ++ rest)) = word :: wordsOf (segmentsFrom commandLength? last' [] rest) :=
      congrArg wordsOf hsegments'
    rw [hsegments, hs, ih]
    simpa [wordsOf] using ih last []

@[simp] theorem commandWords_nil : commandWords [] = [] := by
  simp [commandWords, segments, segmentsFrom]

theorem commandWords_plain {c : Char} {s : List Char} (h : IsPlainAt c s) : commandWords (c :: s) = commandWords s := by
  rw [← wordsOf_segmentsFrom (c :: s) none [], segmentsFrom_plain h, wordsOf_segmentsFrom]

theorem commandWords_command {word rest : List Char} (hword : IsCommandWord word) (hrest : EndsWord rest) :
    commandWords ('\\' :: (word ++ rest)) = word :: commandWords rest := by
  obtain ⟨last, hsegments⟩ := segmentsFrom_command hword hrest none []
  rw [← wordsOf_segmentsFrom _ none [], hsegments, ← wordsOf_segmentsFrom rest last []]
  simp [wordsOf]

/-! ### Standard forms -/

/-- A command word in its standard spelling. -/
def respell (word : List Char) : List Char :=
  match standardSpelling? (String.ofList word) with
  | some spelling => spelling.toList
  | none => '\\' :: word

/-- The standard form of some segments. -/
private def restate (pieces : List Segment) : List Char :=
  pieces.flatMap fun piece => if piece.marked then
      match standardSpelling? (String.ofList (piece.text.drop 1)) with
      | some spelling => spelling.toList
      | none => piece.text
    else piece.text

private theorem restate_segmentsFrom (s : List Char) (previous : Option Char) (plain : List Char) :
    restate (segmentsFrom commandLength? previous plain s) = plain.reverse ++ standardize s := by
  induction s using cut_induction generalizing previous plain with
  | nil => simp [standardize, segments, segmentsFrom, restate]
  | char c s h ih =>
    have hs : standardize (c :: s) = restate (segmentsFrom commandLength? (some c) [c] s) :=
      congrArg restate (segmentsFrom_plain h none [])
    rw [segmentsFrom_plain h, hs, ih, ih]
    simp
  | command word rest hword hrest ih =>
    have hstep : ∀ previous plain, restate (segmentsFrom commandLength? previous plain ('\\' :: (word ++ rest))) =
        plain.reverse ++ (respell word ++ standardize rest) := by
      intro previous plain
      obtain ⟨last, hsegments⟩ := segmentsFrom_command hword hrest previous plain
      have hrestate := ih last []
      unfold restate at hrestate
      simp only [List.reverse_nil, List.nil_append] at hrestate
      rw [hsegments]
      simp only [restate, List.flatMap_cons, hrestate]
      simp [respell]
    have hs : standardize ('\\' :: (word ++ rest)) = respell word ++ standardize rest := hstep none []
    rw [hstep, hs]

@[simp] theorem standardize_nil : standardize [] = [] := by
  simp [standardize, segments, segmentsFrom]

theorem standardize_plain {c : Char} {s : List Char} (h : IsPlainAt c s) :
    standardize (c :: s) = c :: standardize s := by
  have hs := restate_segmentsFrom (c :: s) none []
  rw [segmentsFrom_plain h, restate_segmentsFrom] at hs
  simpa using hs.symm

theorem standardize_command {word rest : List Char} (hword : IsCommandWord word) (hrest : EndsWord rest) :
    standardize ('\\' :: (word ++ rest)) = respell word ++ standardize rest := by
  obtain ⟨last, hsegments⟩ := segmentsFrom_command hword hrest none []
  have hs := restate_segmentsFrom ('\\' :: (word ++ rest)) none []
  have hlast := restate_segmentsFrom rest last []
  simp only [restate, List.reverse_nil, List.nil_append] at hlast hs
  rw [hsegments, List.flatMap_cons, List.flatMap_cons, hlast] at hs
  simpa [respell] using hs.symm

/-! ### Spellings -/

/-- What may follow the command word of a spelling: a letter in a group of its own. -/
def IsArgument (s : List Char) : Prop := s = [] ∨ ∃ c ∈ s, isAsciiLetter c = true ∧ s = ['\x7b', c, '\x7d']

instance (s : List Char) : Decidable (IsArgument s) :=
  have : Decidable (∃ c ∈ s, isAsciiLetter c = true ∧ s = ['\x7b', c, '\x7d']) := List.decidableBEx _ _
  inferInstanceAs (Decidable (_ ∨ _))

/-- The command word of a spelling. -/
def spellingCommand (spelling : String) : List Char := (spelling.toList.drop 1).takeWhile isAsciiLetter

/-- What follows the command word of a spelling. -/
def spellingArgument (spelling : String) : List Char := (spelling.toList.drop 1).dropWhile isAsciiLetter

/-- The command words of the spellings. -/
def standardCommands : List (List Char) := dialectCommands.map fun e => spellingCommand e.2

theorem spelling_eq : ∀ e ∈ dialectCommands, IsCommandWord (spellingCommand e.2) ∧ IsArgument (spellingArgument e.2) ∧
    e.2.toList = '\\' :: (spellingCommand e.2 ++ spellingArgument e.2) := by
  decide +kernel

/-- A command word is respelled as a command word, perhaps with an argument: as itself if it is not of the dialect, and
as one of the table if it is. -/
theorem exists_respelling {word : List Char} (hword : IsCommandWord word) :
    ∃ name argument, IsCommandWord name ∧ IsArgument argument ∧ respell word = '\\' :: (name ++ argument) ∧
      (name ∈ standardCommands ∨ name = word ∧ standardSpelling? (String.ofList word) = none) := by
  unfold respell
  cases hspelling : standardSpelling? (String.ofList word) with
  | none => exact ⟨word, [], hword, .inl rfl, by simp, .inr ⟨rfl, rfl⟩⟩
  | some spelling =>
    obtain ⟨e, hfind, rfl⟩ := Option.map_eq_some_iff.1 hspelling
    have he := List.mem_of_find?_eq_some hfind
    obtain ⟨hcommand, hargument, heq⟩ := spelling_eq e he
    exact ⟨_, _, hcommand, hargument, heq, .inl (List.mem_map_of_mem he)⟩

theorem endsWord_standardize {s : List Char} (h : EndsWord s) : EndsWord (standardize s) := by
  induction s using cut_induction with
  | nil => simpa using EndsWord.nil
  | char c s hplain ih =>
    rw [standardize_plain hplain]
    exact endsWord_cons.2 (endsWord_cons.1 h)
  | command word rest hword hrest ih =>
    obtain ⟨name, argument, -, -, heq, -⟩ := exists_respelling hword
    rw [standardize_command hword hrest, heq]
    exact endsWord_cons.2 rfl

/-- An argument holds no command word and ends one. -/
theorem IsArgument.endsWord_append {argument s : List Char} (h : IsArgument argument) (hs : EndsWord s) :
    EndsWord (argument ++ s) := by
  rcases h with rfl | ⟨c, -, -, rfl⟩
  · exact hs
  · exact endsWord_cons.2 rfl

theorem commandWords_argument {argument : List Char} (h : IsArgument argument) (s : List Char) :
    commandWords (argument ++ s) = commandWords s := by
  rcases h with rfl | ⟨c, -, hc, rfl⟩
  · rfl
  · have hplain : c ≠ '\\' := ne_of_isAsciiLetter hc rfl
    show commandWords ('\x7b' :: c :: '\x7d' :: s) = commandWords s
    rw [commandWords_plain (.of_ne (by decide) _), commandWords_plain (.of_ne hplain _),
      commandWords_plain (.of_ne (by decide) _)]

/-- A command word of the standard form is one of a spelling, or one of the formula that is not of the dialect. -/
theorem commandWords_standardize {s word : List Char} (h : word ∈ commandWords (standardize s)) :
    word ∈ standardCommands ∨ word ∈ commandWords s ∧ standardSpelling? (String.ofList word) = none := by
  induction s using cut_induction with
  | nil => simp at h
  | char c s hplain ih =>
    have hplain' : IsPlainAt c (standardize s) := fun hc => endsWord_standardize (hplain hc)
    rw [standardize_plain hplain, commandWords_plain hplain'] at h
    rw [commandWords_plain hplain]
    exact ih h
  | command word' rest hword hrest ih =>
    obtain ⟨name, argument, hname, hargument, heq, hfrom⟩ := exists_respelling hword
    rw [standardize_command hword hrest, heq, List.cons_append, List.append_assoc,
      commandWords_command hname (hargument.endsWord_append (endsWord_standardize hrest)),
      commandWords_argument hargument, List.mem_cons] at h
    rw [commandWords_command hword hrest]
    rcases h with rfl | h
    · rcases hfrom with hstandard | ⟨rfl, hnone⟩
      · exact .inl hstandard
      · exact .inr ⟨by simp, hnone⟩
    · rcases ih h with hstandard | ⟨hmem, hnone⟩
      · exact .inl hstandard
      · exact .inr ⟨by simp [hmem], hnone⟩

/-! ### Accepted formulas -/

/-- What an accepted formula has passed, and what is made of it. -/
theorem check_ok {source : List Char} {a : Accepted} (h : check source = .ok a) :
    bracesBalanced (trim source) = true ∧ stray? (trim source) = none ∧ ∃ nodes, read (trim source) = .ok nodes ∧
      forbiddenAmong? (commandNamesOf nodes ++ commandWords (trim source)) = none ∧
      a = { output := '\x7b' :: standardize (trim source) ++ ['\x7d']
            required := requiredBy (commandNamesOf nodes ++ commandWords (trim source)) } := by
  unfold check at h
  dsimp only at h
  split at h
  · cases h
  · split at h
    next => cases h
    next hbraces =>
      split at h
      next => cases h
      next hstray =>
        split at h
        next => cases h
        next nodes hread =>
          split at h
          next => cases h
          next hforbidden =>
            cases h
            exact ⟨by simpa using hbraces, hstray, nodes, hread, hforbidden, rfl⟩

/-- Whether an answer is a certain one can be decided of it as an option. -/
theorem check_of_toOption {source : List Char} {a : Accepted} (h : (check source).toOption = some a) :
    check source = .ok a := by
  cases hcheck : check source with
  | error cause =>
    rw [hcheck] at h
    cases h
  | ok a' =>
    rw [hcheck] at h
    cases h
    rfl

end WikiTypeset.Formula
