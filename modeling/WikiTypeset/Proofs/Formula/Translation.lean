import WikiTypeset.Proofs.Formula.Safety

/-!
# The standard form token by token

The standard form of a formula is to read as the formula does, but for the command words of the dialect, which read as
their spellings. It does so unless the letters right behind a row break spell a command of the dialect: they are taken
for a command word there, though TeX reads them as letters. Main statement: `check_translates_iff`.
-/

namespace WikiTypeset.Formula

open Latex Text

/-- What a token becomes: a control word of the dialect becomes the tokens of its spelling. -/
def restated : TexToken → List TexToken
  | .word name =>
    match standardSpelling? (String.ofList name) with
    | some spelling => texTokens spelling.toList
    | none => [.word name]
  | t => [t]

/-- The letters at the start of some tokens. -/
def leadingLetters : List TexToken → List Char
  | .char c :: ts => if isAsciiLetter c then c :: leadingLetters ts else []
  | _ => []

/-- The letters right behind a row break spell a command of the dialect. -/
def BreaksBeforeDialect : List TexToken → Prop
  | [] => False
  | t :: ts =>
    t = .symbol '\\' ∧ (standardSpelling? (String.ofList (leadingLetters ts))).isSome = true ∨ BreaksBeforeDialect ts

instance decidableBreaksBeforeDialect : (ts : List TexToken) → Decidable (BreaksBeforeDialect ts)
  | [] => inferInstanceAs (Decidable False)
  | _ :: ts => have := decidableBreaksBeforeDialect ts; inferInstanceAs (Decidable (_ ∧ _ ∨ _))

/-! ### Leading letters -/

theorem tokens_word_head (name s : List Char) : ∃ name' ts, (TexScan.word name).tokens s = .word name' :: ts := by
  induction s generalizing name with
  | nil => exact ⟨name, [], rfl⟩
  | cons c s ih =>
    by_cases hc : isAsciiLetter c = true
    · obtain ⟨name', ts, h⟩ := ih (name ++ [c])
      refine ⟨name', ts, ?_⟩
      rw [← h]
      simp [TexScan.tokens, TexScan.step, hc]
    · refine ⟨name, (TexScan.stepPlain c).1 ++ (TexScan.stepPlain c).2.tokens s, ?_⟩
      simp [TexScan.tokens, TexScan.step, hc]

theorem leadingLetters_append {word : List Char} {ts : List TexToken} (hword : ∀ c ∈ word, isAsciiLetter c = true)
    (hts : leadingLetters ts = []) : leadingLetters (word.map .char ++ ts) = word := by
  induction word with
  | nil => exact hts
  | cons c word ih =>
    have hrest := ih fun d hd => hword d (by simp [hd])
    simp [leadingLetters, hword c (by simp), hrest]

theorem leadingLetters_texTokens {s : List Char} (hs : EndsWord s) : leadingLetters (texTokens s) = [] := by
  cases s with
  | nil => rfl
  | cons c s =>
    have hc := endsWord_cons.1 hs
    simp only [TexScan.tokens, TexScan.step]
    unfold TexScan.stepPlain
    split
    · -- A backslash begins a control sequence, which is no letter.
      cases s with
      | nil => rfl
      | cons d s =>
        by_cases hd : isAsciiLetter d = true
        · obtain ⟨name, ts, h⟩ := tokens_word_head [d] s
          simp [TexScan.tokens, TexScan.step, hd, h, leadingLetters]
        · simp [TexScan.tokens, TexScan.step, hd, leadingLetters]
    · rfl
    · rfl
    · simp [leadingLetters, hc]

/-! ### Spellings as tokens -/

theorem texTokens_argument {argument : List Char} (h : IsArgument argument) (s : List Char) :
    texTokens (argument ++ s) = texTokens argument ++ texTokens s := by
  rcases h with rfl | ⟨c, -, hc, rfl⟩
  · rfl
  · have hplain : EndsPlain ['\x7b', c, '\x7d'] := by
      show ((TexScan.stepPlain c).2.step '\x7d').2 = .plain
      rw [stepPlain_letter hc]
      rfl
    exact hplain.texTokens_append s

theorem texTokens_spelling {name argument s : List Char} (hname : IsCommandWord name) (hargument : IsArgument argument)
    (hs : EndsWord s) :
    texTokens ('\\' :: (name ++ argument) ++ s) = .word name :: (texTokens argument ++ texTokens s) := by
  have hrest : EndsWord (argument ++ s) := hargument.endsWord_append hs
  have hcommand := tokens_command (.inl rfl) hname hrest
  rw [List.cons_append, List.append_assoc, ← texTokens_argument hargument]
  exact hcommand

theorem restated_word {word : List Char} (hword : IsCommandWord word) :
    restated (.word word) = texTokens (respell word) := by
  cases hspelling : standardSpelling? (String.ofList word) with
  | none =>
    have htokens := texTokens_spelling hword (.inl rfl) EndsWord.nil
    rw [List.append_nil, List.append_nil] at htokens
    simp only [restated, respell, hspelling]
    exact htokens.symm
  | some spelling => simp only [restated, respell, hspelling]

theorem texTokens_respell {word s : List Char} (hword : IsCommandWord word) (hs : EndsWord s) :
    texTokens (respell word ++ s) = restated (.word word) ++ texTokens s := by
  obtain ⟨name, argument, hname, hargument, heq, -⟩ := exists_respelling hword
  have halone := texTokens_spelling hname hargument EndsWord.nil
  rw [List.append_nil] at halone
  rw [restated_word hword, heq, texTokens_spelling hname hargument hs, halone]
  simp [TexScan.tokens, TexScan.finish]

theorem restated_word_head (word : List Char) : ∃ name ts, restated (.word word) = .word name :: ts := by
  cases hspelling : standardSpelling? (String.ofList word) with
  | none => exact ⟨word, [], by simp only [restated, hspelling]⟩
  | some spelling =>
    obtain ⟨e, hfind, rfl⟩ := Option.map_eq_some_iff.1 hspelling
    obtain ⟨hname, hargument, heq⟩ := spelling_eq e (List.mem_of_find?_eq_some hfind)
    have htokens := texTokens_spelling hname hargument EndsWord.nil
    rw [List.append_nil, ← heq] at htokens
    exact ⟨_, _, by simpa only [restated, hspelling] using htokens⟩

theorem leadingLetters_restated {ts : List TexToken} (h : leadingLetters ts = []) :
    leadingLetters (ts.flatMap restated) = [] := by
  cases ts with
  | nil => rfl
  | cons t ts =>
    cases t with
    | word word =>
      obtain ⟨name, rest, heq⟩ := restated_word_head word
      simp [heq, leadingLetters]
    | char c =>
      have hc : isAsciiLetter c = false := by
        by_contra hletter
        simp [leadingLetters, hletter] at h
      simp [restated, leadingLetters, hc]
    | symbol | opening | closing | unpaired => simp [restated, leadingLetters]

/-- A spelling is not the word that it stands for. -/
theorem respelling_ne {word name : List Char} (h : (standardSpelling? (String.ofList word)).isSome = true)
    (hname : name ∈ standardCommands) : name ≠ word := by
  obtain ⟨spelling, hspelling⟩ := Option.isSome_iff_exists.1 h
  obtain ⟨e, hfind, -⟩ := Option.map_eq_some_iff.1 hspelling
  have hword : word = e.1.toList := by
    have heq : e.1 = String.ofList word := by simpa using List.find?_some hfind
    simp [heq]
  rintro rfl
  exact (isAllowed_standardCommands [] name hname).2.2 e (List.mem_of_find?_eq_some hfind) hword

/-! ### Formulas token by token -/

/-- Behind a literal backslash a command word is read as its letters. -/
theorem tokens_behind {word : List Char} (hword : IsCommandWord word) (s : List Char) :
    TexScan.backslash.tokens ('\\' :: (word ++ s)) = .symbol '\\' :: (word.map .char ++ texTokens s) := by
  rw [← tokens_letters hword.letters]
  rfl

theorem flatMap_restated_step {scan : TexScan} {c : Char} (h : ∀ word, .word word ∉ (scan.step c).1) :
    (scan.step c).1.flatMap restated = (scan.step c).1 := by
  have hsame : ∀ ts : List TexToken, (∀ word, .word word ∉ ts) → ts.flatMap restated = ts := by
    intro ts hts
    induction ts with
    | nil => rfl
    | cons t ts ih =>
      have hrest := ih fun word hmem => hts word (by simp [hmem])
      cases t with
      | word word => exact absurd (List.mem_cons_self ..) (hts word)
      | _ => simp [restated, hrest]
  exact hsame _ h

theorem breaksBeforeDialect_chars (word : List Char) (ts : List TexToken) :
    BreaksBeforeDialect (word.map .char ++ ts) ↔ BreaksBeforeDialect ts := by
  induction word with
  | nil => rfl
  | cons c word ih => simpa [BreaksBeforeDialect] using ih

/-- What a character completes is no row break with letters behind it. -/
theorem breaksBeforeDialect_step {scan : TexScan} {c : Char} {s : List Char} (hscan : IsBetween scan (c :: s))
    (hplain : IsPlainAt c s) :
    BreaksBeforeDialect (scan.tokens (c :: s)) ↔ BreaksBeforeDialect ((scan.step c).2.tokens s) := by
  have hnone : standardSpelling? (String.ofList []) = none := by decide
  rw [TexScan.tokens]
  rcases hscan with rfl | ⟨rfl, hletter⟩
  · simp only [TexScan.step]
    unfold TexScan.stepPlain
    split <;> simp [BreaksBeforeDialect]
  · have hstep : TexScan.backslash.step c = ([.symbol c], .plain) := by simp [TexScan.step, endsWord_cons.1 hletter]
    rw [hstep]
    refine ⟨fun h => h.resolve_left ?_, .inr⟩
    rintro ⟨hc, hspelling⟩
    cases hc
    -- Behind this row break stands no letter.
    have hletters : leadingLetters ([].append (texTokens s)) = [] := leadingLetters_texTokens (hplain rfl)
    rw [hletters, hnone] at hspelling
    cases hspelling

theorem tokens_standardize_iff {scan : TexScan} {s : List Char} (hscan : IsBetween scan s) :
    scan.tokens (standardize s) = (scan.tokens s).flatMap restated ↔ ¬ BreaksBeforeDialect (scan.tokens s) := by
  induction s using cut_induction generalizing scan with
  | nil => rcases hscan with rfl | ⟨rfl, -⟩ <;> simp [TexScan.tokens, TexScan.finish, restated, BreaksBeforeDialect]
  | char c s hplain ih =>
    obtain ⟨hscan', hwords⟩ := hscan.step hplain
    rw [standardize_plain hplain, breaksBeforeDialect_step hscan hplain, ← ih hscan', TexScan.tokens, TexScan.tokens,
      List.flatMap_append, flatMap_restated_step hwords, List.append_cancel_left_eq]
  | command word rest hword hrest ih =>
    have hrest' : EndsWord (standardize rest) := endsWord_standardize hrest
    have ih := ih (.inl rfl)
    rw [standardize_command hword hrest, tokens_command hscan hword hrest]
    rcases hscan with rfl | ⟨rfl, -⟩
    · show texTokens (respell word ++ standardize rest) = _ ↔ _
      rw [texTokens_respell hword hrest']
      simpa [commandTokens, BreaksBeforeDialect] using ih
    · -- Behind a literal backslash only letters are read, those of the word or those of its spelling.
      have hletters : leadingLetters (word.map .char ++ texTokens rest) = word :=
        leadingLetters_append hword.letters (leadingLetters_texTokens hrest)
      have hchars : (word.map TexToken.char).flatMap restated = word.map .char := by
        rw [List.flatMap_map, List.map_eq_flatMap]
        rfl
      have hbreak : restated (.symbol '\\') = [.symbol '\\'] := rfl
      simp only [commandTokens, List.cons_append, List.flatMap_cons, List.flatMap_append, hchars, hbreak, List.nil_append,
        BreaksBeforeDialect, hletters, true_and, breaksBeforeDialect_chars, not_or, ← ih]
      cases hspelling : standardSpelling? (String.ofList word) with
      | none =>
        have hself : respell word = '\\' :: word := by simp only [respell, hspelling]
        rw [hself, List.cons_append, tokens_behind hword]
        simp
      | some spelling =>
        obtain ⟨name, argument, hname, hargument, heq, hfrom⟩ := exists_respelling hword
        have hne : name ≠ word := by
          refine respelling_ne (by simp [hspelling]) (hfrom.resolve_right fun hself => ?_)
          cases hspelling.symm.trans hself.2
        rw [heq, List.cons_append, List.append_assoc, tokens_behind hname]
        refine iff_of_false (fun h => hne ?_) (by simp)
        have hleading := congrArg leadingLetters (List.cons.inj h).2
        rw [leadingLetters_append hname.letters (leadingLetters_texTokens (hargument.endsWord_append hrest')),
          leadingLetters_append hword.letters (leadingLetters_restated (leadingLetters_texTokens hrest))] at hleading
        exact hleading

/-- The tokens of what is made of an accepted formula, without its outer braces, are those of the formula without the
blanks around it, with the spellings in place of the commands of the dialect, just if no row break stands right before
letters that spell a command of the dialect. -/
theorem check_translates_iff {source : List Char} {a : Accepted} (h : check source = .ok a) :
    ∃ inner, a.output = '\x7b' :: inner ++ ['\x7d'] ∧
      (texTokens inner = (texTokens (trim source)).flatMap restated ↔ ¬ BreaksBeforeDialect (texTokens (trim source))) := by
  obtain ⟨-, -, nodes, -, -, rfl⟩ := check_ok h
  exact ⟨standardize (trim source), rfl, tokens_standardize_iff (.inl rfl)⟩

/-- A row break is kept before a command of the dialect, and before letters that are apart from it. -/
theorem spacedRows_translates : ∃ a inner, check "\\R \\\\\\isin\\\\ R".toList = .ok a ∧ a.output = '\x7b' :: inner ++ ['\x7d'] ∧
    texTokens inner = (texTokens (trim "\\R \\\\\\isin\\\\ R".toList)).flatMap restated := by
  have hcheck : check "\\R \\\\\\isin\\\\ R".toList = .ok ⟨"\x7b\\mathbb\x7bR\x7d \\\\\\in\\\\ R\x7d".toList, []⟩ :=
    check_of_toOption (by decide +kernel)
  obtain ⟨inner, houtput, hiff⟩ := check_translates_iff hcheck
  exact ⟨_, inner, hcheck, houtput, hiff.2 (by decide +kernel)⟩

/-- A row that begins with a capital letter right behind the row break becomes another row. -/
theorem closeRow_isRestated : ∃ a inner, check "a\\\\R".toList = .ok a ∧ a.output = '\x7b' :: inner ++ ['\x7d'] ∧
    texTokens inner ≠ (texTokens (trim "a\\\\R".toList)).flatMap restated := by
  have hcheck : check "a\\\\R".toList = .ok ⟨"\x7ba\\\\mathbb\x7bR\x7d\x7d".toList, []⟩ :=
    check_of_toOption (by decide +kernel)
  exact ⟨_, "a\\\\mathbb\x7bR\x7d".toList, hcheck, rfl, by decide +kernel⟩

end WikiTypeset.Formula
