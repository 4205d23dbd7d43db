import WikiTypeset.Proofs.Formula.Grouping
import WikiTypeset.Proofs.Tex.Tokens

/-!
# What TeX reads in accepted formulas

A formula is checked as it is written, and TeX reads what is made of it. Where a command word stands, TeX reads a
control word or, behind a literal backslash, letters; so it reads no control words but the command words, and no stray
character that pairs of backslashes do not lead to. Main statement: `check_isAllowed`, by which every token of an
accepted formula that needs no further packages is allowed.

The search for stray characters looks at pairs of backslashes that follow no backslash; the scan that checks the braces
goes from left to right, a backslash making the next character literal. Main statement: `scans_for_strays_agree`, by which
they mean the same by a literal character.
-/

namespace WikiTypeset.Formula

open Latex Text

/-! ### Command words as tokens -/

/-- What a command word is read as: one token or, where its backslash is literal, one for each character. -/
def commandTokens (word : List Char) : TexScan → List TexToken
  | .backslash => .symbol '\\' :: word.map .char
  | _ => [.word word]

/-- Where a scan stands between the parts of a formula: outside control words, and at no letter behind a backslash. -/
def IsBetween (scan : TexScan) (s : List Char) : Prop := scan = .plain ∨ scan = .backslash ∧ EndsWord s

theorem stepPlain_letter {c : Char} (hc : isAsciiLetter c = true) : TexScan.stepPlain c = ([.char c], .plain) := by
  have hplain : ∀ d, isAsciiLetter d = false → c ≠ d := fun d => ne_of_isAsciiLetter hc
  simp [TexScan.stepPlain, hplain '\\' (by decide), hplain '\x7b' (by decide), hplain '\x7d' (by decide)]

theorem tokens_letters {word : List Char} (hword : ∀ c ∈ word, isAsciiLetter c = true) (s : List Char) :
    texTokens (word ++ s) = word.map .char ++ texTokens s := by
  induction word with
  | nil => rfl
  | cons c word ih =>
    have hrest := ih fun d hd => hword d (by simp [hd])
    simp only [List.cons_append, TexScan.tokens, TexScan.step, stepPlain_letter (hword c (by simp)), List.map_cons]
    exact congrArg (TexToken.char c :: ·) hrest

theorem tokens_word {word s : List Char} (hword : ∀ c ∈ word, isAsciiLetter c = true) (hs : EndsWord s)
    (name : List Char) : (TexScan.word name).tokens (word ++ s) = .word (name ++ word) :: texTokens s := by
  induction word generalizing name with
  | nil =>
    cases s with
    | nil => simp [TexScan.tokens, TexScan.finish]
    | cons c s => simp [TexScan.tokens, TexScan.step, endsWord_cons.1 hs]
  | cons c word ih =>
    have hc := hword c (by simp)
    have hrest := ih (fun d hd => hword d (by simp [hd])) (name ++ [c])
    simp only [List.cons_append, TexScan.tokens, TexScan.step, hc, if_true, List.nil_append, hrest]
    simp

theorem tokens_command {scan : TexScan} {word s : List Char} (hscan : IsBetween scan ('\\' :: (word ++ s)))
    (hword : IsCommandWord word) (hs : EndsWord s) :
    scan.tokens ('\\' :: (word ++ s)) = commandTokens word scan ++ texTokens s := by
  rcases hscan with rfl | ⟨rfl, -⟩
  · obtain ⟨c, word, rfl⟩ := List.exists_cons_of_ne_nil hword.ne_nil
    have hc := hword.letters c (by simp)
    have hletters : ∀ d ∈ word, isAsciiLetter d = true := fun d hd => hword.letters d (by simp [hd])
    have hrest := tokens_word hletters hs [c]
    simp only [List.cons_append, TexScan.tokens, TexScan.step, TexScan.stepPlain, hc, if_true, List.nil_append, hrest,
      commandTokens]
  · exact congrArg (.symbol '\\' :: ·) (tokens_letters hword.letters s)

/-- A character at which no command word begins leads to a place between the parts, and completes no control word. -/
theorem IsBetween.step {scan : TexScan} {c : Char} {s : List Char} (hscan : IsBetween scan (c :: s))
    (h : IsPlainAt c s) : IsBetween (scan.step c).2 s ∧ ∀ word, .word word ∉ (scan.step c).1 := by
  rcases hscan with rfl | ⟨rfl, hletter⟩
  · by_cases hc : c = '\\'
    · subst hc
      exact ⟨.inr ⟨rfl, h rfl⟩, fun word => by simp [TexScan.step, TexScan.stepPlain]⟩
    · simp only [TexScan.step]
      unfold TexScan.stepPlain
      split
      next => contradiction
      all_goals exact ⟨.inl rfl, by simp⟩
  · simp [TexScan.step, endsWord_cons.1 hletter, IsBetween]

/-- TeX reads no control words but the command words. -/
theorem mem_commandWords_of_tokens {scan : TexScan} {s word : List Char} (hscan : IsBetween scan s)
    (h : .word word ∈ scan.tokens s) : word ∈ commandWords s := by
  induction s using cut_induction generalizing scan with
  | nil => rcases hscan with rfl | ⟨rfl, -⟩ <;> simp [TexScan.tokens, TexScan.finish] at h
  | char c s hplain ih =>
    obtain ⟨hscan', hnone⟩ := hscan.step hplain
    rw [commandWords_plain hplain]
    exact ih hscan' ((List.mem_append.1 h).resolve_left (hnone word))
  | command word' rest hword hrest ih =>
    rw [tokens_command hscan hword hrest, List.mem_append] at h
    rw [commandWords_command hword hrest, List.mem_cons]
    rcases h with h | h
    · rcases hscan with rfl | ⟨rfl, -⟩ <;> simp [commandTokens] at h
      exact .inl h
    · exact .inr (ih (.inl rfl) h)

/-! ### Stray characters -/

/-- What the scan for stray characters has found nothing in, for TeX's scan at the same place. -/
structure NoStray (scan : TexScan) (s : List Char) : Prop where
  pairs : strayAfterPairs? (if scan = .backslash then '\\' :: s else s) = none
  rest : strayFrom? (some '\\') s = none

theorem strayAfterPairs?_cons {c : Char} (hc : c ≠ '\\') (s : List Char) :
    strayAfterPairs? (c :: s) = if isStray c then some c else none := by
  rw [strayAfterPairs?]
  rintro s rfl
  exact absurd rfl hc

/-- Behind anything but a backslash the search for stray characters begins afresh. -/
theorem NoStray.of_strayFrom? {previous : Option Char} (hprevious : previous ≠ some '\\') {s : List Char}
    (h : strayFrom? previous s = none) {scan : TexScan} (hscan : scan ≠ .backslash) : NoStray scan s := by
  cases s with
  | nil => exact ⟨by simp [hscan, strayAfterPairs?], rfl⟩
  | cons c s =>
    rw [strayFrom?, if_neg hprevious] at h
    cases hpairs : strayAfterPairs? (c :: s) with
    | some d => simp [hpairs] at h
    | none =>
      rw [hpairs] at h
      exact ⟨by rw [if_neg hscan, hpairs], h⟩

theorem step_ne_backslash {scan : TexScan} {c : Char} (hc : c ≠ '\\') : (scan.step c).2 ≠ .backslash := by
  have hplain : (TexScan.stepPlain c).2 ≠ .backslash := by
    unfold TexScan.stepPlain
    split
    next => contradiction
    all_goals simp
  cases scan with
  | plain => exact hplain
  | backslash | word =>
    rw [TexScan.step]
    split
    · simp
    · first | exact hplain | simp

/-- A character is read as itself only outside control sequences. -/
theorem eq_of_char_mem_step {scan : TexScan} {c d : Char} (h : .char d ∈ (scan.step c).1) :
    scan ≠ .backslash ∧ d = c := by
  have hplain : .char d ∈ (TexScan.stepPlain c).1 → d = c := by
    unfold TexScan.stepPlain
    split <;> simp
  cases scan with
  | plain => exact ⟨by simp, hplain h⟩
  | backslash =>
    rw [TexScan.step] at h
    split at h <;> simp at h
  | word name =>
    rw [TexScan.step] at h
    split at h
    · simp at h
    · exact ⟨by simp, hplain (by simpa using h)⟩

/-- Outside control sequences a character is no stray one. -/
theorem NoStray.step {scan : TexScan} {c : Char} {s : List Char} (h : NoStray scan (c :: s)) :
    NoStray (scan.step c).2 s ∧ ∀ d, .char d ∈ (scan.step c).1 → isStray d = false := by
  have hrest : strayFrom? (some c) s = none := h.rest
  have hpairs := h.pairs
  by_cases hc : c = '\\'
  · subst hc
    constructor
    · -- Two backslashes in a row are a pair, and one alone is the first of a pair.
      cases scan with
      | backslash => exact ⟨by simpa [strayAfterPairs?, TexScan.step, isAsciiLetter] using hpairs, hrest⟩
      | plain | word => exact ⟨by simpa [TexScan.step, TexScan.stepPlain, isAsciiLetter] using hpairs, hrest⟩
    · intro d hd
      rw [(eq_of_char_mem_step hd).2]
      decide
  · refine ⟨.of_strayFrom? (by simpa using hc) hrest (step_ne_backslash hc), fun d hd => ?_⟩
    obtain ⟨hscan, rfl⟩ := eq_of_char_mem_step hd
    rw [if_neg hscan, strayAfterPairs?_cons hc] at hpairs
    simpa using hpairs

theorem NoStray.tokens {scan : TexScan} {s : List Char} (h : NoStray scan s) {d : Char} (hd : .char d ∈ scan.tokens s) :
    isStray d = false := by
  induction s generalizing scan with
  | nil => cases scan <;> simp [TexScan.tokens, TexScan.finish] at hd
  | cons c s ih =>
    rcases List.mem_append.1 hd with hd | hd
    · exact h.step.2 d hd
    · exact ih h.step.1 hd

/-- No stray character but those of a formula gets into its standard form. -/
theorem char_mem_tokens_of_standardize {scan : TexScan} {s : List Char} (hscan : IsBetween scan s) {d : Char}
    (hd : isStray d = true) (h : .char d ∈ scan.tokens (standardize s)) : .char d ∈ scan.tokens s := by
  have hsign : isAsciiLetter d = false := by
    simp only [isStray, Bool.or_eq_true, beq_iff_eq] at hd
    rcases hd with (rfl | rfl) | rfl <;> rfl
  have hletter : ∀ c, isAsciiLetter c = true → d ≠ c := fun c hc => (ne_of_isAsciiLetter hc hsign).symm
  induction s using cut_induction generalizing scan with
  | nil => simpa using h
  | char c s hplain ih =>
    rw [standardize_plain hplain] at h
    rcases List.mem_append.1 h with h | h
    · exact List.mem_append_left _ h
    · exact List.mem_append_right _ (ih (hscan.step hplain).1 h)
  | command word rest hword hrest ih =>
    obtain ⟨name, argument, hname, hargument, heq, -⟩ := exists_respelling hword
    have hscan' : IsBetween scan ('\\' :: (name ++ (argument ++ standardize rest))) :=
      hscan.imp_right fun hb => ⟨hb.1, endsWord_cons.2 rfl⟩
    have hcommand : .char d ∉ commandTokens name scan := by
      rcases hscan with rfl | ⟨rfl, -⟩
      · simp [commandTokens]
      · simpa [commandTokens] using fun hmem => hletter d (hname.letters d hmem) rfl
    rw [standardize_command hword hrest, heq, List.cons_append, List.append_assoc,
      tokens_command hscan' hname (hargument.endsWord_append (endsWord_standardize hrest))] at h
    rw [tokens_command hscan hword hrest]
    refine List.mem_append_right _ (ih (.inl rfl) ?_)
    have hrestTokens := (List.mem_append.1 h).resolve_left hcommand
    rcases hargument with rfl | ⟨c, -, hc, rfl⟩
    · exact hrestTokens
    · have hgroup : texTokens (['\x7b', c, '\x7d'] ++ standardize rest) =
          .opening :: .char c :: .closing :: texTokens (standardize rest) := by
        show .opening :: ((TexScan.stepPlain c).1 ++ (TexScan.stepPlain c).2.tokens ('\x7d' :: standardize rest)) = _
        rw [stepPlain_letter hc]
        rfl
      rw [hgroup] at hrestTokens
      simpa [hletter c hc] using hrestTokens

/-! ### Allowed tokens -/

/-- The tokens that may be read in a formula where some packages are loaded. -/
def IsAllowed (packages : List String) : TexToken → Prop
  | .word name =>
    (∀ command ∈ forbiddenCommands, name ≠ command.toList) ∧
      (∀ e ∈ packageCommands, name = e.1.toList → e.2 ∈ packages) ∧ ∀ e ∈ dialectCommands, name ≠ e.1.toList
  | .char c => isStray c = false
  | _ => True

/-- The command words of spellings are allowed. -/
theorem isAllowed_standardCommands (packages : List String) :
    ∀ name ∈ standardCommands, IsAllowed packages (.word name) := by
  have htables : ∀ name ∈ standardCommands, (∀ command ∈ forbiddenCommands, name ≠ command.toList) ∧
      (∀ e ∈ packageCommands, name ≠ e.1.toList) ∧ ∀ e ∈ dialectCommands, name ≠ e.1.toList := by
    decide +kernel
  intro name hname
  obtain ⟨hforbidden, hpackage, hdialect⟩ := htables name hname
  exact ⟨hforbidden, fun e he heq => absurd heq (hpackage e he), hdialect⟩

/-- A command that needs a package has one of the known packages, and no other, in the table. -/
theorem packageOf?_eq : ∀ e ∈ packageCommands, packageOf? e.1 = some e.2 ∧ e.2 ∈ Formula.packages := by
  decide +kernel

/-- So are those of a formula that passes its checks, if they are not of the dialect. -/
theorem isAllowed_of_required {packages : List String} {names : List (List Char)} {name : List Char}
    (hname : name ∈ names) (hforbidden : forbiddenAmong? names = none)
    (hrequired : (requiredBy names).all packages.contains = true)
    (hdialect : standardSpelling? (String.ofList name) = none) : IsAllowed packages (.word name) := by
  refine ⟨?_, ?_, ?_⟩
  · rintro command hcommand rfl
    have hnone := List.find?_eq_none.1 hforbidden command hcommand
    exact hnone (by simpa using hname)
  · rintro e he rfl
    obtain ⟨hpackage, hmem⟩ := packageOf?_eq e he
    have he : e.2 ∈ requiredBy names := by
      refine List.mem_filter.2 ⟨hmem, List.any_eq_true.2 ⟨_, hname, ?_⟩⟩
      simp [hpackage]
    simpa using List.all_eq_true.1 hrequired _ he
  · rintro e he rfl
    simp only [standardSpelling?, Option.map_eq_none_iff] at hdialect
    simpa using List.find?_eq_none.1 hdialect e he

/-- The closing brace of an accepted formula completes what its last character begins. -/
theorem mem_tokens_append_closing {scan : TexScan} {s : List Char} {t : TexToken}
    (h : t ∈ scan.tokens (s ++ ['\x7d'])) : t ∈ scan.tokens s ∨ t = .closing ∨ t = .symbol '\x7d' := by
  induction s generalizing scan with
  | nil =>
    have hletter : isAsciiLetter '\x7d' = false := rfl
    cases scan with
    | plain => exact .inr (.inl (by simpa [TexScan.tokens, TexScan.step, TexScan.stepPlain, TexScan.finish] using h))
    | backslash => exact .inr (.inr (by simpa [TexScan.tokens, TexScan.step, hletter, TexScan.finish] using h))
    | word name =>
      have hcases : t = .word name ∨ t = .closing := by
        simpa [TexScan.tokens, TexScan.step, hletter, TexScan.stepPlain, TexScan.finish] using h
      rcases hcases with rfl | rfl
      · exact .inl (List.mem_singleton_self _)
      · exact .inr (.inl rfl)
  | cons c s ih =>
    rcases List.mem_append.1 h with h | h
    · exact .inl (List.mem_append_left _ h)
    · exact (ih h).imp_left (List.mem_append_right _)

/-- Every token of an accepted formula whose packages are all loaded is allowed. -/
theorem check_isAllowed {source : List Char} {a : Accepted} {packages : List String} (h : check source = .ok a)
    (hsupported : a.supportedBy packages = true) : ∀ t ∈ texTokens a.output, IsAllowed packages t := by
  obtain ⟨-, hstray, nodes, -, hforbidden, rfl⟩ := check_ok h
  have hbetween : ∀ s, IsBetween .plain s := fun _ => .inl rfl
  have hstart : NoStray .plain (trim source) := by
    have hnone : strayFrom? none (trim source) = none := hstray
    refine .of_strayFrom? ?_ hnone ?_
    · simp
    · simp
  have hinner : ∀ t ∈ texTokens (standardize (trim source)), IsAllowed packages t := by
    intro t ht
    cases t with
    | word name =>
      rcases commandWords_standardize (mem_commandWords_of_tokens (hbetween _) ht) with hstandard | ⟨hmem, hdialect⟩
      · exact isAllowed_standardCommands packages name hstandard
      · exact isAllowed_of_required (List.mem_append_right _ hmem) hforbidden hsupported hdialect
    | char c =>
      show isStray c = false
      by_contra hc
      have hsource := char_mem_tokens_of_standardize (hbetween _) (by simpa using hc) ht
      exact hc (hstart.tokens hsource)
    | symbol | opening | closing | unpaired => trivial
  intro t ht
  rcases List.mem_cons.1 (show t ∈ .opening :: texTokens (standardize (trim source) ++ ['\x7d']) from ht) with rfl | ht
  · trivial
  · rcases mem_tokens_append_closing ht with ht | rfl | rfl
    · exact hinner t ht
    · trivial
    · trivial

/-- A command of the dialect behind a row break, a command that needs a package, and an escaped percent sign. -/
def euroFormula : List Char := "x \\\\\\R \\euro \\%".toList

/-- What is made of `euroFormula`. -/
def euroAnswer : Accepted := ⟨"\x7bx \\\\\\mathbb\x7bR\x7d \\euro \\%\x7d".toList, ["eurosym"]⟩

theorem euroFormula_isAllowed : check euroFormula = .ok euroAnswer ∧
    euroAnswer.supportedBy ["cancel", "eurosym"] = true ∧
      ∀ t ∈ texTokens euroAnswer.output, IsAllowed ["cancel", "eurosym"] t := by
  have hcheck : check euroFormula = .ok euroAnswer := check_of_toOption (by decide +kernel)
  have hsupported : euroAnswer.supportedBy ["cancel", "eurosym"] = true := by decide +kernel
  exact ⟨hcheck, hsupported, check_isAllowed hcheck hsupported⟩

/-! ### The first place where something holds -/

/-- `P` holds of a character at an offset, and of none at any offset before it. -/
def IsFirst (P : Nat → Char → Prop) (i : Nat) (c : Char) : Prop := P i c ∧ ∀ j < i, ∀ d, ¬ P j d

/-- The first place is the start of a text, or it is the first one behind a start that is none. -/
theorem exists_isFirst_iff {P Q : Nat → Char → Prop} (hsucc : ∀ i c, P (i + 1) c ↔ Q i c) {c : Char} :
    (∃ i, IsFirst P i c) ↔ P 0 c ∨ (∀ d, ¬ P 0 d) ∧ ∃ i, IsFirst Q i c := by
  constructor
  · rintro ⟨_ | i, hi, hfirst⟩
    · exact .inl hi
    · refine .inr ⟨hfirst 0 (Nat.succ_pos i), i, (hsucc i c).1 hi, fun j hj d hd => ?_⟩
      exact hfirst (j + 1) (Nat.succ_lt_succ hj) d ((hsucc j d).2 hd)
  · rintro (h | ⟨hnone, i, hi, hfirst⟩)
    · exact ⟨0, h, nofun⟩
    · refine ⟨i + 1, (hsucc i c).2 hi, fun j hj d hd => ?_⟩
      cases j with
      | zero => exact hnone d hd
      | succ j => exact hfirst j (Nat.lt_of_succ_lt_succ hj) d ((hsucc j d).1 hd)

/-! ### The scan from left to right -/

/-- The first stray character that a scan for braces comes to while no backslash makes it literal. -/
def BraceScan.stray? (b : BraceScan) : List Char → Option Char
  | [] => none
  | c :: s => if !b.escaped && isStray c then some c else (b.step c).stray? s

/-- A scan for braces that begins as `b` comes to the stray character `c` at an offset, and it is not literal there. -/
structure BraceScan.Meets (b : BraceScan) (s : List Char) (i : Nat) (c : Char) : Prop where
  char : s[i]? = some c
  stray : isStray c = true
  unescaped : (b.after (s.take i)).escaped = false

namespace BraceScan

variable {b : BraceScan} {s : List Char} {c d : Char}

theorem meets_zero : b.Meets (c :: s) 0 d ↔ c = d ∧ isStray c = true ∧ b.escaped = false := by
  constructor
  · rintro ⟨hchar, hstray, hfree⟩
    obtain rfl := Option.some.inj hchar
    exact ⟨rfl, hstray, hfree⟩
  · rintro ⟨rfl, hstray, hfree⟩
    exact ⟨rfl, hstray, hfree⟩

theorem meets_succ (i : Nat) (d : Char) : b.Meets (c :: s) (i + 1) d ↔ (b.step c).Meets s i d :=
  ⟨fun h => ⟨h.char, h.stray, h.unescaped⟩, fun h => ⟨h.char, h.stray, h.unescaped⟩⟩

/-- The scan finds the first character that it meets. -/
theorem stray?_eq_some_iff : b.stray? s = some d ↔ ∃ i, IsFirst (b.Meets s) i d := by
  induction s generalizing b with
  | nil =>
    constructor
    · nofun
    · rintro ⟨i, hmeets, -⟩
      cases hmeets.char
  | cons c s ih =>
    rw [exists_isFirst_iff meets_succ, stray?, ← ih]
    by_cases hhere : (!b.escaped && isStray c) = true
    · have hc : isStray c = true ∧ b.escaped = false := by simpa [and_comm] using hhere
      rw [if_pos hhere, Option.some.injEq]
      constructor
      · intro heq
        exact .inl (meets_zero.2 ⟨heq, hc⟩)
      · rintro (hmeets | ⟨hnone, -⟩)
        · exact (meets_zero.1 hmeets).1
        · exact absurd (meets_zero.2 ⟨rfl, hc⟩) (hnone c)
    · have hnone : ∀ d, ¬ b.Meets (c :: s) 0 d := by
        intro d hmeets
        obtain ⟨-, hstray, hfree⟩ := meets_zero.1 hmeets
        exact hhere (by simp [hstray, hfree])
      rw [if_neg hhere]
      exact ⟨fun h => .inr ⟨hnone, h⟩, fun h => (h.resolve_left (hnone d)).2⟩

/-- What the scan finds: a stray character behind pairs of backslashes, where one that makes the next character literal
counts in, or else one behind the row of backslashes and the character after it. -/
theorem stray?_eq (b : BraceScan) (s : List Char) :
    b.stray? s = (strayAfterPairs? (if b.escaped then '\\' :: s else s) <|> strayFrom? (some '\\') s) := by
  induction s generalizing b with
  | nil => cases b.escaped <;> rfl
  | cons c s ih =>
    by_cases hc : c = '\\'
    · subst hc
      have hplain : isStray '\\' = false := rfl
      have hrest : strayFrom? (some '\\') ('\\' :: s) = strayFrom? (some '\\') s := rfl
      rw [stray?, hplain, Bool.and_false, if_neg Bool.false_ne_true, ih, escaped_step, hrest]
      cases b.escaped with
      | true => rfl
      | false => rfl
    · have hrest : strayFrom? (some '\\') (c :: s) = strayFrom? (some c) s := rfl
      have hafter : (b.step c).escaped = false := by simp [escaped_step, hc]
      -- Behind another character than a backslash the search begins afresh.
      have hfresh : (b.step c).stray? s = strayFrom? (some c) s := by
        rw [ih, hafter, if_neg Bool.false_ne_true]
        cases s with
        | nil => rfl
        | cons d s =>
          rw [strayFrom?, strayFrom?, if_pos rfl, if_neg (by simpa using hc)]
      rw [stray?, hfresh, hrest]
      cases b.escaped with
      | true =>
        have hpairs : strayAfterPairs? ('\\' :: c :: s) = none := by
          rw [strayAfterPairs?]
          · rfl
          · exact fun t _ heq => hc (List.cons.inj heq).1
        rw [if_pos rfl, hpairs]
        rfl
      | false => cases hstray : isStray c <;> simp [strayAfterPairs?_cons hc, hstray]

end BraceScan

/-! ### The search for the pattern -/

/-- The pattern matches from an offset of a text that stands behind `previous`: no backslash is before it, and pairs of
backslashes lead from it to the stray character `c`. -/
structure PairsLead (previous : Option Char) (s : List Char) (i : Nat) (c : Char) : Prop where
  fresh : (previous :: s.map some)[i]? ≠ some (some '\\')
  pairs : ∃ n rest, s.drop i = List.replicate (2 * n) '\\' ++ c :: rest
  stray : isStray c = true

/-- Pairs of backslashes lead to one stray character at most, without a choice on the way. -/
theorem strayAfterPairs?_eq_some_iff {s : List Char} {c : Char} :
    strayAfterPairs? s = some c ↔ (∃ n rest, s = List.replicate (2 * n) '\\' ++ c :: rest) ∧ isStray c = true := by
  fun_induction strayAfterPairs? s with
  | case1 s ih =>
    rw [ih]
    refine and_congr_left fun hstray => ⟨?_, ?_⟩
    · rintro ⟨n, rest, rfl⟩
      exact ⟨n + 1, rest, rfl⟩
    · rintro ⟨_ | n, rest, heq⟩
      · cases heq
        cases hstray
      · exact ⟨n, rest, by simpa [Nat.mul_succ, List.replicate_succ] using heq⟩
  | case2 d s hpair hstray =>
    constructor
    · intro heq
      cases heq
      exact ⟨⟨0, s, rfl⟩, hstray⟩
    · rintro ⟨⟨_ | n, rest, heq⟩, -⟩
      · cases heq
        rfl
      · cases heq
        exact (hpair _ rfl rfl).elim
  | case3 d s hpair hstray =>
    refine ⟨nofun, ?_⟩
    rintro ⟨⟨_ | n, rest, heq⟩, hc⟩
    · cases heq
      exact absurd hc hstray
    · cases heq
      exact (hpair _ rfl rfl).elim
  | case4 =>
    refine ⟨nofun, ?_⟩
    rintro ⟨⟨n, rest, heq⟩, -⟩
    cases n <;> cases heq

theorem pairsLead_zero {previous : Option Char} {s : List Char} {c : Char} :
    PairsLead previous s 0 c ↔ previous ≠ some '\\' ∧ strayAfterPairs? s = some c := by
  rw [strayAfterPairs?_eq_some_iff]
  constructor
  · rintro ⟨hfresh, hpairs, hstray⟩
    exact ⟨fun h => hfresh (congrArg some h), hpairs, hstray⟩
  · rintro ⟨hfresh, hpairs, hstray⟩
    exact ⟨fun h => hfresh (Option.some.inj h), hpairs, hstray⟩

theorem pairsLead_succ {previous : Option Char} {s : List Char} {d : Char} (i : Nat) (c : Char) :
    PairsLead previous (d :: s) (i + 1) c ↔ PairsLead (some d) s i c :=
  ⟨fun h => ⟨h.fresh, h.pairs, h.stray⟩, fun h => ⟨h.fresh, h.pairs, h.stray⟩⟩

/-- The search finds the character of the first match of the pattern. -/
theorem strayFrom?_eq_some_iff {previous : Option Char} {s : List Char} {c : Char} :
    strayFrom? previous s = some c ↔ ∃ i, IsFirst (PairsLead previous s) i c := by
  induction s generalizing previous with
  | nil =>
    constructor
    · nofun
    · rintro ⟨i, ⟨-, ⟨n, rest, hpairs⟩, -⟩, -⟩
      rw [List.drop_nil] at hpairs
      cases n <;> cases hpairs
  | cons d s ih =>
    rw [exists_isFirst_iff pairsLead_succ, strayFrom?, ← ih]
    simp only [pairsLead_zero]
    by_cases hprevious : previous = some '\\'
    · simp [hprevious]
    · rw [if_neg hprevious]
      cases hpairs : strayAfterPairs? (d :: s) <;> simp [hprevious]

/-! ### Both find the same -/

/-- The check of the braces goes by the scan: behind a part that it has passed, the scan says whether the next character is
literal for it. -/
theorem braceDepth?_append_eq_bind (escaped : Bool) (depth : Nat) (s t : List Char) :
    braceDepth? escaped depth (s ++ t) =
      (braceDepth? escaped depth s).bind fun n => braceDepth? (BraceScan.after ⟨escaped, depth⟩ s).escaped n t := by
  fun_induction braceDepth? escaped depth s with
  | case1 escaped depth => rfl
  | case2 depth c s ih => simpa [braceDepth?, BraceScan.step] using ih
  | case3 escaped depth s he ih => simpa [braceDepth?, BraceScan.step, he] using ih
  | case4 escaped depth s he _ ih => simpa [braceDepth?, BraceScan.step, he] using ih
  | case5 escaped s he => simp [braceDepth?, he]
  | case6 escaped depth s he hd _ _ ih =>
    have hcast : (depth : Int) - 1 = ((depth - 1 : Nat) : Int) := by omega
    simpa [braceDepth?, BraceScan.step, he, hd, hcast] using ih
  | case7 escaped depth c s he hc ho hcl ih => simpa [braceDepth?, BraceScan.step, he, hc, ho, hcl] using ih

/-- The search for the pattern finds what the scan of the braces finds: a stray character that no backslash makes literal,
and of several the first one. The scan is that by which the braces are checked. -/
theorem scans_for_strays_agree (s : List Char) (c : Char) :
    (stray? s = some c ↔ ∃ i, IsFirst (PairsLead none s) i c) ∧
    (stray? s = some c ↔ ∃ i, IsFirst (BraceScan.Meets {} s) i c) ∧
    ∀ i, braceDepth? false 0 s =
      (braceDepth? false 0 (s.take i)).bind fun n => braceDepth? (BraceScan.after {} (s.take i)).escaped n (s.drop i) := by
  have hscan : stray? s = BraceScan.stray? {} s := by
    rw [BraceScan.stray?_eq]
    cases s with
    | nil => rfl
    | cons d s => rfl
  refine ⟨strayFrom?_eq_some_iff, ?_, fun i => ?_⟩
  · rw [hscan]
    exact BraceScan.stray?_eq_some_iff
  · have hgoes := braceDepth?_append_eq_bind false 0 (s.take i) (s.drop i)
    rwa [List.take_append_drop] at hgoes

/-- Three backslashes before a percent sign are a pair and one that makes it literal; the dollar sign behind them is not. -/
example : stray? "a\\\\\\%\\\\$#".toList = some '$' := by decide

end WikiTypeset.Formula
