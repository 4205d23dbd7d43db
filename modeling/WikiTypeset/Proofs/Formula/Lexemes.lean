import Mathlib.Data.List.Find
import WikiTypeset.Proofs.Formula.Apart

/-!
# The lexemes of standard forms

Where a formula is read as lexemes, its standard form is read as the same lexemes, but for the commands of the dialect,
which are read as the commands of their spellings, with what follows these behind them. That asks for commands that stand
apart. Main statement: `scan_standardize`.
-/

namespace WikiTypeset.Formula

open Latex Text

/-! ### Commands -/

theorem isLetter_backslash : isLetter '\\' = false := by decide

theorem isAsciiLetter_of_not_isLetter {c : Char} (h : isLetter c = false) : isAsciiLetter c = false := by
  by_contra hascii
  rw [isLetter_of_ascii (by simpa using hascii)] at h
  cases h

/-- The commands of the dialect are words of ASCII letters. -/
theorem isCommandWord_of_dialect {name : List Char} (h : (standardSpelling? (String.ofList name)).isSome = true) :
    IsCommandWord name := by
  have htable : ∀ e ∈ dialectCommands, IsCommandWord e.1.toList := by decide +kernel
  obtain ⟨spelling, hspelling⟩ := Option.isSome_iff_exists.1 h
  obtain ⟨e, hfind, -⟩ := Option.map_eq_some_iff.1 hspelling
  have heq : e.1 = String.ofList name := by simpa using List.find?_some hfind
  have hword := htable e (List.mem_of_find?_eq_some hfind)
  rw [heq] at hword
  simpa using hword

theorem commandName_word {word s : List Char} (hword : IsCommandWord word) (hs : ∀ c ∈ s.head?, isLetter c = false) :
    commandName (word ++ s) = (word, s, skipSpace s) := by
  have hletters : (word ++ s).takeWhile isLetter = word := by
    rw [List.takeWhile_append_of_pos fun c hc => isLetter_of_ascii (hword.letters c hc)]
    cases s with
    | nil => simp
    | cons c s => simp [hs c rfl]
  simp [commandName, hletters, hword.ne_nil]

/-- A name with no command of the dialect at the start of it is none of the dialect. -/
theorem commandName_not_dialect {s : List Char}
    (h : standardSpelling? (String.ofList (s.takeWhile isAsciiLetter)) = none) :
    standardSpelling? (String.ofList (commandName s).1) = none := by
  by_contra hspelling
  have hword := isCommandWord_of_dialect (Option.isSome_iff_ne_none.2 hspelling)
  unfold commandName at hspelling hword
  dsimp only at hspelling hword
  split at hspelling
  next hnil =>
    rw [if_pos hnil] at hword
    cases s with
    | nil => exact hword.ne_nil rfl
    | cons c s =>
      have hletter : isLetter c = true := isLetter_of_ascii (hword.letters c (by simp))
      simp [hletter] at hnil
  next hnil =>
    rw [if_neg hnil] at hword
    have hascii : s.takeWhile isAsciiLetter = s.takeWhile isLetter := by
      have hs : (s.takeWhile isLetter ++ s.dropWhile isLetter).takeWhile isAsciiLetter =
          s.takeWhile isLetter ++ (s.dropWhile isLetter).takeWhile isAsciiLetter :=
        List.takeWhile_append_of_pos hword.letters
      rw [List.takeWhile_append_dropWhile] at hs
      have hhead := List.head?_dropWhile_not isLetter s
      have hnone : (s.dropWhile isLetter).takeWhile isAsciiLetter = [] := by
        cases hrest : s.dropWhile isLetter with
        | nil => rfl
        | cons c rest =>
          rw [hrest] at hhead
          have hc : isLetter c = false := by simpa using hhead
          simp [isAsciiLetter_of_not_isLetter hc]
      rw [hs, hnone, List.append_nil]
    rw [hascii] at h
    exact hspelling h

theorem commandName_standardize {s : List Char} (happart : Apart ('\\' :: s))
    (h : standardSpelling? (String.ofList (s.takeWhile isAsciiLetter)) = none) :
    commandName (standardize s) =
      ((commandName s).1, standardize (commandName s).2.1, standardize (commandName s).2.2) ∧
      Apart (commandName s).2.1 ∧ Apart (commandName s).2.2 := by
  unfold commandName
  simp only [takeWhile_standardize isLetter_backslash, drop_length_takeWhile]
  have hdrop : (standardize s).drop (s.takeWhile isLetter).length = standardize (s.dropWhile isLetter) := by
    rw [← takeWhile_standardize isLetter_backslash, drop_length_takeWhile, dropWhile_standardize isLetter_backslash]
  rw [hdrop, skipSpace_standardize]
  split
  next hnil =>
    cases s with
    | nil => simpa using (by decide : Apart [])
    | cons c s =>
      have hc : isLetter c = false := by
        by_contra hletter
        simp [hletter] at hnil
      -- A row break keeps what is behind it; any other character is no backslash.
      have hrest : standardize (c :: s) = c :: standardize s := by
        by_cases hbreak : c = '\\'
        · subst hbreak
          exact happart.standardize_break
        · exact standardize_cons_of_ne hbreak s
      have hs : Apart s := happart.of_symbol (isAsciiLetter_of_not_isLetter hc)
      rw [hrest]
      exact ⟨rfl, hs, hs⟩
  next hletters =>
    have hrest : Apart (s.dropWhile isLetter) := by
      obtain ⟨rest, hs, hends⟩ := exists_takeWhile_letters s
      by_cases hnil : s.takeWhile isAsciiLetter = []
      · cases s with
        | nil => simpa using (by decide : Apart [])
        | cons c s =>
          have hc : isAsciiLetter c = false := by
            by_contra hletter
            simp [hletter] at hnil
          have hletter : isLetter c = true := by
            by_contra hletter
            simp [hletter] at hletters
          rw [List.dropWhile_cons_of_pos hletter]
          exact (happart.of_symbol hc).dropWhile isLetter_backslash
      · have hword : IsCommandWord (s.takeWhile isAsciiLetter) := ⟨hnil, fun c hc => List.mem_takeWhile_imp hc⟩
        rw [hs] at happart
        have hrest := (happart.of_command hword hends).1.dropWhile isLetter_backslash
        rw [hs, List.dropWhile_append_of_pos fun c hc => isLetter_of_ascii (hword.letters c hc)]
        exact hrest
    exact ⟨rfl, hrest, hrest.skipSpace⟩

/-! ### Names of environments -/

theorem envName?_eq_some_iff {s name rest : List Char} : envName? s = some (name, rest) ↔
    s.dropWhile isBlank = '\x7b' :: (name ++ '\x7d' :: rest) ∧ name ≠ [] ∧ ∀ c ∈ name, isEnvChar c = true := by
  unfold envName?
  constructor
  · intro h
    split at h
    next t heq =>
      dsimp only at h
      split at h
      next rest' hdrop =>
        split at h
        next => cases h
        next hne =>
          cases h
          have hsplit := List.takeWhile_append_dropWhile (p := isEnvChar) (l := t)
          rw [← drop_length_takeWhile, hdrop] at hsplit
          rw [heq, hsplit]
          exact ⟨rfl, by simpa using hne, fun c hc => List.mem_takeWhile_imp hc⟩
      next => cases h
    next => cases h
  · rintro ⟨heq, hne, hname⟩
    have htake : (name ++ '\x7d' :: rest).takeWhile isEnvChar = name := by
      rw [List.takeWhile_append_of_pos hname]
      simp [show isEnvChar '\x7d' = false by decide]
    rw [heq]
    simp [htake, hne]

theorem envName?_standardize {s name rest : List Char} (h : envName? s = some (name, rest)) :
    envName? (standardize s) = some (name, standardize rest) ∧ (Apart s → Apart rest) := by
  obtain ⟨heq, hne, hname⟩ := envName?_eq_some_iff.1 h
  have hplain : '\\' ∉ '\x7b' :: (name ++ ['\x7d']) := by
    have hbackslash : '\\' ∉ name := fun hmem => by
      have henv := hname _ hmem
      exact absurd henv (by decide)
    simpa using hbackslash
  have hsplit : '\x7b' :: (name ++ '\x7d' :: rest) = '\x7b' :: (name ++ ['\x7d']) ++ rest := by simp
  constructor
  · refine envName?_eq_some_iff.2 ⟨?_, hne, hname⟩
    rw [dropWhile_standardize isBlank_backslash, heq, hsplit, standardize_append hplain]
    simp
  · intro hs
    have hrest := hs.dropWhile isBlank_backslash
    rw [heq, hsplit] at hrest
    exact hrest.of_append hplain

/-! ### Lexemes -/

/-- What a lexeme is read as in the standard form: a command of the dialect as the command of its spelling, with the
argument of the spelling behind it, and any other lexeme as itself. -/
inductive Restates : Scanned → Scanned → Prop
  | kept {lexeme : Lexeme} {start rest : List Char}
    (hname : ∀ name, lexeme = .command name → standardSpelling? (String.ofList name) = none) (hstart : Apart start)
    (hrest : Apart rest) : Restates ⟨lexeme, start, rest⟩ ⟨lexeme, standardize start, standardize rest⟩
  | respelled {name start after : List Char} {spelling : String}
    (hspelling : standardSpelling? (String.ofList name) = some spelling) (hafter : Apart after) :
    Restates ⟨.command name, start, skipSpace after⟩ ⟨.command (spellingCommand spelling), standardize start,
      skipSpace (spellingArgument spelling ++ standardize after)⟩

/-- The names of the commands that are read in ways of their own. -/
def structuralNames : List (List Char) := ["begin".toList, "end".toList, "verb".toList]

/-- All that is needed of the table of spellings. -/
theorem spelling_of_dialect {name : List Char} {spelling : String}
    (h : standardSpelling? (String.ofList name) = some spelling) :
    spelling.toList = '\\' :: (spellingCommand spelling ++ spellingArgument spelling) ∧
      IsCommandWord (spellingCommand spelling) ∧ IsArgument (spellingArgument spelling) ∧
      name ∉ structuralNames ∧ spellingCommand spelling ∉ structuralNames := by
  have htable : ∀ e ∈ dialectCommands, e.1.toList ∉ structuralNames ∧ spellingCommand e.2 ∉ structuralNames := by
    decide +kernel
  obtain ⟨e, hfind, rfl⟩ := Option.map_eq_some_iff.1 h
  have he := List.mem_of_find?_eq_some hfind
  have hname : e.1 = String.ofList name := by simpa using List.find?_some hfind
  obtain ⟨hcommand, hargument, heq⟩ := spelling_eq e he
  obtain ⟨hstructural, hstructural'⟩ := htable e he
  rw [hname] at hstructural
  exact ⟨heq, hcommand, hargument, by simpa using hstructural, hstructural'⟩

theorem scanCommand_word {s name after rest : List Char} (hword : IsCommandWord name) (hname : name ∉ structuralNames)
    (h : commandName s = (name, after, rest)) (mode : ScanMode) (start : List Char) :
    scanCommand mode start s = .ok ⟨.command name, start, rest⟩ := by
  have hsymbol : ∀ c, isAsciiLetter c = false → name ≠ [c] := by
    rintro c hc rfl
    rw [hword.letters c (by simp)] at hc
    cases hc
  have hbegin : (name == "begin".toList) = false := by
    simp only [structuralNames, List.mem_cons, not_or] at hname
    exact beq_false_of_ne hname.1
  have hend : (name == "end".toList) = false := by
    simp only [structuralNames, List.mem_cons, not_or] at hname
    exact beq_false_of_ne hname.2.1
  unfold scanCommand
  rw [h]
  dsimp only
  split
  · exact absurd rfl (hsymbol '[' (by decide))
  · exact absurd rfl (hsymbol ']' (by decide))
  · exact absurd rfl (hsymbol '(' (by decide))
  · exact absurd rfl (hsymbol ')' (by decide))
  · rw [hbegin, hend, Bool.or_false, Bool.and_false, if_neg Bool.false_ne_true]

theorem scanCommand_kept {mode : ScanMode} {start s : List Char} {t : Scanned} (hstart : Apart start)
    (happart : Apart ('\\' :: s)) (hspelling : standardSpelling? (String.ofList (s.takeWhile isAsciiLetter)) = none)
    (h : scanCommand mode start s = .ok t) :
    ∃ t', scanCommand mode (standardize start) (standardize s) = .ok t' ∧ Restates t t' := by
  obtain ⟨hstandard, hafter, hrest⟩ := commandName_standardize happart hspelling
  have hname := commandName_not_dialect hspelling
  unfold scanCommand at h ⊢
  rw [hstandard]
  generalize commandName s = command at h hafter hrest hname
  obtain ⟨name, after, rest⟩ := command
  dsimp only at h hafter hrest hname ⊢
  split at h
  · cases h
    exact ⟨_, rfl, .kept nofun hstart hafter⟩
  · cases h
    exact ⟨_, rfl, .kept nofun hstart hafter⟩
  · cases h
    exact ⟨_, rfl, .kept nofun hstart hafter⟩
  · cases h
    exact ⟨_, rfl, .kept nofun hstart hafter⟩
  · split at h
    next henv =>
      rw [if_pos henv]
      split at h
      next env rest' heq =>
        cases h
        obtain ⟨heq', happart'⟩ := envName?_standardize heq
        rw [heq']
        refine ⟨_, rfl, .kept (fun name hlexeme => ?_) hstart (happart' hafter)⟩
        split at hlexeme <;> cases hlexeme
      next => cases h
    next henv =>
      rw [if_neg henv]
      cases h
      refine ⟨_, rfl, .kept (fun name' hlexeme => ?_) hstart hrest⟩
      cases hlexeme
      exact hname

/-- A command is read in the standard form as it is or, if it is of the dialect, as the command of its spelling. -/
theorem scanCommand_standardize {mode : ScanMode} {s : List Char} {t : Scanned} (happart : Apart ('\\' :: s))
    (h : scanCommand mode ('\\' :: s) s = .ok t) : ∃ s' t', standardize ('\\' :: s) = '\\' :: s' ∧ (s ≠ [] → s' ≠ []) ∧
      scanCommand mode ('\\' :: s') s' = .ok t' ∧ Restates t t' := by
  cases hspelling : standardSpelling? (String.ofList (s.takeWhile isAsciiLetter)) with
  | none =>
    have hself := standardize_backslash hspelling
    obtain ⟨t', ht', hrestates⟩ := scanCommand_kept happart happart hspelling h
    rw [hself] at ht'
    refine ⟨standardize s, t', hself, fun hne hnil => ?_, ht', hrestates⟩
    have hhead := head?_standardize s
    rw [hnil] at hhead
    exact hne (List.head?_eq_none_iff.1 hhead.symm)
  | some spelling =>
    obtain ⟨heq, hcommand, hargument, hname, hname'⟩ := spelling_of_dialect hspelling
    have hword := isCommandWord_of_dialect (by rw [hspelling]; rfl)
    obtain ⟨rest, hs, hrest⟩ := exists_takeWhile_letters s
    generalize s.takeWhile isAsciiLetter = word at hspelling hname hword hs
    subst hs
    obtain ⟨hafter, hletter⟩ := happart.of_command hword hrest
    have hletter := hletter (by rw [hspelling]; rfl)
    -- Neither the word nor the command of its spelling goes on behind its last letter.
    have hletter' : ∀ c ∈ (spellingArgument spelling ++ standardize rest).head?, isLetter c = false := by
      rcases hargument with hnil | ⟨c, -, -, hgroup⟩
      · rw [hnil, List.nil_append, head?_standardize]
        exact hletter
      · rw [hgroup]
        rintro d hd
        cases hd
        decide
    have hstandard : standardize ('\\' :: (word ++ rest)) =
        '\\' :: (spellingCommand spelling ++ (spellingArgument spelling ++ standardize rest)) := by
      have hrespell : respell word = spelling.toList := by simp only [respell, hspelling]
      rw [standardize_command hword hrest, hrespell, heq, List.cons_append, List.append_assoc]
    rw [scanCommand_word hword hname (commandName_word hword hletter)] at h
    cases h
    have hscan := scanCommand_word hcommand hname' (commandName_word hcommand hletter') mode
      (standardize ('\\' :: (word ++ rest)))
    refine ⟨_, _, hstandard, fun _ hnil => ?_, hstandard ▸ hscan, .respelled hspelling hafter⟩
    exact hcommand.ne_nil (List.append_eq_nil_iff.1 hnil).1

/-- A lexeme that is no command is read in the standard form as it is. -/
theorem scan_plain {mode : ScanMode} {c : Char} {s : List Char} {t : Scanned} (hc : c ≠ '\\') (hblank : isBlank c = false)
    (happart : Apart (c :: s)) (h : scan mode (c :: s) = .ok (some t)) :
    ∃ t', scan mode (c :: standardize s) = .ok (some t') ∧ Restates t t' := by
  have hs := (Apart.cons_iff hc).1 happart
  have hstart := standardize_cons_of_ne hc s
  have hkept : ∀ lexeme rest, (∀ name, lexeme ≠ .command name) → Apart rest →
      Restates ⟨lexeme, c :: s, rest⟩ ⟨lexeme, c :: standardize s, standardize rest⟩ := by
    intro lexeme rest hlexeme hrest
    rw [← hstart]
    exact .kept (fun name hname => absurd hname (hlexeme name)) happart hrest
  have hplain : ∀ l ∈ ligatures, '\\' ∉ l := by decide
  have hfind : (ligatures.find? fun l => l.isPrefixOf (c :: standardize s)) =
      ligatures.find? fun l => l.isPrefixOf (c :: s) := by
    rw [← hstart]
    exact List.find?_congr fun l hl => isPrefixOf_standardize (hplain l hl) (c :: s)
  unfold scan at h ⊢
  rw [skipBlanks_cons hblank] at h ⊢
  dsimp only at h ⊢
  rw [hfind]
  split at h
  next => contradiction
  next =>
    cases h
    exact ⟨_, rfl, hkept _ _ nofun hs⟩
  next =>
    cases h
    exact ⟨_, rfl, hkept _ _ nofun hs⟩
  next =>
    split at h
    next hsquare =>
      cases h
      rw [if_pos hsquare]
      exact ⟨_, rfl, hkept _ _ nofun hs⟩
    next hsquare =>
      rw [if_neg hsquare]
      split at h
      next hsquare' =>
        cases h
        rw [if_pos hsquare']
        exact ⟨_, rfl, hkept _ _ nofun hs⟩
      next hsquare' =>
        rw [if_neg hsquare']
        split at h
        next l hl =>
          cases h
          -- The characters of the ligature are the same in the standard form, and what follows them is restated.
          have hstarts : l.isPrefixOf (c :: s) = true := by simpa using List.find?_some hl
          obtain ⟨rest, hrest⟩ := List.isPrefixOf_iff_prefix.1 hstarts
          have hl' := hplain l (List.mem_of_find?_eq_some hl)
          have hdrop : (c :: standardize s).drop l.length = standardize ((c :: s).drop l.length) := by
            rw [← hstart, ← hrest, standardize_append hl', List.drop_left, List.drop_left]
          have happart' : Apart ((c :: s).drop l.length) := by
            rw [← hrest] at happart ⊢
            rw [List.drop_left]
            exact happart.of_append hl'
          refine ⟨_, rfl, ?_⟩
          rw [hdrop]
          exact hkept _ _ nofun happart'
        next =>
          cases h
          exact ⟨_, rfl, hkept _ _ nofun hs⟩

theorem scan_congr {mode : ScanMode} {s s' : List Char} (h : skipBlanks false s = skipBlanks false s') :
    scan mode s = scan mode s' := by
  unfold scan
  rw [h]

theorem scan_backslash (mode : ScanMode) (s : List Char) : scan mode ('\\' :: s) =
    if s.isEmpty then .ok none else (scanCommand mode ('\\' :: s) s).map some := by
  unfold scan
  rw [skipBlanks_cons isBlank_backslash]
  rfl

theorem scan_paragraph {mode : ScanMode} {s rest : List Char} (h : skipBlanks false s = .paragraph rest) :
    scan mode s = .ok (some ⟨.paragraph, '\n' :: '\n' :: rest, rest⟩) := by
  unfold scan
  rw [h]

theorem scan_end {mode : ScanMode} {s : List Char} (h : skipBlanks false s = .input []) : scan mode s = .ok none := by
  unfold scan
  rw [h]

theorem scan_ne_none {mode : ScanMode} {c : Char} {s : List Char} (hc : c ≠ '\\') (hblank : isBlank c = false) :
    scan mode (c :: s) ≠ .ok none := by
  unfold scan
  rw [skipBlanks_cons hblank]
  dsimp only
  split
  · contradiction
  · simp
  · simp
  · split
    · simp
    · split
      · simp
      · split <;> simp

/-- What is left when blanks are skipped begins with none. -/
theorem skipBlanks_input {afterNewline : Bool} {s : List Char} {c : Char} {rest : List Char}
    (h : skipBlanks afterNewline s = .input (c :: rest)) : isBlank c = false := by
  induction s generalizing afterNewline with
  | nil => cases h
  | cons d s ih =>
    rw [skipBlanks] at h
    split at h
    · cases h
    · split at h
      · exact ih h
      next hblank =>
        cases h
        simpa using hblank

/-- Where an input has no lexeme, its standard form has none either, and a lexeme is read as it is to be restated. -/
theorem scan_standardize {mode : ScanMode} {s : List Char} (happart : Apart s) :
    (scan mode s = .ok none → scan mode (standardize s) = .ok none) ∧
      ∀ t, scan mode s = .ok (some t) → ∃ t', scan mode (standardize s) = .ok (some t') ∧ Restates t t' := by
  obtain ⟨p, rest, hp, hs, hskip⟩ := exists_skipBlanks false s
  have hrest : Apart rest := by
    rw [hs] at happart
    exact happart.of_append hp
  have hstandard := skipBlanks_standardize false s
  rcases hskip with hskip | hskip
  · have hstandard : skipBlanks false (standardize s) = .paragraph (standardize rest) := by rw [hstandard, hskip]
    have hline : '\n' ≠ '\\' := by decide
    have hpair : standardize ('\n' :: '\n' :: rest) = '\n' :: '\n' :: standardize rest := by
      rw [standardize_cons_of_ne hline, standardize_cons_of_ne hline]
    have hstart : Apart ('\n' :: '\n' :: rest) := (Apart.cons_iff hline).2 ((Apart.cons_iff hline).2 hrest)
    rw [scan_paragraph hskip, scan_paragraph hstandard]
    refine ⟨nofun, fun t ht => ?_⟩
    cases ht
    refine ⟨_, rfl, ?_⟩
    rw [← hpair]
    exact .kept nofun hstart hrest
  · have hstandard : skipBlanks false (standardize s) = .input (standardize rest) := by rw [hstandard, hskip]
    cases rest with
    | nil =>
      rw [standardize_nil] at hstandard
      rw [scan_end hskip, scan_end hstandard]
      exact ⟨fun _ => rfl, nofun⟩
    | cons c rest =>
      -- The blanks do not matter, so the input may be taken to begin with the lexeme.
      have hblank := skipBlanks_input hskip
      obtain ⟨rest', hrest', hplain⟩ := standardize_cons c rest
      rw [hrest'] at hstandard
      rw [scan_congr (hskip.trans (skipBlanks_cons hblank rest).symm),
        scan_congr (hstandard.trans (skipBlanks_cons hblank rest').symm)]
      by_cases hc : c = '\\'
      · subst hc
        rw [scan_backslash, scan_backslash]
        cases rest with
        | nil =>
          have hnil := standardize_plain (c := '\\') (s := []) fun _ => EndsWord.nil
          rw [hnil, standardize_nil] at hrest'
          cases hrest'
          exact ⟨fun _ => rfl, nofun⟩
        | cons d rest =>
          refine ⟨fun hnone => ?_, fun t ht => ?_⟩
          · cases hscan : scanCommand mode ('\\' :: d :: rest) (d :: rest) <;> simp [hscan, Except.map] at hnone
          · obtain ⟨t', hscan, rfl⟩ : ∃ t', scanCommand mode ('\\' :: d :: rest) (d :: rest) = .ok t' ∧ t' = t := by
              cases hscan : scanCommand mode ('\\' :: d :: rest) (d :: rest) with
              | error cause => simp [hscan, Except.map] at ht
              | ok t' => exact ⟨t', rfl, by simpa [hscan, Except.map] using ht⟩
            obtain ⟨s', t'', hs', hne, hscan', hrestates⟩ := scanCommand_standardize hrest hscan
            rw [hs'] at hrest'
            have hsame : s' = rest' := (List.cons.inj hrest').2
            subst hsame
            have hcons : s'.isEmpty = false := by simpa using hne (by simp)
            refine ⟨t'', ?_, hrestates⟩
            rw [hcons, hscan']
            rfl
      · rw [hplain hc]
        refine ⟨fun hnone => ?_, fun t ht => scan_plain hc hblank hrest ht⟩
        exact absurd hnone (scan_ne_none hc hblank)

end WikiTypeset.Formula
