import Mathlib.Data.List.Induction
import WikiTypeset.Proofs.Formula.Commands

/-!
# Accepted formulas as groups

A text is scanned for braces from left to right, a backslash making the next character literal; it is one group if its
first brace is open up to its very end. The standard form of a formula is scanned to the same end as the formula itself,
so an accepted formula is one group unless the formula ends in a backslash that makes the closing brace literal. Main
statement: `check_isGroup_iff`.
-/

namespace WikiTypeset.Formula

open Text

/-! ### Scanning for braces -/

/-- Where a scan for braces stands. -/
structure BraceScan where
  /-- The next character is literal. -/
  escaped : Bool := false
  /-- How many more braces have been opened than closed. -/
  depth : Int := 0
  deriving DecidableEq, Repr

/-- The scan after one more character. -/
def BraceScan.step (b : BraceScan) (c : Char) : BraceScan :=
  if b.escaped then { b with escaped := false }
  else if c = '\\' then { b with escaped := true }
  else if c = '\x7b' then { b with depth := b.depth + 1 }
  else if c = '\x7d' then { b with depth := b.depth - 1 }
  else b

/-- The scan after a text. -/
def BraceScan.after (b : BraceScan) (s : List Char) : BraceScan := s.foldl step b

/-- The scan of a text from its start. -/
def scanBraces (s : List Char) : BraceScan := BraceScan.after {} s

/-- The text is exactly one group: its first character opens a brace, and its last one closes it. -/
structure IsGroup (s : List Char) : Prop where
  opens : (scanBraces (s.take 1)).depth = 1
  stays : ∀ n, 0 < n → n < s.length → 0 < (scanBraces (s.take n)).depth
  closes : (scanBraces s).depth = 0

namespace BraceScan

variable (b : BraceScan)

@[simp] theorem after_nil : b.after [] = b := rfl

@[simp] theorem after_cons (c : Char) (s : List Char) : b.after (c :: s) = (b.step c).after s := rfl

theorem after_append (s t : List Char) : b.after (s ++ t) = (b.after s).after t := List.foldl_append

/-- Braces around a text are counted with those in it. -/
theorem after_deeper (k : Int) (s : List Char) :
    { b with depth := b.depth + k }.after s = { b.after s with depth := (b.after s).depth + k } := by
  induction s generalizing b with
  | nil => rfl
  | cons c s ih =>
    have hstep : { b with depth := b.depth + k }.step c = { b.step c with depth := (b.step c).depth + k } := by
      unfold step
      split
      · rfl
      · split
        · rfl
        · split
          · simp only [BraceScan.mk.injEq, true_and]
            omega
          · split
            · simp only [BraceScan.mk.injEq, true_and]
              omega
            · rfl
    rw [after_cons, after_cons, hstep, ih]

@[simp] theorem escaped_step (c : Char) : (b.step c).escaped = (!b.escaped && decide (c = '\\')) := by
  unfold step
  split
  · simp_all
  · split
    · simp_all
    · split
      · simp_all
      · split <;> simp_all

/-- The next character is literal just if an odd number of backslashes stand at the end. -/
theorem escaped_after_iff (s : List Char) :
    (BraceScan.after {} s).escaped = true ↔ (s.reverse.takeWhile (· = '\\')).length % 2 = 1 := by
  induction s using List.reverseRecOn with
  | nil => simp
  | append_singleton s c ih =>
    rw [after_append, after_cons, after_nil, escaped_step, List.reverse_append, List.reverse_singleton,
      List.singleton_append, List.takeWhile_cons]
    by_cases hc : c = '\\'
    · cases he : (BraceScan.after {} s).escaped with
      | true =>
        have hodd := ih.1 he
        simp [hc]
        omega
      | false =>
        have heven : (s.reverse.takeWhile (· = '\\')).length % 2 ≠ 1 := fun h => by simp [ih.2 h] at he
        simp [hc]
        omega
    · simp [hc]

end BraceScan

/-! ### The check of the braces -/

/-- Where the check of the braces goes on, the scan has come to the same place, also inside further groups. -/
theorem braceDepth?_cons {escaped : Bool} {depth k : Nat} {c : Char} {s : List Char}
    (h : braceDepth? escaped depth (c :: s) = some k) :
    ∃ escaped' depth', (BraceScan.mk escaped depth).step c = ⟨escaped', (depth' : Nat)⟩ ∧
      braceDepth? escaped' depth' s = some k ∧
      ∀ m t, braceDepth? escaped (depth + m) (c :: t) = braceDepth? escaped' (depth' + m) t := by
  unfold braceDepth? at h
  unfold BraceScan.step
  split at h
  next he => exact ⟨false, depth, by simp [he], h, fun m t => by simp [braceDepth?, he]⟩
  next he =>
    split at h
    next hc => exact ⟨true, depth, by simp [he, hc], h, fun m t => by simp [braceDepth?, he, hc]⟩
    next hc =>
      split at h
      next ho =>
        exact ⟨false, depth + 1, by simp [he, ho], h, fun m t => by simp [braceDepth?, he, ho, Nat.add_right_comm]⟩
      next ho =>
        split at h
        next hcl =>
          split at h
          next => cases h
          next hd =>
            refine ⟨false, depth - 1, ?_, h, fun m t => ?_⟩
            · simp [he, hcl]
              omega
            · have hsub : depth + m - 1 = depth - 1 + m := by omega
              simp [braceDepth?, he, hcl, hd, hsub]
        next hcl =>
          exact ⟨false, depth, by simp [he, hc, ho, hcl], h, fun m t => by simp [braceDepth?, he, hc, ho, hcl]⟩

/-- What the check of the braces finds out: the depth at the end, and that it is never negative before. -/
theorem braceDepth?_eq_some {escaped : Bool} {depth k : Nat} {s : List Char}
    (h : braceDepth? escaped depth s = some k) :
    (BraceScan.after ⟨escaped, depth⟩ s).depth = k ∧
      ∀ n, 0 ≤ (BraceScan.after ⟨escaped, depth⟩ (s.take n)).depth := by
  induction s generalizing escaped depth with
  | nil =>
    cases h
    exact ⟨rfl, fun n => by simp⟩
  | cons c s ih =>
    obtain ⟨escaped', depth', hscan, hs, -⟩ := braceDepth?_cons h
    obtain ⟨hend, hstays⟩ := ih hs
    refine ⟨by rw [BraceScan.after_cons, hscan, hend], fun n => ?_⟩
    cases n with
    | zero => simp
    | succ n =>
      rw [List.take_succ_cons, BraceScan.after_cons, hscan]
      exact hstays n

/-- After balanced braces the check goes on from where the scan has come, also inside further groups. -/
theorem braceDepth?_append {escaped : Bool} {depth k : Nat} {s : List Char} (h : braceDepth? escaped depth s = some k)
    (m : Nat) (t : List Char) :
    braceDepth? escaped (depth + m) (s ++ t) =
      braceDepth? (BraceScan.after ⟨escaped, depth⟩ s).escaped (k + m) t := by
  induction s generalizing escaped depth with
  | nil =>
    cases h
    rfl
  | cons c s ih =>
    obtain ⟨escaped', depth', hscan, hs, hrest⟩ := braceDepth?_cons h
    rw [List.cons_append, hrest m (s ++ t), ih hs, BraceScan.after_cons, hscan]

theorem braceDepth?_letters {s : List Char} (hs : ∀ c ∈ s, isAsciiLetter c = true) (depth : Nat) (t : List Char) :
    braceDepth? false depth (s ++ t) = braceDepth? false depth t := by
  induction s with
  | nil => rfl
  | cons c s ih =>
    have hplain : ∀ d, isAsciiLetter d = false → c ≠ d := fun d => ne_of_isAsciiLetter (hs c (by simp))
    rw [List.cons_append, braceDepth?]
    simp only [hplain '\\' (by decide), hplain '\x7b' (by decide), hplain '\x7d' (by decide)]
    exact ih fun d hd => hs d (by simp [hd])

/-- A command word leaves the depth, and the next character is not literal after it. -/
theorem braceDepth?_command {word : List Char} (hword : IsCommandWord word) (escaped : Bool) (depth : Nat)
    (t : List Char) : braceDepth? escaped depth ('\\' :: (word ++ t)) = braceDepth? false depth t := by
  cases escaped with
  | true =>
    -- The backslash is literal itself.
    show braceDepth? false depth (word ++ t) = _
    exact braceDepth?_letters hword.letters depth t
  | false =>
    -- The backslash makes the first letter literal.
    obtain ⟨c, word, rfl⟩ := List.exists_cons_of_ne_nil hword.ne_nil
    show braceDepth? false depth (word ++ t) = _
    exact braceDepth?_letters (fun d hd => hword.letters d (by simp [hd])) depth t

theorem braceDepth?_argument {argument : List Char} (h : IsArgument argument) (depth : Nat) (t : List Char) :
    braceDepth? false depth (argument ++ t) = braceDepth? false depth t := by
  rcases h with rfl | ⟨c, -, hc, rfl⟩
  · rfl
  · show braceDepth? false (depth + 1) ([c] ++ '\x7d' :: t) = _
    rw [braceDepth?_letters (by simpa using hc)]
    rfl

/-- The standard form of a formula passes the check of the braces as the formula does, whatever follows it. -/
theorem braceDepth?_standardize (escaped : Bool) (depth : Nat) (s t : List Char) :
    braceDepth? escaped depth (standardize s ++ t) = braceDepth? escaped depth (s ++ t) := by
  induction s using cut_induction generalizing escaped depth with
  | nil => rw [standardize_nil]
  | char c s hplain ih =>
    rw [standardize_plain hplain]
    simp only [List.cons_append, braceDepth?, ih]
  | command word rest hword hrest ih =>
    obtain ⟨name, argument, hname, hargument, heq, -⟩ := exists_respelling hword
    rw [standardize_command hword hrest, heq]
    simp only [List.cons_append, List.append_assoc]
    rw [braceDepth?_command hname, braceDepth?_argument hargument, braceDepth?_command hword, ih]

/-! ### Accepted formulas -/

/-- The standard form of a formula with balanced braces, put in braces, is one group just if no unpaired backslash ends
the formula. -/
theorem isGroup_standardize_iff {s : List Char} (h : bracesBalanced s = true) :
    IsGroup ('\x7b' :: standardize s ++ ['\x7d']) ↔ (BraceScan.after {} s).escaped = false := by
  have hs : braceDepth? false 0 s = some 0 := by simpa [bracesBalanced] using h
  have hstandard : braceDepth? false 0 (standardize s) = some 0 := by
    have heq := braceDepth?_standardize false 0 s []
    rw [List.append_nil, List.append_nil] at heq
    exact heq.trans hs
  -- The closing brace comes after what the formula itself leaves.
  have hclose : braceDepth? false 0 ('\x7b' :: standardize s ++ ['\x7d']) =
      some (if (BraceScan.after {} s).escaped then 1 else 0) := by
    have hall : braceDepth? false 0 ('\x7b' :: standardize s ++ ['\x7d']) = braceDepth? false (0 + 1) (s ++ ['\x7d']) :=
      braceDepth?_standardize false 1 s ['\x7d']
    rw [hall, braceDepth?_append hs]
    show braceDepth? (BraceScan.after {} s).escaped 1 ['\x7d'] = _
    cases (BraceScan.after {} s).escaped <;> rfl
  have hdepth := (braceDepth?_eq_some hclose).1
  constructor
  · intro hgroup
    have hzero : (BraceScan.after {} ('\x7b' :: standardize s ++ ['\x7d'])).depth = 0 := hgroup.closes
    cases he : (BraceScan.after {} s).escaped with
    | false => rfl
    | true =>
      rw [he] at hdepth
      exact absurd (hzero.symm.trans hdepth) (by decide)
  · intro he
    refine ⟨rfl, fun n hpos hlt => ?_, by rw [he] at hdepth; exact hdepth⟩
    obtain ⟨n, rfl⟩ := Nat.exists_eq_succ_of_ne_zero (Nat.pos_iff_ne_zero.1 hpos)
    have hn : n ≤ (standardize s).length := by
      simp at hlt
      omega
    have hinside := (braceDepth?_eq_some hstandard).2 n
    have hdeeper := BraceScan.after_deeper {} 1 ((standardize s).take n)
    rw [List.cons_append, List.take_succ_cons, List.take_append_of_le_length hn]
    show 0 < (BraceScan.after { depth := 0 + 1 } ((standardize s).take n)).depth
    rw [hdeeper]
    show 0 < (BraceScan.after {} ((standardize s).take n)).depth + 1
    have hstart : BraceScan.mk false ((0 : Nat) : Int) = {} := rfl
    rw [hstart] at hinside
    omega

/-- What is made of an accepted formula is one group just if the formula, without the blanks around it, ends in an even
number of backslashes: a last unpaired backslash makes the closing brace literal. -/
theorem check_isGroup_iff {source : List Char} {a : Accepted} (h : check source = .ok a) :
    IsGroup a.output ↔ ((trim source).reverse.takeWhile (· = '\\')).length % 2 = 0 := by
  obtain ⟨hbraces, -, nodes, -, -, rfl⟩ := check_ok h
  have hescaped := BraceScan.escaped_after_iff (trim source)
  rw [isGroup_standardize_iff hbraces]
  constructor
  · intro he
    rw [he] at hescaped
    have hodd : ¬ ((trim source).reverse.takeWhile (· = '\\')).length % 2 = 1 := fun h => by simpa using hescaped.2 h
    omega
  · intro heven
    by_contra he
    have hodd := hescaped.1 (by simpa using he)
    omega

/-- A row break at the end, as what is under a hat, is no unpaired backslash. -/
theorem hatRowBreak_isGroup : ∃ a, check "\\R\\hat\\\\ ".toList = .ok a ∧
    ((trim "\\R\\hat\\\\ ".toList).reverse.takeWhile (· = '\\')).length % 2 = 0 ∧ IsGroup a.output := by
  have hcheck : check "\\R\\hat\\\\ ".toList = .ok ⟨"\x7b\\mathbb\x7bR\x7d\\hat\\\\\x7d".toList, []⟩ :=
    check_of_toOption (by decide +kernel)
  have heven : ((trim "\\R\\hat\\\\ ".toList).reverse.takeWhile (· = '\\')).length % 2 = 0 := by decide +kernel
  exact ⟨_, hcheck, heven, (check_isGroup_iff hcheck).2 heven⟩

/-- A control space at the end loses its blank, and its backslash makes the closing brace literal. -/
theorem controlSpace_isNotGroup : ∃ a, check "x\\ ".toList = .ok a ∧ ¬ IsGroup a.output := by
  have hcheck : check "x\\ ".toList = .ok ⟨"\x7bx\\\x7d".toList, []⟩ := check_of_toOption (by decide +kernel)
  exact ⟨_, hcheck, fun hgroup => absurd hgroup.closes (by decide)⟩

end WikiTypeset.Formula
