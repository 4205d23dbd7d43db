import WikiTypeset.Proofs.Formula.Grouping
import WikiTypeset.Proofs.Tex.Escaped

/-!
# The braces of fragments

A fragment leads from one depth of unescaped braces to another if it closes none that is not open, and if it leaves the
character after it as it is. Such fragments compose. The scan for braces and the scan for tokens count the same groups,
so what is known of the tokens of escaped text carries over. Main statements: `Leads.append` and `Complete.leads`.
-/

namespace WikiTypeset.Latex

open Formula Text

/-- A fragment that leads from depth `n` to depth `m` of unescaped braces and ends in no unpaired backslash. -/
structure Leads (s : List Char) (n m : Nat) : Prop where
  depth : braceDepth? false n s = some m
  paired : (scanBraces s).escaped = false

instance (s : List Char) (n m : Nat) : Decidable (Leads s n m) :=
  decidable_of_iff (braceDepth? false n s = some m ∧ (scanBraces s).escaped = false)
    ⟨fun h => ⟨h.1, h.2⟩, fun h => ⟨h.depth, h.paired⟩⟩

/-- Whether a character is literal does not depend on the depth. -/
theorem escaped_after_of_depth (escaped : Bool) (depth depth' : Int) (s : List Char) :
    (BraceScan.after ⟨escaped, depth⟩ s).escaped = (BraceScan.after ⟨escaped, depth'⟩ s).escaped := by
  have hfrom : ∀ k, (BraceScan.after ⟨escaped, 0 + k⟩ s).escaped = (BraceScan.after ⟨escaped, 0⟩ s).escaped := by
    intro k
    have hdeeper := BraceScan.after_deeper ⟨escaped, 0⟩ k s
    rw [hdeeper]
  have hleft := hfrom depth
  have hright := hfrom depth'
  rw [Int.zero_add] at hleft hright
  rw [hleft, hright]

namespace Leads

variable {s t : List Char} {n m k : Nat}

theorem nil (n : Nat) : Leads [] n n := ⟨rfl, rfl⟩

/-- The scan goes on after the fragment as from its own start. -/
theorem escaped_after (h : Leads s n m) (depth : Int) : (BraceScan.after ⟨false, depth⟩ s).escaped = false := by
  rw [escaped_after_of_depth false depth 0]
  exact h.paired

theorem append (hs : Leads s n m) (ht : Leads t m k) : Leads (s ++ t) n k := by
  constructor
  · have happend := braceDepth?_append hs.depth 0 t
    rw [hs.escaped_after n, Nat.add_zero, Nat.add_zero] at happend
    rw [happend]
    exact ht.depth
  · have hscan : scanBraces (s ++ t) = (scanBraces s).after t := BraceScan.after_append {} s t
    have hstart : scanBraces s = ⟨false, (scanBraces s).depth⟩ := by
      rw [← hs.paired]
    rw [hscan, hstart]
    exact ht.escaped_after _

/-- What is open around a fragment stays open. -/
theorem add (h : Leads s n m) (j : Nat) : Leads s (n + j) (m + j) := by
  refine ⟨?_, h.paired⟩
  have happend := braceDepth?_append h.depth j []
  rw [List.append_nil, h.escaped_after n] at happend
  exact happend

/-- A fragment with balanced braces may stand at any depth. -/
theorem inside (h : Leads s 0 0) (n : Nat) : Leads s n n := by
  have hadd := h.add n
  rwa [Nat.zero_add] at hadd

/-- No part of a balanced fragment from its start closes more braces than it opens. -/
theorem scan (h : Leads s 0 0) :
    (scanBraces s).depth = 0 ∧ ∀ i, 0 ≤ (scanBraces (s.take i)).depth :=
  braceDepth?_eq_some h.depth

end Leads

/-! ### Tokens and braces -/

theorem braceDepth?_stepPlain {c : Char} {s : List Char} {n : Nat}
    (hrest : ∀ n, braceDepth? (decide ((TexScan.stepPlain c).2 = .backslash)) n s =
      TexToken.depthAfter n ((TexScan.stepPlain c).2.tokens s)) :
    braceDepth? false n (c :: s) =
      TexToken.depthAfter n ((TexScan.stepPlain c).1 ++ (TexScan.stepPlain c).2.tokens s) := by
  unfold TexScan.stepPlain at hrest ⊢
  split at hrest
  · exact hrest n
  · exact hrest (n + 1)
  · rw [braceDepth?]
    by_cases hn : n = 0
    · simp [hn, TexToken.depthAfter, TexToken.depth]
    · have hclosed := hrest (n - 1)
      simpa [hn, TexToken.depthAfter, TexToken.depth] using hclosed
  · next hbackslash hopening hclosing =>
    rw [braceDepth?, if_neg Bool.false_ne_true, if_neg hbackslash, if_neg hopening, if_neg hclosing]
    exact hrest n

/-- The scan for braces counts the groups that the tokens open and close. -/
theorem braceDepth?_eq_depthAfter (scan : TexScan) (n : Nat) (s : List Char) :
    braceDepth? (decide (scan = .backslash)) n s = TexToken.depthAfter n (scan.tokens s) := by
  induction s generalizing scan n with
  | nil => cases scan <;> rfl
  | cons c s ih =>
    have hplain := braceDepth?_stepPlain (n := n) fun n => ih (TexScan.stepPlain c).2 n
    have hletter : isAsciiLetter c = true → braceDepth? false n (c :: s) = braceDepth? false n s :=
      fun hc => braceDepth?_letters (s := [c]) (by simpa using hc) n s
    cases scan with
    | plain => exact hplain
    | backslash =>
      -- The character behind a backslash is literal, whether or not it begins a control word.
      by_cases hc : isAsciiLetter c = true
      · have hword := ih (.word [c]) n
        simpa [TexScan.tokens, TexScan.step, hc, braceDepth?] using hword
      · have hsymbol : braceDepth? false n s = TexToken.depthAfter n (.symbol c :: texTokens s) := ih .plain n
        simpa [TexScan.tokens, TexScan.step, hc, braceDepth?] using hsymbol
    | word name =>
      by_cases hc : isAsciiLetter c = true
      · have hword := ih (.word (name ++ [c])) n
        have hskip := hletter hc
        simpa [TexScan.tokens, TexScan.step, hc] using hskip.trans hword
      · have hends : braceDepth? false n (c :: s) = TexToken.depthAfter n
            (.word name :: ((TexScan.stepPlain c).1 ++ (TexScan.stepPlain c).2.tokens s)) := hplain
        simpa [TexScan.tokens, TexScan.step, hc] using hends

theorem escaped_after_eq (scan : TexScan) (s : List Char) (b : BraceScan) (hb : b.escaped = decide (scan = .backslash)) :
    (b.after s).escaped = decide (scan.after s = .backslash) := by
  induction s generalizing scan b with
  | nil => exact hb
  | cons c s ih =>
    refine ih (scan.step c).2 (b.step c) ?_
    have hplain : (TexScan.stepPlain c).2 = .backslash ↔ c = '\\' := by
      unfold TexScan.stepPlain
      split
      next => simp
      next => simp
      next => simp
      next h _ _ => exact ⟨nofun, fun hc => absurd hc h⟩
    rw [BraceScan.escaped_step, hb]
    cases scan with
    | plain => simp [TexScan.step, hplain]
    | backslash => by_cases hc : isAsciiLetter c = true <;> simp [TexScan.step, hc]
    | word name =>
      by_cases hc : isAsciiLetter c = true
      · have hne : c ≠ '\\' := ne_of_isAsciiLetter hc rfl
        simp [TexScan.step, hc, hne]
      · simp [TexScan.step, hc, hplain]

/-- Braces are balanced in a complete fragment. -/
theorem Complete.leads {s : List Char} (h : Complete s) (n : Nat) : Leads s n n := by
  have hzero : Leads s 0 0 := by
    constructor
    · exact (braceDepth?_eq_depthAfter .plain 0 s).trans h.inert.depth
    · have hafter := escaped_after_eq .plain s {} rfl
      have hplain : TexScan.plain.after s = .plain := h.endsPlain
      rw [hplain] at hafter
      exact hafter
  exact hzero.inside n

end WikiTypeset.Latex
