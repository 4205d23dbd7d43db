import WikiTypeset.Latex.Escape
import WikiTypeset.Proofs.Tex.Tokens

/-!
# Arguments that hold a URL

What stands in the argument of a link does no harm if its braces match and if it has no comment character, parameter
character or command in it but the escapes of a URL. The escaped form of a URL is such an argument just if the braces of
the URL match, and every such argument is the escaped form of a text. Main statements: `contained_escapeUrl_iff` and
`contained_iff`.
-/

namespace WikiTypeset.Latex

open Text

/-! ### Harmless arguments -/

/-- A character that is escaped in a URL. -/
def isUrlSpecial (c : Char) : Bool := c == '#' || c == '%' || c == '\\'

/-- Whether a token may stand in the argument of a link: a brace, one of the escapes of a URL, or a character that is
special neither there nor elsewhere. -/
def TexToken.isHarmless : TexToken → Bool
  | opening | closing => true
  | char c => !isUrlSpecial c
  | symbol c => isUrlSpecial c
  | word _ | unpaired => false

/-- An argument that leaves what follows it alone: its braces match, none of them closing more than what is open, and
all in it is harmless. -/
structure Contained (s : List Char) : Prop where
  depth : TexToken.depthAfter 0 (texTokens s) = some 0
  harmless : ∀ t ∈ texTokens s, t.isHarmless = true

instance (s : List Char) : Decidable (Contained s) :=
  decidable_of_iff (TexToken.depthAfter 0 (texTokens s) = some 0 ∧ (texTokens s).all TexToken.isHarmless = true)
    ⟨fun h => ⟨h.1, List.all_eq_true.1 h.2⟩, fun h => ⟨h.depth, List.all_eq_true.2 h.harmless⟩⟩

/-- How many braces are open after a character, whatever stands before it. -/
def braceStep (n : Nat) (c : Char) : Option Nat :=
  if c = '\x7b' then some (n + 1) else if c = '\x7d' then if n = 0 then none else some (n - 1) else some n

/-- The braces of a text match, with none of them escaped. -/
def BracesMatch (s : List Char) : Prop := s.foldlM braceStep 0 = some 0

instance (s : List Char) : Decidable (BracesMatch s) := inferInstanceAs (Decidable (_ = _))

/-! ### The escaped form of a URL -/

/-- The token of a character of a URL. -/
def urlToken (c : Char) : TexToken :=
  if isUrlSpecial c then .symbol c else if c = '\x7b' then .opening else if c = '\x7d' then .closing else .char c

theorem escapeUrl_cons (c : Char) (s : List Char) :
    escapeUrl (c :: s) = (if isUrlSpecial c then ['\\', c] else [c]) ++ escapeUrl s := by
  simp [escapeUrl, backslashed, isUrlSpecial]

theorem isAsciiLetter_of_isUrlSpecial {c : Char} (h : isUrlSpecial c = true) : isAsciiLetter c = false := by
  have hcases : (c = '#' ∨ c = '%') ∨ c = '\\' := by simpa [isUrlSpecial] using h
  rcases hcases with (rfl | rfl) | rfl <;> decide

/-- A symbol is read as one token. -/
theorem texTokens_symbol {c : Char} (h : isAsciiLetter c = false) (s : List Char) :
    texTokens ('\\' :: c :: s) = .symbol c :: texTokens s := by
  simp [TexScan.tokens, TexScan.step, TexScan.stepPlain, h]

/-- So is a character that is not special in a URL. -/
theorem texTokens_of_not_special {c : Char} (h : isUrlSpecial c = false) (s : List Char) :
    texTokens (c :: s) = urlToken c :: texTokens s := by
  have hbackslash : c ≠ '\\' := by
    rintro rfl
    cases h
  simp only [TexScan.tokens, TexScan.step, TexScan.stepPlain, urlToken, h, Bool.false_eq_true, if_false]
  split
  · exact absurd rfl hbackslash
  · rfl
  · rfl
  · next hopening hclosing =>
    rw [if_neg hopening, if_neg hclosing]
    rfl

theorem texTokens_escapeUrl (s : List Char) : texTokens (escapeUrl s) = s.map urlToken := by
  induction s with
  | nil => rfl
  | cons c s ih =>
    rw [escapeUrl_cons, List.map_cons, ← ih]
    cases hc : isUrlSpecial c with
    | true =>
      rw [if_pos rfl, List.cons_append, List.cons_append, List.nil_append,
        texTokens_symbol (isAsciiLetter_of_isUrlSpecial hc)]
      simp [urlToken, hc]
    | false =>
      rw [if_neg Bool.false_ne_true, List.cons_append, List.nil_append]
      exact texTokens_of_not_special hc _

theorem isHarmless_urlToken (c : Char) : (urlToken c).isHarmless = true := by
  unfold urlToken
  split
  next h => exact h
  next h =>
    split
    · rfl
    · split
      · rfl
      · simpa [TexToken.isHarmless] using h

theorem depth_urlToken (n : Nat) (c : Char) : (urlToken c).depth n = braceStep n c := by
  by_cases hopening : c = '\x7b'
  · subst hopening
    rfl
  · by_cases hclosing : c = '\x7d'
    · subst hclosing
      rfl
    · unfold urlToken braceStep
      rw [if_neg hopening, if_neg hclosing, if_neg hopening, if_neg hclosing]
      split <;> rfl

theorem depthAfter_map_urlToken (n : Nat) (s : List Char) :
    TexToken.depthAfter n (s.map urlToken) = s.foldlM braceStep n := by
  induction s generalizing n with
  | nil => rfl
  | cons c s ih =>
    rw [List.map_cons, TexToken.depthAfter_cons, depth_urlToken, List.foldlM_cons]
    exact congrArg _ (funext ih)

/-- Nothing in an escaped URL does harm but a brace without its counterpart. -/
theorem contained_escapeUrl_iff (s : List Char) : Contained (escapeUrl s) ↔ BracesMatch s := by
  have hdepth : TexToken.depthAfter 0 (texTokens (escapeUrl s)) = s.foldlM braceStep 0 := by
    rw [texTokens_escapeUrl, depthAfter_map_urlToken]
  constructor
  · intro h
    exact hdepth.symm.trans h.depth
  · intro h
    refine ⟨hdepth.trans h, fun t ht => ?_⟩
    rw [texTokens_escapeUrl, List.mem_map] at ht
    obtain ⟨c, -, rfl⟩ := ht
    exact isHarmless_urlToken c

/-! ### Escaped forms -/

/-- A text without the backslashes that escape characters in it. -/
def unescapeUrl : List Char → List Char
  | '\\' :: c :: s => c :: unescapeUrl s
  | c :: s => c :: unescapeUrl s
  | [] => []

/-- A control word that has begun is among the tokens. -/
theorem word_mem_tokens (name s : List Char) : ∃ name', .word name' ∈ (TexScan.word name).tokens s := by
  induction s generalizing name with
  | nil => exact ⟨name, List.mem_singleton_self _⟩
  | cons c s ih =>
    by_cases hc : isAsciiLetter c = true
    · simpa [TexScan.tokens, TexScan.step, hc] using ih (name ++ [c])
    · exact ⟨name, by simp [TexScan.tokens, TexScan.step, hc]⟩

/-- A harmless text is the escaped form of what is left without its backslashes. -/
theorem escapeUrl_unescapeUrl {s : List Char} (h : ∀ t ∈ texTokens s, t.isHarmless = true) :
    escapeUrl (unescapeUrl s) = s := by
  fun_induction unescapeUrl s with
  | case1 c s ih =>
    -- A letter behind the backslash would begin a control word.
    have hletter : isAsciiLetter c = false := by
      by_contra hletter
      obtain ⟨name, hname⟩ := word_mem_tokens [c] s
      have hword : isAsciiLetter c = true := by simpa using hletter
      have hmem : .word name ∈ texTokens ('\\' :: c :: s) := by
        simpa [TexScan.tokens, TexScan.step, TexScan.stepPlain, hword] using hname
      cases h _ hmem
    rw [texTokens_symbol hletter] at h
    obtain ⟨hsymbol, hrest⟩ := List.forall_mem_cons.1 h
    have hspecial : isUrlSpecial c = true := hsymbol
    rw [escapeUrl_cons, if_pos hspecial, ih hrest]
    rfl
  | case2 c s hpair ih =>
    have hbackslash : c ≠ '\\' := by
      rintro rfl
      cases s with
      | nil => cases h .unpaired (by decide)
      | cons d s => exact hpair d s rfl rfl
    have hspecial : isUrlSpecial c = false := by
      by_contra hspecial
      rw [Bool.not_eq_false] at hspecial
      have hplain : texTokens (c :: s) = .char c :: texTokens s := by
        have hcases : c = '#' ∨ c = '%' := by simpa [isUrlSpecial, hbackslash] using hspecial
        rcases hcases with rfl | rfl <;> rfl
      rw [hplain] at h
      have hharmless := h (.char c) (List.mem_cons_self ..)
      simp [TexToken.isHarmless, hspecial] at hharmless
    rw [texTokens_of_not_special hspecial] at h
    rw [escapeUrl_cons, hspecial, if_neg Bool.false_ne_true, ih fun t ht => h t (List.mem_cons_of_mem _ ht)]
    rfl
  | case3 => rfl

/-- An argument leaves what follows it alone just if it is the escaped form of a text whose braces match. -/
theorem contained_iff (s : List Char) : Contained s ↔ ∃ text, BracesMatch text ∧ s = escapeUrl text := by
  constructor
  · intro h
    have hescaped := escapeUrl_unescapeUrl h.harmless
    refine ⟨unescapeUrl s, (contained_escapeUrl_iff _).1 ?_, hescaped.symm⟩
    rwa [hescaped]
  · rintro ⟨text, htext, rfl⟩
    exact (contained_escapeUrl_iff text).2 htext

example : Contained (escapeUrl "a#b%\\\x7b\x7d".toList) ∧ ¬ Contained "a%20b".toList ∧ ¬ Contained "\\input".toList := by
  decide

end WikiTypeset.Latex
