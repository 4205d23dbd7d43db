import WikiTypeset.Latex.Emitter
import WikiTypeset.Proofs.Tex.Escaped

/-!
# What escaped text opens with

A command that takes an optional argument or a star looks at the first visible character behind it. Text that opens with
a bracket or a star still does so when it is escaped, in any style, and other text does not. Main statement:
`opening?_escape`.
-/

namespace WikiTypeset.Latex

open Text Emit

/-- What the first visible character of a text is to a command in front of it. -/
inductive Opening
  | bracket
  | star
  | other
  deriving DecidableEq, Repr

/-- What a character opens a text with, unless it is a blank. -/
def charOpening? (c : Char) : Option Opening :=
  if isSpace c then none else if c = '[' then some .bracket else if c = '*' then some .star else some .other

/-- What a text opens with, blanks aside. -/
def opening? (s : List Char) : Option Opening := s.findSome? charOpening?

@[simp] theorem opening?_nil : opening? [] = none := rfl

theorem opening?_append (s t : List Char) : opening? (s ++ t) = (opening? s).or (opening? t) := List.findSome?_append

theorem opening?_cons (c : Char) (s : List Char) : opening? (c :: s) = (charOpening? c).or (opening? s) :=
  opening?_append [c] s |>.trans (by simp [opening?])

/-! ### Characters -/

/-- A character of a range without blanks, brackets and stars. -/
theorem charOpening?_of_mem_range {c : Char} (lo hi : Nat) (hc : lo ≤ c.toNat ∧ c.toNat ≤ hi)
    (hblank : ∀ p ∈ blankRanges, p.2 < lo ∨ hi < p.1) (hmarks : ∀ n ∈ [0x2A, 0x5B], n < lo ∨ hi < n) :
    charOpening? c = some .other := by
  have hspace : isSpace c = false := by
    by_contra h
    simp only [isSpace, Bool.not_eq_false, Bool.and_eq_true] at h
    obtain ⟨p, hp, hlo, hhi⟩ := exists_mem_of_inRanges h.1
    have := hblank p hp
    omega
  have hbracket : c ≠ '[' := by
    rintro rfl
    have := hmarks 0x5B (by simp)
    have : '['.toNat = 0x5B := rfl
    omega
  have hstar : c ≠ '*' := by
    rintro rfl
    have := hmarks 0x2A (by simp)
    have : '*'.toNat = 0x2A := rfl
    omega
  simp [charOpening?, hspace, hbracket, hstar]

theorem charOpening?_of_isAsciiLetter {c : Char} (h : isAsciiLetter c = true) : charOpening? c = some .other := by
  simp only [isAsciiLetter, Bool.or_eq_true, Bool.and_eq_true, decide_eq_true_eq] at h
  rcases h with h | h
  · exact charOpening?_of_mem_range 0x61 0x7A h (by decide) (by decide)
  · exact charOpening?_of_mem_range 0x41 0x5A h (by decide) (by decide)

theorem charOpening?_of_isLatin {c : Char} (h : isLatin c = true) : charOpening? c = some .other := by
  simp only [isLatin, Bool.or_eq_true, Bool.and_eq_true, decide_eq_true_eq] at h
  rcases h with (h | h) | h
  · exact charOpening?_of_isAsciiLetter h
  · exact charOpening?_of_mem_range 0xC0 0x24F h (by decide) (by decide)
  · exact charOpening?_of_mem_range 0x1E00 0x1EFF h (by decide) (by decide)

theorem charOpening?_of_isUrlLetter {c : Char} (h : isUrlLetter c = true) : charOpening? c = some .other := by
  simp only [isUrlLetter, Bool.or_eq_true, List.contains_iff_mem, List.mem_cons, List.not_mem_nil, or_false] at h
  rcases h with h | rfl | rfl | rfl | rfl
  · exact charOpening?_of_isAsciiLetter h
  all_goals decide

/-- A special character is no blank, no bracket and no star, and neither is what its literal form starts with. -/
theorem opening?_specialForm {c : Char} {form : String} (h : specialForm? c = some form) :
    charOpening? c = some .other ∧ opening? form.toList = some .other := by
  unfold specialForm? at h
  split at h <;> cases h <;> decide

/-! ### Replacements -/

/-- Replacements that open with what they replace do not change what a text opens with. -/
theorem Retouched.opening?_eq {touch : Char → List Char → Prop} (htouch : ∀ c r, touch c r → opening? r = charOpening? c)
    {s t : List Char} (h : Retouched touch s t) : opening? t = opening? s := by
  induction h with
  | nil => rfl
  | keep c _ ih => rw [opening?_cons, opening?_cons, ih]
  | touch hr _ ih => rw [opening?_append, opening?_cons, ih, htouch _ _ hr]

theorem Touch.opening?_eq {c : Char} {r : List Char} (h : Touch c r) : opening? r = charOpening? c := by
  cases h with
  | lineFeed hc | dropped hc => rcases hc with rfl | rfl <;> decide
  | tie => decide
  | curled hc hd =>
    simp only [List.mem_cons, List.not_mem_nil, or_false] at hd
    rcases hc with rfl | rfl <;> rcases hd with rfl | rfl | rfl <;> decide

theorem IsMinus.opening?_eq {c : Char} {r : List Char} (h : IsMinus c r) : opening? r = charOpening? c := by
  obtain ⟨rfl, rfl⟩ := h
  decide

/-- Parts that are set one by one open with what they opened with. -/
theorem opening?_flatMap {α : Type} {f g : α → List Char} {xs : List α} (h : ∀ x ∈ xs, opening? (f x) = opening? (g x)) :
    opening? (xs.flatMap f) = opening? (xs.flatMap g) := by
  induction xs with
  | nil => rfl
  | cons x xs ih =>
    obtain ⟨hx, hxs⟩ := List.forall_mem_cons.1 h
    rw [List.flatMap_cons, List.flatMap_cons, opening?_append, opening?_append, hx, ih hxs]

theorem opening?_escapeSpecials (s : List Char) : opening? (escapeSpecials s) = opening? s := by
  have hchars : s = s.flatMap fun c => [c] := by simp
  conv => rhs; rw [hchars]
  refine opening?_flatMap fun c _ => ?_
  cases hform : specialForm? c with
  | none => rfl
  | some form =>
    obtain ⟨hc, hopening⟩ := opening?_specialForm hform
    rw [opening?_cons, hc]
    exact hopening

theorem opening?_escapeText (s : List Char) : opening? (escapeText s) = opening? s := by
  obtain ⟨t, hsteps, heq⟩ := escapeText_steps s
  have htouched : opening? t = opening? s := by
    clear heq
    induction hsteps with
    | refl => exact opening?_escapeSpecials s
    | tail _ h ih => exact (h.opening?_eq fun _ _ hr => hr.opening?_eq).trans ih
  rw [heq]
  exact ((retouched_setMinus .ready t).opening?_eq fun _ _ hr => hr.opening?_eq).trans htouched

/-! ### Spans in text -/

/-- A marked segment is a span that was found. -/
theorem exists_of_marked {find : SpanFinder} {previous : Option Char} {plain s : List Char} {piece : Segment}
    (hpiece : piece ∈ segmentsFrom find previous plain s) (hmarked : piece.marked = true) :
    ∃ before c t n, find before (c :: t) = some (n + 1) ∧ piece.text = c :: t.take n := by
  fun_induction segmentsFrom find previous plain s with
  | case1 =>
    rw [List.mem_singleton.1 hpiece] at hmarked
    cases hmarked
  | case2 previous plain c s n hfound span ih =>
    rcases List.mem_cons.1 hpiece with rfl | hpiece
    · cases hmarked
    · rcases List.mem_cons.1 hpiece with rfl | hpiece
      · exact ⟨previous, c, s, n, hfound, rfl⟩
      · exact ih hpiece
  | case3 previous plain c s _ ih => exact ih hpiece

/-- Segments in which the spans are put into commands or groups, and which open with what they opened with otherwise. -/
theorem opening?_segments {find : SpanFinder} {f : Segment → List Char}
    (hfind : ∀ previous c s n, find previous (c :: s) = some n → charOpening? c = some .other)
    (hf : ∀ piece, opening? (f piece) = opening? piece.text ∨ piece.marked = true ∧ opening? (f piece) = some .other)
    (s : List Char) : opening? ((segments find s).flatMap f) = opening? s := by
  have hpieces : ∀ piece ∈ segments find s, opening? (f piece) = opening? piece.text := by
    intro piece hpiece
    rcases hf piece with hsame | ⟨hmarked, hother⟩
    · exact hsame
    · obtain ⟨previous, c, t, n, hfound, htext⟩ := exists_of_marked hpiece hmarked
      rw [hother, htext, opening?_cons, hfind previous c t _ hfound]
      rfl
  rw [opening?_flatMap hpieces, flatten_segments]

theorem charOpening?_of_schemeLengths {c : Char} {s : List Char} {n : Nat} (h : n ∈ schemeLengths (c :: s)) :
    charOpening? c = some .other := by
  by_cases hc : isUrlLetter c = true
  · exact charOpening?_of_isUrlLetter hc
  · unfold schemeLengths at h
    dsimp only at h
    split at h
    · simp [hc] at h
    · cases h

theorem charOpening?_of_wwwLengths {c : Char} {s : List Char} {n : Nat} (h : n ∈ wwwLengths (c :: s)) :
    charOpening? c = some .other := by
  unfold wwwLengths at h
  split at h
  · cases h
  · rename_i hwww
    have hc : wwwLengths.toLowerW c = 'w' := by
      rw [bne_iff_ne, not_not] at hwww
      simp only [List.take_succ_cons, List.map_cons] at hwww
      exact (List.cons.inj hwww).1
    unfold wwwLengths.toLowerW at hc
    split at hc
    · rename_i hw
      rw [hw]
      decide
    · rw [hc]
      decide

theorem charOpening?_of_hostLengths {c : Char} {s : List Char} {n : Nat} (h : n ∈ hostLengths (c :: s)) :
    charOpening? c = some .other := by
  by_cases hc : (isUrlLetter c || isAsciiDigit c || c == '.' || c == '-') = true
  · simp only [Bool.or_eq_true, beq_iff_eq] at hc
    rcases hc with ((hc | hc) | rfl) | rfl
    · exact charOpening?_of_isUrlLetter hc
    · simp only [isAsciiDigit, Bool.and_eq_true, decide_eq_true_eq] at hc
      exact charOpening?_of_mem_range 0x30 0x39 hc (by decide) (by decide)
    · decide
    · decide
  · have hnone : (c :: s).takeWhile (fun c => isUrlLetter c || isAsciiDigit c || c == '.' || c == '-') = [] :=
      List.takeWhile_cons_of_neg hc
    simp [hostLengths, hnone] at h

/-- A URL begins with a letter, a digit, a point or a hyphen. -/
theorem charOpening?_of_urlLength? {previous : Option Char} {c : Char} {s : List Char} {n : Nat}
    (h : urlLength? previous (c :: s) = some n) : charOpening? c = some .other := by
  unfold urlLength? at h
  split at h
  · obtain ⟨m, hm, -⟩ := List.exists_of_findSome?_eq_some h
    rw [List.append_assoc, List.mem_append, List.mem_append] at hm
    rcases hm with hm | hm | hm
    · exact charOpening?_of_schemeLengths hm
    · exact charOpening?_of_wwwLengths hm
    · exact charOpening?_of_hostLengths hm
  · cases h

theorem charOpening?_of_latinLength? {previous : Option Char} {c : Char} {s : List Char} {n : Nat}
    (h : latinLength? previous (c :: s) = some n) : charOpening? c = some .other := by
  by_cases hc : isLatin c = true
  · exact charOpening?_of_isLatin hc
  · simp [latinLength?, hc] at h

/-! ### Main statement -/

theorem opening?_escapeWithUrls (s : List Char) : opening? (escapeWithUrls s) = opening? s := by
  refine opening?_segments (fun _ _ _ _ => charOpening?_of_urlLength?) (fun piece => ?_) s
  dsimp only
  split
  · rename_i hmarked
    refine .inr ⟨(Bool.and_eq_true_iff.1 hmarked).1, ?_⟩
    rw [List.append_assoc, opening?_append]
    rfl
  · exact .inl (opening?_escapeText piece.text)

theorem opening?_escapePlain (style : TextStyle) (s : List Char) : opening? (style.escapePlain s) = opening? s := by
  unfold TextStyle.escapePlain
  split
  · exact opening?_escapeWithUrls s
  · exact opening?_escapeText s

/-- Text in any style opens with what it opened with. -/
theorem opening?_escape (style : TextStyle) (s : List Char) : opening? (style.escape s) = opening? s := by
  unfold TextStyle.escape
  split
  · refine opening?_segments (fun _ _ _ _ => charOpening?_of_latinLength?) (fun piece => ?_) s
    split
    · rename_i hmarked
      refine .inr ⟨hmarked, ?_⟩
      rw [List.append_assoc, opening?_append]
      rfl
    · exact .inl (opening?_escapePlain style piece.text)
  · exact opening?_escapePlain style s

end WikiTypeset.Latex
