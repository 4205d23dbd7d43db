import WikiTypeset.Proofs.Tex.Escaped

/-!
# Escaped text can be read back

Every unit of escaped text stands for one character, and no two ways of cutting a text into units agree: a literal form
is no start of another one, and no plain character begins one. So the text that was escaped is read back from its escaped
form, with its newlines tidied, up to the form of its quotes. Main statement: `decode_escapeText`.
-/

namespace WikiTypeset.Latex

open Text

/-! ### Reading units back -/

/-- The special characters. -/
def specialChars : List Char := ['\\', '\x7b', '\x7d', '$', '%', '&', '#', '_', '~', '^']

/-- A unit of escaped text, with the character that it stands for. -/
abbrev Code := List Char × Char

/-- The literal forms of the special characters. -/
def specialCodes : List Code := specialChars.filterMap fun c => (specialForm? c).map fun form => (form.toList, c)

def tieCode : Code := (['~'], '\u00A0')

def minusCode : Code := ("$-$".toList, '-')

/-- The units of escaped text that are not plain characters. -/
def codes : List Code := minusCode :: tieCode :: specialCodes

/-- The text that units stand for; the first `skipped` characters have been read already. -/
def decodeFrom (skipped : Nat) : List Char → List Char
  | [] => []
  | c :: s =>
    match skipped with
    | skipped + 1 => decodeFrom skipped s
    | 0 =>
      match codes.find? fun code => code.1.isPrefixOf (c :: s) with
      | some code => code.2 :: decodeFrom (code.1.length - 1) s
      | none => c :: decodeFrom 0 s

/-- The text that an escaped text stands for. -/
def decode (s : List Char) : List Char := decodeFrom 0 s

/-- A curly quote made straight. -/
def straight (c : Char) : Char :=
  if c = '\u201C' ∨ c = '\u201D' then '"' else if c = '\u2019' then '\'' else c

/-- `t` is `s` unit by unit: a character up to the form of quotes, or a unit of the table that stands for it. -/
inductive Codes (table : List Code) : List Char → List Char → Prop
  | nil : Codes table [] []
  | char {c d : Char} {s t : List Char} (hd : specialForm? d = none) (hc : straight d = straight c)
    (h : Codes table s t) : Codes table (c :: s) (d :: t)
  | code {code : Code} {s t : List Char} (hcode : code ∈ table) (h : Codes table s t) :
    Codes table (code.2 :: s) (code.1 ++ t)

theorem specialForm?_eq_none_iff {c : Char} : specialForm? c = none ↔ c ∉ specialChars := by
  have hspecial : (specialChars.all fun c => (specialForm? c).isSome) = true := by decide
  refine ⟨fun h hc => ?_, fun h => ?_⟩
  · have hsome := List.all_eq_true.1 hspecial c hc
    rw [h] at hsome
    cases hsome
  · unfold specialForm?
    split <;> first | rfl | exact absurd (by decide) h

theorem mem_specialCodes {c : Char} {form : String} (h : specialForm? c = some form) :
    (form.toList, c) ∈ specialCodes := by
  have hc : c ∈ specialChars := by
    by_contra hplain
    rw [specialForm?_eq_none_iff.2 hplain] at h
    cases h
  exact List.mem_filterMap.2 ⟨c, hc, by rw [h]; rfl⟩

theorem codes_special_head : ∀ code ∈ codes, ∃ c ∈ code.1.head?, (specialForm? c).isSome = true := by
  have hhead : ∀ code ∈ codes, (code.1.head?.any fun c => (specialForm? c).isSome) = true := by decide
  exact fun code hcode => (Option.any_eq_true _ _).1 (hhead code hcode)

/-- No unit is the start of another one. -/
theorem codes_apart : ∀ code ∈ codes, ∀ code' ∈ codes, code.1 <+: code'.1 → code = code' := by
  decide

/-- Among forms of which none is the start of another one, a form that a text begins with is found. -/
theorem find?_form {α : Type} {table : List (List Char × α)}
    (hapart : ∀ entry ∈ table, ∀ entry' ∈ table, entry.1 <+: entry'.1 → entry = entry') {entry : List Char × α}
    (hentry : entry ∈ table) (t : List Char) :
    (table.find? fun entry' => entry'.1.isPrefixOf (entry.1 ++ t)) = some entry := by
  cases hfind : table.find? fun entry' => entry'.1.isPrefixOf (entry.1 ++ t) with
  | none =>
    have hself := List.find?_eq_none.1 hfind entry hentry
    exact absurd (List.isPrefixOf_iff_prefix.2 (List.prefix_append entry.1 t)) hself
  | some entry' =>
    have hentry' : entry' ∈ table := List.mem_of_find?_eq_some hfind
    have hstarts : entry'.1 <+: entry.1 ++ t := by simpa using List.find?_some hfind
    rcases List.prefix_or_prefix_of_prefix hstarts (List.prefix_append entry.1 t) with h | h
    · rw [hapart entry' hentry' entry hentry h]
    · rw [hapart entry hentry entry' hentry' h]

/-- Among forms that begin with special characters none is found at a plain one. -/
theorem find?_special {α : Type} {table : List (List Char × α)}
    (hspecial : ∀ entry ∈ table, ∃ c ∈ entry.1.head?, (specialForm? c).isSome = true) {c : Char}
    (hc : specialForm? c = none) (t : List Char) :
    (table.find? fun entry => entry.1.isPrefixOf (c :: t)) = none := by
  refine List.find?_eq_none.2 fun entry hentry hstarts => ?_
  obtain ⟨d, hd, hspecial⟩ := hspecial entry hentry
  obtain ⟨rest, hrest⟩ := List.isPrefixOf_iff_prefix.1 hstarts
  have hhead : (entry.1 ++ rest).head? = some d := by
    rw [List.head?_append, Option.mem_def.1 hd]
    rfl
  rw [hrest] at hhead
  cases hhead
  rw [hc] at hspecial
  cases hspecial

theorem decodeFrom_append (u t : List Char) : decodeFrom u.length (u ++ t) = decode t := by
  induction u with
  | nil => rfl
  | cons c u ih => exact ih

theorem decode_char {c : Char} (hc : specialForm? c = none) (t : List Char) : decode (c :: t) = c :: decode t := by
  rw [decode, decodeFrom, find?_special codes_special_head hc]
  rfl

theorem decode_code {code : Code} (hcode : code ∈ codes) (t : List Char) : decode (code.1 ++ t) = code.2 :: decode t := by
  have hfind := find?_form codes_apart hcode t
  obtain ⟨c, hc, -⟩ := codes_special_head code hcode
  obtain ⟨u, hu⟩ : ∃ u, code.1 = c :: u := List.head?_eq_some_iff.1 hc
  rw [hu, List.cons_append] at hfind ⊢
  rw [decode, decodeFrom, hfind, ← decodeFrom_append u t]
  simp [hu]

/-- Text coded unit by unit is read back up to the form of its quotes. -/
theorem Codes.straight_decode {table : List Code} {s t : List Char} (htable : table ⊆ codes) (h : Codes table s t) :
    (decode t).map straight = s.map straight := by
  induction h with
  | nil => rfl
  | char hd hc _ ih => rw [decode_char hd, List.map_cons, List.map_cons, ih, hc]
  | code hcode _ ih => rw [decode_code (htable hcode), List.map_cons, List.map_cons, ih]

/-! ### What is done to coded text -/

/-- Coded text stays so if no unit in it is touched, and a replacement stands for what the replaced character does. -/
theorem Codes.retouched {table table' : List Code} {touch : Char → List Char → Prop} {s t t' : List Char}
    (hsub : table ⊆ table') (hunits : ∀ code ∈ table, ∀ d ∈ code.1, ∀ r, ¬ touch d r)
    (hnew : ∀ d r, touch d r → ∀ c s t, straight d = straight c → Codes table' s t → Codes table' (c :: s) (r ++ t))
    (hs : Codes table s t) (h : Retouched touch t t') : Codes table' s t' := by
  induction hs generalizing t' with
  | nil =>
    cases h
    exact .nil
  | char hd hc _ ih =>
    cases h with
    | keep _ h => exact .char hd hc (ih h)
    | touch hr h => exact hnew _ _ hr _ _ _ hc (ih h)
  | code hcode _ ih =>
    obtain ⟨u, rfl, h'⟩ := h.of_append (hunits _ hcode)
    exact .code (hsub hcode) (ih h')

/-- How characters are set: no-break spaces become ties, and straight quotes are curled. -/
inductive Setting : Char → List Char → Prop
  | tie : Setting '\u00A0' ['~']
  | quote {d : Char} (hd : d ∈ ['\u201C', '\u201D']) : Setting '"' [d]
  | apostrophe : Setting '\'' ['\u2019']

/-- Quotes, apostrophes and no-break spaces are straight as they are, and no other character is made to be one. -/
theorem eq_of_straight {c d : Char} (h : straight d = straight c) (hd : d = '\u00A0' ∨ d = '-') : c = d := by
  have hself : straight d = d := by rcases hd with rfl | rfl <;> decide
  rw [hself] at h
  unfold straight at h
  split at h
  · rcases hd with rfl | rfl <;> cases h
  · split at h
    · rcases hd with rfl | rfl <;> cases h
    · exact h.symm

theorem Codes.set {table : List Code} {s t t' : List Char} (hsub : table ⊆ tieCode :: specialCodes)
    (hs : Codes table s t) (h : Retouched Setting t t') : Codes (tieCode :: specialCodes) s t' := by
  have huntouched : ∀ code ∈ tieCode :: specialCodes, (code.1.all fun d => decide (d ∉ ['\u00A0', '"', '\''])) = true := by
    decide
  refine hs.retouched hsub (fun code hcode d hd r htouch => ?_) (fun d r htouch c s t hc hrest => ?_) h
  · refine of_decide_eq_true (List.all_eq_true.1 (huntouched code (hsub hcode)) d hd) ?_
    cases htouch <;> decide
  · cases htouch with
    | tie =>
      rw [eq_of_straight hc (.inl rfl)]
      exact .code (List.mem_cons_self ..) hrest
    | quote hd =>
      rw [List.mem_cons, List.mem_singleton] at hd
      rcases hd with rfl | rfl
      · exact .char (by decide) hc hrest
      · exact .char (by decide) hc hrest
    | apostrophe => exact .char (by decide) hc hrest

theorem Codes.setMinus {s t : List Char} (hs : Codes (tieCode :: specialCodes) s t) (state : MinusState) :
    Codes codes s (setMinus state t) := by
  have huntouched : ∀ code ∈ tieCode :: specialCodes, '-' ∉ code.1 := by decide
  refine hs.retouched (List.subset_cons_self ..) (fun code hcode d hd r htouch => ?_)
    (fun d r htouch c s t hc hrest => ?_) (retouched_setMinus state t)
  · exact huntouched code hcode (htouch.1 ▸ hd)
  · obtain ⟨rfl, rfl⟩ := htouch
    rw [eq_of_straight hc (.inr rfl)]
    exact .code (List.mem_cons_self ..) hrest

theorem codes_escapeSpecials (s : List Char) : Codes specialCodes s (escapeSpecials s) := by
  induction s with
  | nil => exact .nil
  | cons c s ih =>
    cases hc : specialForm? c with
    | none => simpa [escapeSpecials, hc] using Codes.char hc rfl ih
    | some form => simpa [escapeSpecials, hc] using Codes.code (mem_specialCodes hc) ih

/-! ### Newlines among escaped characters -/

/-- A character of no line end. -/
def IsInLine (c : Char) : Prop := c ≠ '\n' ∧ c ≠ '\r'

/-- A plain character is kept, and the literal form of any other one holds no line end. -/
theorem escapeSpecials_cons (c : Char) (s : List Char) :
    (specialForm? c = none ∧ escapeSpecials (c :: s) = c :: escapeSpecials s) ∨
      IsInLine c ∧ ∃ form : List Char, form ≠ [] ∧ (∀ d ∈ form, IsInLine d) ∧
        ∀ s, escapeSpecials (c :: s) = form ++ escapeSpecials s := by
  cases hc : specialForm? c with
  | none => exact .inl ⟨rfl, by simp [escapeSpecials, hc]⟩
  | some form =>
    have hforms : ∀ form ∈ specialForms, form.toList ≠ [] := by decide
    have hform := mem_specialForms hc
    refine .inr ⟨⟨?_, ?_⟩, form.toList, hforms form hform, fun d hd => ?_, fun s => by simp [escapeSpecials, hc]⟩
    · rintro rfl
      cases hc
    · rintro rfl
      cases hc
    · have huntouched := untouched_specialForms form hform d hd
      simp only [List.mem_cons, not_or] at huntouched
      exact ⟨huntouched.1, huntouched.2.1⟩

theorem escapeSpecials_plain {c : Char} (hc : specialForm? c = none) (s : List Char) :
    escapeSpecials (c :: s) = c :: escapeSpecials s := by
  simp [escapeSpecials, hc]

theorem head?_escapeSpecials (s : List Char) : (escapeSpecials s).head? = some '\n' ↔ s.head? = some '\n' := by
  cases s with
  | nil => rfl
  | cons c s =>
    rcases escapeSpecials_cons c s with ⟨-, heq⟩ | ⟨hc, form, hne, hform, heq⟩
    · rw [heq, List.head?_cons, List.head?_cons]
    · obtain ⟨d, form, rfl⟩ := List.exists_cons_of_ne_nil hne
      have hd := (hform d (by simp)).1
      simp [heq, hd, hc.1]

theorem getLast?_escapeSpecials (s : List Char) : (escapeSpecials s).getLast? = some '\n' ↔ s.getLast? = some '\n' := by
  rcases List.eq_nil_or_concat s with rfl | ⟨s, c, rfl⟩
  · rfl
  · have happend : escapeSpecials (s ++ [c]) = escapeSpecials s ++ escapeSpecials [c] := List.flatMap_append ..
    rw [List.concat_eq_append, happend, List.getLast?_concat]
    rcases escapeSpecials_cons c [] with ⟨-, heq⟩ | ⟨hc, form, hne, hform, heq⟩
    · rw [heq]
      simp [escapeSpecials]
    · have hlast : escapeSpecials [c] = form := by simpa [escapeSpecials] using heq []
      have hd := (hform _ (List.getLast_mem hne)).1
      simp [hlast, List.getLast?_append, List.getLast?_eq_some_getLast hne, hd, hc.1]

theorem normalizeNewlines_append {u : List Char} (hu : ∀ c ∈ u, IsInLine c) (s : List Char) :
    normalizeNewlines (u ++ s) = u ++ normalizeNewlines s := by
  induction u with
  | nil => rfl
  | cons c u ih =>
    have hc := (hu c (by simp)).2
    have hrest := ih fun d hd => hu d (by simp [hd])
    rw [List.cons_append, normalizeNewlines, if_neg hc, hrest, List.cons_append]
    rintro t rfl
    exact absurd rfl hc

theorem collapseNewlines_append {u : List Char} (hu : ∀ c ∈ u, IsInLine c) (s : List Char) :
    collapseNewlines (u ++ s) = u ++ collapseNewlines s := by
  induction u with
  | nil => rfl
  | cons c u ih =>
    have hc := (hu c (by simp)).1
    have hrest := ih fun d hd => hu d (by simp [hd])
    simp [collapseNewlines, hc, hrest]

theorem normalizeNewlines_escapeSpecials (s : List Char) :
    normalizeNewlines (escapeSpecials s) = escapeSpecials (normalizeNewlines s) := by
  fun_induction normalizeNewlines s with
  | case1 => rfl
  | case2 s ih =>
    rw [escapeSpecials_plain rfl, escapeSpecials_plain rfl, escapeSpecials_plain rfl, ← ih, normalizeNewlines]
  | case3 c s hpair ih =>
    rcases escapeSpecials_cons c s with ⟨hc, heq⟩ | ⟨hc, form, -, hform, heq⟩
    · have hplain : specialForm? (if c = '\r' then '\n' else c) = none := by
        split
        · rfl
        · exact hc
      rw [heq, escapeSpecials_plain hplain, ← ih, normalizeNewlines]
      rintro t rfl ht
      have hhead : s.head? = some '\n' := (head?_escapeSpecials s).1 (by rw [ht]; rfl)
      obtain ⟨s', rfl⟩ := List.head?_eq_some_iff.1 hhead
      exact hpair s' rfl rfl
    · rw [if_neg hc.2, heq, heq, ← ih, normalizeNewlines_append hform]

theorem collapseNewlines_escapeSpecials (s : List Char) :
    collapseNewlines (escapeSpecials s) = escapeSpecials (collapseNewlines s) := by
  induction s with
  | nil => rfl
  | cons c s ih =>
    rcases escapeSpecials_cons c s with ⟨hc, heq⟩ | ⟨hc, form, -, hform, heq⟩
    · have hnext : ((escapeSpecials s).head? == some '\n') = (s.head? == some '\n') := by
        rw [Bool.eq_iff_iff, beq_iff_eq, beq_iff_eq, head?_escapeSpecials]
      rw [heq, collapseNewlines, collapseNewlines, hnext, ih]
      split
      · rfl
      · rw [escapeSpecials_plain hc]
    · have hone : collapseNewlines (c :: s) = c :: collapseNewlines s := by simp [collapseNewlines, hc.1]
      rw [hone, heq, heq, collapseNewlines_append hform, ih]

theorem dropWhile_escapeSpecials (s : List Char) :
    (escapeSpecials s).dropWhile (· == '\n') = escapeSpecials (s.dropWhile (· == '\n')) := by
  induction s with
  | nil => rfl
  | cons c s ih =>
    by_cases hc : c = '\n'
    · subst hc
      rw [escapeSpecials_plain rfl]
      exact ih
    · have hhead := (head?_escapeSpecials (c :: s)).not.2 (by simpa using hc)
      have hkeep : ∀ t : List Char, t.head? ≠ some '\n' → t.dropWhile (· == '\n') = t := by
        intro t ht
        cases t with
        | nil => rfl
        | cons d t =>
          have hd : d ≠ '\n' := by simpa using ht
          simp [hd]
      rw [hkeep _ hhead, hkeep _ (by simpa using hc)]

theorem dropFinalNewline_escapeSpecials (s : List Char) :
    dropFinalNewline (escapeSpecials s) = escapeSpecials (dropFinalNewline s) := by
  have hlast : ((escapeSpecials s).getLast? == some '\n') = (s.getLast? == some '\n') := by
    rw [Bool.eq_iff_iff, beq_iff_eq, beq_iff_eq, getLast?_escapeSpecials]
  rw [dropFinalNewline, dropFinalNewline, hlast]
  split
  next h =>
    obtain ⟨s', rfl⟩ : ∃ s', s = s' ++ ['\n'] := List.getLast?_eq_some_iff.1 (by simpa using h)
    have happend : escapeSpecials (s' ++ ['\n']) = escapeSpecials s' ++ ['\n'] := List.flatMap_append ..
    rw [happend, List.dropLast_concat, List.dropLast_concat]
  next => rfl

/-- Newlines are tidied in an escaped text as they are in the text itself. -/
theorem tidyNewlines_escapeSpecials (s : List Char) :
    tidyNewlines (escapeSpecials s) = escapeSpecials (tidyNewlines s) := by
  rw [tidyNewlines, normalizeNewlines_escapeSpecials, collapseNewlines_escapeSpecials, dropWhile_escapeSpecials,
    dropFinalNewline_escapeSpecials, tidyNewlines]

/-! ### Escaped text -/

/-- Escaped text is made of plain characters, literal forms, ties and minus signs, and reads as the text with its
newlines tidied, up to the form of quotes. -/
theorem decode_escapeText (s : List Char) : Escaped ["~", "$-$"] (escapeText s) ∧
    (decode (escapeText s)).map straight = (tidyNewlines s).map straight := by
  refine ⟨escaped_escapeText s, ?_⟩
  have hspecials := codes_escapeSpecials (tidyNewlines s)
  have hties := hspecials.set (List.subset_cons_self ..) (retouched_setTies .tie _)
  have hopened := hties.set (List.Subset.refl _) (retouched_openQuotes (.quote (by decide)) none _)
  have hclosed := hopened.set (List.Subset.refl _) (retouched_closeQuotes (.quote (by decide)) none _)
  have hcurled := hclosed.set (List.Subset.refl _) (retouched_setApostrophe .apostrophe _)
  rw [escapeText, tidyNewlines_escapeSpecials]
  exact (hcurled.setMinus .ready).straight_decode (List.Subset.refl _)

example : decode "$-$5\\%~\\textbackslash\x7b\x7d".toList = "-5%\u00A0\\".toList := by decide

end WikiTypeset.Latex
