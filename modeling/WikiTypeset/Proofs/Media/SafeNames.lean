import Mathlib.Tactic.Set
import WikiTypeset.Latex.Escape
import WikiTypeset.Media.SafeName

/-!
# Safe names and their extensions

A safe name is made in steps: unsafe characters are replaced, the extension is found, the dots before it are replaced, and
what is too long is cut off at its start. Whatever name it is made from, the name that comes out holds no character that TeX
or the image command reads in another way, and its only dot is that of an extension which the cut has left whole. Main
statement: `safeName_keeps_extension`.
-/

namespace WikiTypeset.Media

open Latex Text

/-! ### Characters of safe names -/

theorem mem_hyphenated {c : Char} {s : List Char} {afterUnsafe : Bool} (h : c ∈ hyphenated afterUnsafe s) :
    isSafe c = true ∨ c = '-' := by
  induction s generalizing afterUnsafe with
  | nil => cases h
  | cons d s ih =>
    unfold hyphenated at h
    split at h
    · rename_i hd
      rcases List.mem_cons.1 h with rfl | h
      · exact Or.inl hd
      · exact ih h
    · split at h
      · exact ih h
      · rcases List.mem_cons.1 h with rfl | h
        · exact Or.inr rfl
        · exact ih h

theorem mem_undotted {c : Char} {s : List Char} (h : c ∈ undotted s) : c ≠ '.' ∧ (c ∈ s ∨ c = '-') := by
  obtain ⟨d, hd, rfl⟩ := List.mem_map.1 h
  split
  · exact ⟨by decide, Or.inr rfl⟩
  · rename_i hdot
    exact ⟨hdot, Or.inl hd⟩

/-- An extension is empty, or a dot and characters of the name that are no dots. -/
theorem extension_cases (s : List Char) :
    extension s = [] ∨ ∃ tail, extension s = '.' :: tail ∧ ∀ c ∈ tail, c ∈ s ∧ c ≠ '.' := by
  unfold extension
  dsimp only
  split
  · exact Or.inl rfl
  · refine Or.inr ⟨_, rfl, fun c hc => ?_⟩
    rw [List.mem_reverse] at hc
    have hkeep := List.all_eq_true.1 List.all_takeWhile c hc
    exact ⟨List.mem_reverse.1 ((List.takeWhile_sublist _).subset hc), by simpa using hkeep⟩

theorem extension_ne_dot (s : List Char) : extension s ≠ ['.'] := by
  unfold extension
  dsimp only
  split
  · nofun
  · rename_i h
    intro heq
    rw [List.reverse_eq_nil_iff.1 (List.cons.inj heq).2] at h
    exact h rfl

theorem mem_safeName {name : List Char} {c : Char} (h : c ∈ safeName name) : isSafe c = true ∨ c = '-' := by
  rcases List.mem_append.1 (List.mem_of_mem_drop h) with h | h
  · rcases (mem_undotted h).2 with h | rfl
    · exact mem_hyphenated (List.mem_of_mem_take h)
    · exact .inr rfl
  · rcases extension_cases (hyphenated false name) with hext | ⟨tail, hext, htail⟩
    · rw [hext] at h
      cases h
    · rw [hext] at h
      rcases List.mem_cons.1 h with rfl | h
      · exact .inl (by decide)
      · exact mem_hyphenated (htail c h).1

/-! ### Extensions -/

/-- The extension of a name is its last dot with what stands behind it, and that is something. -/
def IsExtension (s ext : List Char) : Prop :=
  ∃ stem tail, s = stem ++ ext ∧ ext = '.' :: tail ∧ tail ≠ [] ∧ '.' ∉ tail

theorem IsExtension.dot_mem {s ext : List Char} (h : IsExtension s ext) : '.' ∈ s := by
  obtain ⟨stem, tail, rfl, rfl, -, -⟩ := h
  simp

/-- Whatever is put before an extension, it is the extension of the whole. -/
theorem isExtension_append (stem : List Char) {s ext : List Char} (h : IsExtension s ext) : IsExtension (stem ++ ext) ext := by
  obtain ⟨-, tail, -, hext, hne, hdot⟩ := h
  exact ⟨stem, tail, rfl, hext, hne, hdot⟩

/-- What is looked for from the end of a name stands at its end. -/
theorem extension_suffix (s : List Char) : extension s <:+ s := by
  unfold extension
  dsimp only
  split
  · exact List.nil_suffix
  next hsome =>
    simp only [Bool.or_eq_true, List.isEmpty_iff, beq_iff_eq, not_or] at hsome
    have hsplit := List.takeWhile_append_dropWhile (p := (· != '.')) (l := s.reverse)
    -- What the search has not taken begins with the last dot.
    cases hrest : s.reverse.dropWhile (· != '.') with
    | nil =>
      rw [hrest, List.append_nil] at hsplit
      rw [hsplit, List.length_reverse] at hsome
      exact absurd rfl hsome.2
    | cons c stem =>
      have hhead := List.head?_dropWhile_not (· != '.') s.reverse
      obtain rfl : c = '.' := by simpa [hrest] using hhead
      refine ⟨stem.reverse, ?_⟩
      rw [hrest] at hsplit
      simpa using congrArg List.reverse hsplit

/-- The extension that is looked for from the end of a name is the one there is. -/
theorem isExtension_iff {s ext : List Char} : IsExtension s ext ↔ extension s = ext ∧ ext ≠ [] := by
  constructor
  · rintro ⟨stem, tail, rfl, rfl, hne, hdot⟩
    have htail : (stem ++ '.' :: tail).reverse.takeWhile (· != '.') = tail.reverse := by
      have hkept : ∀ c ∈ tail.reverse, (c != '.') = true := by
        rintro c hc
        rw [bne_iff_ne]
        rintro rfl
        exact hdot (List.mem_reverse.1 hc)
      rw [List.reverse_append, List.reverse_cons, List.append_assoc, List.takeWhile_append_of_pos hkept]
      simp
    refine ⟨?_, List.cons_ne_nil _ _⟩
    rw [extension, htail]
    simp [hne]
    omega
  · rintro ⟨rfl, hne⟩
    obtain ⟨stem, hstem⟩ := extension_suffix s
    rcases extension_cases s with hnil | ⟨tail, htail, hdots⟩
    · exact absurd hnil hne
    · refine ⟨stem, tail, hstem.symm, htail, ?_, fun h => (hdots _ h).2 rfl⟩
      rintro rfl
      exact extension_ne_dot s htail

theorem IsExtension.unique {s ext ext' : List Char} (h : IsExtension s ext) (h' : IsExtension s ext') : ext = ext' :=
  (isExtension_iff.1 h).1.symm.trans (isExtension_iff.1 h').1

/-! ### Safe names -/

/-- A safe name ends in the extension of the cleaned name if that is short enough, and has no other dot. -/
theorem safeName_cases (name : List Char) :
    (∃ stem ext, IsExtension (hyphenated false name) ext ∧ ext.length ≤ safeLength ∧ '.' ∉ stem ∧
      safeName name = stem ++ ext) ∨
    (∀ ext, IsExtension (hyphenated false name) ext → safeLength < ext.length) ∧ '.' ∉ safeName name := by
  set clean := hyphenated false name with hclean
  set stem := undotted (clean.take (clean.length - (extension clean).length)) with hstem
  have hdots : ∀ n, '.' ∉ stem.drop n := fun n h => (mem_undotted (List.mem_of_mem_drop h)).1 rfl
  have hsafe : safeName name = (stem ++ extension clean).drop ((stem ++ extension clean).length - safeLength) := rfl
  by_cases hext : extension clean = []
  · refine .inr ⟨fun ext h => ?_, ?_⟩
    · obtain ⟨heq, hne⟩ := isExtension_iff.1 h
      exact absurd (heq.symm.trans hext) hne
    · rw [hsafe, hext, List.append_nil]
      exact hdots _
  · have hhas : IsExtension clean (extension clean) := isExtension_iff.2 ⟨rfl, hext⟩
    rw [List.length_append] at hsafe
    by_cases hshort : (extension clean).length ≤ safeLength
    · refine .inl ⟨stem.drop (stem.length + (extension clean).length - safeLength), extension clean, hhas, hshort,
        hdots _, ?_⟩
      rw [hsafe, List.drop_append_of_le_length (by omega)]
    · refine .inr ⟨fun ext h => ?_, ?_⟩
      · rw [h.unique hhas]
        omega
      · -- The cut goes through the extension, so its dot is gone.
        obtain ⟨-, tail, -, htail, -, hdot⟩ := hhas
        rw [hsafe, List.drop_append, List.drop_eq_nil_of_le (by omega), List.nil_append, htail]
        obtain ⟨n, hn⟩ : ∃ n, stem.length + ('.' :: tail).length - safeLength - stem.length = n + 1 := by
          rw [htail] at hshort
          exact ⟨('.' :: tail).length - safeLength - 1, by omega⟩
        rw [hn, List.drop_succ_cons]
        exact fun h => hdot (List.mem_of_mem_drop h)

/-- A safe name has no slash, and a single dot at most. -/
theorem safeName_plain (name : List Char) : '/' ∉ safeName name ∧ (safeName name).count '.' ≤ 1 := by
  constructor
  · intro h
    exact absurd (mem_safeName h) (by decide)
  · rcases safeName_cases name with ⟨stem, ext, ⟨-, tail, -, rfl, -, hdot⟩, -, hstem, heq⟩ | ⟨-, hdot⟩
    · simp [heq, List.count_eq_zero.2 hstem, List.count_eq_zero.2 hdot]
    · rw [List.count_eq_zero.2 hdot]
      exact Nat.zero_le 1

/-- No backslash is set where no character needs one. -/
theorem backslashed_eq_self {p : Char → Bool} {s : List Char} (h : ∀ c ∈ s, p c = false) : backslashed p s = s := by
  induction s with
  | nil => rfl
  | cons c s ih =>
    obtain ⟨hc, hs⟩ := List.forall_mem_cons.1 h
    rw [backslashed, List.flatMap_cons, if_neg (by simp [hc])]
    exact congrArg (c :: ·) (ih hs)

/-- A safe name consists of ASCII letters and digits, dots, colons and hyphens, is no longer than 64 characters, and has
one dot at most. Its extension is that of the cleaned name, if this has one that is no longer; otherwise it has no dot.
So it needs no escape inside an image command. -/
theorem safeName_keeps_extension (name : List Char) :
    (∀ c ∈ safeName name, isAsciiLetter c = true ∨ isAsciiDigit c = true ∨ c ∈ ['.', ':', '-']) ∧
    (safeName name).length ≤ 64 ∧ (safeName name).count '.' ≤ 1 ∧
    (∀ ext, IsExtension (safeName name) ext ↔ IsExtension (hyphenated false name) ext ∧ ext.length ≤ 64) ∧
    ('.' ∈ safeName name ↔ ∃ ext, IsExtension (hyphenated false name) ext ∧ ext.length ≤ 64) ∧
    escapeFileName (safeName name) = safeName name := by
  have hchars : ∀ c ∈ safeName name, isAsciiLetter c = true ∨ isAsciiDigit c = true ∨ c ∈ ['.', ':', '-'] := by
    intro c hc
    rcases mem_safeName hc with h | rfl
    · simp only [isSafe, isAsciiAlphanumeric, Bool.or_eq_true, beq_iff_eq] at h
      rcases h with ((h | h) | rfl) | rfl
      · exact .inl h
      · exact .inr (.inl h)
      · simp
      · simp
    · simp
  have hlength : (safeName name).length ≤ 64 := by
    unfold safeName
    rw [List.length_drop]
    simp only [safeLength]
    omega
  have hplain : escapeFileName (safeName name) = safeName name := by
    refine backslashed_eq_self fun c hc => ?_
    rw [Bool.or_eq_false_iff, Bool.or_eq_false_iff]
    refine ⟨⟨?_, ?_⟩, ?_⟩
    all_goals
      rw [beq_eq_false_iff_ne]
      rintro rfl
      exact absurd (hchars _ hc) (by decide)
  refine ⟨hchars, hlength, (safeName_plain name).2, ?_⟩
  rcases safeName_cases name with ⟨stem, ext, hext, hshort, hstem, heq⟩ | ⟨hlong, hdot⟩
  · have hkept : IsExtension (safeName name) ext := heq ▸ isExtension_append stem hext
    refine ⟨fun ext' => ⟨fun h => ?_, fun h => ?_⟩, ⟨fun _ => ⟨ext, hext, hshort⟩, fun _ => hkept.dot_mem⟩, hplain⟩
    · rw [h.unique hkept]
      exact ⟨hext, hshort⟩
    · rw [h.1.unique hext]
      exact hkept
  · have hnone : ∀ ext', ¬ (IsExtension (hyphenated false name) ext' ∧ ext'.length ≤ 64) :=
      fun ext' h => absurd h.2 (Nat.not_le.2 (hlong ext' h.1))
    refine ⟨fun ext' => ⟨fun h => absurd h.dot_mem hdot, fun h => absurd h (hnone ext')⟩, ⟨fun h => absurd h hdot, ?_⟩, hplain⟩
    rintro ⟨ext', h⟩
    exact absurd h (hnone ext')

/-- The dots of the stem and the signs of the name become hyphens; the last dot and what is behind it stay. -/
example : safeName "Flag of the U.S.A..svg".toList = "Flag-of-the-U-S-A-.svg".toList := by decide

end WikiTypeset.Media
