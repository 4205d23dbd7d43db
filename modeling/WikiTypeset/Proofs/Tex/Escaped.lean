import Mathlib.Logic.Relation
import WikiTypeset.Latex.Escape
import WikiTypeset.Proofs.Tex.Tokens

/-!
# Escaped text is inert

Escaped text is made of plain characters, the literal forms of special ones, ties and minus signs. What comes after the
escaping of the special characters touches none of the characters of the literal forms. Main statements:
`escaped_escapeText`, and `complete_escape`, by which text in any style leaves groups and directions alone.
-/

namespace WikiTypeset.Latex

open Text

/-! ### What escaped text is made of -/

/-- A text made of plain characters, literal forms of special characters, and some further units. -/
inductive Escaped (units : List String) : List Char → Prop
  | nil : Escaped units []
  | char {c : Char} {s : List Char} (hc : specialForm? c = none) (hs : Escaped units s) : Escaped units (c :: s)
  | form {c : Char} {form : String} {s : List Char} (hc : specialForm? c = some form) (hs : Escaped units s) :
    Escaped units (form.toList ++ s)
  | unit {u : String} {s : List Char} (hu : u ∈ units) (hs : Escaped units s) : Escaped units (u.toList ++ s)

theorem escaped_escapeSpecials (s : List Char) : Escaped [] (escapeSpecials s) := by
  induction s with
  | nil => exact .nil
  | cons c s ih =>
    cases hc : specialForm? c with
    | none => simpa [escapeSpecials, hc] using Escaped.char hc ih
    | some form => simpa [escapeSpecials, hc] using Escaped.form hc ih

/-- `t` is `s` with some characters replaced, in the way that `touch` says. -/
inductive Retouched (touch : Char → List Char → Prop) : List Char → List Char → Prop
  | nil : Retouched touch [] []
  | keep {s t : List Char} (c : Char) (h : Retouched touch s t) : Retouched touch (c :: s) (c :: t)
  | touch {s t r : List Char} {c : Char} (hc : touch c r) (h : Retouched touch s t) : Retouched touch (c :: s) (r ++ t)

namespace Retouched

variable {touch : Char → List Char → Prop} {s t : List Char}

theorem refl (s : List Char) : Retouched touch s s := by
  induction s with
  | nil => exact .nil
  | cons c s ih => exact .keep c ih

theorem append_left (s : List Char) {t u : List Char} (h : Retouched touch t u) : Retouched touch (s ++ t) (s ++ u) := by
  induction s with
  | nil => exact h
  | cons c s ih => exact .keep c ih

/-- Characters that are never touched stand as they did. -/
theorem of_append {u : List Char} (hu : ∀ c ∈ u, ∀ r, ¬ touch c r) (h : Retouched touch (u ++ s) t) :
    ∃ t', t = u ++ t' ∧ Retouched touch s t' := by
  induction u generalizing t with
  | nil => exact ⟨t, rfl, h⟩
  | cons c u ih =>
    cases h with
    | keep _ h =>
      obtain ⟨t', rfl, h'⟩ := ih (fun d hd => hu d (by simp [hd])) h
      exact ⟨t', rfl, h'⟩
    | touch hc _ => exact absurd hc (hu c (by simp) _)

/-- Escaped text stays so if no unit in it is touched and the replacements are units or plain. -/
theorem escaped {units units' : List String} (hsub : units ⊆ units')
    (hforms : ∀ c form, specialForm? c = some form → ∀ d ∈ form.toList, ∀ r, ¬ touch d r)
    (hunits : ∀ u ∈ units, ∀ d ∈ u.toList, ∀ r, ¬ touch d r)
    (hnew : ∀ c r, touch c r → ∀ s, Escaped units' s → Escaped units' (r ++ s)) (hs : Escaped units s)
    (h : Retouched touch s t) : Escaped units' t := by
  induction hs generalizing t with
  | nil =>
    cases h
    exact .nil
  | char hc _ ih =>
    cases h with
    | keep _ h => exact .char hc (ih h)
    | touch hr h => exact hnew _ _ hr _ (ih h)
  | form hc _ ih =>
    obtain ⟨t', rfl, h'⟩ := of_append (hforms _ _ hc) h
    exact .form hc (ih h')
  | unit hu _ ih =>
    obtain ⟨t', rfl, h'⟩ := of_append (hunits _ hu) h
    exact .unit (hsub hu) (ih h')

end Retouched

/-! ### What is done to escaped text -/

/-- How the characters of escaped text are replaced: line ends are changed or dropped, no-break spaces become ties, and
straight quotes are curled. -/
inductive Touch : Char → List Char → Prop
  | lineFeed {c : Char} (hc : c = '\n' ∨ c = '\r') : Touch c ['\n']
  | dropped {c : Char} (hc : c = '\n' ∨ c = '\r') : Touch c []
  | tie : Touch '\u00A0' ['~']
  | curled {c d : Char} (hc : c = '"' ∨ c = '\'') (hd : d ∈ ['\u201C', '\u201D', '\u2019']) : Touch c [d]

theorem Retouched.drop {c : Char} {s t : List Char} (hc : c = '\n' ∨ c = '\r') (h : Retouched Touch s t) :
    Retouched Touch (c :: s) t :=
  .touch (.dropped hc) h

theorem retouched_normalizeNewlines (s : List Char) : Retouched Touch s (normalizeNewlines s) := by
  fun_induction normalizeNewlines s with
  | case1 => exact .nil
  | case2 s ih => exact .drop (.inr rfl) (.keep '\n' ih)
  | case3 c s _ ih =>
    by_cases hc : c = '\r'
    · simpa [hc] using Retouched.touch (.lineFeed (.inr rfl)) ih
    · simpa [hc] using Retouched.keep c ih

theorem retouched_collapseNewlines (s : List Char) : Retouched Touch s (collapseNewlines s) := by
  induction s with
  | nil => exact .nil
  | cons c s ih =>
    rw [collapseNewlines]
    split
    next h =>
      simp only [Bool.and_eq_true, decide_eq_true_eq] at h
      exact .drop (.inl h.1) ih
    next => exact .keep c ih

theorem retouched_dropWhile (s : List Char) : Retouched Touch s (s.dropWhile (· == '\n')) := by
  induction s with
  | nil => exact .nil
  | cons c s ih =>
    rw [List.dropWhile_cons]
    split
    next h => exact .drop (.inl (by simpa using h)) ih
    next => exact .refl _

theorem retouched_dropFinalNewline (s : List Char) : Retouched Touch s (dropFinalNewline s) := by
  unfold dropFinalNewline
  split
  next h =>
    obtain ⟨s', hs⟩ : ∃ s', s = s' ++ ['\n'] := List.getLast?_eq_some_iff.1 (by simpa using h)
    have hfinal : Retouched Touch ['\n'] [] := .drop (.inl rfl) .nil
    simpa [hs] using hfinal.append_left s'
  next => exact .refl s

theorem retouched_setTies {touch : Char → List Char → Prop} (htie : touch '\u00A0' ['~']) (s : List Char) :
    Retouched touch s (setTies s) := by
  induction s with
  | nil => exact .nil
  | cons c s ih =>
    by_cases hc : c = '\u00A0'
    · subst hc
      exact .touch htie ih
    · simpa [setTies, hc] using Retouched.keep c ih

theorem retouched_openQuotes {touch : Char → List Char → Prop} (hopen : touch '"' ['\u201C']) (previous : Option Char)
    (s : List Char) : Retouched touch s (openQuotes previous s) := by
  induction s generalizing previous with
  | nil => exact .nil
  | cons c s ih =>
    rw [openQuotes]
    split
    next h =>
      simp only [Bool.and_eq_true, beq_iff_eq] at h
      rw [h.1.1]
      exact .touch hopen (ih _)
    next => exact .keep c (ih _)

theorem retouched_closeQuotes {touch : Char → List Char → Prop} (hclose : touch '"' ['\u201D']) (previous : Option Char)
    (s : List Char) : Retouched touch s (closeQuotes previous s) := by
  fun_induction closeQuotes previous s with
  | case1 => exact .nil
  | case2 previous c h =>
    simp only [Bool.and_eq_true, beq_iff_eq] at h
    rw [h.1]
    exact .touch hclose .nil
  | case3 previous c h n rest hn ih =>
    simp only [Bool.and_eq_true, beq_iff_eq] at h
    rw [h.1]
    exact .touch hclose (.keep n ih)
  | case4 previous c h n rest hn ih =>
    simp only [Bool.and_eq_true, beq_iff_eq] at h
    rw [h.1]
    exact .keep '"' ih
  | case5 previous c s h ih => exact .keep c ih

theorem retouched_setApostrophe {touch : Char → List Char → Prop} (hcurl : touch '\'' ['\u2019']) (s : List Char) :
    Retouched touch s (setApostrophe s) := by
  fun_induction setApostrophe s with
  | case1 => exact .nil
  | case2 c => exact .refl [c]
  | case3 c d s h =>
    simp only [Bool.and_eq_true, decide_eq_true_eq] at h
    rw [h.1]
    exact .keep c (.touch hcurl (.refl s))
  | case4 c d s h ih => exact .keep c ih

/-- A hyphen becomes a minus sign. -/
def IsMinus (c : Char) (r : List Char) : Prop := c = '-' ∧ r = "$-$".toList

theorem retouched_setMinus (state : MinusState) (s : List Char) : Retouched IsMinus s (setMinus state s) := by
  induction s generalizing state with
  | nil => exact .nil
  | cons c s ih =>
    rw [setMinus]
    split
    next => exact .keep c (ih _)
    next =>
      split
      next h =>
        simp only [Bool.and_eq_true, beq_iff_eq] at h
        exact .touch ⟨h.1.2, rfl⟩ (ih _)
      next => exact .keep c (ih _)

/-! ### Escaped text -/

/-- The literal forms of the special characters. -/
def specialForms : List String :=
  ["\\textbackslash\x7b\x7d", "\\\x7b", "\\\x7d", "\\$", "\\%", "\\&", "\\#", "\\_", "\\textasciitilde\x7b\x7d",
    "\\textasciicircum\x7b\x7d"]

theorem mem_specialForms {c : Char} {form : String} (h : specialForm? c = some form) : form ∈ specialForms := by
  unfold specialForm? at h
  split at h <;> cases h <;> decide

/-- No character that is replaced stands in a literal form. -/
theorem untouched_specialForms :
    ∀ form ∈ specialForms, ∀ d ∈ form.toList, d ∉ ['\n', '\r', '\u00A0', '"', '\'', '-'] := by
  simp [specialForms]

theorem Touch.mem {c : Char} {r : List Char} (h : Touch c r) : c ∈ ['\n', '\r', '\u00A0', '"', '\''] := by
  cases h with
  | lineFeed hc | dropped hc | curled hc => rcases hc with rfl | rfl <;> decide
  | tie => decide

theorem Escaped.retouched {units : List String} {s t : List Char} (hs : Escaped units s) (hunits : units ⊆ ["~"])
    (h : Retouched Touch s t) : Escaped ["~"] t := by
  refine h.escaped hunits (fun c form hc d hd r htouch => ?_) (fun u hu d hd r htouch => ?_) (fun c r htouch u hu => ?_) hs
  · exact untouched_specialForms form (mem_specialForms hc) d hd (List.mem_append_left ['-'] htouch.mem)
  · rw [List.mem_singleton.1 (hunits hu)] at hd
    rw [List.mem_singleton.1 hd] at htouch
    exact absurd htouch.mem (by decide)
  · cases htouch with
    | lineFeed _ => exact .char (by decide) hu
    | dropped _ => exact hu
    | tie => exact .unit (List.mem_singleton_self "~") hu
    | curled _ hd =>
      refine .char ?_ hu
      simp only [List.mem_cons, List.not_mem_nil, or_false] at hd
      rcases hd with rfl | rfl | rfl <;> decide

theorem Escaped.setMinus {s : List Char} (hs : Escaped ["~"] s) (state : MinusState) :
    Escaped ["~", "$-$"] (setMinus state s) := by
  refine (retouched_setMinus state s).escaped (by simp) (fun c form hc d hd r htouch => ?_)
    (fun u hu d hd r htouch => ?_) (fun c r htouch u hu => ?_) hs
  · have huntouched := untouched_specialForms form (mem_specialForms hc) d hd
    simp [htouch.1] at huntouched
  · rw [List.mem_singleton.1 hu] at hd
    rw [List.mem_singleton.1 hd] at htouch
    exact absurd htouch.1 (by decide)
  · rw [htouch.2]
    exact .unit (by simp) hu

/-- After the special characters, line ends, no-break spaces and quotes are set in some steps, and minus signs last. -/
theorem escapeText_steps (s : List Char) : ∃ t, Relation.ReflTransGen (Retouched Touch) (escapeSpecials s) t ∧
    escapeText s = setMinus .ready t := by
  refine ⟨setApostrophe (closeQuotes none (openQuotes none (setTies (tidyNewlines (escapeSpecials s))))), ?_, rfl⟩
  have hnormal := Relation.ReflTransGen.single (retouched_normalizeNewlines (escapeSpecials s))
  have hcollapsed := hnormal.tail (retouched_collapseNewlines _)
  have hdropped := hcollapsed.tail (retouched_dropWhile _)
  have htidy := hdropped.tail (retouched_dropFinalNewline _)
  have hties := htidy.tail (retouched_setTies .tie _)
  have hopened := hties.tail (retouched_openQuotes (.curled (.inl rfl) (by decide)) none _)
  have hclosed := hopened.tail (retouched_closeQuotes (.curled (.inl rfl) (by decide)) none _)
  exact hclosed.tail (retouched_setApostrophe (.curled (.inr rfl) (by decide)) _)

/-- Escaped text is made of plain characters, literal forms, ties and minus signs. -/
theorem escaped_escapeText (s : List Char) : Escaped ["~", "$-$"] (escapeText s) := by
  obtain ⟨t, hsteps, heq⟩ := escapeText_steps s
  have htouched : Escaped ["~"] t := by
    clear heq
    induction hsteps with
    | refl => exact (escaped_escapeSpecials s).retouched (by simp) (.refl _)
    | tail _ h ih => exact ih.retouched (List.Subset.refl _) h
  rw [heq]
  exact htouched.setMinus .ready

/-! ### Inert fragments in a row -/

/-- An inert fragment that ends outside control sequences. -/
structure Complete (s : List Char) : Prop where
  inert : Inert s
  endsPlain : EndsPlain s

instance (s : List Char) : Decidable (Complete s) :=
  decidable_of_iff (Inert s ∧ EndsPlain s) ⟨fun h => ⟨h.1, h.2⟩, fun h => ⟨h.inert, h.endsPlain⟩⟩

namespace Complete

variable {s t : List Char}

theorem nil : Complete [] := by decide

theorem append (hs : Complete s) (ht : Complete t) : Complete (s ++ t) :=
  ⟨hs.inert.append ht.inert (hs.endsPlain.texTokens_append t), hs.endsPlain.append ht.endsPlain⟩

theorem flatMap {α : Type} {f : α → List Char} (h : ∀ x, Complete (f x)) (xs : List α) : Complete (xs.flatMap f) := by
  induction xs with
  | nil => exact .nil
  | cons x xs ih => exact (h x).append ih

/-- A complete fragment in a group is complete. -/
theorem inGroup (hs : Complete s) {start : List Char} (hstart : Nests start 0 1 ∧ EndsPlain start) :
    Complete (start ++ s ++ ['\x7d']) := by
  have hin : Nests (start ++ s) 0 1 := hstart.1.append (hs.inert.add 1) (hstart.2.texTokens_append s)
  have hplain : EndsPlain (start ++ s) := hstart.2.append hs.endsPlain
  have hend : Nests ['\x7d'] 1 0 := by decide
  exact ⟨hin.append hend (hplain.texTokens_append _), hplain.append (by decide)⟩

end Complete

theorem complete_char {c : Char} (h : specialForm? c = none) : Complete [c] := by
  have hstep : TexScan.stepPlain c = ([.char c], .plain) := by
    unfold TexScan.stepPlain
    split <;> first | rfl | cases h
  have htokens : texTokens [c] = [.char c] := by
    show (TexScan.stepPlain c).1 ++ (TexScan.stepPlain c).2.finish = [.char c]
    rw [hstep]
    rfl
  have hplain : EndsPlain [c] := congrArg Prod.snd hstep
  refine ⟨⟨?_, ?_⟩, hplain⟩
  · rw [htokens]
    rfl
  · rw [htokens]
    exact List.forall_mem_singleton.2 rfl

theorem Escaped.complete {units : List String} {s : List Char} (hunits : ∀ u ∈ units, Complete u.toList)
    (hs : Escaped units s) : Complete s := by
  have hforms : ∀ form ∈ specialForms, Complete form.toList := by decide
  induction hs with
  | nil => exact .nil
  | char hc _ ih => exact (complete_char hc).append ih
  | form hc _ ih => exact (hforms _ (mem_specialForms hc)).append ih
  | unit hu _ ih => exact (hunits _ hu).append ih

theorem complete_escapeText (s : List Char) : Complete (escapeText s) :=
  (escaped_escapeText s).complete (by decide)

theorem complete_escapeWithUrls (s : List Char) : Complete (escapeWithUrls s) := by
  refine .flatMap (fun piece => ?_) _
  dsimp only
  split
  · exact (complete_escapeText piece.text).inGroup (by decide)
  · exact complete_escapeText piece.text

theorem complete_escapePlain (style : TextStyle) (s : List Char) : Complete (style.escapePlain s) := by
  unfold TextStyle.escapePlain
  split
  · exact complete_escapeWithUrls s
  · exact complete_escapeText s

/-- Text in any style leaves groups and directions alone. -/
theorem complete_escape (style : TextStyle) (s : List Char) : Complete (style.escape s) := by
  unfold TextStyle.escape
  split
  · refine .flatMap (fun piece => ?_) _
    split
    · exact (complete_escapePlain style piece.text).inGroup (by decide)
    · exact complete_escapePlain style piece.text
  · exact complete_escapePlain style s

end WikiTypeset.Latex
