import Mathlib.Data.List.Induction
import WikiTypeset.Proofs.Tex.Decoded

/-!
# Line ends in parts of a text

A text with its newlines tidied is its lines that are not empty, with one line feed between them. So a line end at the
edge between two parts is lost when the parts are tidied one by one, if there is something to part on both sides of it,
and nothing else is. Main statements: `tidyNewlines_append` and `length_flatMap_tidyNewlines_iff`.
-/

namespace WikiTypeset.Latex

open Text

instance (c : Char) : Decidable (IsInLine c) := inferInstanceAs (Decidable (_ ∧ _))

/-- Where a scan for lines stands. -/
inductive LineScan
  /-- Before the first line. -/
  | start
  | inLine
  /-- At line ends behind a line. -/
  | between
  deriving DecidableEq, Repr

namespace LineScan

/-- Where the scan stands after a character. -/
def step (scan : LineScan) (c : Char) : LineScan :=
  if IsInLine c then .inLine else if scan = .start then .start else .between

/-- Where the scan stands after a text. -/
def after (scan : LineScan) (s : List Char) : LineScan := s.foldl step scan

/-- The lines of a text that are not empty, with a line feed between them. -/
def tidy : LineScan → List Char → List Char
  | _, [] => []
  | scan, c :: s =>
    if IsInLine c then (if scan = .between then ['\n'] else []) ++ c :: tidy .inLine s else tidy (scan.step c) s

theorem tidy_append (scan : LineScan) (s t : List Char) : scan.tidy (s ++ t) = scan.tidy s ++ (scan.after s).tidy t := by
  induction s generalizing scan with
  | nil => rfl
  | cons c s ih =>
    rw [List.cons_append, tidy, tidy]
    by_cases hc : IsInLine c
    · have hstep : scan.step c = .inLine := if_pos hc
      rw [if_pos hc, if_pos hc, ih, ← hstep, List.append_assoc]
      rfl
    · rw [if_neg hc, if_neg hc, ih]
      rfl

/-! ### Newlines one by one -/

theorem tidy_normalizeNewlines (scan : LineScan) (s : List Char) : scan.tidy (normalizeNewlines s) = scan.tidy s := by
  have hends : ¬ IsInLine '\n' ∧ ¬ IsInLine '\r' := by decide
  fun_induction normalizeNewlines s generalizing scan with
  | case1 => rfl
  | case2 s ih =>
    have htwice : (scan.step '\r').step '\n' = scan.step '\n' := by cases scan <;> rfl
    rw [tidy, if_neg hends.1, ih, tidy, if_neg hends.2, tidy, if_neg hends.1, htwice]
  | case3 c s _ ih =>
    by_cases hc : c = '\r'
    · have hstep : scan.step '\n' = scan.step '\r' := by cases scan <;> rfl
      rw [if_pos hc, hc, tidy, if_neg hends.1, ih, tidy, if_neg hends.2, hstep]
    · rw [if_neg hc, tidy, tidy, ih, ih]

/-- A text without carriage returns, whose first line has begun, loses repeated line feeds and one at its end. -/
theorem dropFinalNewline_collapseNewlines {s : List Char} (hs : '\r' ∉ s) :
    dropFinalNewline (collapseNewlines s) = tidy .inLine s := by
  have hend : ¬ IsInLine '\n' := by decide
  have hkeep : ∀ (c : Char) (t : List Char), c ≠ '\n' ∨ t ≠ [] →
      dropFinalNewline (c :: t) = c :: dropFinalNewline t := by
    intro c t h
    cases t with
    | nil =>
      have hc : c ≠ '\n' := h.resolve_right (by simp)
      simp [dropFinalNewline, hc]
    | cons d t => simp only [dropFinalNewline, List.getLast?_cons_cons]; split <;> rfl
  induction s with
  | nil => rfl
  | cons c s ih =>
    rw [List.mem_cons, not_or] at hs
    have hrest := ih hs.2
    by_cases hc : c = '\n'
    · subst hc
      rw [collapseNewlines, tidy, if_neg hend]
      cases s with
      | nil => rfl
      | cons d s =>
        by_cases hd : d = '\n'
        · -- The scan is between lines after one line feed as after two.
          subst hd
          rw [tidy, if_neg hend] at hrest
          rw [tidy, if_neg hend, if_pos (by simp), hrest]
          rfl
        · have hin : IsInLine d := ⟨hd, fun h => hs.2 (by simp [h])⟩
          have hcons : collapseNewlines (d :: s) = d :: collapseNewlines s := by simp [collapseNewlines, hd]
          rw [if_neg (by simp [hd]), hkeep _ _ (.inr (by simp [hcons])), hrest, tidy, tidy, if_pos hin, if_pos hin]
          rfl
    · have hin : IsInLine c := ⟨hc, fun h => hs.1 h.symm⟩
      have hcons : collapseNewlines (c :: s) = c :: collapseNewlines s := by simp [collapseNewlines, hc]
      rw [hcons, hkeep _ _ (.inl hc), hrest, tidy, if_pos hin]
      rfl

theorem dropWhile_collapseNewlines (s : List Char) :
    (collapseNewlines s).dropWhile (· == '\n') = collapseNewlines (s.dropWhile (· == '\n')) := by
  induction s with
  | nil => rfl
  | cons c s ih =>
    by_cases hc : c = '\n'
    · subst hc
      rw [List.dropWhile_cons_of_pos (by simp), ← ih, collapseNewlines]
      split
      · rfl
      · rw [List.dropWhile_cons_of_pos (by simp)]
    · have hcons : collapseNewlines (c :: s) = c :: collapseNewlines s := by simp [collapseNewlines, hc]
      rw [hcons, List.dropWhile_cons_of_neg (by simpa using hc), List.dropWhile_cons_of_neg (by simpa using hc), hcons]

theorem tidy_dropWhile (s : List Char) : tidy .inLine (s.dropWhile (· == '\n')) = tidy .start s ∨ '\r' ∈ s := by
  induction s with
  | nil => exact .inl rfl
  | cons c s ih =>
    by_cases hc : c = '\n'
    · subst hc
      exact ih.imp id fun h => List.mem_cons_of_mem _ h
    · by_cases hreturn : c = '\r'
      · exact .inr (by simp [hreturn])
      · have hin : IsInLine c := ⟨hc, hreturn⟩
        rw [List.dropWhile_cons_of_neg (by simpa using hc), tidy, tidy, if_pos hin, if_pos hin]
        exact .inl rfl

end LineScan

theorem not_mem_normalizeNewlines (s : List Char) : '\r' ∉ normalizeNewlines s := by
  fun_induction normalizeNewlines s with
  | case1 => exact List.not_mem_nil
  | case2 s ih => simpa using ih
  | case3 c s _ ih =>
    rw [List.mem_cons, not_or]
    refine ⟨?_, ih⟩
    split
    · decide
    · next hc => exact fun h => hc h.symm

/-- Tidied newlines stand between lines that are not empty, and nowhere else. -/
theorem tidyNewlines_eq (s : List Char) : tidyNewlines s = LineScan.tidy .start s := by
  have hclear := not_mem_normalizeNewlines s
  have hdropped : '\r' ∉ (normalizeNewlines s).dropWhile (· == '\n') := fun h =>
    hclear ((List.dropWhile_sublist _).subset h)
  rw [tidyNewlines, LineScan.dropWhile_collapseNewlines, LineScan.dropFinalNewline_collapseNewlines hdropped,
    (LineScan.tidy_dropWhile _).resolve_right hclear, LineScan.tidy_normalizeNewlines]

theorem tidyNewlines_of_forall {s : List Char} (h : ∀ c ∈ s, IsInLine c) : tidyNewlines s = s := by
  have htidy : ∀ scan : LineScan, scan ≠ .between → scan.tidy s = s := by
    induction s with
    | nil => intro _ _; rfl
    | cons c s ih =>
      intro scan hscan
      obtain ⟨hc, hs⟩ := List.forall_mem_cons.1 h
      rw [LineScan.tidy, if_pos hc, if_neg hscan, ih hs .inLine (by decide)]
      rfl
  rw [tidyNewlines_eq]
  exact htidy .start (by decide)

theorem flatMap_tidyNewlines_of_forall (parts : List (List Char)) (h : ∀ c ∈ parts.flatten, IsInLine c) :
    parts.flatMap tidyNewlines = parts.flatten := by
  induction parts with
  | nil => rfl
  | cons s parts ih =>
    rw [List.flatten_cons] at h
    obtain ⟨hs, hparts⟩ := List.forall_mem_append.1 h
    rw [List.flatMap_cons, tidyNewlines_of_forall hs, ih hparts, List.flatten_cons]

/-! ### Parts of a text -/

/-- A line end at the edge between two parts of a text that both hold more than line ends. -/
structure Seam (s t : List Char) : Prop where
  before : ∃ c ∈ s, IsInLine c
  after : ∃ c ∈ t, IsInLine c
  atEdge : (∃ c ∈ s.getLast?, ¬ IsInLine c) ∨ ∃ c ∈ t.head?, ¬ IsInLine c

instance (s t : List Char) : Decidable (Seam s t) :=
  decidable_of_iff ((s.any fun c => decide (IsInLine c)) = true ∧ (t.any fun c => decide (IsInLine c)) = true ∧
      ((s.getLast?.any fun c => ! decide (IsInLine c)) = true ∨ (t.head?.any fun c => ! decide (IsInLine c)) = true)) <| by
    simp only [List.any_eq_true, Option.any_eq_true, Bool.not_eq_true', decide_eq_true_eq, decide_eq_false_iff_not]
    exact ⟨fun h => ⟨h.1, h.2.1, h.2.2⟩, fun h => ⟨h.before, h.after, h.atEdge⟩⟩

/-- A seam behind two parts is one behind the second or, if this is made of line ends, one behind the first. -/
theorem seam_append_left {s t u : List Char} : Seam (s ++ u) t → Seam s (u ++ t) ∨ Seam u t := by
  intro h
  by_cases hu : ∃ c ∈ u, IsInLine c
  · obtain ⟨c, hc, -⟩ := id hu
    have hne : u ≠ [] := List.ne_nil_of_mem hc
    have hedge := h.atEdge
    rw [List.getLast?_append_of_ne_nil s hne] at hedge
    exact .inr ⟨hu, h.after, hedge⟩
  · left
    obtain ⟨c, hc, hin⟩ := h.before
    obtain ⟨d, hd, hind⟩ := h.after
    have hs : c ∈ s := (List.mem_append.1 hc).resolve_right fun hmem => hu ⟨c, hmem, hin⟩
    refine ⟨⟨c, hs, hin⟩, ⟨d, List.mem_append_right u hd, hind⟩, ?_⟩
    cases u with
    | nil => simpa using h.atEdge
    | cons e u => exact .inr ⟨e, rfl, fun he => hu ⟨e, List.mem_cons_self .., he⟩⟩

/-- What stands before the first part does not mend a seam. -/
theorem Seam.append_left {t u : List Char} (h : Seam u t) (s : List Char) : Seam (s ++ u) t := by
  obtain ⟨c, hc, hin⟩ := h.before
  have hne : u ≠ [] := List.ne_nil_of_mem hc
  refine ⟨⟨c, List.mem_append_right s hc, hin⟩, h.after, ?_⟩
  rw [List.getLast?_append_of_ne_nil s hne]
  exact h.atEdge

namespace LineScan

/-- Behind a text with more than line ends, the scan is in its last line or between lines. -/
theorem after_start {s : List Char} (h : ∃ c ∈ s, IsInLine c) : after .start s ≠ .start ∧
    (after .start s = .between ↔ ∃ c ∈ s.getLast?, ¬ IsInLine c) := by
  induction s using List.reverseRecOn with
  | nil =>
    obtain ⟨c, hc, -⟩ := h
    cases hc
  | append_singleton s c ih =>
    have hafter : after .start (s ++ [c]) = (after .start s).step c := by simp [after]
    rw [hafter, List.getLast?_concat, step]
    by_cases hc : IsInLine c
    · simp [hc]
    · have hs : ∃ d ∈ s, IsInLine d := by
        obtain ⟨d, hd, hin⟩ := h
        rcases List.mem_append.1 hd with hd | hd
        · exact ⟨d, hd, hin⟩
        · exact absurd (List.mem_singleton.1 hd ▸ hin) hc
      simp [hc, (ih hs).1]

theorem after_start_of_forall {s : List Char} (h : ∀ c ∈ s, ¬ IsInLine c) : after .start s = .start := by
  induction s with
  | nil => rfl
  | cons c s ih =>
    obtain ⟨hc, hs⟩ := List.forall_mem_cons.1 h
    have hstep : step .start c = .start := by simp [step, hc]
    exact (congrArg (after · s) hstep).trans (ih hs)

theorem tidy_of_forall {s : List Char} (h : ∀ c ∈ s, ¬ IsInLine c) (scan : LineScan) : scan.tidy s = [] := by
  induction s generalizing scan with
  | nil => rfl
  | cons c s ih =>
    obtain ⟨hc, hs⟩ := List.forall_mem_cons.1 h
    rw [tidy, if_neg hc, ih hs]

/-- Between lines a line feed is due before the next one. -/
theorem tidy_between {s : List Char} (h : ∃ c ∈ s, IsInLine c) : tidy .between s = '\n' :: tidy .start s := by
  induction s with
  | nil =>
    obtain ⟨c, hc, -⟩ := h
    cases hc
  | cons c s ih =>
    by_cases hc : IsInLine c
    · rw [tidy, tidy, if_pos hc, if_pos hc]
      rfl
    · have hs : ∃ d ∈ s, IsInLine d := by
        obtain ⟨d, hd, hin⟩ := h
        rcases List.mem_cons.1 hd with rfl | hd
        · exact absurd hin hc
        · exact ⟨d, hd, hin⟩
      rw [tidy, tidy, if_neg hc, if_neg hc, step, step, if_neg hc, if_neg hc]
      exact ih hs

/-- In a line one is due if the line ends first. -/
theorem tidy_inLine {s : List Char} (h : ∃ c ∈ s, IsInLine c) :
    tidy .inLine s = (if s.head?.any fun c => ! decide (IsInLine c) then ['\n'] else []) ++ tidy .start s := by
  cases s with
  | nil =>
    obtain ⟨c, hc, -⟩ := h
    cases hc
  | cons c s =>
    by_cases hc : IsInLine c
    · simp [tidy, hc]
    · have hbetween : tidy .inLine (c :: s) = tidy .between (c :: s) := by simp [tidy, step, hc]
      rw [hbetween, tidy_between h]
      simp [hc]

end LineScan

/-- Two parts are tidied as one, but for a line feed at a seam. -/
theorem tidyNewlines_append (s t : List Char) :
    tidyNewlines (s ++ t) = tidyNewlines s ++ (if Seam s t then ['\n'] else []) ++ tidyNewlines t := by
  rw [tidyNewlines_eq, tidyNewlines_eq, tidyNewlines_eq, LineScan.tidy_append, List.append_assoc, List.append_right_inj]
  by_cases hs : ∃ c ∈ s, IsInLine c
  · by_cases ht : ∃ c ∈ t, IsInLine c
    · obtain ⟨hstarted, hbetween⟩ := LineScan.after_start hs
      cases hscan : LineScan.after .start s with
      | start => exact absurd hscan hstarted
      | between =>
        have hseam : Seam s t := ⟨hs, ht, .inl (hbetween.1 hscan)⟩
        rw [LineScan.tidy_between ht, if_pos hseam]
        rfl
      | inLine =>
        have hlast : ¬ ∃ c ∈ s.getLast?, ¬ IsInLine c := by
          rw [← hbetween, hscan]
          decide
        have hhead : (t.head?.any fun c => ! decide (IsInLine c)) = true ↔ ∃ c ∈ t.head?, ¬ IsInLine c := by
          simp only [Option.any_eq_true, Bool.not_eq_true', decide_eq_false_iff_not]
          exact Iff.rfl
        have hseam : Seam s t ↔ (t.head?.any fun c => ! decide (IsInLine c)) = true :=
          ⟨fun h => hhead.2 (h.atEdge.resolve_left hlast), fun h => ⟨hs, ht, .inr (hhead.1 h)⟩⟩
        rw [LineScan.tidy_inLine ht, if_congr hseam rfl rfl]
    · have hnone : ∀ c ∈ t, ¬ IsInLine c := fun c hc hin => ht ⟨c, hc, hin⟩
      have hseam : ¬ Seam s t := fun h => ht h.after
      rw [LineScan.tidy_of_forall hnone, LineScan.tidy_of_forall hnone, if_neg hseam]
      rfl
  · have hnone : ∀ c ∈ s, ¬ IsInLine c := fun c hc hin => hs ⟨c, hc, hin⟩
    have hseam : ¬ Seam s t := fun h => hs h.before
    rw [LineScan.after_start_of_forall hnone, if_neg hseam]
    rfl

/-- Parts that are tidied one by one lose nothing but line feeds. -/
theorem flatMap_tidyNewlines_sublist (parts : List (List Char)) :
    (parts.flatMap tidyNewlines).Sublist (tidyNewlines parts.flatten) := by
  induction parts with
  | nil => exact .slnil
  | cons s parts ih =>
    rw [List.flatMap_cons, List.flatten_cons, tidyNewlines_append, List.append_assoc]
    exact (List.Sublist.refl _).append (ih.trans (List.sublist_append_right ..))

/-- They lose none just if no cut between them is a seam. -/
theorem flatMap_tidyNewlines_iff (parts : List (List Char)) :
    parts.flatMap tidyNewlines = tidyNewlines parts.flatten ↔
      ∀ before after, parts = before ++ after → ¬ Seam before.flatten after.flatten := by
  induction parts with
  | nil =>
    refine ⟨fun _ before after hsplit hseam => ?_, fun _ => rfl⟩
    obtain ⟨rfl, -⟩ := List.append_eq_nil_iff.1 hsplit.symm
    obtain ⟨c, hc, -⟩ := hseam.before
    cases hc
  | cons s parts ih =>
    rw [List.flatMap_cons, List.flatten_cons, tidyNewlines_append, List.append_assoc, List.append_right_inj]
    constructor
    · -- What is lost at a later cut cannot be made up for, so the first cut is no seam and nothing is lost later.
      intro heq before after hsplit hseam
      have hlength := (flatMap_tidyNewlines_sublist parts).length_le
      rw [heq, List.length_append] at hlength
      have hfirst : ¬ Seam s parts.flatten := by
        intro hfirst
        rw [if_pos hfirst, List.length_singleton] at hlength
        omega
      rw [if_neg hfirst, List.nil_append, ih] at heq
      cases before with
      | nil =>
        obtain ⟨c, hc, -⟩ := hseam.before
        cases hc
      | cons _ before =>
        obtain ⟨rfl, rfl⟩ := List.cons.inj hsplit
        rcases seam_append_left hseam with h | h
        · rw [← List.flatten_append] at h
          exact hfirst h
        · exact heq before after rfl h
    · intro hnone
      have hfirst : ¬ Seam s parts.flatten := by simpa using hnone [s] parts rfl
      have hrest : parts.flatMap tidyNewlines = tidyNewlines parts.flatten := by
        refine ih.2 fun before after hsplit hseam => hnone (s :: before) after (by rw [hsplit, List.cons_append]) ?_
        exact hseam.append_left s
      rw [if_neg hfirst, hrest, List.nil_append]

example : Seam ['a', '\n'] ['b'] ∧ ¬ Seam ['\n'] ['b'] ∧ ¬ Seam ['a'] ['b'] := by decide

end WikiTypeset.Latex
