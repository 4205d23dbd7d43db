import WikiTypeset.Proofs.Tex.Escaped

/-!
# Escaped text stays on its line

Text without line ends has none when it is escaped, and a text is escaped to nothing only if it is nothing: what is done
to it drops line ends alone. Main statement: `stays_escape`.
-/

namespace WikiTypeset.Latex

open Text

/-- A stretch of characters without the end of a line. -/
def Unbroken (s : List Char) : Prop := ∀ c ∈ s, c ≠ '\n' ∧ c ≠ '\r'

instance (s : List Char) : Decidable (Unbroken s) := List.decidableBAll _ s

/-- `t` is unbroken, and it is nothing only if `s` is. -/
structure Stays (s t : List Char) : Prop where
  unbroken : Unbroken t
  eq_nil : t = [] → s = []

namespace Unbroken

variable {s t : List Char}

theorem append (hs : Unbroken s) (ht : Unbroken t) : Unbroken (s ++ t) := List.forall_mem_append.2 ⟨hs, ht⟩

theorem mono (ht : Unbroken t) (h : s ⊆ t) : Unbroken s := fun c hc => ht c (h hc)

end Unbroken

/-- The replacement of characters keeps a text on its line if each replacement does. -/
theorem Retouched.stays {touch : Char → List Char → Prop} (htouch : ∀ c r, touch c r → Unbroken [c] → Stays [c] r)
    {s t : List Char} (h : Retouched touch s t) (hs : Unbroken s) : Stays s t := by
  induction h with
  | nil => exact ⟨hs, fun _ => rfl⟩
  | keep c _ ih =>
    obtain ⟨hc, hs⟩ := List.forall_mem_cons.1 hs
    exact ⟨List.forall_mem_cons.2 ⟨hc, (ih hs).unbroken⟩, nofun⟩
  | @touch s t r c hr _ ih =>
    obtain ⟨hc, hs⟩ := List.forall_mem_cons.1 hs
    have hstays := htouch c r hr (List.forall_mem_singleton.2 hc)
    refine ⟨hstays.unbroken.append (ih hs).unbroken, fun hnil => ?_⟩
    cases hstays.eq_nil (List.append_eq_nil_iff.1 hnil).1

theorem Stays.trans {s t u : List Char} (h : Stays s t) (h' : Stays t u) : Stays s u :=
  ⟨h'.unbroken, fun hu => h.eq_nil (h'.eq_nil hu)⟩

/-- No replacement in escaped text ends a line, except for the end of a line. -/
theorem Touch.stays {c : Char} {r : List Char} (h : Touch c r) (hc : Unbroken [c]) : Stays [c] r := by
  have hends : ¬ (c = '\n' ∨ c = '\r') := by
    have := hc c (by simp)
    tauto
  cases h with
  | lineFeed h => exact absurd h hends
  | dropped h => exact absurd h hends
  | tie => exact ⟨by decide, nofun⟩
  | curled _ hd =>
    have hcurled : ∀ d ∈ ['\u201C', '\u201D', '\u2019'], Unbroken [d] := by simp [Unbroken]
    exact ⟨hcurled _ hd, nofun⟩

theorem IsMinus.stays {c : Char} {r : List Char} (h : IsMinus c r) : Stays [c] r := by
  rw [h.2]
  exact ⟨by decide, nofun⟩

theorem stays_escapeSpecials {s : List Char} (hs : Unbroken s) : Stays s (escapeSpecials s) := by
  have hforms : ∀ form ∈ specialForms, Unbroken form.toList ∧ form.toList ≠ [] := by decide
  induction s with
  | nil => exact ⟨nofun, fun _ => rfl⟩
  | cons c s ih =>
    obtain ⟨hc, hs⟩ := List.forall_mem_cons.1 hs
    have hrest := (ih hs).unbroken
    cases hform : specialForm? c with
    | none =>
      have hcons : escapeSpecials (c :: s) = c :: escapeSpecials s := by simp [escapeSpecials, hform]
      rw [hcons]
      exact ⟨List.forall_mem_cons.2 ⟨hc, hrest⟩, nofun⟩
    | some form =>
      have hcons : escapeSpecials (c :: s) = form.toList ++ escapeSpecials s := by simp [escapeSpecials, hform]
      obtain ⟨hunbroken, hne⟩ := hforms form (mem_specialForms hform)
      rw [hcons]
      exact ⟨hunbroken.append hrest, fun hnil => absurd (List.append_eq_nil_iff.1 hnil).1 hne⟩

theorem stays_escapeText {s : List Char} (hs : Unbroken s) : Stays s (escapeText s) := by
  obtain ⟨t, hsteps, heq⟩ := escapeText_steps s
  have htouched : Stays s t := by
    clear heq
    induction hsteps with
    | refl => exact stays_escapeSpecials hs
    | tail _ h ih => exact ih.trans (h.stays (fun _ _ hr hc => hr.stays hc) ih.unbroken)
  rw [heq]
  exact htouched.trans ((retouched_setMinus .ready t).stays (fun _ _ hr _ => hr.stays) htouched.unbroken)

/-- Segments that stay on their line one by one do so together. -/
theorem stays_segments {find : SpanFinder} {f : Segment → List Char}
    (hf : ∀ piece : Segment, Unbroken piece.text → Stays piece.text (f piece)) {s : List Char} (hs : Unbroken s) :
    Stays s ((segments find s).flatMap f) := by
  have hpieces : ∀ piece ∈ segments find s, Stays piece.text (f piece) := by
    intro piece hpiece
    refine hf piece (hs.mono fun c hc => ?_)
    rw [← flatten_segments find s]
    exact List.mem_flatMap.2 ⟨piece, hpiece, hc⟩
  constructor
  · intro c hc
    obtain ⟨piece, hpiece, hc⟩ := List.mem_flatMap.1 hc
    exact (hpieces piece hpiece).unbroken c hc
  · intro hnil
    rw [← flatten_segments find s]
    exact List.flatMap_eq_nil_iff.2 fun piece hpiece =>
      (hpieces piece hpiece).eq_nil (List.flatMap_eq_nil_iff.1 hnil piece hpiece)

theorem stays_wrapped {s t start : List Char} (h : Stays s t) (hstart : Unbroken start) :
    Stays s (start ++ t ++ ['\x7d']) :=
  ⟨(hstart.append h.unbroken).append (by decide), fun hnil => by simp at hnil⟩

theorem stays_escapeWithUrls {s : List Char} (hs : Unbroken s) : Stays s (escapeWithUrls s) := by
  refine stays_segments (fun piece hpiece => ?_) hs
  have htext := stays_escapeText hpiece
  dsimp only
  split
  · exact stays_wrapped htext (by decide)
  · exact htext

theorem stays_escapePlain (style : TextStyle) {s : List Char} (hs : Unbroken s) : Stays s (style.escapePlain s) := by
  unfold TextStyle.escapePlain
  split
  · exact stays_escapeWithUrls hs
  · exact stays_escapeText hs

/-- Text in any style stays on its line. -/
theorem stays_escape (style : TextStyle) {s : List Char} (hs : Unbroken s) : Stays s (style.escape s) := by
  unfold TextStyle.escape
  split
  · refine stays_segments (fun piece hpiece => ?_) hs
    have hplain := stays_escapePlain style hpiece
    split
    · exact stays_wrapped hplain (by decide)
    · exact hplain
  · exact stays_escapePlain style hs

end WikiTypeset.Latex
