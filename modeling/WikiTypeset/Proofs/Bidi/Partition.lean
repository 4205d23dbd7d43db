import WikiTypeset.Bidi.Paragraph

/-!
# The runs of a paragraph are a partition

The runs of an analysed text follow one another without gap from its first character to its last, and none is empty.
Main statements: `paragraph_partitions`, and `Paragraph.Partitions.runAt_start`, which finds a run at its own start.
-/

namespace WikiTypeset.Bidi

/-- Runs that follow one another without gap from `start` to `stop`, none of them empty. -/
def Contiguous : Nat → List Run → Nat → Prop
  | start, [], stop => start = stop
  | start, r :: rs, stop => r.start = start ∧ start < r.stop ∧ Contiguous r.stop rs stop

/-- The analysis is one of the text, and its runs cut the text into non-empty contiguous spans. -/
structure Paragraph.Partitions (p : Paragraph) (s : List Char) : Prop where
  text_eq : p.text = s
  contiguous : Contiguous 0 p.runs s.length

theorem Contiguous.le {start stop : Nat} {rs : List Run} (h : Contiguous start rs stop) : start ≤ stop := by
  induction rs generalizing start with
  | nil => exact Nat.le_of_eq h
  | cons r rs ih => exact Nat.le_trans (Nat.le_of_lt h.2.1) (ih h.2.2)

theorem Contiguous.split {start stop : Nat} {rs rs' : List Run} (h : Contiguous start (rs ++ rs') stop) :
    ∃ mid, Contiguous start rs mid ∧ Contiguous mid rs' stop := by
  induction rs generalizing start with
  | nil => exact ⟨start, rfl, h⟩
  | cons r rs ih =>
    obtain ⟨hs, hlt, hrest⟩ := h
    obtain ⟨mid, h₁, h₂⟩ := ih hrest
    exact ⟨mid, ⟨hs, hlt, h₁⟩, h₂⟩

/-- Every run begins before the end of the runs. -/
theorem Contiguous.start_lt {start stop : Nat} {rs : List Run} (h : Contiguous start rs stop) {r : Run}
    (hr : r ∈ rs) : r.start < stop := by
  induction rs generalizing start with
  | nil => simp at hr
  | cons r' rs ih =>
    obtain ⟨hs, hlt, hrest⟩ := h
    rcases List.mem_cons.1 hr with rfl | hr
    · have := hrest.le
      omega
    · exact ih hrest hr

/-- No run begins before the start of the runs. -/
theorem Contiguous.le_start {start stop : Nat} {rs : List Run} (h : Contiguous start rs stop) {r : Run}
    (hr : r ∈ rs) : start ≤ r.start := by
  induction rs generalizing start with
  | nil => simp at hr
  | cons r' rs ih =>
    obtain ⟨hs, hlt, hrest⟩ := h
    rcases List.mem_cons.1 hr with rfl | hr
    · exact Nat.le_of_eq hs.symm
    · exact Nat.le_trans (Nat.le_of_lt hlt) (ih hrest hr)

/-- Every offset from the start of the runs to their end is in one of them. -/
theorem Contiguous.exists_mem {start stop i : Nat} {rs : List Run} (h : Contiguous start rs stop) (hstart : start ≤ i)
    (hstop : i < stop) : ∃ r ∈ rs, r.start ≤ i ∧ i < r.stop := by
  induction rs generalizing start with
  | nil =>
    have hempty : start = stop := h
    omega
  | cons r rs ih =>
    obtain ⟨hs, -, hrest⟩ := h
    by_cases hi : i < r.stop
    · exact ⟨r, by simp, by omega, hi⟩
    · obtain ⟨r', hr', hin⟩ := ih hrest (by omega)
      exact ⟨r', by simp [hr'], hin⟩

/-- A run is found at each of its offsets. -/
theorem Paragraph.Partitions.runAt_of_mem {p : Paragraph} {s : List Char} (h : p.Partitions s) {r : Run}
    (hr : r ∈ p.runs) {i : Nat} (hstart : r.start ≤ i) (hstop : i < r.stop) : p.runAt i = some r := by
  obtain ⟨before, after, hp⟩ := List.append_of_mem hr
  obtain ⟨mid, hbefore, hmid, hlt, hafter⟩ := (hp ▸ h.contiguous).split
  have hle := hafter.le
  have hin : ¬ ((i : Int) < 0 ∨ (p.text.length : Int) ≤ i) := by
    rw [h.text_eq]
    omega
  -- The runs that begin no later than the offset are those before `r` and `r` itself.
  have hwhile : p.runs.takeWhile (fun x => (x.start : Int) ≤ i) = before ++ [r] := by
    rw [hp, List.takeWhile_append_of_pos (fun x hx => by have := hbefore.start_lt hx; simp; omega)]
    rw [List.takeWhile_cons_of_pos (by simp; omega)]
    cases after with
    | nil => rfl
    | cons r' after =>
      obtain ⟨hstart', -, -⟩ := hafter
      rw [List.takeWhile_cons_of_neg (by simp; omega)]
  rw [Paragraph.runAt, if_neg hin, hwhile]
  simp

/-- A run is found at its own start. -/
theorem Paragraph.Partitions.runAt_start {p : Paragraph} {s : List Char} (h : p.Partitions s) {before after : List Run}
    {r : Run} (hp : p.runs = before ++ r :: after) : p.runAt r.start = some r := by
  obtain ⟨mid, -, hstart, hlt, -⟩ := (hp ▸ h.contiguous).split
  exact h.runAt_of_mem (by simp [hp]) (Nat.le_refl _) (by omega)

/-- Outside the text there is no run. -/
theorem Paragraph.Partitions.runAt_eq_none {p : Paragraph} {s : List Char} (h : p.Partitions s) (i : Int) :
    p.runAt i = none ↔ i < 0 ∨ (s.length : Int) ≤ i := by
  constructor
  · intro hnone
    rcases Classical.em (i < 0 ∨ (s.length : Int) ≤ i) with hout | hin
    · exact hout
    · obtain ⟨n, rfl⟩ := Int.eq_ofNat_of_zero_le (by omega : 0 ≤ i)
      obtain ⟨r, hr, hstart, hstop⟩ := h.contiguous.exists_mem (Nat.zero_le n) (by omega)
      rw [h.runAt_of_mem hr hstart hstop] at hnone
      cases hnone
  · intro hout
    rw [Paragraph.runAt, h.text_eq, if_pos hout]

/-- The run at an offset is the one that the offset is in. -/
theorem Paragraph.Partitions.runAt_eq_some {p : Paragraph} {s : List Char} (h : p.Partitions s) {i : Nat} {r : Run} :
    p.runAt i = some r ↔ r ∈ p.runs ∧ r.start ≤ i ∧ i < r.stop := by
  constructor
  · intro hsome
    have hin : ¬ ((i : Int) < 0 ∨ (s.length : Int) ≤ i) := by
      rw [← h.runAt_eq_none, hsome]
      nofun
    obtain ⟨r', hr', hstart, hstop⟩ := h.contiguous.exists_mem (Nat.zero_le i) (by omega)
    obtain rfl := Option.some.inj (hsome.symm.trans (h.runAt_of_mem hr' hstart hstop))
    exact ⟨hr', hstart, hstop⟩
  · rintro ⟨hr, hstart, hstop⟩
    exact h.runAt_of_mem hr hstart hstop

/-! ### The analysis -/

theorem contiguous_runsFrom (start : Nat) (ls : List Nat) :
    Contiguous start (runsFrom start ls) (start + ls.length) := by
  induction ls generalizing start with
  | nil => exact rfl
  | cons level rest ih =>
    have ih := ih (start + 1)
    have hlen : start + (level :: rest).length = start + 1 + rest.length := by simp; omega
    rw [hlen]
    simp only [runsFrom]
    cases hr : runsFrom (start + 1) rest with
    | nil =>
      rw [hr] at ih
      exact ⟨rfl, Nat.lt_succ_self start, ih⟩
    | cons r rs =>
      obtain ⟨hs, hlt, hrest⟩ := hr ▸ ih
      dsimp only
      split
      · exact ⟨rfl, Nat.lt_trans (Nat.lt_succ_self start) hlt, hrest⟩
      · exact ⟨rfl, Nat.lt_succ_self start, hs, hlt, hrest⟩

theorem length_spreadLevels (previous : Nat) (s : List Char) (us : List LevelUnit) :
    (spreadLevels previous s us).length = s.length := by
  induction s generalizing previous us with
  | nil => rfl
  | cons c s ih =>
    cases us with
    | nil => simp [spreadLevels, ih]
    | cons u us =>
      simp only [spreadLevels]
      split <;> simp [ih]

theorem length_levels {s : List Char} {base : Nat} {ls : List Nat} (h : levels s base = .ok ls) :
    ls.length = s.length := by
  unfold levels at h
  split at h
  · cases h
    exact length_spreadLevels _ _ _
  · cases h

theorem length_isolatesAsEmbeddings (s : List Char) : (isolatesAsEmbeddings s).length = s.length := by
  induction s with
  | nil => rfl
  | cons c s ih => simp [isolatesAsEmbeddings, ih]

/-- An analysis that succeeds cuts its text into contiguous runs. -/
theorem paragraph_partitions {s : List Char} {base : Direction} {p : Paragraph} (h : paragraph s base = .ok p) :
    p.Partitions s := by
  unfold paragraph at h
  by_cases hs : s.isEmpty
  · simp only [hs, if_true] at h
    cases h
    exact ⟨rfl, by simp [List.isEmpty_iff.1 hs, Contiguous]⟩
  · simp only [hs] at h
    cases hl : levels (isolatesAsEmbeddings s) (paragraphLevel s base) with
    | error c =>
      rw [hl] at h
      cases h
    | ok ls =>
      rw [hl] at h
      cases h
      have hlen : ls.length = s.length := (length_levels hl).trans (length_isolatesAsEmbeddings s)
      exact ⟨rfl, by simpa [buildRuns, hlen] using contiguous_runsFrom 0 ls⟩

end WikiTypeset.Bidi
