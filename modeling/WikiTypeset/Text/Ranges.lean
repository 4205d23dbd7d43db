/-!
# Sets of code points as sorted ranges

A set of code points is kept as an ascending list of closed ranges. Membership stops at the first range
that begins beyond the code point.
-/

namespace WikiTypeset.Text

/-- Whether `n` lies in one of the ascending closed ranges. -/
def inRanges : List (Nat × Nat) → Nat → Bool
  | [], _ => false
  | (lo, hi) :: rest, n => if n < lo then false else n ≤ hi || inRanges rest n

/-- A code point found in a list of ranges lies between the ends of one of them. -/
theorem exists_mem_of_inRanges {r : List (Nat × Nat)} {n : Nat} (h : inRanges r n = true) :
    ∃ p ∈ r, p.1 ≤ n ∧ n ≤ p.2 := by
  induction r with
  | nil => simp [inRanges] at h
  | cons p r ih =>
    obtain ⟨lo, hi⟩ := p
    unfold inRanges at h
    split at h
    · simp at h
    · rename_i hlo
      simp only [Bool.or_eq_true, decide_eq_true_eq] at h
      rcases h with h | h
      · exact ⟨(lo, hi), by simp, by omega, h⟩
      · obtain ⟨q, hq, hq'⟩ := ih h
        exact ⟨q, by simp [hq], hq'⟩

end WikiTypeset.Text
