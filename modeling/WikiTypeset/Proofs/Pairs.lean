/-!
# Words of brackets

In a paired word every bracket has its partner, and pairs only stand in or beside each other. A reader of the word keeps
the open brackets on a stack and closes the innermost one only. Main statement: `paired_iff`, by which the paired words are
those after which such a reader has nothing open.
-/

namespace WikiTypeset

/-- What an element of a word is: a bracket with a name, or nothing of the kind. -/
inductive Bracket (β : Type)
  | opening (b : β)
  | closing (b : β)
  | neither
  deriving DecidableEq

variable {α β : Type} {kind : α → Bracket β}

/-- Every bracket of the word has its partner, of the same name. -/
inductive Paired (kind : α → Bracket β) : List α → Prop
  | nil : Paired kind []
  | neither {a : α} {s : List α} (ha : kind a = .neither) (hs : Paired kind s) : Paired kind (a :: s)
  | pair {a c : α} {b : β} {inside rest : List α} (ha : kind a = .opening b) (hc : kind c = .closing b)
    (hinside : Paired kind inside) (hrest : Paired kind rest) : Paired kind (a :: (inside ++ c :: rest))

theorem Paired.append {s t : List α} (hs : Paired kind s) (ht : Paired kind t) : Paired kind (s ++ t) := by
  induction hs with
  | nil => exact ht
  | neither ha _ ih => exact .neither ha ih
  | pair ha hc hinside _ _ ih =>
    rw [List.cons_append, List.append_assoc, List.cons_append]
    exact .pair ha hc hinside ih

/-- A pair of brackets behind a paired word, with a paired word in it. -/
theorem Paired.concat {s inside : List α} {a c : α} {b : β} (hs : Paired kind s) (ha : kind a = .opening b)
    (hc : kind c = .closing b) (hinside : Paired kind inside) : Paired kind (s ++ a :: (inside ++ [c])) :=
  hs.append (.pair ha hc hinside .nil)

variable [DecidableEq β]

/-- The brackets that are open after a word, the innermost first, if those in `bs` were open before it. There are none
after a word that closes another bracket than the innermost open one. -/
def openAfter (kind : α → Bracket β) (bs : List β) : List α → Option (List β)
  | [] => some bs
  | a :: s =>
    match kind a with
    | .opening b => openAfter kind (b :: bs) s
    | .closing b => if bs.head? = some b then openAfter kind bs.tail s else none
    | .neither => openAfter kind bs s

theorem openAfter_opening {a : α} {b : β} (ha : kind a = .opening b) (bs : List β) (s : List α) :
    openAfter kind bs (a :: s) = openAfter kind (b :: bs) s := by
  rw [openAfter, ha]

theorem openAfter_closing {a : α} {b : β} (ha : kind a = .closing b) (bs : List β) (s : List α) :
    openAfter kind bs (a :: s) = if bs.head? = some b then openAfter kind bs.tail s else none := by
  rw [openAfter, ha]

theorem openAfter_neither {a : α} (ha : kind a = .neither) (bs : List β) (s : List α) :
    openAfter kind bs (a :: s) = openAfter kind bs s := by
  rw [openAfter, ha]

theorem openAfter_append (bs : List β) (s t : List α) :
    openAfter kind bs (s ++ t) = (openAfter kind bs s).bind fun bs => openAfter kind bs t := by
  induction s generalizing bs with
  | nil => rfl
  | cons a s ih =>
    rw [List.cons_append]
    cases ha : kind a with
    | opening b => rw [openAfter_opening ha, openAfter_opening ha, ih]
    | neither => rw [openAfter_neither ha, openAfter_neither ha, ih]
    | closing b =>
      rw [openAfter_closing ha, openAfter_closing ha]
      by_cases hb : bs.head? = some b
      · rw [if_pos hb, if_pos hb, ih]
      · rw [if_neg hb, if_neg hb]
        rfl

theorem Paired.openAfter_eq {s : List α} (h : Paired kind s) (bs : List β) : openAfter kind bs s = some bs := by
  induction h generalizing bs with
  | nil => rfl
  | neither ha _ ih => rw [openAfter_neither ha, ih]
  | @pair a c b inside rest ha hc _ _ ih ih' =>
    have hclosed : (b :: bs).head? = some b := rfl
    rw [openAfter_opening ha, openAfter_append, ih, Option.bind_some, openAfter_closing hc, if_pos hclosed]
    exact ih' bs

/-- A bracket that is not open at the end is closed, and what stands before its partner is paired. -/
theorem exists_closing {b : β} {bs bs' : List β} {s : List α} (h : openAfter kind (b :: bs) s = some bs')
    (hle : bs'.length ≤ bs.length) : ∃ inside c rest, s = inside ++ c :: rest ∧ kind c = .closing b ∧
      Paired kind inside ∧ openAfter kind bs rest = some bs' := by
  induction hn : s.length using Nat.strongRecOn generalizing b bs s with
  | ind n ih =>
    cases s with
    | nil =>
      obtain rfl := Option.some.inj h
      rw [List.length_cons] at hle
      omega
    | cons a s =>
      rw [List.length_cons] at hn
      cases ha : kind a with
      | neither =>
        rw [openAfter_neither ha] at h
        obtain ⟨inside, c, rest, rfl, hc, hinside, hrest⟩ := ih s.length (by omega) h hle rfl
        exact ⟨a :: inside, c, rest, rfl, hc, .neither ha hinside, hrest⟩
      | closing b' =>
        rw [openAfter_closing ha] at h
        by_cases hb : (b :: bs).head? = some b'
        · obtain rfl : b = b' := Option.some.inj hb
          rw [if_pos hb] at h
          exact ⟨[], a, s, rfl, ha, .nil, h⟩
        · rw [if_neg hb] at h
          cases h
      | opening b' =>
        rw [openAfter_opening ha] at h
        -- The new bracket is closed first, and the one asked for behind it.
        have hle' : bs'.length ≤ (b :: bs).length := Nat.le_succ_of_le hle
        obtain ⟨inner, c, rest, rfl, hc, hinner, hrest⟩ := ih s.length (by omega) h hle' rfl
        rw [List.length_append, List.length_cons] at hn
        obtain ⟨inside, c', rest', rfl, hc', hinside, hrest'⟩ := ih rest.length (by omega) hrest hle rfl
        refine ⟨a :: (inner ++ c :: inside), c', rest', ?_, hc', .pair ha hc hinner hinside, hrest'⟩
        simp

/-- The paired words are those that leave no bracket open and close none that is not. -/
theorem paired_iff {s : List α} : Paired kind s ↔ openAfter kind [] s = some [] := by
  constructor
  · intro h
    exact h.openAfter_eq []
  · intro h
    induction hn : s.length using Nat.strongRecOn generalizing s with
    | ind n ih =>
      cases s with
      | nil => exact .nil
      | cons a s =>
        rw [List.length_cons] at hn
        cases ha : kind a with
        | neither =>
          rw [openAfter_neither ha] at h
          exact .neither ha (ih s.length (by omega) h rfl)
        | closing b =>
          rw [openAfter_closing ha] at h
          cases h
        | opening b =>
          rw [openAfter_opening ha] at h
          obtain ⟨inside, c, rest, rfl, hc, hinside, hrest⟩ := exists_closing h (Nat.le_refl 0)
          rw [List.length_append, List.length_cons] at hn
          exact .pair ha hc hinside (ih rest.length (by omega) hrest rfl)

instance (s : List α) : Decidable (Paired kind s) := decidable_of_iff _ paired_iff.symm

end WikiTypeset
