import WikiTypeset.Proofs.Article.Skeleton

/-!
# Arguments are closed where they are opened

An argument is closed by a mark of its own, inside the same formatting as the mark that opens it. `matchAll` goes through
items with the arguments that are open. Main statements: `Layout.matched`, by which the arguments of a layout match, and
`exists_closing`, by which a row that comes back to the arguments open before one of them closes that one.
-/

namespace WikiTypeset.Article

open Latex

/-! ### Open arguments -/

/-- What closes an argument; the short form of a heading is closed where the heading itself is opened. -/
def Argument.ending : Argument → String
  | short => "]\x7b"
  | long | box => "\x7d"
  | label => "]"

/-- Whether an argument stands in brackets. -/
def Argument.isBracketed : Argument → Bool
  | short | label => true
  | long | box => false

/-- An argument that is open, with the formatting around its opening. -/
abbrev Opened := Argument × List Wrapper

/-- The open arguments, the innermost first, after a mark inside some formatting. -/
def Mark.matched? (inside : List Wrapper) : Mark → List Opened → Option (List Opened)
  | opens a, outer => some ((a, inside) :: outer)
  | turns, (.short, w) :: outer => if w = inside then some ((.long, inside) :: outer) else none
  | closesBrace, (.long, w) :: outer => if w = inside then some outer else none
  | closesBrace, (.box, w) :: outer => if w = inside then some outer else none
  | closesBracket, (.label, w) :: outer => if w = inside then some outer else none
  | _, _ => none

/-- How a mark inside some formatting changes the open arguments. -/
inductive Mark.Moves (inside : List Wrapper) : Mark → List Opened → List Opened → Prop
  | opens (a : Argument) (outer : List Opened) : Moves inside (.opens a) outer ((a, inside) :: outer)
  | turns (outer : List Opened) : Moves inside .turns ((.short, inside) :: outer) ((.long, inside) :: outer)
  | long (outer : List Opened) : Moves inside .closesBrace ((.long, inside) :: outer) outer
  | box (outer : List Opened) : Moves inside .closesBrace ((.box, inside) :: outer) outer
  | label (outer : List Opened) : Moves inside .closesBracket ((.label, inside) :: outer) outer

theorem Mark.moves_of_matched {m : Mark} {inside : List Wrapper} {stack stack' : List Opened}
    (h : m.matched? inside stack = some stack') : m.Moves inside stack stack' := by
  cases m with
  | opens a =>
    cases h
    exact .opens a stack
  | _ =>
    obtain _ | ⟨⟨a, w⟩, outer⟩ := stack
    · cases h
    · cases a <;> simp only [matched?, reduceCtorEq, Option.ite_none_right_eq_some, Option.some.injEq] at h
      all_goals
        obtain ⟨rfl, rfl⟩ := h
        constructor

/-- The open arguments after an item. -/
def matched? (stack : List Opened) (q : Placed) : Option (List Opened) :=
  match q.item with
  | .fragment value =>
    match mark? value with
    | some m => m.matched? q.inside stack
    | none => some stack
  | _ => some stack

/-- The open arguments after some items. -/
abbrev matchAll : List Opened → List Placed → Option (List Opened) := List.foldlM matched?

variable {stack stack' : List Opened} {qs qs' : List Placed}

theorem matchAll_append (stack : List Opened) (qs qs' : List Placed) :
    matchAll stack (qs ++ qs') = (matchAll stack qs).bind fun mid => matchAll mid qs' := List.foldlM_append

theorem matchAll_append_of {mid : List Opened} (h : matchAll stack qs = some mid) (h' : matchAll mid qs' = some stack') :
    matchAll stack (qs ++ qs') = some stack' := by
  rw [matchAll_append, h]
  exact h'

theorem matchAll_cons (stack : List Opened) (q : Placed) (qs : List Placed) :
    matchAll stack (q :: qs) = (matched? stack q).bind fun mid => matchAll mid qs := List.foldlM_cons

/-- Only structural commands matter. -/
theorem matchAll_filter (stack : List Opened) (qs : List Placed) :
    matchAll stack (qs.filter isCommand) = matchAll stack qs := by
  induction qs generalizing stack with
  | nil => rfl
  | cons q qs ih =>
    cases hq : isCommand q with
    | true =>
      rw [List.filter_cons_of_pos hq, matchAll_cons, matchAll_cons]
      congr 1
      funext mid
      exact ih mid
    | false =>
      have hsame : matched? stack q = some stack := by
        obtain ⟨_ | value | _, inside⟩ := q
        · rfl
        · have hmark : mark? value = none := by
            have hstructural : isStructural value = false := hq
            simp only [isStructural, Bool.or_eq_false_iff] at hstructural
            simpa using hstructural.2
          simp [matched?, hmark]
        · cases hq
      rw [List.filter_cons_of_neg (by simp [hq]), matchAll_cons, hsame]
      exact ih stack

/-! ### Layouts -/

theorem matched?_block (stack : List Opened) (value : String) (inside : List Wrapper) :
    matched? stack ⟨.block value, inside⟩ = some stack := rfl

theorem matched?_mark {value : String} {m : Mark} (h : mark? value = some m) (stack : List Opened)
    (inside : List Wrapper) : matched? stack ⟨.fragment value, inside⟩ = m.matched? inside stack := by
  simp [matched?, h]

theorem matched?_other {value : String} (h : mark? value = none) (stack : List Opened) (inside : List Wrapper) :
    matched? stack ⟨.fragment value, inside⟩ = some stack := by
  simp [matched?, h]

theorem matched?_itemMark (stack : List Opened) (reference? : Option (Nat × String)) (inside : List Wrapper) :
    matched? stack ⟨.fragment (itemMark reference?), inside⟩ = some stack :=
  matched?_other (mark?_other (itemMark_not_mark reference?)) stack inside

/-- The arguments of a layout match, whatever is open around it. -/
theorem Layout.matched (l : Layout) (stack : List Opened) (inside : List Wrapper) :
    matchAll stack (l.skeleton inside) = some stack := by
  induction l generalizing stack inside with
  | empty | step | fragment => rfl
  | append _ _ ih ih' => exact matchAll_append_of (ih stack inside) (ih' stack inside)
  | wrap _ _ _ ih | languageInline _ _ _ ih | resuming _ ih => exact ih stack _
  | environment env options _ _ _ _ _ ih ih' => simp [skeleton, matched?_block, ih, ih']
  | languageBlock code _ _ _ _ ih => simp [skeleton, matched?_block, ih]
  | item reference? => simp [skeleton, matched?_itemMark]
  | term long content ih =>
    have hlabel := matched?_mark mark?_label
    have hbox := matched?_mark mark?_box
    have hbrace := matched?_mark mark?_brace
    have hbracket := matched?_mark mark?_bracket
    cases long <;> simp [skeleton, ih, hlabel, hbox, hbrace, hbracket, Mark.matched?]
  | heading command hcommand shortLanguage? language? _ _ ih ih' =>
    have hopening := matched?_mark (mark?_short hcommand)
    have hturn := matched?_mark mark?_turn
    have hclosing := matched?_mark mark?_brace
    simp [skeleton, ih, ih', hopening, hturn, hclosing, Mark.matched?]

/-! ### Where an argument is closed -/

theorem mem_argumentMarks {value : String} {m : Mark} (h : mark? value = some m) : value ∈ argumentMarks := by
  by_contra hvalue
  cases (mark?_other hvalue).symm.trans h

/-- The fragment that a mark is, if it closes an argument. -/
def Mark.closing? : Mark → Option String
  | opens _ => none
  | turns => some "]\x7b"
  | closesBrace => some "\x7d"
  | closesBracket => some "]"

theorem eq_of_closing {value text : String} {m : Mark} (h : mark? value = some m) (hm : m.closing? = some text) :
    value = text :=
  (by decide : ∀ value ∈ argumentMarks, ∀ m ∈ mark? value, ∀ text ∈ m.closing?, value = text)
    value (mem_argumentMarks h) m h text hm

/-- A mark closes the innermost argument by its own end, inside the formatting in which it was opened. -/
theorem Mark.closing_of_matched {m : Mark} {inside : List Wrapper} {opened : Opened} {text : String}
    (h : m.matched? inside (opened :: stack) = some stack') (hm : m.closing? = some text) :
    opened.1.ending = text ∧ opened.2 = inside := by
  cases Mark.moves_of_matched h <;> cases hm <;> exact ⟨rfl, rfl⟩

/-- What is open around the innermost argument does not matter. -/
theorem Mark.matched?_append (m : Mark) (inside : List Wrapper) (opened : Opened) (inner outer : List Opened) :
    m.matched? inside (opened :: inner ++ outer) = (m.matched? inside (opened :: inner)).map (· ++ outer) := by
  obtain ⟨a, w⟩ := opened
  cases m <;> cases a <;> simp [matched?]

/-- An item leaves an argument open, or closes it if it is the innermost one. -/
theorem matched?_cases {inner outer : List Opened} {opened : Opened} {q : Placed}
    (h : matched? (inner ++ opened :: outer) q = some stack') :
    (∃ inner', matched? inner q = some inner' ∧ stack' = inner' ++ opened :: outer) ∨
      inner = [] ∧ q = ⟨.fragment opened.1.ending, opened.2⟩ := by
  obtain ⟨item, inside⟩ := q
  cases item with
  | char c | block value =>
    cases h
    exact .inl ⟨inner, rfl, rfl⟩
  | fragment value =>
    cases hmark : mark? value with
    | none =>
      cases (matched?_other hmark _ inside).symm.trans h
      exact .inl ⟨inner, matched?_other hmark inner inside, rfl⟩
    | some m =>
      rw [matched?_mark hmark] at h ⊢
      cases inner with
      | cons first inner =>
        rw [m.matched?_append] at h
        obtain ⟨inner', hinner, rfl⟩ := Option.map_eq_some_iff.1 h
        exact .inl ⟨inner', hinner, rfl⟩
      | nil =>
        cases hclosing : m.closing? with
        | none =>
          cases m <;> cases hclosing
          cases h
          exact .inl ⟨_, rfl, rfl⟩
        | some text =>
          obtain ⟨rfl, hinside⟩ := Mark.closing_of_matched h hclosing
          rw [eq_of_closing hmark hclosing, hinside]
          exact .inr ⟨rfl, rfl⟩

/-- A row that comes back to the arguments open before one of them closes that one by its own end, and all that were
opened in it before. -/
theorem exists_closing {inner outer : List Opened} {opened : Opened}
    (h : matchAll (inner ++ opened :: outer) qs = some stack) (hstack : stack.length ≤ outer.length) :
    ∃ content after, qs = content ++ ⟨.fragment opened.1.ending, opened.2⟩ :: after ∧ matchAll inner content = some [] := by
  induction qs generalizing inner with
  | nil =>
    cases h
    rw [List.length_append, List.length_cons] at hstack
    omega
  | cons q qs ih =>
    rw [matchAll_cons] at h
    obtain ⟨mid, hfirst, hrest⟩ := Option.bind_eq_some_iff.1 h
    rcases matched?_cases hfirst with ⟨inner', hinner, rfl⟩ | ⟨rfl, rfl⟩
    · obtain ⟨content, after, rfl, hcontent⟩ := ih hrest
      refine ⟨q :: content, after, rfl, ?_⟩
      rw [matchAll_cons, hinner]
      exact hcontent
    · exact ⟨[], qs, rfl, rfl⟩

end WikiTypeset.Article
