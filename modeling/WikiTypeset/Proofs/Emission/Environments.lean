import WikiTypeset.Proofs.Emission.Bearings
import WikiTypeset.Proofs.Emission.Ledger
import WikiTypeset.Proofs.Emission.WellNested

/-!
# Environments in the output

`marksIn` lists the fragments and blocks that a program places, each with the formatting around it; they are all that the
ledger of the program places besides characters (`marks_keepAll`). The blocks of an output are the starts and ends of its
environments: `blocksIn` lists those that a program places, and `blocks_flushed` finds just them in what a well-nested
program has written once it is flushed. `Balanced` says of such a row that every environment is ended by name, the
innermost first.

A change of the ambient direction lasts to the end of the environment that it is made in. The output is replayed with
the directions before the open environments; found on the way are the changes made outside all of them, which outlast
the output: nothing but the last of these counts after it (`base_scopePieces`), and a replay of balanced environments
ends outside all environments (`Balanced.scopePieces`).
-/

namespace WikiTypeset.Latex

/-! ### Fragments and blocks with the formatting around them -/

/-- Whether an item is a fragment or a block. -/
def Placed.isMark (q : Placed) : Bool :=
  match q.item with
  | .char _ => false
  | _ => true

/-- The fragments and blocks among some items. -/
def marksOf (placed : List Placed) : List Placed := placed.filter Placed.isMark

mutual

/-- The fragments and blocks that an operation places, in order. -/
def Operation.marks (inside : List Wrapper) : Operation → List Placed
  | .record d =>
    match d.kind with
    | .raw => [⟨.fragment d.value, inside⟩]
    | .startBlock | .endBlock => [⟨.block d.value, inside⟩]
    | _ => []
  | .wrap command delimiters content => marksIn (inside ++ [⟨command, delimiters⟩]) content
  | .isolated content => marksIn [] content
  | .resuming content => marksIn inside content
  | .beginEnv env options => [⟨.block (beginCommand env options), []⟩]
  | .endEnv env => [⟨.block (endCommand env), []⟩]
  | _ => []

/-- The fragments and blocks that a program places, in order. -/
def marksIn (inside : List Wrapper) : List Operation → List Placed
  | [] => []
  | o :: os => o.marks inside ++ marksIn inside os

end

theorem marksIn_append (inside : List Wrapper) (os os' : List Operation) :
    marksIn inside (os ++ os') = marksIn inside os ++ marksIn inside os' := by
  induction os with
  | nil => rfl
  | cons o os ih => simp [marksIn, ih]

@[simp] theorem marksOf_append (placed placed' : List Placed) :
    marksOf (placed ++ placed') = marksOf placed ++ marksOf placed' := List.filter_append ..

@[simp] theorem marksOf_charsInside (inside : List Wrapper) (s : List Char) : marksOf (charsInside inside s) = [] := by
  simp [marksOf, charsInside, Placed.isMark]

namespace Ledger

variable (l : Ledger)

@[simp] theorem placed_turn : l.turn.placed = l.placed := rfl

@[simp] theorem placed_envBreak : l.envBreak.placed = l.placed := by
  unfold envBreak
  split <;> rfl

@[simp] theorem placed_paragraphBreak : l.paragraphBreak.placed = l.placed := by
  unfold paragraphBreak
  split
  · rfl
  · exact l.placed_envBreak

@[simp] theorem placed_lineBreak : l.lineBreak.placed = l.placed := by
  unfold lineBreak
  split
  · rfl
  · exact l.placed_envBreak

theorem placed_block (value : String) : (l.block value).placed = l.placed ++ [⟨.block value, []⟩] := by
  simp [block, place]

theorem marks_write (text : List Char) (inside : List Wrapper) :
    marksOf (l.write text inside).placed = marksOf l.placed := by
  unfold write
  split
  · split
    · rfl
    · simp [extended, touched]
  · simp [extended]

theorem marks_record (d : Decoration) (inside : List Wrapper) :
    marksOf (l.record d inside).placed = marksOf l.placed ++ (Operation.record d).marks inside := by
  unfold record Operation.marks
  cases hk : d.kind <;> simp [place, touched, marksOf, Placed.isMark]

end Ledger

mutual

theorem marks_keep (inside : List Wrapper) (o : Operation) (l : Ledger) :
    marksOf (o.keep inside l).placed = marksOf l.placed ++ o.marks inside := by
  cases o with
  | write text => simpa [Operation.keep, Operation.marks] using l.marks_write text inside
  | record d => exact l.marks_record d inside
  | wrap command delimiters content => exact marks_keepAll _ content l.touched
  | isolated content => exact marks_keepAll [] content l.turn
  | beginEnv env options =>
    simp [Operation.keep, Operation.marks, Ledger.resetLine, Ledger.placed_block, marksOf, Placed.isMark]
  | endEnv env => simp [Operation.keep, Operation.marks, Ledger.placed_block, marksOf, Placed.isMark]
  | resuming content => exact marks_keepAll inside content l
  | _ => simp [Operation.keep, Operation.marks, Ledger.resetLine]

/-- What the ledger of a program places besides characters. -/
theorem marks_keepAll (inside : List Wrapper) (os : List Operation) (l : Ledger) :
    marksOf (keepAll inside os l).placed = marksOf l.placed ++ marksIn inside os := by
  cases os with
  | nil => simp [keepAll, marksIn]
  | cons o os => rw [keepAll, marks_keepAll inside os _, marks_keep inside o l, marksIn, List.append_assoc]

end

/-! ### Marks of an output -/

/-- The fragment or the block that a piece is. -/
def Piece.item? : Piece → Option Item
  | .fragment value => some (.fragment value)
  | .block value => some (.block value)
  | _ => none

/-- What a piece adds to a reading inside some formatting. -/
def Piece.placed (inside : List Wrapper) : Piece → List Placed
  | .text _ source => charsInside inside source
  | .fragment value => [⟨.fragment value, inside⟩]
  | .block value => [⟨.block value, inside⟩]
  | _ => []

variable {frames frames' : List Frame} {found : List Placed} {q : Placed}

theorem Piece.found_of_read {p : Piece} (h : p.read frames = some (found, frames')) :
    found = p.placed (insideOf frames) := by
  cases p with
  | closeInline delimiter =>
    obtain _ | ⟨_ | _, frames⟩ := frames <;> simp only [read, reduceCtorEq, Option.ite_none_right_eq_some] at h
    obtain ⟨-, h⟩ := h
    cases h
    rfl
  | closeRun =>
    obtain _ | ⟨_ | _, frames⟩ := frames <;> cases h
    rfl
  | _ =>
    cases h
    rfl

theorem Piece.mem_read {p : Piece} (h : p.read frames = some (found, frames')) (hq : q.isMark = true) :
    q ∈ found ↔ p.item? = some q.item ∧ insideOf frames = q.inside := by
  rw [Piece.found_of_read h]
  obtain ⟨item, inside⟩ := q
  cases p with
  | text style source => cases item <;> simp_all [placed, charsInside, item?, Placed.isMark]
  | fragment value | block value => cases item <;> simp_all [placed, item?, Placed.isMark, eq_comm]
  | _ => simp [placed, item?]

theorem Piece.placed_of_item {p : Piece} {i : Item} (h : p.item? = some i) (inside : List Wrapper) :
    p.placed inside = [⟨i, inside⟩] := by
  cases p <;> cases h <;> rfl

/-- A fragment or a block that is found stands where the formatting around it is open. -/
theorem readPieces_split {ps : List Piece} {first rest : List Placed} (hq : q.isMark = true)
    (h : readPieces frames ps = some (first ++ q :: rest, frames')) :
    ∃ before p after mid, ps = before ++ p :: after ∧ readPieces frames before = some (first, mid) ∧
      p.item? = some q.item ∧ insideOf mid = q.inside := by
  obtain ⟨before, p, after, earlier, mid, here, later, next, rfl, hbefore, hread, rfl⟩ := gather_split h
  have hmem : q ∈ here ++ q :: later := by simp
  obtain ⟨hitem, hinside⟩ := (Piece.mem_read hread hq).1 hmem
  have hone := (Piece.found_of_read hread).trans (Piece.placed_of_item hitem _)
  obtain rfl : here = [] := by
    cases here with
    | nil => rfl
    | cons _ here => simp at hone
  rw [List.append_nil]
  exact ⟨before, p, after, mid, rfl, hbefore, hitem, hinside⟩

/-- A fragment or a block is found where it stands, with the formatting that is open there. -/
theorem mem_readPieces {ps : List Piece} (h : readPieces frames ps = some (found, frames')) (hq : q.isMark = true) :
    q ∈ found ↔ ∃ before p after first mid, ps = before ++ p :: after ∧ readPieces frames before = some (first, mid) ∧
      p.item? = some q.item ∧ insideOf mid = q.inside := by
  constructor
  · intro hfound
    obtain ⟨first, rest, rfl⟩ := List.append_of_mem hfound
    obtain ⟨before, p, after, mid, hps, hbefore, hitem, hinside⟩ := readPieces_split hq h
    exact ⟨before, p, after, first, mid, hps, hbefore, hitem, hinside⟩
  · rintro ⟨before, p, after, first, mid, rfl, hbefore, hitem, hinside⟩
    obtain ⟨first', mid', rest, hbefore', hrest, rfl⟩ := gather_append_inv h
    cases hbefore.symm.trans hbefore'
    obtain ⟨here, next, more, hread, -, rfl⟩ := gather_cons_inv hrest
    have hhere := (Piece.mem_read hread hq).2 ⟨hitem, hinside⟩
    exact List.mem_append_right _ (List.mem_append_left _ hhere)

/-- The fragments and blocks of what a well-nested program has written once it is flushed. -/
theorem marks_flushed {direction : NamedDirection} {program : List Operation} :
    marksOf (keepAll [] (program ++ [.flush]) (Ledger.start direction)).placed = marksIn [] program := by
  rw [marks_keepAll, marksIn_append]
  simp [marksIn, Operation.marks, Ledger.start, marksOf]

/-! ### Environments of a program -/

/-- A row of blocks in which each end ends the innermost open environment, which has its name. -/
inductive Balanced : List String → Prop
  | nil : Balanced []
  | append {bs bs' : List String} (h : Balanced bs) (h' : Balanced bs') : Balanced (bs ++ bs')
  | environment (env options : String) {bs : List String} (h : Balanced bs) :
    Balanced (beginCommand env options :: bs ++ [endCommand env])

mutual

/-- The blocks that an operation places, in order. -/
def Operation.blocks : Operation → List String
  | .record d => if d.kind = .startBlock ∨ d.kind = .endBlock then [d.value] else []
  | .wrap _ _ content | .isolated content | .resuming content => blocksIn content
  | .beginEnv env options => [beginCommand env options]
  | .endEnv env => [endCommand env]
  | _ => []

/-- The blocks that a program places, in order. -/
def blocksIn : List Operation → List String
  | [] => []
  | o :: os => o.blocks ++ blocksIn os

end

theorem blocksIn_append (os os' : List Operation) : blocksIn (os ++ os') = blocksIn os ++ blocksIn os' := by
  induction os with
  | nil => rfl
  | cons o os ih => simp [blocksIn, ih]

/-! ### Blocks among what is placed -/

/-- The blocks among some items. -/
def blocksOf (placed : List Placed) : List String :=
  placed.filterMap fun q => match q.item with
    | .block value => some value
    | _ => none

@[simp] theorem blocksOf_append (placed placed' : List Placed) :
    blocksOf (placed ++ placed') = blocksOf placed ++ blocksOf placed' := List.filterMap_append

@[simp] theorem blocksOf_charsInside (inside : List Wrapper) (s : List Char) : blocksOf (charsInside inside s) = [] := by
  simp [blocksOf, charsInside]

theorem blocksOf_marksOf (placed : List Placed) : blocksOf (marksOf placed) = blocksOf placed := by
  unfold blocksOf marksOf
  rw [List.filterMap_filter]
  congr 1
  funext q
  rcases q with ⟨_ | _ | _, _⟩ <;> rfl

mutual

theorem Operation.blocks_marks (inside : List Wrapper) (o : Operation) : blocksOf (o.marks inside) = o.blocks := by
  cases o with
  | record d => unfold Operation.marks Operation.blocks; cases d.kind <;> rfl
  | wrap command delimiters content => exact blocks_marksIn _ content
  | isolated content => exact blocks_marksIn [] content
  | resuming content => exact blocks_marksIn inside content
  | _ => rfl

theorem blocks_marksIn (inside : List Wrapper) (os : List Operation) : blocksOf (marksIn inside os) = blocksIn os := by
  cases os with
  | nil => rfl
  | cons o os => rw [marksIn, blocksOf_append, o.blocks_marks inside, blocks_marksIn inside os, blocksIn]

end

theorem blocks_keepAll (inside : List Wrapper) (os : List Operation) (l : Ledger) :
    blocksOf (keepAll inside os l).placed = blocksOf l.placed ++ blocksIn os := by
  rw [← blocksOf_marksOf, marks_keepAll, blocksOf_append, blocksOf_marksOf, blocks_marksIn]

/-! ### Blocks in the output -/

/-- The block that a piece is. -/
def Piece.block? : Piece → Option String
  | .block value => some value
  | _ => none

theorem Piece.blocks_read {p : Piece} {frames frames' : List Frame} {found : List Placed}
    (h : p.read frames = some (found, frames')) : blocksOf found = p.block?.toList := by
  cases p with
  | closeInline delimiter =>
    obtain _ | ⟨_ | _, frames⟩ := frames <;> simp only [Piece.read, reduceCtorEq, Option.ite_none_right_eq_some] at h
    cases h.2
    rfl
  | closeRun =>
    obtain _ | ⟨_ | _, frames⟩ := frames <;> simp only [Piece.read, reduceCtorEq] at h
    cases h
    rfl
  | text style source =>
    cases h
    exact blocksOf_charsInside _ source
  | _ =>
    cases h
    rfl

/-- The blocks that are read are those of the pieces. -/
theorem blocks_read {ps : List Piece} {frames frames' : List Frame} {found : List Placed}
    (h : readPieces frames ps = some (found, frames')) : blocksOf found = ps.filterMap Piece.block? := by
  induction ps generalizing frames found with
  | nil =>
    cases h
    rfl
  | cons p ps ih =>
    obtain ⟨first, middle, rest, hfirst, hrest, rfl⟩ := gather_cons_inv h
    rw [blocksOf_append, Piece.blocks_read hfirst, ih hrest, List.filterMap_cons]
    cases p.block? <;> rfl

/-- What a well-nested program has written holds the blocks of the program once it is flushed. -/
theorem blocks_flushed {direction : NamedDirection} {e : Emitter} {program : List Operation}
    (h : readPieces [] e.output =
      some ((keepAll [] (program ++ [.flush]) (Ledger.start direction)).placed, [])) :
    e.output.filterMap Piece.block? = blocksIn program := by
  rw [← blocks_read h, blocks_keepAll, blocksIn_append]
  simp [blocksIn, Operation.blocks, Ledger.start, blocksOf]

/-! ### What an output leaves behind -/

/-- The ambient direction at a place of the output, and those before the open environments, the innermost first. -/
structure Scope where
  current : NamedDirection
  outer : List NamedDirection := []
  deriving DecidableEq, Repr

/-- The direction outside all environments. -/
def Scope.base (a : Scope) : NamedDirection := a.outer.getLast?.getD a.current

/-- A change of direction is found outside environments. The end of an environment brings back the direction before
it. -/
def Piece.scope (a : Scope) : Piece → Option (List Direction × Scope)
  | .setDirection d => some (if a.outer.isEmpty then [d] else [], { a with current := d })
  | .block value =>
    match begunEnvironment? value with
    | some _ => some ([], { a with outer := a.current :: a.outer })
    | none =>
      match a.outer with
      | before :: outer => some ([], ⟨before, outer⟩)
      | [] => none
  | _ => some ([], a)

/-- The changes of direction outside environments. -/
abbrev scopePieces : Scope → List Piece → Option (List Direction × Scope) := gather Piece.scope

theorem Piece.base_scope {p : Piece} {a a' : Scope} {ds : List Direction} (h : p.scope a = some (ds, a')) :
    a'.base = (ds.getLast?.map NamedDirection.known).getD a.base := by
  obtain ⟨current, outer⟩ := a
  cases p with
  | setDirection d =>
    cases h
    cases outer with
    | nil => rfl
    | cons before outer => simp [Scope.base, List.getLast?_cons]
  | block value =>
    rw [Piece.scope] at h
    split at h
    next =>
      cases h
      simp [Scope.base, List.getLast?_cons]
    next =>
      cases outer with
      | nil => cases h
      | cons before outer =>
        cases h
        simp [Scope.base, List.getLast?_cons]
  | _ =>
    cases h
    rfl

/-- After a replay the direction outside environments is that of the last change made there, if there has been one. -/
theorem base_scopePieces {ps : List Piece} {a a' : Scope} {ds : List Direction}
    (h : scopePieces a ps = some (ds, a')) : a'.base = (ds.getLast?.map NamedDirection.known).getD a.base := by
  induction ps generalizing a ds with
  | nil =>
    cases h
    rfl
  | cons p ps ih =>
    obtain ⟨first, mid, more, hfirst, hmore, rfl⟩ := gather_cons_inv h
    rw [ih hmore, Piece.base_scope hfirst, List.getLast?_append]
    cases more.getLast? <;> rfl

/-! ### Balanced environments -/

theorem scope_beginCommand (env options : String) (a : Scope) :
    (Piece.block (beginCommand env options)).scope a = some ([], { a with outer := a.current :: a.outer }) := by
  obtain ⟨begun, hbegun⟩ := Option.isSome_iff_exists.1 (isSome_begunEnvironment?_beginCommand env options)
  rw [Piece.scope, hbegun]

theorem scope_endCommand (env : String) (current before : NamedDirection) (outer : List NamedDirection) :
    (Piece.block (endCommand env)).scope ⟨current, before :: outer⟩ = some ([], ⟨before, outer⟩) := by
  rw [Piece.scope, begunEnvironment?_endCommand]

/-- Without blocks no environment begins or ends. -/
theorem scopePieces_of_no_block {ps : List Piece} (h : ∀ p ∈ ps, p.block? = none) (a : Scope) :
    ∃ ds current, scopePieces a ps = some (ds, { a with current }) := by
  induction ps generalizing a with
  | nil => exact ⟨[], a.current, rfl⟩
  | cons p ps ih =>
    obtain ⟨first, mid, hfirst⟩ : ∃ first mid, p.scope a = some (first, { a with current := mid }) := by
      have hblock : p.block? = none := h p (by simp)
      cases p with
      | block value => cases hblock
      | _ => exact ⟨_, _, rfl⟩
    obtain ⟨more, current, hmore⟩ := ih (fun p hp => h p (by simp [hp])) { a with current := mid }
    exact ⟨first ++ more, current, gather_cons p hfirst hmore⟩

theorem eq_block_of_block? {p : Piece} {value : String} (h : p.block? = some value) : p = .block value := by
  cases p with
  | block v =>
    cases h
    rfl
  | _ => cases h

theorem scopePieces_of_blocks {ps : List Piece} {bs : List String} (hbs : ps.filterMap Piece.block? = bs)
    (h : Balanced bs) (a : Scope) : ∃ ds current, scopePieces a ps = some (ds, { a with current }) := by
  induction h generalizing ps a with
  | nil => exact scopePieces_of_no_block (List.filterMap_eq_nil_iff.1 hbs) a
  | append _ _ ih ih' =>
    obtain ⟨qs, qs', rfl, hqs, hqs'⟩ := List.filterMap_eq_append_iff.1 hbs
    obtain ⟨ds, current, hds⟩ := ih hqs a
    obtain ⟨ds', current', hds'⟩ := ih' hqs' { a with current }
    exact ⟨ds ++ ds', current', gather_append_of hds hds'⟩
  | environment env options _ ih =>
    obtain ⟨qs, rest, rfl, hqs, hrest⟩ := List.filterMap_eq_append_iff.1 hbs
    obtain ⟨before, opening, inside, rfl, hbefore, hbegin, hinside⟩ := List.filterMap_eq_cons_iff.1 hqs
    obtain ⟨between, closing, after, rfl, hbetween, hend, hafter⟩ := List.filterMap_eq_cons_iff.1 hrest
    obtain rfl := eq_block_of_block? hbegin
    obtain rfl := eq_block_of_block? hend
    obtain ⟨_, current, h₁⟩ := scopePieces_of_no_block hbefore a
    have h₂ := scope_beginCommand env options { a with current }
    obtain ⟨_, _, h₃⟩ := ih hinside { current, outer := current :: a.outer }
    obtain ⟨_, last, h₄⟩ := scopePieces_of_no_block hbetween { current := _, outer := current :: a.outer }
    have h₅ := scope_endCommand env last current a.outer
    obtain ⟨_, after, h₆⟩ := scopePieces_of_no_block (List.filterMap_eq_nil_iff.1 hafter) { a with current }
    exact ⟨_, after, gather_append_of (gather_append_of h₁ (gather_cons _ h₂ h₃))
      (gather_append_of h₄ (gather_cons _ h₅ h₆))⟩

/-- Balanced environments leave behind what the last change of direction outside them has set. -/
theorem Balanced.scopePieces {ps : List Piece} (h : Balanced (ps.filterMap Piece.block?)) (before : NamedDirection) :
    ∃ ds, scopePieces ⟨before, []⟩ ps = some (ds, ⟨(ds.getLast?.map NamedDirection.known).getD before, []⟩) := by
  obtain ⟨ds, after, hds⟩ := scopePieces_of_blocks rfl h ⟨before, []⟩
  have hbase : after = (ds.getLast?.map NamedDirection.known).getD before := base_scopePieces hds
  exact ⟨ds, by rw [hds, ← hbase]⟩

end WikiTypeset.Latex
