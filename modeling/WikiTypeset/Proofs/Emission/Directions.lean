import WikiTypeset.Proofs.Emission.Gather
import WikiTypeset.Proofs.Emission.Held
import WikiTypeset.Proofs.Emission.Reading

/-!
# Directions replayed

The output is replayed with an ambient direction and a row of open groups, some of which set a direction of their own.
A sight is a character with the direction in force there, or a change of the ambient direction. Main statement:
`sights_setText`, by which a text shows the directions of its analysis, but for numbers after right-to-left text.
-/

namespace WikiTypeset.Latex

open Bidi Emit

/-! ### The replay -/

/-- The directions at a place of the output: the ambient one, and those that the open groups set, the innermost first. -/
structure Heading where
  ambient : NamedDirection
  groups : List (Option Direction) := []
  deriving DecidableEq, Repr

/-- The direction in force: that of the innermost group that sets one. -/
def Heading.inForce (h : Heading) : NamedDirection :=
  match h.groups.findSome? id with
  | some d => d
  | none => h.ambient

/-- What a replay sees: a character with its direction, or a change of the ambient direction. -/
inductive Sight
  | char (c : Char) (direction : NamedDirection)
  | switch (direction : Direction)
  deriving DecidableEq, Repr

/-- What a piece shows, and the directions after it. -/
def Piece.show (h : Heading) : Piece → Option (List Sight × Heading)
  | .text _ source => some (source.map (.char · h.inForce), h)
  | .openInline _ _ => some ([], { h with groups := none :: h.groups })
  | .openRun d => some ([], { h with groups := some d :: h.groups })
  | .closeInline _ | .closeRun =>
    match h.groups with
    | _ :: groups => some ([], { h with groups })
    | [] => none
  | .setDirection d => some ([.switch d], { h with ambient := d })
  | .fragment _ | .block _ | .assumeDirection _ | .newline | .paragraphEnd | .lineBreak => some ([], h)

/-- What some pieces show. -/
abbrev showPieces : Heading → List Piece → Option (List Sight × Heading) := gather Piece.show

/-! ### What a text is to show -/

/-- The runs in the directions in which they are set where the ambient direction is right to left: a number after
right-to-left text, as `after` says, stays with it. -/
def settle (text : List Char) (after : Bool) : List Run → List Run
  | [] => []
  | r :: rs =>
    if after && isNumeric (slice text r.start r.stop) then { r with direction := .rtl } :: settle text true rs
    else r :: settle text (r.direction = .rtl) rs

/-- The runs in the directions in which they are set. -/
def settledRuns (text : List Char) (contextDir : NamedDirection) (runs : List Run) : List Run :=
  if contextDir = .known .rtl then settle text false runs else runs

/-- The characters of a run in its direction. -/
def runSights (text : List Char) (r : Run) : List Sight :=
  (slice text r.start r.stop).map (.char · (.known r.direction))

/-- The characters of some runs, each in the direction of its run. -/
def sightsOf (text : List Char) (runs : List Run) : List Sight := runs.flatMap (runSights text)

theorem sightsOf_joinRuns (text : List Char) (current : Run) {rs : List Run} {stop : Nat}
    (hle : current.start ≤ current.stop) (h : Contiguous current.stop rs stop) :
    sightsOf text (joinRuns text current rs) =
      runSights text current ++ sightsOf text (settle text (current.direction = .rtl) rs) := by
  induction rs generalizing current with
  | nil => simp [joinRuns, sightsOf, settle]
  | cons r rs ih =>
    obtain ⟨hstart, hlt, hrest⟩ := h
    -- A run that joins lengthens the current span; one that does not begins the next.
    by_cases hj : current.direction = .rtl ∧ joins text r = true
    · have hjoined := ih { current with stop := r.stop } (by simp only; omega) hrest
      have hspan : runSights text { current with stop := r.stop } =
          runSights text current ++ runSights text { r with direction := .rtl } := by
        simp only [runSights, hj.1, ← List.map_append, hstart]
        rw [slice_append_slice text hle (Nat.le_of_lt hlt)]
      have hset : settle text true (r :: rs) = { r with direction := .rtl } :: settle text true rs := by
        by_cases hn : isNumeric (slice text r.start r.stop) = true
        · simp [settle, hn]
        · have hr : r.direction = .rtl := by simpa [joins, hn] using hj.2
          have : r = { r with direction := .rtl } := by rw [← hr]
          simp only [settle, hn, Bool.and_false, Bool.false_eq_true, if_false, hr, decide_true]
          rw [← this]
      rw [joinRuns, if_pos hj, hjoined, hspan]
      simp [hj.1, hset, sightsOf]
    · have hapart := ih r (by omega) hrest
      have hset : settle text (current.direction = .rtl) (r :: rs) = r :: settle text (r.direction = .rtl) rs := by
        by_cases hc : current.direction = .rtl
        · have hn : isNumeric (slice text r.start r.stop) = false := by
            have : ¬ joins text r = true := fun h => hj ⟨hc, h⟩
            simp [joins] at this
            exact this.2
          simp [settle, hn]
        · simp [settle, hc]
      rw [joinRuns, if_neg hj, hset]
      simp only [sightsOf, List.flatMap_cons] at hapart ⊢
      rw [hapart]

/-- Setting spans as one does not change what the characters show, apart from the numbers. -/
theorem sightsOf_setRuns (text : List Char) (contextDir : NamedDirection) {runs : List Run} {start stop : Nat}
    (h : Contiguous start runs stop) :
    sightsOf text (setRuns text contextDir runs) = sightsOf text (settledRuns text contextDir runs) := by
  unfold settledRuns
  by_cases hc : contextDir = .known .rtl
  · cases runs with
    | nil => simp [setRuns, settle]
    | cons r rs =>
      obtain ⟨hstart, hlt, hrest⟩ := h
      simp only [setRuns, hc, if_true]
      rw [sightsOf_joinRuns text r (by omega) hrest]
      simp [settle, sightsOf]
  · cases runs <;> simp [setRuns, hc]

/-! ### What a text shows -/

variable (contextDir : NamedDirection) (groups : List (Option Direction)) {stack stack' : List Decoration}

/-- The directions inside open formatting. -/
def headingIn (contextDir : NamedDirection) (stack : List Decoration) (groups : List (Option Direction)) : Heading :=
  { ambient := contextDir, groups := stack.map (fun _ => none) ++ groups }

/-- Formatting has no direction of its own. -/
@[simp] theorem inForce_headingIn (stack : List Decoration) :
    (headingIn contextDir stack groups).inForce = (Heading.mk contextDir groups).inForce := by
  have hnone : stack.findSome? (fun _ => (none : Option Direction)) = none := by simp
  simp [headingIn, Heading.inForce, List.findSome?_append, List.findSome?_map, Function.comp_def, hnone]

theorem show_openPieces (stack : List Decoration) : showPieces ⟨contextDir, groups⟩ (openPieces stack) =
    some ([], headingIn contextDir stack groups) := by
  induction stack generalizing groups with
  | nil => rfl
  | cons d stack ih =>
    have hopen : openPieces (d :: stack) = openPieces stack ++ [.openInline d.value d.delimiters] := by
      simp [openPieces]
    rw [hopen]
    exact gather_append_of (ih groups) rfl

theorem show_closePieces (stack : List Decoration) :
    showPieces (headingIn contextDir stack groups) (closePieces stack) = some ([], ⟨contextDir, groups⟩) := by
  induction stack with
  | nil => rfl
  | cons d stack ih =>
    have hclose : Piece.show (headingIn contextDir (d :: stack) groups) (.closeInline d.delimiters.closing) =
        some ([], headingIn contextDir stack groups) := rfl
    exact gather_cons _ hclose ih

theorem show_textPieces (h : Heading) (style : TextStyle) (s : List Char) :
    showPieces h (textPieces style s) = some (s.map (.char · h.inForce), h) := by
  cases s with
  | nil => rfl
  | cons c s => exact gather_singleton _

/-- A decoration shows nothing, and follows the open formatting. -/
theorem show_decoration {d : Decoration} (h : d.after? stack = some stack') :
    showPieces (headingIn contextDir stack groups) d.pieces = some ([], headingIn contextDir stack' groups) := by
  unfold Decoration.after? at h
  unfold Decoration.pieces
  cases hk : d.kind <;> simp only [hk, reduceCtorEq, Option.some.injEq] at h ⊢
  case endInline =>
    cases stack with
    | nil => cases h
    | cons innermost rest =>
      by_cases hv : innermost.value = d.value
      · simp only [hv, if_true, Option.some.injEq] at h
        rw [← h]
        rfl
      · simp [hv] at h
  all_goals
    rw [← h]
    rfl

/-- A woven stretch of text shows its characters in the direction around it. -/
theorem show_weave (style : TextStyle) (text : List Char) {pos stop : Nat} {ds : List Decoration}
    (hds : Ordered pos ds stop) (h : nest stack ds = some stack') :
    showPieces (headingIn contextDir stack groups)
      (weave style text pos ds ++ textPieces style (slice text (offsetAfter pos ds) stop)) =
        some ((slice text pos stop).map (.char · (Heading.mk contextDir groups).inForce),
          headingIn contextDir stack' groups) := by
  induction ds generalizing stack pos with
  | nil =>
    cases h
    rw [weave, List.nil_append, offsetAfter, show_textPieces, inForce_headingIn]
  | cons d ds ih =>
    obtain ⟨s₁, hd, hrest⟩ := Option.bind_eq_some_iff.1 h
    have htext := show_textPieces (headingIn contextDir stack groups) style (slice text pos d.pos)
    rw [inForce_headingIn] at htext
    rw [weave, offsetAfter, List.append_assoc, List.append_assoc, ← slice_append_slice text hds.1 hds.2.le,
      List.map_append]
    exact gather_append_of htext (gather_append_of (show_decoration contextDir groups hd) (ih hds.2 hrest))

/-- A span shows its characters in its direction. -/
theorem show_spanPieces (style : TextStyle) (text : List Char) {r : Run} {here : List Decoration}
    (hds : Ordered r.start here r.stop) (h : nest stack here = some stack') :
    showPieces ⟨contextDir, []⟩ (spanPieces style text contextDir r stack stack' here) =
      some (runSights text r, ⟨contextDir, []⟩) := by
  have hspan : ∀ groups, showPieces ⟨contextDir, groups⟩ (openPieces stack ++
      (weave style text r.start here ++ textPieces style (slice text (offsetAfter r.start here) r.stop)) ++
      closePieces stack') =
        some ((slice text r.start r.stop).map (.char · (Heading.mk contextDir groups).inForce), ⟨contextDir, groups⟩) := by
    intro groups
    have hopen := gather_append_of (show_openPieces contextDir groups stack)
      (show_weave contextDir groups style text hds h)
    simpa using gather_append_of hopen (show_closePieces contextDir groups stack')
  unfold spanPieces enterPieces exitPieces runSights
  by_cases hd : NamedDirection.known r.direction = contextDir
  · have hambient := hspan []
    simpa [hd, Heading.inForce] using hambient
  · have hwrapped : showPieces ⟨contextDir, []⟩ ([.openRun r.direction] ++ _ ++ [.closeRun]) = some ([] ++ _ ++ [], _) :=
      gather_append_of (gather_append_of rfl (hspan [some r.direction])) rfl
    simpa [hd, Heading.inForce] using hwrapped

/-- Decorations without text show nothing. -/
theorem show_marks {ds : List Decoration} (h : nest stack ds = some stack') :
    showPieces (headingIn contextDir stack groups) (ds.flatMap Decoration.pieces) =
      some ([], headingIn contextDir stack' groups) := by
  induction ds generalizing stack with
  | nil =>
    cases h
    rfl
  | cons d ds ih =>
    obtain ⟨s₁, hd, hrest⟩ := Option.bind_eq_some_iff.1 h
    exact gather_append_of (show_decoration contextDir groups hd) (ih hrest)

theorem show_trailPieces {left : List Decoration} (h : nest stack left = some stack') :
    showPieces ⟨contextDir, []⟩ (trailPieces stack stack' left) = some ([], ⟨contextDir, []⟩) := by
  cases left with
  | nil => rfl
  | cons d left =>
    have hopen := gather_append_of (show_openPieces contextDir [] stack) (show_marks contextDir [] h)
    simpa [trailPieces] using gather_append_of hopen (show_closePieces contextDir [] stack')

theorem show_layRuns (style : TextStyle) {text : List Char} {rs : List Run} {start : Nat} {ds left : List Decoration}
    {ps : List Piece} (hrs : Contiguous start rs text.length) (hds : Ordered start ds text.length)
    (h : layRuns style text contextDir rs stack ds = some (ps, stack', left)) :
    showPieces ⟨contextDir, []⟩ ps = some (sightsOf text rs, ⟨contextDir, []⟩) := by
  induction rs generalizing start stack ds ps with
  | nil =>
    simp only [layRuns, Option.some.injEq, Prod.mk.injEq] at h
    rw [← h.1]
    rfl
  | cons r rs ih =>
    obtain ⟨rfl, hlt, hrest⟩ := hrs
    obtain ⟨hhere, hleft⟩ := hds.split (Nat.le_of_lt hlt) hrest.le
    simp only [layRuns, Option.bind_eq_bind] at h
    obtain ⟨mid, hmid, h⟩ := Option.bind_eq_some_iff.1 h
    obtain ⟨⟨ps', stack'', left'⟩, hlay, h⟩ := Option.bind_eq_some_iff.1 h
    simp only [Option.pure_def, Option.some.injEq, Prod.mk.injEq] at h
    obtain ⟨rfl, rfl, rfl⟩ := h
    exact gather_append_of (show_spanPieces contextDir style text hhere hmid) (ih hrest hleft hlay)

/-- A text shows its characters in the directions of its settled runs. -/
theorem show_setText (style : TextStyle) {text : List Char} {runs : List Run} {ds : List Decoration} {ps : List Piece}
    (hruns : Contiguous 0 runs text.length) (hds : Ordered 0 ds text.length)
    (h : setText style text contextDir runs stack ds = some (ps, stack')) :
    showPieces ⟨contextDir, []⟩ ps = some (sightsOf text (settledRuns text contextDir runs), ⟨contextDir, []⟩) := by
  simp only [setText, Option.bind_eq_bind] at h
  obtain ⟨⟨ps', mid, left⟩, hlay, h⟩ := Option.bind_eq_some_iff.1 h
  obtain ⟨stack'', hnest, h⟩ := Option.bind_eq_some_iff.1 h
  simp only [Option.pure_def, Option.some.injEq, Prod.mk.injEq] at h
  obtain ⟨rfl, rfl⟩ := h
  have hshow := show_layRuns contextDir style (contiguous_setRuns text contextDir hruns) hds hlay
  rw [sightsOf_setRuns text contextDir hruns] at hshow
  simpa using gather_append_of hshow (show_trailPieces contextDir hnest)

end WikiTypeset.Latex
