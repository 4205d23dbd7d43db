import WikiTypeset.Proofs.Emission.Onset
import WikiTypeset.Proofs.Tex.Opening

/-!
# What commands take as their options

A line break looks behind it for a star or an optional argument, and the start of a language's environment that is
written without options for an optional argument; blanks and ends of lines do not stop them. Going through an output, an
exposure keeps what would be taken next, and whether text has been taken; this decides whether text is ever read as an
option (`takesNoText_iff`), and marks of direction only protect (`safe_of_unmarked`). A text that is held back is seen by
the command in front of it as its first visible token, unless formatting is open around it, which is opened again before
it; the text that is written opens with the same (`shows_setText`).
-/

namespace WikiTypeset.Latex

open Bidi Emit

/-! ### Visible characters -/

/-- The characters of an output, each with whether it comes from text. -/
def charactersOf (ps : List Piece) : List (Char × Bool) := ps.flatMap fun p => p.latex.map (·, p.isText)

/-- The first character of an output that is no blank, and whether it comes from text. -/
def firstVisible? (ps : List Piece) : Option (Char × Bool) := (charactersOf ps).find? fun x => !isSpace x.1

/-- Text is never read as an option: what comes first after a line break is no star and no bracket of a text, and what
comes first after the start of a language's environment without options is no bracket of a text. -/
structure TakesNoText (ps : List Piece) : Prop where
  lineBreak : ∀ before after, ps = before ++ .lineBreak :: after →
    firstVisible? after ≠ some ('*', true) ∧ firstVisible? after ≠ some ('[', true)
  environment : ∀ l ∈ languages, ∀ before after, ps = before ++ .block (beginCommand l.environment "") :: after →
    firstVisible? after ≠ some ('[', true)

/-! ### Exposures -/

/-- The openings that a piece takes for a star or an option. -/
def Piece.takes : Piece → List Opening
  | .lineBreak => [.bracket, .star]
  | .block value => if languages.any fun l => value = beginCommand l.environment "" then [.bracket] else []
  | _ => []

/-- What a piece opens with for a command in front of it, unless it is blank. Only text may open with a bracket or a star
that is read as an option; marks of direction count if they are asked for. -/
def Piece.shows (marked : Bool) : Piece → Option Opening
  | .text _ source => opening? source
  | .openInline _ _ => some .other
  | .setDirection _ | .openRun _ | .closeRun => if marked then some .other else none
  | p => (opening? p.latex).map fun _ => .other

/-- What the last command of an output would take if it came next. -/
structure Exposure where
  /-- No command has taken text. -/
  safe : Bool := true
  taken : List Opening := []
  deriving DecidableEq, Repr

namespace Exposure

/-- The exposure after something visible, if there is anything. -/
def meet (x : Exposure) : Option Opening → Exposure
  | none => x
  | some o => ⟨x.safe && !x.taken.contains o, []⟩

@[simp] theorem meet_none (x : Exposure) : x.meet none = x := rfl

theorem meet_or (x : Exposure) (a b : Option Opening) : x.meet (a.or b) = (x.meet a).meet b := by
  cases a with
  | none => rfl
  | some o => cases b <;> simp [meet]

end Exposure

/-- The exposure after a piece. -/
def Piece.expose (marked : Bool) (x : Exposure) (p : Piece) : Exposure :=
  ⟨(x.meet (p.shows marked)).safe, (x.meet (p.shows marked)).taken ++ p.takes⟩

/-- The exposure after some pieces. -/
def exposed (marked : Bool) (ps : List Piece) : Exposure := ps.foldl (Piece.expose marked) {}

variable {marked : Bool} {x : Exposure} {p : Piece} {ps qs : List Piece}

theorem exposed_append (marked : Bool) (ps qs : List Piece) :
    exposed marked (ps ++ qs) = qs.foldl (Piece.expose marked) (exposed marked ps) := List.foldl_append

theorem Piece.expose_of_takes (hp : p.takes = []) (x : Exposure) : p.expose marked x = x.meet (p.shows marked) := by
  rw [expose, hp, List.append_nil]

theorem findSome?_cons_or {α β : Type} (f : α → Option β) (a : α) (as : List α) :
    (a :: as).findSome? f = (f a).or (as.findSome? f) := by
  cases h : f a <;> simp [h]

/-- Pieces that take nothing come to the first of them that is visible. -/
theorem foldl_expose (hps : ∀ p ∈ ps, p.takes = []) (x : Exposure) :
    ps.foldl (Piece.expose marked) x = x.meet (ps.findSome? (Piece.shows marked)) := by
  induction ps generalizing x with
  | nil => rfl
  | cons p ps ih =>
    obtain ⟨hp, hps⟩ := List.forall_mem_cons.1 hps
    rw [List.foldl_cons, ih hps, p.expose_of_takes hp, findSome?_cons_or, Exposure.meet_or]

theorem forall_split_cons {α : Type} {P : α → List α → Prop} {a : α} {as : List α} :
    (∀ before b after, a :: as = before ++ b :: after → P b after) ↔
      P a as ∧ ∀ before b after, as = before ++ b :: after → P b after := by
  refine ⟨fun h => ⟨h [] a as rfl, fun before b after heq => h (a :: before) b after (by rw [heq]; rfl)⟩, ?_⟩
  rintro ⟨hhead, hrest⟩ (_ | ⟨_, before⟩) b after heq
  · obtain ⟨rfl, rfl⟩ := List.cons.inj heq
    exact hhead
  · obtain ⟨rfl, rfl⟩ := List.cons.inj heq
    exact hrest before b after rfl

/-- No command has taken text just if what comes first after each piece is nothing that the piece takes. -/
theorem safe_foldl_expose (marked : Bool) (ps : List Piece) (x : Exposure) :
    (ps.foldl (Piece.expose marked) x).safe = true ↔ x.safe = true ∧
      (∀ o ∈ ps.findSome? (Piece.shows marked), o ∉ x.taken) ∧
      ∀ before p after, ps = before ++ p :: after → ∀ o ∈ after.findSome? (Piece.shows marked), o ∉ p.takes := by
  induction ps generalizing x with
  | nil => simp
  | cons p ps ih =>
    rw [List.foldl_cons, ih, forall_split_cons, findSome?_cons_or]
    cases hp : p.shows marked with
    | none => simp [Piece.expose, hp, forall_and, and_assoc]
    | some o => simp [Piece.expose, Exposure.meet, hp, and_assoc]

theorem safe_exposed_iff (marked : Bool) (ps : List Piece) : (exposed marked ps).safe = true ↔
    ∀ before p after, ps = before ++ p :: after → ∀ o ∈ after.findSome? (Piece.shows marked), o ∉ p.takes := by
  rw [exposed, safe_foldl_expose]
  simp

theorem Piece.other_not_mem_takes (p : Piece) : Opening.other ∉ p.takes := by
  unfold takes
  split
  · decide
  · split <;> decide
  · exact List.not_mem_nil

/-- Marks of direction stand in front of nothing that would be taken otherwise, and are not taken. -/
theorem findSome?_shows_unmarked {o : Opening} (ho : o ≠ .other)
    (h : ps.findSome? (Piece.shows true) = some o) : ps.findSome? (Piece.shows false) = some o := by
  induction ps with
  | nil => cases h
  | cons p ps ih =>
    rw [findSome?_cons_or] at h ⊢
    have hmark : p.shows false = p.shows true ∨ p.shows true = some .other := by
      cases p <;> first | exact .inl rfl | exact .inr rfl
    cases hp : p.shows true with
    | none =>
      rw [hmark.resolve_right (by rw [hp]; nofun), hp]
      rw [hp] at h
      exact ih h
    | some o' =>
      rw [hp, Option.some_or] at h
      rw [hmark.resolve_right (by rw [hp, h]; simpa using ho), hp]
      exact h

/-- Where no command takes text even if marks of direction are passed over, none takes any. -/
theorem safe_of_unmarked (h : (exposed false ps).safe = true) : (exposed true ps).safe = true := by
  rw [safe_exposed_iff] at h ⊢
  intro before p after heq o ho hmem
  have hother : o ≠ .other := fun hother => p.other_not_mem_takes (hother ▸ hmem)
  exact h before p after heq o (findSome?_shows_unmarked hother ho) hmem

/-! ### Exposures and visible characters -/

/-- What a character is to a command in front of it; only that of text may be read as an option. -/
def visible? (c : Char × Bool) : Option Opening := (charOpening? c.1).map fun o => if c.2 then o else .other

theorem isSome_charOpening? (c : Char) : (charOpening? c).isSome = !isSpace c := by
  unfold charOpening?
  split
  · simp_all
  · split
    · simp_all
    · split <;> simp_all

theorem findSome?_visible (cs : List (Char × Bool)) :
    cs.findSome? visible? = (cs.find? fun c => !isSpace c.1).bind visible? := by
  induction cs with
  | nil => rfl
  | cons c cs ih =>
    by_cases hc : isSpace c.1 = true
    · have hnone : visible? c = none := by simp [visible?, charOpening?, hc]
      rw [findSome?_cons_or, hnone, Option.none_or, ih, List.find?_cons_of_neg (by simp [hc])]
    · have hsome : (visible? c).isSome = true := by
        rw [visible?, Option.isSome_map, isSome_charOpening?]
        simpa using hc
      obtain ⟨o, ho⟩ := Option.isSome_iff_exists.1 hsome
      rw [findSome?_cons_or, List.find?_cons_of_pos (by simpa using hc), Option.bind_some, ho, Option.some_or]

/-- Inline formatting has a visible command or opening delimiter. -/
def Piece.OpensVisibly (p : Piece) : Prop :=
  ∀ command delimiters, p = .openInline command delimiters → opening? p.latex ≠ none

theorem findSome?_latex (hp : p.OpensVisibly) : (p.latex.map (·, p.isText)).findSome? visible? = p.shows true := by
  have hmap : (p.latex.map (·, p.isText)).findSome? visible? =
      (opening? p.latex).map fun o => if p.isText then o else .other := by
    have hchar : visible? ∘ (·, p.isText) = Option.map (fun o => if p.isText then o else .other) ∘ charOpening? := rfl
    rw [List.findSome?_map, opening?, List.map_findSome?, hchar]
  rw [hmap]
  cases p with
  | text style source =>
    have hescape : opening? (Piece.text style source).latex = opening? source := opening?_escape style source
    rw [hescape]
    exact Option.map_id'
  | openInline command delimiters =>
    obtain ⟨o, ho⟩ := Option.ne_none_iff_exists'.1 (hp command delimiters rfl)
    rw [ho]
    rfl
  | setDirection d => cases d <;> decide
  | openRun d => cases d <;> decide
  | closeRun => decide
  | _ => rfl

/-- The first visible character of an output shows in its first visible piece. -/
theorem findSome?_charactersOf (hps : ∀ p ∈ ps, p.OpensVisibly) :
    (charactersOf ps).findSome? visible? = ps.findSome? (Piece.shows true) := by
  induction ps with
  | nil => rfl
  | cons p ps ih =>
    obtain ⟨hp, hps⟩ := List.forall_mem_cons.1 hps
    have hcons : charactersOf (p :: ps) = p.latex.map (·, p.isText) ++ charactersOf ps := rfl
    rw [hcons, List.findSome?_append, findSome?_latex hp, ih hps, findSome?_cons_or]

theorem firstVisible?_eq_iff (hps : ∀ p ∈ ps, p.OpensVisibly) {c : Char} {o : Opening} (ho : o ≠ .other)
    (hc : ∀ c', charOpening? c' = some o ↔ c' = c) :
    firstVisible? ps = some (c, true) ↔ ps.findSome? (Piece.shows true) = some o := by
  rw [← findSome?_charactersOf hps, findSome?_visible]
  show firstVisible? ps = some (c, true) ↔ (firstVisible? ps).bind visible? = some o
  constructor
  · intro h
    rw [h, Option.bind_some, visible?, (hc c).2 rfl]
    rfl
  · intro h
    obtain ⟨⟨c', isText⟩, hfirst, hvisible⟩ := Option.bind_eq_some_iff.1 h
    obtain ⟨o', ho', heq⟩ := Option.map_eq_some_iff.1 hvisible
    cases isText with
    | false => exact absurd heq.symm ho
    | true =>
      obtain rfl : o' = o := heq
      rw [hfirst, (hc c').1 ho']

theorem charOpening?_eq_bracket (c : Char) : charOpening? c = some .bracket ↔ c = '[' := by
  constructor
  · intro h
    unfold charOpening? at h
    split at h
    · cases h
    · split at h
      · assumption
      · split at h <;> cases h
  · rintro rfl
    decide

theorem charOpening?_eq_star (c : Char) : charOpening? c = some .star ↔ c = '*' := by
  constructor
  · intro h
    unfold charOpening? at h
    split at h
    · cases h
    · split at h
      · cases h
      · split at h
        · assumption
        · cases h
  · rintro rfl
    decide

/-- An output whose inline formatting opens visibly reads no text as an option just if its exposure says so, marks of
direction included. -/
theorem takesNoText_iff (hps : ∀ p ∈ ps, p.OpensVisibly) : TakesNoText ps ↔ (exposed true ps).safe = true := by
  have hafter : ∀ {before p after}, ps = before ++ p :: after → ∀ q ∈ after, q.OpensVisibly := by
    rintro before p after rfl q hq
    exact hps q (by simp [hq])
  rw [safe_exposed_iff]
  constructor
  · intro h before p after heq o ho hmem
    have hbracket := firstVisible?_eq_iff (hafter heq) (by decide) charOpening?_eq_bracket
    have hstar := firstVisible?_eq_iff (hafter heq) (by decide) charOpening?_eq_star
    unfold Piece.takes at hmem
    split at hmem
    · obtain ⟨hnostar, hnobracket⟩ := h.lineBreak before after heq
      simp only [List.mem_cons, List.not_mem_nil, or_false] at hmem
      rcases hmem with rfl | rfl
      · exact hnobracket (hbracket.2 ho)
      · exact hnostar (hstar.2 ho)
    · rename_i value
      split at hmem
      · rename_i hbare
        obtain ⟨l, hl, hvalue⟩ := List.any_eq_true.1 hbare
        obtain rfl := List.mem_singleton.1 hmem
        obtain rfl : value = beginCommand l.environment "" := of_decide_eq_true hvalue
        exact h.environment l hl before after heq (hbracket.2 ho)
      · cases hmem
    · cases hmem
  · intro h
    refine ⟨fun before after heq => ⟨fun hfirst => ?_, fun hfirst => ?_⟩, fun l hl before after heq hfirst => ?_⟩
    · have hstar := firstVisible?_eq_iff (hafter heq) (by decide) charOpening?_eq_star
      exact h before _ after heq _ (hstar.1 hfirst) (by decide)
    · have hbracket := firstVisible?_eq_iff (hafter heq) (by decide) charOpening?_eq_bracket
      exact h before _ after heq _ (hbracket.1 hfirst) (by decide)
    · have hbracket := firstVisible?_eq_iff (hafter heq) (by decide) charOpening?_eq_bracket
      refine h before _ after heq _ (hbracket.1 hfirst) ?_
      have hbare : (languages.any fun l' => beginCommand l.environment "" = beginCommand l'.environment "") = true :=
        List.any_eq_true.2 ⟨l, hl, decide_eq_true rfl⟩
      rw [Piece.takes, if_pos hbare]
      exact List.mem_singleton_self _

/-! ### Held text -/

/-- What a token opens with for a command in front of it, unless it is blank. -/
def Token.shows : Token → Option Opening
  | .char c => charOpening? c
  | .mark d => d.pieces.findSome? (Piece.shows false)

/-- What some tokens open with inside the given formatting, which is opened again before them. -/
def front (stack : List Decoration) (ts : List Token) : Option Opening :=
  if stack.isEmpty || ts.isEmpty then ts.findSome? Token.shows else some .other

section Texts

variable {style : TextStyle} {text : List Char} {contextDir : NamedDirection} {stack stack' ds : List Decoration}
  {ps : List Piece}

theorem front_of_open (hstack : stack ≠ []) {ts : List Token} (hts : ts ≠ []) : front stack ts = some .other := by
  simp [front, hstack, hts]

@[simp] theorem front_nil (ts : List Token) : front [] ts = ts.findSome? Token.shows := by simp [front]

theorem shows_chars (s : List Char) : (s.map Token.char).findSome? Token.shows = opening? s := List.findSome?_map

theorem shows_textPieces (style : TextStyle) (s : List Char) :
    (textPieces style s).findSome? (Piece.shows false) = opening? s := by
  cases s with
  | nil => rfl
  | cons c s =>
    have htext : textPieces style (c :: s) = [.text style (c :: s)] := rfl
    rw [htext, findSome?_cons_or]
    exact Option.or_none

/-- A woven stretch of text opens as its tokens do. -/
theorem shows_weave (style : TextStyle) (text : List Char) (stop pos : Nat) (ds : List Decoration) :
    (weave style text pos ds ++ textPieces style (slice text (offsetAfter pos ds) stop)).findSome? (Piece.shows false) =
      (tokens text stop pos ds).findSome? Token.shows := by
  induction ds generalizing pos with
  | nil => exact (shows_textPieces style _).trans (shows_chars _).symm
  | cons d ds ih =>
    have hpieces : weave style text pos (d :: ds) ++ textPieces style (slice text (offsetAfter pos (d :: ds)) stop) =
        textPieces style (slice text pos d.pos) ++ (d.pieces ++ (weave style text d.pos ds ++
          textPieces style (slice text (offsetAfter d.pos ds) stop))) := by
      simp only [weave, offsetAfter, List.append_assoc]
    rw [hpieces, tokens, List.findSome?_append, List.findSome?_append, ih, shows_textPieces, List.findSome?_append,
      shows_chars, findSome?_cons_or]
    rfl

theorem mark_mem_tokens {d : Decoration} (hd : d ∈ ds) (text : List Char) (stop pos : Nat) :
    .mark d ∈ tokens text stop pos ds := by
  induction ds generalizing pos with
  | nil => cases hd
  | cons d' ds ih =>
    rw [tokens]
    rcases List.mem_cons.1 hd with rfl | hd
    · simp
    · exact List.mem_append_right _ (List.mem_cons_of_mem _ (ih hd d'.pos))

theorem shows_mark_of_tokens {stop pos : Nat} (h : (tokens text stop pos ds).findSome? Token.shows = none) :
    ∀ d ∈ ds, (Token.mark d).shows = none :=
  fun _ hd => List.findSome?_eq_none_iff.1 h _ (mark_mem_tokens hd text stop pos)

theorem shows_startInline {d : Decoration} (hd : d.kind = .startInline) : (Token.mark d).shows = some .other := by
  simp [Token.shows, Decoration.pieces, hd, Piece.shows]

theorem Ordered.pos_le {start stop : Nat} (h : Ordered start ds stop) : ∀ d ∈ ds, d.pos ≤ stop := by
  induction ds generalizing start with
  | nil => nofun
  | cons d ds ih => exact List.forall_mem_cons.2 ⟨h.2.le, ih h.2⟩

/-- Decorations that show nothing open no formatting. -/
theorem nest_of_unseen (hds : ∀ d ∈ ds, (Token.mark d).shows = none) (h : nest [] ds = some stack) : stack = [] := by
  induction ds with
  | nil => exact (Option.some.inj h).symm
  | cons d ds ih =>
    obtain ⟨hd, hds⟩ := List.forall_mem_cons.1 hds
    obtain ⟨mid, hafter, hrest⟩ := Option.bind_eq_some_iff.1 h
    have hmid : mid = [] := by
      unfold Decoration.after? at hafter
      cases hk : d.kind <;> simp only [hk, reduceCtorEq, Option.some.injEq] at hafter
      case startInline => cases (shows_startInline hk).symm.trans hd
      all_goals exact hafter.symm
    exact ih hds (hmid ▸ hrest)

theorem shows_openPieces (hstack : stack ≠ []) : (openPieces stack).findSome? (Piece.shows false) = some .other := by
  obtain ⟨d, rest, hreverse⟩ := List.exists_cons_of_ne_nil (List.reverse_ne_nil_iff.2 hstack)
  rw [openPieces, hreverse]
  rfl

theorem shows_enterPieces (contextDir : NamedDirection) (d : Direction) :
    (enterPieces contextDir d).findSome? (Piece.shows false) = none ∧
      (exitPieces contextDir d).findSome? (Piece.shows false) = none := by
  unfold enterPieces exitPieces
  split <;> exact ⟨rfl, rfl⟩

/-- Behind the start of its run, a span in formatting opens with it. -/
theorem shows_spanPieces_of_open (style : TextStyle) (text : List Char) (contextDir : NamedDirection) (r : Run)
    (hstack : stack ≠ []) (stack' here : List Decoration) :
    (spanPieces style text contextDir r stack stack' here).findSome? (Piece.shows false) = some .other := by
  simp [spanPieces, List.findSome?_append, shows_openPieces hstack, shows_enterPieces]

/-- Outside formatting, a span opens as its tokens do. -/
theorem shows_spanPieces (style : TextStyle) (text : List Char) (contextDir : NamedDirection) (r : Run)
    {here : List Decoration} (hnest : nest [] here = some stack') :
    (spanPieces style text contextDir r [] stack' here).findSome? (Piece.shows false) =
      (tokens text r.stop r.start here).findSome? Token.shows := by
  have hspan : spanPieces style text contextDir r [] stack' here = enterPieces contextDir r.direction ++
      (weave style text r.start here ++ textPieces style (slice text (offsetAfter r.start here) r.stop)) ++
        closePieces stack' ++ exitPieces contextDir r.direction := by
    simp [spanPieces, openPieces]
  rw [hspan]
  simp only [List.findSome?_append, shows_enterPieces, Option.none_or, Option.or_none]
  rw [← List.findSome?_append, shows_weave]
  cases htokens : (tokens text r.stop r.start here).findSome? Token.shows with
  | some o => rfl
  | none =>
    rw [nest_of_unseen (shows_mark_of_tokens htokens) hnest]
    rfl

/-- The runs of a text open as its tokens do, as far as they come; if nothing is visible in them, no formatting is open
after them. -/
theorem shows_layRuns (style : TextStyle) (contextDir : NamedDirection) {rs : List Run} {start : Nat}
    {mid left : List Decoration} (hrs : Contiguous start rs text.length) (hds : Ordered start ds text.length)
    (h : layRuns style text contextDir rs [] ds = some (ps, mid, left)) :
    (ps.findSome? (Piece.shows false)).or ((left.map Token.mark).findSome? Token.shows) =
        (tokens text text.length start ds).findSome? Token.shows ∧
      (ps.findSome? (Piece.shows false) = none → mid = []) := by
  induction rs generalizing start ds ps with
  | nil =>
    obtain rfl : start = text.length := hrs
    cases h
    exact ⟨by rw [tokens_end text hds]; rfl, fun _ => rfl⟩
  | cons r rs ih =>
    obtain ⟨rfl, hlt, hrest⟩ := hrs
    obtain ⟨hhere, hleft⟩ := hds.split (Nat.le_of_lt hlt) hrest.le
    simp only [layRuns, Option.bind_eq_bind] at h
    obtain ⟨stack₁, hnest, h⟩ := Option.bind_eq_some_iff.1 h
    obtain ⟨⟨ps', mid', left'⟩, hlay, hpure⟩ := Option.bind_eq_some_iff.1 h
    cases hpure
    have hsplit : tokens text text.length r.start ds = tokens text r.stop r.start (ds.takeWhile (belongs r.stop)) ++
        tokens text text.length r.stop (ds.dropWhile (belongs r.stop)) := by
      rw [← tokens_append hhere hleft, List.takeWhile_append_dropWhile]
    rw [hsplit, List.findSome?_append, List.findSome?_append, shows_spanPieces style text contextDir r hnest]
    cases hfirst : (tokens text r.stop r.start (ds.takeWhile (belongs r.stop))).findSome? Token.shows with
    | some o => exact ⟨rfl, fun hnone => by cases hnone⟩
    | none =>
      rw [nest_of_unseen (shows_mark_of_tokens hfirst) hnest] at hlay
      exact ih hrest hleft hlay

theorem shows_marks (ds : List Decoration) :
    (ds.flatMap Decoration.pieces).findSome? (Piece.shows false) = (ds.map Token.mark).findSome? Token.shows := by
  induction ds with
  | nil => rfl
  | cons d ds ih =>
    rw [List.flatMap_cons, List.findSome?_append, ih, List.map_cons, findSome?_cons_or]
    rfl

/-- What stands after the last character opens as its decorations do. -/
theorem shows_trailPieces {left : List Decoration} (hnest : nest stack left = some stack') :
    (trailPieces stack stack' left).findSome? (Piece.shows false) = front stack (left.map .mark) := by
  by_cases hleft : left = []
  · simp [hleft, trailPieces, front]
  rw [trailPieces, if_neg (by simpa using hleft), List.findSome?_append, List.findSome?_append, shows_marks]
  by_cases hstack : stack = []
  · subst hstack
    have hnothing : (openPieces []).findSome? (Piece.shows false) = none := rfl
    rw [front_nil, hnothing, Option.none_or]
    cases hmarks : (left.map Token.mark).findSome? Token.shows with
    | some o => rfl
    | none =>
      have hunseen : ∀ d ∈ left, (Token.mark d).shows = none := fun d hd =>
        List.findSome?_eq_none_iff.1 hmarks _ (List.mem_map_of_mem hd)
      rw [nest_of_unseen hunseen hnest]
      rfl
  · rw [front_of_open hstack (by simpa using hleft), shows_openPieces hstack]
    rfl

/-- A text that is written opens as it did when it was held. -/
theorem shows_setText {runs : List Run} (hruns : Contiguous 0 runs text.length) (hds : Ordered 0 ds text.length)
    (h : setText style text contextDir runs stack ds = some (ps, stack')) :
    ps.findSome? (Piece.shows false) = front stack (tokens text text.length 0 ds) := by
  simp only [setText, Option.bind_eq_bind] at h
  obtain ⟨⟨ps', mid, left⟩, hlay, hrest⟩ := Option.bind_eq_some_iff.1 h
  obtain ⟨last, hnest, hpure⟩ := Option.bind_eq_some_iff.1 hrest
  cases hpure
  have hspans := contiguous_setRuns text contextDir hruns
  rw [List.findSome?_append, shows_trailPieces hnest]
  by_cases hstack : stack = []
  · subst hstack
    obtain ⟨hshows, hmid⟩ := shows_layRuns style contextDir hspans hds hlay
    rw [front_nil, ← hshows]
    cases hps : ps'.findSome? (Piece.shows false) with
    | some o => rfl
    | none => rw [hmid hps, front_nil]
  · cases hrs : setRuns text contextDir runs with
    | nil =>
      rw [hrs] at hlay hspans
      obtain rfl : text = [] := List.length_eq_zero_iff.1 hspans.symm
      cases hlay
      rw [show tokens [] ([] : List Char).length 0 ds = ds.map .mark from tokens_end [] hds]
      rfl
    | cons r rs =>
      rw [hrs] at hlay hspans
      simp only [layRuns, Option.bind_eq_bind] at hlay
      obtain ⟨stack₁, -, hlay⟩ := Option.bind_eq_some_iff.1 hlay
      obtain ⟨⟨ps'', mid', left'⟩, -, hpure⟩ := Option.bind_eq_some_iff.1 hlay
      cases hpure
      have htext : text ≠ [] := by
        rintro rfl
        have hle := hspans.2.2.le
        have hlt := hspans.2.1
        simp at hle
        omega
      rw [List.findSome?_append, shows_spanPieces_of_open style text contextDir r hstack, Option.some_or, Option.some_or,
        front_of_open hstack (tokens_ne_nil (.inl htext))]

/-- Only blocks and line breaks take anything. -/
theorem inherits_untaking : Inherits Decoration.IsInline (fun _ => True) (·.takes = []) where
  text _ _ := rfl
  openRun _ := rfl
  closeRun := rfl
  opening _ := rfl
  closing _ := rfl
  pieces {d} hd := by
    obtain ⟨hstart, hend⟩ := hd
    unfold Decoration.pieces
    split
    case h_4 | h_5 => contradiction
    all_goals simp [Piece.takes]
  stacked _ _ := trivial

end Texts

end WikiTypeset.Latex
