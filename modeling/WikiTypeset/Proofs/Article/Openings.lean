import WikiTypeset.Proofs.Article.Skeleton

/-!
# What lists open with

Going through an output, a tally keeps whether every list so far has opened with an item, and whether the last one has not
opened yet. An emitter comes to a tally if its output does once all that it holds back is written: while a list waits,
nothing is held back and no formatting is open, and what is written inside formatting spoils the list. Main statements:
`listsOpen_iff` and the lemmas of `Emitter.Tallies`.
-/

namespace WikiTypeset.Latex

open Action Article Bidi Emit

/-! ### The lists of an output -/

/-- What a piece is where a list opens. -/
inductive Cue
  /-- A blank, the end of a line, a note or the style of a list. -/
  | quiet
  | item
  /-- Anything else but the beginning of a list. -/
  | content
  | list
  deriving DecidableEq, Repr

/-- Whether a block begins a list. -/
def beginsList (value : String) : Bool := (begunEnvironment? value).any (· ∈ listEnvironments)

/-- What a fragment is where a list opens. -/
def fragmentCue (value : String) : Cue :=
  if isItem value then .item else if value = "\\small\n" then .quiet else .content

namespace Piece

/-- What a piece is where a list opens. -/
def cue : Piece → Cue
  | fragment value => fragmentCue value
  | block value => if beginsList value then .list else .content
  | text _ source => if source.all isSpace then .quiet else .content
  | newline | paragraphEnd | assumeDirection _ => .quiet
  | lineBreak | openInline _ _ | closeInline _ | setDirection _ | openRun _ | closeRun => .content

end Piece

/-- The first thing is an item, apart from what is quiet. -/
def OpensWithItem (ps : List Piece) : Prop :=
  ∃ between value after, ps = between ++ .fragment value :: after ∧ isItem value = true ∧ ∀ p ∈ between, p.cue = .quiet

/-- Every list opens with an item. -/
def ListsOpen (ps : List Piece) : Prop :=
  ∀ before value after, ps = before ++ .block value :: after → beginsList value = true → OpensWithItem after

/-- Whether every list has opened with an item if it has opened, and whether the last one has not. -/
structure Tally where
  good : Bool := true
  waits : Bool := false
  deriving DecidableEq, Repr

namespace Tally

/-- The list that waits opens, with an item or with something else. -/
def settle (t : Tally) (item : Bool) : Tally := if t.waits then ⟨t.good && item, false⟩ else t

/-- After something of the output. -/
def after (t : Tally) : Cue → Tally
  | .quiet => t
  | .item => t.settle true
  | .content => t.settle false
  | .list => { t.settle false with waits := true }

@[simp] theorem waits_settle (t : Tally) (item : Bool) : (t.settle item).waits = false := by
  unfold settle
  split
  · rfl
  · simpa using ‹¬ t.waits = true›

theorem settle_of_settled {t : Tally} (h : t.waits = false) (item : Bool) : t.settle item = t := by
  simp [settle, h]

end Tally

/-- The tally after some pieces. -/
def tallyPieces : Tally → List Piece → Tally := List.foldl fun t p => t.after p.cue

@[simp] theorem tallyPieces_nil (t : Tally) : tallyPieces t [] = t := rfl

@[simp] theorem tallyPieces_cons (t : Tally) (p : Piece) (ps : List Piece) :
    tallyPieces t (p :: ps) = tallyPieces (t.after p.cue) ps := rfl

theorem tallyPieces_append (t : Tally) (ps qs : List Piece) :
    tallyPieces t (ps ++ qs) = tallyPieces (tallyPieces t ps) qs := List.foldl_append

section Pieces

variable {t : Tally} {p : Piece} {ps : List Piece}

theorem Piece.cue_eq_item : p.cue = .item ↔ ∃ value, p = .fragment value ∧ isItem value = true := by
  cases p with
  | fragment value =>
    by_cases hitem : isItem value = true
    · simp [cue, fragmentCue, hitem]
    · rw [cue, fragmentCue, if_neg hitem]
      split <;> simp [hitem]
  | block value =>
    rw [cue]
    split <;> simp
  | text _ source =>
    rw [cue]
    split <;> simp
  | _ => simp [cue]

theorem Piece.cue_eq_list : p.cue = .list ↔ ∃ value, p = .block value ∧ beginsList value = true := by
  cases p with
  | fragment value =>
    rw [cue, fragmentCue]
    split
    · simp
    · split <;> simp
  | block value =>
    rw [cue]
    split <;> simp [*]
  | text _ source =>
    rw [cue]
    split <;> simp
  | _ => simp [cue]

theorem not_opensWithItem_nil : ¬ OpensWithItem [] := by
  rintro ⟨between, value, after, hnil, -⟩
  simp at hnil

theorem opensWithItem_cons : OpensWithItem (p :: ps) ↔ p.cue = .item ∨ p.cue = .quiet ∧ OpensWithItem ps := by
  constructor
  · rintro ⟨_ | ⟨q, between⟩, value, after, heq, hitem, hquiet⟩
    · cases heq
      exact .inl (Piece.cue_eq_item.2 ⟨value, rfl, hitem⟩)
    · cases heq
      obtain ⟨hq, hbetween⟩ := List.forall_mem_cons.1 hquiet
      exact .inr ⟨hq, between, value, after, rfl, hitem, hbetween⟩
  · rintro (hcue | ⟨hcue, between, value, after, rfl, hitem, hquiet⟩)
    · obtain ⟨value, rfl, hitem⟩ := Piece.cue_eq_item.1 hcue
      exact ⟨[], value, ps, rfl, hitem, List.forall_mem_nil _⟩
    · exact ⟨p :: between, value, after, rfl, hitem, List.forall_mem_cons.2 ⟨hcue, hquiet⟩⟩

theorem listsOpen_cons : ListsOpen (p :: ps) ↔ (p.cue = .list → OpensWithItem ps) ∧ ListsOpen ps := by
  constructor
  · intro h
    refine ⟨fun hcue => ?_, fun before value after heq hlist => ?_⟩
    · obtain ⟨value, rfl, hlist⟩ := Piece.cue_eq_list.1 hcue
      exact h [] value ps rfl hlist
    · exact h (p :: before) value after (by rw [heq]; rfl) hlist
  · rintro ⟨hfirst, hrest⟩ (_ | ⟨q, before⟩) value after heq hlist
    · cases heq
      exact hfirst (Piece.cue_eq_list.2 ⟨value, rfl, hlist⟩)
    · cases heq
      exact hrest before value after rfl hlist

/-- A tally ends well just if it did so far, the list that waits opens with an item, and so do all later ones. -/
theorem tallyPieces_eq_iff :
    tallyPieces t ps = ⟨true, false⟩ ↔ t.good = true ∧ (t.waits = true → OpensWithItem ps) ∧ ListsOpen ps := by
  induction ps generalizing t with
  | nil =>
    obtain ⟨good, waits⟩ := t
    have hnone : ListsOpen [] := fun before value after heq => by simp at heq
    cases waits <;> simp [not_opensWithItem_nil, hnone]
  | cons p ps ih =>
    obtain ⟨good, waits⟩ := t
    rw [tallyPieces_cons, ih, opensWithItem_cons, listsOpen_cons]
    cases p.cue <;> cases waits <;> simp [Tally.after, Tally.settle]

/-- The lists of an output all open with an item just if its tally is good and none waits. -/
theorem listsOpen_iff : ListsOpen ps ↔ tallyPieces {} ps = ⟨true, false⟩ := by
  rw [tallyPieces_eq_iff]
  simp

/-- Where no list waits and none begins, the tally stays. -/
theorem tallyPieces_of_settled (ht : t.waits = false) (hps : ∀ p ∈ ps, p.cue ≠ .list) : tallyPieces t ps = t := by
  induction ps with
  | nil => rfl
  | cons p ps ih =>
    obtain ⟨hp, hrest⟩ := List.forall_mem_cons.1 hps
    have hone : t.after p.cue = t := by
      unfold Tally.after
      split
      · rfl
      · exact Tally.settle_of_settled ht true
      · exact Tally.settle_of_settled ht false
      · exact absurd ‹p.cue = .list› hp
    rw [tallyPieces_cons, hone]
    exact ih hrest

/-- Something of a kind comes first. -/
def ComesFirst (c : Cue) (ps : List Piece) : Prop := ∃ p rest, ps = p :: rest ∧ p.cue = c

theorem ComesFirst.append {c : Cue} (h : ComesFirst c ps) (qs : List Piece) : ComesFirst c (ps ++ qs) := by
  obtain ⟨p, rest, rfl, hp⟩ := h
  exact ⟨p, rest ++ qs, rfl, hp⟩

/-- What comes first opens the list that waits. -/
theorem ComesFirst.tally_eq {c : Cue} (h : ComesFirst c ps) (hc : (t.after c).waits = false)
    (hps : ∀ p ∈ ps, p.cue ≠ .list) : tallyPieces t ps = t.after c := by
  obtain ⟨p, rest, rfl, rfl⟩ := h
  exact tallyPieces_of_settled hc fun q hq => hps q (List.mem_cons_of_mem p hq)

end Pieces

/-! ### Held text, written -/

/-- Whether a token is content where a list opens. -/
def Token.isContent : Token → Bool
  | .char c => !isSpace c
  | .mark d =>
    match d.kind with
    | .startInline | .endInline => true
    | .raw => fragmentCue d.value = .content
    | .startBlock | .endBlock | .endOfText => false

section Texts

variable {style : TextStyle} {text : List Char} {contextDir : NamedDirection} {stack stack' ds : List Decoration}
  {ps : List Piece}

theorem Decoration.comesFirst {d : Decoration} (h : (Token.mark d).isContent = true) : ComesFirst .content d.pieces := by
  unfold Token.isContent at h
  unfold Decoration.pieces
  cases hk : d.kind <;> simp only [hk, decide_eq_true_eq, Bool.false_eq_true] at h
  case raw => exact ⟨_, [], rfl, h⟩
  case startInline | endInline => exact ⟨_, [], rfl, rfl⟩

theorem openPieces_comesFirst (h : stack ≠ []) : ComesFirst .content (openPieces stack) := by
  obtain ⟨d, rest, hreverse⟩ := List.exists_cons_of_ne_nil (mt List.reverse_eq_nil_iff.1 h)
  exact ⟨.openInline d.value d.delimiters, rest.map fun d => .openInline d.value d.delimiters, by
    rw [openPieces, hreverse]; rfl, rfl⟩

theorem textPieces_comesFirst (style : TextStyle) {c : Char} (hc : isSpace c = false) (s : List Char) :
    ComesFirst .content (textPieces style (c :: s)) :=
  ⟨.text style (c :: s), [], rfl, by simp [Piece.cue, hc]⟩

theorem slice_cons (c : Char) (s : List Char) {stop : Nat} (h : 0 < stop) :
    slice (c :: s) 0 stop = c :: s.take (stop - 1) := by
  obtain ⟨n, rfl⟩ : ∃ n, stop = n + 1 := ⟨stop - 1, by omega⟩
  rfl

/-- What stands first in a text that starts with content, up to an offset. -/
theorem weave_comesFirst (style : TextStyle) {stop : Nat} (hstop : 0 < stop) (htext : text ≠ []) {token : Token}
    {rest : List Token} (h : tokens text text.length 0 ds = token :: rest) (htoken : token.isContent = true) :
    ComesFirst .content (weave style text 0 (ds.takeWhile (belongs stop)) ++
      textPieces style (slice text (offsetAfter 0 (ds.takeWhile (belongs stop))) stop)) := by
  obtain ⟨c, s, rfl⟩ := List.exists_cons_of_ne_nil htext
  cases ds with
  | nil =>
    rw [tokens, slice_cons c s (by simp)] at h
    cases h
    have hc : isSpace c = false := by simpa [Token.isContent] using htoken
    show ComesFirst .content (textPieces style (slice (c :: s) 0 stop))
    rw [slice_cons c s hstop]
    exact textPieces_comesFirst style hc _
  | cons d ds =>
    by_cases hpos : d.pos = 0
    · have hmark : token = .mark d := by
        rw [tokens, hpos] at h
        exact (List.cons.inj h).1.symm
      subst hmark
      have hbelongs : belongs stop d = true := by simp [belongs, hpos, hstop]
      rw [List.takeWhile_cons_of_pos hbelongs, weave, hpos]
      exact (((Decoration.comesFirst htoken).append _).append _)
    · rw [tokens, slice_cons c s (by omega)] at h
      obtain rfl : token = .char c := (List.cons.inj h).1.symm
      have hc : isSpace c = false := by simpa [Token.isContent] using htoken
      by_cases hbelongs : belongs stop d = true
      · rw [List.takeWhile_cons_of_pos hbelongs, weave, slice_cons c s (by omega)]
        exact (((textPieces_comesFirst style hc _).append _).append _).append _
      · rw [List.takeWhile_cons_of_neg hbelongs]
        show ComesFirst .content (textPieces style (slice (c :: s) 0 stop))
        rw [slice_cons c s hstop]
        exact textPieces_comesFirst style hc _

/-- What stands first in a span: the start of a run, the formatting that is open, or what its text starts with. -/
theorem spanPieces_comesFirst {r : Run} (hr : r.start = 0) (hstop : 0 < r.stop) (htext : text ≠ [])
    (hfirst : stack ≠ [] ∨ ∃ token rest, tokens text text.length 0 ds = token :: rest ∧ token.isContent = true) :
    ComesFirst .content (spanPieces style text contextDir r stack stack' (ds.takeWhile (belongs r.stop))) := by
  have hinner : ComesFirst .content (openPieces stack ++ weave style text r.start (ds.takeWhile (belongs r.stop)) ++
      textPieces style (slice text (offsetAfter r.start (ds.takeWhile (belongs r.stop))) r.stop)) := by
    rw [hr, List.append_assoc]
    by_cases hstack : stack = []
    · subst hstack
      obtain ⟨token, rest, htokens, htoken⟩ := hfirst.resolve_left fun hne => hne rfl
      exact weave_comesFirst style hstop htext htokens htoken
    · exact (openPieces_comesFirst hstack).append _
  unfold spanPieces enterPieces
  split
  · simpa using (hinner.append (closePieces stack')).append (exitPieces contextDir r.direction)
  · exact ⟨.openRun r.direction, _, rfl, rfl⟩

/-- A text is content where a list opens if formatting is open or it starts with content. -/
theorem setText_comesFirst {runs : List Run} (hruns : Contiguous 0 runs text.length) (hds : Ordered 0 ds text.length)
    (hset : setText style text contextDir runs stack ds = some (ps, stack')) (hdue : text ≠ [] ∨ ds ≠ [])
    (hfirst : stack ≠ [] ∨ ∃ token rest, tokens text text.length 0 ds = token :: rest ∧ token.isContent = true) :
    ComesFirst .content ps := by
  simp only [setText, Option.bind_eq_bind] at hset
  obtain ⟨⟨ps', mid, left⟩, hlay, hrest⟩ := Option.bind_eq_some_iff.1 hset
  obtain ⟨last, -, hpure⟩ := Option.bind_eq_some_iff.1 hrest
  cases hpure
  have hspans := contiguous_setRuns text contextDir hruns
  cases hrs : setRuns text contextDir runs with
  | nil =>
    -- Without text there are only decorations, and they are all at its end.
    rw [hrs] at hlay hspans
    cases hlay
    obtain rfl : text = [] := List.length_eq_zero_iff.1 hspans.symm
    have hne : ds ≠ [] := hdue.resolve_left fun hne => hne rfl
    rw [List.nil_append, trailPieces, if_neg (by simpa using hne), List.append_assoc]
    by_cases hstack : stack = []
    · subst hstack
      obtain ⟨token, rest, htokens, htoken⟩ := hfirst.resolve_left fun hne => hne rfl
      rw [show tokens [] ([] : List Char).length 0 ds = ds.map .mark from tokens_end [] hds] at htokens
      obtain ⟨d, ds, rfl⟩ := List.exists_cons_of_ne_nil hne
      obtain rfl : token = .mark d := (List.cons.inj htokens).1.symm
      exact ((Decoration.comesFirst htoken).append _).append _
    · exact (openPieces_comesFirst hstack).append _
  | cons r rs =>
    rw [hrs] at hlay hspans
    simp only [layRuns, Option.bind_eq_bind] at hlay
    obtain ⟨stack₁, -, hlay⟩ := Option.bind_eq_some_iff.1 hlay
    obtain ⟨⟨ps'', mid', left'⟩, -, hpure⟩ := Option.bind_eq_some_iff.1 hlay
    cases hpure
    obtain ⟨hstart, hlt, hmore⟩ := hspans
    have htext : text ≠ [] := by
      rintro rfl
      have hle := hmore.le
      simp at hle
      omega
    exact ((spanPieces_comesFirst hstart hlt htext hfirst).append _).append _

/-- Written text begins no list. -/
theorem unlisted_setText {runs : List Run} (hds : ∀ d ∈ ds, d.IsInline)
    (hset : setText style text contextDir runs stack ds = some (ps, stack')) : ∀ p ∈ ps, p.cue ≠ .list := by
  intro p hp hcue
  obtain ⟨value, rfl, -⟩ := Piece.cue_eq_list.1 hcue
  cases (inherits_quiet.setText hds (fun _ _ => trivial) hset).1 _ hp

end Texts

/-! ### Emitters -/

namespace Emitter

variable {e e' : Emitter} {l : Ledger} {t : Tally} {stack : List Decoration}

/-- Nothing is held back, and no formatting is open. -/
structure IsBare (e : Emitter) : Prop where
  buffer : e.buffer = []
  decorations : e.decorations = []
  stack : e.stack = []

/-- What is written next is content where a list opens: formatting is open, or content is held back. -/
def IsSpoiled (e : Emitter) : Prop :=
  e.stack ≠ [] ∨ ∃ token rest, e.tokens = token :: rest ∧ token.isContent = true

/-- The tally of what has been written. -/
def tally (e : Emitter) : Tally := tallyPieces {} e.output

/-- The emitter comes to a tally once what it holds back is written. It holds nothing back while a list waits, unless this
spoils the list. -/
structure Tallies (e : Emitter) (t : Tally) : Prop where
  isInline : ∀ d ∈ e.decorations, d.IsInline
  tallies : (e.tally = t ∧ (t.waits = true → e.IsBare)) ∨
    (e.tally.waits = true ∧ t = e.tally.settle false ∧ e.IsSpoiled)

theorem IsBare.tokens_eq (h : e.IsBare) : e.tokens = [] := by
  rw [tokens, h.buffer, h.decorations]
  rfl

theorem IsBare.isDue_eq (h : e.IsBare) : e.isDue = false := by
  simp [isDue, due, splitCarried_eq, h.buffer, h.decorations]

theorem Tallies.settle_eq (h : e.Tallies t) : e.tally.settle false = t.settle false := by
  rcases h.tallies with ⟨rfl, -⟩ | ⟨-, rfl, -⟩
  · rfl
  · exact (Tally.settle_of_settled (Tally.waits_settle _ _) false).symm

/-- While a list waits, the emitter is bare. -/
theorem Tallies.of_waits (h : e.Tallies t) (ht : t.waits = true) : e.tally = t ∧ e.IsBare := by
  rcases h.tallies with ⟨heq, hbare⟩ | ⟨-, rfl, -⟩
  · exact ⟨heq, hbare ht⟩
  · cases (Tally.waits_settle _ _).symm.trans ht

theorem Tallies.of_tally (hinline : ∀ d ∈ e.decorations, d.IsInline) (h : e.tally = t) (ht : t.waits = false) :
    e.Tallies t :=
  ⟨hinline, .inl ⟨h, fun hwaits => by cases ht.symm.trans hwaits⟩⟩

/-- With nothing held back and no formatting open, what has been written comes to the tally. -/
theorem Tallies.of_bare (h : e.Tallies t) (hbare : e.IsBare) : e.tally = t := by
  rcases h.tallies with ⟨heq, -⟩ | ⟨-, -, hstack | ⟨token, rest, htokens, -⟩⟩
  · exact heq
  · exact absurd hbare.stack hstack
  · cases htokens.symm.trans hbare.tokens_eq

theorem tally_append {ps : List Piece} (h : e'.output = e.output ++ ps) : e'.tally = tallyPieces e.tally ps := by
  rw [tally, h, tallyPieces_append]
  rfl

theorem tally_eq_of_written (h : e'.written = e.written) : e'.tally = e.tally := by
  rw [tally, tally, output, output, h]

/-- A change of the ambient direction is content too. -/
theorem switchFor_comesFirst (e : Emitter) (runs : List Run) :
    (e.switchFor runs = [] ∨ ComesFirst .content (e.switchFor runs)) ∧ ∀ p ∈ e.switchFor runs, p.cue ≠ .list := by
  cases runs with
  | nil => exact ⟨.inl rfl, List.forall_mem_nil _⟩
  | cons r runs =>
    by_cases hs : e.switches r.direction = true
    · have hone : e.switchFor (r :: runs) = [.setDirection r.direction] := by simp [switchFor, switchPieces, hs]
      rw [hone]
      exact ⟨.inr ⟨_, [], rfl, rfl⟩, by simp [Piece.cue]⟩
    · have hnone : e.switchFor (r :: runs) = [] := by simp [switchFor, switchPieces, hs]
      rw [hnone]
      exact ⟨.inl rfl, List.forall_mem_nil _⟩

/-- Only what is held back, the formatting and what has been written matter. -/
theorem Tallies.of_eq (h : e.Tallies t) (hwritten : e'.written = e.written) (hbuffer : e'.buffer = e.buffer)
    (hdecorations : e'.decorations = e.decorations) (hstack : e'.stack = e.stack) : e'.Tallies t := by
  have htally : e'.tally = e.tally := tally_eq_of_written hwritten
  have htokens : e'.tokens = e.tokens := by rw [tokens, tokens, hbuffer, hdecorations]
  refine ⟨hdecorations ▸ h.isInline, h.tallies.imp (fun h' => ?_) fun h' => ?_⟩
  · refine ⟨htally.trans h'.1, fun hwaits => ?_⟩
    obtain ⟨hbuffer', hdecorations', hstack'⟩ := h'.2 hwaits
    exact ⟨hbuffer.trans hbuffer', hdecorations.trans hdecorations', hstack.trans hstack'⟩
  · rw [htally, IsSpoiled, htokens, hstack]
    exact h'

/-- A piece that is quiet, or any content if no list waits. -/
theorem Tallies.wrote (h : e.Tallies t) {p : Piece} (hp : p.cue = .quiet ∨ p.cue = .content ∧ t.waits = false) :
    (e.wrote [p]).Tallies t := by
  have htally : (e.wrote [p]).tally = e.tally.after p.cue := tally_append (output_advance e _ _ _ _)
  refine ⟨h.isInline, ?_⟩
  rw [htally]
  rcases hp with hquiet | ⟨hcontent, ht⟩
  · rw [hquiet]
    exact h.tallies.imp (fun h' => ⟨h'.1, fun hwaits => ⟨(h'.2 hwaits).buffer, (h'.2 hwaits).decorations,
      (h'.2 hwaits).stack⟩⟩) id
  · have hsettled : e.tally.settle false = t := h.settle_eq.trans (Tally.settle_of_settled ht false)
    rw [hcontent]
    exact .inl ⟨hsettled, fun hwaits => by cases ht.symm.trans hwaits⟩

/-- What is held back comes to more behind what was held back before. -/
theorem Tallies.of_held (h : e.Tallies t) (hinline : ∀ d ∈ e'.decorations, d.IsInline) {held : List Token}
    (htokens : e'.tokens = e.tokens ++ held) (hstack : e'.stack = e.stack) (hwritten : e'.written = e.written)
    (hheld : t.waits = true → ∃ token rest, held = token :: rest ∧ token.isContent = true) :
    e'.Tallies (t.settle false) := by
  have htally : e'.tally = e.tally := tally_eq_of_written hwritten
  by_cases ht : t.waits = true
  · obtain ⟨heq, hbare⟩ := h.of_waits ht
    rw [hbare.tokens_eq, List.nil_append] at htokens
    refine ⟨hinline, .inr ⟨?_, ?_, .inr ?_⟩⟩
    · rw [htally, heq, ht]
    · rw [htally, heq]
    · rw [htokens]
      exact hheld ht
  · have ht' : t.waits = false := by simpa using ht
    rw [Tally.settle_of_settled ht' false]
    refine ⟨hinline, h.tallies.imp (fun h' => ⟨htally.trans h'.1, fun hwaits => absurd hwaits ht⟩) ?_⟩
    rintro ⟨hwaits, rfl, hspoiled⟩
    refine ⟨htally ▸ hwaits, by rw [htally], hspoiled.imp (fun hne => ?_) ?_⟩
    · rwa [hstack]
    · rintro ⟨token, rest, heq, htoken⟩
      exact ⟨token, rest ++ held, by rw [htokens, heq]; rfl, htoken⟩

/-- Formatting or a fragment that is recorded opens a list that waits as content. -/
theorem Tallies.recorded (h : e.Tallies t) (hordered : Ordered 0 e.decorations e.buffer.length) {d : Decoration}
    (hd : d.IsInline) (hcontent : t.waits = true → (Token.mark d).isContent = true) :
    (e.recorded d).Tallies (t.settle false) := by
  have htokens := tokens_recorded hordered d
  refine h.of_held (fun x hx => ?_) htokens rfl rfl fun ht => ⟨_, [], rfl, hcontent ht⟩
  rcases List.mem_append.1 hx with hx | hx
  · exact h.isInline x hx
  · rw [List.mem_singleton.1 hx]
    exact hd

/-- So does text that does not start with a blank. -/
theorem Tallies.extended (h : e.Tallies t) (hordered : Ordered 0 e.decorations e.buffer.length) {s : List Char}
    (hs : t.waits = true → ∃ c s', s = c :: s' ∧ isSpace c = false) : (e.extended s).Tallies (t.settle false) := by
  refine h.of_held h.isInline (tokens_extended hordered s) rfl rfl fun ht => ?_
  obtain ⟨c, s', rfl, hc⟩ := hs ht
  exact ⟨.char c, s'.map .char, rfl, by simp [Token.isContent, hc]⟩

theorem Tallies.turn (hl : e.Tracks paragraph stack l) (h : e.Tallies t) :
    Leaves writeHeld e (fun _ e' => e'.Tallies t) fun _ _ => True := by
  refine leaves_writeHeld hl.analyzer (fun _ => hl.isOpen) (fun {p ps stack'} hdue hp hset => ?_) fun hnot => ?_
  · have hinline : ∀ d ∈ e.due, d.IsInline := fun d hd =>
      h.isInline d (e.due_append_carried ▸ List.mem_append_left _ hd)
    have hordered : Ordered 0 e.due e.buffer.length := (e.due_append_carried ▸ hl.ordered).of_append
    obtain ⟨hswitch, hunlisted⟩ := e.switchFor_comesFirst p.runs
    have hall : ∀ q ∈ e.switchFor p.runs ++ ps, q.cue ≠ .list :=
      List.forall_mem_append.2 ⟨hunlisted, unlisted_setText hinline hset⟩
    have htally := tally_append (output_turned e ps stack' p.runs)
    rcases h.tallies with ⟨rfl, hbare⟩ | ⟨hwaits, rfl, hspoiled⟩
    · have hsettled : e.tally.waits = false := by
        by_contra hwaits
        cases hdue.symm.trans (hbare (by simpa using hwaits)).isDue_eq
      exact .of_tally (List.forall_mem_nil _) (htally.trans (tallyPieces_of_settled hsettled hall)) hsettled
    · have hsome : e.buffer ≠ [] ∨ e.due ≠ [] := by
        simpa [isDue, or_iff_not_imp_left] using hdue
      have hfirst : ComesFirst .content (e.switchFor p.runs ++ ps) := by
        rcases hswitch with hnone | hfirst
        · rw [hnone]
          refine setText_comesFirst (paragraph_partitions hp).contiguous hordered hset hsome (hspoiled.imp_right ?_)
          rintro ⟨token, rest, htokens, htoken⟩
          -- What is carried over comes after what is due, and something is.
          rw [tokens_eq_due hl.ordered] at htokens
          obtain ⟨first, more, hfirst⟩ := List.exists_cons_of_ne_nil (tokens_ne_nil hsome)
          rw [hfirst] at htokens
          cases htokens
          exact ⟨_, _, hfirst, htoken⟩
        · exact hfirst.append ps
      have hafter : (e.tally.after .content).waits = false := Tally.waits_settle _ _
      exact .of_tally (List.forall_mem_nil _) (htally.trans (hfirst.tally_eq hafter hall)) hafter
  · obtain ⟨hbuffer, hnone⟩ : e.buffer = [] ∧ e.due = [] := by simpa [isDue] using hnot
    have hcarried : e.carried = e.decorations := by rw [← e.due_append_carried, hnone, List.nil_append]
    have htally : (e.turned [] e.stack []).tally = e.tally := tally_append (output_turned e [] e.stack [])
    refine ⟨List.forall_mem_nil _, h.tallies.imp (fun h' => ?_) fun h' => ?_⟩
    · refine ⟨htally.trans h'.1, fun hwaits => ⟨rfl, rfl, ?_⟩⟩
      have hbare := h'.2 hwaits
      show e.carried.reverse ++ e.stack = []
      rw [hcarried, hbare.decorations, hbare.stack]
      rfl
    · obtain ⟨hwaits, heq, hspoiled⟩ := h'
      refine ⟨htally ▸ hwaits, htally.symm ▸ heq, .inl ?_⟩
      show e.carried.reverse ++ e.stack ≠ []
      rcases hspoiled with hstack | ⟨token, rest, htokens, -⟩
      · simp [hstack]
      · rw [hcarried]
        intro hnil
        have hdecorations : e.decorations = [] := by simpa using (List.append_eq_nil_iff.1 hnil).1
        rw [tokens, hbuffer, hdecorations] at htokens
        cases htokens

end Emitter

end WikiTypeset.Latex
