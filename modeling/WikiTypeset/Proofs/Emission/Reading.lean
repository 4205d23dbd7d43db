import WikiTypeset.Proofs.Emission.Gather
import WikiTypeset.Proofs.Emission.Held

/-!
# Reading the output back

The output is read piece by piece: a character, a fragment or a block is found with the inline formatting around it,
and formatting must be closed by the delimiter of what was opened last. Held text is read in the same way, decoration
by decoration. Main statement: `read_setText`, by which a text that is cut into runs reads as it did when it was held.
-/

namespace WikiTypeset.Latex

open Bidi Emit

/-! ### What is found -/

/-- Inline formatting around a text. -/
structure Wrapper where
  command : String
  delimiters : Delimiters
  deriving DecidableEq, Repr

/-- The formatting that a decoration starts or ends. -/
def Decoration.wrapper (d : Decoration) : Wrapper := ⟨d.value, d.delimiters⟩

/-- What stands in a text. -/
inductive Item
  | char (c : Char)
  | fragment (value : String)
  | block (value : String)
  deriving DecidableEq, Repr

/-- An item with the formatting around it, the outermost first. -/
structure Placed where
  item : Item
  inside : List Wrapper
  deriving DecidableEq, Repr

/-- The formatting of a stack, the outermost first. -/
def around (stack : List Decoration) : List Wrapper := (stack.map Decoration.wrapper).reverse

/-- Characters inside some formatting. -/
def charsInside (inside : List Wrapper) (s : List Char) : List Placed := s.map fun c => ⟨.char c, inside⟩

@[simp] theorem charsInside_nil (inside : List Wrapper) : charsInside inside [] = [] := rfl

@[simp] theorem charsInside_append (inside : List Wrapper) (s t : List Char) :
    charsInside inside (s ++ t) = charsInside inside s ++ charsInside inside t := List.map_append

/-! ### Reading pieces -/

/-- What is open at a place of the output. -/
inductive Frame
  | inline (w : Wrapper)
  | run
  deriving DecidableEq, Repr

/-- The inline formatting among what is open, the outermost first. -/
def insideOf (frames : List Frame) : List Wrapper :=
  (frames.filterMap fun | .inline w => some w | .run => none).reverse

/-- What a piece adds to a reading, and what is open after it. -/
def Piece.read (frames : List Frame) : Piece → Option (List Placed × List Frame)
  | .text _ source => some (charsInside (insideOf frames) source, frames)
  | .openInline command delimiters => some ([], .inline ⟨command, delimiters⟩ :: frames)
  | .closeInline delimiter =>
    match frames with
    | .inline w :: rest => if w.delimiters.closing = delimiter then some ([], rest) else none
    | _ => none
  | .fragment value => some ([⟨.fragment value, insideOf frames⟩], frames)
  | .block value => some ([⟨.block value, insideOf frames⟩], frames)
  | .openRun _ => some ([], .run :: frames)
  | .closeRun =>
    match frames with
    | .run :: rest => some ([], rest)
    | _ => none
  | .setDirection _ | .assumeDirection _ | .newline | .paragraphEnd | .lineBreak => some ([], frames)

/-- The items of some pieces. -/
abbrev readPieces : List Frame → List Piece → Option (List Placed × List Frame) := gather Piece.read

/-! ### Reading what is held back -/

/-- A character or a decoration of a text that is held back. -/
inductive Token
  | char (c : Char)
  | mark (d : Decoration)

/-- The tokens from an offset up to `stop`. -/
def tokens (text : List Char) (stop : Nat) : Nat → List Decoration → List Token
  | pos, [] => (slice text pos stop).map .char
  | pos, d :: ds => (slice text pos d.pos).map .char ++ .mark d :: tokens text stop d.pos ds

/-- What a token adds to a reading, and the formatting that is open after it. Formatting must be ended as it was
started. -/
def Token.read (stack : List Decoration) : Token → Option (List Placed × List Decoration)
  | .char c => some ([⟨.char c, around stack⟩], stack)
  | .mark d =>
    match d.kind with
    | .startInline => some ([], d :: stack)
    | .endInline =>
      match stack with
      | innermost :: rest => if innermost.wrapper = d.wrapper then some ([], rest) else none
      | [] => none
    | .raw => some ([⟨.fragment d.value, around stack⟩], stack)
    | .startBlock | .endBlock => some ([⟨.block d.value, around stack⟩], stack)
    | .endOfText => none

/-- The items of some tokens. -/
abbrev readTokens : List Decoration → List Token → Option (List Placed × List Decoration) := gather Token.read

theorem tokens_ne_nil {text : List Char} {ds : List Decoration} (h : text ≠ [] ∨ ds ≠ []) :
    tokens text text.length 0 ds ≠ [] := by
  cases ds with
  | nil =>
    have htext := h.resolve_right fun hne => hne rfl
    simpa [tokens, slice] using htext
  | cons d ds => simp [tokens]

theorem readTokens_chars (stack : List Decoration) (s : List Char) :
    readTokens stack (s.map .char) = some (charsInside (around stack) s, stack) :=
  gather_map _ _ (fun _ => rfl) s

/-- Decorations that can be read nest. -/
theorem Token.after?_of_read {stack stack' : List Decoration} {d : Decoration} {found : List Placed}
    (h : Token.read stack (.mark d) = some (found, stack')) : d.after? stack = some stack' := by
  unfold Token.read at h
  unfold Decoration.after?
  cases hk : d.kind <;> simp only [hk] at h ⊢
  case endInline =>
    cases stack with
    | nil => cases h
    | cons innermost rest =>
      by_cases hw : innermost.wrapper = d.wrapper
      · have hv : innermost.value = d.value := congrArg Wrapper.command hw
        simp only [hw, if_true, Option.some.injEq, Prod.mk.injEq] at h
        simp [hv, h.2]
      · simp [hw] at h
  all_goals simp_all

/-! ### Offsets in order -/

/-- The offsets of some decorations, in order between `start` and `stop`. -/
def Ordered : Nat → List Decoration → Nat → Prop
  | start, [], stop => start ≤ stop
  | start, d :: ds, stop => start ≤ d.pos ∧ Ordered d.pos ds stop

theorem Ordered.le {start stop : Nat} {ds : List Decoration} (h : Ordered start ds stop) : start ≤ stop := by
  induction ds generalizing start with
  | nil => exact h
  | cons d ds ih => exact Nat.le_trans h.1 (ih h.2)

theorem slice_append_slice (text : List Char) {i j k : Nat} (hij : i ≤ j) (hjk : j ≤ k) :
    slice text i j ++ slice text j k = slice text i k := by
  have hj : text.drop j = (text.drop i).drop (j - i) := by rw [List.drop_drop]; congr 1; omega
  have hk : k - i = (j - i) + (k - j) := by omega
  rw [slice, slice, slice, hj, hk, List.take_add]

theorem tokens_append {text : List Char} {start mid stop : Nat} {here left : List Decoration}
    (h : Ordered start here mid) (h' : Ordered mid left stop) :
    tokens text stop start (here ++ left) = tokens text mid start here ++ tokens text stop mid left := by
  induction here generalizing start with
  | nil =>
    cases left with
    | nil => simp only [List.append_nil, tokens, ← List.map_append, slice_append_slice text h h'.le]
    | cons d left =>
      simp only [List.nil_append, tokens, ← List.append_assoc, ← List.map_append, slice_append_slice text h h'.1]
  | cons d here ih => simp only [List.cons_append, tokens, ih h.2, List.append_assoc]

/-- The decorations up to the end of a span, and those after it. -/
theorem Ordered.split {start mid stop : Nat} {ds : List Decoration} (h : Ordered start ds stop) (hle : start ≤ mid)
    (hle' : mid ≤ stop) :
    Ordered start (ds.takeWhile (belongs mid)) mid ∧ Ordered mid (ds.dropWhile (belongs mid)) stop := by
  induction ds generalizing start with
  | nil => exact ⟨hle, hle'⟩
  | cons d ds ih =>
    by_cases hd : belongs mid d = true
    · have hpos : d.pos ≤ mid := by
        simp only [belongs, Bool.or_eq_true, Bool.and_eq_true, decide_eq_true_eq, beq_iff_eq] at hd
        omega
      obtain ⟨h₁, h₂⟩ := ih h.2 hpos
      rw [List.takeWhile_cons_of_pos hd, List.dropWhile_cons_of_pos hd]
      exact ⟨⟨h.1, h₁⟩, h₂⟩
    · have hpos : mid ≤ d.pos := by
        simp only [belongs, Bool.or_eq_true, decide_eq_true_eq, not_or] at hd
        omega
      rw [List.takeWhile_cons_of_neg hd, List.dropWhile_cons_of_neg hd]
      exact ⟨hle, hpos, h.2⟩

/-! ### Text and runs read back -/

/-- The formatting of a stack as frames. -/
def inlineFrames (stack : List Decoration) : List Frame := stack.map fun d => .inline d.wrapper

@[simp] theorem inlineFrames_cons (d : Decoration) (stack : List Decoration) :
    inlineFrames (d :: stack) = .inline d.wrapper :: inlineFrames stack := rfl

variable {frames : List Frame} {stack stack' : List Decoration}

theorem insideOf_inlineFrames (h : insideOf frames = []) (stack : List Decoration) :
    insideOf (inlineFrames stack ++ frames) = around stack := by
  have hstack : (inlineFrames stack).filterMap (fun | .inline w => some w | .run => none) =
      stack.map Decoration.wrapper := by
    simp [inlineFrames, List.filterMap_map, Function.comp_def]
  unfold insideOf at h ⊢
  rw [List.filterMap_append, List.reverse_append, h, hstack]
  rfl

theorem read_openPieces (frames : List Frame) (stack : List Decoration) :
    readPieces frames (openPieces stack) = some ([], inlineFrames stack ++ frames) := by
  induction stack generalizing frames with
  | nil => rfl
  | cons d stack ih =>
    have hopen : openPieces (d :: stack) = openPieces stack ++ [.openInline d.value d.delimiters] := by
      simp [openPieces]
    rw [hopen]
    exact gather_append_of (ih frames) rfl

theorem read_closePieces (frames : List Frame) (stack : List Decoration) :
    readPieces (inlineFrames stack ++ frames) (closePieces stack) = some ([], frames) := by
  induction stack with
  | nil => rfl
  | cons d stack ih =>
    have hclose : Piece.read (.inline d.wrapper :: (inlineFrames stack ++ frames))
        (.closeInline d.delimiters.closing) = some ([], inlineFrames stack ++ frames) := by
      simp [Piece.read, Decoration.wrapper]
    exact gather_cons _ hclose ih

theorem read_textPieces (frames : List Frame) (style : TextStyle) (s : List Char) :
    readPieces frames (textPieces style s) = some (charsInside (insideOf frames) s, frames) := by
  cases s with
  | nil => rfl
  | cons c s => exact gather_singleton _

/-- A decoration reads in the output as it does in the held text. -/
theorem read_decoration (hf : insideOf frames = []) {d : Decoration} {found : List Placed}
    (h : Token.read stack (.mark d) = some (found, stack')) :
    readPieces (inlineFrames stack ++ frames) d.pieces = some (found, inlineFrames stack' ++ frames) := by
  unfold Token.read at h
  unfold Decoration.pieces
  cases hk : d.kind <;> simp only [hk, reduceCtorEq, Option.some.injEq, Prod.mk.injEq] at h ⊢
  case endInline =>
    cases stack with
    | nil => cases h
    | cons innermost rest =>
      by_cases hw : innermost.wrapper = d.wrapper
      · simp only [hw, if_true, Option.some.injEq, Prod.mk.injEq] at h
        obtain ⟨rfl, rfl⟩ := h
        refine (gather_singleton _).trans ?_
        have hclosing : d.wrapper.delimiters.closing = d.delimiters.closing := rfl
        simp [Piece.read, hw, hclosing]
      · simp [hw] at h
  all_goals
    obtain ⟨rfl, rfl⟩ := h
    refine (gather_singleton _).trans ?_
    simp [Piece.read, insideOf_inlineFrames hf, Decoration.wrapper]

/-- A woven stretch of text reads as its tokens do. -/
theorem read_weave (hf : insideOf frames = []) (style : TextStyle) (text : List Char) {pos stop : Nat}
    {ds : List Decoration} {found : List Placed}
    (h : readTokens stack (tokens text stop pos ds) = some (found, stack')) :
    readPieces (inlineFrames stack ++ frames)
      (weave style text pos ds ++ textPieces style (slice text (offsetAfter pos ds) stop)) =
        some (found, inlineFrames stack' ++ frames) := by
  induction ds generalizing stack pos found with
  | nil =>
    rw [tokens, readTokens_chars] at h
    cases h
    rw [weave, List.nil_append, offsetAfter, read_textPieces, insideOf_inlineFrames hf]
  | cons d ds ih =>
    obtain ⟨first, s₁, rest, hfirst, hrest, rfl⟩ := gather_append_inv h
    rw [show gather Token.read stack _ = _ from readTokens_chars stack (slice text pos d.pos)] at hfirst
    cases hfirst
    obtain ⟨mark, s₂, more, hmark, hmore, rfl⟩ := gather_cons_inv hrest
    have htext := read_textPieces (inlineFrames stack ++ frames) style (slice text pos d.pos)
    rw [insideOf_inlineFrames hf] at htext
    rw [weave, offsetAfter, List.append_assoc, List.append_assoc]
    exact gather_append_of htext (gather_append_of (read_decoration hf hmark) (ih hmore))

/-- The formatting that is open after a stretch of tokens. -/
theorem nest_of_read {text : List Char} {pos stop : Nat} {ds : List Decoration} {found : List Placed}
    (h : readTokens stack (tokens text stop pos ds) = some (found, stack')) : nest stack ds = some stack' := by
  induction ds generalizing stack pos found with
  | nil =>
    rw [tokens, readTokens_chars] at h
    cases h
    rfl
  | cons d ds ih =>
    obtain ⟨first, s₁, rest, hfirst, hrest, rfl⟩ := gather_append_inv h
    rw [show gather Token.read stack _ = _ from readTokens_chars stack (slice text pos d.pos)] at hfirst
    cases hfirst
    obtain ⟨mark, s₂, more, hmark, hmore, rfl⟩ := gather_cons_inv hrest
    rw [nest, Token.after?_of_read hmark]
    exact ih hmore

/-- A span reads as its tokens do, whatever direction it runs in. -/
theorem read_spanPieces (style : TextStyle) (text : List Char) (contextDir : NamedDirection) {r : Run}
    {here : List Decoration} {found : List Placed}
    (h : readTokens stack (tokens text r.stop r.start here) = some (found, stack')) :
    readPieces [] (spanPieces style text contextDir r stack stack' here) = some (found, []) := by
  have hspan : ∀ frames, insideOf frames = [] → readPieces frames (openPieces stack ++
      (weave style text r.start here ++ textPieces style (slice text (offsetAfter r.start here) r.stop)) ++
      closePieces stack') = some (found, frames) := by
    intro frames hf
    have hopen := gather_append_of (read_openPieces frames stack) (read_weave hf style text h)
    simpa using gather_append_of hopen (read_closePieces frames stack')
  unfold spanPieces enterPieces exitPieces
  by_cases hd : NamedDirection.known r.direction = contextDir
  · simpa [hd] using hspan [] rfl
  · have hwrapped : readPieces [] ([.openRun r.direction] ++ _ ++ [.closeRun]) = some ([] ++ found ++ [], []) :=
      gather_append_of (gather_append_of rfl (hspan [.run] rfl)) rfl
    simpa [hd] using hwrapped

theorem tokens_end (text : List Char) {stop : Nat} {ds : List Decoration} (h : Ordered stop ds stop) :
    tokens text stop stop ds = ds.map .mark := by
  induction ds with
  | nil => simp [tokens, slice]
  | cons d ds ih =>
    have hpos : d.pos = stop := Nat.le_antisymm h.2.le h.1
    simp [tokens, slice, hpos, ih (hpos ▸ h.2)]

/-- The runs of a text can be laid out if it can be read, and they read as it does up to its end. -/
theorem read_layRuns (style : TextStyle) {text : List Char} (contextDir : NamedDirection) {rs : List Run} {start : Nat}
    {ds : List Decoration} {found : List Placed} (hrs : Contiguous start rs text.length)
    (hds : Ordered start ds text.length)
    (h : readTokens stack (tokens text text.length start ds) = some (found, stack')) :
    ∃ ps mid left first second, layRuns style text contextDir rs stack ds = some (ps, mid, left) ∧
      readPieces [] ps = some (first, []) ∧ readTokens mid (left.map .mark) = some (second, stack') ∧
      found = first ++ second := by
  induction rs generalizing start stack ds found with
  | nil =>
    obtain rfl : start = text.length := hrs
    rw [tokens_end text hds] at h
    exact ⟨[], stack, ds, [], found, rfl, rfl, h, rfl⟩
  | cons r rs ih =>
    obtain ⟨rfl, hlt, hrest⟩ := hrs
    obtain ⟨hhere, hleft⟩ := hds.split (Nat.le_of_lt hlt) hrest.le
    rw [← List.takeWhile_append_dropWhile (p := belongs r.stop) (l := ds), tokens_append hhere hleft] at h
    obtain ⟨first, mid, rest, hfirst, hmore, rfl⟩ := gather_append_inv h
    obtain ⟨ps, mid', left, second, third, hlay, hread, hends, rfl⟩ := ih hrest hleft hmore
    refine ⟨spanPieces style text contextDir r stack mid (ds.takeWhile (belongs r.stop)) ++ ps, mid', left,
      first ++ second, third, ?_, ?_, hends, by rw [List.append_assoc]⟩
    · simp [layRuns, nest_of_read hfirst, hlay]
    · exact gather_append_of (read_spanPieces style text contextDir hfirst) hread

/-- Decorations without text between them. -/
theorem read_marks {ds : List Decoration} {found : List Placed}
    (h : readTokens stack (ds.map .mark) = some (found, stack')) :
    nest stack ds = some stack' ∧
      readPieces (inlineFrames stack ++ []) (ds.flatMap Decoration.pieces) =
        some (found, inlineFrames stack' ++ []) := by
  induction ds generalizing stack found with
  | nil =>
    cases h
    exact ⟨rfl, rfl⟩
  | cons d ds ih =>
    obtain ⟨mark, mid, more, hmark, hmore, rfl⟩ := gather_cons_inv h
    obtain ⟨hnest, hread⟩ := ih hmore
    rw [nest, Token.after?_of_read hmark]
    exact ⟨hnest, gather_append_of (read_decoration rfl hmark) hread⟩

theorem read_trailPieces {left : List Decoration} {found : List Placed}
    (h : readTokens stack (left.map .mark) = some (found, stack')) :
    nest stack left = some stack' ∧ readPieces [] (trailPieces stack stack' left) = some (found, []) := by
  obtain ⟨hnest, hread⟩ := read_marks h
  refine ⟨hnest, ?_⟩
  cases left with
  | nil =>
    cases h
    rfl
  | cons d left =>
    have hopen := gather_append_of (read_openPieces [] stack) hread
    simpa [trailPieces] using gather_append_of hopen (read_closePieces [] stack')

/-- A text that is cut into runs reads as it did when it was held. -/
theorem read_setText (style : TextStyle) {text : List Char} (contextDir : NamedDirection) {runs : List Run}
    {ds : List Decoration} {found : List Placed} (hruns : Contiguous 0 runs text.length)
    (hds : Ordered 0 ds text.length) (h : readTokens stack (tokens text text.length 0 ds) = some (found, stack')) :
    ∃ ps, setText style text contextDir runs stack ds = some (ps, stack') ∧ readPieces [] ps = some (found, []) := by
  obtain ⟨ps, mid, left, first, second, hlay, hread, hends, rfl⟩ :=
    read_layRuns style contextDir (contiguous_setRuns text contextDir hruns) hds h
  obtain ⟨hnest, htrail⟩ := read_trailPieces hends
  refine ⟨ps ++ trailPieces mid stack' left, ?_, gather_append_of hread htrail⟩
  simp [setText, hlay, hnest]

end WikiTypeset.Latex
