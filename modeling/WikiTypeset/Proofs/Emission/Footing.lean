import WikiTypeset.Proofs.Emission.Account
import WikiTypeset.Proofs.Emission.Held
import WikiTypeset.Proofs.Tex.OneLine

/-!
# Where a line ends and where a paragraph begins

The output is gone through with the state of its last line and its last paragraph; found on the way are the landmarks of
its layout: fragments, blank lines, line breaks and blocks. Held text is gone through in the same way, decoration by
decoration, where formatting that has only been started stands for nothing yet. Main statement: `lay_setText`, by which
a text that is written has the landmarks that it had when it was held, and leaves the last line and the last paragraph
as it did.
-/

namespace WikiTypeset.Latex

open Bidi Emit

/-! ### Landmarks of an output -/

/-- What shows in the layout of an output, besides text and inline formatting. -/
inductive Landmark
  | fragment (value : String)
  | blankLine
  /-- A hard line break; `begun` says whether it comes after something of its paragraph. -/
  | lineBreak (begun : Bool)
  | block (value : String)
  deriving DecidableEq, Repr

/-- The state of the last line and the last paragraph of an output. A paragraph begins anew after a blank line, after a
line break, and at the start and the end of an environment. -/
structure Footing where
  lineEmpty : Bool := true
  /-- Text, a fragment or inline formatting stands in the last paragraph. -/
  begun : Bool := false
  deriving DecidableEq, Repr

/-- Whether the last line is empty after some characters. -/
def emptyAfter (lineEmpty : Bool) (s : List Char) : Bool := (s.getLast?.map (· == '\n')).getD lineEmpty

theorem emptyAfter_concat (lineEmpty : Bool) (s : List Char) (c : Char) :
    emptyAfter lineEmpty (s ++ [c]) = decide (c = '\n') := by
  simp [emptyAfter, Bool.beq_eq_decide_eq]

namespace Footing

/-- Amid a line of a paragraph. -/
def amid : Footing := ⟨false, true⟩

/-- After text, a fragment or the start of inline formatting. -/
def after (f : Footing) (s : List Char) : Footing := ⟨emptyAfter f.lineEmpty s, true⟩

end Footing

/-- The footing after a piece. The end of an empty line is a blank line. -/
def Piece.footing (f : Footing) (p : Piece) : Footing :=
  match p with
  | .text _ _ | .openInline _ _ | .fragment _ => f.after p.latex
  | .newline | .paragraphEnd => ⟨true, f.begun && !f.lineEmpty⟩
  | .block _ | .lineBreak => ⟨emptyAfter f.lineEmpty p.latex, false⟩
  | .closeInline _ | .setDirection _ | .assumeDirection _ | .openRun _ | .closeRun =>
    { f with lineEmpty := emptyAfter f.lineEmpty p.latex }

/-- The landmarks of a piece. -/
def Piece.landmarks (f : Footing) : Piece → List Landmark
  | .fragment value => [.fragment value]
  | .newline | .paragraphEnd => if f.lineEmpty then [.blankLine] else []
  | .lineBreak => [.lineBreak f.begun]
  | .block value => [.block value]
  | _ => []

/-- What a piece adds to the layout, and the footing after it. -/
def Piece.lay (f : Footing) (p : Piece) : Option (List Landmark × Footing) := some (p.landmarks f, p.footing f)

/-- The landmarks of some pieces. -/
abbrev layPieces : Footing → List Piece → Option (List Landmark × Footing) := gather Piece.lay

theorem lay_piece (f : Footing) (p : Piece) : layPieces f [p] = some (p.landmarks f, p.footing f) := gather_singleton p

/-! ### Landmarks of held text -/

/-- What a token adds to the layout, with the footing and the open formatting after it. The start of formatting is
nothing by itself; its end comes after a command that has been written. -/
def Token.lay (a : Footing × List Decoration) : Token → Option (List Landmark × Footing × List Decoration)
  | .char _ => some ([], .amid, a.2)
  | .mark d =>
    match d.kind with
    | .startInline => some ([], a.1, d :: a.2)
    | .endInline => (d.after? a.2).map fun stack => ([], .amid, stack)
    | .raw => some ([.fragment d.value], if a.2.isEmpty then a.1.after d.value.toList else .amid, a.2)
    | .startBlock | .endBlock | .endOfText => none

/-- The landmarks of some tokens. -/
abbrev layTokens : Footing × List Decoration → List Token → Option (List Landmark × Footing × List Decoration) :=
  gather Token.lay

theorem Token.after?_of_lay {f f' : Footing} {stack stack' : List Decoration} {d : Decoration} {ms : List Landmark}
    (h : Token.lay (f, stack) (.mark d) = some (ms, f', stack')) : d.after? stack = some stack' := by
  unfold Token.lay at h
  cases hk : d.kind <;> simp only [hk, reduceCtorEq, Option.map_eq_some_iff, Option.some.injEq, Prod.mk.injEq] at h
  case startInline => simpa [Decoration.after?, hk] using h.2.2
  case raw => simpa [Decoration.after?, hk] using h.2.2
  case endInline =>
    obtain ⟨stack, hafter, -, -, rfl⟩ := h
    exact hafter

/-- Neither the landmarks of held text nor the formatting after it depend on what comes before. -/
theorem layTokens_from {f f' : Footing} {stack stack' : List Decoration} {ts : List Token} {ms : List Landmark}
    (h : layTokens (f, stack) ts = some (ms, f', stack')) (g : Footing) :
    ∃ g', layTokens (g, stack) ts = some (ms, g', stack') := by
  induction ts generalizing f g stack ms with
  | nil =>
    cases h
    exact ⟨g, rfl⟩
  | cons t ts ih =>
    obtain ⟨first, ⟨f₁, s₁⟩, rest, hfirst, hrest, rfl⟩ := gather_cons_inv h
    obtain ⟨g₁, hg₁⟩ : ∃ g₁, Token.lay (g, stack) t = some (first, g₁, s₁) := by
      unfold Token.lay at hfirst ⊢
      cases t with
      | char c =>
        cases hfirst
        exact ⟨_, rfl⟩
      | mark d =>
        cases hk : d.kind <;> simp only [hk, reduceCtorEq] at hfirst ⊢
        case endInline =>
          obtain ⟨stack', hafter, h'⟩ := Option.map_eq_some_iff.1 hfirst
          cases h'
          exact ⟨_, by rw [hafter]; rfl⟩
        all_goals
          cases hfirst
          exact ⟨_, rfl⟩
    obtain ⟨g', hg'⟩ := ih hrest g₁
    exact ⟨g', gather_cons t hg₁ hg'⟩

theorem layTokens_chars (a : Footing × List Decoration) (s : List Char) :
    layTokens a (s.map .char) = some ([], if s.isEmpty then a.1 else .amid, a.2) := by
  induction s generalizing a with
  | nil => rfl
  | cons c s ih =>
    have hrest := ih (.amid, a.2)
    have hcons : layTokens a (.char c :: s.map .char) = some ([] ++ [], if s.isEmpty then .amid else .amid, a.2) :=
      gather_cons _ rfl hrest
    simpa using hcons

/-- A span of text that is not empty ends amid a line: after its last character only formatting is ended. -/
theorem layTokens_span {text : List Char} {stop pos : Nat} {f f' : Footing} {stack stack' ds : List Decoration}
    {ms : List Landmark} (hds : Ordered pos ds stop) (hin : ∀ d ∈ ds, belongs stop d = true) (hstop : stop ≤ text.length)
    (hf : pos < stop ∨ f = .amid) (h : layTokens (f, stack) (tokens text stop pos ds) = some (ms, f', stack')) :
    f' = .amid := by
  induction ds generalizing pos f stack ms with
  | nil =>
    rw [tokens, layTokens_chars] at h
    cases h
    rcases hf with hlt | rfl
    · have hne : slice text pos stop ≠ [] := by
        have hlength : (slice text pos stop).length = stop - pos := by simp [slice]; omega
        exact List.ne_nil_of_length_pos (by omega)
      simp [hne]
    · simp
  | cons d ds ih =>
    obtain ⟨first, ⟨f₁, s₁⟩, rest, hfirst, hrest, rfl⟩ := gather_append_inv h
    rw [show gather Token.lay (f, stack) _ = _ from layTokens_chars (f, stack) (slice text pos d.pos)] at hfirst
    cases hfirst
    obtain ⟨mark, ⟨f₂, s₂⟩, more, hmark, hmore, rfl⟩ := gather_cons_inv hrest
    have hbelongs : d.pos < stop ∨ d.pos = stop ∧ d.isEnd = true := by simpa [belongs] using hin d (by simp)
    refine ih hds.2 (fun x hx => hin x (by simp [hx])) ?_ hmore
    rcases hbelongs with hlt | ⟨-, hends⟩
    · exact .inl hlt
    · right
      -- What ends at the end of a span is formatting: blocks do not stand among text.
      unfold Token.lay at hmark
      cases hk : d.kind <;> simp only [hk, reduceCtorEq, Option.map_eq_some_iff, Prod.mk.injEq] at hmark
      case endInline =>
        obtain ⟨_, -, -, rfl, -⟩ := hmark
        rfl
      all_goals simp [Decoration.isEnd, hk] at hends

/-! ### The pieces of a text -/

/-- Delimiters that are visible and do not end a line. -/
structure Delimiters.OnLine (d : Delimiters) : Prop where
  opening : d.opening.toList ≠ [] ∧ Unbroken d.opening.toList
  closing : d.closing.toList ≠ [] ∧ Unbroken d.closing.toList

instance (d : Delimiters) : Decidable d.OnLine :=
  decidable_of_iff ((d.opening.toList ≠ [] ∧ Unbroken d.opening.toList) ∧
    d.closing.toList ≠ [] ∧ Unbroken d.closing.toList) ⟨fun h => ⟨h.1, h.2⟩, fun h => ⟨h.opening, h.closing⟩⟩

theorem emptyAfter_of_unbroken (lineEmpty : Bool) (s : List Char) {t : List Char} (ht : t ≠ []) (hunbroken : Unbroken t) :
    emptyAfter lineEmpty (s ++ t) = false := by
  obtain ⟨c, hc⟩ : ∃ c, t.getLast? = some c := Option.ne_none_iff_exists'.1 (by simpa using ht)
  have hmem : c ∈ t := List.mem_of_getLast? hc
  have hlast : (s ++ t).getLast? = some c := by simp [List.getLast?_append, hc]
  simp [emptyAfter, hlast, (hunbroken c hmem).1]

/-- Where pieces stand against the tokens that they come from: outside formatting they stand alike, and inside it
something has been written at any rate. -/
structure Footing.Matches (g f : Footing) (stack : List Decoration) : Prop where
  outside : stack = [] → g = f
  inside : stack ≠ [] → g.begun = true

/-- Formatting has the delimiters of its decorations. -/
theorem inherits_onLine : Inherits (fun d => d.delimiters.OnLine) (fun d => d.delimiters.OnLine) fun _ => True where
  text _ _ := trivial
  openRun _ := trivial
  closeRun := trivial
  opening _ := trivial
  closing _ := trivial
  pieces _ _ _ := trivial
  stacked _ hd := hd

section Pieces

variable {f f' g : Footing} {stack stack' ds : List Decoration} {ms : List Landmark} {text : List Char}

theorem lay_textPieces (f : Footing) (style : TextStyle) {s : List Char} (hs : Unbroken s) :
    layPieces f (textPieces style s) = some ([], if s.isEmpty then f else .amid) := by
  cases s with
  | nil => rfl
  | cons c s =>
    have hstays := stays_escape style hs
    have hne : style.escape (c :: s) ≠ [] := fun hnil => List.cons_ne_nil c s (hstays.eq_nil hnil)
    have hline : emptyAfter f.lineEmpty (style.escape (c :: s)) = false :=
      emptyAfter_of_unbroken f.lineEmpty [] hne hstays.unbroken
    have hfooting : (Piece.text style (c :: s)).footing f = .amid := congrArg (Footing.mk · true) hline
    have htext : textPieces style (c :: s) = [.text style (c :: s)] := rfl
    rw [htext, lay_piece, hfooting]
    rfl

theorem lay_openInline (f : Footing) (command : String) {d : Delimiters} (hd : d.OnLine) :
    layPieces f [.openInline command d] = some ([], .amid) := by
  have hline := emptyAfter_of_unbroken f.lineEmpty command.toList hd.opening.1 hd.opening.2
  have hfooting : (Piece.openInline command d).footing f = .amid := congrArg (Footing.mk · true) hline
  rw [lay_piece, hfooting]
  rfl

theorem lay_closeInline (f : Footing) {d : Delimiters} (hd : d.OnLine) :
    layPieces f [.closeInline d.closing] = some ([], { f with lineEmpty := false }) := by
  have hline : emptyAfter f.lineEmpty d.closing.toList = false :=
    emptyAfter_of_unbroken f.lineEmpty [] hd.closing.1 hd.closing.2
  have hfooting : (Piece.closeInline d.closing).footing f = { f with lineEmpty := false } :=
    congrArg (Footing.mk · f.begun) hline
  rw [lay_piece, hfooting]
  rfl

theorem lay_openPieces (f : Footing) (hstack : ∀ d ∈ stack, d.delimiters.OnLine) :
    layPieces f (openPieces stack) = some ([], if stack.isEmpty then f else .amid) := by
  induction stack with
  | nil => rfl
  | cons d stack ih =>
    obtain ⟨hd, hrest⟩ := List.forall_mem_cons.1 hstack
    have hopen : openPieces (d :: stack) = openPieces stack ++ [.openInline d.value d.delimiters] := by
      simp [openPieces]
    rw [hopen]
    exact gather_append_of (ih hrest) (lay_openInline _ _ hd)

theorem lay_closePieces (f : Footing) (hstack : ∀ d ∈ stack, d.delimiters.OnLine) :
    layPieces f (closePieces stack) = some ([], if stack.isEmpty then f else { f with lineEmpty := false }) := by
  induction stack generalizing f with
  | nil => rfl
  | cons d stack ih =>
    obtain ⟨hd, hrest⟩ := List.forall_mem_cons.1 hstack
    have hclosed := gather_append_of (lay_closeInline f hd) (ih { f with lineEmpty := false } hrest)
    simpa [closePieces] using hclosed

/-- A decoration shows in the output as it does in the held text. -/
theorem lay_decoration {d : Decoration} (hd : d.delimiters.OnLine) (hg : g.Matches f stack)
    (h : Token.lay (f, stack) (.mark d) = some (ms, f', stack')) :
    ∃ g', layPieces g d.pieces = some (ms, g') ∧ g'.Matches f' stack' := by
  unfold Token.lay at h
  cases hk : d.kind <;> simp only [hk, reduceCtorEq, Option.some.injEq, Prod.mk.injEq] at h
  case startInline =>
    obtain ⟨rfl, rfl, rfl⟩ := h
    have hopen := lay_openInline g d.value hd
    exact ⟨.amid, by simpa [Decoration.pieces, hk] using hopen, nofun, fun _ => rfl⟩
  case endInline =>
    obtain ⟨rest, hafter, h⟩ := Option.map_eq_some_iff.1 h
    cases h
    have hinside : stack ≠ [] := by
      rintro rfl
      simp [Decoration.after?, hk] at hafter
    have hbegun := hg.inside hinside
    have hclose := lay_closeInline g hd
    refine ⟨{ g with lineEmpty := false }, by simpa [Decoration.pieces, hk] using hclose, fun _ => ?_, fun _ => hbegun⟩
    rw [hbegun]
    rfl
  case raw =>
    obtain ⟨rfl, rfl, rfl⟩ := h
    have hfragment : layPieces g [.fragment d.value] = some ([.fragment d.value], g.after d.value.toList) :=
      lay_piece g _
    refine ⟨g.after d.value.toList, by simpa [Decoration.pieces, hk] using hfragment, fun hstack => ?_, fun _ => rfl⟩
    rw [hg.outside hstack, hstack]
    rfl

/-- A woven stretch of text shows as its tokens do. -/
theorem lay_weave (style : TextStyle) (htext : Unbroken text) {pos stop : Nat}
    (hds : ∀ d ∈ ds, d.delimiters.OnLine) (hg : g.Matches f stack)
    (h : layTokens (f, stack) (tokens text stop pos ds) = some (ms, f', stack')) :
    ∃ g', layPieces g (weave style text pos ds ++ textPieces style (slice text (offsetAfter pos ds) stop)) =
      some (ms, g') ∧ g'.Matches f' stack' := by
  have hslice : ∀ i j, Unbroken (slice text i j) := fun i j =>
    htext.mono (List.Subset.trans (List.take_subset _ _) (List.drop_subset _ _))
  -- Text stands amid a line, in the pieces and among the tokens.
  have hchars : ∀ {g f stack} i j, Footing.Matches g f stack →
      Footing.Matches (if (slice text i j).isEmpty then g else .amid) (if (slice text i j).isEmpty then f else .amid)
        stack := by
    intro g f stack i j hg
    split
    · exact hg
    · exact ⟨fun _ => rfl, fun _ => rfl⟩
  induction ds generalizing f g stack pos ms with
  | nil =>
    rw [tokens, layTokens_chars] at h
    cases h
    exact ⟨_, lay_textPieces g style (hslice _ _), hchars _ _ hg⟩
  | cons d ds ih =>
    obtain ⟨hd, hrest⟩ := List.forall_mem_cons.1 hds
    obtain ⟨first, ⟨f₁, s₁⟩, rest, hfirst, hmarks, rfl⟩ := gather_append_inv h
    rw [show gather Token.lay (f, stack) _ = _ from layTokens_chars (f, stack) (slice text pos d.pos)] at hfirst
    cases hfirst
    obtain ⟨mark, ⟨f₂, s₂⟩, more, hmark, hmore, rfl⟩ := gather_cons_inv hmarks
    obtain ⟨g₂, hpieces, hg₂⟩ := lay_decoration hd (hchars pos d.pos hg) hmark
    obtain ⟨g₃, hrow, hg₃⟩ := ih hrest hg₂ hmore
    refine ⟨g₃, ?_, hg₃⟩
    rw [weave, offsetAfter, List.append_assoc, List.append_assoc]
    exact gather_append_of (lay_textPieces g style (hslice _ _)) (gather_append_of hpieces hrow)

theorem nest_of_lay {pos stop : Nat} (h : layTokens (f, stack) (tokens text stop pos ds) = some (ms, f', stack')) :
    nest stack ds = some stack' := by
  induction ds generalizing f stack pos ms with
  | nil =>
    rw [tokens, layTokens_chars] at h
    cases h
    rfl
  | cons d ds ih =>
    obtain ⟨first, ⟨f₁, s₁⟩, rest, hfirst, hmarks, rfl⟩ := gather_append_inv h
    rw [show gather Token.lay (f, stack) _ = _ from layTokens_chars (f, stack) (slice text pos d.pos)] at hfirst
    cases hfirst
    obtain ⟨mark, ⟨f₂, s₂⟩, more, hmark, hmore, rfl⟩ := gather_cons_inv hmarks
    rw [nest, Token.after?_of_lay hmark]
    exact ih hmore

theorem lay_opened (f : Footing) (hstack : ∀ d ∈ stack, d.delimiters.OnLine) :
    ∃ g, layPieces f (openPieces stack) = some ([], g) ∧ g.Matches f stack := by
  refine ⟨_, lay_openPieces f hstack, fun h => ?_, fun h => ?_⟩
  · simp [h]
  · simp [h, Footing.amid]

/-- Once the formatting is closed, the pieces stand where the tokens do. -/
theorem lay_closed (hg : g.Matches f stack) (hf : stack ≠ [] → f = .amid)
    (hstack : ∀ d ∈ stack, d.delimiters.OnLine) : layPieces g (closePieces stack) = some ([], f) := by
  rw [lay_closePieces g hstack]
  by_cases h : stack = []
  · simp [h, hg.outside h]
  · rw [hf h]
    simp [h, hg.inside h, Footing.amid]

/-- A span shows as its tokens do and ends amid a line, whatever direction it runs in. -/
theorem lay_spanPieces (style : TextStyle) (htext : Unbroken text) (contextDir : NamedDirection) {r : Run}
    {here : List Decoration} (hhere : Ordered r.start here r.stop) (hin : ∀ d ∈ here, belongs r.stop d = true)
    (hlt : r.start < r.stop) (hstop : r.stop ≤ text.length) (hds : ∀ d ∈ here, d.delimiters.OnLine)
    (hstack : ∀ d ∈ stack, d.delimiters.OnLine) (hstack' : ∀ d ∈ stack', d.delimiters.OnLine) (g : Footing)
    (h : layTokens (f, stack) (tokens text r.stop r.start here) = some (ms, f', stack')) :
    layPieces g (spanPieces style text contextDir r stack stack' here) = some (ms, .amid) := by
  have hspan : ∀ g, layPieces g (openPieces stack ++ (weave style text r.start here ++
      textPieces style (slice text (offsetAfter r.start here) r.stop)) ++ closePieces stack') = some (ms, .amid) := by
    intro g
    obtain ⟨f₁, hfrom⟩ := layTokens_from h g
    obtain rfl : f₁ = .amid := layTokens_span hhere hin hstop (.inl hlt) hfrom
    obtain ⟨g₁, hopen, hg₁⟩ := lay_opened g hstack
    obtain ⟨g₂, hweave, hg₂⟩ := lay_weave style htext hds hg₁ hfrom
    have hclose := lay_closed hg₂ (fun _ => rfl) hstack'
    simpa using gather_append_of (gather_append_of hopen hweave) hclose
  unfold spanPieces enterPieces exitPieces
  by_cases hd : NamedDirection.known r.direction = contextDir
  · simpa [hd] using hspan g
  · have hexit : layPieces .amid [.closeRun] = some ([], .amid) := lay_piece _ _
    have hwrapped := gather_append_of (gather_append_of (lay_piece g (.openRun r.direction)) (hspan _)) hexit
    simpa [hd, Piece.landmarks] using hwrapped

/-- The runs of a text show as its tokens do up to its end, and leave what follows its last character. -/
theorem lay_layRuns (style : TextStyle) (htext : Unbroken text) (contextDir : NamedDirection) {rs : List Run}
    {start : Nat} {mid left : List Decoration} {ps : List Piece} (hrs : Contiguous start rs text.length)
    (hordered : Ordered start ds text.length) (hds : ∀ d ∈ ds, d.delimiters.OnLine)
    (hstack : ∀ d ∈ stack, d.delimiters.OnLine)
    (hlay : layRuns style text contextDir rs stack ds = some (ps, mid, left))
    (h : layTokens (f, stack) (tokens text text.length start ds) = some (ms, f', stack')) (hg : rs = [] → g = f) :
    ∃ first second f₁, layPieces g ps = some (first, f₁) ∧ layTokens (f₁, mid) (left.map .mark) =
      some (second, f', stack') ∧ ms = first ++ second ∧ left <:+ ds ∧ Ordered text.length left text.length ∧
      ∀ d ∈ mid, d.delimiters.OnLine := by
  induction rs generalizing start stack ds ps f g ms with
  | nil =>
    obtain rfl : start = text.length := hrs
    simp only [layRuns, Option.some.injEq, Prod.mk.injEq] at hlay
    obtain ⟨rfl, rfl, rfl⟩ := hlay
    obtain rfl := hg rfl
    rw [tokens_end text hordered] at h
    exact ⟨[], ms, g, rfl, h, rfl, List.suffix_refl ds, hordered, hstack⟩
  | cons r rs ih =>
    obtain ⟨rfl, hlt, hrest⟩ := hrs
    obtain ⟨hhere, hleft⟩ := hordered.split (Nat.le_of_lt hlt) hrest.le
    have hin : ∀ d ∈ ds.takeWhile (belongs r.stop), belongs r.stop d = true := fun d hd => List.mem_takeWhile_imp hd
    have hdsHere : ∀ d ∈ ds.takeWhile (belongs r.stop), d.delimiters.OnLine := fun d hd =>
      hds d (List.takeWhile_subset _ hd)
    simp only [layRuns, Option.bind_eq_bind] at hlay
    obtain ⟨stack₁, hnest, hlay⟩ := Option.bind_eq_some_iff.1 hlay
    obtain ⟨⟨ps', mid', left'⟩, hlay', hpure⟩ := Option.bind_eq_some_iff.1 hlay
    cases hpure
    rw [← List.takeWhile_append_dropWhile (p := belongs r.stop) (l := ds), tokens_append hhere hleft] at h
    obtain ⟨first, ⟨f₁, s₁⟩, rest, hfirst, hmore, rfl⟩ := gather_append_inv h
    obtain rfl : stack₁ = s₁ := Option.some.inj (hnest.symm.trans (nest_of_lay hfirst))
    have hstack₁ := inherits_onLine.nest hdsHere hstack hnest
    have hspan := lay_spanPieces style htext contextDir hhere hin hlt hrest.le hdsHere hstack hstack₁ g hfirst
    obtain rfl : f₁ = .amid := layTokens_span hhere hin hrest.le (.inl hlt) hfirst
    obtain ⟨second, third, f₂, hpieces, hmarks, rfl, hsuffix, hends, hmid⟩ :=
      ih hrest hleft (fun d hd => hds d (List.dropWhile_subset _ hd)) hstack₁ hlay' hmore fun _ => rfl
    refine ⟨first ++ second, third, f₂, gather_append_of hspan hpieces, hmarks, by rw [List.append_assoc], ?_, hends, hmid⟩
    exact hsuffix.trans (List.dropWhile_suffix _)

/-- Decorations without text between them. -/
theorem lay_marks (hds : ∀ d ∈ ds, d.delimiters.OnLine) (hg : g.Matches f stack)
    (h : layTokens (f, stack) (ds.map .mark) = some (ms, f', stack')) :
    ∃ g', layPieces g (ds.flatMap Decoration.pieces) = some (ms, g') ∧ g'.Matches f' stack' := by
  induction ds generalizing f g stack ms with
  | nil =>
    cases h
    exact ⟨g, rfl, hg⟩
  | cons d ds ih =>
    obtain ⟨hd, hrest⟩ := List.forall_mem_cons.1 hds
    obtain ⟨mark, ⟨f₁, s₁⟩, more, hmark, hmore, rfl⟩ := gather_cons_inv h
    obtain ⟨g₁, hpieces, hg₁⟩ := lay_decoration hd hg hmark
    obtain ⟨g₂, hrow, hg₂⟩ := ih hrest hg₁ hmore
    exact ⟨g₂, gather_append_of hpieces hrow, hg₂⟩

/-- After a decoration inside formatting that does not start any, more of the line has been written. -/
theorem amid_of_last {d : Decoration} (hd : d.kind ≠ .startInline)
    (h : layTokens (f, stack) ((ds ++ [d]).map .mark) = some (ms, f', stack')) (hstack : stack' ≠ []) : f' = .amid := by
  rw [List.map_append] at h
  obtain ⟨first, ⟨f₁, s₁⟩, rest, hfirst, hlast, rfl⟩ := gather_append_inv h
  have hmark : Token.lay (f₁, s₁) (.mark d) = some (rest, f', stack') := (gather_singleton _).symm.trans hlast
  unfold Token.lay at hmark
  cases hk : d.kind <;> simp only [hk, reduceCtorEq, Option.map_eq_some_iff, Option.some.injEq, Prod.mk.injEq] at hmark
  case startInline => exact absurd hk hd
  case endInline =>
    obtain ⟨_, -, -, rfl, -⟩ := hmark
    rfl
  case raw =>
    obtain ⟨-, rfl, rfl⟩ := hmark
    simp [hstack]

theorem lay_trailPieces {left : List Decoration} (hds : ∀ d ∈ left, d.delimiters.OnLine)
    (hstack : ∀ d ∈ stack, d.delimiters.OnLine) (hstack' : ∀ d ∈ stack', d.delimiters.OnLine)
    (hlast : ∀ d ∈ left.getLast?, d.kind ≠ .startInline)
    (h : layTokens (f, stack) (left.map .mark) = some (ms, f', stack')) :
    layPieces f (trailPieces stack stack' left) = some (ms, f') := by
  rcases List.eq_nil_or_concat left with rfl | ⟨init, d, rfl⟩
  · cases h
    rfl
  · rw [List.concat_eq_append] at hds hlast h ⊢
    have hd : d.kind ≠ .startInline := hlast d (by simp)
    obtain ⟨g₁, hopen, hg₁⟩ := lay_opened f hstack
    obtain ⟨g₂, hmarks, hg₂⟩ := lay_marks hds hg₁ h
    have hclose := lay_closed hg₂ (amid_of_last hd h) hstack'
    have hall := gather_append_of (gather_append_of hopen hmarks) hclose
    simpa [trailPieces] using hall

theorem Ordered.pos_eq {stop : Nat} (h : Ordered stop ds stop) : ∀ d ∈ ds, d.pos = stop := by
  induction ds with
  | nil => nofun
  | cons d ds ih =>
    have hpos : d.pos = stop := Nat.le_antisymm h.2.le h.1
    exact List.forall_mem_cons.2 ⟨hpos, ih (hpos ▸ h.2)⟩

/-- A text that is due shows in the output as it did when it was held. Where it has characters, what stands before it
does not matter. -/
theorem lay_setText (style : TextStyle) (htext : Unbroken text) (contextDir : NamedDirection) {runs : List Run}
    {stack'' : List Decoration} {ps : List Piece} (hruns : Contiguous 0 runs text.length)
    (hordered : Ordered 0 ds text.length) (hds : ∀ d ∈ ds, d.delimiters.OnLine)
    (hstack : ∀ d ∈ stack, d.delimiters.OnLine) (hlast : ∀ d ∈ ds.getLast?, opensAt text.length d = false)
    (hset : setText style text contextDir runs stack ds = some (ps, stack''))
    (h : layTokens (f, stack) (tokens text text.length 0 ds) = some (ms, f', stack')) (hg : runs = [] → g = f) :
    layPieces g ps = some (ms, f') ∧ stack'' = stack' := by
  simp only [setText, Option.bind_eq_bind] at hset
  obtain ⟨⟨ps', mid, left⟩, hlay, hrest⟩ := Option.bind_eq_some_iff.1 hset
  obtain ⟨last, hnest, hpure⟩ := Option.bind_eq_some_iff.1 hrest
  cases hpure
  have hfirst : setRuns text contextDir runs = [] → g = f := by
    cases runs with
    | nil => exact fun _ => hg rfl
    | cons r rs => simp [setRuns_cons]
  obtain ⟨first, second, f₁, hpieces, hmarks, rfl, hsuffix, hends, hmid⟩ :=
    lay_layRuns style htext contextDir (contiguous_setRuns text contextDir hruns) hordered hds hstack hlay h hfirst
  have hleft : ∀ d ∈ left, d.delimiters.OnLine := fun d hd => hds d (hsuffix.subset hd)
  have hsame : stack'' = stack' := by
    have htokens := hmarks
    rw [← tokens_end text hends] at htokens
    exact Option.some.inj (hnest.symm.trans (nest_of_lay htokens))
  subst hsame
  have hstack' := inherits_onLine.nest hleft hmid hnest
  have hlastLeft : ∀ d ∈ left.getLast?, d.kind ≠ .startInline := by
    intro d hd hk
    have hmem : d ∈ left := List.mem_of_getLast? hd
    have hopens : opensAt text.length d = true := by simp [opensAt, hk, hends.pos_eq d hmem]
    obtain ⟨before, rfl⟩ := hsuffix
    rw [hlast d (by simp [List.getLast?_append, Option.mem_def.1 hd])] at hopens
    cases hopens
  exact ⟨gather_append_of hpieces (lay_trailPieces hleft hmid hstack' hlastLeft hmarks), rfl⟩

end Pieces

end WikiTypeset.Latex
