import WikiTypeset.Latex.Emitter

/-!
# Text woven with its decorations

What the writing actions of an emitter write, as rows of pieces. `weave` sets the decorations of a stretch of text at
their offsets, and `nest` follows the open formatting through them; `perform_writeUpTo` says that the loop over the
decorations writes the weave and fails just where `nest` does.
-/

namespace WikiTypeset.Latex

open Action Bidi

/-! ### Rows of pieces -/

/-- The emitter after some pieces, with the formatting that is open then, the ambient direction, and whether the
paragraph is still to begin. -/
def Emitter.advance (e : Emitter) (ps : List Piece) (stack : List Decoration) (contextDir : NamedDirection)
    (startPara : Bool) : Emitter :=
  { e with written := ps.reverse ++ e.written, stack, contextDir, startPara }

/-- The emitter after some pieces that change nothing else. -/
abbrev Emitter.wrote (e : Emitter) (ps : List Piece) : Emitter := e.advance ps e.stack e.contextDir e.startPara

namespace Emitter

variable (e : Emitter) (ps qs : List Piece) (S T : List Decoration) (c d : NamedDirection) (a b : Bool)

@[simp] theorem advance_advance : (e.advance ps S c a).advance qs T d b = e.advance (ps ++ qs) T d b := by
  simp [advance]

@[simp] theorem advance_nil : e.advance [] e.stack e.contextDir e.startPara = e := rfl

@[simp] theorem output_advance : (e.advance ps S c a).output = e.output ++ ps := by simp [advance, output]

@[simp] theorem stack_advance : (e.advance ps S c a).stack = S := rfl

@[simp] theorem contextDir_advance : (e.advance ps S c a).contextDir = c := rfl

@[simp] theorem startPara_advance : (e.advance ps S c a).startPara = a := rfl

@[simp] theorem closed_advance : (e.advance ps S c a).closed = e.closed := rfl

@[simp] theorem style_advance : (e.advance ps S c a).style = e.style := rfl

@[simp] theorem inList_advance : (e.advance ps S c a).inList = e.inList := rfl

@[simp] theorem paragraphDir_advance : (e.advance ps S c a).paragraphDir = e.paragraphDir := rfl

end Emitter

theorem latexOf_append (ps qs : List Piece) : latexOf (ps ++ qs) = latexOf ps ++ latexOf qs := List.flatMap_append ..

/-- A stretch of text; an empty one is nothing. -/
def textPieces (style : TextStyle) (s : List Char) : List Piece := if s.isEmpty then [] else [.text style s]

namespace Decoration

/-- What a decoration is in the output. -/
def pieces (d : Decoration) : List Piece :=
  match d.kind with
  | .startInline => [.openInline d.value d.delimiters]
  | .endInline => [.closeInline d.delimiters.closing]
  | .raw => [.fragment d.value]
  | .startBlock | .endBlock => [.block d.value]
  | .endOfText => []

/-- The open formatting after a decoration, the innermost first; there is none after one that cannot be written. -/
def after? (d : Decoration) (stack : List Decoration) : Option (List Decoration) :=
  match d.kind with
  | .startInline => some (d :: stack)
  | .endInline =>
    match stack with
    | [] => none
    | innermost :: rest => if innermost.value = d.value then some rest else none
  | .endOfText => none
  | .raw | .startBlock | .endBlock => some stack

/-- Why a decoration cannot be written. -/
def refusal (d : Decoration) (stack : List Decoration) : EmitError :=
  match d.kind with
  | .endInline => .mismatch d.value (stack.head?.map (·.value))
  | _ => .unexpected d.kind

end Decoration

/-- The open formatting after some decorations. -/
def nest : List Decoration → List Decoration → Option (List Decoration)
  | stack, [] => some stack
  | stack, d :: ds => (d.after? stack).bind fun stack => nest stack ds

theorem nest_append (stack ds ds' : List Decoration) :
    nest stack (ds ++ ds') = (nest stack ds).bind fun stack => nest stack ds' := by
  induction ds generalizing stack with
  | nil => rfl
  | cons d ds ih =>
    rw [List.cons_append, nest, nest, Option.bind_assoc]
    exact Option.bind_congr fun stack' _ => ih stack'

/-- The offset of the last of some decorations, or the one given. -/
def offsetAfter : Nat → List Decoration → Nat
  | pos, [] => pos
  | _, d :: ds => offsetAfter d.pos ds

/-- The text from an offset on with the given decorations in it, up to the last of them. -/
def weave (style : TextStyle) (text : List Char) : Nat → List Decoration → List Piece
  | _, [] => []
  | pos, d :: ds => textPieces style (Emit.slice text pos d.pos) ++ d.pieces ++ weave style text d.pos ds

/-- The formatting of a stack opened, the outermost first. -/
def openPieces (stack : List Decoration) : List Piece := stack.reverse.map fun d => .openInline d.value d.delimiters

/-- The formatting of a stack closed, the innermost first. -/
def closePieces (stack : List Decoration) : List Piece := stack.map fun d => .closeInline d.delimiters.closing

/-! ### What the writing actions write -/

namespace Emit

variable {e : Emitter}

theorem perform_checkOpen (h : e.closed = false) : checkOpen.perform e = (.ok (), e) := by
  simp [checkOpen, perform_bind, perform_get, h, perform_pure]

theorem perform_put (h : e.closed = false) (p : Piece) : (put p).perform e = (.ok (), e.wrote [p]) := by
  simp [put, perform_bind, perform_checkOpen h, perform_modify, Emitter.advance]

theorem perform_putText (h : e.closed = false) (s : List Char) :
    (putText s).perform e = (.ok (), e.wrote (textPieces e.style s)) := by
  by_cases hs : s.isEmpty
  · simp [putText, perform_checkOpen h, hs, textPieces]
  · simp [putText, perform_bind, perform_checkOpen h, hs, perform_modify, textPieces, Emitter.advance]

/-- A decoration is written if the open formatting admits it, and refused otherwise. -/
theorem perform_putDecoration (h : e.closed = false) (d : Decoration) :
    (putDecoration d).perform e = match d.after? e.stack with
      | some stack => (.ok (), e.advance d.pieces stack e.contextDir e.startPara)
      | none => (.error (d.refusal e.stack), e) := by
  have hput : ∀ (stack : List Decoration) (p : Piece), (put p).perform { e with stack } =
      (.ok (), e.advance [p] stack e.contextDir e.startPara) :=
    fun stack p => perform_put (e := { e with stack }) h p
  cases hk : d.kind with
  | endInline =>
    simp only [putDecoration, hk, perform_bind, perform_get, Decoration.after?, Decoration.refusal, Decoration.pieces]
    rcases hs : e.stack with _ | ⟨innermost, rest⟩
    · simp [perform_throw]
    · by_cases hv : innermost.value = d.value
      · simp [hv, perform_bind, perform_modify, hput]
      · simp [hv, perform_throw]
  | startInline =>
    simp [putDecoration, hk, perform_bind, perform_modify, hput, Decoration.after?, Decoration.pieces]
  | raw => simp [putDecoration, hk, perform_put h, Decoration.after?, Decoration.pieces]
  | startBlock => simp [putDecoration, hk, perform_put h, Decoration.after?, Decoration.pieces]
  | endBlock => simp [putDecoration, hk, perform_put h, Decoration.after?, Decoration.pieces]
  | endOfText => simp [putDecoration, hk, perform_throw, Decoration.after?, Decoration.refusal]

/-- Writing several pieces one after the other. -/
theorem perform_forM_put {α : Type} (h : e.closed = false) (f : α → Piece) (xs : List α) :
    (xs.forM fun x => put (f x)).perform e = (.ok (), e.wrote (xs.map f)) := by
  induction xs generalizing e with
  | nil => rfl
  | cons x xs ih =>
    show (put (f x) >>= fun _ => xs.forM fun x => put (f x)).perform e = _
    rw [perform_bind, perform_put h]
    exact (ih (e := e.wrote [f x]) h).trans (by simp)

theorem perform_openStack (h : e.closed = false) :
    openStack.perform e = (.ok (), e.wrote (openPieces e.stack)) := by
  simp only [openStack, perform_bind, perform_get]
  exact perform_forM_put h _ _

theorem perform_closeStack (h : e.closed = false) :
    closeStack.perform e = (.ok (), e.wrote (closePieces e.stack)) := by
  simp only [closeStack, perform_bind, perform_get]
  exact perform_forM_put h _ _

/-- Whether a decoration belongs to the run that ends at `stop`, as far as its offset decides. -/
def belongs (stop : Nat) (d : Decoration) : Bool := d.pos < stop || (d.pos == stop && d.isEnd)

/-- The loop over the decorations of a run writes the run's weave; it fails just where the formatting does not nest. -/
theorem perform_writeUpTo (h : e.closed = false) (text : List Char) (stop pos : Nat) {here : List Decoration}
    {d : Decoration} (later : List Decoration) (hin : ∀ x ∈ here, belongs stop x = true)
    (hd : belongs stop d = false) :
    match nest e.stack here with
    | some stack => (writeUpTo text stop pos (here ++ d :: later)).perform e =
        (.ok (offsetAfter pos here, d :: later), e.advance (weave e.style text pos here) stack e.contextDir e.startPara)
    | none => ∃ (x : Decoration) (stack : List Decoration) (e' : Emitter),
        (writeUpTo text stop pos (here ++ d :: later)).perform e = (.error (x.refusal stack), e') := by
  induction here generalizing e pos with
  | nil =>
    have hd' : ¬ (d.pos < stop ∨ d.pos = stop ∧ d.isEnd = true) := by simpa [belongs] using hd
    simp [nest, writeUpTo, hd', perform_pure, offsetAfter, weave]
  | cons x here ih =>
    have hx : x.pos < stop ∨ x.pos = stop ∧ x.isEnd = true := by simpa [belongs] using hin x (by simp)
    simp only [List.cons_append, writeUpTo, if_pos hx, perform_bind, perform_putText h]
    rw [perform_putDecoration (e := e.wrote _) h]
    cases hs : x.after? e.stack with
    | none =>
      simp only [nest, hs, Option.bind_none, Emitter.stack_advance]
      exact ⟨x, e.stack, _, rfl⟩
    | some stack =>
      have hrest := ih (e := e.advance (textPieces e.style (slice text pos x.pos) ++ x.pieces) stack e.contextDir
        e.startPara) h x.pos (fun y hy => hin y (by simp [hy]))
      simp only [nest, hs, Option.bind_some, Emitter.stack_advance, Emitter.advance_advance]
      cases hn : nest stack here with
      | none => simpa [hn] using hrest
      | some stack' => simpa [hn, offsetAfter, weave] using hrest

end Emit

end WikiTypeset.Latex
