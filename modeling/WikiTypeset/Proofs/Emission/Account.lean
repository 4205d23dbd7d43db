import WikiTypeset.Proofs.Emission.Coupling

/-!
# A program's text arrives as the ledger has it

An emitter tracks a ledger if what it has written, read back, followed by what it still holds, read in place, is what
the ledger has placed, and if the same formatting is open. Well-nested programs keep this up, so after a final flush
the whole of the text, the fragments and the blocks stand in the output, each inside the formatting it was placed in.
-/

namespace WikiTypeset.Latex

open Action Bidi Emit

/-! ### Turns that are analysed -/

/-- An analysis of one of the turns cuts its text into contiguous runs. -/
def Sound (an : Analyzer) (all : List Turn) : Prop :=
  ∀ t ∈ all, ∀ p, an t.text t.base.base = .ok p → p.Partitions t.text

/-- How a well-nested program may fail: one of its turns cannot be analysed. The emitter stays open. -/
def Unanalysed (an : Analyzer) (all : List Turn) (c : EmitError) (e : Emitter) : Prop :=
  e.closed = false ∧ ∃ cause, c = .analysis cause ∧ ∃ t ∈ all, an t.text t.base.base = .error cause

/-! ### Tokens of a growing text -/

theorem slice_append_left {text : List Char} {i j : Nat} (h : j ≤ text.length) (s : List Char) :
    slice (text ++ s) i j = slice text i j := by
  unfold slice
  by_cases hi : i ≤ text.length
  · rw [List.drop_append_of_le_length hi, List.take_append_of_le_length (by rw [List.length_drop]; omega)]
  · rw [Nat.sub_eq_zero_of_le (by omega), List.take_zero, List.take_zero]

theorem slice_append_right {text : List Char} {i : Nat} (h : i ≤ text.length) (s : List Char) :
    slice (text ++ s) i (text ++ s).length = slice text i text.length ++ s := by
  unfold slice
  rw [List.drop_append_of_le_length h, List.take_of_length_le (by simp; omega), List.take_of_length_le (by simp)]

theorem tokens_extended {text : List Char} {start : Nat} {ds : List Decoration} (h : Ordered start ds text.length)
    (s : List Char) :
    tokens (text ++ s) (text ++ s).length start ds = tokens text text.length start ds ++ s.map .char := by
  induction ds generalizing start with
  | nil => simp only [tokens, slice_append_right h, List.map_append]
  | cons d ds ih =>
    simp only [tokens, slice_append_left h.2.le, ih h.2, List.append_assoc, List.cons_append]

namespace Emitter

variable {e : Emitter} {l : Ledger} {stack : List Decoration} {an : Analyzer} {all : List Turn}

/-- What is held back, as tokens. -/
def tokens (e : Emitter) : List Token := Latex.tokens e.buffer e.buffer.length 0 e.decorations

/-- What has been written and what is held back read as the given items, and the given formatting is open then. -/
def Reads (e : Emitter) (placed : List Placed) (stack : List Decoration) : Prop :=
  ∃ written held, readPieces [] e.output = some (written, []) ∧ readTokens e.stack e.tokens = some (held, stack) ∧
    placed = written ++ held

theorem tokens_recorded (h : Ordered 0 e.decorations e.buffer.length) (d : Decoration) :
    (e.recorded d).tokens = e.tokens ++ [.mark { d with pos := e.pos }] := by
  have hd : Ordered e.buffer.length [{ d with pos := e.pos }] e.buffer.length := ⟨Nat.le_refl _, Nat.le_refl _⟩
  exact (tokens_append h hd).trans (congrArg (e.tokens ++ ·) (tokens_end _ hd))

/-- The emitter tracks the ledger inside the given formatting. -/
structure Tracks (e : Emitter) (an : Analyzer) (stack : List Decoration) (l : Ledger) : Prop extends e.Agrees l where
  analyzer : e.analyzer = an
  isOpen : e.closed = false
  reads : e.Reads l.placed stack

theorem Reads.recorded {placed found : List Placed} {stack' : List Decoration} {d : Decoration}
    (h : e.Reads placed stack) (hordered : Ordered 0 e.decorations e.buffer.length)
    (hd : Token.read stack (.mark { d with pos := e.pos }) = some (found, stack')) :
    (e.recorded d).Reads (placed ++ found) stack' := by
  obtain ⟨written, held, hwritten, hheld, rfl⟩ := h
  refine ⟨written, held ++ found, hwritten, ?_, List.append_assoc _ _ _⟩
  rw [tokens_recorded hordered]
  exact gather_append_of hheld ((gather_singleton _).trans hd)

theorem Reads.extended {placed : List Placed} (h : e.Reads placed stack)
    (hordered : Ordered 0 e.decorations e.buffer.length) (s : List Char) :
    (e.extended s).Reads (placed ++ charsInside (around stack) s) stack := by
  obtain ⟨written, held, hwritten, hheld, rfl⟩ := h
  refine ⟨written, held ++ charsInside (around stack) s, hwritten, ?_, List.append_assoc _ _ _⟩
  have htokens : (e.extended s).tokens = e.tokens ++ s.map .char := tokens_extended hordered s
  rw [htokens]
  exact gather_append_of hheld (readTokens_chars stack s)

/-- Formatting that is carried over opens without writing anything. -/
theorem read_carried {pos : Nat} {carried : List Decoration} (h : ∀ d ∈ carried, opensAt pos d = true)
    (stack : List Decoration) : readTokens stack (carried.map .mark) = some ([], carried.reverse ++ stack) := by
  induction carried generalizing stack with
  | nil => rfl
  | cons d carried ih =>
    have hk : d.kind = .startInline := by
      have := h d (by simp)
      simp only [opensAt, Bool.and_eq_true, decide_eq_true_eq] at this
      exact this.1
    have hd : Token.read stack (.mark d) = some ([], d :: stack) := by simp [Token.read, hk]
    rw [List.reverse_cons, List.append_assoc]
    exact gather_cons _ hd (ih (fun x hx => h x (by simp [hx])) (d :: stack))

theorem ordered_carried (e : Emitter) : Ordered e.buffer.length e.carried e.buffer.length := by
  have hpos : ∀ d ∈ e.carried, d.pos = e.buffer.length := by
    intro d hd
    have := opensAt_of_mem_carried hd
    simp only [opensAt, Bool.and_eq_true, beq_iff_eq] at this
    exact this.2
  generalize e.carried = carried at hpos
  induction carried with
  | nil => exact Nat.le_refl _
  | cons d carried ih =>
    have hd : d.pos = e.buffer.length := hpos d (by simp)
    exact ⟨Nat.le_of_eq hd.symm, hd ▸ ih fun x hx => hpos x (by simp [hx])⟩

theorem read_switchFor (e : Emitter) (runs : List Run) : readPieces [] (e.switchFor runs) = some ([], []) := by
  cases runs with
  | nil => rfl
  | cons r runs =>
    by_cases hs : e.switches r.direction = true
    · simp [switchFor, switchPieces, hs, Piece.read]
    · simp [switchFor, switchPieces, hs]

/-- What is held back is what is due, then the formatting that is carried over. -/
theorem tokens_eq_due (h : Ordered 0 e.decorations e.buffer.length) :
    e.tokens = Latex.tokens e.buffer e.buffer.length 0 e.due ++ e.carried.map .mark := by
  have hdue : Ordered 0 e.due e.buffer.length := (e.due_append_carried ▸ h).of_append
  rw [Emitter.tokens, ← e.due_append_carried, tokens_append hdue e.ordered_carried, tokens_end _ e.ordered_carried]

/-- A turn writes what was held back, so that it reads as before. -/
theorem Reads.turned {placed : List Placed} (h : e.Reads placed stack)
    (hordered : Ordered 0 e.decorations e.buffer.length) {runs : List Run} (hruns : Contiguous 0 runs e.buffer.length) :
    ∃ ps stack', setText e.style e.buffer (e.ambientFor runs) runs e.stack e.due = some (ps, stack') ∧
      (e.turned ps stack' runs).Reads placed stack := by
  obtain ⟨written, held, hwritten, hheld, rfl⟩ := h
  have hdue : Ordered 0 e.due e.buffer.length := (e.due_append_carried ▸ hordered).of_append
  -- What is due is read now; the formatting that is carried over opens with what follows.
  rw [tokens_eq_due hordered] at hheld
  obtain ⟨found, stack', rest, hfound, hrest, rfl⟩ := gather_append_inv hheld
  rw [show gather Token.read stack' _ = _ from read_carried (fun _ => opensAt_of_mem_carried) stack'] at hrest
  cases hrest
  obtain ⟨ps, hset, hread⟩ := read_setText e.style (e.ambientFor runs) hruns hdue hfound
  refine ⟨ps, stack', hset, written ++ ([] ++ found), [], ?_, rfl, by simp⟩
  rw [output_turned]
  exact gather_append_of hwritten (gather_append_of (e.read_switchFor runs) hread)

theorem Tracks.turn (hsound : Sound an all) (h : e.Tracks an stack l) (hall : l.turn.turns ⊆ all) :
    Leaves writeHeld e (fun _ e' => e'.Tracks an stack l.turn) (Unanalysed an all) := by
  by_cases hdue : e.isDue = true
  · have hmem := hall (h.turn_mem hdue)
    have hpart := hsound _ hmem
    have hwrite := perform_writeHeld h.isOpen hdue (by rw [h.analyzer]; exact hpart)
    rw [h.analyzer] at hwrite
    cases ha : an e.buffer e.paragraphDir.base with
    | error cause =>
      simp only [ha] at hwrite
      obtain ⟨e', hperform, hopen⟩ := hwrite
      exact Leaves.of_error hperform ⟨hopen, cause, rfl, _, hmem, ha⟩
    | ok p =>
      obtain ⟨ps, stack', hset, hreads⟩ := h.reads.turned h.ordered (hpart p ha).contiguous
      simp only [ha, hset] at hwrite
      exact Leaves.of_ok hwrite ⟨h.toAgrees.turned _ _ _, h.analyzer, h.isOpen, hreads⟩
  · have hnot : e.isDue = false := by simpa using hdue
    -- Nothing but formatting that is carried over is held back.
    obtain ⟨hbuffer, hnone⟩ : e.buffer = [] ∧ e.due = [] := by simpa [isDue] using hnot
    have hnothing : Contiguous 0 [] e.buffer.length := by rw [hbuffer]; rfl
    obtain ⟨ps, stack', hset, hreads⟩ := h.reads.turned h.ordered hnothing
    simp only [hnone, setText_nil, Option.some.injEq, Prod.mk.injEq] at hset
    obtain ⟨rfl, rfl⟩ := hset
    exact Leaves.of_ok (perform_writeHeld_of_not_isDue hnot)
      ⟨h.toAgrees.turned _ _ _, h.analyzer, h.isOpen, hreads⟩

theorem Reads.wrote {placed : List Placed} (h : e.Reads placed stack) {ps : List Piece}
    (hps : readPieces [] ps = some ([], [])) : (e.wrote ps).Reads placed stack := by
  obtain ⟨written, held, hwritten, hheld, rfl⟩ := h
  refine ⟨written ++ [], held, ?_, hheld, by simp⟩
  rw [output_advance]
  exact gather_append_of hwritten hps

theorem Tracks.extended (h : e.Tracks an stack l) (s : List Char) :
    (e.extended s).Tracks an stack (l.extended s (around stack)) :=
  ⟨h.toAgrees.extended s _, h.analyzer, h.isOpen, h.reads.extended h.ordered s⟩

theorem Tracks.touched (h : e.Tracks an stack l) : e.touched.Tracks an stack l.touched :=
  ⟨h.toAgrees.touched, h.analyzer, h.isOpen, h.reads⟩

theorem Tracks.write (h : e.Tracks an stack l) (text : List Char) :
    Leaves (Emit.write text) e (fun _ e' => e'.Tracks an stack (l.write text (around stack))) (Unanalysed an all) :=
  leaves_write (fun e l => e.Tracks an stack l) (·.toAgrees) (·.touched) (fun s h => h.extended s) h h.isOpen text

/-- Tracking survives all that happens inside some formatting. -/
theorem coupled_tracks (hsound : Sound an all) (stack : List Decoration) :
    Coupled (fun e l => e.Tracks an stack l) (Unanalysed an all) all where
  agrees h := h.toAgrees
  turn h hall := h.turn hsound hall
  lineEnd h hp := by
    refine Leaves.of_ok (perform_put h.isOpen _) ⟨{ h.toAgrees with }, h.analyzer, h.isOpen, h.reads.wrote ?_⟩
    rcases hp with rfl | rfl | rfl <;> rfl
  alike {e e' l l'} h ha hag hplaced _ := by
    refine ⟨hag, ha.analyzer.trans h.analyzer, ha.closed.trans h.isOpen, ?_⟩
    obtain ⟨written, held, hwritten, hheld, htext⟩ := h.reads
    have houtput : e'.output = e.output := congrArg List.reverse ha.written
    have htokens : e'.tokens = e.tokens := by rw [Emitter.tokens, Emitter.tokens, ha.buffer, ha.decorations]
    exact ⟨written, held, by rw [houtput, hwritten], by rw [ha.stack, htokens, hheld], by rw [hplaced, htext]⟩

end Emitter

end WikiTypeset.Latex
