import WikiTypeset.Proofs.Emission.Ledger
import WikiTypeset.Proofs.Leaves

/-!
# Emitters and their ledgers

`Emitter.Agrees` says that an emitter is where a ledger says it is. A relation that implies it and survives a turn, the
pieces that end lines, and the marks of the breaks survives every break: these are the lemmas of `Coupled`.
-/

namespace WikiTypeset.Latex

open Action Bidi Emit

/-! ### Held text split at its end -/

/-- Whether a decoration is formatting that starts at the given offset. -/
def opensAt (pos : Nat) (d : Decoration) : Bool := d.kind = .startInline && d.pos == pos

theorem splitCarried_eq (pos : Nat) (ds : List Decoration) :
    splitCarried pos ds = ((ds.reverse.dropWhile (opensAt pos)).reverse, (ds.reverse.takeWhile (opensAt pos)).reverse) := by
  have hsplit : ds = (ds.reverse.dropWhile (opensAt pos)).reverse ++ (ds.reverse.takeWhile (opensAt pos)).reverse := by
    rw [← List.reverse_append, List.takeWhile_append_dropWhile, List.reverse_reverse]
  have hlength : ds.length - (ds.reverse.takeWhile (opensAt pos)).reverse.length =
      (ds.reverse.dropWhile (opensAt pos)).reverse.length := by
    have := congrArg List.length hsplit
    rw [List.length_append] at this
    omega
  have htake : ds.take (ds.length - (ds.reverse.takeWhile (opensAt pos)).reverse.length) =
      (ds.reverse.dropWhile (opensAt pos)).reverse := by
    rw [hlength]
    exact (congrArg (List.take _) hsplit).trans (List.take_left' rfl)
  exact Prod.ext htake rfl

namespace Emitter

variable {e : Emitter} {l : Ledger}

theorem due_append_carried (e : Emitter) : e.due ++ e.carried = e.decorations := by
  rw [due, carried, splitCarried_eq, ← List.reverse_append, List.takeWhile_append_dropWhile, List.reverse_reverse]

/-- The formatting that is carried over starts at the end of the text. -/
theorem opensAt_of_mem_carried {d : Decoration} (h : d ∈ e.carried) : opensAt e.pos d = true := by
  rw [carried, splitCarried_eq, List.mem_reverse] at h
  exact List.mem_takeWhile_imp h

/-- The formatting that is open once the decorations that are held back are counted in. -/
def opened? (e : Emitter) : Option (List Decoration) := nest e.stack e.decorations

theorem nest_of_opensAt {pos : Nat} {ds : List Decoration} (h : ∀ d ∈ ds, opensAt pos d = true)
    (stack : List Decoration) : nest stack ds = some (ds.reverse ++ stack) := by
  induction ds generalizing stack with
  | nil => rfl
  | cons d ds ih =>
    obtain ⟨hd, hds⟩ := List.forall_mem_cons.1 h
    have hkind : d.kind = .startInline := of_decide_eq_true (Bool.and_eq_true_iff.1 hd).1
    have hafter : d.after? stack = some (d :: stack) := by simp only [Decoration.after?, hkind]
    rw [nest, hafter, Option.bind_some, ih hds, List.reverse_cons, List.append_assoc]
    rfl

/-- The formatting that is carried over opens on top of what is open after the rest. -/
theorem opened?_eq (e : Emitter) : e.opened? = (nest e.stack e.due).map (e.carried.reverse ++ ·) := by
  rw [opened?, ← e.due_append_carried, nest_append, Option.map_eq_bind]
  exact Option.bind_congr fun stack _ => nest_of_opensAt (fun _ => opensAt_of_mem_carried) stack

/-- The emitter with one more decoration. -/
def recorded (e : Emitter) (d : Decoration) : Emitter :=
  { e with decorations := e.decorations ++ [{ d with pos := e.pos }] }.touched

/-- The emitter with more text. -/
def extended (e : Emitter) (s : List Char) : Emitter := { e with buffer := e.buffer ++ s }

theorem isDue_recorded (e : Emitter) (d : Decoration) :
    (e.recorded d).isDue = (e.isDue || decide (d.kind ≠ .startInline)) := by
  have hreverse : (e.recorded d).decorations.reverse = { d with pos := e.pos } :: e.decorations.reverse := by
    simp [recorded, touched]
  have hpos : (e.recorded d).pos = e.pos := rfl
  have hbuffer : (e.recorded d).buffer = e.buffer := rfl
  rw [isDue, isDue, due, due, splitCarried_eq, splitCarried_eq, hreverse, hpos, hbuffer]
  by_cases hk : d.kind = .startInline
  · simp [opensAt, hk]
  · simp [opensAt, hk]

theorem isDue_extended (e : Emitter) {s : List Char} (h : s ≠ []) : (e.extended s).isDue = true := by
  simp [isDue, extended, h]

/-- What is held back is written if its formatting nests, and is refused otherwise, as long as the text can be analysed. -/
theorem leaves_writeHeld_opened (hanalyzer : e.analyzer = paragraph) (hopen : e.closed = false)
    (hanalysed : ∃ p, paragraph e.buffer e.paragraphDir.base = .ok p) :
    Leaves writeHeld e (fun _ e' => (∃ ps stack runs, e' = e.turned ps stack runs) ∧ e.opened? = some e'.stack)
      fun c _ => e.opened? = none ∧ ∃ (d : Decoration) (stack : List Decoration), c = d.refusal stack := by
  obtain ⟨p, hp⟩ := hanalysed
  by_cases hdue : e.isDue = true
  · have hwrite := perform_writeHeld hopen hdue fun p hp => paragraph_partitions (by rwa [hanalyzer] at hp)
    have hset := map_snd_setText e.style e.buffer (e.ambientFor p.runs) p.runs e.stack e.due
    rw [hanalyzer, hp] at hwrite
    cases hlaid : setText e.style e.buffer (e.ambientFor p.runs) p.runs e.stack e.due with
    | none =>
      rw [hlaid] at hset
      simp only [hlaid] at hwrite
      obtain ⟨d, stack, e', hperform⟩ := hwrite
      exact Leaves.of_error hperform ⟨by rw [opened?_eq, ← hset]; rfl, d, stack, rfl⟩
    | some laid =>
      obtain ⟨ps, stack⟩ := laid
      rw [hlaid] at hset
      simp only [hlaid] at hwrite
      exact Leaves.of_ok hwrite ⟨⟨ps, stack, p.runs, rfl⟩, by rw [opened?_eq, ← hset]; rfl⟩
  · have hnot : e.isDue = false := by simpa using hdue
    have hnone : e.due = [] := by
      obtain ⟨-, hdue⟩ : e.buffer = [] ∧ e.due = [] := by simpa [isDue] using hnot
      exact hdue
    refine Leaves.of_ok (perform_writeHeld_of_not_isDue hnot) ⟨⟨[], e.stack, [], rfl⟩, ?_⟩
    rw [opened?_eq, hnone]
    rfl

/-! ### Agreement -/

/-- The emitter is where the ledger says it is. -/
structure Agrees (e : Emitter) (l : Ledger) : Prop where
  newEnv : e.newEnv = l.newEnv
  newLine : e.newLine = l.newLine
  newPara : e.newPara = l.newPara
  base : e.paragraphDir = l.base
  inList : e.inList = l.inList
  text : e.buffer = l.text
  due : e.isDue = l.due
  ordered : Ordered 0 e.decorations e.buffer.length

/-- What is held back now is the next turn. -/
theorem Agrees.turn_mem (h : e.Agrees l) (hdue : e.isDue = true) :
    ⟨e.buffer, e.paragraphDir, e.inList⟩ ∈ l.turn.turns := by
  have hdue' : l.due = true := h.due ▸ hdue
  simp [Ledger.turn, hdue', h.text, h.base, h.inList]

theorem Agrees.turned (h : e.Agrees l) (ps : List Piece) (stack : List Decoration) (runs : List Run) :
    (e.turned ps stack runs).Agrees l.turn :=
  ⟨h.newEnv, h.newLine, h.newPara, h.base, h.inList, rfl, rfl, Nat.le_refl _⟩

end Emitter

theorem Ordered.append {start stop : Nat} {ds : List Decoration} (h : Ordered start ds stop) {d : Decoration}
    (hd : d.pos = stop) : Ordered start (ds ++ [d]) stop := by
  induction ds generalizing start with
  | nil => exact ⟨hd ▸ h, Nat.le_of_eq hd⟩
  | cons x ds ih => exact ⟨h.1, ih h.2⟩

theorem Ordered.mono {start stop stop' : Nat} {ds : List Decoration} (h : Ordered start ds stop) (hle : stop ≤ stop') :
    Ordered start ds stop' := by
  induction ds generalizing start with
  | nil => exact Nat.le_trans h hle
  | cons x ds ih => exact ⟨h.1, ih h.2⟩

theorem Ordered.of_append {start stop : Nat} {ds ds' : List Decoration} (h : Ordered start (ds ++ ds') stop) :
    Ordered start ds stop := by
  induction ds generalizing start with
  | nil => exact h.le
  | cons x ds ih => exact ⟨h.1, ih h.2⟩

namespace Emitter.Agrees

variable {e : Emitter} {l : Ledger}

theorem recorded (h : e.Agrees l) (d : Decoration) (inside : List Wrapper) :
    (e.recorded d).Agrees (l.record d inside) := by
  have hdue := isDue_recorded e d
  have hordered : Ordered 0 (e.recorded d).decorations (e.recorded d).buffer.length := h.ordered.append rfl
  unfold Ledger.record
  cases hk : d.kind <;> simp only [hk, h.due] at hdue
  case startInline => exact ⟨rfl, rfl, rfl, h.base, h.inList, h.text, hdue.trans (Bool.or_false _), hordered⟩
  all_goals exact ⟨rfl, rfl, rfl, h.base, h.inList, h.text, hdue.trans (Bool.or_true _), hordered⟩

theorem extended (h : e.Agrees l) (s : List Char) (inside : List Wrapper) :
    (e.extended s).Agrees (l.extended s inside) := by
  have hordered : Ordered 0 (e.extended s).decorations (e.extended s).buffer.length :=
    h.ordered.mono (by simp [Emitter.extended])
  have htext : (e.extended s).buffer = (l.extended s inside).text := congrArg (· ++ s) h.text
  have hdue : (e.extended s).isDue = (l.extended s inside).due := by
    cases s with
    | nil => simp [Emitter.extended, Ledger.extended, ← h.due, isDue]
    | cons c s => simp [isDue_extended, Ledger.extended]
  exact ⟨h.newEnv, h.newLine, h.newPara, h.base, h.inList, htext, hdue, hordered⟩

theorem touched (h : e.Agrees l) : e.touched.Agrees l.touched :=
  ⟨rfl, rfl, rfl, h.base, h.inList, h.text, h.due, h.ordered⟩

end Emitter.Agrees

/-! ### Writing and recording -/

namespace Emitter

variable {e : Emitter}

theorem perform_put_of_closed (h : e.closed = true) (p : Piece) : (put p).perform e = (.error .closed, e) := by
  simp [put, checkOpen, perform_bind, perform_get, h, perform_throw]

theorem perform_write_of_closed (h : e.closed = true) (text : List Char) :
    (Emit.write text).perform e = (.error .closed, e) := by
  simp [Emit.write, checkOpen, perform_bind, perform_get, h, perform_throw]

theorem perform_record_of_closed (h : e.closed = true) (d : Decoration) :
    (Emit.record d).perform e = (.error .closed, e) := by
  simp [Emit.record, checkOpen, perform_bind, perform_get, h, perform_throw]

end Emitter

theorem mem_collapseBlanks {afterBlank : Bool} {s : List Char} {c : Char} (h : c ∈ collapseBlanks afterBlank s) :
    c = ' ' ∨ c ∈ s := by
  induction s generalizing afterBlank with
  | nil => cases h
  | cons x s ih =>
    have hrest : ∀ {b}, c ∈ collapseBlanks b s → c = ' ' ∨ c ∈ x :: s := fun h => (ih h).imp_right (List.mem_cons_of_mem x)
    unfold collapseBlanks at h
    split at h
    · split at h
      · exact hrest h
      · rcases List.mem_cons.1 h with h | h
        · exact .inl h
        · exact hrest h
    · rcases List.mem_cons.1 h with h | h
      · exact .inr (h ▸ List.mem_cons_self ..)
      · exact hrest h

namespace Emit

variable {e : Emitter} {l : Ledger}

theorem perform_record (h : e.closed = false) (d : Decoration) : (record d).perform e = (.ok (), e.recorded d) := by
  simp only [record, perform_bind, perform_checkOpen h, perform_modify]
  rfl

/-- What writing adds to the held text, by the marks of the breaks. -/
theorem perform_write (h : e.closed = false) (text : List Char) :
    (write text).perform e = (.ok (), if e.newEnv || e.newLine || e.newPara then
      if (text.dropWhile isSpace).isEmpty then e
      else e.touched.extended (collapseBlanks false (text.dropWhile isSpace))
    else e.extended (collapseBlanks false text)) := by
  simp only [write, perform_bind, perform_checkOpen h, perform_get]
  by_cases hb : (e.newEnv || e.newLine || e.newPara) = true
  · simp only [hb, if_true, Bool.true_and]
    by_cases ht : (text.dropWhile isSpace).isEmpty = true
    · simp only [ht, if_true, perform_pure]
    · simp only [if_neg ht, perform_set]
      rfl
  · simp only [hb, Bool.false_and, Bool.false_eq_true, if_false, perform_set]
    rfl

/-! A closed emitter refuses a piece, a decoration and text; an open one takes them. -/

section

variable {P : Unit → Emitter → Prop}

theorem leaves_put (p : Piece) (h : e.closed = false → P () (e.wrote [p])) : Leaves (put p) e P fun _ _ => True := by
  by_cases hclosed : e.closed = true
  · exact Leaves.of_error (Emitter.perform_put_of_closed hclosed p) trivial
  · have hopen : e.closed = false := by simpa using hclosed
    exact Leaves.of_ok (perform_put hopen p) (h hopen)

theorem leaves_record (d : Decoration) (h : e.closed = false → P () (e.recorded d)) :
    Leaves (record d) e P fun _ _ => True := by
  by_cases hclosed : e.closed = true
  · exact Leaves.of_error (Emitter.perform_record_of_closed hclosed d) trivial
  · have hopen : e.closed = false := by simpa using hclosed
    exact Leaves.of_ok (perform_record hopen d) (h hopen)

theorem leaves_extend (text : List Char)
    (h : e.closed = false → P () (if e.newEnv || e.newLine || e.newPara then
      if (text.dropWhile isSpace).isEmpty then e
      else e.touched.extended (collapseBlanks false (text.dropWhile isSpace))
    else e.extended (collapseBlanks false text))) :
    Leaves (write text) e P fun _ _ => True := by
  by_cases hclosed : e.closed = true
  · exact Leaves.of_error (Emitter.perform_write_of_closed hclosed text) trivial
  · have hopen : e.closed = false := by simpa using hclosed
    exact Leaves.of_ok (perform_write hopen text) (h hopen)

end

/-- Writing keeps a relation between emitters and ledgers if more text and the end of a break do. -/
theorem leaves_write (rel : Emitter → Ledger → Prop) {fails : EmitError → Emitter → Prop} {inside : List Wrapper}
    (hagrees : ∀ {e l}, rel e l → e.Agrees l) (htouched : ∀ {e l}, rel e l → rel e.touched l.touched)
    (hextended : ∀ {e l} s, rel e l → rel (e.extended s) (l.extended s inside)) (h : rel e l) (hopen : e.closed = false)
    (text : List Char) : Leaves (write text) e (fun _ e' => rel e' (l.write text inside)) fails := by
  refine Leaves.of_ok (perform_write hopen text) ?_
  have hbreak : (e.newEnv || e.newLine || e.newPara) = l.atBreak := by
    rw [(hagrees h).newEnv, (hagrees h).newLine, (hagrees h).newPara]
    rfl
  rw [hbreak]
  unfold Ledger.write
  split
  · split
    · exact h
    · exact hextended _ (htouched h)
  · exact hextended _ h

end Emit

/-! ### Relations that survive the operations -/

/-- Two emitters that differ in their marks and settings only. -/
structure Emitter.Alike (e e' : Emitter) : Prop where
  analyzer : e'.analyzer = e.analyzer
  written : e'.written = e.written
  buffer : e'.buffer = e.buffer
  decorations : e'.decorations = e.decorations
  stack : e'.stack = e.stack
  contextDir : e'.contextDir = e.contextDir
  closed : e'.closed = e.closed

theorem Emitter.Alike.isDue_eq {e e' : Emitter} (h : e.Alike e') : e'.isDue = e.isDue := by
  simp only [Emitter.isDue, Emitter.due, Emitter.pos, h.buffer, h.decorations]

/-- A relation between emitters and ledgers that survives a turn and the ends of lines. `all` are the turns that may
occur. -/
structure Coupled (rel : Emitter → Ledger → Prop) (fails : EmitError → Emitter → Prop) (all : List Turn) : Prop where
  agrees : ∀ {e l}, rel e l → e.Agrees l
  turn : ∀ {e l}, rel e l → l.turn.turns ⊆ all → Leaves writeHeld e (fun _ e' => rel e' l.turn) fails
  lineEnd : ∀ {e l p}, rel e l → p = .newline ∨ p = .paragraphEnd ∨ p = .lineBreak →
    Leaves (put p) e (fun _ e' => rel e' l) fails
  alike : ∀ {e e' l l'}, rel e l → e.Alike e' → e'.Agrees l' → l'.placed = l.placed → l'.turns = l.turns → rel e' l'

namespace Coupled

variable {rel : Emitter → Ledger → Prop} {fails : EmitError → Emitter → Prop} {all : List Turn}
variable {e : Emitter} {l : Ledger}

theorem envBreak (hc : Coupled rel fails all) (h : rel e l) (hall : l.envBreak.turns ⊆ all) :
    Leaves Emit.envBreak e (fun _ e' => rel e' l.envBreak) fails := by
  unfold Emit.envBreak
  refine Leaves.get_bind ?_
  have hmark := (hc.agrees h).newEnv
  by_cases hl : l.newEnv = true
  · simp only [hmark, hl, if_true]
    exact Leaves.of_pure (by simpa [Ledger.envBreak, hl] using h)
  · have henv : l.envBreak = { l.turn with newEnv := true } := by simp [Ledger.envBreak, hl]
    rw [henv] at hall ⊢
    simp only [hmark, hl]
    refine (hc.turn h hall).bind fun _ e₁ h₁ => (hc.lineEnd h₁ (.inl rfl)).bind fun _ e₂ h₂ => Leaves.of_modify ?_
    have hag := hc.agrees h₂
    exact hc.alike h₂ ⟨rfl, rfl, rfl, rfl, rfl, rfl, rfl⟩ { hag with newEnv := rfl } rfl rfl

theorem paragraphBreak (hc : Coupled rel fails all) (h : rel e l) (hall : l.paragraphBreak.turns ⊆ all) :
    Leaves Emit.paragraphBreak e (fun _ e' => rel e' l.paragraphBreak) fails := by
  unfold Emit.paragraphBreak
  refine Leaves.get_bind ?_
  have hmark := (hc.agrees h).newPara
  by_cases hl : l.newPara = true
  · simp only [hmark, hl, if_true]
    exact Leaves.of_pure (by simpa [Ledger.paragraphBreak, hl] using h)
  · have hpara : l.paragraphBreak = { l.envBreak with newPara := true, newLine := true }.turn := by
      simp [Ledger.paragraphBreak, hl]
    rw [hpara] at hall ⊢
    have henv : l.envBreak.turns ⊆ all := List.Subset.trans (Ledger.turns_turn _) hall
    simp only [hmark, hl]
    refine (hc.envBreak h henv).bind fun _ e₁ h₁ => (hc.lineEnd h₁ (.inr (.inl rfl))).bind fun _ e₂ h₂ => ?_
    have hag := hc.agrees h₂
    have hmarked : rel { e₂ with newPara := true, newLine := true }
        { l.envBreak with newPara := true, newLine := true } :=
      hc.alike h₂ ⟨rfl, rfl, rfl, rfl, rfl, rfl, rfl⟩ { hag with newPara := rfl, newLine := rfl } rfl rfl
    refine (Leaves.of_modify (P := fun _ e₃ => rel e₃ _) hmarked).bind fun _ e₃ h₃ => ?_
    refine (hc.turn h₃ hall).bind fun _ e₄ h₄ => Leaves.of_modify ?_
    have hag := hc.agrees h₄
    exact hc.alike h₄ ⟨rfl, rfl, rfl, rfl, rfl, rfl, rfl⟩ { hag with } rfl rfl

theorem lineBreak (hc : Coupled rel fails all) (h : rel e l) (hall : l.lineBreak.turns ⊆ all) :
    Leaves Emit.lineBreak e (fun _ e' => rel e' l.lineBreak) fails := by
  unfold Emit.lineBreak
  refine Leaves.get_bind ?_
  have hmark := (hc.agrees h).newLine
  by_cases hl : l.newLine = true
  · simp only [hmark, hl, if_true]
    exact Leaves.of_pure (by simpa [Ledger.lineBreak, hl] using h)
  · have hline : l.lineBreak = { l.envBreak with newLine := true } := by simp [Ledger.lineBreak, hl]
    rw [hline] at hall ⊢
    simp only [hmark, hl]
    refine (hc.envBreak h hall).bind fun _ e₁ h₁ => (hc.lineEnd h₁ (.inr (.inr rfl))).bind fun _ e₂ h₂ => ?_
    have hag := hc.agrees h₂
    exact Leaves.of_modify (hc.alike h₂ ⟨rfl, rfl, rfl, rfl, rfl, rfl, rfl⟩ { hag with newLine := rfl } rfl rfl)

theorem resetLine (hc : Coupled rel fails all) (h : rel e l) :
    Leaves Emit.resetLine e (fun _ e' => rel e' l.resetLine) fails := by
  have hag := hc.agrees h
  exact Leaves.of_modify (hc.alike h ⟨rfl, rfl, rfl, rfl, rfl, rfl, rfl⟩
    { hag with newEnv := rfl, newLine := rfl, newPara := rfl } rfl rfl)

theorem switchDirection (hc : Coupled rel fails all) (h : rel e l) (hall : l.turn.turns ⊆ all)
    (direction : NamedDirection) :
    Leaves (Emit.switchDirection direction) e (fun _ e' => rel e' { l.turn with base := direction }) fails := by
  refine (hc.turn h hall).bind fun _ e₁ h₁ => Leaves.of_modify ?_
  have hag := hc.agrees h₁
  exact hc.alike h₁ ⟨rfl, rfl, rfl, rfl, rfl, rfl, rfl⟩ { hag with base := rfl } rfl rfl

theorem setCoverage (hc : Coupled rel fails all) (h : rel e l) (hall : l.turn.turns ⊆ all)
    (latinCoverage : Bool) :
    Leaves (Emit.setCoverage latinCoverage) e (fun _ e' => rel e' l.turn) fails := by
  refine (hc.turn h hall).bind fun _ e₁ h₁ => Leaves.of_modify ?_
  have hag := hc.agrees h₁
  exact hc.alike h₁ ⟨rfl, rfl, rfl, rfl, rfl, rfl, rfl⟩ { hag with } rfl rfl

theorem deepenList (hc : Coupled rel fails all) (h : rel e l) (n : Int) :
    rel { e with inList := e.inList + n } { l with inList := l.inList + n } := by
  have hag := hc.agrees h
  exact hc.alike h ⟨rfl, rfl, rfl, rfl, rfl, rfl, rfl⟩ { hag with inList := congrArg (· + n) hag.inList } rfl rfl

theorem deepenToc (hc : Coupled rel fails all) (h : rel e l) (n : Int) :
    rel { e with inToc := e.inToc + n } l := by
  have hag := hc.agrees h
  exact hc.alike h ⟨rfl, rfl, rfl, rfl, rfl, rfl, rfl⟩ { hag with } rfl rfl

end Coupled

end WikiTypeset.Latex
