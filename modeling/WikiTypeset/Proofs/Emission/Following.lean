import WikiTypeset.Proofs.Emission.Bearings
import WikiTypeset.Proofs.Emission.Coupling

/-!
# Emitters that keep their bearings

An emitter bears if its direction is the one that the replay of its output takes it to assume, and if every settled
bearing of the replay is right. All operations keep this up; a note keeps the bearing settled where it follows the
beginning of an environment in a language of the same direction.
-/

namespace WikiTypeset.Latex

open Action Bidi Emit

/-- A settled bearing is right. -/
def Bearing.IsSafe (b : Bearing) : Prop := b.settled = true → b.IsRight

/-- The replay has come to where an emitter is: in its direction, in the given environments, outside all groups. Where
the environment of a language has begun, the emitter is about to take note of the direction in force. -/
structure Ambient.Fits (a : Ambient) (contextDir : NamedDirection) (outer : List Bearing)
    (noted? : Option NamedDirection) : Prop where
  assumed : a.assumed = contextDir
  safe : a.IsSafe
  begun : a.begun = true → noted? = some a.current
  outer : a.outer = outer
  groups : a.groups = []

namespace Emitter

variable {e : Emitter} {l : Ledger} {direction : NamedDirection} {outer : List Bearing}
variable {noted? : Option NamedDirection} {all : List Turn} {inside : List Wrapper}

/-- The emitter is where a replay of its output has come, and holds back no block. -/
structure Bears (e : Emitter) (direction : NamedDirection) (outer : List Bearing) (noted? : Option NamedDirection)
    (l : Ledger) : Prop extends e.Agrees l where
  analyzer : e.analyzer = paragraph
  isOpen : e.closed = false
  isInline : ∀ d ∈ e.decorations, d.IsInline
  bears : ∃ bs a, bearPieces (.start direction) e.output = some (bs, a) ∧ a.Fits e.contextDir outer noted? ∧
    ∀ b ∈ bs, b.IsSafe

/-- Only what has been written and the direction matter, besides what the ledger knows. -/
theorem Bears.of_agrees {e' : Emitter} {l' : Ledger} (h : e.Bears direction outer noted? l) (hag : e'.Agrees l')
    (hanalyzer : e'.analyzer = e.analyzer) (hclosed : e'.closed = e.closed)
    (hinline : ∀ d ∈ e'.decorations, d.IsInline) (hwritten : e'.written = e.written)
    (hcontext : e'.contextDir = e.contextDir) : e'.Bears direction outer noted? l' := by
  have houtput : e'.output = e.output := congrArg List.reverse hwritten
  exact ⟨hag, hanalyzer.trans h.analyzer, hclosed.trans h.isOpen, hinline, by rw [houtput, hcontext]; exact h.bears⟩

/-- The replay after a text, if it has come there before it. -/
theorem bears_switchFor {a : Ambient} (ha : a.Fits e.contextDir outer noted?) (runs : List Run) :
    ∃ a', bearPieces a (e.switchFor runs) = some ([], a') ∧ a'.Fits (e.ambientFor runs) outer noted? := by
  cases runs with
  | nil => exact ⟨a, rfl, ha⟩
  | cons r runs =>
    by_cases hs : e.switches r.direction = true
    · simp only [switchFor, switchPieces, ambientFor, directionFor, hs, if_true]
      exact ⟨_, rfl, rfl, fun _ => rfl, by simp, ha.outer, ha.groups⟩
    · simp only [switchFor, switchPieces, ambientFor, directionFor, hs]
      exact ⟨a, rfl, ha⟩

theorem Bears.turn (h : e.Bears direction outer noted? l) :
    Leaves writeHeld e (fun _ e' => e'.Bears direction outer noted? l.turn) fun _ _ => True := by
  obtain ⟨bs, a, hbear, hfits, hbs⟩ := h.bears
  refine leaves_writeHeld h.analyzer (fun _ => h.isOpen) (fun {p ps stack} hdue hp hset => ?_) fun hnot => ?_
  · refine ⟨h.toAgrees.turned _ _ _, h.analyzer, h.isOpen, nofun, ?_⟩
    obtain ⟨a', hswitch, hfits'⟩ := bears_switchFor hfits p.runs
    have hordered : Ordered 0 e.due e.buffer.length := (e.due_append_carried ▸ h.ordered).of_append
    have hinline : ∀ d ∈ e.due, d.IsInline := fun d hd =>
      h.isInline d (e.due_append_carried ▸ List.mem_append_left _ hd)
    obtain ⟨bs', hbear', hbs'⟩ :=
      bear_setText (paragraph_partitions hp).contiguous hordered hinline hfits'.groups hset
    refine ⟨bs ++ ([] ++ bs'), a', ?_, hfits', fun b hb => ?_⟩
    · rw [output_turned]
      exact gather_append_of hbear (gather_append_of hswitch hbear')
    · rw [List.nil_append, List.mem_append] at hb
      rcases hb with hb | hb
      · exact hbs b hb
      · rw [hbs' b hb]
        exact hfits'.safe
  · refine ⟨h.toAgrees.turned _ _ _, h.analyzer, h.isOpen, nofun, bs, a, ?_, hfits, hbs⟩
    rw [output_turned]
    simpa [switchFor] using hbear

theorem Bears.write (h : e.Bears direction outer noted? l) (text : List Char) :
    Leaves (Emit.write text) e (fun _ e' => e'.Bears direction outer noted? (l.write text inside)) fun _ _ => True :=
  leaves_write (fun e l => e.Bears direction outer noted? l) (·.toAgrees)
    (fun h => h.of_agrees h.toAgrees.touched rfl rfl h.isInline rfl rfl)
    (fun s h => h.of_agrees (h.toAgrees.extended s inside) rfl rfl h.isInline rfl rfl) h h.isOpen text

/-- A piece that changes no bearing. -/
theorem Bears.wrote (h : e.Bears direction outer noted? l) {p : Piece} (hp : ∀ a, p.bear a = some ([], a)) :
    (e.wrote [p]).Bears direction outer noted? l := by
  obtain ⟨bs, a, hbear, hfits, hbs⟩ := h.bears
  refine ⟨{ h.toAgrees with }, h.analyzer, h.isOpen, h.isInline, bs, a, ?_, hfits, hbs⟩
  rw [output_advance]
  simpa using gather_append_of hbear ((gather_singleton p).trans (hp a))

theorem coupled_bears (direction : NamedDirection) (outer : List Bearing) (noted? : Option NamedDirection)
    (all : List Turn) : Coupled (fun e l => e.Bears direction outer noted? l) (fun _ _ => True) all where
  agrees h := h.toAgrees
  turn h _ := h.turn
  lineEnd {e l p} h hp := by
    refine Leaves.of_ok (perform_put h.isOpen p) (h.wrote fun a => ?_)
    rcases hp with rfl | rfl | rfl <;> rfl
  alike h ha hag _ _ :=
    h.of_agrees hag ha.analyzer ha.closed (by rw [ha.decorations]; exact h.isInline) ha.written ha.contextDir

theorem Bears.record (h : e.Bears direction outer noted? l) {d : Decoration} (hd : d.IsInline) (inside : List Wrapper) :
    (e.recorded d).Bears direction outer noted? (l.record d inside) := by
  refine h.of_agrees (h.toAgrees.recorded d inside) rfl rfl (fun x hx => ?_) rfl rfl
  rcases List.mem_append.1 hx with hx | hx
  · exact h.isInline x hx
  · rw [List.mem_singleton.1 hx]
    exact hd

theorem Bears.exchange (h : e.Bears direction outer noted? l) (stack : List Decoration) :
    { e with stack := stack }.Bears direction outer noted? l :=
  h.of_agrees { h.toAgrees with } rfl rfl h.isInline rfl rfl

/-- A part outside all formatting, which may begin or end environments. -/
theorem Bears.isolated {ι : Sort*} {outer' : ι → List Bearing} {noted'? : Option NamedDirection}
    (h : e.Bears direction outer noted? l) {content : Emit Unit} {l' : ι → Ledger}
    (hcontent : ∀ {e'}, e'.Bears direction outer noted? l.turn → e'.buffer = [] → e'.decorations = [] → e'.stack = [] →
      Leaves content e' (fun _ e'' => ∃ i, e''.Bears direction (outer' i) noted'? (l' i)) fun _ _ => True) :
    Leaves (Emit.isolated content) e (fun _ e' => ∃ i, e'.Bears direction (outer' i) noted'? (l' i).turn)
      fun _ _ => True := by
  have henter : Leaves enterIsolation e (fun _ e' => e'.Bears direction outer noted? l.turn ∧ e'.buffer = [] ∧
      e'.decorations = [] ∧ e'.stack = []) fun _ _ => True := by
    have hturn := (h.turn.and (writeHeld_settles e)).imp (fun _ _ h' => h') fun _ _ _ => trivial
    refine hturn.bind fun _ e₁ h₁ => Leaves.get_bind ?_
    exact Leaves.bind (Leaves.of_modify (P := fun _ e' => e'.Bears direction outer noted? l.turn ∧ e'.buffer = [] ∧
      e'.decorations = [] ∧ e'.stack = []) ⟨h₁.1.exchange [], h₁.2.1, h₁.2.2, rfl⟩) fun _ e₂ h₂ => Leaves.of_pure h₂
  refine henter.bind fun saved e₁ h₁ => Leaves.finishing ?_
  obtain ⟨hbears, hbuffer, hdecorations, hstack⟩ := h₁
  have hchecked : Leaves (content >>= fun _ => checkIsolation) e₁
      (fun _ e' => ∃ i, e'.Bears direction (outer' i) noted'? (l' i).turn) fun _ _ => True := by
    refine (hcontent hbears hbuffer hdecorations hstack).bind fun _ e₂ h₂ => ?_
    obtain ⟨i, h₂⟩ := h₂
    refine h₂.turn.bind fun _ e₃ h₃ => Leaves.get_bind ?_
    dsimp only
    split
    · exact Leaves.of_pure ⟨i, h₃⟩
    · exact Leaves.of_throw trivial
  refine hchecked.imp (fun _ e₂ h₂ => ?_) fun _ _ _ => Leaves.of_modify trivial
  obtain ⟨i, h₂⟩ := h₂
  exact Leaves.of_modify ⟨i, h₂.exchange saved⟩

/-- Fragments and blocks leave the formatting that is open as it is. -/
theorem nest_marks {ds : List Decoration} (h : ∀ d ∈ ds, d.kind = .raw ∨ d.kind = .startBlock ∨ d.kind = .endBlock)
    (stack : List Decoration) : nest stack ds = some stack := by
  induction ds with
  | nil => rfl
  | cons d ds ih =>
    obtain ⟨hd, hds⟩ := List.forall_mem_cons.1 h
    have hafter : d.after? stack = some stack := by
      rcases hd with hk | hk | hk <;> simp [Decoration.after?, hk]
    rw [nest, hafter]
    exact ih hds

/-- Fragments and blocks are not carried over. -/
theorem carried_marks (h : ∀ d ∈ e.decorations, d.kind = .raw ∨ d.kind = .startBlock ∨ d.kind = .endBlock) :
    e.carried = [] := by
  refine List.eq_nil_iff_forall_not_mem.2 fun d hd => ?_
  have hopens := opensAt_of_mem_carried hd
  rcases h d (e.due_append_carried ▸ List.mem_append_right _ hd) with hk | hk | hk <;> simp [opensAt, hk] at hopens

/-- Fragments and blocks that are all that is held back are written as they stand. -/
theorem perform_writeHeld_marks (hanalyzer : e.analyzer = paragraph) (hopen : e.closed = false) (hbuffer : e.buffer = [])
    (hstack : e.stack = [])
    (hmarks : ∀ d ∈ e.decorations, d.kind = .raw ∨ d.kind = .startBlock ∨ d.kind = .endBlock) :
    writeHeld.perform e = (.ok (), e.turned (e.decorations.flatMap Decoration.pieces) [] []) := by
  have hdue : e.due = e.decorations := by
    have hall := e.due_append_carried
    rwa [carried_marks hmarks, List.append_nil] at hall
  by_cases hnone : e.decorations = []
  · have hnot : e.isDue = false := by simp [isDue, hbuffer, hdue, hnone]
    rw [perform_writeHeld_of_not_isDue hnot, hnone, hstack]
    rfl
  · have hsome : e.isDue = true := by simp [isDue, hdue, hnone]
    have hwrite := perform_writeHeld hopen hsome fun p hp => paragraph_partitions (by rwa [hanalyzer] at hp)
    obtain ⟨p, hp, hruns⟩ : ∃ p, paragraph [] e.paragraphDir.base = .ok p ∧ p.runs = [] := by
      cases e.paragraphDir.base <;> exact ⟨_, rfl, rfl⟩
    have hanalysed : e.analyzer e.buffer e.paragraphDir.base = .ok p := by
      rw [hanalyzer, hbuffer, hp]
    have hset : setText e.style e.buffer (e.ambientFor []) [] e.stack e.due =
        some (e.decorations.flatMap Decoration.pieces, []) := by
      simp [setText, setRuns, layRuns, hstack, hdue, nest_marks hmarks, trailPieces, hnone, openPieces, closePieces]
    simp only [hanalysed, hruns, hset] at hwrite
    exact hwrite

/-- One fragment or block recorded with nothing held back is all that is held back. -/
theorem marks_recorded (hdecorations : e.decorations = []) {d : Decoration}
    (hd : d.kind = .raw ∨ d.kind = .startBlock ∨ d.kind = .endBlock) :
    ∀ x ∈ (e.recorded d).decorations, x.kind = .raw ∨ x.kind = .startBlock ∨ x.kind = .endBlock := by
  simpa [Emitter.recorded, touched, hdecorations] using hd

/-- A break that has an effect writes what is held back, and ends the line. -/
theorem perform_envBreak {e' : Emitter} (henv : e.newEnv = false) (hwrite : writeHeld.perform e = (.ok (), e'))
    (hopen : e'.closed = false) : Emit.envBreak.perform e = (.ok (), { e'.wrote [.newline] with newEnv := true }) := by
  simp [Emit.envBreak, dirBreak, perform_bind, perform_get, henv, hwrite, perform_put hopen, perform_modify]

/-- A block and the break after it, with nothing held back before. -/
theorem perform_record_block (hanalyzer : e.analyzer = paragraph) (hopen : e.closed = false) (hbuffer : e.buffer = [])
    (hdecorations : e.decorations = []) (hstack : e.stack = []) {d : Decoration}
    (hd : d.kind = .startBlock ∨ d.kind = .endBlock) :
    (Emit.record d >>= fun _ => Emit.envBreak).perform e =
      (.ok (), { ((e.recorded d).turned [.block d.value] [] []).wrote [.newline] with newEnv := true }) := by
  have hrecorded : (e.recorded d).decorations = [{ d with pos := e.pos }] := by
    simp [Emitter.recorded, touched, hdecorations]
  have hwrite : writeHeld.perform (e.recorded d) = (.ok (), (e.recorded d).turned [.block d.value] [] []) := by
    have hall := perform_writeHeld_marks (e := e.recorded d) hanalyzer hopen hbuffer hstack
      (marks_recorded hdecorations (.inr hd))
    have hpieces : ({ d with pos := e.pos } : Decoration).pieces = [.block d.value] := by
      rcases hd with hk | hk <;> simp [Decoration.pieces, hk]
    rwa [hrecorded, List.flatMap_singleton, hpieces] at hall
  rw [perform_bind, perform_record hopen]
  exact perform_envBreak rfl hwrite hopen

/-- A block on a line of its own. -/
theorem Bears.block {ι : Sort*} {outer' : ι → List Bearing} {noted'? : Option NamedDirection}
    (h : e.Bears direction outer noted? l) {d : Decoration} (hd : d.kind = .startBlock ∨ d.kind = .endBlock)
    (hstep : ∀ {a contextDir}, a.Fits contextDir outer noted? →
      ∃ i a', (Piece.block d.value).bear a = some ([], a') ∧ a'.Fits contextDir (outer' i) noted'?) :
    Leaves (writeBlock d) e (fun _ e' => ∃ i, e'.Bears direction (outer' i) noted'? (l.block d.value))
      fun _ _ => True := by
  refine ((coupled_bears direction outer noted? l.envBreak.turns).envBreak h (List.Subset.refl _)).bind fun _ e₁ h₁ => ?_
  refine h₁.isolated fun {e₂} h₂ hbuffer hdecorations hstack => ?_
  have hrecord : l.envBreak.turn.record d [] = l.envBreak.turn.place (.block d.value) [] := Ledger.record_block hd
  set written : Emitter := (e₂.recorded d).turned [.block d.value] [] []
  obtain ⟨bs, a, hbear, hfits, hbs⟩ := h₂.bears
  obtain ⟨i, a', hblock, hfits'⟩ := hstep hfits
  have hagrees := (h₂.toAgrees.recorded d []).turned [.block d.value] [] []
  rw [hrecord] at hagrees
  refine Leaves.of_ok (perform_record_block h₂.analyzer h₂.isOpen hbuffer hdecorations hstack hd)
    ⟨i, { hagrees with newEnv := rfl }, h₂.analyzer, h₂.isOpen, List.forall_mem_nil _, ?_⟩
  have houtput : ({ written.wrote [.newline] with newEnv := true } : Emitter).output =
      e₂.output ++ ([.block d.value] ++ [.newline]) := by
    rw [← List.append_assoc]
    exact (output_advance written [.newline] written.stack written.contextDir written.startPara).trans
      (congrArg (· ++ [.newline]) (output_turned (e₂.recorded d) [.block d.value] [] []))
  have hnewline : bearPieces a' [.newline] = some ([], a') := rfl
  refine ⟨bs ++ ([] ++ []), a', ?_, hfits', by simpa using hbs⟩
  rw [houtput]
  exact gather_append_of hbear (gather_append_of ((gather_singleton _).trans hblock) hnewline)

/-- A note of the direction in force, or of another one where no environment of a language has just begun. -/
theorem Bears.assumeDirection (h : e.Bears direction outer noted? l) {d : NamedDirection}
    (hd : ∀ current, noted? = some current → d = current) :
    Leaves (Emit.assumeDirection d) e (fun _ e' => e'.Bears direction outer none l.turn) fun _ _ => True := by
  refine h.turn.bind fun _ e₁ h₁ => Leaves.of_modify ?_
  obtain ⟨bs, a, hbear, hfits, hbs⟩ := h₁.bears
  -- A note that settles the bearing follows a beginning in its direction, or repeats what was settled.
  have hsafe : (a.begun || (a.settled && d = a.assumed)) = true → d = a.current := by
    intro hs
    rcases Bool.or_eq_true_iff.1 hs with hbegun | hsame
    · exact hd _ (hfits.begun hbegun)
    · simp only [Bool.and_eq_true, decide_eq_true_eq] at hsame
      exact hsame.2.trans (hfits.safe hsame.1)
  refine ⟨{ h₁.toAgrees with }, h₁.analyzer, h₁.isOpen, h₁.isInline, bs ++ [],
    { a with assumed := d, settled := a.begun || (a.settled && d = a.assumed), begun := false }, ?_,
    ⟨rfl, hsafe, nofun, hfits.outer, hfits.groups⟩, by simpa using hbs⟩
  have houtput : ({ e₁ with contextDir := d, written := .assumeDirection d :: e₁.written } : Emitter).output =
      e₁.output ++ [.assumeDirection d] := List.reverse_cons
  rw [houtput]
  exact gather_append_of hbear (gather_singleton _)

theorem start_bears (direction : NamedDirection) :
    (Emitter.start direction).Bears direction [] none (Ledger.start direction) :=
  ⟨⟨rfl, rfl, rfl, rfl, rfl, rfl, rfl, Nat.le_refl _⟩, rfl, rfl, nofun, [], .start direction, rfl,
    ⟨rfl, fun _ => rfl, nofun, rfl, rfl⟩, nofun⟩

end Emitter

end WikiTypeset.Latex
