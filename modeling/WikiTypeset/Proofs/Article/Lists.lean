import WikiTypeset.Proofs.Article.Bearings
import WikiTypeset.Proofs.Article.Openings

/-!
# Lists open with items

What a layout shows first is an item or a term, something else, or nothing: `Layout.opening?`. An emitter that performs the
program of a layout comes to the tally with this, and with what `Layout.listsOpen` says of the lists inside. Main statement:
`document_lists_open_iff`, by which all lists of a document open with an item just if they do in its layout and stand
outside formatting.
-/

namespace WikiTypeset.Latex

open Action Article Bidi Emit

/-! ### Tallies of layouts -/

namespace Tally

/-- After something that shows an item first, something else, or nothing. -/
def opens (t : Tally) : Option Bool → Tally
  | none => t
  | some item => t.settle item

/-- After something with lists of its own. -/
def through (t : Tally) (opening? : Option Bool) (good : Bool) : Tally :=
  { t.opens opening? with good := (t.opens opening?).good && good }

@[simp] theorem through_true (t : Tally) (opening? : Option Bool) : t.through opening? true = t.opens opening? := by
  simp [through]

theorem through_through (t : Tally) (first? second? : Option Bool) (good good' : Bool) :
    (t.through first? good).through second? good' = t.through (first?.or second?) (good && good') := by
  obtain ⟨_ | _, _ | _⟩ := t <;> rcases first? with _ | _ | _ <;> rcases second? with _ | _ | _ <;>
    cases good <;> cases good' <;> rfl

theorem opens_of_settled {t : Tally} (h : t.waits = false) (opening? : Option Bool) : t.opens opening? = t := by
  cases opening? with
  | none => rfl
  | some item => exact settle_of_settled h item

theorem waits_through_of_settled {t : Tally} (h : t.waits = false) (opening? : Option Bool) (good : Bool) :
    (t.through opening? good).waits = false := by
  rw [through, opens_of_settled h]
  exact h

/-- After a part outside the formatting around it. -/
def within (t : Tally) (outside : Bool) : Tally := if outside then t else t.settle false

theorem within_of_settled {t : Tally} (h : t.waits = false) (outside : Bool) : t.within outside = t := by
  cases outside with
  | true => rfl
  | false => exact settle_of_settled h false

end Tally

/-! ### Emitters inside a list -/

namespace Emitter

variable {e e' : Emitter} {l l' : Ledger} {t t' : Tally} {stack : List Decoration}

/-- The emitter tracks the ledger and comes to the tally. While a list waits no break has an effect. -/
structure Leads (e : Emitter) (stack : List Decoration) (t : Tally) (l : Ledger) : Prop
    extends e.Tracks paragraph stack l where
  comes : e.Tallies t
  atStart : t.waits = true → l.newEnv = true ∧ l.newLine = true ∧ l.newPara = true

theorem Leads.of_settled (h : e.Tracks paragraph stack l) (hcomes : e.Tallies t) (ht : t.waits = false) :
    e.Leads stack t l :=
  ⟨h, hcomes, fun hwaits => by cases ht.symm.trans hwaits⟩

/-- Marks and settings matter only for the breaks. -/
theorem Leads.alike (h : e.Leads stack t l) (ha : e.Alike e') (hag : e'.Agrees l') (hplaced : l'.placed = l.placed)
    (hturns : l'.turns = l.turns)
    (hstart : t.waits = true → l'.newEnv = true ∧ l'.newLine = true ∧ l'.newPara = true) : e'.Leads stack t l' :=
  ⟨(coupled_tracks (sound_paragraph []) stack).alike h.toTracks ha hag hplaced hturns,
    h.comes.of_eq ha.written ha.buffer ha.decorations ha.stack, hstart⟩

theorem Leads.turn (h : e.Leads stack t l) :
    Leaves writeHeld e (fun _ e' => e'.Leads stack t l.turn) fun _ _ => True := by
  refine ((h.toTracks.turn (sound_paragraph l.turn.turns) (List.Subset.refl _)).and (h.comes.turn h.toTracks)).imp
    (fun _ e' h' => ?_) fun _ _ _ => trivial
  exact ⟨h'.1, h'.2, h.atStart⟩

/-- After a turn nothing is held back. -/
theorem Tallies.turn_settled (h : e.Tallies t) (htracks : e.Tracks paragraph stack l) :
    Leaves writeHeld e (fun _ e' => e'.Tracks paragraph stack l.turn ∧ e'.stack = stack ∧ e'.tokens = [] ∧
      e'.buffer = [] ∧ e'.decorations = [] ∧ e'.Tallies t) fun _ _ => True := by
  have hturn := (htracks.turn_settled (sound_paragraph l.turn.turns) (List.Subset.refl _)).and
    ((writeHeld_settles e).and (h.turn htracks))
  refine hturn.imp (fun _ e' h' => ?_) fun _ _ _ => trivial
  obtain ⟨⟨htracks', hstack, htokens⟩, ⟨hbuffer, hdecorations⟩, hcomes⟩ := h'
  exact ⟨htracks', hstack, htokens, hbuffer, hdecorations, hcomes⟩

/-- Where no list waits, breaks keep the tally. -/
theorem coupled_leads (stack : List Decoration) (ht : t.waits = false) (all : List Turn) :
    Coupled (fun e l => e.Leads stack t l) (fun _ _ => True) all where
  agrees h := h.toAgrees
  turn h _ := h.turn
  lineEnd {e l p} h hp := by
    have hcue : p.cue = .quiet ∨ p.cue = .content ∧ t.waits = false := by
      rcases hp with rfl | rfl | rfl
      · exact .inl rfl
      · exact .inl rfl
      · exact .inr ⟨rfl, ht⟩
    have hcomes : Leaves (put p) e (fun _ e' => e'.Tallies t) fun _ _ => True :=
      Leaves.of_ok (perform_put h.isOpen p) (h.comes.wrote hcue)
    have htracks := (coupled_tracks (sound_paragraph []) stack).lineEnd h.toTracks hp
    exact (htracks.and hcomes).imp (fun _ e' h' => .of_settled h'.1 h'.2 ht) fun _ _ _ => trivial
  alike h ha hag hplaced hturns := h.alike ha hag hplaced hturns fun hwaits => by cases ht.symm.trans hwaits

theorem Leads.envBreak (h : e.Leads stack t l) :
    Leaves Emit.envBreak e (fun _ e' => e'.Leads stack t l.envBreak) fun _ _ => True := by
  by_cases ht : t.waits = true
  · obtain ⟨henv, -, -⟩ := h.atStart ht
    have hstays : l.envBreak = l := by simp [Ledger.envBreak, henv]
    refine Leaves.get_bind ?_
    rw [h.newEnv, henv, hstays]
    exact Leaves.of_pure h
  · exact (coupled_leads stack (by simpa using ht) _).envBreak h (List.Subset.refl _)

theorem Leads.lineBreak (h : e.Leads stack t l) :
    Leaves Emit.lineBreak e (fun _ e' => e'.Leads stack t l.lineBreak) fun _ _ => True := by
  by_cases ht : t.waits = true
  · obtain ⟨-, hline, -⟩ := h.atStart ht
    have hstays : l.lineBreak = l := by simp [Ledger.lineBreak, hline]
    refine Leaves.get_bind ?_
    rw [h.newLine, hline, hstays]
    exact Leaves.of_pure h
  · exact (coupled_leads stack (by simpa using ht) _).lineBreak h (List.Subset.refl _)

theorem Leads.paragraphBreak (h : e.Leads stack t l) :
    Leaves Emit.paragraphBreak e (fun _ e' => e'.Leads stack t l.paragraphBreak) fun _ _ => True := by
  by_cases ht : t.waits = true
  · obtain ⟨-, -, hpara⟩ := h.atStart ht
    have hstays : l.paragraphBreak = l := by simp [Ledger.paragraphBreak, hpara]
    refine Leaves.get_bind ?_
    rw [h.newPara, hpara, hstays]
    exact Leaves.of_pure h
  · exact (coupled_leads stack (by simpa using ht) _).paragraphBreak h (List.Subset.refl _)

theorem Leads.resetLine (h : e.Leads stack t l) :
    Leaves Emit.resetLine e (fun _ e' => e'.Leads stack t l.resetLine) fun _ _ => True := by
  have hag := h.toAgrees
  exact Leaves.of_modify (h.alike ⟨rfl, rfl, rfl, rfl, rfl, rfl, rfl⟩
    { hag with newEnv := rfl, newLine := rfl, newPara := rfl } rfl rfl fun _ => ⟨rfl, rfl, rfl⟩)

theorem Leads.assumeDirection (h : e.Leads stack t l) (direction : NamedDirection) :
    Leaves (Emit.assumeDirection direction) e (fun _ e' => e'.Leads stack t l.turn) fun _ _ => True := by
  have hcomes : Leaves (Emit.assumeDirection direction) e (fun _ e' => e'.Tallies t) fun _ _ => True := by
    refine h.turn.bind fun _ e₁ h₁ => Leaves.of_modify ?_
    exact (h₁.comes.wrote (p := .assumeDirection direction) (.inl rfl)).of_eq rfl rfl rfl rfl
  have htracks := h.toTracks.assumeDirection (sound_paragraph l.turn.turns) (List.Subset.refl _) direction
  exact (htracks.and hcomes).imp (fun _ e' h' => ⟨h'.1, h'.2, h.atStart⟩) fun _ _ _ => trivial

/-- What is recorded is content where a list waits. -/
theorem Leads.record (h : e.Leads stack t l) {d : Decoration} (hd : d.kind = .raw)
    (hcontent : t.waits = true → fragmentCue d.value = .content) :
    (e.recorded d).Leads stack (t.settle false) (l.record d (around stack)) := by
  have hinline : d.IsInline := by simp [Decoration.IsInline, hd]
  refine .of_settled (h.toTracks.record (.inl hd)) (h.comes.recorded h.ordered hinline fun ht => ?_) (t.waits_settle false)
  simpa [Token.isContent, hd] using hcontent ht

/-- A text is content where a list waits, unless it is blank. -/
theorem Leads.write (h : e.Leads stack t l) (text : List Char) :
    Leaves (Emit.write text) e
      (fun _ e' => ∃ l', e'.Leads stack (t.opens (if text.all isSpace then none else some false)) l') fun _ _ => True := by
  have htracks : Leaves (Emit.write text) e (fun _ e' => e'.Tracks paragraph stack (l.write text (around stack)))
      (Unanalysed paragraph []) := h.toTracks.write text
  have hblank : (text.dropWhile isSpace).isEmpty = text.all isSpace := by
    rw [Bool.eq_iff_iff, List.isEmpty_iff, List.dropWhile_eq_nil_iff, List.all_eq_true]
  have hordered := h.ordered
  by_cases ht : t.waits = true
  · obtain ⟨henv, -, -⟩ := h.atStart ht
    have hperform := perform_write h.isOpen text
    rw [h.newEnv, henv, Bool.true_or, Bool.true_or, if_pos rfl, hblank] at hperform
    by_cases hall : text.all isSpace = true
    · rw [if_pos hall] at hperform ⊢
      exact Leaves.of_ok hperform ⟨l, h⟩
    · rw [if_neg hall] at hperform ⊢
      obtain ⟨c, s, hcs⟩ := List.exists_cons_of_ne_nil (l := text.dropWhile isSpace) fun hnil => by
        rw [hnil, List.isEmpty_nil] at hblank
        exact hall hblank.symm
      have hc : isSpace c = false := by
        have hhead := List.head?_dropWhile_not isSpace text
        rw [hcs] at hhead
        simpa using hhead
      have hheld : (e.touched.extended (collapseBlanks false (text.dropWhile isSpace))).Tallies (t.settle false) := by
        have htouched : e.touched.Tallies t := h.comes.of_eq rfl rfl rfl rfl
        refine htouched.extended hordered fun _ => ?_
        exact ⟨c, collapseBlanks false s, by rw [hcs]; simp [collapseBlanks, hc], hc⟩
      have hcomes : Leaves (Emit.write text) e (fun _ e' => e'.Tallies (t.settle false)) fun _ _ => True :=
        Leaves.of_ok hperform hheld
      exact (htracks.and hcomes).imp (fun _ e' h' => ⟨_, .of_settled h'.1 h'.2 (t.waits_settle false)⟩)
        fun _ _ _ => trivial
  · have ht' : t.waits = false := by simpa using ht
    rw [Tally.opens_of_settled ht']
    have hcomes : Leaves (Emit.write text) e (fun _ e' => e'.Tallies t) fun _ _ => True := by
      have hextended : ∀ {e' : Emitter}, e'.Tallies t → Ordered 0 e'.decorations e'.buffer.length → ∀ s,
          (e'.extended s).Tallies t := by
        intro e' h' hordered' s
        have hheld := h'.extended hordered' (s := s) fun hwaits => absurd hwaits ht
        rwa [Tally.settle_of_settled ht'] at hheld
      have htouched : e.touched.Tallies t := h.comes.of_eq rfl rfl rfl rfl
      refine Leaves.of_ok (perform_write h.isOpen text) ?_
      split
      · split
        · exact h.comes
        · exact hextended htouched hordered _
      · exact hextended h.comes hordered _
    exact (htracks.and hcomes).imp (fun _ e' h' => ⟨_, .of_settled h'.1 h'.2 ht'⟩) fun _ _ _ => trivial

/-- Steps but for text leave the tally as it is. -/
theorem Leads.step (h : e.Leads stack t l) {o : Operation} (ho : isStep o = true) (htext : ∀ text, o ≠ .write text) :
    Leaves o.perform e (fun _ e' => ∃ l', e'.Leads stack t l') fun _ _ => True := by
  have hany {a : Emit Unit} (l' : Ledger) (ha : Leaves a e (fun _ e' => e'.Leads stack t l') fun _ _ => True) :
      Leaves a e (fun _ e' => ∃ l', e'.Leads stack t l') fun _ _ => True := ha.imp_left fun _ _ h' => ⟨_, h'⟩
  have hag := h.toAgrees
  cases o with
  | write text => exact absurd rfl (htext text)
  | switchDirection direction =>
    refine hany { l.turn with base := direction } <| h.turn.bind fun _ e₁ h₁ => Leaves.of_modify ?_
    have hag₁ := h₁.toAgrees
    exact h₁.alike ⟨rfl, rfl, rfl, rfl, rfl, rfl, rfl⟩ { hag₁ with base := rfl } rfl rfl h₁.atStart
  | setCoverage latinCoverage =>
    refine hany l.turn <| h.turn.bind fun _ e₁ h₁ => Leaves.of_modify ?_
    have hag₁ := h₁.toAgrees
    exact h₁.alike ⟨rfl, rfl, rfl, rfl, rfl, rfl, rfl⟩ { hag₁ with } rfl rfl h₁.atStart
  | deepenList n =>
    exact Leaves.of_modify ⟨{ l with inList := l.inList + n }, h.alike ⟨rfl, rfl, rfl, rfl, rfl, rfl, rfl⟩
      { hag with inList := congrArg (· + n) hag.inList } rfl rfl h.atStart⟩
  | deepenToc n =>
    exact Leaves.of_modify ⟨l, h.alike ⟨rfl, rfl, rfl, rfl, rfl, rfl, rfl⟩ { hag with } rfl rfl h.atStart⟩
  | paragraphBreak => exact hany _ h.paragraphBreak
  | lineBreak => exact hany _ h.lineBreak
  | envBreak => exact hany _ h.envBreak
  | dirBreak => exact hany _ h.turn
  | _ => cases ho

/-! ### Formatting and isolated parts -/

/-- Formatting is content where a list waits. -/
theorem Leads.wrap (h : e.Leads stack t l) (command : String) {content : Emit Unit} (ht' : t'.waits = false)
    (hcontent : ∀ {e' d l'}, e'.Leads (d :: stack) (t.settle false) l' →
      Leaves content e' (fun _ e'' => ∃ l'', e''.Leads (d :: stack) t' l'') fun _ _ => True) :
    Leaves (Emit.wrap command content {}) e (fun _ e' => ∃ l', e'.Leads stack t' l') fun _ _ => True := by
  obtain ⟨d, hd, hstart⟩ := h.recordStart command {}
  have hopened : (e.recorded (.startInline command {})).Leads (d :: stack) (t.settle false) l.touched :=
    .of_settled hstart (h.comes.recorded h.ordered (by simp [Decoration.IsInline, Decoration.startInline]) fun _ => rfl)
      (t.waits_settle false)
  refine Leaves.bind (M := fun _ e₁ => e₁.Leads (d :: stack) (t.settle false) l.touched)
    (Leaves.of_ok (perform_record h.isOpen _) hopened) fun _ e₁ h₁ => Leaves.finishing ?_
  refine (hcontent h₁).imp (fun _ e₂ h₂ => ?_) fun _ e₂ _ =>
    (Leaves.trivial _ e₂).imp (fun _ _ _ => trivial) fun _ _ _ => trivial
  obtain ⟨l₂, h₂⟩ := h₂
  have hcomes := h₂.comes.recorded h₂.ordered (d := .endInline command {})
    (by simp [Decoration.IsInline, Decoration.endInline]) fun _ => rfl
  rw [Tally.settle_of_settled ht'] at hcomes
  exact Leaves.of_ok (perform_record h₂.isOpen _) ⟨_, .of_settled (h₂.recordEnd hd) hcomes ht'⟩

/-- With nothing held back and no formatting open, an emitter comes to what has been written. -/
theorem IsBare.tallies (h : e.IsBare) : e.Tallies e.tally :=
  ⟨by rw [h.decorations]; exact List.forall_mem_nil _, .inl ⟨rfl, fun _ => h⟩⟩

theorem Leads.enterIsolation (h : e.Leads stack t l) :
    Leaves Emit.enterIsolation e (fun saved e' => saved = stack ∧ e'.Tracks paragraph [] l.turn ∧ e'.IsBare ∧
      e'.tally.settle false = t.settle false) fun _ _ => True := by
  refine (h.comes.turn_settled h.toTracks).bind fun _ e₁ h₁ => Leaves.get_bind ?_
  obtain ⟨htracks, hstack, htokens, hbuffer, hdecorations, hcomes⟩ := h₁
  refine Leaves.bind (M := fun _ e₂ => e₂ = { e₁ with stack := [] }) (Leaves.of_modify rfl) ?_
  rintro _ _ rfl
  exact Leaves.of_pure ⟨hstack, htracks.exchange htokens [], ⟨hbuffer, hdecorations, rfl⟩, hcomes.settle_eq⟩

/-- A part outside the formatting that is open, with what it comes to of itself. -/
theorem Leads.isolated (h : e.Leads stack t l) {content : Emit Unit}
    (hcontent : ∀ {e'}, e'.Tracks paragraph [] l.turn → e'.IsBare → e'.tally.settle false = t.settle false →
      Leaves content e' (fun _ e'' => (∃ l', e''.Tracks paragraph [] l') ∧ e''.Tallies t') fun _ _ => True) :
    Leaves (Emit.isolated content) e
      (fun _ e' => ∃ l', e'.Tracks paragraph stack l' ∧ e'.Tallies (t'.within stack.isEmpty)) fun _ _ => True := by
  refine h.enterIsolation.bind ?_
  rintro saved e₁ ⟨rfl, htracks, hbare, htally⟩
  refine Leaves.finishing ?_
  have hchecked : Leaves (content >>= fun _ => checkIsolation) e₁ (fun _ e' => (∃ l', e'.Tracks paragraph [] l') ∧
      e'.IsBare ∧ e'.tokens = [] ∧ e'.tally = t') fun _ _ => True := by
    refine (hcontent htracks hbare htally).bind fun _ e₂ h₂ => ?_
    obtain ⟨⟨l₂, htracks₂⟩, hcomes⟩ := h₂
    refine (hcomes.turn_settled htracks₂).bind fun _ e₃ h₃ => Leaves.get_bind ?_
    obtain ⟨htracks₃, hstack, htokens, hbuffer, hdecorations, hcomes₃⟩ := h₃
    have hbare₃ : e₃.IsBare := ⟨hbuffer, hdecorations, hstack⟩
    simp only [hstack]
    exact Leaves.of_pure ⟨⟨_, htracks₃⟩, hbare₃, htokens, hcomes₃.of_bare hbare₃⟩
  refine hchecked.imp (fun _ e₂ h₂ => Leaves.of_modify ?_) fun _ _ _ => Leaves.of_modify trivial
  obtain ⟨⟨l₂, htracks₂⟩, hbare₂, htokens, rfl⟩ := h₂
  refine ⟨l₂, htracks₂.exchange htokens saved, ?_⟩
  have hinline : ∀ d ∈ ({ e₂ with stack := saved } : Emitter).decorations, d.IsInline := hbare₂.tallies.isInline
  have htally₂ : ({ e₂ with stack := saved } : Emitter).tally = e₂.tally := tally_eq_of_written rfl
  by_cases hwaits : e₂.tally.waits = true
  · cases hs : saved with
    | nil => exact ⟨hinline, .inl ⟨rfl, fun _ => ⟨hbare₂.buffer, hbare₂.decorations, rfl⟩⟩⟩
    | cons d rest =>
      -- The formatting that is open again spoils the list.
      exact ⟨hinline, .inr ⟨hwaits, rfl, .inl (List.cons_ne_nil d rest)⟩⟩
  · have hsettled : e₂.tally.waits = false := by simpa using hwaits
    rw [Tally.within_of_settled hsettled]
    exact .of_tally hinline htally₂ hsettled

/-- A block on a line of its own. -/
theorem Leads.block (h : e.Leads stack t l) {d : Decoration} (hd : d.kind = .startBlock ∨ d.kind = .endBlock) :
    Leaves (writeBlock d) e (fun _ e' => ∃ l', e'.Tracks paragraph stack l' ∧
      e'.Tallies ((t.after (Piece.block d.value).cue).within stack.isEmpty)) fun _ _ => True := by
  refine h.envBreak.bind fun _ e₁ h₁ => h₁.isolated fun {e₂} htracks hbare htally => ?_
  have hperform := perform_record_block htracks.analyzer htracks.isOpen hbare.buffer hbare.decorations hbare.stack hd
  have hcontent : Leaves (Emit.record d >>= fun _ => Emit.envBreak) e₂
      (fun _ e₃ => ∃ l', e₃.Tracks paragraph [] l') fun _ _ => True := by
    refine Leaves.bind (M := fun _ e₃ => ∃ l', e₃.Tracks paragraph [] l')
      (Leaves.of_ok (perform_record htracks.isOpen d) ⟨_, htracks.record (.inr hd)⟩) fun _ e₃ h₃ => ?_
    obtain ⟨l₃, h₃⟩ := h₃
    exact ((coupled_tracks (sound_paragraph l₃.envBreak.turns) []).envBreak h₃ (List.Subset.refl _)).imp
      (fun _ _ h' => ⟨_, h'⟩) fun _ _ _ => trivial
  refine Leaves.of_ok hperform ⟨hcontent.ok hperform, ?_⟩
  set written : Emitter := (e₂.recorded d).turned [.block d.value] [] []
  have houtput : ({ written.wrote [.newline] with newEnv := true } : Emitter).output =
      e₂.output ++ ([.block d.value] ++ [.newline]) := by
    rw [← List.append_assoc]
    exact (output_advance written [.newline] written.stack written.contextDir written.startPara).trans
      (congrArg (· ++ [.newline]) (output_turned (e₂.recorded d) [.block d.value] [] []))
  have hblock : e₂.tally.after (Piece.block d.value).cue = t.after (Piece.block d.value).cue := by
    rw [Piece.cue]
    split
    · rw [Tally.after, Tally.after, htally]
    · exact htally
  have hstack : written.stack = [] := by
    have hcarried : (e₂.recorded d).carried = [] := carried_marks (marks_recorded hbare.decorations (.inr hd))
    show (e₂.recorded d).carried.reverse ++ [] = []
    rw [hcarried]
    rfl
  refine ⟨List.forall_mem_nil _, .inl ⟨?_, fun _ => ⟨rfl, rfl, hstack⟩⟩⟩
  rw [tally_append houtput, List.singleton_append, tallyPieces_cons, tallyPieces_cons, tallyPieces_nil, hblock]
  rfl

/-- An environment begins, at a place where breaks have no effect. -/
theorem Leads.beginEnv (h : e.Leads stack t l) (env options : String) :
    Leaves (Emit.beginEnv env options) e (fun _ e' => ∃ l',
      e'.Leads stack ((t.after (Piece.block (beginCommand env options)).cue).within stack.isEmpty) l')
      fun _ _ => True := by
  refine (h.block (d := { kind := .startBlock, value := beginCommand env options }) (.inl rfl)).bind fun _ e₁ h₁ => ?_
  obtain ⟨l₁, htracks, hcomes⟩ := h₁
  have hag := htracks.toAgrees
  refine Leaves.of_modify ⟨l₁.resetLine, ?_, hcomes.of_eq rfl rfl rfl rfl, fun _ => ⟨rfl, rfl, rfl⟩⟩
  exact (coupled_tracks (sound_paragraph []) stack).alike htracks ⟨rfl, rfl, rfl, rfl, rfl, rfl, rfl⟩
    { hag with newEnv := rfl, newLine := rfl, newPara := rfl } rfl rfl

/-- The end of an environment is content for a list that waits. -/
theorem Leads.endEnv (h : e.Leads stack t l) (env : String) :
    Leaves (Emit.endEnv env) e (fun _ e' => ∃ l', e'.Leads stack (t.settle false) l') fun _ _ => True := by
  have hcue : (Piece.block (endCommand env)).cue = .content := by
    simp [Piece.cue, beginsList, begunEnvironment?_endCommand]
  have hblock := h.block (d := { kind := .endBlock, value := endCommand env }) (.inr rfl)
  rw [hcue, Tally.after, Tally.within_of_settled (t.waits_settle false)] at hblock
  refine hblock.bind fun _ e₁ h₁ => ?_
  obtain ⟨l₁, htracks, hcomes⟩ := h₁
  have hag := htracks.toAgrees
  refine Leaves.of_modify ⟨{ l₁ with newLine := true, newPara := true }, .of_settled ?_ (hcomes.of_eq rfl rfl rfl rfl)
    (t.waits_settle false)⟩
  exact (coupled_tracks (sound_paragraph []) stack).alike htracks ⟨rfl, rfl, rfl, rfl, rfl, rfl, rfl⟩
    { hag with newLine := rfl, newPara := rfl } rfl rfl

/-- In the end everything is written. -/
theorem Leads.flush (h : e.Leads [] t l) : Leaves Emit.flush e (fun _ e' => e'.tally = t) fun _ _ => True := by
  refine h.envBreak.bind fun _ e₁ h₁ => (h₁.comes.turn_settled h₁.toTracks).bind fun _ e₂ h₂ => Leaves.get_bind ?_
  obtain ⟨-, hstack, -, hbuffer, hdecorations, hcomes⟩ := h₂
  simp only [hstack]
  exact Leaves.of_modify (hcomes.of_bare ⟨hbuffer, hdecorations, hstack⟩)

/-! ### Fragments where a list opens -/

/-- Nothing but fragments is held back, no formatting is open, and with the fragments the output comes to the tally. -/
structure Marked (e : Emitter) (t : Tally) : Prop where
  buffer : e.buffer = []
  stack : e.stack = []
  fragments : ∀ d ∈ e.decorations, d.kind = .raw
  comes : tallyPieces e.tally (e.decorations.flatMap Decoration.pieces) = t

theorem IsBare.marked (h : e.IsBare) : e.Marked e.tally :=
  ⟨h.buffer, h.stack, by rw [h.decorations]; exact List.forall_mem_nil _, by rw [h.decorations]; rfl⟩

theorem Marked.recorded (h : e.Marked t) (value : String) :
    (e.recorded (.raw value)).Marked (t.after (fragmentCue value)) := by
  refine ⟨h.buffer, h.stack, ?_, ?_⟩
  · exact List.forall_mem_append.2 ⟨h.fragments, List.forall_mem_singleton.2 rfl⟩
  · show tallyPieces e.tally ((e.decorations ++ [_]).flatMap Decoration.pieces) = _
    rw [List.flatMap_append, tallyPieces_append, h.comes]
    rfl

/-- A turn writes the fragments. -/
theorem Marked.perform_writeHeld (h : e.Marked t) (hanalyzer : e.analyzer = paragraph) (hopen : e.closed = false) :
    ∃ e', writeHeld.perform e = (.ok (), e') ∧ e'.IsBare ∧ e'.tally = t ∧ e'.closed = false := by
  have hmarks : ∀ d ∈ e.decorations, d.kind = .raw ∨ d.kind = .startBlock ∨ d.kind = .endBlock :=
    fun d hd => .inl (h.fragments d hd)
  refine ⟨_, perform_writeHeld_marks hanalyzer hopen h.buffer h.stack hmarks, ⟨rfl, rfl, ?_⟩, ?_, hopen⟩
  · show e.carried.reverse ++ [] = []
    rw [carried_marks hmarks]
    rfl
  · rw [tally_append (output_turned e _ _ _)]
    exact h.comes

/-- Some more fragments, and the turn that writes them. -/
theorem Marked.performAll (h : e.Marked t) (hanalyzer : e.analyzer = paragraph) (hopen : e.closed = false)
    (values : List String) :
    Leaves (Latex.performAll (values.map (fun value => .record (.raw value)) ++ [.dirBreak])) e
      (fun _ e' => e'.IsBare ∧ e'.tally = tallyPieces t (values.map .fragment)) fun _ _ => True := by
  induction values generalizing e t with
  | nil =>
    obtain ⟨e', hperform, hbare, htally, -⟩ := h.perform_writeHeld hanalyzer hopen
    exact Leaves.bind (M := fun _ e' => e'.IsBare ∧ e'.tally = t) (Leaves.of_ok hperform ⟨hbare, htally⟩)
      fun _ _ h' => Leaves.of_pure h'
  | cons value values ih =>
    refine Leaves.bind (M := fun _ e' => e' = e.recorded (.raw value)) (Leaves.of_ok (perform_record hopen _) rfl) ?_
    rintro _ _ rfl
    exact ih (h.recorded value) hanalyzer hopen

/-- The style of a list that waits, and the break behind it. The list waits on, and a break of any kind has no effect
once all marks are set again. -/
theorem Leads.small (h : e.Leads stack t l) (ht : t.waits = true) :
    ∃ e' l', Emit.envBreak.perform (e.recorded (.raw "\\small\n")) = (.ok (), e') ∧
      { e' with newLine := true, newPara := true }.Leads stack t l' ∧ e'.newEnv = true ∧ e'.closed = false := by
  obtain ⟨rfl, hbare⟩ := h.comes.of_waits ht
  have hmarked : (e.recorded (.raw "\\small\n")).Marked e.tally := hbare.marked.recorded "\\small\n"
  obtain ⟨e₁, hwrite, hbare₁, htally, hopen⟩ := hmarked.perform_writeHeld h.analyzer h.isOpen
  have hbreak := perform_envBreak rfl hwrite hopen
  set e₂ : Emitter := { e₁.wrote [.newline] with newEnv := true }
  have hrecorded := h.toTracks.record (d := .raw "\\small\n") (.inl rfl)
  set l₁ : Ledger := l.record (.raw "\\small\n") (around stack)
  have htracks : e₂.Tracks paragraph stack l₁.envBreak :=
    ((coupled_tracks (sound_paragraph l₁.envBreak.turns) stack).envBreak hrecorded (List.Subset.refl _)).ok hbreak
  have hag := htracks.toAgrees
  have hbare₂ : e₂.IsBare := ⟨hbare₁.buffer, hbare₁.decorations, hbare₁.stack⟩
  have htally₂ : e₂.tally = e.tally := by
    have houtput : e₂.output = e₁.output ++ [.newline] := output_advance e₁ _ e₁.stack e₁.contextDir e₁.startPara
    rw [tally_append houtput, htally]
    rfl
  refine ⟨e₂, { l₁.envBreak with newLine := true, newPara := true }, hbreak, ⟨?_, ?_, fun _ => ?_⟩, rfl, hopen⟩
  · exact (coupled_tracks (sound_paragraph []) stack).alike htracks ⟨rfl, rfl, rfl, rfl, rfl, rfl, rfl⟩
      { hag with newLine := rfl, newPara := rfl } rfl rfl
  · exact ⟨hbare₂.tallies.isInline, .inl ⟨htally₂, fun _ => ⟨hbare₂.buffer, hbare₂.decorations, hbare₂.stack⟩⟩⟩
  · exact ⟨hag.newEnv.symm, rfl, rfl⟩

end Emitter

/-! ### Programs -/

/-- A program with what it shows first, and whether its lists open with items where formatting is open and where none is. -/
structure Shows (os : List Operation) (opening? : Option Bool) (good : Bool → Bool) : Prop where
  leads : ∀ {e stack t l}, Emitter.Leads e stack t l → Leaves (performAll os) e
    (fun _ e' => ∃ l', e'.Leads stack (t.through opening? (good stack.isEmpty)) l') fun _ _ => True

/-- The same where no list waits: then it does not matter what the program shows first. -/
structure Passes (os : List Operation) (good : Bool → Bool) : Prop where
  leads : ∀ {e stack t l}, Tally.waits t = false → Emitter.Leads e stack t l → Leaves (performAll os) e
    (fun _ e' => ∃ l', e'.Leads stack (t.through none (good stack.isEmpty)) l') fun _ _ => True

section Programs

variable {os os' : List Operation} {opening? opening'? : Option Bool} {good good' : Bool → Bool}

theorem Shows.passes (h : Shows os opening? good) : Passes os good := by
  refine ⟨fun {e stack t l} ht hl => ?_⟩
  have hos := h.leads hl
  rwa [Tally.through, Tally.opens_of_settled ht] at hos

theorem Shows.append (h : Shows os opening? good) (h' : Shows os' opening'? good') :
    Shows (os ++ os') (opening?.or opening'?) (fun outside => good outside && good' outside) := by
  refine ⟨fun {e stack t l} hl => ?_⟩
  rw [performAll_append]
  refine (h.leads hl).bind fun _ e₁ h₁ => ?_
  obtain ⟨l₁, h₁⟩ := h₁
  have hos' := h'.leads h₁
  rwa [Tally.through_through] at hos'

/-- Once a program has shown something, it does not matter what comes next. -/
theorem Shows.before {item : Bool} (h : Shows os (some item) good) (h' : Passes os' good') :
    Shows (os ++ os') (some item) (fun outside => good outside && good' outside) := by
  refine ⟨fun {e stack t l} hl => ?_⟩
  rw [performAll_append]
  refine (h.leads hl).bind fun _ e₁ h₁ => ?_
  obtain ⟨l₁, h₁⟩ := h₁
  have hsettled : (t.through (some item) (good stack.isEmpty)).waits = false := t.waits_settle item
  have hos' := h'.leads hsettled h₁
  rwa [Tally.through_through] at hos'

theorem Passes.append (h : Passes os good) (h' : Passes os' good') :
    Passes (os ++ os') (fun outside => good outside && good' outside) := by
  refine ⟨fun {e stack t l} ht hl => ?_⟩
  rw [performAll_append]
  refine (h.leads ht hl).bind fun _ e₁ h₁ => ?_
  obtain ⟨l₁, h₁⟩ := h₁
  have hos' := h'.leads (Tally.waits_through_of_settled ht none _) h₁
  rwa [Tally.through_through] at hos'

theorem Shows.nil : Shows [] none fun _ => true := by
  refine ⟨fun {e stack t l} hl => ?_⟩
  rw [Tally.through_true]
  exact Leaves.of_pure ⟨l, hl⟩

/-- A program of one operation. -/
theorem Shows.of_perform {o : Operation} (h : ∀ {e stack t l}, Emitter.Leads e stack t l →
    Leaves o.perform e (fun _ e' => ∃ l', e'.Leads stack (t.through opening? (good stack.isEmpty)) l') fun _ _ => True) :
    Shows [o] opening? good :=
  ⟨fun hl => (h hl).bind fun _ _ h' => Leaves.of_pure h'⟩

/-- What a step shows. -/
def stepOpening? : Operation → Option Bool
  | .write text => if text.all isSpace then none else some false
  | _ => none

theorem Shows.step {o : Operation} (ho : isStep o = true) : Shows [o] (stepOpening? o) fun _ => true := by
  refine .of_perform fun {e stack t l} hl => ?_
  rw [Tally.through_true]
  by_cases htext : ∃ text, o = .write text
  · obtain ⟨text, rfl⟩ := htext
    exact hl.write text
  · have hnone : stepOpening? o = none := by
      cases o with
      | write text => exact absurd ⟨text, rfl⟩ htext
      | _ => rfl
    rw [hnone]
    exact hl.step ho fun text h => htext ⟨text, h⟩

theorem Shows.resetLine : Shows [.resetLine] none fun _ => true := by
  refine .of_perform fun {e stack t l} hl => ?_
  rw [Tally.through_true]
  exact hl.resetLine.imp_left fun _ _ h' => ⟨_, h'⟩

theorem Shows.assumeDirection (direction : NamedDirection) : Shows [.assumeDirection direction] none fun _ => true := by
  refine .of_perform fun {e stack t l} hl => ?_
  rw [Tally.through_true]
  exact (hl.assumeDirection direction).imp_left fun _ _ h' => ⟨_, h'⟩

/-- A fragment is content where a list waits, or no list does. -/
theorem Shows.fragment {value : String} (h : fragmentCue value = .content) :
    Shows [.record (.raw value)] (some false) fun _ => true := by
  refine .of_perform fun {e stack t l} hl => ?_
  rw [Tally.through_true]
  exact Leaves.of_ok (perform_record hl.isOpen _) ⟨_, hl.record rfl fun _ => h⟩

theorem Passes.record {d : Decoration} (hd : d.kind = .raw) : Passes [.record d] fun _ => true := by
  refine ⟨fun {e stack t l} ht hl => ?_⟩
  have hrecorded := hl.record hd fun hwaits => by cases ht.symm.trans hwaits
  rw [Tally.settle_of_settled ht] at hrecorded
  rw [Tally.through_true]
  exact Leaves.bind (M := fun _ e' => ∃ l', e'.Leads stack t l') (Leaves.of_ok (perform_record hl.isOpen _) ⟨_, hrecorded⟩)
    fun _ _ h' => Leaves.of_pure h'

/-- Operations that neither nest nor concern environments show nothing that matters where no list waits. -/
theorem Passes.simple {o : Operation} (ho : isSimple o = true) : Passes [o] fun _ => true := by
  cases o with
  | resetLine => exact Shows.resetLine.passes
  | record d => exact Passes.record (by simpa [isSimple] using ho)
  | write _ | switchDirection _ | setCoverage _ | deepenList _ | deepenToc _ | paragraphBreak | lineBreak | envBreak | dirBreak =>
    exact (Shows.step rfl).passes
  | _ => cases ho

theorem Passes.all {os : List Operation} (h : ∀ o ∈ os, isSimple o = true) : Passes os fun _ => true := by
  induction os with
  | nil => exact Shows.nil.passes
  | cons o os ih =>
    obtain ⟨ho, hos⟩ := List.forall_mem_cons.1 h
    exact (Passes.simple ho).append (ih hos)

/-- What stands inside formatting is not outside. -/
theorem Passes.wrap (h : Passes os good) (command : String) :
    Shows [.wrap command {} os] (some false) fun _ => good false := by
  refine .of_perform fun {e stack t l} hl => ?_
  refine hl.wrap command (t.waits_settle false) fun {e' d l'} h' => ?_
  have hos := h.leads (t.waits_settle false) h'
  rwa [Tally.through, Tally.opens_of_settled (t.waits_settle false)] at hos

theorem Shows.resuming (h : Shows os opening? good) : Shows [.resuming os] opening? good := by
  refine .of_perform fun {e stack t l} hl => Leaves.get_bind ?_
  refine (h.leads hl).bind fun _ e₁ h₁ => ?_
  obtain ⟨l₁, h₁⟩ := h₁
  exact (h₁.assumeDirection _).imp_left fun _ _ h' => ⟨_, h'⟩

/-- An environment that is no list. -/
theorem Passes.environment {env : String} (h : Passes os good) (options : String)
    (hlist : beginsList (beginCommand env options) = false) :
    Shows (.beginEnv env options :: os ++ [.endEnv env]) (some false) good := by
  have hbegin : Shows [.beginEnv env options] (some false) fun _ => true := by
    refine .of_perform fun {e stack t l} hl => ?_
    have hcue : (Piece.block (beginCommand env options)).cue = .content := by simp [Piece.cue, hlist]
    have hopened := hl.beginEnv env options
    rw [hcue, Tally.after, Tally.within_of_settled (t.waits_settle false)] at hopened
    rwa [Tally.through_true]
  have hend : Passes [.endEnv env] fun _ => true := by
    have hshows : Shows [.endEnv env] (some false) fun _ => true := by
      refine .of_perform fun {e stack t l} hl => ?_
      rw [Tally.through_true]
      exact hl.endEnv env
    exact hshows.passes
  simpa using hbegin.before (h.append hend)

/-- A list, which has to stand outside formatting and to show an item first. -/
theorem Shows.list {env : String} (h : Shows os opening? good) (options : String)
    (hlist : beginsList (beginCommand env options) = true) :
    Shows (.beginEnv env options :: os ++ [.endEnv env]) (some false)
      fun outside => outside && opening? == some true && good outside := by
  refine ⟨fun {e stack t l} hl => ?_⟩
  have hcue : (Piece.block (beginCommand env options)).cue = .list := by simp [Piece.cue, hlist]
  have hopened := hl.beginEnv env options
  rw [hcue] at hopened
  have hsplit : performAll (.beginEnv env options :: os ++ [.endEnv env]) = (do
      Emit.beginEnv env options
      performAll os
      performAll [.endEnv env]) := by
    rw [List.cons_append, performAll, performAll_append]
    rfl
  rw [hsplit]
  refine hopened.bind fun _ e₁ h₁ => ?_
  obtain ⟨l₁, h₁⟩ := h₁
  refine (h.leads h₁).bind fun _ e₂ h₂ => ?_
  obtain ⟨l₂, h₂⟩ := h₂
  refine (h₂.endEnv env).bind fun _ e₃ h₃ => Leaves.of_pure ?_
  obtain ⟨l₃, h₃⟩ := h₃
  have htally : (((t.after .list).within stack.isEmpty).through opening? (good stack.isEmpty)).settle false =
      t.through (some false) (stack.isEmpty && opening? == some true && good stack.isEmpty) := by
    generalize good stack.isEmpty = inner
    generalize stack.isEmpty = outside
    obtain ⟨_ | _, _ | _⟩ := t <;> rcases opening? with _ | _ | _ <;> cases inner <;> cases outside <;> rfl
  exact ⟨l₃, htally ▸ h₃⟩

/-- Fragments the first of which begins an item, and the turn that writes them. -/
theorem Shows.item {value : String} (hitem : isItem value = true) (values : List String) :
    Shows ((value :: values).map (fun value => .record (.raw value)) ++ [.dirBreak]) (some true) fun _ => true := by
  have hsimple : ∀ o ∈ (value :: values).map (fun value => Operation.record (.raw value)) ++ [.dirBreak],
      isSimple o = true := by
    refine List.forall_mem_append.2 ⟨List.forall_mem_map.2 fun _ _ => rfl, List.forall_mem_singleton.2 rfl⟩
  refine ⟨fun {e stack t l} hl => ?_⟩
  by_cases ht : t.waits = true
  · have hn : wellNestedAll ((value :: values).map (fun value => Operation.record (.raw value)) ++ [.dirBreak]) = true := by
      rw [wellNestedAll_append, Bool.and_eq_true]
      refine ⟨?_, rfl⟩
      generalize value :: values = all
      induction all with
      | nil => rfl
      | cons _ _ ih => exact ih
    obtain ⟨rfl, hbare⟩ := hl.comes.of_waits ht
    have hcoherent := performAll_coherent hn ⟨l, hl.toTracks⟩
    refine (hcoherent.and (hbare.marked.performAll hl.analyzer hl.isOpen (value :: values))).imp (fun _ e' h' => ?_)
      fun _ _ _ => trivial
    obtain ⟨⟨l', htracks⟩, hbare', htally⟩ := h'
    have hcue : (Piece.fragment value).cue = .item := Piece.cue_eq_item.2 ⟨value, rfl, hitem⟩
    have hrest : ∀ p ∈ values.map Piece.fragment, p.cue ≠ .list := by
      refine List.forall_mem_map.2 fun value _ hlist => ?_
      obtain ⟨_, heq, -⟩ := Piece.cue_eq_list.1 hlist
      cases heq
    rw [List.map_cons, tallyPieces_cons, hcue, Tally.after,
      tallyPieces_of_settled (Tally.waits_settle _ true) hrest] at htally
    rw [Tally.through_true]
    exact ⟨l', .of_settled htracks (.of_tally hbare'.tallies.isInline htally (Tally.waits_settle _ true))
      (Tally.waits_settle _ true)⟩
  · have hsettled : t.waits = false := by simpa using ht
    have hall := (Passes.all hsimple).leads hsettled hl
    rwa [Tally.through_true, Tally.opens_of_settled hsettled] at hall ⊢

/-- The style of a list is set at its start, if an item comes after the break behind it. -/
theorem Shows.small {d : Decoration} {rest : List Operation}
    (h : Shows (.envBreak :: .record d :: rest) opening? good) :
    Shows (.record (.raw "\\small\n") :: .envBreak :: .record d :: rest) opening? good := by
  refine ⟨fun {e stack t l} hl => ?_⟩
  by_cases ht : t.waits = true
  · obtain ⟨e₁, l₁, hbreak, hleads, henv, hopen⟩ := hl.small ht
    refine (h.leads hleads).of_perform_eq ?_
    set e₂ : Emitter := { e₁ with newLine := true, newPara := true }
    have hstays : Emit.envBreak.perform e₂ = (.ok (), e₂) := by
      rw [Emit.envBreak, perform_bind, perform_get]
      simp only [show e₂.newEnv = true from henv, if_true, perform_pure]
    -- What is recorded next takes back all marks of breaks.
    have hsame : e₁.recorded d = e₂.recorded d := rfl
    have hopen₂ : e₂.closed = false := hopen
    simp only [performAll, Operation.perform, perform_bind, perform_record hl.isOpen, hbreak, hstays,
      perform_record hopen, perform_record hopen₂, hsame]
  · have hsettled : t.waits = false := by simpa using ht
    rw [← List.singleton_append, performAll_append]
    refine ((Passes.record (d := .raw "\\small\n") rfl).leads hsettled hl).bind fun _ e₁ h₁ => ?_
    obtain ⟨l₁, h₁⟩ := h₁
    rw [Tally.through_true] at h₁
    exact h.leads h₁

/-- A list with its style shows what it shows without. -/
theorem Shows.styled {env : String} {styles : List String} (h : Shows os opening? good) (hset : IsSetUp env styles os) (henv : env ∈ listEnvironments) :
    Shows (styleOperations styles ++ os) opening? good := by
  by_cases hstyles : styles = []
  · subst hstyles
    exact h
  · obtain ⟨rfl, reference?, rest, rfl⟩ := hset henv hstyles
    exact h.small

theorem Passes.headingText (h : Passes os good) (language? : Option HeadingLanguage) :
    Passes (headingText language? os) fun outside => good (outside && language?.isNone) := by
  have hlast : Passes [.dirBreak] fun _ => true := Passes.simple rfl
  cases language? with
  | none =>
    have hfirst : Passes [.dirBreak, .resetLine] fun _ => true := Passes.all (by simp [isSimple])
    simpa [Article.headingText] using (hfirst.append h).append hlast
  | some l =>
    have hswitch : Passes [.switchDirection l.direction, .resetLine] fun _ => true := Passes.all (by simp [isSimple])
    have hinner := (Shows.assumeDirection (Language.ofCode l.code).direction).passes.append (hswitch.append h)
    have hwrap := (hinner.wrap (languageCommand (.ofCode l.code) l.withOptions)).passes
    simpa [Article.headingText] using (hlast.append hwrap).append hlast

/-- A heading is content where a list waits, and its parts stand outside the formatting that is open. -/
theorem Passes.heading (h : Passes os good) {command : String} (hcommand : command ∈ sectionCommands) :
    Shows [.isolated (.deepenToc 1 :: .record (.raw (shortOpening command)) :: os)] (some false)
      fun _ => good true := by
  refine .of_perform fun {e stack t l} hl => ?_
  have hcue : fragmentCue (shortOpening command) = .content :=
    (by decide : ∀ command ∈ sectionCommands, fragmentCue (shortOpening command) = .content) command hcommand
  have hinline : (Decoration.raw (shortOpening command)).IsInline := by simp [Decoration.IsInline, Decoration.raw]
  have hsettled := t.waits_settle false
  have hfinal : (t.through (some false) (good true)).waits = false := hsettled
  have hcontent : ∀ {e₁ : Emitter}, e₁.Tracks paragraph [] l.turn → e₁.IsBare → e₁.tally.settle false = t.settle false →
      Leaves (performAll (.deepenToc 1 :: .record (.raw (shortOpening command)) :: os)) e₁
        (fun _ e₂ => (∃ l₂, e₂.Tracks paragraph [] l₂) ∧ e₂.Tallies (t.through (some false) (good true)))
        fun _ _ => True := by
    intro e₁ htracks hbare htally
    refine Leaves.bind (M := fun _ e₂ => e₂ = { e₁ with inToc := e₁.inToc + 1 }) (Leaves.of_modify rfl) ?_
    rintro _ e₂ rfl
    have htracks₂ := (Emitter.coupled_tracks (sound_paragraph []) []).deepenToc htracks 1
    have hcomes₂ : ({ e₁ with inToc := e₁.inToc + 1 } : Emitter).Tallies e₁.tally :=
      hbare.tallies.of_eq rfl rfl rfl rfl
    have hopened := hcomes₂.recorded htracks₂.ordered hinline fun _ => decide_eq_true hcue
    rw [htally] at hopened
    refine Leaves.bind (M := fun _ e₃ => ∃ l₃, e₃.Leads [] (t.settle false) l₃)
      (Leaves.of_ok (perform_record htracks₂.isOpen _) ⟨_, .of_settled (htracks₂.record (.inl rfl)) hopened hsettled⟩)
      fun _ e₃ h₃ => ?_
    obtain ⟨l₃, h₃⟩ := h₃
    refine (h.leads hsettled h₃).imp_left fun _ e₄ h₄ => ?_
    obtain ⟨l₄, h₄⟩ := h₄
    exact ⟨⟨l₄, h₄.toTracks⟩, h₄.comes⟩
  have hisolated := hl.isolated hcontent
  rw [Tally.within_of_settled hfinal] at hisolated
  refine hisolated.imp_left fun _ e' h' => ?_
  obtain ⟨l', htracks, hcomes⟩ := h'
  exact ⟨l', .of_settled htracks hcomes hfinal⟩

end Programs

end WikiTypeset.Latex

namespace WikiTypeset.Article

open Latex Html

/-! ### Layouts -/

namespace Layout

/-- Whether what a layout shows first is an item or a term; none if it shows nothing. -/
def opening? : Layout → Option Bool
  | empty => none
  | append first second => first.opening?.or second.opening?
  | step o _ => stepOpening? o
  | fragment .. | wrap .. | languageInline .. | environment .. | languageBlock .. | heading .. => some false
  | resuming content => content.opening?
  | item _ | term .. => some true

/-- Whether all lists of a layout stand outside formatting and show an item or a term first, if `outside` says that the
layout does. -/
def listsOpen (outside : Bool) : Layout → Bool
  | empty | step .. | fragment .. | item _ => true
  | append first second => first.listsOpen outside && second.listsOpen outside
  | wrap _ _ content | languageInline _ _ content => content.listsOpen false
  | resuming content | languageBlock _ _ _ _ content | term _ content => content.listsOpen outside
  | environment env _ _ before _ _ content =>
    (decide (env ∉ listEnvironments) || outside && before.opening?.or content.opening? == some true) &&
      (before.listsOpen outside && content.listsOpen outside)
  | heading _ _ shortLanguage? language? short text =>
    short.listsOpen shortLanguage?.isNone && text.listsOpen language?.isNone

end Layout

theorem IsContent.fragmentCue {value : String} (h : IsContent value) : fragmentCue value = .content := by
  have hitem : isItem value = false := by
    have hnot := h.not_isStructural
    rw [isStructural, Bool.or_eq_false_iff] at hnot
    exact hnot.1
  have hstyle : value ≠ "\\small\n" := by
    rintro rfl
    obtain ⟨s, hs, hstarts⟩ := h.starts
    have hnone := (by decide : ∀ s ∈ contentStarts, s.isPrefixOf "\\small\n".toList = false) s hs
    cases hnone.symm.trans (List.isPrefixOf_iff_prefix.2 hstarts)
  simp [Latex.fragmentCue, hitem, hstyle]

theorem beginsList_plain {env : String} (h : env ∈ plainEnvironments) (options : String) :
    beginsList (beginCommand env options) = decide (env ∈ listEnvironments) := by
  have hname : '\x7d' ∉ env.toList :=
    (by decide : ∀ env ∈ plainEnvironments, '\x7d' ∉ env.toList) env h
  simp [beginsList, begunEnvironment?_beginCommand hname]

/-- The environments of languages are no lists. -/
theorem beginsList_language {l : Language} (hl : l ∈ languages) (options : String) :
    beginsList (beginCommand l.environment options) = false := by
  have hlists : ∀ env ∈ listEnvironments, env ∈ plainEnvironments := by decide
  obtain ⟨l', hfind, -⟩ := environmentLanguage?_environment hl
  have hnone : l.environment ∉ listEnvironments := fun hmem => by
    cases (environmentLanguage?_plain (hlists _ hmem)).symm.trans hfind
  simp [beginsList, begunEnvironment?_beginCommand (name_mem_languages l hl), hnone]

theorem passes_styleOperations (styles : List String) : Passes (styleOperations styles) fun _ => true :=
  Passes.all <| List.forall_mem_map.2 fun _ _ => rfl

/-- What the program of a layout shows is what the layout shows. -/
theorem Layout.shows (l : Layout) (hset : l.IsSetUp) : Shows l.program l.opening? (l.listsOpen ·) := by
  induction l with
  | empty => exact .nil
  | append _ _ ih ih' => exact (ih hset.1).append (ih' hset.2)
  | step o ho => exact .step ho
  | fragment value h => exact .fragment h.fragmentCue
  | wrap command _ _ ih => exact (ih hset).passes.wrap command
  | languageInline code withOptions _ ih =>
    have hinner := (Shows.assumeDirection (Language.ofCode code).direction).append (ih hset)
    simpa [program, opening?, listsOpen] using hinner.passes.wrap (languageCommand (.ofCode code) withOptions)
  | resuming _ ih => exact (ih hset).resuming
  | environment env options henv before styles _ content ih ih' =>
    obtain ⟨hstyled, hbefore, hcontent⟩ := hset
    have hfirst := ih hbefore
    have hlast := ih' hcontent
    have hblock := beginsList_plain henv options
    by_cases hlist : env ∈ listEnvironments
    · have hall := (hfirst.append (hlast.styled hstyled hlist)).list options (by simpa [hlist] using hblock)
      simpa [program, opening?, listsOpen, hlist] using hall
    · have hinner := hfirst.passes.append ((passes_styleOperations styles).append hlast.passes)
      have hall := hinner.environment options (by simpa [hlist] using hblock)
      simpa [program, opening?, listsOpen, hlist] using hall
  | languageBlock code coverage? styles _ _ ih =>
    have hfont : Passes (fontOperations (.ofCode code)) fun _ => true := by
      unfold fontOperations
      split
      · exact Passes.all (by simp [isSimple, Decoration.raw])
      · exact Shows.nil.passes
    have hcoverage : Passes (coverage?.toList.map .setCoverage) fun _ => true :=
      Passes.all <| List.forall_mem_map.2 fun _ _ => rfl
    have hentered := (hfont.append hcoverage).append (Shows.assumeDirection (Language.ofCode code).direction).passes
    have hinner := hentered.append ((passes_styleOperations styles).append (ih hset).passes)
    have hall := hinner.environment (Language.ofCode code).options (beginsList_language (ofCode_mem_languages code) _)
    simpa [program, enteringLanguage, opening?, listsOpen] using hall
  | item reference? =>
    have hitem := Shows.item (isItem_itemMark reference?) []
    simpa [program, opening?, listsOpen] using hitem.before Shows.resetLine.passes
  | term long _ ih =>
    have hreset := Shows.resetLine.passes
    have hclosing : Passes (.dirBreak :: (if long then [.record (.raw "\x7d")] else []) ++ [.record (.raw "]"), .dirBreak])
        fun _ => true := Passes.all (by cases long <;> simp [isSimple, Decoration.raw])
    have hlabel : isItem labelOpening = true := by decide
    have hall := (Shows.item hlabel (if long then [boxOpening] else [])).before
      (hreset.append ((ih hset).passes.append hclosing))
    cases long <;> simpa [program, termText, opening?, listsOpen] using hall
  | heading command hcommand shortLanguage? language? _ _ ih ih' =>
    have hturn : Passes [.deepenToc (-1), .record (.raw "]\x7b")] fun _ => true := Passes.all (by simp [isSimple, Decoration.raw])
    have hclosing : Passes [.record (.raw "\x7d")] fun _ => true := Passes.simple rfl
    have hparts := ((((ih hset.1).passes.headingText shortLanguage?).append hturn).append
      ((ih' hset.2).passes.headingText language?)).append hclosing
    simpa [program, opening?, listsOpen] using hparts.heading hcommand

/-! ### Documents -/

/-- Whatever the document, its typesetting performs the program of a layout, and the lists of the output all open with an
item just if those of the layout stand outside formatting and show an item or a term first. -/
theorem document_lists_open_iff (document : Element) (title? : Option String) (lang : String) (options : ArticleOptions)
    (warned : List String) :
    Leaves (typesetDocument document title? lang) (start options (.known options.direction) warned)
      (fun _ t => ∃ l : Layout,
        (performAll (l.program ++ [.flush])).perform (Emitter.start (.known options.direction)) = (.ok (), t.emitter) ∧
          (ListsOpen t.emitter.output ↔ l.listsOpen true = true))
      fun _ _ => True := by
  refine (typesetDocument_words document title? lang options warned).imp (fun _ t h => ?_) fun _ _ _ => trivial
  obtain ⟨l, -, hset, -, hperform⟩ := h
  refine ⟨l, hperform, ?_⟩
  have hstart : (Emitter.start (.known options.direction)).Leads [] {} (Ledger.start (.known options.direction)) :=
    .of_settled (start_tracks Bidi.paragraph _) (.of_tally (List.forall_mem_nil _) rfl rfl) rfl
  have htally : Leaves (performAll (l.program ++ [.flush])) (Emitter.start (.known options.direction))
      (fun _ e => e.tally = ⟨l.listsOpen true, false⟩) fun _ _ => True := by
    rw [performAll_append]
    refine ((l.shows hset).leads hstart).bind fun _ e₁ h₁ => ?_
    obtain ⟨l₁, h₁⟩ := h₁
    have hend := h₁.flush
    rw [Tally.through, Tally.opens_of_settled rfl] at hend
    exact hend.bind fun _ _ h' => Leaves.of_pure h'
  have hfinal : tallyPieces {} t.emitter.output = ⟨l.listsOpen true, false⟩ := htally.ok hperform
  rw [listsOpen_iff, hfinal]
  simp

/-- A list whose only item is hidden. -/
def hiddenItem : Element :=
  { name := "[document]"
    children := [.element "ul" [] [.element "li" [⟨"class", .words ["noprint"]⟩] [.text .plain ['x']]]] }

/-- The list is left without an item. -/
theorem hiddenItem_leaves_none :
    ∃ t, (typesetDocument hiddenItem none "en").perform (start {} (.known .ltr) []) = (.ok (), t) ∧
      ¬ ListsOpen t.emitter.output := by
  have hok : ((typesetDocument hiddenItem none "en").perform (start {} (.known .ltr) [])).1.toBool = true := by
    decide +kernel
  have htally : tallyPieces {} ((typesetDocument hiddenItem none "en").perform (start {} (.known .ltr) [])).2.emitter.output ≠
      ⟨true, false⟩ := by
    decide +kernel
  rcases hperform : (typesetDocument hiddenItem none "en").perform (start {} (.known .ltr) []) with ⟨c | _, t⟩
  · simp [hperform, Except.toBool] at hok
  · rw [hperform] at htally
    exact ⟨t, rfl, fun hopen => htally (listsOpen_iff.1 hopen)⟩

end WikiTypeset.Article
