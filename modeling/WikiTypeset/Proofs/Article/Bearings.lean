import WikiTypeset.Proofs.Article.Documents
import WikiTypeset.Proofs.Emission.Following

/-!
# Documents and their bearings

The replay of a document's output knows where it is at all times: environments and groups nest, and the emitter's
direction is the assumed one. As long as a bearing is settled it is right. So the emitter is right about the direction of
a document just if it is where it has left an environment in another direction than it found, or has gone back to a
direction of its own. Main statement: `document_bearings`.
-/

namespace WikiTypeset.Article

open Action Latex Emit Html

/-! ### Environments by name -/

/-- No language has the name of another environment, and none a name that ends its argument early. -/
theorem codeTable_names : ∀ e ∈ Language.codeTable,
    '\x7d' ∉ e.language.toList ∧ e.language ∉ plainEnvironments ∧ e.language ≠ "Arabic" := by
  decide +kernel

theorem name_mem_languages : ∀ l ∈ languages, '\x7d' ∉ l.environment.toList := by
  intro l hl
  obtain ⟨e, he, rfl⟩ := List.mem_map.1 hl
  show '\x7d' ∉ (Language.environmentOf e.language).toList
  unfold Language.environmentOf
  split
  · simp
  · exact (codeTable_names e he).1

theorem ofCode_mem_languages (code : String) : Language.ofCode code ∈ languages := by
  have hdefault : (Language.row? Language.defaultCode).isSome = true := by decide
  obtain ⟨e, he⟩ : ∃ e, Language.row? (Language.resolvedCode code) = some e := by
    unfold Language.resolvedCode Language.isKnown
    split
    · exact Option.isSome_iff_exists.1 ‹_›
    · split
      · exact Option.isSome_iff_exists.1 ‹_›
      · exact Option.isSome_iff_exists.1 hdefault
  unfold Language.ofCode
  rw [he]
  exact List.mem_map_of_mem (List.mem_of_find?_eq_some he)

theorem environmentLanguage?_plain {env : String} (h : env ∈ plainEnvironments) : environmentLanguage? env = none := by
  refine List.find?_eq_none.2 fun l hl hname => ?_
  obtain ⟨e, he, rfl⟩ := List.mem_map.1 hl
  have hname : Language.environmentOf e.language = env := of_decide_eq_true hname
  unfold Language.environmentOf at hname
  split at hname
  · exact absurd (hname ▸ h) (by decide)
  · exact (codeTable_names e he).2.1 (hname ▸ h)

theorem direction_ofEntry (e : Language.CodeEntry) : (Language.ofEntry e).direction =
    match Language.writings.find? (·.language == e.language) with
    | some w => w.direction
    | none => .ltr := by
  unfold Language.ofEntry
  cases Language.writings.find? (·.language == e.language) <;> rfl

/-- Environments of languages have the direction of their language. -/
theorem environmentLanguage?_environment {l : Language} (hl : l ∈ languages) :
    ∃ l', environmentLanguage? l.environment = some l' ∧ l'.direction = l.direction := by
  obtain ⟨l', hfind⟩ : ∃ l', environmentLanguage? l.environment = some l' :=
    Option.isSome_iff_exists.1 (List.find?_isSome.2 ⟨l, hl, decide_eq_true rfl⟩)
  refine ⟨l', hfind, ?_⟩
  obtain ⟨e, he, rfl⟩ := List.mem_map.1 hl
  obtain ⟨e', he', rfl⟩ := List.mem_map.1 (List.mem_of_find?_eq_some hfind)
  have hname : (Language.ofEntry e').environment = (Language.ofEntry e).environment := by
    simpa using List.find?_some hfind
  change Language.environmentOf e'.language = Language.environmentOf e.language at hname
  -- Only Arabic has an environment of another name, and no language is called by that name.
  have hlanguage : e'.language = e.language := by
    unfold Language.environmentOf at hname
    split at hname <;> split at hname
    · simp_all
    · exact absurd hname.symm (codeTable_names e he).2.2
    · exact absurd hname (codeTable_names e' he').2.2
    · exact hname
  rw [direction_ofEntry, direction_ofEntry, hlanguage]

/-! ### Programs of documents -/

/-- The emitter bears, whatever its ledger. -/
def Follows (e : Emitter) (direction : NamedDirection) (outer : List Bearing) (noted? : Option NamedDirection) : Prop :=
  ∃ l, e.Bears direction outer noted? l

variable {e : Emitter} {direction : NamedDirection} {outer : List Bearing} {noted? : Option NamedDirection}

theorem simple_follows {o : Operation} (ho : isSimple o = true) (h : Follows e direction outer noted?) :
    Leaves o.perform e (fun _ e' => Follows e' direction outer noted?) fun _ _ => True := by
  obtain ⟨l, h⟩ := h
  have hc := Emitter.coupled_bears direction outer noted? (o.keep [] l).turns
  have hall := List.Subset.refl (o.keep [] l).turns
  suffices hkeep : Leaves o.perform e (fun _ e' => e'.Bears direction outer noted? (o.keep [] l)) fun _ _ => True from
    hkeep.imp_left fun _ _ h' => ⟨_, h'⟩
  cases o with
  | write text => exact h.write text
  | record d =>
    have hk : d.kind = .raw := by simpa [isSimple] using ho
    exact Leaves.of_ok (perform_record h.isOpen d) (h.record (by simp [Decoration.IsInline, hk]) [])
  | switchDirection d => exact hc.switchDirection h hall d
  | setCoverage latinCoverage => exact hc.setCoverage h hall latinCoverage
  | deepenList n => exact Leaves.of_modify (hc.deepenList h n)
  | deepenToc n => exact Leaves.of_modify (hc.deepenToc h n)
  | paragraphBreak => exact hc.paragraphBreak h hall
  | lineBreak => exact hc.lineBreak h hall
  | envBreak => exact hc.envBreak h hall
  | dirBreak => exact hc.turn h hall
  | resetLine => exact hc.resetLine h
  | _ => cases ho

theorem allSimple_follows {os : List Operation} (hos : ∀ o ∈ os, isSimple o = true)
    (h : Follows e direction outer noted?) :
    Leaves (performAll os) e (fun _ e' => Follows e' direction outer noted?) fun _ _ => True := by
  induction os generalizing e with
  | nil => exact Leaves.of_pure h
  | cons o os ih =>
    exact (simple_follows (hos o (by simp)) h).bind fun _ e' h' => ih (fun x hx => hos x (by simp [hx])) h'

/-- What begins a block leaves the bearing before it behind. -/
theorem beginEnv_follows {noted'? : Option NamedDirection} (h : Follows e direction outer none) {env : String}
    (options : String) (hstep : ∀ {a contextDir}, a.Fits contextDir outer none →
      ∃ a', (Piece.block (beginCommand env options)).bear a = some ([], a') ∧
        a'.Fits contextDir (a.toBearing :: outer) noted'?) :
    Leaves (Emit.beginEnv env options) e (fun _ e' => ∃ b, b.IsSafe ∧ Follows e' direction (b :: outer) noted'?)
      fun _ _ => True := by
  obtain ⟨l, h⟩ := h
  have hblock : Leaves (writeBlock { kind := .startBlock, value := beginCommand env options }) e
      (fun _ e' => ∃ b : { b : Bearing // b.IsSafe }, e'.Bears direction (b.1 :: outer) noted'?
        (l.block (beginCommand env options))) fun _ _ => True := by
    refine h.block (.inl rfl) fun {a contextDir} ha => ?_
    obtain ⟨a', hbear, hfits⟩ := hstep ha
    exact ⟨⟨a.toBearing, ha.safe⟩, a', hbear, hfits⟩
  refine hblock.bind fun _ e₁ h₁ => ?_
  obtain ⟨⟨b, hb⟩, h₁⟩ := h₁
  have hreset := (Emitter.coupled_bears direction (b :: outer) noted'? []).resetLine h₁
  exact hreset.imp_left fun _ e₂ h₂ => ⟨b, hb, _, h₂⟩

theorem beginPlain_follows (h : Follows e direction outer none) {env : String} (henv : env ∈ plainEnvironments)
    (options : String) :
    Leaves (Emit.beginEnv env options) e (fun _ e' => ∃ b, b.IsSafe ∧ Follows e' direction (b :: outer) none)
      fun _ _ => True := by
  have hname : '\x7d' ∉ env.toList := (by decide : ∀ env ∈ plainEnvironments, '\x7d' ∉ env.toList) env henv
  refine beginEnv_follows h options fun {a contextDir} ha => ⟨{ a with outer := a.toBearing :: a.outer }, ?_, ?_⟩
  · simp [Piece.bear, begunEnvironment?_beginCommand hname, environmentLanguage?_plain henv]
  · exact ⟨ha.assumed, ha.safe, ha.begun, by rw [ha.outer], ha.groups⟩

theorem beginLanguage_follows (h : Follows e direction outer none) (code : String) :
    Leaves (Emit.beginEnv (Language.ofCode code).environment (Language.ofCode code).options) e
      (fun _ e' => ∃ b, b.IsSafe ∧ Follows e' direction (b :: outer) (some (Language.ofCode code).direction))
      fun _ _ => True := by
  have hl := ofCode_mem_languages code
  obtain ⟨l, hfind, hdirection⟩ := environmentLanguage?_environment hl
  refine beginEnv_follows h _ fun {a contextDir} ha => ⟨{ a with
    current := l.direction, settled := false, begun := true, outer := a.toBearing :: a.outer }, ?_, ?_⟩
  · simp [Piece.bear, begunEnvironment?_beginCommand (name_mem_languages _ hl), hfind]
  · exact ⟨ha.assumed, fun hs => absurd hs Bool.false_ne_true, fun _ => by rw [hdirection], by rw [ha.outer], ha.groups⟩

theorem endEnv_follows {b : Bearing} (hb : b.IsSafe) (h : Follows e direction (b :: outer) none) (env : String) :
    Leaves (Emit.endEnv env) e (fun _ e' => Follows e' direction outer none) fun _ _ => True := by
  obtain ⟨l, h⟩ := h
  have hblock : Leaves (writeBlock { kind := .endBlock, value := endCommand env }) e
      (fun _ e' => ∃ _ : Unit, e'.Bears direction outer none (l.block (endCommand env))) fun _ _ => True := by
    refine h.block (.inr rfl) fun {a contextDir} ha => ⟨(), { a with
      current := b.current, settled := b.settled && a.assumed = b.assumed, begun := false, outer }, ?_, ?_⟩
    · simp [Piece.bear, begunEnvironment?_endCommand, ha.outer]
    · refine ⟨ha.assumed, fun hs => ?_, by simp, rfl, ha.groups⟩
      simp only [Bool.and_eq_true, decide_eq_true_eq] at hs
      exact hs.2.trans (hb hs.1)
  refine hblock.bind fun _ e₁ h₁ => Leaves.of_modify ?_
  obtain ⟨-, h₁⟩ := h₁
  have hag := h₁.toAgrees
  exact ⟨{ l.block (endCommand env) with newLine := true, newPara := true },
    h₁.of_agrees { hag with newLine := rfl, newPara := rfl } rfl rfl h₁.isInline rfl rfl⟩

theorem assumeDirection_follows (h : Follows e direction outer noted?) {d : NamedDirection}
    (hd : ∀ current, noted? = some current → d = current) :
    Leaves (Emit.assumeDirection d) e (fun _ e' => Follows e' direction outer none) fun _ _ => True := by
  obtain ⟨l, h⟩ := h
  exact (h.assumeDirection hd).imp_left fun _ e' h' => ⟨_, h'⟩

/-- Entering a language as a block, the emitter takes note of the direction that its environment sets. -/
theorem enteringLanguage_follows (h : Follows e direction outer none) (code : String) (coverage? : Option Bool) :
    Leaves (performAll (enteringLanguage (.ofCode code) coverage?)) e
      (fun _ e' => ∃ b, b.IsSafe ∧ Follows e' direction (b :: outer) none) fun _ _ => True := by
  have hfont : ∀ o ∈ fontOperations (.ofCode code) ++ coverage?.toList.map .setCoverage, isSimple o = true := by
    unfold fontOperations
    cases (Language.ofCode code).ltrFontCommand? <;> cases coverage? <;> simp [isSimple, Decoration.raw]
  have hsteps : performAll (enteringLanguage (.ofCode code) coverage?) = (do
      Emit.beginEnv (Language.ofCode code).environment (Language.ofCode code).options
      performAll (fontOperations (.ofCode code) ++ coverage?.toList.map .setCoverage)
      Emit.assumeDirection (Language.ofCode code).direction) := by
    simp [enteringLanguage, performAll, performAll_append, Operation.perform, bind_assoc]
  rw [hsteps]
  refine (beginLanguage_follows h code).bind fun _ e₁ h₁ => ?_
  obtain ⟨b, hb, h₁⟩ := h₁
  refine (allSimple_follows hfont h₁).bind fun _ e₂ h₂ => ?_
  refine (assumeDirection_follows h₂ fun current hc => ?_).imp_left fun _ e₃ h₃ => ⟨b, hb, h₃⟩
  exact Option.some.inj hc

theorem wrap_follows {command : String} {content : Emit Unit} (h : Follows e direction outer none)
    (hcontent : ∀ {e'}, Follows e' direction outer none →
      Leaves content e' (fun _ e'' => Follows e'' direction outer none) fun _ _ => True) :
    Leaves (Emit.wrap command content) e (fun _ e' => Follows e' direction outer none) fun _ _ => True := by
  have hrecord : ∀ {e'} {d : Decoration}, d.IsInline → Follows e' direction outer none →
      Leaves (Emit.record d) e' (fun _ e'' => Follows e'' direction outer none) fun _ _ => True := by
    rintro e' d hd ⟨l, h'⟩
    exact Leaves.of_ok (perform_record h'.isOpen d) ⟨_, h'.record hd []⟩
  refine (hrecord (d := .startInline command {}) ⟨nofun, nofun⟩ h).bind fun _ e₁ h₁ => Leaves.finishing ?_
  refine (hcontent h₁).imp (fun _ e₂ h₂ => hrecord ⟨nofun, nofun⟩ h₂) fun _ e₂ _ => ?_
  exact (Leaves.trivial _ e₂).imp (fun _ _ _ => trivial) fun _ _ _ => trivial

theorem isolated_follows {content : Emit Unit} (h : Follows e direction outer none)
    (hcontent : ∀ {e'}, Follows e' direction outer none →
      Leaves content e' (fun _ e'' => Follows e'' direction outer none) fun _ _ => True) :
    Leaves (Emit.isolated content) e (fun _ e' => Follows e' direction outer none) fun _ _ => True := by
  obtain ⟨l, h⟩ := h
  have hisolated : Leaves (Emit.isolated content) e (fun _ e' => ∃ l', e'.Bears direction outer none (Ledger.turn l'))
      fun _ _ => True := h.isolated fun h' _ _ _ => hcontent ⟨_, h'⟩
  exact hisolated.imp_left fun _ e' ⟨l', h'⟩ => ⟨l'.turn, h'⟩

theorem Composition.follows {os : List Operation} (hos : Composition os) (h : Follows e direction outer none) :
    Leaves (performAll os) e (fun _ e' => Follows e' direction outer none) fun _ _ => True := by
  have hone : ∀ o : Operation, performAll [o] = o.perform := fun o => by simp [performAll]
  induction hos generalizing e outer with
  | nil => exact Leaves.of_pure h
  | append _ _ ih ih' =>
    rw [performAll_append]
    exact (ih h).bind fun _ e' h' => ih' h'
  | simple ho =>
    rw [hone]
    exact simple_follows ho h
  | wrap _ _ ih =>
    rw [hone]
    exact wrap_follows h ih
  | isolated _ ih =>
    rw [hone]
    exact isolated_follows h ih
  | environment henv options _ ih =>
    rw [List.cons_append, performAll, performAll_append, hone]
    refine (beginPlain_follows h henv options).bind fun _ e₁ h₁ => ?_
    obtain ⟨b, hb, h₁⟩ := h₁
    exact (ih h₁).bind fun _ e₂ h₂ => endEnv_follows hb h₂ _
  | languageBlock code coverage? _ ih =>
    rw [performAll_append, performAll_append, bind_assoc, hone]
    refine (enteringLanguage_follows h code coverage?).bind fun _ e₁ h₁ => ?_
    obtain ⟨b, hb, h₁⟩ := h₁
    exact (ih h₁).bind fun _ e₂ h₂ => endEnv_follows hb h₂ _
  | languageInline code withOptions _ ih =>
    rw [hone]
    exact wrap_follows h fun h₁ => (assumeDirection_follows h₁ (by simp)).bind fun _ e₂ h₂ => ih h₂
  | resuming _ ih =>
    rw [hone]
    refine Leaves.get_bind ?_
    exact (ih h).bind fun _ e₁ h₁ => assumeDirection_follows h₁ (by simp)

theorem flush_follows (h : Follows e direction outer none) :
    Leaves Emit.flush e (fun _ e' => ∃ bs a, bearPieces (.start direction) e'.output = some (bs, a) ∧
      a.Fits e'.contextDir outer none ∧ ∀ b ∈ bs, b.IsSafe) fun _ _ => True := by
  refine (simple_follows (o := .envBreak) rfl h).bind fun _ e₁ h₁ => ?_
  refine (simple_follows (o := .dirBreak) rfl h₁).bind fun _ e₂ h₂ => Leaves.get_bind ?_
  obtain ⟨l, h₂⟩ := h₂
  dsimp only
  split
  · exact Leaves.of_modify h₂.bears
  · exact Leaves.of_throw trivial

/-- Whatever the document, a replay of its output is in the emitter's direction as the assumed one, and the emitter is
right about the direction in force at every text outside language commands and at the end just if it is so wherever it
has, since the last command, left an environment in another direction than it found or gone back to a direction. -/
theorem document_bearings (document : Element) (title? : Option String) (lang : String) (options : ArticleOptions)
    (warned : List String) :
    Leaves (typesetDocument document title? lang) (start options (.known options.direction) warned)
      (fun _ t => ∃ bs a, bearPieces (.start (.known options.direction)) t.emitter.output = some (bs, a) ∧
        a.assumed = t.emitter.contextDir ∧ ((∀ b ∈ bs ++ [a.toBearing], b.IsRight) ↔
          ∀ b ∈ bs ++ [a.toBearing], b.settled = false → b.IsRight))
      fun _ _ => True := by
  refine (typesetDocument_composes document title? lang options _ warned).imp (fun _ t h => ?_) fun _ _ _ => trivial
  obtain ⟨program, hprogram, -, hperform⟩ := h
  have hrun := (hprogram.follows ⟨_, Emitter.start_bears (.known options.direction)⟩).bind
    (f := fun _ => Emit.flush) fun _ e h => flush_follows h
  have hsteps : performAll (program ++ [.flush]) = performAll program >>= fun _ => Emit.flush := by
    rw [performAll_append]
    simp [performAll, Operation.perform]
  rw [hsteps] at hperform
  obtain ⟨bs, a, hbear, hfits, hbs⟩ := hrun.ok hperform
  refine ⟨bs, a, hbear, hfits.assumed, fun h b hb _ => h b hb, fun h b hb => ?_⟩
  -- What is settled is right by the invariant, so only the other bearings are in question.
  have hsafe : b.IsSafe := by
    rcases List.mem_append.1 hb with hb | hb
    · exact hbs b hb
    · rw [List.mem_singleton.1 hb]
      exact hfits.safe
  cases hsettled : b.settled with
  | false => exact h b hb hsettled
  | true => exact hsafe hsettled

/-- A quotation in another direction than the document, and text in that direction after it. -/
def quotedDocument : Element :=
  { name := "[document]"
    children := [
      .element "blockquote" [] [.element "p" [⟨"dir", .text "rtl"⟩] [.text .plain ['א']]],
      .element "p" [⟨"dir", .text "rtl"⟩] [.text .plain ['ב']]] }

/-- After the quotation the emitter is wrong about the direction, which the end of the quotation has brought back. -/
theorem quotedDocument_loses_direction : ∃ t bs a,
    (typesetDocument quotedDocument none "en").perform (start {} (.known .ltr) []) = (.ok (), t) ∧
      bearPieces (.start (.known .ltr)) t.emitter.output = some (bs, a) ∧ ∃ b ∈ bs, ¬ b.IsRight := by
  have hok : ((typesetDocument quotedDocument none "en").perform (start {} (.known .ltr) [])).1.toBool = true := by
    decide +kernel
  have hwrong : (bearPieces (.start (.known .ltr))
      ((typesetDocument quotedDocument none "en").perform (start {} (.known .ltr) [])).2.emitter.output).any
        (fun r => r.1.any fun b => !decide b.IsRight) = true := by decide +kernel
  rcases hperform : (typesetDocument quotedDocument none "en").perform (start {} (.known .ltr) []) with ⟨c | _, t⟩
  · simp [hperform, Except.toBool] at hok
  · rw [hperform] at hwrong
    cases hbear : bearPieces (.start (.known .ltr)) t.emitter.output with
    | none => simp [hbear] at hwrong
    | some r =>
      simp only [hbear, Option.any_some, List.any_eq_true] at hwrong
      obtain ⟨b, hb, hb'⟩ := hwrong
      exact ⟨t, r.1, r.2, rfl, hbear, b, hb, by simpa using hb'⟩

end WikiTypeset.Article
