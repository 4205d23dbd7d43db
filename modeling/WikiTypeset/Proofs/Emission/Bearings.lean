import WikiTypeset.Article.Switch
import WikiTypeset.Proofs.Emission.Directions
import WikiTypeset.Proofs.Emission.Held

/-!
# Bearings

The output is replayed with two directions: the one that is in force by its commands and environments, and the one that
the emitter takes to be. Commands set the first, the environment of a language sets that of the language, and the end of
an environment or of a language command brings back the direction before it. A bearing is settled as long as the emitter
has followed the commands and has left no environment with another direction than it found. Main statement:
`bear_setText`, by which a text changes no bearing.
-/

namespace WikiTypeset.Latex

open Article Bidi Emit

/-! ### The replay -/

/-- The directions at a place of the output. -/
structure Bearing where
  /-- The direction that the emitter takes to be in force. -/
  assumed : NamedDirection
  /-- The direction that is in force. -/
  current : NamedDirection
  /-- The emitter has the direction from a command, and no other one since. -/
  settled : Bool := true
  deriving DecidableEq, Repr

/-- The bearing with what is open around a place. -/
structure Ambient extends Bearing where
  /-- The environment of a language has begun, and the emitter has not taken note of it. -/
  begun : Bool := false
  /-- The bearings before the open environments, the innermost first. -/
  outer : List Bearing := []
  /-- The open groups, the innermost first; that of a language command keeps the direction before it. -/
  groups : List (Option NamedDirection) := []

/-- The languages that documents may be in. -/
def languages : List Language := Language.codeTable.map Language.ofEntry

/-- The language that an environment switches to. -/
def environmentLanguage? (env : String) : Option Language := languages.find? (·.environment = env)

/-- The environment that a block begins. -/
def begunEnvironment? (value : String) : Option String :=
  if "\\begin\x7b".toList.isPrefixOf value.toList then
    some (String.ofList ((value.toList.drop 7).takeWhile (· != '\x7d')))
  else none

/-- Whether inline formatting is text in a language. -/
def isLanguageCommand (command : String) : Bool :=
  languages.any fun l => command = languageCommand l true || command = languageCommand l false

/-- A text outside language commands has a bearing. An environment of a language sets the direction of the language, and
the end of an environment or of a language command brings back the direction before it. -/
def Piece.bear (a : Ambient) : Piece → Option (List Bearing × Ambient)
  | .text _ source => some (if source.isEmpty || a.groups.any Option.isSome then [] else [a.toBearing], a)
  | .openInline command _ =>
    some ([], { a with groups := (if isLanguageCommand command then some a.current else none) :: a.groups })
  | .openRun _ => some ([], { a with groups := none :: a.groups })
  | .closeInline _ | .closeRun =>
    match a.groups with
    | before? :: groups => some ([], { a with current := before?.getD a.current, groups })
    | [] => none
  | .setDirection d => some ([], { a with assumed := d, current := d, settled := true, begun := false })
  | .assumeDirection d =>
    some ([], { a with assumed := d, settled := a.begun || (a.settled && d = a.assumed), begun := false })
  | .block value =>
    match begunEnvironment? value with
    | some env =>
      let a := { a with outer := a.toBearing :: a.outer }
      match environmentLanguage? env with
      | some l => some ([], { a with current := l.direction, settled := false, begun := true })
      | none => some ([], a)
    | none =>
      match a.outer with
      | b :: outer =>
        let settled := b.settled && a.assumed = b.assumed
        some ([], { a with current := b.current, settled, begun := false, outer })
      | [] => none
  | .fragment _ | .newline | .paragraphEnd | .lineBreak => some ([], a)

/-- The bearings of the texts outside language commands. -/
abbrev bearPieces : Ambient → List Piece → Option (List Bearing × Ambient) := gather Piece.bear

/-- The bearing at the start of a document. -/
def Ambient.start (direction : NamedDirection) : Ambient := { assumed := direction, current := direction }

/-- The emitter takes the direction to be in force that is. -/
def Bearing.IsRight (b : Bearing) : Prop := b.assumed = b.current

instance (b : Bearing) : Decidable b.IsRight := inferInstanceAs (Decidable (b.assumed = b.current))

/-! ### Environments by name -/

theorem isSome_begunEnvironment?_beginCommand (env options : String) :
    (begunEnvironment? (beginCommand env options)).isSome = true := by
  have hbegins : "\\begin\x7b".toList.isPrefixOf (beginCommand env options).toList = true := by simp [beginCommand]
  rw [begunEnvironment?, if_pos hbegins, Option.isSome_some]

theorem begunEnvironment?_beginCommand {env : String} (h : '\x7d' ∉ env.toList) (options : String) :
    begunEnvironment? (beginCommand env options) = some env := by
  have hname : ∀ c ∈ env.toList, (c != '\x7d') = true := by
    intro c hc
    simpa using fun hcs : c = '\x7d' => h (hcs ▸ hc)
  have hvalue : (beginCommand env options).toList = "\\begin\x7b".toList ++ (env.toList ++ '\x7d' ::
      (if options.isEmpty then "" else "[" ++ options ++ "]").toList) := by
    simp [beginCommand]
  have hdrop : ∀ s, List.drop 7 ("\\begin\x7b".toList ++ s) = s := by simp
  unfold begunEnvironment?
  rw [hvalue, hdrop, List.takeWhile_append_of_pos hname]
  simp

theorem begunEnvironment?_endCommand (env : String) : begunEnvironment? (endCommand env) = none := by
  simp [begunEnvironment?, endCommand, List.isPrefixOf]

/-! ### Quiet pieces -/

/-- Whether a piece sets, assumes or brings back no direction outside groups. -/
def Piece.isQuiet : Piece → Bool
  | .block _ | .setDirection _ | .assumeDirection _ => false
  | _ => true

/-- All pieces are quiet. -/
def Quiet (ps : List Piece) : Prop := ∀ p ∈ ps, p.isQuiet = true

/-- No group that is open would bring back another direction. -/
def Ambient.KeepsGroups (a : Ambient) : Prop := ∀ before ∈ a.groups, before.getD a.current = a.current

theorem Piece.bear_quiet {p : Piece} (hp : p.isQuiet = true) {h h' : Heading} {ss : List Sight}
    (hshow : p.show h = some (ss, h')) {a : Ambient} (ha : a.KeepsGroups) (hlen : a.groups.length = h.groups.length) :
    ∃ bs groups, p.bear a = some (bs, { a with groups }) ∧ { a with groups }.KeepsGroups ∧
      groups.length = h'.groups.length ∧ ∀ b ∈ bs, b = a.toBearing := by
  cases p with
  | text style source =>
    cases hshow
    refine ⟨_, a.groups, rfl, ha, hlen, fun b hb => ?_⟩
    split at hb
    · cases hb
    · exact List.mem_singleton.1 hb
  | openInline command delimiters =>
    cases hshow
    refine ⟨[], _, rfl, fun before hbefore => ?_, by simp [hlen], nofun⟩
    rcases List.mem_cons.1 hbefore with rfl | hmem
    · split <;> rfl
    · exact ha before hmem
  | openRun d =>
    cases hshow
    refine ⟨[], _, rfl, fun before hbefore => ?_, by simp [hlen], nofun⟩
    rcases List.mem_cons.1 hbefore with rfl | hmem
    · rfl
    · exact ha before hmem
  | closeInline _ | closeRun =>
    obtain ⟨ambient, _ | ⟨g, rest⟩⟩ := h <;> cases hshow
    cases hgroups : a.groups with
    | nil => simp [hgroups] at hlen
    | cons before groups =>
      have hbefore : before.getD a.current = a.current := ha before (by simp [hgroups])
      refine ⟨[], groups, ?_, fun b hb => ha b (by simp [hgroups, hb]), by simpa [hgroups] using hlen, nofun⟩
      simp [Piece.bear, hgroups, hbefore]
  | block value => cases hp
  | setDirection d => cases hp
  | assumeDirection d => cases hp
  | fragment value | newline | paragraphEnd | lineBreak =>
    cases hshow
    exact ⟨[], a.groups, rfl, ha, hlen, nofun⟩

/-- Quiet pieces whose groups nest change no bearing. -/
theorem bear_quiet {ps : List Piece} (hps : Quiet ps) {h h' : Heading} {ss : List Sight}
    (hshow : showPieces h ps = some (ss, h')) {a : Ambient} (ha : a.KeepsGroups)
    (hlen : a.groups.length = h.groups.length) :
    ∃ bs groups, bearPieces a ps = some (bs, { a with groups }) ∧ { a with groups }.KeepsGroups ∧
      groups.length = h'.groups.length ∧ ∀ b ∈ bs, b = a.toBearing := by
  induction ps generalizing h ss a with
  | nil =>
    cases hshow
    exact ⟨[], a.groups, rfl, ha, hlen, nofun⟩
  | cons p ps ih =>
    obtain ⟨first, mid, rest, hfirst, hrest, rfl⟩ := gather_cons_inv hshow
    -- The replays open and close their groups together, so no group is missing when one is closed.
    have hstep : ∃ bs groups, p.bear a = some (bs, { a with groups }) ∧ { a with groups }.KeepsGroups ∧
        groups.length = mid.groups.length ∧ ∀ b ∈ bs, b = a.toBearing := by
      exact Piece.bear_quiet (hps p (by simp)) hfirst ha hlen
    obtain ⟨bs, groups, hbear, hkeeps, hlen', hbs⟩ := hstep
    obtain ⟨bs', groups', hbear', hkeeps', hlen'', hbs'⟩ :=
      ih (fun q hq => hps q (by simp [hq])) hrest (a := { a with groups }) hkeeps hlen'
    refine ⟨bs ++ bs', groups', gather_cons p hbear hbear', hkeeps', hlen'', fun b hb => ?_⟩
    rcases List.mem_append.1 hb with hb | hb
    · exact hbs b hb
    · exact hbs' b hb

/-! ### Texts are quiet -/

/-- A decoration that begins or ends no environment. -/
def Decoration.IsInline (d : Decoration) : Prop := d.kind ≠ .startBlock ∧ d.kind ≠ .endBlock

/-- Only decorations that begin or end environments become pieces that are not quiet. -/
theorem inherits_quiet : Inherits Decoration.IsInline (fun _ => True) (·.isQuiet = true) where
  text _ _ := rfl
  openRun _ := rfl
  closeRun := rfl
  opening _ := rfl
  closing _ := rfl
  pieces {d} hd := by
    obtain ⟨hstart, hend⟩ := hd
    unfold Decoration.pieces
    split
    case h_4 | h_5 => contradiction
    all_goals simp [Piece.isQuiet]
  stacked _ _ := trivial

/-- A text with no blocks in it changes no bearing, and its parts outside language commands have the one around it. -/
theorem bear_setText {style : TextStyle} {text : List Char} {runs : List Run} {stack stack' ds : List Decoration}
    {ps : List Piece} {a : Ambient} (hruns : Contiguous 0 runs text.length) (hordered : Ordered 0 ds text.length)
    (hds : ∀ d ∈ ds, d.IsInline) (ha : a.groups = []) {contextDir : NamedDirection}
    (h : setText style text contextDir runs stack ds = some (ps, stack')) :
    ∃ bs, bearPieces a ps = some (bs, a) ∧ ∀ b ∈ bs, b = a.toBearing := by
  have hshow := show_setText contextDir style hruns hordered h
  have hquiet : Quiet ps := (inherits_quiet.setText hds (fun _ _ => trivial) h).1
  obtain ⟨bs, groups, hbear, -, hlen, hbs⟩ := bear_quiet hquiet hshow (a := a) (by rw [Ambient.KeepsGroups, ha]; nofun)
    (by simp [ha])
  have hgroups : groups = a.groups := by rw [ha]; exact List.length_eq_zero_iff.1 hlen
  rw [hgroups] at hbear
  exact ⟨bs, hbear, hbs⟩

end WikiTypeset.Latex
