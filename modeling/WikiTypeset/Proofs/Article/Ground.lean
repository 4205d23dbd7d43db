import WikiTypeset.Proofs.Article.Enclosure
import WikiTypeset.Proofs.Emission.Stance

/-!
# What has come of an argument

Whether a break in the text of a heading or in a term takes effect can be told from the layout: it does if something of
the argument has come before it. A `Ground` says what has come so far, and a layout is calm if it leaves no break in an
argument. Main statement: `Ground.Holds.step`, by which a break leaves landmarks just if the ground says that it takes
effect.
-/

namespace WikiTypeset.Latex

namespace Stance

/-! ### Landmarks of breaks -/

/-- The landmarks that come from one stance to another are no fragments. -/
def Gaps (s s' : Stance) : Prop :=
  ∃ ms, s'.landmarks = s.landmarks ++ ms ∧ ∀ m ∈ ms, ∀ value, m ≠ .fragment value

variable {s s' s'' : Stance}

theorem Gaps.of_eq (h : s'.landmarks = s.landmarks) : s.Gaps s' := ⟨[], by simpa using h, List.forall_mem_nil _⟩

theorem Gaps.trans (h : s.Gaps s') (h' : s'.Gaps s'') : s.Gaps s'' := by
  obtain ⟨ms, hms, hgaps⟩ := h
  obtain ⟨ms', hms', hgaps'⟩ := h'
  exact ⟨ms ++ ms', by rw [hms', hms, List.append_assoc], List.forall_mem_append.2 ⟨hgaps, hgaps'⟩⟩

theorem gaps_put (s : Stance) {p : Piece} (hp : ∀ value, p ≠ .fragment value) : s.Gaps (s.put p) := by
  refine ⟨p.landmarks s.footing, rfl, ?_⟩
  cases p with
  | fragment value => exact absurd rfl (hp value)
  | newline | paragraphEnd => cases hempty : s.footing.lineEmpty <;> simp [Piece.landmarks, hempty]
  | _ => simp [Piece.landmarks]

theorem gaps_envBreak (s : Stance) : s.Gaps s.envBreak := by
  unfold envBreak
  split
  · exact .of_eq rfl
  · exact (s.gaps_put (p := .newline) nofun).trans (.of_eq rfl)

theorem gaps_paragraphBreak (s : Stance) : s.Gaps s.paragraphBreak := by
  unfold paragraphBreak
  split
  · exact .of_eq rfl
  · exact (s.gaps_envBreak.trans (gaps_put _ (p := .paragraphEnd) nofun)).trans (.of_eq rfl)

theorem gaps_lineBreak (s : Stance) : s.Gaps s.lineBreak := by
  unfold lineBreak
  split
  · exact .of_eq rfl
  · exact (s.gaps_envBreak.trans (gaps_put _ (p := .lineBreak) nofun)).trans (.of_eq rfl)

/-- A block leaves more landmarks. -/
theorem gaps_block (s : Stance) (value : String) : s.Gaps (s.block value) ∧ (s.block value).landmarks ≠ s.landmarks := by
  have hblock : (s.envBreak.put (.block value)).landmarks = s.envBreak.landmarks ++ [.block value] := rfl
  have hafter := (s.envBreak.put (.block value)).touched.gaps_envBreak
  have hgaps := (s.gaps_envBreak.trans (gaps_put _ (p := .block value) nofun)).trans hafter
  refine ⟨hgaps, fun heq => ?_⟩
  obtain ⟨ms, hms, -⟩ := s.gaps_envBreak
  obtain ⟨ms', hms', -⟩ := hafter
  have hmore : (s.block value).landmarks = s.landmarks ++ ms ++ [.block value] ++ ms' := by
    rw [← hms, ← hblock]
    exact hms'
  have hlength := congrArg List.length (hmore.symm.trans heq)
  simp only [List.length_append, List.length_cons] at hlength
  omega

theorem landmarks_write (s : Stance) (text : List Char) : (s.write text).landmarks = s.landmarks := by
  unfold write
  split <;> split <;> rfl

end Stance

end WikiTypeset.Latex

namespace WikiTypeset.Article

open Latex

theorem gaps_step {o : Operation} (ho : isStep o = true) (inside : Bool) (s : Stance) : s.Gaps (o.stand inside s) := by
  cases o with
  | write text => exact .of_eq (s.landmarks_write text)
  | paragraphBreak => exact s.gaps_paragraphBreak
  | lineBreak => exact s.gaps_lineBreak
  | envBreak => exact s.gaps_envBreak
  | switchDirection _ | setCoverage _ | deepenList _ | deepenToc _ | dirBreak => exact .of_eq rfl
  | _ => cases ho

/-! ### Calm layouts -/

/-- What has come of an argument so far. -/
inductive Ground
  /-- Nothing but blanks and breaks without effect. -/
  | fresh
  /-- Something on the last line. -/
  | amid
  /-- Something, and the end of its line after it. -/
  | ended
  /-- Something, the end of its line, and the start of formatting. -/
  | opened
  deriving DecidableEq, Repr

namespace Ground

/-- Formatting starts. -/
def touched : Ground → Ground
  | fresh | amid => amid
  | ended | opened => opened

/-- Text comes; blanks after a break are nothing. -/
def write (text : List Char) (g : Ground) : Ground :=
  if (if g = fresh || g = ended then text.dropWhile Emit.isSpace else text).isEmpty then g else amid

/-- What comes of an operation, unless it leaves a break in the argument. -/
def step (o : Operation) (g : Ground) : Option Ground :=
  match o with
  | .write text => some (g.write text)
  | .paragraphBreak | .lineBreak => if g = fresh then some fresh else none
  | .envBreak =>
    match g with
    | fresh => some fresh
    | amid | ended => some ended
    | opened => none
  | _ => some g

end Ground

namespace Layout

/-- What comes of an argument after a layout in it, unless the layout leaves a break in the argument. -/
def calm : Layout → Ground → Option Ground
  | empty, g => some g
  | append first second, g => (first.calm g).bind second.calm
  | step o _, g => g.step o
  | fragment value _, _ => if holdsBreak value then none else some .amid
  | wrap _ _ content, g | languageInline _ _ content, g => (content.calm g.touched).map fun _ => .amid
  | resuming content, g => content.calm g
  | environment .., _ | languageBlock .., _ => none
  | item reference?, _ => if holdsBreak (itemMark reference?) then none else some .fresh
  | term _ content, _ => (content.calm .fresh).map fun _ => .amid
  | heading _ _ _ _ short text, _ => (short.calm .fresh).bind fun _ => (text.calm .fresh).map fun _ => .amid

/-- Whether the texts of all headings and all terms of a layout stay calm. -/
def argumentsCalm : Layout → Bool
  | append first second => first.argumentsCalm && second.argumentsCalm
  | wrap _ _ content | languageInline _ _ content | resuming content => content.argumentsCalm
  | environment _ _ _ before _ _ content => before.argumentsCalm && content.argumentsCalm
  | languageBlock _ _ _ _ content => content.argumentsCalm
  | term _ content => (content.calm .fresh).isSome
  | heading _ _ _ _ short text => (short.calm .fresh).isSome && (text.calm .fresh).isSome
  | empty | step .. | fragment .. | item _ => true

section Heading

variable {command : String} {hc : command ∈ sectionCommands} {shortLanguage? language? : Option HeadingLanguage}
  {short text : Layout}

/-- A heading leaves no break in an argument around it if its own arguments stay calm. -/
theorem isSome_calm_heading (g : Ground) : ((heading command hc shortLanguage? language? short text).calm g).isSome = true ↔
    (short.calm .fresh).isSome = true ∧ (text.calm .fresh).isSome = true := by
  rw [calm]
  cases short.calm .fresh <;> simp

theorem argumentsCalm_heading : (heading command hc shortLanguage? language? short text).argumentsCalm = true ↔
    (short.calm .fresh).isSome = true ∧ (text.calm .fresh).isSome = true := by
  rw [argumentsCalm, Bool.and_eq_true]

end Heading

end Layout

/-! ### Grounds and stances -/

/-- The program stands where a ground says. -/
structure Ground.Holds (g : Ground) (s : Stance) : Prop where
  newEnv : s.newEnv = (g = .fresh || g = .ended)
  newLine : s.newLine = decide (g = .fresh)
  newPara : s.newPara = decide (g = .fresh)
  lineEmpty : s.footing.lineEmpty = (g = .ended || g = .opened)

namespace Ground.Holds

variable {g : Ground} {s : Stance}

theorem touched (h : g.Holds s) : g.touched.Holds s.touched := by
  cases g
  all_goals exact ⟨rfl, rfl, rfl, h.lineEmpty⟩

theorem of_amid (s : Stance) : Ground.amid.Holds s.amid := ⟨rfl, rfl, rfl, rfl⟩

/-- After a fragment that does not end its line. -/
theorem of_fragment (s : Stance) (inside : Bool) {value : String} {t : List Char} {c : Char}
    (hvalue : value.toList = t ++ [c]) (hc : c ≠ '\n') : Ground.amid.Holds (s.fragment inside value) := by
  refine ⟨rfl, rfl, rfl, ?_⟩
  cases inside with
  | true => rfl
  | false =>
    have hline : (s.fragment false value).footing.lineEmpty = emptyAfter s.footing.lineEmpty value.toList := rfl
    rw [hline, hvalue, emptyAfter_concat, decide_eq_false hc]
    rfl

/-- An argument begins. -/
theorem of_resetLine (h : Ground.amid.Holds s) : Ground.fresh.Holds s.resetLine := ⟨rfl, rfl, rfl, h.lineEmpty⟩

theorem write (h : g.Holds s) (text : List Char) : (g.write text).Holds (s.write text) := by
  have hbreak : s.atBreak = (g = .fresh || g = .ended) := by
    rw [Stance.atBreak, h.newEnv, h.newLine, h.newPara]
    cases g <;> rfl
  rw [Stance.write, hbreak, Ground.write]
  by_cases htext : (if (g = .fresh || g = .ended) = true then text.dropWhile Emit.isSpace else text).isEmpty = true
  · rw [if_pos htext, if_pos htext]
    exact h
  · rw [if_neg htext, if_neg htext]
    exact of_amid s

/-- A break leaves landmarks just if it takes effect. -/
theorem step (h : g.Holds s) {o : Operation} (ho : isStep o = true) (inside : Bool) :
    ((o.stand inside s).landmarks = s.landmarks ↔ (g.step o).isSome = true) ∧
      ∀ g' ∈ g.step o, g'.Holds (o.stand inside s) := by
  cases o with
  | write text =>
    refine ⟨by simp [Operation.stand, s.landmarks_write, Ground.step], fun g' hg' => ?_⟩
    cases hg'
    exact h.write text
  | paragraphBreak | lineBreak | envBreak =>
    obtain ⟨newEnv, newLine, newPara, ⟨lineEmpty, begun⟩, landmarks⟩ := s
    obtain ⟨rfl, rfl, rfl, rfl⟩ := h
    cases g
    all_goals simp [Operation.stand, Stance.paragraphBreak, Stance.lineBreak, Stance.envBreak, Stance.put,
      Piece.landmarks, Piece.footing, Ground.step]
    all_goals exact ⟨rfl, rfl, rfl, rfl⟩
  | switchDirection _ | setCoverage _ | deepenList _ | deepenToc _ | dirBreak =>
    refine ⟨by simp [Operation.stand, Ground.step], fun g' hg' => ?_⟩
    cases hg'
    exact h
  | _ => cases ho

end Ground.Holds

end WikiTypeset.Article
