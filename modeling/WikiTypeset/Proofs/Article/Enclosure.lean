import WikiTypeset.Proofs.Article.Layout
import WikiTypeset.Proofs.Emission.Footing

/-!
# Arguments in the output

The arguments of headings and terms are opened and closed by fragments of their own. Going through the fragments of an
output, `enclose` keeps the arguments that are open, the innermost first; fragments that are content leave them alone.
`breaksWithin` finds the breaks and blocks that come while an argument is open.
-/

namespace WikiTypeset.Article

open Latex

/-! ### Arguments -/

/-- An argument that is open. -/
inductive Argument
  /-- The short form of a heading, in brackets. -/
  | short
  /-- A heading itself, in braces. -/
  | long
  /-- A term, in brackets. -/
  | label
  /-- The box of a long term, in braces. -/
  | box
  deriving DecidableEq, Repr

/-- What a fragment does to the arguments that are open. -/
inductive Mark
  | opens (a : Argument)
  /-- Ends the short form of a heading and opens the heading itself. -/
  | turns
  | closesBrace
  | closesBracket
  deriving DecidableEq, Repr

/-- What a fragment does to the arguments that are open, if it does anything. -/
def mark? (value : String) : Option Mark :=
  if value ∈ sectionCommands.map shortOpening then some (.opens .short)
  else if value = labelOpening then some (.opens .label)
  else if value = boxOpening then some (.opens .box)
  else if value = "]\x7b" then some .turns
  else if value = "\x7d" then some .closesBrace
  else if value = "]" then some .closesBracket
  else none

/-- The fragments that do something to arguments. -/
def argumentMarks : List String :=
  sectionCommands.map shortOpening ++ [labelOpening, boxOpening, "]\x7b", "\x7d", "]"]

/-- The open arguments after a mark, the innermost first. What closes an argument must be its own end. -/
def Mark.after? : Mark → List Argument → Option (List Argument)
  | opens a, outer => some (a :: outer)
  | turns, .short :: outer => some (.long :: outer)
  | closesBrace, .long :: outer => some outer
  | closesBrace, .box :: outer => some outer
  | closesBracket, .label :: outer => some outer
  | _, _ => none

/-- The open arguments after a fragment, the innermost first. -/
def enclose (arguments : List Argument) (value : String) : Option (List Argument) :=
  match mark? value with
  | some m => m.after? arguments
  | none => some arguments

theorem mark?_short {command : String} (h : command ∈ sectionCommands) :
    mark? (shortOpening command) = some (.opens .short) := by
  rw [mark?, if_pos (List.mem_map_of_mem h)]

theorem mark?_label : mark? labelOpening = some (.opens .label) := by decide

theorem mark?_box : mark? boxOpening = some (.opens .box) := by decide

theorem mark?_turn : mark? "]\x7b" = some .turns := by decide

theorem mark?_brace : mark? "\x7d" = some .closesBrace := by decide

theorem mark?_bracket : mark? "]" = some .closesBracket := by decide

theorem mark?_other {value : String} (h : value ∉ argumentMarks) : mark? value = none := by
  simp only [argumentMarks, List.mem_append, List.mem_cons, List.not_mem_nil, or_false, not_or] at h
  obtain ⟨hshort, hlabel, hbox, hturn, hbrace, hbracket⟩ := h
  rw [mark?, if_neg hshort, if_neg hlabel, if_neg hbox, if_neg hturn, if_neg hbrace, if_neg hbracket]

/-! ### Fragments that are no marks -/

theorem not_mark_of_prefix {s : List Char} (hmarks : ∀ m ∈ argumentMarks, ¬ s <+: m.toList) {value : String}
    (h : s <+: value.toList) : value ∉ argumentMarks := fun hm => hmarks value hm h

/-- What formulas and images begin with. -/
def contentStarts : List (List Char) := [['$'], ['\x7b'], "\\includegraphics".toList]

theorem IsContent.starts {value : String} (h : IsContent value) : ∃ s ∈ contentStarts, s <+: value.toList := by
  rcases h with ⟨s, rfl⟩ | ⟨s, rfl⟩ | ⟨s, rfl⟩
  · exact ⟨['$'], by simp [contentStarts], s.toList ++ ['$'], by simp⟩
  · exact ⟨['\x7b'], by simp [contentStarts], s.toList ++ ['\x7d'], by simp⟩
  · exact ⟨"\\includegraphics".toList, by simp [contentStarts],
      "[width=0.95\\columnwidth]\x7b".toList ++ s.toList ++ ['\x7d'], by simp⟩

theorem IsContent.not_mark {value : String} (h : IsContent value) : value ∉ argumentMarks := by
  obtain ⟨s, hs, hstarts⟩ := h.starts
  have hmarks : ∀ s ∈ contentStarts, ∀ m ∈ argumentMarks, ¬ s <+: m.toList := by decide
  exact not_mark_of_prefix (hmarks s hs) hstarts

theorem style_not_mark {value : String} (h : value ∈ styleFragments) : value ∉ argumentMarks :=
  (by decide : ∀ value ∈ styleFragments, value ∉ argumentMarks) value h

theorem ltrFontCommand_starts {l : Language} {command : String} (h : l.ltrFontCommand? = some command) :
    "\\renewcommand".toList <+: command.toList := by
  unfold Language.ltrFontCommand? at h
  split at h
  · cases h
    exact ⟨("\x7b\\LTRfont\x7d\x7b\\LTR" ++ l.script.toLower ++ "font\x7d").toList, by simp⟩
  · cases h

theorem ltrFontCommand_not_mark {l : Language} {command : String} (h : l.ltrFontCommand? = some command) :
    command ∉ argumentMarks :=
  not_mark_of_prefix (by decide) (ltrFontCommand_starts h)

theorem itemMark_not_mark (reference? : Option (Nat × String)) : itemMark reference? ∉ argumentMarks := by
  have hends : ∀ m ∈ argumentMarks, ¬ ['\x7b', '\x7d'] <:+ m.toList := by decide
  refine fun hm => hends _ hm ?_
  unfold itemMark
  split
  · exact ⟨"\\item".toList, by decide⟩
  · next number id => exact ⟨("\\item[" ++ referenceLabel number id ++ "]").toList, by simp⟩

/-! ### Breaks in arguments -/

/-- Whether a line of blanks comes in some characters; `started` says that only blanks have come since a line end. -/
def hasBlankLine (started : Bool) : List Char → Bool
  | [] => false
  | c :: s => if c = '\n' then started || hasBlankLine true s else hasBlankLine (started && (c = ' ' || c = '\t')) s

/-- Whether a fragment holds a row break, a blank line, or the start or the end of an environment. -/
def holdsBreak (value : String) : Bool :=
  hasBlankLine false value.toList ||
    (texTokens value.toList).any fun token =>
      token = .symbol '\\' || token = .word "begin".toList || token = .word "end".toList

/-- Whether a landmark is a break or a block, or holds one. -/
def isBreak : Landmark → Bool
  | .fragment value => holdsBreak value
  | .blankLine | .lineBreak _ | .block _ => true

/-- The landmark if it is a break while an argument is open, and the arguments that are open after it. -/
def breakWithin (arguments : List Argument) (m : Landmark) : Option (List Landmark × List Argument) :=
  let found := if isBreak m && !arguments.isEmpty then [m] else []
  match m with
  | .fragment value => (enclose arguments value).map fun after => (found, after)
  | _ => some (found, arguments)

/-- The breaks in arguments. -/
abbrev breaksWithin : List Argument → List Landmark → Option (List Landmark × List Argument) := gather breakWithin

end WikiTypeset.Article
