import WikiTypeset.Bidi.ClassTable
import WikiTypeset.Bidi.Resolve

/-!
# Directional runs of a paragraph

A text is cut into maximal runs of one direction. The paragraph level comes from the first strong character
outside every isolate, and from the base direction if there is none. Isolates are resolved as the embeddings
of their direction. Characters that the explicit rules remove take the level of the character before them.

Main definitions: `paragraph`, which fails only where an unassigned code point reaches the implicit rules, and
`Paragraph.runAt`.
-/

namespace WikiTypeset.Bidi

/-- A maximal span of text of one direction: the offsets `start` to `stop`, the latter excluded. -/
structure Run where
  direction : Direction
  start : Nat
  stop : Nat
  deriving DecidableEq, Repr

/-- The number of characters in the run. -/
def Run.length (r : Run) : Nat := r.stop - r.start

/-- A text with its level and its runs. -/
structure Paragraph where
  text : List Char
  level : Nat
  runs : List Run
  deriving DecidableEq, Repr

/-- Why a text could not be analysed. -/
inductive AnalysisError
  /-- A character without a bidi class was left for the implicit rules. -/
  | unclassified
  deriving DecidableEq, Repr

namespace Paragraph

/-- The direction of the paragraph's level. -/
def direction (p : Paragraph) : Direction := Direction.ofLevel p.level

/-- The run that contains an offset; there is none for an offset outside the text. -/
def runAt (p : Paragraph) (offset : Int) : Option Run :=
  if offset < 0 ∨ (p.text.length : Int) ≤ offset then none
  else (p.runs.takeWhile fun r => (r.start : Int) ≤ offset).getLast?

end Paragraph

/-- The bidi class of `c`; unassigned code points count as left-to-right letters. -/
def bidiClass (c : Char) : BidiClass := (assignedClass c).getD .L

/-- The level of the first strong character of `s` outside the isolates that open in it. The scan, inside
`depth` such isolates, ends at a PDI that closes none of them. -/
def firstStrongFrom : Nat → List Char → Option Nat
  | _, [] => none
  | depth, c :: s =>
    let cls := bidiClass c
    if cls.opensIsolate then firstStrongFrom (depth + 1) s
    else if cls = .PDI then if depth = 0 then none else firstStrongFrom (depth - 1) s
    else if depth = 0 ∧ cls = .L then some 0
    else if depth = 0 ∧ (cls = .R ∨ cls = .AL) then some 1
    else firstStrongFrom depth s

/-- The level that the first strong character of `s` implies. -/
def firstStrong (s : List Char) : Option Nat := firstStrongFrom 0 s

/-- The embedding controls that stand in for isolates. -/
def leftEmbedding : Char := '\u202A'
@[inherit_doc leftEmbedding]
def rightEmbedding : Char := '\u202B'
@[inherit_doc leftEmbedding]
def popEmbedding : Char := '\u202C'

/-- The text with every isolate control replaced by the embedding control of the same direction. -/
def isolatesAsEmbeddings : List Char → List Char
  | [] => []
  | c :: s =>
    let c' := match bidiClass c with
      | .LRI => leftEmbedding
      | .RLI => rightEmbedding
      | .FSI => if firstStrong s = some 1 then rightEmbedding else leftEmbedding
      | .PDI => popEmbedding
      | _ => c
    c' :: isolatesAsEmbeddings s

/-- The levels of the units, spread over the text they came from: each unit is met again at its character, and
the characters in between repeat the level before them. -/
def spreadLevels (previous : Nat) : List Char → List LevelUnit → List Nat
  | [], _ => []
  | _ :: s, [] => previous :: spreadLevels previous s []
  | c :: s, u :: us =>
    if u.char = c then u.level :: spreadLevels u.level s us
    else previous :: spreadLevels previous s (u :: us)

/-- One level per character of a text that holds no isolate controls. -/
def levels (s : List Char) (base : Nat) : Except AnalysisError (List Nat) :=
  match resolveUnits base (explicitUnits base (s.map fun c => (c, assignedClass c))) with
  | some units => .ok (spreadLevels base s units)
  | none => .error .unclassified

/-- The runs of equal direction in a row of levels that begins at offset `start`. -/
def runsFrom (start : Nat) : List Nat → List Run
  | [] => []
  | level :: rest =>
    let direction := Direction.ofLevel level
    match runsFrom (start + 1) rest with
    | [] => [⟨direction, start, start + 1⟩]
    | r :: rs => if r.direction = direction then { r with start } :: rs else ⟨direction, start, start + 1⟩ :: r :: rs

/-- The runs of a row of levels. -/
def buildRuns (ls : List Nat) : List Run := runsFrom 0 ls

/-- The level of a text in a context of the given direction. -/
def paragraphLevel (s : List Char) (base : Direction) : Nat := (firstStrong s).getD base.level

/-- The directional analysis of a text; `base` is its direction if it has no strong character of its own. -/
def paragraph (s : List Char) (base : Direction) : Except AnalysisError Paragraph := do
  let level := paragraphLevel s base
  if s.isEmpty then return ⟨s, level, []⟩
  return ⟨s, level, buildRuns (← levels (isolatesAsEmbeddings s) level)⟩

end WikiTypeset.Bidi
