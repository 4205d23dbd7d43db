/-!
# Bidi classes

The character classes of the Unicode Bidirectional Algorithm, and the two writing directions.
-/

namespace WikiTypeset

/-- A writing direction. -/
inductive Direction
  | ltr
  | rtl
  deriving DecidableEq, Repr, Inhabited

namespace Direction

/-- The direction's short name. -/
def name : Direction → String
  | ltr => "ltr"
  | rtl => "rtl"

/-- The direction with the given short name. -/
def ofName? : String → Option Direction
  | "ltr" => some ltr
  | "rtl" => some rtl
  | _ => none

/-- The direction of an embedding level: even levels run left to right, odd ones right to left. -/
def ofLevel (level : Nat) : Direction := if level % 2 = 0 then ltr else rtl

/-- The lowest embedding level of the direction. -/
def level : Direction → Nat
  | ltr => 0
  | rtl => 1

end Direction

/-- A direction as a caller names it: one of the two, or a name that stands for neither. -/
inductive NamedDirection
  | known (direction : Direction)
  | unknown (name : String)
  deriving DecidableEq, Repr, Inhabited

namespace NamedDirection

instance : Coe Direction NamedDirection := ⟨known⟩

/-- The name as given. -/
def name : NamedDirection → String
  | known direction => direction.name
  | unknown name => name

/-- The direction with the given name. -/
def ofName (name : String) : NamedDirection :=
  match Direction.ofName? name with
  | some direction => known direction
  | none => unknown name

/-- The base direction that a name stands for; an unknown one stands for left to right. -/
def base : NamedDirection → Direction
  | known direction => direction
  | unknown _ => .ltr

end NamedDirection

namespace Bidi

/-- The class of a character in the bidirectional algorithm. -/
inductive BidiClass
  | L | R | AL
  | EN | ES | ET | AN | CS | NSM | BN
  | B | S | WS | ON
  | LRE | LRO | RLE | RLO | PDF
  | LRI | RLI | FSI | PDI
  deriving DecidableEq, Repr, Inhabited

namespace BidiClass

/-- The class's abbreviation. -/
def name : BidiClass → String
  | L => "L" | R => "R" | AL => "AL"
  | EN => "EN" | ES => "ES" | ET => "ET" | AN => "AN" | CS => "CS" | NSM => "NSM" | BN => "BN"
  | B => "B" | S => "S" | WS => "WS" | ON => "ON"
  | LRE => "LRE" | LRO => "LRO" | RLE => "RLE" | RLO => "RLO" | PDF => "PDF"
  | LRI => "LRI" | RLI => "RLI" | FSI => "FSI" | PDI => "PDI"

/-- Whether the class opens a directional isolate. -/
def opensIsolate : BidiClass → Bool
  | LRI | RLI | FSI => true
  | _ => false

end BidiClass

/-- The code points `first` to `last`, which all have the class `cls`. -/
structure ClassRange where
  first : Nat
  last : Nat
  cls : BidiClass

end Bidi

end WikiTypeset
