import WikiTypeset.Bidi.Explicit

/-!
# Weak, neutral and implicit rules

Rules X10, W1 to W7, N1, N2, I1 and I2 of the bidirectional algorithm. The units of a paragraph are cut into
level runs; each run knows the direction on either side of it. Within a run the weak rules settle marks,
numbers and separators, the neutral rules give what is left the direction around it, and the implicit rules
turn classes into levels. Main definition: `resolveUnits`.
-/

namespace WikiTypeset.Bidi

/-- A maximal stretch of units of one level, with the classes that stand for its surroundings. -/
structure LevelRun where
  before : BidiClass
  after : BidiClass
  units : List LevelUnit
  deriving DecidableEq, Repr

/-- The strong class of a level. -/
def strongOf (level : Nat) : BidiClass := if level % 2 = 0 then .L else .R

/-- The strong class at the boundary of two levels: that of the higher one. -/
def boundary (m n : Nat) : BidiClass := strongOf (max m n)

/-- The units in stretches of equal level. -/
def stretches : List LevelUnit → List (List LevelUnit)
  | [] => []
  | u :: us =>
    match stretches us with
    | [] => [[u]]
    | [] :: ss => [u] :: ss
    | (v :: vs) :: ss => if u.level = v.level then (u :: v :: vs) :: ss else [u] :: (v :: vs) :: ss

/-- The level of a stretch, or `base` for an empty one. -/
def stretchLevel (base : Nat) : List LevelUnit → Nat
  | [] => base
  | u :: _ => u.level

/-- The level runs made of the given stretches, the first of which follows a unit of level `previous`. -/
def levelRunsFrom (base previous : Nat) : List (List LevelUnit) → List LevelRun
  | [] => []
  | s :: ss =>
    let level := stretchLevel base s
    let next := match ss with
      | [] => base
      | t :: _ => stretchLevel base t
    ⟨boundary previous level, boundary level next, s⟩ :: levelRunsFrom base level ss

/-- The level runs of a paragraph. -/
def levelRuns (base : Nat) (units : List LevelUnit) : List LevelRun :=
  levelRunsFrom base base (stretches units)

/-! ### Weak types -/

/-- W1 and W2: a mark takes the class before it, and a European number after an Arabic letter is an Arabic
number. -/
def resolveMarks (strong : Option BidiClass) (previous : Option BidiClass) : List LevelUnit → List LevelUnit
  | [] => []
  | u :: us =>
    let cls := if u.cls = some .NSM then previous else u.cls
    let final := if cls = some .EN ∧ strong = some .AL then some .AN else cls
    let strong := if cls = some .R ∨ cls = some .L ∨ cls = some .AL then cls else strong
    { u with cls := final } :: resolveMarks strong final us

/-- W3: Arabic letters count as right-to-left letters. -/
def resolveArabic (us : List LevelUnit) : List LevelUnit :=
  us.map fun u => if u.cls = some .AL then { u with cls := some .R } else u

/-- The class of a separator that stands between two others. -/
def separatorClass (previous cls next : Option BidiClass) : Option BidiClass :=
  if cls = some .ES ∧ previous = some .EN ∧ next = some .EN then some .EN
  else if cls = some .CS ∧ previous = next ∧ (previous = some .AN ∨ previous = some .EN) then previous
  else cls

/-- W4: a single separator between two numbers of one kind joins them. -/
def resolveSeparators (previous : Option BidiClass) : List LevelUnit → List LevelUnit
  | [] => []
  | [u] => [u]
  | u :: v :: us =>
    let u := { u with cls := separatorClass previous u.cls v.cls }
    u :: resolveSeparators u.cls (v :: us)

/-- Terminators that follow a European number become part of it. -/
def extendNumbers (afterNumber : Bool) : List LevelUnit → List LevelUnit
  | [] => []
  | u :: us =>
    if u.cls = some .EN then u :: extendNumbers true us
    else if u.cls = some .ET ∧ afterNumber then { u with cls := some .EN } :: extendNumbers true us
    else u :: extendNumbers false us

/-- W5: terminators on either side of a European number become part of it. -/
def resolveTerminators (us : List LevelUnit) : List LevelUnit :=
  (extendNumbers false (extendNumbers false us).reverse).reverse

/-- W6: all other separators and terminators are neutral. -/
def resolveLoose (us : List LevelUnit) : List LevelUnit :=
  us.map fun u => if u.cls = some .ET ∨ u.cls = some .ES ∨ u.cls = some .CS then { u with cls := some .ON } else u

/-- W7: a European number after a left-to-right letter is left to right. -/
def resolveNumbers (strong : Option BidiClass) : List LevelUnit → List LevelUnit
  | [] => []
  | u :: us =>
    let cls := if u.cls = some .EN ∧ strong = some .L then some .L else u.cls
    let strong := if cls = some .L ∨ cls = some .R then cls else strong
    { u with cls } :: resolveNumbers strong us

/-- The weak rules on one level run. -/
def resolveWeak (before : BidiClass) (us : List LevelUnit) : List LevelUnit :=
  let us := resolveArabic (resolveMarks (some before) (some before) us)
  resolveNumbers (some before) (resolveLoose (resolveTerminators (resolveSeparators none us)))

/-! ### Neutral types -/

/-- Whether the class is neutral once the weak rules are done. -/
def isNeutral : Option BidiClass → Bool
  | some .B | some .S | some .WS | some .ON => true
  | _ => false

/-- The class as it acts on neighbouring neutrals: numbers act as right-to-left letters. -/
def influence (cls : Option BidiClass) : Option BidiClass :=
  if cls = some .AN ∨ cls = some .EN then some .R else cls

/-- A neutral between two classes: their common direction, or that of its level. -/
def neutralClass (previous next : Option BidiClass) (level : Nat) : Option BidiClass :=
  if influence previous = influence next then influence previous else some (strongOf level)

/-- The class that follows a stretch of neutrals. -/
def classAfter (after : Option BidiClass) : List LevelUnit → Option BidiClass
  | [] => after
  | u :: us => if isNeutral u.cls then classAfter after us else u.cls

/-- N1 and N2 on the units that follow the class `previous`. -/
def resolveNeutral (previous after : Option BidiClass) : List LevelUnit → List LevelUnit
  | [] => []
  | u :: us =>
    if isNeutral u.cls then
      { u with cls := neutralClass previous (classAfter after us) u.level } :: resolveNeutral previous after us
    else u :: resolveNeutral u.cls after us

/-! ### Levels -/

/-- I1 and I2: the level of a unit whose class is settled; none if it has no class that allows one. -/
def implicitLevel? (level : Nat) : Option BidiClass → Option Nat
  | some .L => some (if level % 2 = 0 then level else level + 1)
  | some .R => some (if level % 2 = 0 then level + 1 else level)
  | some .EN | some .AN => some (if level % 2 = 0 then level + 2 else level + 1)
  | _ => none

/-- The units of a level run with their classes settled. -/
def resolveRun (r : LevelRun) : List LevelUnit :=
  resolveNeutral (some r.before) (some r.after) (resolveWeak r.before r.units)

/-- A unit at its final level, if its class allows one. -/
def settle? (u : LevelUnit) : Option LevelUnit :=
  (implicitLevel? u.level u.cls).map fun level => { u with level }

/-- The units of a paragraph at their final levels. There are none if some unit is left without a class that
has a level, which only an unassigned code point causes. -/
def resolveUnits (base : Nat) (units : List LevelUnit) : Option (List LevelUnit) :=
  ((levelRuns base units).flatMap resolveRun).mapM settle?

end WikiTypeset.Bidi
