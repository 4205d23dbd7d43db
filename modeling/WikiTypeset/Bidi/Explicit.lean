import WikiTypeset.Bidi.Class

/-!
# Explicit embedding levels

Rules X1 to X9 of the bidirectional algorithm: embeddings and overrides give every character a level, and
the controls themselves disappear, together with the boundary neutrals. Levels stay below 62; embeddings
that would go deeper are counted, so that their ends are recognised. Main definition: `explicitUnits`.
-/

namespace WikiTypeset.Bidi

/-- A character with its level and its class, as far as the rules have resolved them. -/
structure LevelUnit where
  char : Char
  level : Nat
  cls : Option BidiClass
  deriving DecidableEq, Repr

/-- Levels reach at most one less than this bound. -/
def levelLimit : Nat := 62

/-- The class that an override gives to the characters inside it. -/
abbrev Override := Option BidiClass

/-- The level and override in force, those to return to, and the embeddings that were too deep to open. -/
structure Embedding where
  level : Nat
  override : Override := none
  enclosing : List (Nat × Override) := []
  almostOverflow : Nat := 0
  overflow : Nat := 0
  deriving DecidableEq, Repr

/-- The least odd level above `n`. -/
def nextOdd (n : Nat) : Nat := if n % 2 = 0 then n + 1 else n + 2

/-- The least even level above `n`. -/
def nextEven (n : Nat) : Nat := if n % 2 = 0 then n + 2 else n + 1

/-- The level that an embedding control opens at level `n`, and the override that it sets. -/
def opening? (n : Nat) : Option BidiClass → Option (Nat × Override)
  | some .RLE => some (nextOdd n, none)
  | some .LRE => some (nextEven n, none)
  | some .RLO => some (nextOdd n, some .R)
  | some .LRO => some (nextEven n, some .L)
  | _ => none

namespace Embedding

/-- Opens an embedding, or counts it when it would be too deep. -/
def push (e : Embedding) (level : Nat) (override : Override) : Embedding :=
  if e.overflow ≠ 0 then { e with overflow := e.overflow + 1 }
  else if level < levelLimit then
    { e with level, override, enclosing := (e.level, e.override) :: e.enclosing }
  else if e.level = levelLimit - 2 then { e with almostOverflow := e.almostOverflow + 1 }
  else { e with overflow := e.overflow + 1 }

/-- Closes the embedding opened last. Without an open one nothing changes. -/
def pop (e : Embedding) : Embedding :=
  if e.overflow ≠ 0 then { e with overflow := e.overflow - 1 }
  else if e.almostOverflow ≠ 0 && e.level ≠ levelLimit - 1 then
    { e with almostOverflow := e.almostOverflow - 1 }
  else match e.enclosing with
    | [] => e
    | (level, override) :: rest => { e with level, override, enclosing := rest }

end Embedding

/-- Whether rule X9 removes characters of the class. -/
def isRemoved : Option BidiClass → Bool
  | some .RLE | some .LRE | some .RLO | some .LRO | some .PDF | some .BN => true
  | _ => false

/-- The state after one character, and the unit it leaves. -/
def explicitStep (base : Nat) (e : Embedding) (char : Char) (cls : Option BidiClass) :
    Embedding × Option LevelUnit :=
  match opening? e.level cls with
  | some (level, override) => (e.push level override, none)
  | none =>
    match cls with
    | some .PDF => (e.pop, none)
    | some .BN => (e, none)
    | some .B => ({ level := base }, some ⟨char, base, some .B⟩)
    | _ => (e, some ⟨char, e.level, match e.override with | some o => some o | none => cls⟩)

/-- The units that remain after the explicit rules, in order. -/
def explicitUnitsFrom (base : Nat) (e : Embedding) : List (Char × Option BidiClass) → List LevelUnit
  | [] => []
  | (char, cls) :: rest =>
    match explicitStep base e char cls with
    | (e, some u) => u :: explicitUnitsFrom base e rest
    | (e, none) => explicitUnitsFrom base e rest

/-- The units of a paragraph of the given base level. -/
def explicitUnits (base : Nat) (chars : List (Char × Option BidiClass)) : List LevelUnit :=
  explicitUnitsFrom base { level := base } chars

end WikiTypeset.Bidi
