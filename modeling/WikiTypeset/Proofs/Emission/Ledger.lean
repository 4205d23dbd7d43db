import WikiTypeset.Latex.Operation
import WikiTypeset.Proofs.Emission.Reading

/-!
# The ledger of a program

A ledger follows a program of operations without writing anything: it keeps the marks that decide where breaks take
effect, what the program has placed so far, and the texts that are cut into runs together, its turns. `keepAll` is the
ledger after a program. `Coupled` lists what a relation between emitters and ledgers needs to survive the breaks.
-/

namespace WikiTypeset.Latex

open Action Bidi Emit

/-- A text that is analysed as a whole, with the base direction and the depth in lists that hold then. -/
structure Turn where
  text : List Char
  base : NamedDirection
  inList : Int
  deriving DecidableEq, Repr

/-- What a program has done so far. -/
structure Ledger where
  newEnv : Bool := true
  newLine : Bool := true
  newPara : Bool := true
  base : NamedDirection
  inList : Int := 0
  /-- The text since the last turn. -/
  text : List Char := []
  /-- Something other than the start of formatting stands since the last turn. -/
  due : Bool := false
  placed : List Placed := []
  turns : List Turn := []

namespace Ledger

/-- The ledger of an emitter that starts in the given direction. -/
def start (direction : NamedDirection) : Ledger := { base := direction }

/-- Something has been recorded: breaks have an effect again. -/
def touched (l : Ledger) : Ledger := { l with newEnv := false, newLine := false, newPara := false }

/-- Everything held back is written. -/
def turn (l : Ledger) : Ledger :=
  { l with text := [], due := false, turns := if l.due then l.turns ++ [⟨l.text, l.base, l.inList⟩] else l.turns }

/-- The place becomes one where an environment may begin or end. -/
def envBreak (l : Ledger) : Ledger := if l.newEnv then l else { l.turn with newEnv := true }

/-- The paragraph ends. -/
def paragraphBreak (l : Ledger) : Ledger :=
  if l.newPara then l else { l.envBreak with newPara := true, newLine := true }.turn

/-- The line ends. -/
def lineBreak (l : Ledger) : Ledger := if l.newLine then l else { l.envBreak with newLine := true }

/-- The place counts as the start of a line, a paragraph and an environment. -/
def resetLine (l : Ledger) : Ledger := { l with newEnv := true, newLine := true, newPara := true }

/-- A fragment or a block is placed. -/
def place (l : Ledger) (item : Item) (inside : List Wrapper) : Ledger :=
  { l.touched with due := true, placed := l.placed ++ [⟨item, inside⟩] }

/-- Characters are placed. -/
def extended (l : Ledger) (s : List Char) (inside : List Wrapper) : Ledger :=
  { l with text := l.text ++ s, due := l.due || !s.isEmpty, placed := l.placed ++ charsInside inside s }

/-- Nothing but blanks has come since a break. -/
def atBreak (l : Ledger) : Bool := l.newEnv || l.newLine || l.newPara

/-- Text is placed: what is left of it when blanks after a break are dropped and other runs of blanks are shortened. -/
def write (l : Ledger) (text : List Char) (inside : List Wrapper) : Ledger :=
  if l.atBreak then
    if (text.dropWhile isSpace).isEmpty then l
    else l.touched.extended (collapseBlanks false (text.dropWhile isSpace)) inside
  else l.extended (collapseBlanks false text) inside

/-- A decoration is recorded. -/
def record (l : Ledger) (d : Decoration) (inside : List Wrapper) : Ledger :=
  match d.kind with
  | .startInline => l.touched
  | .endInline | .endOfText => { l.touched with due := true }
  | .raw => l.place (.fragment d.value) inside
  | .startBlock | .endBlock => l.place (.block d.value) inside

theorem record_block {l : Ledger} {d : Decoration} {inside : List Wrapper} (h : d.kind = .startBlock ∨ d.kind = .endBlock) :
    l.record d inside = l.place (.block d.value) inside := by
  unfold record
  rcases h with hk | hk <;> rw [hk]

/-- A block stands on a line of its own, outside all formatting. -/
def block (l : Ledger) (value : String) : Ledger := (l.envBreak.turn.place (.block value) []).envBreak.turn

end Ledger

mutual

/-- The ledger after an operation inside some formatting. -/
def Operation.keep (inside : List Wrapper) : Operation → Ledger → Ledger
  | .write text, l => l.write text inside
  | .record d, l => l.record d inside
  | .wrap command delimiters content, l =>
    { (keepAll (inside ++ [⟨command, delimiters⟩]) content l.touched).touched with due := true }
  | .isolated content, l => (keepAll [] content l.turn).turn
  | .beginEnv env options, l => (l.block (beginCommand env options)).resetLine
  | .endEnv env, l => { l.block (endCommand env) with newLine := true, newPara := true }
  | .switchDirection direction, l => { l.turn with base := direction }
  | .assumeDirection _, l => l.turn
  | .resuming content, l => (keepAll inside content l).turn
  | .setCoverage _, l => l.turn
  | .deepenList n, l => { l with inList := l.inList + n }
  | .deepenToc _, l => l
  | .paragraphBreak, l => l.paragraphBreak
  | .lineBreak, l => l.lineBreak
  | .envBreak, l => l.envBreak
  | .dirBreak, l => l.turn
  | .resetLine, l => l.resetLine
  | .flush, l => l.envBreak.turn

/-- The ledger after a program inside some formatting. -/
def keepAll (inside : List Wrapper) : List Operation → Ledger → Ledger
  | [], l => l
  | o :: os, l => keepAll inside os (o.keep inside l)

end

/-! ### Turns are never taken back -/

namespace Ledger

variable (l : Ledger)

theorem turns_turn : l.turns ⊆ l.turn.turns := by
  unfold turn
  dsimp only
  split
  · exact List.subset_append_left _ _
  · exact List.Subset.refl _

theorem turns_envBreak : l.turns ⊆ l.envBreak.turns := by
  unfold envBreak
  split
  · exact List.Subset.refl _
  · exact l.turns_turn

theorem turns_paragraphBreak : l.turns ⊆ l.paragraphBreak.turns := by
  unfold paragraphBreak
  split
  · exact List.Subset.refl _
  · exact List.Subset.trans l.turns_envBreak (turns_turn _)

theorem turns_lineBreak : l.turns ⊆ l.lineBreak.turns := by
  unfold lineBreak
  split
  · exact List.Subset.refl _
  · exact l.turns_envBreak

theorem turns_write (text : List Char) (inside : List Wrapper) : (l.write text inside).turns = l.turns := by
  unfold write
  split
  · split <;> rfl
  · rfl

theorem turns_record (d : Decoration) (inside : List Wrapper) : (l.record d inside).turns = l.turns := by
  unfold record
  split <;> rfl

theorem turns_block (value : String) : l.turns ⊆ (l.block value).turns := by
  have hbefore : l.turns ⊆ (l.envBreak.turn.place (.block value) []).turns :=
    List.Subset.trans l.turns_envBreak (turns_turn _)
  have hafter : (l.envBreak.turn.place (.block value) []).turns ⊆ (l.block value).turns :=
    List.Subset.trans (turns_envBreak _) (turns_turn _)
  exact List.Subset.trans hbefore hafter

end Ledger

mutual

theorem turns_keep (inside : List Wrapper) (o : Operation) (l : Ledger) : l.turns ⊆ (o.keep inside l).turns := by
  cases o with
  | write text => rw [Operation.keep, l.turns_write]; exact List.Subset.refl _
  | record d => rw [Operation.keep, l.turns_record]; exact List.Subset.refl _
  | wrap command delimiters content => exact turns_keepAll _ content l.touched
  | isolated content =>
    exact List.Subset.trans l.turns_turn (List.Subset.trans (turns_keepAll [] content l.turn) (Ledger.turns_turn _))
  | beginEnv env options => exact l.turns_block _
  | endEnv env => exact l.turns_block _
  | switchDirection direction => exact l.turns_turn
  | assumeDirection direction => exact l.turns_turn
  | resuming content => exact List.Subset.trans (turns_keepAll inside content l) (Ledger.turns_turn _)
  | setCoverage latinCoverage => exact l.turns_turn
  | deepenList n => exact List.Subset.refl _
  | deepenToc n => exact List.Subset.refl _
  | paragraphBreak => exact l.turns_paragraphBreak
  | lineBreak => exact l.turns_lineBreak
  | envBreak => exact l.turns_envBreak
  | dirBreak => exact l.turns_turn
  | resetLine => exact List.Subset.refl _
  | flush => exact List.Subset.trans l.turns_envBreak (Ledger.turns_turn _)

theorem turns_keepAll (inside : List Wrapper) (os : List Operation) (l : Ledger) :
    l.turns ⊆ (keepAll inside os l).turns := by
  cases os with
  | nil => exact List.Subset.refl _
  | cons o os => exact List.Subset.trans (turns_keep inside o l) (turns_keepAll inside os _)

end

theorem keepAll_append (inside : List Wrapper) (os os' : List Operation) (l : Ledger) :
    keepAll inside (os ++ os') l = keepAll inside os' (keepAll inside os l) := by
  induction os generalizing l with
  | nil => rfl
  | cons o os ih => exact ih (o.keep inside l)

end WikiTypeset.Latex
