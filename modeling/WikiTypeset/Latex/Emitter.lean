import WikiTypeset.Action
import WikiTypeset.Bidi.Paragraph
import WikiTypeset.Latex.Decoration
import WikiTypeset.Text.Quoted

/-!
# The emitter

The emitter writes text and commands as LaTeX in which every directional run is marked. Text and decorations are
held back until a break; then the text is cut into runs, and each run is written inside the inline formatting
that is open there. At the start of a paragraph the ambient direction may change; elsewhere a run against it is
wrapped. Digits after a right-to-left run stay with it.

The emitter also keeps track of where breaks are allowed: none is written at the start of a line, and a hard line
break never comes before the text of its paragraph.

Main definitions: `Emitter` and the actions on it, `write`, `record`, `wrap`, `isolated`, the breaks, and `flush`.
-/

namespace WikiTypeset.Latex

open Text Bidi

/-- Analyses a text whose surroundings have the given direction. -/
abbrev Analyzer := List Char → Direction → Except AnalysisError Paragraph

/-- Why an emitter could not go on. -/
inductive EmitError
  /-- Something was written after the end. -/
  | closed
  /-- Formatting was closed that is not the innermost open one. -/
  | mismatch (closing : String) (innermost : Option String)
  /-- A mark that is never written stood among the decorations. -/
  | unexpected (kind : DecorationKind)
  /-- Formatting was left open inside an isolated part. -/
  | openInIsolation (values : List String)
  /-- Formatting was left open at the end. -/
  | openAtEnd (values : List String)
  /-- The text could not be analysed. -/
  | analysis (cause : AnalysisError)
  /-- The decorations ended before their end mark. -/
  | decorationsEnded
  /-- The runs of the analysis do not cover the text. -/
  | uncovered
  deriving DecidableEq, Repr

namespace EmitError

/-- The wording of an error. -/
def message : EmitError → String
  | closed => "Formatter has already been flushed"
  | mismatch closing innermost =>
    "Closing " ++ quotedString closing ++ " but innermost open decoration is " ++
      (match innermost with
        | some value => quotedString value
        | none => "None")
  | unexpected kind => "Unexpected decoration " ++ quotedString kind.name ++ " in output"
  | openInIsolation values => "Unclosed decorations in isolated scope: " ++ quotedList values
  | openAtEnd values => "Unclosed decorations at flush: " ++ quotedList values
  | analysis .unclassified => " not allowed here"
  | decorationsEnded => "decorations end before the text"
  | uncovered => "runs do not cover the text"

end EmitError

/-- The state of an emitter. -/
structure Emitter where
  analyzer : Analyzer := paragraph
  /-- What has been written, the latest piece first. -/
  written : List Piece := []
  /-- The text that is held back. -/
  buffer : List Char := []
  /-- The decorations that are held back, in the order in which they were recorded. -/
  decorations : List Decoration := []
  /-- The open inline formatting, the innermost first. -/
  stack : List Decoration := []
  /-- Nothing has been written since the last place where an environment may begin or end. -/
  newEnv : Bool := true
  /-- Nothing has been written since the last line break. -/
  newLine : Bool := true
  /-- Nothing has been written since the last paragraph break. -/
  newPara : Bool := true
  /-- No text of the paragraph has been written. -/
  startPara : Bool := true
  /-- How deep the emitter is in lists; inside them the ambient direction stays. -/
  inList : Int := 0
  /-- How deep the emitter is in text for the table of contents; inside it URLs are not looked for. -/
  inToc : Int := 0
  /-- Latin words are set in a font of their own. -/
  latinSwitch : Bool := false
  /-- The direction that is in force. -/
  contextDir : NamedDirection := Direction.ltr
  /-- The base direction of the next text. -/
  paragraphDir : NamedDirection := Direction.ltr
  closed : Bool := false

namespace Emitter

/-- An emitter for a document that starts in the given direction. -/
def start (direction : NamedDirection) : Emitter := { contextDir := direction, paragraphDir := direction }

/-- The offset at which the next decoration is recorded. -/
def pos (e : Emitter) : Nat := e.buffer.length

/-- Everything written, in order. -/
def output (e : Emitter) : List Piece := e.written.reverse

/-- The characters of everything written. -/
def latex (e : Emitter) : List Char := latexOf e.output

/-- The style of text that is written now. -/
def style (e : Emitter) : TextStyle := { urls := e.inToc = 0, latinFont := e.latinSwitch }

/-- Something has been recorded: breaks have an effect again. -/
def touched (e : Emitter) : Emitter := { e with newEnv := false, newLine := false, newPara := false }

end Emitter

/-- An action on an emitter. -/
abbrev Emit (α : Type) := Action Emitter EmitError α

namespace Emit

/-! ### Writing pieces -/

/-- Fails if the emitter is closed. -/
def checkOpen : Emit Unit := do
  if (← get).closed then throw .closed

/-- Writes a piece. -/
def put (p : Piece) : Emit Unit := do
  checkOpen
  modify fun e => { e with written := p :: e.written }

/-- Writes a stretch of text in the style in force. -/
def putText (s : List Char) : Emit Unit := do
  checkOpen
  unless s.isEmpty do
    modify fun e => { e with written := .text e.style s :: e.written }

/-- Writes a decoration and keeps the stack of open formatting up to date. -/
def putDecoration (d : Decoration) : Emit Unit := do
  match d.kind with
  | .startInline =>
    modify fun e => { e with stack := d :: e.stack }
    put (.openInline d.value d.delimiters)
  | .endInline =>
    match (← get).stack with
    | [] => throw (.mismatch d.value none)
    | innermost :: rest =>
      if innermost.value = d.value then
        modify fun e => { e with stack := rest }
        put (.closeInline d.delimiters.closing)
      else throw (.mismatch d.value (some innermost.value))
  | .raw => put (.fragment d.value)
  | .startBlock | .endBlock => put (.block d.value)
  | .endOfText => throw (.unexpected d.kind)

/-- Opens the formatting of the stack again, the outermost first. -/
def openStack : Emit Unit := do
  (← get).stack.reverse.forM fun d => put (.openInline d.value d.delimiters)

/-- Closes the formatting of the stack for now, the innermost first. -/
def closeStack : Emit Unit := do
  (← get).stack.forM fun d => put (.closeInline d.delimiters.closing)

/-! ### Runs -/

/-- The characters of `s` from offset `start` up to `stop`. -/
def slice (s : List Char) (start stop : Nat) : List Char := (s.drop start).take (stop - start)

/-- Whether a text consists of digits, commas and points only. -/
def isNumeric (s : List Char) : Bool := !s.isEmpty && s.all fun c => isDecimal c || c == ',' || c == '.'

/-- The run of a paragraph at an offset. -/
def runAt (p : Paragraph) (offset : Nat) : Emit Run :=
  match p.runAt offset with
  | some run => pure run
  | none => throw .uncovered

/-- The end of a right-to-left run with the numbers and further right-to-left runs after it. -/
def absorb (p : Paragraph) : Nat → Nat → Emit Nat
  | 0, stop => pure stop
  | fuel + 1, stop => do
    if stop < p.text.length then
      let following ← runAt p stop
      if following.direction = .rtl ∨ isNumeric (slice p.text stop following.stop) then
        absorb p fuel following.stop
      else pure stop
    else pure stop

/-- Writes the text up to `stop` and the decorations in it; one that ends a region belongs to the run before its
offset, any other one to the run after it. The offset reached and the decorations left are the result. -/
def writeUpTo (text : List Char) (stop : Nat) : Nat → List Decoration → Emit (Nat × List Decoration)
  | _, [] => throw .decorationsEnded
  | pos, d :: rest => do
    if d.pos < stop ∨ (d.pos = stop ∧ d.isEnd) then
      putText (slice text pos d.pos)
      putDecoration d
      writeUpTo text stop d.pos rest
    else pure (pos, d :: rest)

/-- Writes what has to stand before a run: a change of the ambient direction at the start of a paragraph, or the
start of a wrapper, which is then to be closed after the run. -/
def enterRun (direction : Direction) : Emit Bool := do
  let e ← get
  if direction = e.contextDir then return false
  if e.startPara ∧ e.inList = 0 ∧ direction = e.paragraphDir then
    put (.setDirection direction)
    modify fun e => { e with contextDir := direction }
    return false
  put (.openRun direction)
  return true

/-- Writes what has to stand before a run, and opens the formatting in it. The paragraph has begun then. -/
def beginRun (direction : Direction) : Emit Bool := do
  let wrapped ← enterRun direction
  modify fun e => { e with startPara := false }
  openStack
  return wrapped

/-- The offset up to which a run is written: numbers stay in a right-to-left run, so that they are not reordered. -/
def spanStop (p : Paragraph) (run : Run) : Emit Nat := do
  if run.direction = .rtl ∧ (← get).contextDir = Direction.rtl then absorb p p.text.length run.stop
  else return run.stop

/-- Writes the text from `pos` to `stop` with its decorations, closes the formatting in it, and returns the
decorations left. -/
def writeSpan (text : List Char) (pos stop : Nat) (ds : List Decoration) : Emit (List Decoration) := do
  let (reached, rest) ← writeUpTo text stop pos ds
  putText (slice text reached stop)
  closeStack
  return rest

/-- Writes what has to stand after a run. -/
def leaveRun (wrapped : Bool) : Emit Unit := if wrapped then put .closeRun else pure ()

/-- Writes one run that begins at `pos`, and returns the offset after it with the decorations left. -/
def writeRun (p : Paragraph) (pos : Nat) (ds : List Decoration) : Emit (Nat × List Decoration) := do
  let run ← runAt p pos
  let wrapped ← beginRun run.direction
  let stop ← spanStop p run
  let rest ← writeSpan p.text pos stop ds
  leaveRun wrapped
  return (stop, rest)

/-- Writes the runs from `pos` to the end of the text, and returns the decorations left. -/
def writeRunsFrom (p : Paragraph) : Nat → Nat → List Decoration → Emit (List Decoration)
  | fuel, pos, ds => do
    if pos < p.text.length then
      match fuel with
      | 0 => throw .uncovered
      | fuel + 1 =>
        let (stop, rest) ← writeRun p pos ds
        writeRunsFrom p fuel stop rest
    else pure ds

/-- Writes the decorations after the last character. -/
def writeTrailing (ds : List Decoration) : Emit Unit := do
  unless ds.isEmpty do
    openStack
    ds.forM putDecoration
    closeStack

/-- Writes a text with the decorations that are held back. -/
def writeParagraph (text : List Char) : Emit Unit := do
  modify fun e => { e with decorations := e.decorations ++ [{ kind := .endOfText, pos := text.length }] }
  let e ← get
  match e.analyzer text e.paragraphDir.base with
  | .error cause => throw (.analysis cause)
  | .ok p =>
    let rest ← writeRunsFrom p text.length 0 e.decorations
    writeTrailing rest.dropLast

/-- Splits off the inline formatting that starts at the end of the text. -/
def splitCarried (pos : Nat) (ds : List Decoration) : List Decoration × List Decoration :=
  let carried := (ds.reverse.takeWhile fun d => d.kind = .startInline && d.pos == pos).reverse
  (ds.take (ds.length - carried.length), carried)

/-- Writes everything that is held back. Inline formatting that starts at the very end is opened later, with the
text that follows. -/
def writeHeld : Emit Unit := do
  let e ← get
  let (ds, carried) := splitCarried e.pos e.decorations
  set { e with decorations := ds }
  unless e.buffer.isEmpty && ds.isEmpty do
    writeParagraph e.buffer
  modify fun e => { e with stack := carried.reverse ++ e.stack, buffer := [], decorations := [] }

/-! ### Breaks -/

/-- Makes this place the start of a line, a paragraph and an environment, so that blanks after it are dropped and
no break is doubled. -/
def resetLine : Emit Unit := modify fun e => { e with newEnv := true, newLine := true, newPara := true }

/-- Writes what is held back; the direction may change after this place. -/
def dirBreak : Emit Unit := writeHeld

/-- Makes this a place where an environment may begin or end. -/
def envBreak : Emit Unit := do
  unless (← get).newEnv do
    dirBreak
    put .newline
    modify fun e => { e with newEnv := true }

/-- Ends the paragraph. -/
def paragraphBreak : Emit Unit := do
  unless (← get).newPara do
    envBreak
    put .paragraphEnd
    modify fun e => { e with newPara := true, newLine := true }
    dirBreak
    modify fun e => { e with startPara := true }

/-- Breaks the line within the paragraph. -/
def lineBreak : Emit Unit := do
  unless (← get).newLine do
    envBreak
    put .lineBreak
    modify fun e => { e with newLine := true }

/-! ### Content -/

/-- Blanks that separate words; a no-break space does not. -/
def isSpace (c : Char) : Bool := isBlank c && c != '\u00A0'

/-- Every run of blanks shortened to one space; `afterBlank` says that such a run is under way. -/
def collapseBlanks (afterBlank : Bool) : List Char → List Char
  | [] => []
  | c :: s =>
    if isSpace c then if afterBlank then collapseBlanks true s else ' ' :: collapseBlanks true s
    else c :: collapseBlanks false s

/-- Holds back a decoration at the current offset. -/
def record (d : Decoration) : Emit Unit := do
  checkOpen
  modify fun e => { e with decorations := e.decorations ++ [{ d with pos := e.pos }] }.touched

/-- Adds text. Blanks after a break are dropped, and other runs of blanks become one space. -/
def write (text : List Char) : Emit Unit := do
  checkOpen
  let e ← get
  let atBreak := e.newEnv || e.newLine || e.newPara
  let text := if atBreak then text.dropWhile isSpace else text
  unless atBreak && text.isEmpty do
    let e := if atBreak then e.touched else e
    set { e with buffer := e.buffer ++ collapseBlanks false text }

/-- Adds content inside inline formatting, which is closed even if the content fails. -/
def wrap (command : String) (content : Emit Unit) (delimiters : Delimiters := {}) : Emit Unit := do
  record (.startInline command delimiters)
  Action.finishing content (record (.endInline command delimiters))

/-- Puts the open inline formatting aside, and returns it. -/
def enterIsolation : Emit (List Decoration) := do
  dirBreak
  let saved := (← get).stack
  modify fun e => { e with stack := [] }
  return saved

/-- Fails if inline formatting has been left open. -/
def checkIsolation : Emit Unit := do
  dirBreak
  let stack := (← get).stack
  unless stack.isEmpty do
    throw (.openInIsolation (stack.reverse.map (·.value)))

/-- Takes up the inline formatting that was put aside. -/
def leaveIsolation (saved : List Decoration) : Emit Unit := modify fun e => { e with stack := saved }

/-- Runs a part in which no inline formatting is open. The part must close what it opens. -/
def isolated (content : Emit Unit) : Emit Unit := do
  let saved ← enterIsolation
  let checked : Emit Unit := do
    content
    checkIsolation
  Action.finishing checked (leaveIsolation saved)

/-- Writes a block on a line of its own, outside all inline formatting. -/
def writeBlock (d : Decoration) : Emit Unit := do
  envBreak
  isolated do
    record d
    envBreak

/-- Begins an environment. -/
def beginEnv (env : String) (options : String := "") : Emit Unit := do
  writeBlock { kind := .startBlock, value := beginCommand env options }
  resetLine

/-- Ends an environment. -/
def endEnv (env : String) : Emit Unit := do
  writeBlock { kind := .endBlock, value := endCommand env }
  modify fun e => { e with newLine := true, newPara := true }

/-! ### Direction and fonts -/

/-- Sets the base direction of the texts to come. -/
def switchDirection (direction : NamedDirection) : Emit Unit := do
  dirBreak
  modify fun e => { e with paragraphDir := direction }

/-- Takes note of an ambient direction that is in force already, for instance through a language command. -/
def assumeDirection (direction : NamedDirection) : Emit Unit := do
  dirBreak
  modify fun e => { e with contextDir := direction, written := .assumeDirection direction :: e.written }

/-- Sets Latin words in a font of their own unless the font in force covers them. -/
def setCoverage (latinCoverage : Bool) : Emit Unit := do
  dirBreak
  modify fun e => { e with latinSwitch := !latinCoverage }

/-- Writes everything and closes the emitter. -/
def flush : Emit Unit := do
  envBreak
  dirBreak
  let stack := (← get).stack
  unless stack.isEmpty do
    throw (.openAtEnd (stack.reverse.map (·.value)))
  modify fun e => { e with closed := true }

end Emit

end WikiTypeset.Latex
