import WikiTypeset.Log
import WikiTypeset.Number.Whole
import WikiTypeset.Options.Conversion

/-!
# Arguments of the command line

Words that begin with a hyphen are options, the others operands; after a word of two hyphens, all words are operands.
A long option may be shortened as long as it stays unambiguous, and takes its value from the next word or after an
equals sign. Short options may be joined, and may be followed by the value of the last one. Main definitions:
`Arguments`, `Arguments.read`.
-/

namespace WikiTypeset.CommandLine

open Files Text

/-- What the command line asks for. -/
structure Arguments where
  bundle? : Option String := none
  output? : Option Path := none
  size : PaperSize := .letter
  toc? : Option Bool := none
  oneColumn : Bool := false
  parindent : Bool := false
  lang? : Option String := none
  latexOnly : Bool := false
  temporary? : Option Path := none
  keepMetadata : Bool := false
  workers : Int := 5
  debug : Bool := false
  /-- The document to typeset in place of a bundle. -/
  html? : Option Path := none
  logLevel : LogLevel := .warning
  logFile? : Option String := none
  verbose : Bool := false
  trace : Bool := false
  rich : Bool := false
  deriving Repr

/-- Why nothing is asked for. -/
inductive Stop
  /-- The words make no sense. -/
  | usage
  | version
  | help
  deriving DecidableEq, Repr

/-- What an option does. -/
inductive Effect
  | flag (set : Arguments → Arguments)
  /-- It takes a value, which may be refused. -/
  | value (set : String → Arguments → Option Arguments)
  | stop (why : Stop)

/-- Whether an option takes a value. -/
def Effect.takesValue : Effect → Bool
  | value _ => true
  | _ => false

/-- An option by its names; it cannot be given with its rival. -/
structure OptionEntry where
  names : List String
  effect : Effect
  rival? : Option String := none

/-- The options. -/
def optionEntries : List OptionEntry :=
  [⟨["-h", "--help"], .stop .help, none⟩,
    ⟨["--version"], .stop .version, none⟩,
    ⟨["-o", "--output"], .value fun s a => some { a with output? := some (.ofText s) }, none⟩,
    ⟨["-s", "--size"], .value fun s a => (PaperSize.ofName? s).map fun size => { a with size }, none⟩,
    ⟨["--toc"], .flag fun a => { a with toc? := some true }, some "--no-toc"⟩,
    ⟨["--no-toc"], .flag fun a => { a with toc? := some false }, some "--toc"⟩,
    ⟨["--onecolumn"], .flag fun a => { a with oneColumn := true }, none⟩,
    ⟨["--parindent"], .flag fun a => { a with parindent := true }, none⟩,
    ⟨["--lang"], .value fun s a => some { a with lang? := some s }, none⟩,
    ⟨["-L", "--latex"], .flag fun a => { a with latexOnly := true }, none⟩,
    ⟨["-T", "--tmpdir"], .value fun s a => some { a with temporary? := some (.ofText s) }, none⟩,
    ⟨["--skip-jpegtran"], .flag fun a => { a with keepMetadata := true }, none⟩,
    ⟨["--max-workers"], .value fun s a => (Whole.read? s.toList).map fun workers => { a with workers }, none⟩,
    ⟨["-d", "--debug"], .flag fun a => { a with debug := true }, none⟩,
    ⟨["--html"], .value fun s a => some { a with html? := some (.ofText s) }, none⟩,
    ⟨["--log-level"], .value fun s a => (LogLevel.ofName? s).map fun logLevel => { a with logLevel }, none⟩,
    ⟨["--log-file"], .value fun s a => some { a with logFile? := some s }, none⟩,
    ⟨["-v", "--verbose"], .flag fun a => { a with verbose := true }, none⟩,
    ⟨["--trace"], .flag fun a => { a with trace := true }, none⟩,
    ⟨["--rich"], .flag fun a => { a with rich := true }, none⟩]

/-- The option of a name. -/
def optionOf? (name : String) : Option OptionEntry := optionEntries.find? (·.names.contains name)

/-- The name of an option that a word begins with, in full or shortened. -/
def completions (start : String) : List (String × OptionEntry) :=
  optionEntries.flatMap fun o => (o.names.filter (start.isPrefixOf ·)).map fun name => (name, o)

/-- A text attached to an option, with or without an equals sign. -/
structure Attached where
  byEquals : Bool
  text : List Char

/-- A word of the command line. -/
inductive Word
  | operand (s : String)
  /-- From here on, all words are operands. -/
  | ending
  | option (entry : OptionEntry) (isShort : Bool) (attached? : Option Attached)
  /-- An option that there is not. -/
  | unknown

/-- Whether a word that begins with a hyphen is a negative number; a line feed at its end does not count. -/
def isNegativeNumber (s : List Char) : Bool :=
  let body := s.drop 1
  let body := if body.getLast? == some '\n' then body.dropLast else body
  let whole := body.takeWhile isDecimal
  match body.drop whole.length with
  | [] => !whole.isEmpty
  | '.' :: places => !places.isEmpty && places.all isDecimal
  | _ => false

/-- A word up to its first equals sign, and what follows the sign. -/
def splitEquals (s : List Char) : List Char × Option Attached :=
  let name := s.takeWhile (· != '=')
  match s.drop name.length with
  | _ :: text => (name, some ⟨true, text⟩)
  | [] => (name, none)

/-- The options that a word may be, if it is the full name of none. -/
def candidates (s : List Char) : List Word :=
  match s with
  | '-' :: '-' :: _ =>
    let (name, attached?) := splitEquals s
    (completions (String.ofList name)).map fun (_, entry) => .option entry false attached?
  | '-' :: c :: rest =>
    (optionOf? (String.ofList ['-', c])).toList.map fun entry => .option entry true (some ⟨false, rest⟩)
  | _ => []

/-- The option of a name with what is attached to it. -/
def namedOption? (name : List Char) (attached? : Option Attached) : Option Word :=
  (optionOf? (String.ofList name)).map fun entry => .option entry (name[1]? != some '-') attached?

/-- What a word is. -/
def classify (word : String) : Except Stop Word :=
  let s := word.toList
  if s.head? != some '-' || s.length = 1 then .ok (.operand word)
  else
    let (name, attached?) := splitEquals s
    match namedOption? s none <|> (attached?.bind fun a => namedOption? name (some a)) with
    | some option => .ok option
    | none =>
      match candidates s with
      | [option] => .ok option
      | _ :: _ :: _ => .error .usage
      | [] => .ok (if isNegativeNumber s || s.contains ' ' then .operand word else .unknown)

/-- What the words are. -/
def classifyAll : List String → Except Stop (List Word)
  | [] => .ok []
  | "--" :: words => .ok (.ending :: words.map .operand)
  | word :: words => do return (← classify word) :: (← classifyAll words)

/-- An option with the value that it has been given. -/
structure Given where
  entry : OptionEntry
  value? : Option String := none

/-- The options that are joined in one word, and whether something is left over. -/
def joined (entry : OptionEntry) (isShort byEquals : Bool) (s : List Char) : Except Stop (List Given × Bool) :=
  if entry.effect.takesValue then .ok ([⟨entry, some (String.ofList s)⟩], false)
  else
    match s with
    | [] => .error .usage
    | c :: rest =>
      if !isShort || byEquals || c = '-' then .error .usage
      else
        match optionOf? (String.ofList ['-', c]) with
        | none => .ok ([⟨entry, none⟩], true)
        | some next =>
          match rest with
          | [] => .ok ([⟨entry, none⟩, ⟨next, none⟩], false)
          | '=' :: text => do
            let (given, isLeft) ← joined next true true text
            return (⟨entry, none⟩ :: given, isLeft)
          | rest => do
            let (given, isLeft) ← joined next true false rest
            return (⟨entry, none⟩ :: given, isLeft)
termination_by s.length
decreasing_by all_goals (simp only [List.length_cons]; omega)

/-- How far the reading has come. -/
structure Reading where
  arguments : Arguments := {}
  /-- The names of the options that have been given. -/
  given : List String := []
  /-- The operand has been given. -/
  hasOperand : Bool := false
  /-- The last word was the operand. -/
  atOperand : Bool := false
  /-- Words are left over. -/
  hasSurplus : Bool := false

namespace Reading

/-- An operand; there is room for one. -/
def operand (r : Reading) (s : String) : Reading :=
  if r.hasOperand then { r with hasSurplus := true }
  else { r with arguments := { r.arguments with bundle? := some s }, hasOperand := true, atOperand := true }

/-- The mark after which all words are operands. It goes with the operand, and is left over without it. -/
def ending (r : Reading) : Reading := if r.hasOperand && !r.atOperand then { r with hasSurplus := true } else r

/-- An option with its value. -/
def option (r : Reading) (g : Given) : Except Stop Reading := do
  let isRefused := match g.entry.rival? with
    | some rival => r.given.contains rival
    | none => false
  if isRefused then throw .usage
  let r := { r with given := g.entry.names ++ r.given, atOperand := false }
  match g.entry.effect, g.value? with
  | .flag set, _ => return { r with arguments := set r.arguments }
  | .value set, some s =>
    match set s r.arguments with
    | some arguments => return { r with arguments }
    | none => throw .usage
  | .value _, none => throw .usage
  | .stop why, _ => throw why

/-- The reading of all words. -/
def words : List Word → Reading → Except Stop Reading
  | [], r => .ok r
  | .operand s :: words, r => Reading.words words (r.operand s)
  | .ending :: words, r => Reading.words words r.ending
  | .unknown :: words, r => Reading.words words { r with hasSurplus := true, atOperand := false }
  | .option entry isShort attached? :: words, r => do
    let (given, isLeft) ← match attached? with
      | some a => joined entry isShort a.byEquals a.text
      | none => pure ([{ entry : Given }], false)
    let r := { r with hasSurplus := r.hasSurplus || isLeft }
    match given.getLast? with
    | some ⟨last, none⟩ =>
      if last.effect.takesValue then
        match words with
        | .operand s :: words => do
          let r ← (given.dropLast ++ [{ entry := last, value? := some s : Given }]).foldlM Reading.option r
          Reading.words words r
        | _ => .error .usage
      else do
        let r ← given.foldlM Reading.option r
        Reading.words words r
    | _ => do
      let r ← given.foldlM Reading.option r
      Reading.words words r

end Reading

/-- What the words of a command line ask for. -/
def Arguments.read (words : List String) : Except Stop Arguments := do
  let r ← Reading.words (← classifyAll words) {}
  if r.hasSurplus then throw .usage
  return r.arguments

end WikiTypeset.CommandLine
