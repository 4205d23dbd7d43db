import WikiTypeset.Article.Lists
import WikiTypeset.Article.Switch
import WikiTypeset.Latex.Operation

/-!
# How documents are laid out

`Composition` is the set of programs that walks through documents perform, one constructor for each way in which a walk
puts them together: running text and breaks, inline formatting, isolated parts, environments, and changes of language.
A layout is such a program as a tree: what is written and where breaks may come, what stands inside inline formatting, in
an environment, in the arguments of a heading and in the label of a term. `Layout.program` is the program; all of them
are compositions.
-/

namespace WikiTypeset.Article

open Latex

/-! ### The programs that documents compose -/

/-- The environments without a language that documents are set in. -/
def plainEnvironments : List String :=
  ["center", "quotation", "quote", "itemize", "enumerate", "description", "figure", "equation*"]

/-- The commands of inline formatting without a language: they set no language, and links lead somewhere. -/
def IsPlainCommand (command : String) : Prop :=
  command ∈ ["\\textbf", "\\emph", "\\textsubscript", "\\textsuperscript*", "\\textsmall"] ∨
    (∃ target, command = "\\hyperlink\x7b" ++ target ++ "\x7d") ∨ ∃ url, command = "\\href\x7b" ++ url ++ "\x7d"

/-- Whether an operation neither nests nor concerns environments or the ambient direction. -/
def isSimple : Operation → Bool
  | .write _ | .switchDirection _ | .setCoverage _ | .deepenList _ | .deepenToc _ | .paragraphBreak | .lineBreak
  | .envBreak | .dirBreak | .resetLine => true
  | .record d => d.kind = .raw
  | _ => false

/-- The operations that set the variant of the font for embedded left-to-right text. -/
def fontOperations (l : Language) : List Operation :=
  match l.ltrFontCommand? with
  | some command => [.record (.raw command), .envBreak, .resetLine]
  | none => []

/-- The operations that enter a language as a block, up to the note of its direction. -/
def enteringLanguage (l : Language) (coverage? : Option Bool) : List Operation :=
  .beginEnv l.environment l.options :: fontOperations l ++ coverage?.toList.map .setCoverage ++
    [.assumeDirection l.direction]

/-- The programs of documents. -/
inductive Composition : List Operation → Prop
  | nil : Composition []
  | append {os os' : List Operation} (h : Composition os) (h' : Composition os') : Composition (os ++ os')
  | simple {o : Operation} (h : isSimple o = true) : Composition [o]
  | wrap {command : String} (hc : IsPlainCommand command) {os : List Operation} (h : Composition os) :
    Composition [.wrap command {} os]
  | isolated {os : List Operation} (h : Composition os) : Composition [.isolated os]
  | environment {env : String} (henv : env ∈ plainEnvironments) (options : String) {os : List Operation}
    (h : Composition os) : Composition (.beginEnv env options :: os ++ [.endEnv env])
  | languageBlock (code : String) (coverage? : Option Bool) {os : List Operation} (h : Composition os) :
    Composition (enteringLanguage (.ofCode code) coverage? ++ os ++ [.endEnv (Language.ofCode code).environment])
  | languageInline (code : String) (withOptions : Bool) {os : List Operation} (h : Composition os) :
    Composition [.wrap (languageCommand (.ofCode code) withOptions) {}
      (.assumeDirection (Language.ofCode code).direction :: os)]
  | resuming {os : List Operation} (h : Composition os) : Composition [.resuming os]

/-! ### Fragments -/

/-- The fragments with nothing but content: formulas and images. -/
def IsContent (value : String) : Prop :=
  (∃ s, value = "$" ++ s ++ "$") ∨ (∃ s, value = "\x7b" ++ s ++ "\x7d") ∨
    ∃ s, value = "\\includegraphics[width=0.95\\columnwidth]\x7b" ++ s ++ "\x7d"

/-- The fragments that set the style of an environment. -/
def styleFragments : List String := ["\\small\n", "\\small\\itshape\n"]

/-- What opens the short form of a heading. -/
def shortOpening (command : String) : String := "\\" ++ command ++ "["

/-- What opens the label of a term. -/
def labelOpening : String := "\\item["

/-- What opens the box of a long term. -/
def boxOpening : String := "\\parbox\x7b\\columnwidth\x7d\x7b"

/-- What begins an item, with the number and the name of a reference. -/
def itemMark : Option (Nat × String) → String
  | none => "\\item\x7b\x7d"
  | some (number, id) => "\\item[" ++ referenceLabel number id ++ "]\x7b\x7d"

/-! ### Layouts -/

/-- The language of the text of a heading in the language of the collection, with the direction of the place. -/
structure HeadingLanguage where
  code : String
  withOptions : Bool
  direction : NamedDirection

/-- The operations around the text of a heading. -/
def headingText (language? : Option HeadingLanguage) (content : List Operation) : List Operation :=
  match language? with
  | none => .dirBreak :: .resetLine :: content ++ [.dirBreak]
  | some l =>
    [.dirBreak, .wrap (languageCommand (.ofCode l.code) l.withOptions) {}
      (.assumeDirection (Language.ofCode l.code).direction :: .switchDirection l.direction :: .resetLine :: content),
      .dirBreak]

/-- The operations around a term. -/
def termText (long : Bool) (content : List Operation) : List Operation :=
  .record (.raw labelOpening) :: (if long then [.record (.raw boxOpening)] else []) ++
    (.dirBreak :: .resetLine :: content ++ [.dirBreak]) ++
    (if long then [.record (.raw "\x7d")] else []) ++ [.record (.raw "]"), .dirBreak]

/-- Whether an operation writes text, asks for a break, or changes a setting. -/
def isStep : Operation → Bool
  | .write _ | .switchDirection _ | .setCoverage _ | .deepenList _ | .deepenToc _ | .paragraphBreak | .lineBreak
  | .envBreak | .dirBreak => true
  | _ => false

/-- The layouts of documents. -/
inductive Layout
  | empty
  | append (first second : Layout)
  | step (o : Operation) (h : isStep o = true)
  | fragment (value : String) (h : IsContent value)
  | wrap (command : String) (h : IsPlainCommand command) (content : Layout)
  | languageInline (code : String) (withOptions : Bool) (content : Layout)
  | resuming (content : Layout)
  /-- An environment, with the styles that are set before its last part. -/
  | environment (env options : String) (h : env ∈ plainEnvironments) (before : Layout) (styles : List String)
    (hstyles : ∀ style ∈ styles, style ∈ styleFragments) (content : Layout)
  | languageBlock (code : String) (coverage? : Option Bool) (styles : List String)
    (hstyles : ∀ style ∈ styles, style ∈ styleFragments) (content : Layout)
  | item (reference? : Option (Nat × String))
  | term (long : Bool) (content : Layout)
  | heading (command : String) (h : command ∈ sectionCommands) (shortLanguage? language? : Option HeadingLanguage)
    (short text : Layout)

/-- The operations that set styles. -/
def styleOperations (styles : List String) : List Operation := styles.map fun style => .record (.raw style)

namespace Layout

/-- The program of a layout. -/
def program : Layout → List Operation
  | empty => []
  | append first second => first.program ++ second.program
  | step o _ => [o]
  | fragment value _ => [.record (.raw value)]
  | wrap command _ content => [.wrap command {} content.program]
  | languageInline code withOptions content =>
    [.wrap (languageCommand (.ofCode code) withOptions) {}
      (.assumeDirection (Language.ofCode code).direction :: content.program)]
  | resuming content => [.resuming content.program]
  | environment env options _ before styles _ content =>
    .beginEnv env options :: (before.program ++ styleOperations styles ++ content.program) ++ [.endEnv env]
  | languageBlock code coverage? styles _ content =>
    enteringLanguage (.ofCode code) coverage? ++ (styleOperations styles ++ content.program) ++
      [.endEnv (Language.ofCode code).environment]
  | item reference? => [.record (.raw (itemMark reference?)), .dirBreak, .resetLine]
  | term long content => termText long content.program
  | heading command _ shortLanguage? language? short text =>
    [.isolated (.deepenToc 1 :: .record (.raw (shortOpening command)) :: headingText shortLanguage? short.program ++
      [.deepenToc (-1), .record (.raw "]\x7b")] ++ headingText language? text.program ++ [.record (.raw "\x7d")])]

end Layout

/-! ### Compositions -/

/-- Operations that are simple one by one. -/
theorem Composition.all {os : List Operation} (h : ∀ o ∈ os, isSimple o = true) : Composition os := by
  induction os with
  | nil => exact .nil
  | cons o os ih =>
    obtain ⟨ho, hos⟩ := List.forall_mem_cons.1 h
    exact (Composition.simple ho).append (ih hos)

theorem styleOperations_composition (styles : List String) : Composition (styleOperations styles) :=
  .all <| List.forall_mem_map.2 fun _ _ => rfl

theorem Composition.headingText {content : List Operation} (h : Composition content)
    (language? : Option HeadingLanguage) : Composition (headingText language? content) := by
  cases language? with
  | none =>
    have hopening : Composition [.dirBreak, .resetLine] := .all (by simp [isSimple])
    exact hopening.append (h.append (.simple rfl))
  | some l =>
    have hlead : Composition [.switchDirection l.direction, .resetLine] := .all (by simp [isSimple])
    have hinner : Composition (.switchDirection l.direction :: .resetLine :: content) := hlead.append h
    exact (Composition.simple (o := .dirBreak) rfl).append
      ((Composition.languageInline l.code l.withOptions hinner).append (.simple (o := .dirBreak) rfl))

theorem Composition.termText {content : List Operation} (h : Composition content) (long : Bool) :
    Composition (termText long content) := by
  have hopening : Composition (.record (.raw labelOpening) :: (if long then [.record (.raw boxOpening)] else []) ++
      [.dirBreak, .resetLine]) := .all <| by cases long <;> simp [isSimple, Decoration.raw]
  have hclosing : Composition (.dirBreak :: (if long then [.record (.raw "\x7d")] else []) ++
      [.record (.raw "]"), .dirBreak]) := .all <| by cases long <;> simp [isSimple, Decoration.raw]
  simpa [Article.termText] using hopening.append (h.append hclosing)

/-- The program of a layout is a composition. -/
theorem Layout.composition (l : Layout) : Composition l.program := by
  induction l with
  | empty => exact .nil
  | append _ _ ih ih' => exact ih.append ih'
  | step o h => exact .simple (by cases o <;> first | rfl | cases h)
  | fragment value _ => exact .simple rfl
  | wrap _ h _ ih => exact .wrap h ih
  | languageInline code withOptions _ ih => exact .languageInline code withOptions ih
  | resuming _ ih => exact .resuming ih
  | environment env options h _ styles _ _ ih ih' =>
    exact .environment h options ((ih.append (styleOperations_composition styles)).append ih')
  | languageBlock code coverage? styles _ _ ih =>
    exact .languageBlock code coverage? ((styleOperations_composition styles).append ih)
  | item reference? => exact .all (by simp [program, isSimple, Decoration.raw])
  | term long _ ih => exact ih.termText long
  | heading command _ shortLanguage? language? _ _ ih ih' =>
    have hopening : Composition [.deepenToc 1, .record (.raw (shortOpening command))] :=
      .all (by simp [isSimple, Decoration.raw])
    have hturn : Composition [.deepenToc (-1), .record (.raw "]\x7b")] := .all (by simp [isSimple, Decoration.raw])
    have hclosing : Composition [.record (.raw "\x7d")] := .simple rfl
    exact .isolated <| (((hopening.append (ih.headingText shortLanguage?)).append hturn).append
      (ih'.headingText language?)).append hclosing

/-! ### The wording of layouts -/

/-- The text that an operation writes, unless it is blank. -/
def wordingOf : Operation → List (List Char)
  | .write text => if text.all Text.isBlank then [] else [text]
  | _ => []

/-- The number that a formula is made of, if it is one that raises or lowers a number. -/
def numberWording (value : String) : List (List Char) :=
  match value.toList with
  | '$' :: sign :: '\x7b' :: rest => if sign = '^' || sign = '_' then [rest.take (rest.length - 2)] else []
  | _ => []

/-- The texts of a layout in order: what is written and not blank, and the numbers that are set as formulas. What
stands in a figure does not count. -/
def Layout.wording : Layout → List (List Char)
  | empty => []
  | append first second => first.wording ++ second.wording
  | step o _ => wordingOf o
  | fragment value _ => numberWording value
  | wrap _ _ content => content.wording
  | languageInline _ _ content => content.wording
  | resuming content => content.wording
  | environment env _ _ before _ _ content => if env = "figure" then [] else before.wording ++ content.wording
  | languageBlock _ _ _ _ content => content.wording
  | item _ => []
  | term _ content => content.wording
  | heading _ _ _ _ short text => short.wording ++ text.wording

/-! ### The set-up of lists -/

/-- The environments of lists. -/
def listEnvironments : List String := ["itemize", "enumerate", "description"]

/-- A list has no styles, or the style of references only, with the first item behind it. -/
def IsSetUp (env : String) (styles : List String) (content : List Operation) : Prop :=
  env ∈ listEnvironments → styles ≠ [] → styles = ["\\small\n"] ∧
    ∃ reference? rest, content = .envBreak :: .record (.raw (itemMark reference?)) :: rest

/-- All lists of a layout are set up like that. -/
def Layout.IsSetUp : Layout → Prop
  | empty | step .. | fragment .. | item _ => True
  | append first second => first.IsSetUp ∧ second.IsSetUp
  | wrap _ _ content | languageInline _ _ content | resuming content | languageBlock _ _ _ _ content
  | term _ content => content.IsSetUp
  | environment env _ _ before styles _ content =>
    Article.IsSetUp env styles content.program ∧ before.IsSetUp ∧ content.IsSetUp
  | heading _ _ _ _ short text => short.IsSetUp ∧ text.IsSetUp

/-! ### Programs of layouts -/

/-- The programs of layouts with the given wording, whose lists are set up. -/
def Laying (W : List (List Char)) (os : List Operation) : Prop :=
  ∃ l : Layout, l.program = os ∧ l.wording = W ∧ l.IsSetUp

namespace Laying

variable {W W' : List (List Char)} {os os' : List Operation}

theorem empty : Laying [] [] := ⟨.empty, rfl, rfl, trivial⟩

theorem append (h : Laying W os) (h' : Laying W' os') : Laying (W ++ W') (os ++ os') := by
  obtain ⟨l, rfl, rfl, hl⟩ := h
  obtain ⟨l', rfl, rfl, hl'⟩ := h'
  exact ⟨.append l l', rfl, rfl, hl, hl'⟩

theorem step {o : Operation} (h : isStep o = true) : Laying (wordingOf o) [o] := ⟨.step o h, rfl, rfl, trivial⟩

/-- A step after a layout that writes nothing. -/
theorem before_quiet (h : Laying W os) {o : Operation} (ho : isStep o = true) (hquiet : wordingOf o = []) :
    Laying W (os ++ [o]) := by
  have hall := h.append (step ho)
  rwa [hquiet, List.append_nil] at hall

theorem fragment {value : String} (h : IsContent value) : Laying (numberWording value) [.record (.raw value)] :=
  ⟨.fragment value h, rfl, rfl, trivial⟩

theorem wrap {command : String} (hc : IsPlainCommand command) (h : Laying W os) : Laying W [.wrap command {} os] := by
  obtain ⟨l, rfl, rfl, hl⟩ := h
  exact ⟨.wrap command hc l, rfl, rfl, hl⟩

theorem languageInline (code : String) (withOptions : Bool) (h : Laying W os) :
    Laying W [.wrap (languageCommand (.ofCode code) withOptions) {}
      (.assumeDirection (Language.ofCode code).direction :: os)] := by
  obtain ⟨l, rfl, rfl, hl⟩ := h
  exact ⟨.languageInline code withOptions l, rfl, rfl, hl⟩

theorem resuming (h : Laying W os) : Laying W [.resuming os] := by
  obtain ⟨l, rfl, rfl, hl⟩ := h
  exact ⟨.resuming l, rfl, rfl, hl⟩

theorem environment {env : String} (henv : env ∈ plainEnvironments) (options : String) (h : Laying W os)
    {styles : List String} (hstyles : ∀ style ∈ styles, style ∈ styleFragments) (hset : IsSetUp env styles os')
    (h' : Laying W' os') :
    Laying (if env = "figure" then [] else W ++ W')
      (.beginEnv env options :: (os ++ styleOperations styles ++ os') ++ [.endEnv env]) := by
  obtain ⟨l, rfl, rfl, hl⟩ := h
  obtain ⟨l', rfl, rfl, hl'⟩ := h'
  exact ⟨.environment env options henv l styles hstyles l', rfl, rfl, hset, hl, hl'⟩

theorem languageBlock (code : String) (coverage? : Option Bool) {styles : List String}
    (hstyles : ∀ style ∈ styles, style ∈ styleFragments) (h : Laying W os) :
    Laying W (enteringLanguage (.ofCode code) coverage? ++ (styleOperations styles ++ os) ++
      [.endEnv (Language.ofCode code).environment]) := by
  obtain ⟨l, rfl, rfl, hl⟩ := h
  exact ⟨.languageBlock code coverage? styles hstyles l, rfl, rfl, hl⟩

theorem item (reference? : Option (Nat × String)) :
    Laying [] [.record (.raw (itemMark reference?)), .dirBreak, .resetLine] :=
  ⟨.item reference?, rfl, rfl, trivial⟩

theorem term (long : Bool) (h : Laying W os) : Laying W (termText long os) := by
  obtain ⟨l, rfl, rfl, hl⟩ := h
  exact ⟨.term long l, rfl, rfl, hl⟩

theorem heading {command : String} (hc : command ∈ sectionCommands) (shortLanguage? language? : Option HeadingLanguage)
    (h : Laying W os) (h' : Laying W' os') :
    Laying (W ++ W')
      [.isolated (.deepenToc 1 :: .record (.raw (shortOpening command)) :: headingText shortLanguage? os ++
        [.deepenToc (-1), .record (.raw "]\x7b")] ++ headingText language? os' ++ [.record (.raw "\x7d")])] := by
  obtain ⟨l, rfl, rfl, hl⟩ := h
  obtain ⟨l', rfl, rfl, hl'⟩ := h'
  exact ⟨.heading command hc shortLanguage? language? l l', rfl, rfl, hl, hl'⟩

end Laying

end WikiTypeset.Article
