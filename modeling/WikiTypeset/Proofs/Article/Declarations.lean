import WikiTypeset.Proofs.Article.Origins
import WikiTypeset.Proofs.Language.Setup

/-!
# The set-up declares what documents use

A document uses languages and fonts by the commands that it writes. The set-up for the languages that it is said to use
declares all of them, each once, in whatever order they are given. Main statement: `document_declared`.
-/

namespace WikiTypeset.Article

open Action Latex Html Language Language.Setup

/-- What a piece of output uses is declared in the set-up: the languages of blocks and of inline formatting, the font for
Latin words in a text, and the font that a fragment chooses for embedded left-to-right text. -/
def Declared (setup : List String) : Piece → Prop
  | .text style _ => style.latinFont = true → DefinesFont setup "latinfont".toList
  | .openInline command _ => IsPlainCommand command ∨
    ∃ code withOptions, Declares setup (ofCode code).name ∧ command = languageCommand (.ofCode code) withOptions
  | .block value =>
    (∃ env ∈ plainEnvironments, (∃ options, value = beginCommand env options) ∨ value = endCommand env) ∨
    ∃ code, Declares setup (ofCode code).name ∧ (value = endCommand (ofCode code).environment ∨
      value = beginCommand (ofCode code).environment (ofCode code).options)
  | .fragment value => ∀ command, value = "\\renewcommand\x7b\\LTRfont\x7d\x7b\\" ++ command ++ "\x7d" →
    DefinesFont setup command.toList
  | _ => True

/-- Whether a fragment gives a command a new meaning. -/
def isRenewal (value : String) : Bool := "\\renewcommand".toList.isPrefixOf value.toList

theorem isRenewal_false_of_isContent {value : String} (h : IsContent value) : isRenewal value = false := by
  rcases h with ⟨s, rfl⟩ | ⟨s, rfl⟩ | ⟨s, rfl⟩ <;> simp [isRenewal, List.isPrefixOf]

theorem isRenewal_false_of_item (reference? : Option (Nat × String)) : isRenewal (itemMark reference?) = false := by
  cases reference? with
  | none => decide
  | some r => simp [isRenewal, itemMark, List.isPrefixOf]

variable {k : Source} {main : String} {used : List String}

theorem LinkCommand.isPlain {base command : String} {e : Element} (h : LinkCommand base e command) :
    IsPlainCommand command := by
  cases h with
  | target _ => exact .inr (.inl ⟨_, rfl⟩)
  | url _ _ => exact .inr (.inr ⟨_, rfl⟩)

theorem Sourced.declared_inline {command : String} (h : Sourced k (main :: used) .startInline command)
    (delimiters : Delimiters) : Declared (setupLines main used) (.openInline command delimiters) := by
  cases h with
  | inline name => exact .inl (inlineCommand_plain name)
  | link _ _ hlink => exact .inl hlink.isPlain
  | @language code hcode withOptions => exact .inr ⟨code, withOptions, declares_of_mem hcode, rfl⟩

theorem Sourced.declared_block {value : String}
    (h : Sourced k (main :: used) .startBlock value ∨ Sourced k (main :: used) .endBlock value) :
    Declared (setupLines main used) (.block value) := by
  rcases h with h | h
  · cases h with
    | environment henv options => exact .inl ⟨_, henv, .inl ⟨options, rfl⟩⟩
    | languageBlock hcode => exact .inr ⟨_, declares_of_mem hcode, .inr rfl⟩
  · cases h with
    | environmentEnd henv => exact .inl ⟨_, henv, .inr rfl⟩
    | languageEnd hcode => exact .inr ⟨_, declares_of_mem hcode, .inl rfl⟩

theorem Sourced.declared_fragment {value : String} (h : Sourced k (main :: used) .raw value) :
    Declared (setupLines main used) (.fragment value) := by
  intro command hvalue
  have hrenewal : isRenewal value = true := by simp [hvalue, isRenewal, List.isPrefixOf]
  have hother : isRenewal value = false → DefinesFont (setupLines main used) command.toList :=
    fun hfalse => absurd (hrenewal.symm.trans hfalse) (by decide)
  cases h with
  | content hcontent => exact hother (isRenewal_false_of_isContent hcontent)
  | style hstyle => exact hother ((by decide : ∀ style ∈ styleFragments, isRenewal style = false) _ hstyle)
  | argument hmark _ => exact hother ((by decide : ∀ mark ∈ argumentMarks, isRenewal mark = false) _ hmark)
  | item => exact hother (isRenewal_false_of_item none)
  | reference _ number => exact hother (isRenewal_false_of_item _)
  | @font code _ hcode hc =>
    have hfont := definesFont_ltr hcode hc
    have hname : command = "LTR" ++ (ofCode code).script.toLower ++ "font" := by
      rw [ltrFontCommand?_eq hc] at hvalue
      have hopening : "\\renewcommand\x7b\\LTRfont\x7d\x7b\\LTR" = "\\renewcommand\x7b\\LTRfont\x7d\x7b\\" ++ "LTR" := by decide
      have hclosing : "font\x7d" = "font" ++ "\x7d" := by decide
      rw [hopening, hclosing] at hvalue
      have hlists := congrArg String.toList hvalue
      simp only [String.toList_append, List.append_assoc] at hlists
      have hrest := List.append_cancel_left hlists
      rw [← List.append_assoc, ← List.append_assoc] at hrest
      refine String.toList_inj.1 ((List.append_cancel_right hrest).symm.trans ?_)
      simp only [String.toList_append]
    rwa [hname, String.toList_append]

/-- All that comes from a source is declared. -/
theorem declared_of_isFrom {p : Piece} (h : p.IsFrom (supply k (main :: used))) :
    Declared (setupLines main used) p := by
  cases p with
  | text style s =>
    intro hlatin
    obtain ⟨code, hcode, hcoverage⟩ := h hlatin
    exact definesFont_latin hcode hcoverage
  | openInline command delimiters => exact Sourced.declared_inline h delimiters
  | block value => exact Sourced.declared_block h
  | fragment value => exact Sourced.declared_fragment h
  | _ => trivial

/-- A document uses only what the set-up declares for the language of the collection and any codes among which are all
that the document is said to use. No set-up defines a font or a command twice, and neither the order of the codes nor
their repetition matters. -/
theorem document_declared (document : Element) (title? : Option String) (lang : String) (options : ArticleOptions)
    (warned : List String) :
    Leaves (typesetDocument document title? lang) (start options (.known options.direction) warned)
      (fun _ t => ∀ used, t.used ⊆ used → ∀ p ∈ t.emitter.output, Declared (setupLines options.lang used) p)
      (fun _ _ => True) ∧
    ∀ main used, ((setupLines main used).filterMap definition?).Nodup ∧
      ∀ used', (∀ code, code ∈ used ↔ code ∈ used') →
        ∀ line ∈ setupLines main used, ∃ line' ∈ setupLines main used', SameLine line line' := by
  refine ⟨?_, fun main used => ⟨definitions_nodup main used, fun used' h => setupLines_sameLine h⟩⟩
  refine (typesetDocument_origins document title? lang options _ warned).imp (fun _ t h => ?_) fun _ _ _ => trivial
  obtain ⟨hoptions, hdraws⟩ := h
  intro used hused p hp
  have hcodes : t.codes ⊆ options.lang :: used := by
    rw [Typesetter.codes, hoptions]
    exact List.cons_subset_cons _ hused
  exact declared_of_isFrom ((hdraws.written p (List.mem_reverse.1 hp)).mono (supply_le hcodes))

/-- A document with a paragraph in Hebrew. -/
def hebrewDocument : Element :=
  { name := "[document]", children := [.element "p" [⟨"lang", .text "he"⟩] [.text .plain ['\u05D0']]] }

/-- It chooses the font for embedded left-to-right text in Hebrew, and the set-up that declares the language defines it,
whatever other codes are given and in whatever order. -/
theorem hebrewDocument_declared : ∃ t,
    (typesetDocument hebrewDocument none "en").perform (start {} (.known .ltr) []) = (.ok (), t) ∧
      t.used = ["he"] ∧
      .fragment "\\renewcommand\x7b\\LTRfont\x7d\x7b\\LTRhebrewfont\x7d" ∈ t.emitter.output ∧
      (∀ p ∈ t.emitter.output, Declared (setupLines "en" ["hi", "he"]) p) ∧
      ((setupLines "en" ["hi", "he"]).filterMap definition?).Nodup ∧
      ∀ line ∈ setupLines "en" ["hi", "he"], ∃ line' ∈ setupLines "en" ["he", "hi", "he"], SameLine line line' := by
  obtain ⟨hdocument, hsetup⟩ := document_declared hebrewDocument none "en" {} []
  have hok : ((typesetDocument hebrewDocument none "en").perform (start {} (.known .ltr) [])).1.toBool = true := by
    decide +kernel
  have hused : ((typesetDocument hebrewDocument none "en").perform (start {} (.known .ltr) [])).2.used = ["he"] := by
    decide +kernel
  have hfont : ((typesetDocument hebrewDocument none "en").perform (start {} (.known .ltr) [])).2.emitter.output.any
      (fun p => p == .fragment "\\renewcommand\x7b\\LTRfont\x7d\x7b\\LTRhebrewfont\x7d") = true := by decide +kernel
  have hcodes : ∀ code, code ∈ ["hi", "he"] ↔ code ∈ ["he", "hi", "he"] := by
    intro code
    refine ⟨List.mem_cons_of_mem _, fun h => ?_⟩
    rcases List.mem_cons.1 h with rfl | h
    · exact .tail _ (.head _)
    · exact h
  obtain ⟨hnodup, hlines⟩ := hsetup "en" ["hi", "he"]
  rcases hperform : (typesetDocument hebrewDocument none "en").perform (start {} (.known .ltr) []) with ⟨c | _, t⟩
  · rw [hperform] at hok
    cases hok
  · rw [hperform] at hused hfont
    refine ⟨t, rfl, hused, ?_, hdocument.ok hperform ["hi", "he"] ?_, hnodup, hlines _ hcodes⟩
    · obtain ⟨p, hp, heq⟩ := List.any_eq_true.1 hfont
      rwa [← eq_of_beq heq]
    · rw [show t.used = ["he"] from hused]
      exact List.subset_cons_self _ _

end WikiTypeset.Article
