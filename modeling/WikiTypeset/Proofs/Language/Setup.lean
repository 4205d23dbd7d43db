import Mathlib.Data.List.Nodup
import Mathlib.Data.List.Pairwise
import WikiTypeset.Language.Setup

/-!
# What the language set-up declares

The lines of a set-up are read for the languages that they declare and for the commands and font families that they
define. Every code that is used has its language declared and its fonts defined, no name is defined twice, and the order
of the codes does not matter. Main statements: `declares_of_mem`, `definitions_nodup` and `setupLines_sameLine`.
-/

namespace WikiTypeset.Language.Setup

/-! ### Reading lines -/

/-- What a line defines. -/
inductive Definition
  /-- A command, whether for a font or not. -/
  | command (name : List Char)
  /-- A family of a package that manages its own. -/
  | family (name : List Char)
  deriving DecidableEq

/-- The rest of a line after a prefix. -/
def after? (start : String) (line : String) : Option (List Char) := start.toList.isPrefixOf? line.toList

/-- The command of a font that a line defines. -/
def fontCommand? (line : String) : Option (List Char) :=
  (after? "\\newfontfamily\\" line).map fun rest => rest.takeWhile Char.isAlpha

/-- What a line defines, if anything. -/
def definition? (line : String) : Option Definition :=
  (fontCommand? line).map .command <|>
    (after? "\\newcommand\x7b\\" line).map (fun rest => .command (rest.takeWhile Char.isAlpha)) <|>
    (after? "\\renewcommand\x7b\\" line).map (fun rest => .command (rest.takeWhile Char.isAlpha)) <|>
    (after? "\\setCJKfamilyfont\x7b" line).map fun rest => .family (rest.takeWhile (· != '\x7d'))

/-- The line that declares languages of the given names. -/
def otherLine (names : List String) : String := "\\setotherlanguages\x7b" ++ String.intercalate "," names ++ "\x7d"

/-- The lines declare a language of the name, as the main one or as one of the others. -/
def Declares (lines : List String) (name : String) : Prop :=
  (∃ options, "\\setdefaultlanguage[" ++ options ++ "]\x7b" ++ name ++ "\x7d" ∈ lines) ∨
    ∃ names, name ∈ names ∧ otherLine names ∈ lines

/-- The lines define the command of a font. -/
def DefinesFont (lines : List String) (command : List Char) : Prop := command ∈ lines.filterMap fontCommand?

/-! ### Codes -/

theorem mem_usedCodes {main code : String} {used : List String} : code ∈ usedCodes main used ↔ code ∈ main :: used :=
  List.mem_eraseDups

/-- Every language that is used is declared. -/
theorem declares_of_mem {main code : String} {used : List String} (h : code ∈ main :: used) :
    Declares (setupLines main used) (ofCode code).name := by
  by_cases hmain : code = main
  · subst hmain
    exact .inl ⟨(ofCode code).options, List.mem_cons_self ..⟩
  · have hname : (ofCode code).name ∈ otherNames main (usedCodes main used) := by
      refine List.mem_eraseDups.2 (List.mem_map.2 ⟨code, List.mem_filter.2 ⟨mem_usedCodes.2 h, ?_⟩, rfl⟩)
      simpa using hmain
    have hlines : otherLines main (usedCodes main used) = [otherLine (otherNames main (usedCodes main used))] := by
      unfold otherLines
      split
      · rename_i hnil
        rw [hnil] at hname
        cases hname
      · rfl
    refine .inr ⟨_, hname, List.mem_cons_of_mem _ ?_⟩
    simp [hlines]

/-! ### Definitions -/

theorem after?_eq {start line : String} {rest : List Char} (h : line.toList = start.toList ++ rest) :
    after? start line = some rest :=
  List.isPrefixOf?_eq_some_iff_append_eq.2 h.symm

/-- A name of letters is read up to what follows it. -/
theorem takeWhile_letters {name rest : List Char} {c : Char} (hname : name.all Char.isAlpha = true)
    (hc : c.isAlpha = false) : (name ++ c :: rest).takeWhile Char.isAlpha = name := by
  rw [List.takeWhile_append_of_pos fun a ha => List.all_eq_true.1 hname a ha]
  simp [hc]

/-- What the command of the font of a name is called. -/
def fontName (name : List Char) : List Char := name ++ "font".toList

theorem fontName_letters {name : List Char} (h : name.all Char.isAlpha = true) :
    (fontName name).all Char.isAlpha = true := by
  have hfont : "font".toList.all Char.isAlpha = true := by decide
  rw [fontName, List.all_append, h, hfont, Bool.and_true]

/-- A line that defines the font of a name. -/
theorem fontCommand?_line {line : String} {name rest : List Char} {c : Char}
    (hline : line.toList = "\\newfontfamily\\".toList ++ (fontName name ++ c :: rest))
    (hname : name.all Char.isAlpha = true) (hc : c.isAlpha = false) : fontCommand? line = some (fontName name) := by
  rw [fontCommand?, after?_eq hline, Option.map_some, takeWhile_letters (fontName_letters hname) hc]

theorem definition?_font {line : String} {name : List Char} (h : fontCommand? line = some name) :
    definition? line = some (.command name) := by
  simp [definition?, h]

/-- What the font of a language defines. -/
def languageDefinitions (l : Language) : List Definition :=
  match languageFont? l.name with
  | some font => (if font.cjk then [.family l.name.toList] else []) ++ [.command (fontName l.name.toList)]
  | none => []

/-- What the font of a script defines. -/
def scriptDefinitions (rtl : Bool) (script : String) : List Definition :=
  match scriptFont? script with
  | some _ => .command (fontName script.toLower.toList) ::
      if rtl then [.command (fontName ("LTR" ++ script.toLower).toList)] else []
  | none => []

/-- The languages with a font of their own. -/
def fontLanguages : List String := ["vietnamese", "urdu", "farsi", "chinese", "japanese", "korean"]

/-- The scripts with a font. -/
def fontScripts : List String := ["default", "Arabic", "Devanagari", "Hebrew", "Latin", "Malayalam"]

theorem mem_fontLanguages {name : String} {font : Font} (h : languageFont? name = some font) : name ∈ fontLanguages := by
  unfold languageFont? at h
  split at h <;> cases h <;> decide

theorem mem_fontScripts {script : String} {font : Font} (h : scriptFont? script = some font) :
    script ∈ fontScripts := by
  unfold scriptFont? at h
  split at h <;> cases h <;> decide

theorem fontLanguages_letters : ∀ name ∈ fontLanguages, name.toList.all Char.isAlpha = true := by decide

theorem fontScripts_letters : ∀ script ∈ fontScripts, script.toLower.toList.all Char.isAlpha = true := by
  decide +kernel

theorem definition?_family {line : String} {name rest : List Char}
    (hline : line.toList = "\\setCJKfamilyfont\x7b".toList ++ (name ++ '\x7d' :: rest))
    (hname : name.all Char.isAlpha = true) : definition? line = some (.family name) := by
  have hread : (name ++ '\x7d' :: rest).takeWhile (· != '\x7d') = name := by
    rw [List.takeWhile_append_of_pos]
    · simp
    · intro c hc
      have hletter := List.all_eq_true.1 hname c hc
      simp only [bne_iff_ne, ne_eq]
      rintro rfl
      exact absurd hletter (by decide)
  rw [definition?, fontCommand?, after?_eq hline]
  simp [after?, hline, List.isPrefixOf?, hread]

theorem definition?_newCommand {line : String} {name rest : List Char}
    (hline : line.toList = "\\newcommand\x7b\\".toList ++ (name ++ '\x7d' :: rest))
    (hname : name.all Char.isAlpha = true) : definition? line = some (.command name) := by
  rw [definition?, fontCommand?, after?_eq hline]
  simp [after?, hline, List.isPrefixOf?, takeWhile_letters hname (show Char.isAlpha '\x7d' = false by decide)]

theorem definition?_renewCommand {line : String} {name rest : List Char}
    (hline : line.toList = "\\renewcommand\x7b\\".toList ++ (name ++ '\x7d' :: rest))
    (hname : name.all Char.isAlpha = true) : definition? line = some (.command name) := by
  rw [definition?, fontCommand?, after?_eq hline]
  simp [after?, hline, List.isPrefixOf?, takeWhile_letters hname (show Char.isAlpha '\x7d' = false by decide)]

/-- The lines of a language's own font define what they should. -/
theorem definitions_languageFontLines {l : Language} {font : Font} (h : l.name ∈ fontLanguages) :
    (languageFontLines l font).filterMap definition? =
      (if font.cjk then [.family l.name.toList] else []) ++ [.command (fontName l.name.toList)] := by
  have hname := fontLanguages_letters _ h
  unfold languageFontLines
  cases font.cjk with
  | false =>
    have hfont : fontCommand? ("\\newfontfamily\\" ++ l.name ++ "font" ++ ("[Script=" ++ l.script ++
        furtherOptions font ++ "]\x7b" ++ font.name ++ "\x7d")) = some (fontName l.name.toList) :=
      fontCommand?_line (c := '[') (by simp [fontName]; rfl) hname (by decide)
    simp [definition?_font hfont]
  | true =>
    have hfamily : definition? ("\\setCJKfamilyfont\x7b" ++ l.name ++ "\x7d" ++ ("[Script=" ++ l.script ++
        furtherOptions font ++ "]\x7b" ++ font.name ++ "\x7d")) = some (.family l.name.toList) :=
      definition?_family (by simp; rfl) hname
    have hcommand : definition? ("\\newcommand\x7b\\" ++ l.name ++ "font\x7d\x7b\\CJKfamily\x7b" ++ l.name ++
        "\x7d\x7d") = some (.command (fontName l.name.toList)) :=
      definition?_newCommand (by simp [fontName]; rfl) (fontName_letters hname)
    simp [hfamily, hcommand]

/-- The commands of a script's fonts. -/
theorem fontCommands_scriptLines (rtl : Bool) {script : String} {font : Font} (h : scriptFont? script = some font) :
    (scriptLines rtl script).map fontCommand? = some (fontName script.toLower.toList) ::
      if rtl then [some (fontName ("LTR" ++ script.toLower).toList)] else [] := by
  have hname := fontScripts_letters _ (mem_fontScripts h)
  have hplain : fontCommand? ("\\newfontfamily\\" ++ script.toLower ++ "font[Script=" ++ script ++
      furtherOptions font ++ "]\x7b" ++ font.name ++ "\x7d") = some (fontName script.toLower.toList) :=
    fontCommand?_line (c := '[') (by simp [fontName]; rfl) hname (by decide)
  have hembedded : fontCommand? ("\\newfontfamily\\LTR" ++ script.toLower ++ "font\x7b" ++ font.name ++ "\x7d") =
      some (fontName ("LTR" ++ script.toLower).toList) :=
    fontCommand?_line (c := '\x7b') (by simp [fontName]; rfl) (by simpa using hname) (by decide)
  rw [scriptLines, h]
  cases rtl <;> simp [hplain, hembedded]

/-- The lines of a script's fonts define what they should. -/
theorem definitions_scriptLines (rtl : Bool) (script : String) :
    (scriptLines rtl script).filterMap definition? = scriptDefinitions rtl script := by
  have hread : ∀ (lines : List String) (names : List (List Char)), lines.map fontCommand? = names.map some →
      lines.filterMap definition? = names.map .command := by
    intro lines
    induction lines with
    | nil =>
      intro names h
      obtain rfl := List.map_eq_nil_iff.1 h.symm
      rfl
    | cons line lines ih =>
      intro names h
      cases names with
      | nil => cases h
      | cons name names =>
        obtain ⟨hline, hlines⟩ := List.cons.inj h
        simp [definition?_font hline, ih names hlines]
  unfold scriptDefinitions
  cases hfont : scriptFont? script with
  | none => simp [scriptLines, hfont]
  | some font =>
    have hlines := fontCommands_scriptLines rtl hfont
    cases rtl with
    | false => exact hread _ [_] hlines
    | true => exact hread _ [_, _] hlines

/-- Lines that declare languages and load packages define nothing. -/
theorem definition?_mainLine (l : Language) : definition? (mainLine l) = none := by
  have hline : (mainLine l).toList =
      "\\setdefaultlanguage[".toList ++ (l.options ++ "]\x7b" ++ l.name ++ "\x7d").toList := by
    unfold mainLine
    simp only [String.toList_append, List.append_assoc]
  rw [definition?, fontCommand?, after?, after?, after?, after?, hline]
  rfl

theorem definition?_otherLine (names : List String) : definition? (otherLine names) = none := by
  have hline : (otherLine names).toList =
      "\\setotherlanguages\x7b".toList ++ (String.intercalate "," names ++ "\x7d").toList := by
    unfold otherLine
    simp only [String.toList_append, List.append_assoc]
  rw [definition?, fontCommand?, after?, after?, after?, after?, hline]
  rfl

theorem definitions_otherLines (main : String) (codes : List String) :
    (otherLines main codes).filterMap definition? = [] := by
  unfold otherLines
  split
  · rfl
  · rw [show "\\setotherlanguages\x7b" ++ String.intercalate "," _ ++ "\x7d" = otherLine _ from rfl]
    simp [definition?_otherLine]

theorem ltrFontCommand?_eq {l : Language} {command : String} (h : l.ltrFontCommand? = some command) :
    command = "\\renewcommand\x7b\\LTRfont\x7d\x7b\\LTR" ++ l.script.toLower ++ "font\x7d" := by
  unfold ltrFontCommand? at h
  split at h
  · exact (Option.some.inj h).symm
  · cases h

theorem definition?_ltrFontCommand {l : Language} {command : String} (h : l.ltrFontCommand? = some command) :
    definition? command = some (.command (fontName "LTR".toList)) := by
  rw [ltrFontCommand?_eq h]
  have hname : (fontName "LTR".toList).all Char.isAlpha = true := by decide
  exact definition?_renewCommand (by simp [fontName]; rfl) hname

/-- What a set-up defines. -/
def definitions (main : String) (used : List String) : List Definition :=
  (distinctLanguages (usedCodes main used)).flatMap languageDefinitions ++
    (scripts (usedCodes main used)).flatMap
      (fun script => scriptDefinitions ((rtlScripts (usedCodes main used)).contains script) script) ++
    if (ltrFontCommand? (ofCode main)).isSome then [.command (fontName "LTR".toList)] else []

theorem definitions_setupLines (main : String) (used : List String) :
    (setupLines main used).filterMap definition? = definitions main used := by
  have hlanguages : ∀ codes, (languageLines codes).filterMap definition? =
      (distinctLanguages codes).flatMap languageDefinitions := by
    intro codes
    rw [languageLines, List.filterMap_flatMap]
    refine List.flatMap_congr fun l _ => ?_
    rw [languageDefinitions]
    cases hfont : languageFont? l.name with
    | none => rfl
    | some font => exact definitions_languageFontLines (mem_fontLanguages hfont)
  have hfont : (ltrFontCommand? (ofCode main)).toList.filterMap definition? =
      if (ltrFontCommand? (ofCode main)).isSome then [.command (fontName "LTR".toList)] else [] := by
    cases hcommand : ltrFontCommand? (ofCode main) with
    | none => rfl
    | some command => simp [definition?_ltrFontCommand hcommand]
  have hbidi : definition? "\\usepackage\x7bbidi\x7d" = none := by decide
  simp only [setupLines, definitions, List.filterMap_append, List.filterMap_cons, definition?_mainLine,
    definitions_otherLines, hbidi, hlanguages, hfont, List.filterMap_flatMap, definitions_scriptLines]
  simp

/-! ### Nothing is defined twice -/

theorem nodup_eraseDups {α : Type} [BEq α] [LawfulBEq α] (xs : List α) : xs.eraseDups.Nodup := by
  cases xs with
  | nil => simp
  | cons x xs =>
    rw [List.eraseDups_cons, List.nodup_cons]
    refine ⟨fun h => ?_, nodup_eraseDups _⟩
    have hx := (List.mem_filter.1 (List.mem_eraseDups.1 h)).2
    simp at hx
termination_by xs.length
decreasing_by
  have hle := List.length_filter_le (fun y => !y == x) xs
  simp only [List.length_cons]
  omega

/-- The languages after one more code. -/
def addLanguage (ls : List Language) (code : String) : List Language :=
  if ls.any (·.name == (ofCode code).name) then ls else ls ++ [ofCode code]

theorem mem_addLanguage {ls : List Language} {code : String} {l : Language} (h : l ∈ addLanguage ls code) :
    l ∈ ls ∨ l = ofCode code := by
  unfold addLanguage at h
  split at h
  · exact .inl h
  · exact (List.mem_append.1 h).imp_right List.mem_singleton.1

theorem subset_addLanguage (ls : List Language) (code : String) : ls ⊆ addLanguage ls code := by
  unfold addLanguage
  split
  · exact List.Subset.refl _
  · exact List.subset_append_left _ _

theorem exists_mem_addLanguage (ls : List Language) (code : String) :
    ∃ l ∈ addLanguage ls code, l.name = (ofCode code).name := by
  unfold addLanguage
  split
  · rename_i hknown
    obtain ⟨l, hl, hname⟩ := List.any_eq_true.1 hknown
    exact ⟨l, hl, by simpa using hname⟩
  · exact ⟨ofCode code, List.mem_append_right _ (List.mem_singleton_self _), rfl⟩

theorem addLanguage_nodup {ls : List Language} (h : (ls.map (·.name)).Nodup) (code : String) :
    ((addLanguage ls code).map (·.name)).Nodup := by
  unfold addLanguage
  split
  · exact h
  · rename_i hnew
    rw [List.map_append, List.nodup_append]
    refine ⟨h, List.nodup_singleton _, fun name hname other hother hsame => ?_⟩
    obtain ⟨l, hl, rfl⟩ := List.mem_map.1 hname
    obtain rfl := List.mem_singleton.1 hother
    exact hnew (List.any_eq_true.2 ⟨l, hl, by simpa using hsame⟩)

/-- The languages of the codes each have a name of their own. -/
theorem distinctLanguages_nodup (codes : List String) : ((distinctLanguages codes).map (·.name)).Nodup := by
  have hfold : ∀ ls : List Language, (ls.map (·.name)).Nodup → ((codes.foldl addLanguage ls).map (·.name)).Nodup := by
    induction codes with
    | nil => exact fun ls h => h
    | cons code codes ih => exact fun ls h => ih _ (addLanguage_nodup h code)
  exact hfold [] List.nodup_nil

/-- They are the languages of codes. -/
theorem mem_distinctLanguages {codes : List String} {l : Language} (h : l ∈ distinctLanguages codes) :
    ∃ code ∈ codes, l = ofCode code := by
  have hfold : ∀ ls : List Language, l ∈ codes.foldl addLanguage ls → l ∈ ls ∨ ∃ code ∈ codes, l = ofCode code := by
    clear h
    induction codes with
    | nil => exact fun ls h => .inl h
    | cons code codes ih =>
      intro ls h
      rcases ih _ h with h | ⟨other, hother, hl⟩
      · exact (mem_addLanguage h).imp_right fun hl => ⟨code, List.mem_cons_self .., hl⟩
      · exact .inr ⟨other, List.mem_cons_of_mem _ hother, hl⟩
  exact (hfold [] h).resolve_left (List.not_mem_nil)

/-- The name of the language of every code is among them. -/
theorem exists_mem_distinctLanguages {codes : List String} {code : String} (h : code ∈ codes) :
    ∃ l ∈ distinctLanguages codes, l.name = (ofCode code).name := by
  have hkeep : ∀ (codes : List String) (ls : List Language), ls ⊆ codes.foldl addLanguage ls := by
    intro codes
    induction codes with
    | nil => exact fun ls => List.Subset.refl _
    | cons code codes ih => exact fun ls => List.Subset.trans (subset_addLanguage ls code) (ih _)
  have hfold : ∀ ls : List Language, ∃ l ∈ codes.foldl addLanguage ls, l.name = (ofCode code).name := by
    induction codes with
    | nil => cases h
    | cons first codes ih =>
      intro ls
      rcases List.mem_cons.1 h with rfl | h
      · obtain ⟨l, hl, hname⟩ := exists_mem_addLanguage ls code
        exact ⟨l, hkeep codes _ hl, hname⟩
      · exact ih h _
  exact hfold []

/-- The names of the commands for the fonts of a script. -/
def scriptNames (script : String) : List (List Char) := [script.toLower.toList, ("LTR" ++ script.toLower).toList]

theorem mem_languageDefinitions {l : Language} {d : Definition} (h : d ∈ languageDefinitions l) :
    l.name ∈ fontLanguages ∧ (d = .family l.name.toList ∨ d = .command (fontName l.name.toList)) := by
  unfold languageDefinitions at h
  split at h
  · rename_i font hfont
    refine ⟨mem_fontLanguages hfont, ?_⟩
    cases hcjk : font.cjk <;> simp [hcjk] at h <;> simp [h]
  · cases h

theorem mem_scriptDefinitions {rtl : Bool} {script : String} {d : Definition} (h : d ∈ scriptDefinitions rtl script) :
    script ∈ fontScripts ∧ ∃ name ∈ scriptNames script, d = .command (fontName name) := by
  unfold scriptDefinitions at h
  split at h
  · rename_i font hfont
    refine ⟨mem_fontScripts hfont, ?_⟩
    rcases List.mem_cons.1 h with rfl | h
    · exact ⟨_, List.mem_cons_self .., rfl⟩
    · split at h
      · obtain rfl := List.mem_singleton.1 h
        exact ⟨_, by simp [scriptNames], rfl⟩
      · cases h
  · cases h

theorem fontName_injective {a b : List Char} (h : fontName a = fontName b) : a = b := List.append_cancel_right h

theorem scriptNames_nodup : ∀ script ∈ fontScripts, (scriptNames script).Nodup := by decide +kernel

theorem scriptNames_apart : ∀ script ∈ fontScripts, ∀ other ∈ fontScripts, script ≠ other →
    ∀ name ∈ scriptNames script, name ∉ scriptNames other := by decide +kernel

theorem languageNames_apart : ∀ language ∈ fontLanguages, ∀ script ∈ fontScripts,
    language.toList ∉ scriptNames script := by decide +kernel

/-- The command that is set anew for each language is not one of those that fonts define. -/
theorem ltrName_apart : "LTR".toList ∉ fontLanguages.map (·.toList) ∧
    ∀ script ∈ fontScripts, "LTR".toList ∉ scriptNames script := by decide +kernel

theorem languageDefinitions_nodup (l : Language) : (languageDefinitions l).Nodup := by
  unfold languageDefinitions
  split
  · split <;> simp
  · exact List.nodup_nil

theorem scriptDefinitions_nodup (rtl : Bool) (script : String) : (scriptDefinitions rtl script).Nodup := by
  unfold scriptDefinitions
  split
  · rename_i font hfont
    have hnames := scriptNames_nodup _ (mem_fontScripts hfont)
    simp only [scriptNames, List.nodup_cons, List.mem_singleton] at hnames
    split
    · simp only [List.nodup_cons, List.mem_singleton, Definition.command.injEq, List.not_mem_nil, not_false_iff,
        List.nodup_nil, and_true]
      exact fun h => hnames.1 (fontName_injective h)
    · exact List.nodup_singleton _
  · exact List.nodup_nil

theorem languageDefinitions_disjoint {l l' : Language} (h : l.name ≠ l'.name) :
    List.Disjoint (languageDefinitions l) (languageDefinitions l') := by
  intro d hd hd'
  obtain ⟨-, hd⟩ := mem_languageDefinitions hd
  obtain ⟨-, hd'⟩ := mem_languageDefinitions hd'
  rcases hd with rfl | rfl <;> rcases hd' with hd' | hd'
  · exact h (String.toList_inj.1 (Definition.family.inj hd'))
  · nomatch hd'
  · nomatch hd'
  · exact h (String.toList_inj.1 (fontName_injective (Definition.command.inj hd')))

theorem scriptDefinitions_disjoint {rtl rtl' : Bool} {script script' : String} (h : script ≠ script') :
    List.Disjoint (scriptDefinitions rtl script) (scriptDefinitions rtl' script') := by
  intro d hd hd'
  obtain ⟨hscript, name, hname, rfl⟩ := mem_scriptDefinitions hd
  obtain ⟨hscript', name', hname', heq⟩ := mem_scriptDefinitions hd'
  obtain rfl := fontName_injective (Definition.command.inj heq)
  exact scriptNames_apart _ hscript _ hscript' h _ hname hname'

/-- A set-up defines nothing twice. -/
theorem definitions_nodup (main : String) (used : List String) :
    ((setupLines main used).filterMap definition?).Nodup := by
  have hlanguages : ((distinctLanguages (usedCodes main used)).flatMap languageDefinitions).Nodup := by
    refine List.nodup_flatMap.2 ⟨fun l _ => languageDefinitions_nodup l, ?_⟩
    exact (List.pairwise_map.1 (distinctLanguages_nodup _)).imp languageDefinitions_disjoint
  have hscripts : ((scripts (usedCodes main used)).flatMap fun script =>
      scriptDefinitions ((rtlScripts (usedCodes main used)).contains script) script).Nodup := by
    refine List.nodup_flatMap.2 ⟨fun script _ => scriptDefinitions_nodup _ script, ?_⟩
    exact (nodup_eraseDups _).imp scriptDefinitions_disjoint
  have hapart : List.Disjoint ((distinctLanguages (usedCodes main used)).flatMap languageDefinitions)
      ((scripts (usedCodes main used)).flatMap fun script =>
        scriptDefinitions ((rtlScripts (usedCodes main used)).contains script) script) := by
    intro d hd hd'
    obtain ⟨l, -, hd⟩ := List.mem_flatMap.1 hd
    obtain ⟨script, -, hd'⟩ := List.mem_flatMap.1 hd'
    obtain ⟨hscript, name, hname, rfl⟩ := mem_scriptDefinitions hd'
    obtain ⟨hlanguage, heq | heq⟩ := mem_languageDefinitions hd
    · nomatch heq
    · obtain rfl := fontName_injective (Definition.command.inj heq)
      exact languageNames_apart _ hlanguage _ hscript hname
  have hlast : List.Disjoint ((distinctLanguages (usedCodes main used)).flatMap languageDefinitions ++
      (scripts (usedCodes main used)).flatMap fun script =>
        scriptDefinitions ((rtlScripts (usedCodes main used)).contains script) script)
      (if (ltrFontCommand? (ofCode main)).isSome then [.command (fontName "LTR".toList)] else []) := by
    intro d hd hd'
    obtain rfl : d = .command (fontName "LTR".toList) := by
      split at hd'
      · exact List.mem_singleton.1 hd'
      · cases hd'
    rcases List.mem_append.1 hd with hd | hd
    · obtain ⟨l, -, hd⟩ := List.mem_flatMap.1 hd
      obtain ⟨hlanguage, heq | heq⟩ := mem_languageDefinitions hd
      · nomatch heq
      · have hname := fontName_injective (Definition.command.inj heq)
        exact ltrName_apart.1 (hname ▸ List.mem_map_of_mem hlanguage)
    · obtain ⟨script, -, hd⟩ := List.mem_flatMap.1 hd
      obtain ⟨hscript, name, hname, heq⟩ := mem_scriptDefinitions hd
      obtain rfl := fontName_injective (Definition.command.inj heq)
      exact ltrName_apart.2 _ hscript hname
  rw [definitions_setupLines, definitions]
  refine (hlanguages.append hscripts hapart).append ?_ hlast
  split
  · exact List.nodup_singleton _
  · exact List.nodup_nil

/-! ### Fonts -/

/-- The fonts of the scripts in use are defined. -/
theorem definesFont_script {main script : String} {used : List String} {name : List Char}
    (h : script ∈ scripts (usedCodes main used))
    (hname : some name ∈ (scriptLines ((rtlScripts (usedCodes main used)).contains script) script).map fontCommand?) :
    DefinesFont (setupLines main used) name := by
  obtain ⟨line, hline, hread⟩ := List.mem_map.1 hname
  have hlines : line ∈ (scripts (usedCodes main used)).flatMap fun script =>
      scriptLines ((rtlScripts (usedCodes main used)).contains script) script := List.mem_flatMap.2 ⟨script, h, hline⟩
  exact List.mem_filterMap.2 ⟨line, List.mem_append_left _ (List.mem_append_right _ hlines), hread⟩

/-- If Latin words are set in a font of their own for a language that is used, that font is defined. -/
theorem definesFont_latin {main code : String} {used : List String} (h : code ∈ main :: used)
    (hl : (ofCode code).latinCoverage = false) : DefinesFont (setupLines main used) (fontName "latin".toList) := by
  have hscript : "Latin" ∈ scripts (usedCodes main used) := by
    refine List.mem_eraseDups.2 (List.mem_flatMap.2 ⟨code, mem_usedCodes.2 h, ?_⟩)
    simp [hl]
  refine definesFont_script hscript ?_
  have hfont : scriptFont? "Latin" = some _ := rfl
  rw [fontCommands_scriptLines _ hfont, show "Latin".toLower = "latin" by decide +kernel]
  exact List.mem_cons_self ..

/-- The font for embedded left-to-right text is defined for a language that is used. -/
theorem definesFont_ltr {main code command : String} {used : List String} (h : code ∈ main :: used)
    (hc : (ofCode code).ltrFontCommand? = some command) :
    DefinesFont (setupLines main used) (fontName ("LTR" ++ (ofCode code).script.toLower).toList) := by
  unfold ltrFontCommand? at hc
  split at hc
  · rename_i hneeded
    obtain ⟨hrtl, hsome⟩ := hneeded
    obtain ⟨font, hfont⟩ := Option.isSome_iff_exists.1 hsome
    have hscript : (ofCode code).script ∈ scripts (usedCodes main used) := by
      refine List.mem_eraseDups.2 (List.mem_flatMap.2 ⟨code, mem_usedCodes.2 h, ?_⟩)
      dsimp only
      split <;> simp
    have hright : (rtlScripts (usedCodes main used)).contains (ofCode code).script = true := by
      refine List.contains_iff_mem.2 (List.mem_filterMap.2 ⟨code, mem_usedCodes.2 h, ?_⟩)
      simp [hrtl]
    refine definesFont_script hscript ?_
    rw [fontCommands_scriptLines _ hfont, hright]
    exact List.mem_cons_of_mem _ (List.mem_singleton_self _)
  · cases hc

/-! ### The order of the codes -/

/-- The lines say the same: they are equal, or declare the same languages in any order. -/
def SameLine (line line' : String) : Prop :=
  line = line' ∨ ∃ names names', (∀ name, name ∈ names ↔ name ∈ names') ∧ line = otherLine names ∧ line' = otherLine names'

/-- The script of a language by its name. -/
def scriptOf (name : String) : String := ((writings.find? (·.language == name)).map (·.script)).getD "Latin"

/-- The name of a language decides on its script. -/
theorem script_ofCode (code : String) : (ofCode code).script = scriptOf (ofCode code).name := by
  unfold ofCode
  split
  · rename_i e _
    unfold ofEntry scriptOf
    cases writings.find? (·.language == e.language) <;> rfl
  · decide

theorem mem_otherNames {main name : String} {used : List String} :
    name ∈ otherNames main (usedCodes main used) ↔ ∃ code ∈ used, code ≠ main ∧ (ofCode code).name = name := by
  rw [otherNames, List.mem_eraseDups, List.mem_map]
  constructor
  · rintro ⟨code, hcode, rfl⟩
    obtain ⟨hcode, hne⟩ := List.mem_filter.1 hcode
    have hne : code ≠ main := by simpa using hne
    exact ⟨code, (List.mem_cons.1 (mem_usedCodes.1 hcode)).resolve_left hne, hne, rfl⟩
  · rintro ⟨code, hcode, hne, rfl⟩
    refine ⟨code, List.mem_filter.2 ⟨mem_usedCodes.2 (List.mem_cons_of_mem _ hcode), ?_⟩, rfl⟩
    simpa using hne

theorem otherLines_eq (main : String) (codes : List String) :
    otherLines main codes = if otherNames main codes = [] then [] else [otherLine (otherNames main codes)] := by
  unfold otherLines
  split
  · rename_i hnil
    rw [if_pos hnil]
  · rename_i names hne
    rw [if_neg hne]
    rfl

section Order

variable {main : String} {used used' : List String} (h : ∀ code, code ∈ used ↔ code ∈ used')
include h

theorem usedCodes_iff (code : String) : code ∈ usedCodes main used ↔ code ∈ usedCodes main used' := by
  rw [mem_usedCodes, mem_usedCodes, List.mem_cons, List.mem_cons, h]

theorem otherLines_sameLine {line : String} (hline : line ∈ otherLines main (usedCodes main used)) :
    ∃ line' ∈ otherLines main (usedCodes main used'), SameLine line line' := by
  have hnames : ∀ name, name ∈ otherNames main (usedCodes main used) ↔ name ∈ otherNames main (usedCodes main used') := by
    intro name
    simp only [mem_otherNames, h]
  rw [otherLines_eq] at hline ⊢
  split at hline
  · cases hline
  · rename_i hne
    obtain rfl := List.mem_singleton.1 hline
    have hne' : otherNames main (usedCodes main used') ≠ [] := by
      intro hnil
      exact hne (List.eq_nil_iff_forall_not_mem.2 fun name hname => by simpa [hnil] using (hnames name).1 hname)
    rw [if_neg hne']
    exact ⟨_, List.mem_singleton_self _, .inr ⟨_, _, hnames, rfl, rfl⟩⟩

theorem languageLines_subset : languageLines (usedCodes main used) ⊆ languageLines (usedCodes main used') := by
  intro line hline
  obtain ⟨l, hl, hline⟩ := List.mem_flatMap.1 hline
  obtain ⟨code, hcode, rfl⟩ := mem_distinctLanguages hl
  obtain ⟨l', hl', hname⟩ := exists_mem_distinctLanguages ((usedCodes_iff h code).1 hcode)
  obtain ⟨code', -, rfl⟩ := mem_distinctLanguages hl'
  -- Of the two languages with one name only the script goes into the lines, and that is the same.
  have hscript : (ofCode code').script = (ofCode code).script := by rw [script_ofCode, script_ofCode, hname]
  refine List.mem_flatMap.2 ⟨_, hl', ?_⟩
  simp only [hname, languageFontLines, hscript]
  exact hline

theorem scripts_iff (script : String) :
    script ∈ scripts (usedCodes main used) ↔ script ∈ scripts (usedCodes main used') := by
  simp only [scripts, List.mem_eraseDups, List.mem_flatMap, usedCodes_iff h]

theorem rtlScripts_contains (script : String) :
    (rtlScripts (usedCodes main used)).contains script = (rtlScripts (usedCodes main used')).contains script := by
  rw [Bool.eq_iff_iff, List.contains_iff_mem, List.contains_iff_mem]
  simp only [rtlScripts, List.mem_filterMap, usedCodes_iff h]

/-- The order of the codes, and how often each is given, does not matter. -/
theorem setupLines_sameLine :
    ∀ line ∈ setupLines main used, ∃ line' ∈ setupLines main used', SameLine line line' := by
  have hscripts : ((scripts (usedCodes main used)).flatMap fun script =>
      scriptLines ((rtlScripts (usedCodes main used)).contains script) script) ⊆
      (scripts (usedCodes main used')).flatMap fun script =>
        scriptLines ((rtlScripts (usedCodes main used')).contains script) script := by
    intro line hline
    obtain ⟨script, hscript, hline⟩ := List.mem_flatMap.1 hline
    rw [rtlScripts_contains h] at hline
    exact List.mem_flatMap.2 ⟨script, (scripts_iff h script).1 hscript, hline⟩
  intro line hline
  simp only [setupLines, List.mem_append, List.mem_cons] at hline ⊢
  rcases hline with ((((hline | hline) | hline) | hline) | hline) | hline
  · exact ⟨line, .inl (.inl (.inl (.inl (.inl hline)))), .inl rfl⟩
  · obtain ⟨line', hline', hsame⟩ := otherLines_sameLine h hline
    exact ⟨line', .inl (.inl (.inl (.inl (.inr hline')))), hsame⟩
  · exact ⟨line, .inl (.inl (.inl (.inr hline))), .inl rfl⟩
  · exact ⟨line, .inl (.inl (.inr (languageLines_subset h hline))), .inl rfl⟩
  · exact ⟨line, .inl (.inr (hscripts hline)), .inl rfl⟩
  · exact ⟨line, .inr hline, .inl rfl⟩

end Order

end WikiTypeset.Language.Setup
