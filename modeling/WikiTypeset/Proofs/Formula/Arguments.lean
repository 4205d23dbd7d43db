import WikiTypeset.Proofs.Formula.Standard

/-!
# Arguments of commands

A command of the dialect that is a whole argument is read back as that argument if its spelling is a single command. If
the spelling has an argument of its own, the command of the spelling alone becomes the argument, and what the spelling has
in braces is left behind it. Main statement: `check_keepsArguments_iff`.
-/

namespace WikiTypeset.Formula

open Latex Text

theorem mem_standardAll {a : Node} {nodes : List Node} (h : a ∈ nodes) : a.standard ∈ standardAll nodes := by
  induction nodes with
  | nil => cases h
  | cons n nodes ih =>
    rw [standardAll]
    rcases List.mem_cons.1 h with rfl | h
    · exact List.mem_cons_self
    · exact List.mem_cons_of_mem _ (ih h)

theorem length_standardAll (nodes : List Node) : (standardAll nodes).length = nodes.length := by
  induction nodes with
  | nil => rfl
  | cons n nodes ih => rw [standardAll, List.length_cons, List.length_cons, ih]

theorem Node.standard_mem_arguments {n a : Node} (h : a ∈ n.arguments) : a.standard ∈ n.standard.arguments := by
  cases n with
  | command name args =>
    have hmem := mem_standardAll h
    rw [Node.standard]
    split
    · exact List.mem_append_right _ hmem
    · exact hmem
  | environment name args body => exact mem_standardAll h
  | text | group | math | verbatim | absent => cases h

mutual

theorem standard_mem_parts : (node : Node) → ∀ n ∈ node.parts, n.standard ∈ node.standard.parts
  | .text s, n, h | .verbatim s, n, h | .absent, n, h => by
    rw [List.mem_singleton.1 h]
    exact mem_parts_self _
  | .command name args, n, h => by
    rcases List.mem_cons.1 h with rfl | h
    · exact mem_parts_self _
    · have hmem := standard_mem_partsOf args n h
      rw [Node.standard]
      split
      · refine List.mem_cons_of_mem _ ?_
        rw [partsOf_append]
        exact List.mem_append_right _ hmem
      · exact List.mem_cons_of_mem _ hmem
  | .group bracket body, n, h | .math display body, n, h => by
    rcases List.mem_cons.1 h with rfl | h
    · exact mem_parts_self _
    · exact List.mem_cons_of_mem _ (standard_mem_partsOf body n h)
  | .environment name args body, n, h => by
    rcases List.mem_cons.1 h with rfl | h
    · exact mem_parts_self _
    · refine List.mem_cons_of_mem _ ?_
      rcases List.mem_append.1 h with h | h
      · exact List.mem_append_left _ (standard_mem_partsOf args n h)
      · exact List.mem_append_right _ (standard_mem_partsOf body n h)

/-- What is inside a row is inside its standard form, in standard form. -/
theorem standard_mem_partsOf : (nodes : List Node) → ∀ n ∈ partsOf nodes, n.standard ∈ partsOf (standardAll nodes)
  | [], n, h => by cases h
  | node :: nodes, n, h => by
    rcases List.mem_append.1 h with h | h
    · exact List.mem_append_left _ (standard_mem_parts node n h)
    · exact List.mem_append_right _ (standard_mem_partsOf nodes n h)

end

/-- A command whose spelling has an argument is not read as the whole of an argument again. -/
theorem not_isBare_standard {a : Node} (h : a.spellsArgument = true) : a.standard.isBare = false := by
  cases a with
  | command name args =>
    obtain ⟨spelling, hspelling, hne⟩ := (Option.any_eq_true _ _).1 h
    obtain ⟨-, -, hargument, -⟩ := spelling_of_dialect hspelling
    rcases hargument with hnil | ⟨c, -, -, hgroup⟩
    · rw [hnil] at hne
      cases hne
    · simp only [Node.standard, hspelling, hgroup]
      rfl
  | text | group | math | environment | verbatim | absent => cases h

/-- A node that does not keep its arguments cannot be read in its standard form. -/
theorem Node.IsRead.keepsArguments {n : Node} (h : n.standard.IsRead) : n.KeepsArguments := by
  refine ⟨fun a ha => ?_, fun hdialect => ?_⟩
  · by_contra hspells
    have hbare := h.bare _ (Node.standard_mem_arguments ha)
    rw [not_isBare_standard (by simpa using hspells)] at hbare
    cases hbare
  · cases n with
    | command name args =>
      obtain ⟨spelling, hspelling⟩ := Option.isSome_iff_exists.1 hdialect
      have hstandard : (Node.command name args).standard = .command (spellingCommand spelling)
          (argumentNodes (spellingArgument spelling) ++ standardAll args) := by
        simp only [Node.standard, hspelling]
      -- The argument of the spelling is all that the signature has room for.
      have hfew := h.few _ _ hstandard (spellingCommand_ne_verb hspelling)
      rw [List.length_append, length_argumentNodes hspelling, length_standardAll] at hfew
      have hnone : args.length = 0 := by omega
      exact List.length_eq_zero_iff.1 hnone
    | text | group | math | environment | verbatim | absent => cases hdialect

/-- What is made of an accepted formula, without its outer braces, is read as the standard form of what the formula is read
as, just if all commands keep their arguments: none is lost. -/
theorem check_keepsArguments_iff {source : List Char} {a : Accepted} (h : check source = .ok a) :
    ∃ nodes inner, read (trim source) = .ok nodes ∧ a.output = '\x7b' :: inner ++ ['\x7d'] ∧
      (∀ n ∈ partsOf nodes, ¬ n.KeepsArguments → ∀ nodes', read inner = .ok nodes' → n.standard ∉ partsOf nodes') ∧
      (Apart (trim source) → (∀ n ∈ partsOf nodes, n.isVerbatim = false) →
        (read inner = .ok (standardAll nodes) ↔ ∀ n ∈ partsOf nodes, n.KeepsArguments)) := by
  obtain ⟨-, -, nodes, hread, -, rfl⟩ := check_ok h
  have hlost : ∀ n ∈ partsOf nodes, ¬ n.KeepsArguments → ∀ nodes', read (standardize (trim source)) = .ok nodes' →
      n.standard ∉ partsOf nodes' :=
    fun n _ hkeeps nodes' hread' hmem => hkeeps (read_isRead hread' _ hmem).keepsArguments
  refine ⟨nodes, standardize (trim source), hread, rfl, hlost, fun happart hverbatim => ?_⟩
  refine ⟨fun hstandard n hn => ?_, fun hkeeps => ?_⟩
  · by_contra hnot
    exact hlost n hn hnot _ hstandard (standard_mem_partsOf nodes n hn)
  · obtain ⟨rest, hreads⟩ := read_eq_ok_iff.1 hread
    obtain ⟨hreads', -⟩ := hreads.standard (fun n hn => ⟨hverbatim n hn, hkeeps n hn⟩) happart
    exact read_eq_ok_iff.2 ⟨_, hreads'⟩

theorem read_fraction : read (trim "\\frac\\infin2 \\R".toList) =
    .ok [.command "frac".toList [.command "infin".toList [], .text ['2']], .command ['R'] []] := by
  have hfrac : next Stop.endOfInput.mode (trim "\\frac\\infin2 \\R".toList) =
      .ok (some ⟨.command "frac".toList, "\\frac\\infin2 \\R".toList, "\\infin2 \\R".toList⟩) := by decide +kernel
  have hinfin : next { environments := false } "\\infin2 \\R".toList =
      .ok (some ⟨.command "infin".toList, "\\infin2 \\R".toList, "2 \\R".toList⟩) := by decide +kernel
  have htwo : next { environments := false } "2 \\R".toList =
      .ok (some ⟨.char '2', "2 \\R".toList, " \\R".toList⟩) := by decide +kernel
  have hreals : next Stop.endOfInput.mode " \\R".toList = .ok (some ⟨.command ['R'], "\\R".toList, []⟩) := by
    decide +kernel
  have hbinary : (commandSignature (String.ofList "frac".toList)).args = [.mandatory, .mandatory] := by decide +kernel
  have hnone : (commandSignature (String.ofList ['R'])).args = [] := by decide +kernel
  have hsecond : ∀ tight, Reads (.args { args := [.mandatory], tight } "2 \\R".toList) [.text ['2']] " \\R".toList :=
    fun _ => .moreArgs rfl (.mandatory htwo rfl (.text rfl)) (.noArgs rfl)
  have hlast : Reads (.row .endOfInput " \\R".toList) [.command ['R'] []] [] :=
    .more hreals rfl (.command (by decide) (.noArgs hnone)) (.atEnd (next_nil _))
  exact read_eq_ok_iff.2 ⟨[], .more hfrac rfl (.command (by decide) (.moreArgs hbinary (.bare hinfin rfl) (hsecond _))) hlast⟩

/-- A fraction of spellings without arguments, and a spelling with one outside the fraction. -/
theorem fraction_keepsArguments : ∃ a nodes inner, check "\\frac\\infin2 \\R".toList = .ok a ∧
    read (trim "\\frac\\infin2 \\R".toList) = .ok nodes ∧ a.output = '\x7b' :: inner ++ ['\x7d'] ∧
    read inner = .ok (standardAll nodes) := by
  have hcheck : check "\\frac\\infin2 \\R".toList = .ok ⟨"\x7b\\frac\\infty2 \\mathbb\x7bR\x7d\x7d".toList, []⟩ :=
    check_of_toOption (by decide +kernel)
  obtain ⟨nodes, inner, hnodes, houtput, -, hiff⟩ := check_keepsArguments_iff hcheck
  have hread := hnodes
  rw [read_fraction] at hread
  cases hread
  have happart : Apart (trim "\\frac\\infin2 \\R".toList) := by decide +kernel
  refine ⟨_, _, inner, hcheck, hnodes, houtput, (hiff happart ?_).2 ?_⟩
  · decide +kernel
  · decide +kernel

/-- The command behind one that may have an optional argument and must have another is read as the other. -/
theorem reads_option_bare {name s name' start' rest : List Char} (hname : name ≠ "verb".toList)
    (hkinds : (commandSignature (String.ofList name)).args = [.optional, .mandatory])
    (hoption : next { environments := false, squares := true } s = .ok (some ⟨.command name', start', rest⟩))
    (hnext : next { environments := false } s = .ok (some ⟨.command name', start', rest⟩)) (hend : name' ≠ "end".toList)
    (start : List Char) : Reads (.node ⟨.command name, start, s⟩) [.command name [.absent, .command name' []]] rest := by
  have habsent : ∀ tight, Reads (.arg tight .optional s) [.absent] s := by
    refine fun _ => .noOptional hoption fun t ht => ?_
    cases ht
    exact nofun
  have hbare : ∀ tight, Reads (.args { args := [.mandatory], tight } s) [.command name' []] rest :=
    fun _ => .moreArgs rfl (.bare hnext (bareName?_command hend)) (.noArgs rfl)
  exact .command hname (.moreArgs hkinds (habsent _) (hbare _))

/-- The root of a letter that is spelled with an argument becomes the root of a command without its argument. -/
theorem sqrt_losesArgument : ∃ a nodes nodes', check "\\sqrt\\R".toList = .ok a ∧
    a.output = '\x7b' :: "\\sqrt\\mathbb\x7bR\x7d".toList ++ ['\x7d'] ∧ read (trim "\\sqrt\\R".toList) = .ok nodes ∧
    read "\\sqrt\\mathbb\x7bR\x7d".toList = .ok nodes' ∧
    nodes = [.command "sqrt".toList [.absent, .command ['R'] []]] ∧
    nodes' = [.command "sqrt".toList [.absent, .command "mathbb".toList []], .group .brace [.text ['R']]] ∧
    nodes' ≠ standardAll nodes := by
  have hoption : (commandSignature (String.ofList "sqrt".toList)).args = [.optional, .mandatory] := by decide +kernel
  refine ⟨⟨"\x7b\\sqrt\\mathbb\x7bR\x7d\x7d".toList, []⟩, _, _, check_of_toOption (by decide +kernel), rfl, ?_, ?_,
    rfl, rfl, fun h => ?_⟩
  · have hsqrt : next Stop.endOfInput.mode (trim "\\sqrt\\R".toList) =
        .ok (some ⟨.command "sqrt".toList, "\\sqrt\\R".toList, "\\R".toList⟩) := by decide +kernel
    have hreals : ∀ squares, next { environments := false, squares } "\\R".toList =
        .ok (some ⟨.command ['R'], "\\R".toList, []⟩) := by decide +kernel
    refine read_eq_ok_iff.2 ⟨[], .more hsqrt rfl ?_ (.atEnd (next_nil _))⟩
    exact reads_option_bare (by decide) hoption (hreals true) (hreals false) (by decide) _
  · have hsqrt : next Stop.endOfInput.mode "\\sqrt\\mathbb\x7bR\x7d".toList = .ok
        (some ⟨.command "sqrt".toList, "\\sqrt\\mathbb\x7bR\x7d".toList, "\\mathbb\x7bR\x7d".toList⟩) := by
      decide +kernel
    have hmathbb : ∀ squares, next { environments := false, squares } "\\mathbb\x7bR\x7d".toList =
        .ok (some ⟨.command "mathbb".toList, "\\mathbb\x7bR\x7d".toList, "\x7bR\x7d".toList⟩) := by
      decide +kernel
    have hgroup : Reads (.row .endOfInput "\x7bR\x7d".toList) [.group .brace [.text ['R']]] [] := by
      refine .more (next_opening _ _) rfl (.group ?_) (.atEnd (next_nil _))
      exact .more (next_letter (by decide) _ _) rfl (.text rfl) (.atStop (next_closing _ _) rfl)
    refine read_eq_ok_iff.2 ⟨[], .more hsqrt rfl ?_ hgroup⟩
    exact reads_option_bare (by decide) hoption (hmathbb true) (hmathbb false) (by decide) _
  · have hlength := congrArg List.length h
    rw [length_standardAll] at hlength
    cases hlength

end WikiTypeset.Formula
