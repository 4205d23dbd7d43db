import WikiTypeset.Proofs.Formula.Fuel
import WikiTypeset.Proofs.Formula.Lexemes

/-!
# Structures of standard forms

What is read of a formula is read node by node, so what the rules say of nodes holds of all that is inside a structure: a
command that is an argument has no arguments of its own, and no command has more arguments than its signature. A formula
whose commands keep their arguments has a standard form with the same structure, but for the commands of the dialect,
which become the commands of their spellings with the arguments that the spellings have. Main statements: `read_isRead`
and `Reads.standard`, by induction on the rules.
-/

namespace WikiTypeset.Formula

open Latex Text

/-! ### Parts of structures -/

mutual

/-- A node with all that is inside it. -/
def Node.parts : Node → List Node
  | .text s => [.text s]
  | .command name args => .command name args :: partsOf args
  | .group bracket body => .group bracket body :: partsOf body
  | .math display body => .math display body :: partsOf body
  | .environment name args body => .environment name args body :: (partsOf args ++ partsOf body)
  | .verbatim s => [.verbatim s]
  | .absent => [.absent]

/-- The nodes of a row with all that is inside them. -/
def partsOf : List Node → List Node
  | [] => []
  | n :: ns => n.parts ++ partsOf ns

end

/-- The arguments of a command or of an environment. -/
def Node.arguments : Node → List Node
  | .command _ args | .environment _ args _ => args
  | _ => []

/-- Whether a node is no command with arguments. -/
def Node.isBare : Node → Bool
  | .command _ args => args.isEmpty
  | _ => true

theorem forall_partsOf_cons {p : Node → Prop} {node : Node} {nodes : List Node} :
    (∀ n ∈ partsOf (node :: nodes), p n) ↔ (∀ n ∈ node.parts, p n) ∧ ∀ n ∈ partsOf nodes, p n := by
  rw [partsOf]
  exact List.forall_mem_append

theorem forall_partsOf_singleton {p : Node → Prop} {node : Node} :
    (∀ n ∈ partsOf [node], p n) ↔ ∀ n ∈ node.parts, p n := by
  simp [partsOf]

theorem mem_parts_self (n : Node) : n ∈ n.parts := by
  cases n <;> simp [Node.parts]

theorem partsOf_append (nodes more : List Node) : partsOf (nodes ++ more) = partsOf nodes ++ partsOf more := by
  induction nodes with
  | nil => rfl
  | cons n nodes ih => rw [List.cons_append, partsOf, partsOf, ih, List.append_assoc]

/-- A node as it can be read: its arguments have none of their own, and a command has no more than its signature. -/
structure Node.IsRead (n : Node) : Prop where
  bare : ∀ a ∈ n.arguments, a.isBare = true
  few : ∀ name args, n = .command name args → name ≠ "verb".toList →
    args.length ≤ (commandSignature (String.ofList name)).args.length

/-- Arguments are as many as are due, and have none of their own. -/
def Due.Fits : Due → List Node → Prop
  | .args signature _, nodes => nodes.length = signature.args.length ∧ ∀ a ∈ nodes, a.isBare = true
  | .arg _ _ _, nodes => ∀ a ∈ nodes, a.isBare = true
  | .row _ _, _ | .node _, _ => True

theorem Node.IsRead.of_no_arguments {n : Node} (h : n.arguments = []) : n.IsRead := by
  refine ⟨by simp [h], fun name args hn _ => ?_⟩
  subst hn
  rw [show args = [] from h]
  exact Nat.zero_le _

theorem Reads.isBare_of_whole {t : Scanned} {node : Node} {rest : List Char} (h : Reads (.node t) [node] rest)
    (hwhole : t.lexeme.isWhole = true) : node.isBare = true := by
  cases h with
  | text | group | math | verbatim | environment => rfl
  | verb | command => cases hwhole

theorem Reads.isRead {due : Due} {nodes : List Node} {rest : List Char} (h : Reads due nodes rest) :
    (∀ n ∈ partsOf nodes, n.IsRead) ∧ due.Fits nodes := by
  have hleaf : ∀ n : Node, n.parts = [n] → n.arguments = [] → ∀ n' ∈ partsOf [n], n'.IsRead := by
    intro n hparts hnone
    rw [forall_partsOf_singleton, hparts]
    exact List.forall_mem_singleton.2 (.of_no_arguments hnone)
  induction h with
  | atEnd | atStop => exact ⟨nofun, trivial⟩
  | noArgs hkinds => exact ⟨nofun, by rw [hkinds]; rfl, nofun⟩
  | text => exact ⟨hleaf _ rfl rfl, trivial⟩
  | star | noStar | barred | noOptional | closed | bare =>
    exact ⟨hleaf _ rfl rfl, List.forall_mem_singleton.2 rfl⟩
  | more _ _ _ _ ihnode ihothers =>
    exact ⟨forall_partsOf_cons.2 ⟨forall_partsOf_singleton.1 ihnode.1, ihothers.1⟩, trivial⟩
  | group _ ih | math _ ih =>
    exact ⟨forall_partsOf_singleton.2 (List.forall_mem_cons.2 ⟨.of_no_arguments rfl, ih.1⟩), trivial⟩
  | verbatim _ _ ih =>
    refine ⟨forall_partsOf_singleton.2 (List.forall_mem_cons.2 ⟨⟨?_, nofun⟩, List.forall_mem_append.2 ⟨?_, ih.1⟩⟩), trivial⟩
    · exact List.forall_mem_singleton.2 rfl
    · exact hleaf (.verbatim _) rfl rfl
  | environment _ _ _ ihargs ihbody =>
    refine ⟨forall_partsOf_singleton.2 (List.forall_mem_cons.2 ⟨⟨ihargs.2.2, nofun⟩, ?_⟩), trivial⟩
    exact List.forall_mem_append.2 ⟨ihargs.1, ihbody.1⟩
  | verb =>
    refine ⟨forall_partsOf_singleton.2 (List.forall_mem_cons.2 ⟨⟨?_, ?_⟩, hleaf (.verbatim _) rfl rfl⟩), trivial⟩
    · exact List.forall_mem_singleton.2 rfl
    · intro name args hname hverb
      cases hname
      exact absurd rfl hverb
  | command _ _ ih =>
    obtain ⟨hparts, hlength, hbare⟩ := ih
    refine ⟨forall_partsOf_singleton.2 (List.forall_mem_cons.2 ⟨⟨hbare, ?_⟩, hparts⟩), trivial⟩
    intro name args hname _
    cases hname
    exact Nat.le_of_eq hlength
  | moreArgs hkinds _ _ iharg ihargs =>
    obtain ⟨hparts, hlength, hbare⟩ := ihargs
    refine ⟨forall_partsOf_cons.2 ⟨forall_partsOf_singleton.1 iharg.1, hparts⟩, ?_, ?_⟩
    · rw [hkinds, List.length_cons, List.length_cons, hlength]
    · exact List.forall_mem_cons.2 ⟨iharg.2 _ (List.mem_singleton_self _), hbare⟩
  | optional _ _ hsquare hnode ih =>
    refine ⟨ih.1, List.forall_mem_singleton.2 (hnode.isBare_of_whole ?_)⟩
    rw [hsquare]
    rfl
  | mandatory _ hwhole hnode ih => exact ⟨ih.1, List.forall_mem_singleton.2 (hnode.isBare_of_whole hwhole)⟩

/-- In the structure of a formula, a command that is an argument has no arguments of its own, and no command has more
arguments than its signature. -/
theorem read_isRead {s : List Char} {nodes : List Node} (h : read s = .ok nodes) : ∀ n ∈ partsOf nodes, n.IsRead := by
  obtain ⟨rest, hreads⟩ := read_eq_ok_iff.1 h
  exact hreads.isRead.1

/-! ### Standard forms of nodes -/

/-- The argument of a spelling as it is read, a letter in braces. -/
def argumentNodes : List Char → List Node
  | ['\x7b', c, '\x7d'] => [.group .brace [.text [c]]]
  | _ => []

mutual

/-- A node with the spellings in place of the commands of the dialect, each with the argument that the spelling has. -/
def Node.standard : Node → Node
  | .text s => .text s
  | .command name args =>
    match standardSpelling? (String.ofList name) with
    | some spelling => .command (spellingCommand spelling) (argumentNodes (spellingArgument spelling) ++ standardAll args)
    | none => .command name (standardAll args)
  | .group bracket body => .group bracket (standardAll body)
  | .math display body => .math display (standardAll body)
  | .environment name args body => .environment name (standardAll args) (standardAll body)
  | .verbatim s => .verbatim s
  | .absent => .absent

def standardAll : List Node → List Node
  | [] => []
  | n :: ns => n.standard :: standardAll ns

end

/-- Whether a node is a command of the dialect whose spelling has an argument. -/
def Node.spellsArgument : Node → Bool
  | .command name _ => (standardSpelling? (String.ofList name)).any fun spelling => !(spellingArgument spelling).isEmpty
  | _ => false

/-- Whether a node is a command of the dialect. -/
def Node.isDialect : Node → Bool
  | .command name _ => (standardSpelling? (String.ofList name)).isSome
  | _ => false

/-- Whether a node is text that is not read as lexemes. -/
def Node.isVerbatim : Node → Bool
  | .verbatim _ => true
  | _ => false

/-- No argument is a command whose spelling has an argument, and a command of the dialect has no arguments. -/
def Node.KeepsArguments (n : Node) : Prop :=
  (∀ a ∈ n.arguments, a.spellsArgument = false) ∧ (n.isDialect = true → n.arguments = [])

instance (n : Node) : Decidable n.KeepsArguments :=
  have : Decidable (n.arguments = []) := decidable_of_iff _ List.isEmpty_iff
  inferInstanceAs (Decidable ((∀ a ∈ n.arguments, a.spellsArgument = false) ∧ (n.isDialect = true → n.arguments = [])))

/-! ### Lexemes restated -/

theorem next_standardize {mode : ScanMode} {s : List Char} (happart : Apart s) :
    (next mode s = .ok none → next mode (standardize s) = .ok none) ∧
      ∀ t, next mode s = .ok (some t) → ∃ t', next mode (standardize s) = .ok (some t') ∧ Restates t t' := by
  simpa only [next_ok] using scan_standardize happart

theorem Restates.of_not_command {t t' : Scanned} (h : Restates t t') (hlexeme : ∀ name, t.lexeme ≠ .command name) :
    t' = ⟨t.lexeme, standardize t.start, standardize t.rest⟩ ∧ Apart t.start ∧ Apart t.rest := by
  cases h with
  | kept _ hstart hrest => exact ⟨rfl, hstart, hrest⟩
  | respelled => exact absurd rfl (hlexeme _)

theorem Restates.lexeme_iff {t t' : Scanned} (h : Restates t t') (lexeme : Lexeme)
    (hlexeme : ∀ name, lexeme ≠ .command name) : t'.lexeme = lexeme ↔ t.lexeme = lexeme := by
  cases h with
  | kept => rfl
  | respelled => exact ⟨fun h => absurd h.symm (hlexeme _), fun h => absurd h.symm (hlexeme _)⟩

theorem Restates.isWhole {t t' : Scanned} (h : Restates t t') : t'.lexeme.isWhole = t.lexeme.isWhole := by
  cases h <;> rfl

theorem Restates.stop? {t t' : Scanned} (h : Restates t t') : t'.lexeme.stop? = t.lexeme.stop? := by
  cases h <;> rfl

theorem ne_end {name : List Char} (h : name ∉ structuralNames) : name ≠ "end".toList := by
  rintro rfl
  exact h (by decide)

theorem bareName?_command {name : List Char} (h : name ≠ "end".toList) : (Lexeme.command name).bareName? = some name :=
  if_neg h

theorem bareName?_kept {lexeme : Lexeme} {name : List Char} (h : lexeme.bareName? = some name)
    (hkept : ∀ name, lexeme = .command name → standardSpelling? (String.ofList name) = none) :
    standardSpelling? (String.ofList name) = none := by
  cases lexeme with
  | command name' =>
    simp only [Lexeme.bareName?] at h
    split at h
    · cases h
    · cases h
      exact hkept name rfl
  | mathStart display | mathEnd display =>
    cases h
    cases display <;> decide
  | char | paragraph | ligature | opening | closing | envStart | envEnd => cases h

theorem standardAll_kept {name : List Char} (h : standardSpelling? (String.ofList name) = none) (args : List Node) :
    standardAll [.command name args] = [.command name (standardAll args)] := by
  simp only [standardAll, Node.standard, h]

theorem standardAll_respelled {name : List Char} {spelling : String}
    (h : standardSpelling? (String.ofList name) = some spelling) : standardAll [.command name []] =
      [.command (spellingCommand spelling) (argumentNodes (spellingArgument spelling))] := by
  simp only [standardAll, Node.standard, h, List.append_nil]

/-- A letter is a lexeme of its own. -/
theorem next_letter {c : Char} (hc : isAsciiLetter c = true) (mode : ScanMode) (s : List Char) :
    next mode (c :: s) = .ok (some ⟨.char c, c :: s, s⟩) := by
  have hligature : ∀ l ∈ ligatures, ∃ d l', l = d :: l' ∧ isAsciiLetter d = false := by
    have htable : ∀ l ∈ ligatures, l.head?.any fun d => !isAsciiLetter d := by decide
    intro l hl
    have hhead := htable l hl
    cases l with
    | nil => cases hhead
    | cons d l => exact ⟨d, l, rfl, by simpa using hhead⟩
  have hfind : (ligatures.find? fun l => l.isPrefixOf (c :: s)) = none := by
    refine List.find?_eq_none.2 fun l hl hprefix => ?_
    obtain ⟨d, l, rfl, hd⟩ := hligature l hl
    have hsame : d = c := by
      rw [List.isPrefixOf_cons_cons, Bool.and_eq_true, beq_iff_eq] at hprefix
      exact hprefix.1
    rw [hsame, hc] at hd
    cases hd
  refine next_ok.2 ?_
  unfold scan
  rw [skipBlanks_cons (isBlank_letter hc)]
  dsimp only
  rw [hfind]
  split
  · cases hc
  · cases hc
  · cases hc
  · have hopening : c ≠ '[' := by
      rintro rfl
      cases hc
    have hclosing : c ≠ ']' := by
      rintro rfl
      cases hc
    rw [beq_false_of_ne hopening, beq_false_of_ne hclosing, Bool.and_false, if_neg Bool.false_ne_true,
      if_neg Bool.false_ne_true]

theorem spelling_signature {name : List Char} {spelling : String}
    (h : standardSpelling? (String.ofList name) = some spelling) :
    (commandSignature (String.ofList (spellingCommand spelling))).args =
      if (spellingArgument spelling).isEmpty then [] else [.mandatory] := by
  have htable : ∀ e ∈ dialectCommands, (commandSignature (String.ofList (spellingCommand e.2))).args =
      if (spellingArgument e.2).isEmpty then [] else [.mandatory] := by
    decide +kernel
  obtain ⟨e, hfind, rfl⟩ := Option.map_eq_some_iff.1 h
  exact htable e (List.mem_of_find?_eq_some hfind)

theorem next_nil (mode : ScanMode) : next mode [] = .ok none := rfl

theorem next_opening (mode : ScanMode) (s : List Char) :
    next mode ('\x7b' :: s) = .ok (some ⟨.opening .brace, '\x7b' :: s, s⟩) := by
  refine next_ok.2 ?_
  unfold scan
  rw [skipBlanks_cons (by decide)]
  rfl

theorem next_closing (mode : ScanMode) (s : List Char) :
    next mode ('\x7d' :: s) = .ok (some ⟨.closing .brace, '\x7d' :: s, s⟩) := by
  refine next_ok.2 ?_
  unfold scan
  rw [skipBlanks_cons (by decide)]
  rfl

theorem length_argumentNodes {name : List Char} {spelling : String}
    (h : standardSpelling? (String.ofList name) = some spelling) :
    (argumentNodes (spellingArgument spelling)).length =
      (commandSignature (String.ofList (spellingCommand spelling))).args.length := by
  obtain ⟨-, -, hargument, -⟩ := spelling_of_dialect h
  rw [spelling_signature h]
  rcases hargument with hnil | ⟨c, -, -, hgroup⟩
  · rw [hnil]
    rfl
  · rw [hgroup]
    rfl

theorem spellingCommand_ne_verb {name : List Char} {spelling : String}
    (h : standardSpelling? (String.ofList name) = some spelling) : spellingCommand spelling ≠ "verb".toList := by
  obtain ⟨-, -, -, -, hstructural⟩ := spelling_of_dialect h
  rintro hverb
  rw [hverb] at hstructural
  exact hstructural (by decide)

/-- The command of a spelling is read with the argument of the spelling, and what follows it is left. -/
theorem exists_reads_spelling {name : List Char} {spelling : String}
    (h : standardSpelling? (String.ofList name) = some spelling) (start s : List Char) :
    ∃ rest, Reads (.node ⟨.command (spellingCommand spelling), start, skipSpace (spellingArgument spelling ++ s)⟩)
        [.command (spellingCommand spelling) (argumentNodes (spellingArgument spelling))] rest ∧
      skipBlanks false rest = skipBlanks false s := by
  obtain ⟨-, -, hargument, -⟩ := spelling_of_dialect h
  have hsignature := spelling_signature h
  have hverb := spellingCommand_ne_verb h
  rcases hargument with hnil | ⟨c, -, hc, hgroup⟩
  · rw [hnil] at hsignature ⊢
    exact ⟨skipSpace s, .command hverb (.noArgs hsignature), skipBlanks_skipSpace s⟩
  · rw [hgroup] at hsignature ⊢
    have hletter : Reads (.row (.closing .brace) (c :: '\x7d' :: s)) [.text [c]] s :=
      .more (next_letter hc _ _) rfl (.text rfl) (.atStop (next_closing _ s) rfl)
    have harg : ∀ tight, Reads (.arg tight .mandatory ('\x7b' :: c :: '\x7d' :: s)) [.group .brace [.text [c]]] s :=
      fun _ => .mandatory (next_opening _ _) rfl (.group hletter)
    exact ⟨s, .command hverb (.moreArgs hsignature (harg _) (.noArgs rfl)), rfl⟩

/-! ### Structures of standard forms -/

/-- A row is read of an input by its lexemes, whatever blanks stand before them. -/
theorem Reads.row_congr {stop : Stop} {s s' : List Char} {nodes : List Node} {rest : List Char}
    (h : Reads (.row stop s) nodes rest) (hblanks : skipBlanks false s = skipBlanks false s') :
    Reads (.row stop s') nodes rest := by
  have hscan : next stop.mode s = next stop.mode s' := by rw [next, next, scan_congr hblanks]
  cases h with
  | atEnd hnext => exact .atEnd (hscan ▸ hnext)
  | atStop hnext hends => exact .atStop (hscan ▸ hnext) hends
  | more hnext hends hnode hothers => exact .more (hscan ▸ hnext) hends hnode hothers

/-- No node is verbatim text, and all keep their arguments. -/
def KeepsAll (nodes : List Node) : Prop := ∀ n ∈ partsOf nodes, n.isVerbatim = false ∧ n.KeepsArguments

/-- What is due is read of the standard form as its standard form. -/
def Due.ReadsStandard : Due → List Node → List Char → Prop
  | .row stop s, nodes, rest => Apart s → Reads (.row stop (standardize s)) (standardAll nodes) (standardize rest) ∧ Apart rest
  | .node t, nodes, rest => ∀ t', Restates t t' → ∃ rest', Reads (.node t') (standardAll nodes) rest' ∧ Apart rest ∧
      skipBlanks false rest' = skipBlanks false (standardize rest) ∧ (t.lexeme.isWhole = true → rest' = standardize rest)
  | .args signature s, nodes, rest => Apart s → (∀ a ∈ nodes, a.spellsArgument = false) →
      Reads (.args signature (standardize s)) (standardAll nodes) (standardize rest) ∧ Apart rest
  | .arg tight kind s, nodes, rest => Apart s → (∀ a ∈ nodes, a.spellsArgument = false) →
      Reads (.arg tight kind (standardize s)) (standardAll nodes) (standardize rest) ∧ Apart rest

theorem Reads.standard {due : Due} {nodes : List Node} {rest : List Char} (h : Reads due nodes rest)
    (hkeeps : KeepsAll nodes) : due.ReadsStandard nodes rest := by
  induction h with
  | atEnd hnext =>
    intro happart
    have hnext' := (next_standardize happart).1 hnext
    rw [standardize_nil]
    exact ⟨.atEnd hnext', by decide⟩
  | atStop hnext hends =>
    intro happart
    obtain ⟨t', hnext', hrestates⟩ := (next_standardize happart).2 _ hnext
    have hends' := hrestates.stop?.trans hends
    obtain ⟨rfl, -, hrest⟩ := hrestates.of_not_command fun name hname => by rw [hname] at hends; cases hends
    exact ⟨.atStop hnext' hends', hrest⟩
  | more hnext hends hnode hothers ihnode ihothers =>
    intro happart
    obtain ⟨hfirst, hrest⟩ := forall_partsOf_cons.1 hkeeps
    obtain ⟨t', hnext', hrestates⟩ := (next_standardize happart).2 _ hnext
    obtain ⟨mid', hnode', hmid, hblanks, -⟩ := ihnode (forall_partsOf_singleton.2 hfirst) t' hrestates
    obtain ⟨hothers', hrest⟩ := ihothers hrest hmid
    have hends' := hrestates.stop?.trans hends
    -- Behind an argument in braces there may be blanks that the command word has swallowed in the formula.
    exact ⟨.more hnext' hends' hnode' (hothers'.row_congr hblanks.symm), hrest⟩
  | text htext =>
    intro t' hrestates
    obtain ⟨rfl, -, hrest⟩ := hrestates.of_not_command fun name hname => by rw [hname] at htext; cases htext
    exact ⟨_, .text htext, hrest, rfl, fun _ => rfl⟩
  | group _ ih =>
    intro t' hrestates
    obtain ⟨rfl, -, hs⟩ := hrestates.of_not_command (by simp)
    obtain ⟨-, hbody⟩ := List.forall_mem_cons.1 (forall_partsOf_singleton.1 hkeeps)
    obtain ⟨hbody', hrest⟩ := ih hbody hs
    exact ⟨_, .group hbody', hrest, rfl, fun _ => rfl⟩
  | math _ ih =>
    intro t' hrestates
    obtain ⟨rfl, -, hs⟩ := hrestates.of_not_command (by simp)
    obtain ⟨-, hbody⟩ := List.forall_mem_cons.1 (forall_partsOf_singleton.1 hkeeps)
    obtain ⟨hbody', hrest⟩ := ih hbody hs
    exact ⟨_, .math hbody', hrest, rfl, fun _ => rfl⟩
  | @verbatim _ _ content _ _ _ _ _ ih =>
    have hverbatim := (hkeeps (.verbatim content) (by simp [partsOf, Node.parts])).1
    cases hverbatim
  | environment hname _ _ ihargs ihbody =>
    intro t' hrestates
    obtain ⟨rfl, -, hs⟩ := hrestates.of_not_command (by simp)
    obtain ⟨hself, hparts⟩ := List.forall_mem_cons.1 (forall_partsOf_singleton.1 hkeeps)
    obtain ⟨hargs, hbody⟩ := List.forall_mem_append.1 hparts
    obtain ⟨hargs', hmid⟩ := ihargs hargs hs hself.2.1
    obtain ⟨hbody', hrest⟩ := ihbody hbody hmid
    exact ⟨_, .environment hname hargs' hbody', hrest, rfl, fun _ => rfl⟩
  | @verb _ _ content =>
    have hverbatim := (hkeeps (.verbatim content) (by simp [partsOf, Node.parts])).1
    cases hverbatim
  | @command name start s rest args hname hargs ih =>
    intro t' hrestates
    obtain ⟨hself, hparts⟩ := List.forall_mem_cons.1 (forall_partsOf_singleton.1 hkeeps)
    cases hrestates with
    | kept hkept _ hs =>
      obtain ⟨hargs', hrest⟩ := ih hparts hs hself.2.1
      rw [standardAll_kept (hkept name rfl)]
      exact ⟨_, .command hname hargs', hrest, rfl, fun hwhole => by cases hwhole⟩
    | @respelled _ _ after spelling hspelling hafter =>
      -- The command has no arguments, so all that is read behind its spelling is the argument of the spelling.
      have hnil : args = [] := hself.2.2 (by simp [Node.isDialect, hspelling])
      subst hnil
      cases hargs
      obtain ⟨rest', hnode', hblanks⟩ := exists_reads_spelling hspelling (standardize start) (standardize after)
      rw [standardAll_respelled hspelling]
      refine ⟨rest', hnode', hafter.skipSpace, ?_, fun hwhole => by cases hwhole⟩
      rw [← skipSpace_standardize, skipBlanks_skipSpace]
      exact hblanks
  | noArgs hkinds => exact fun happart _ => ⟨.noArgs hkinds, happart⟩
  | moreArgs hkinds harg hargs iharg ihargs =>
    intro happart hbare
    obtain ⟨hfirst, hrest⟩ := forall_partsOf_cons.1 hkeeps
    obtain ⟨hbare, hbare'⟩ := List.forall_mem_cons.1 hbare
    obtain ⟨harg', hmid⟩ := iharg (forall_partsOf_singleton.2 hfirst) happart (List.forall_mem_singleton.2 hbare)
    obtain ⟨hargs', hrest⟩ := ihargs hrest hmid hbare'
    exact ⟨.moreArgs hkinds harg' hargs', hrest⟩
  | star hnext hstar =>
    intro happart _
    obtain ⟨t', hnext', hrestates⟩ := (next_standardize happart).2 _ hnext
    obtain ⟨rfl, -, hrest⟩ := hrestates.of_not_command fun name hname => by rw [hname] at hstar; cases hstar
    exact ⟨.star hnext' hstar, hrest⟩
  | noStar hnext hstar =>
    intro happart _
    obtain ⟨t', hnext', hrestates⟩ := (next_standardize happart).2 _ hnext
    exact ⟨.noStar hnext' (mt (hrestates.lexeme_iff (.char '*') (by simp)).1 hstar), happart⟩
  | @optional tight s _ _ _ htight hnext hsquare hnode ih =>
    intro happart _
    obtain ⟨t', hnext', hrestates⟩ := (next_standardize happart).2 _ hnext
    obtain ⟨rest', hnode', hrest, -, hwhole⟩ := ih hkeeps t' hrestates
    have htight' : barsOptional tight (standardize s) = false := by rwa [barsOptional, head?_standardize]
    rw [← hwhole (by rw [hsquare]; rfl)]
    exact ⟨.optional htight' hnext' ((hrestates.lexeme_iff (.opening .square) (by simp)).2 hsquare) hnode', hrest⟩
  | @barred tight s htight =>
    intro happart _
    have htight' : barsOptional tight (standardize s) = true := by rwa [barsOptional, head?_standardize]
    exact ⟨.barred htight', happart⟩
  | @noOptional tight s t? hnext hsquare =>
    intro happart _
    cases t? with
    | none => exact ⟨.noOptional ((next_standardize happart).1 hnext) (by simp), happart⟩
    | some t =>
      obtain ⟨t', hnext', hrestates⟩ := (next_standardize happart).2 _ hnext
      refine ⟨.noOptional hnext' fun t'' ht'' => ?_, happart⟩
      cases ht''
      exact mt (hrestates.lexeme_iff (.opening .square) (by simp)).1 (hsquare t rfl)
  | mandatory hnext hwhole hnode ih =>
    intro happart _
    obtain ⟨t', hnext', hrestates⟩ := (next_standardize happart).2 _ hnext
    obtain ⟨rest', hnode', hrest, -, hrest'⟩ := ih hkeeps t' hrestates
    rw [← hrest' hwhole]
    exact ⟨.mandatory hnext' (hrestates.isWhole.trans hwhole) hnode', hrest⟩
  | closed hnext hclosing =>
    intro happart _
    obtain ⟨t', hnext', hrestates⟩ := (next_standardize happart).2 _ hnext
    obtain ⟨rfl, hstart, -⟩ := hrestates.of_not_command fun name hname => by rw [hname] at hclosing; cases hclosing
    exact ⟨.closed hnext' hclosing, hstart⟩
  | bare hnext hname =>
    intro happart hbare
    obtain ⟨t', hnext', hrestates⟩ := (next_standardize happart).2 _ hnext
    cases hrestates with
    | kept hkept _ hrest =>
      rw [standardAll_kept (bareName?_kept hname hkept)]
      exact ⟨.bare hnext' hname, hrest⟩
    | @respelled _ _ after spelling hspelling hafter =>
      obtain ⟨-, -, -, hname', hcommand⟩ := spelling_of_dialect hspelling
      rw [bareName?_command (ne_end hname')] at hname
      cases hname
      -- With an argument in the spelling the command alone would be the whole argument here.
      have hargument : spellingArgument spelling = [] := by
        have hspells := List.forall_mem_singleton.1 hbare
        simpa [Node.spellsArgument, hspelling] using hspells
      rw [hargument, List.nil_append, skipSpace_standardize] at hnext'
      rw [standardAll_respelled hspelling, hargument]
      exact ⟨.bare hnext' (bareName?_command (ne_end hcommand)), hafter.skipSpace⟩

end WikiTypeset.Formula
