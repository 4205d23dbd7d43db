import WikiTypeset.Proofs.Formula.Reader

/-!
# The structure of formulas by rules

Formulas are read with fuel. `Reads` says by rules, without fuel, what is read of an input and which input is left after
it. Main statement: `sound`, by which all that is read is read by the rules.
-/

namespace WikiTypeset.Formula

/-- What is to be read. -/
inductive Due
  | row (stop : Stop) (s : List Char)
  | node (t : Scanned)
  | args (signature : Signature) (s : List Char)
  | arg (tight : Bool) (kind : ArgKind) (s : List Char)

/-- What is read of an input, and the input after it. -/
inductive Reads : Due → List Node → List Char → Prop
  | atEnd {s : List Char} (hnext : next Stop.endOfInput.mode s = .ok none) : Reads (.row .endOfInput s) [] []
  | atStop {stop : Stop} {s : List Char} {t : Scanned} (hnext : next stop.mode s = .ok (some t))
    (hends : t.lexeme.stop? = some stop) : Reads (.row stop s) [] t.rest
  | more {stop : Stop} {s mid rest : List Char} {t : Scanned} {node : Node} {others : List Node}
    (hnext : next stop.mode s = .ok (some t)) (hends : t.lexeme.stop? = none) (hnode : Reads (.node t) [node] mid)
    (hothers : Reads (.row stop mid) others rest) : Reads (.row stop s) (node :: others) rest
  | text {t : Scanned} {text : List Char} (htext : t.lexeme.text? = some text) : Reads (.node t) [.text text] t.rest
  | group {bracket : Bracket} {start s rest : List Char} {body : List Node}
    (hbody : Reads (.row (.closing bracket) s) body rest) :
    Reads (.node ⟨.opening bracket, start, s⟩) [.group bracket body] rest
  | math {display : Bool} {start s rest : List Char} {body : List Node}
    (hbody : Reads (.row (.mathEnd display) s) body rest) :
    Reads (.node ⟨.mathStart display, start, s⟩) [.math display body] rest
  | verbatim {start s content mid rest : List Char} {body : List Node} (hcontent : readVerbatim s = .ok (content, mid))
    (hbody : Reads (.row (.envEnd "verbatim".toList) mid) body rest) :
    Reads (.node ⟨.envStart "verbatim".toList, start, s⟩) [.environment "verbatim".toList [.verbatim content] body] rest
  | environment {name start s mid rest : List Char} {args body : List Node} (hname : name ≠ "verbatim".toList)
    (hargs : Reads (.args (environmentSignature (String.ofList name)) s) args mid)
    (hbody : Reads (.row (.envEnd name) mid) body rest) :
    Reads (.node ⟨.envStart name, start, s⟩) [.environment name args body] rest
  | verb {start s content rest : List Char}
    (hcontent : readVerb s = .ok (.command "verb".toList [.verbatim content], rest)) :
    Reads (.node ⟨.command "verb".toList, start, s⟩) [.command "verb".toList [.verbatim content]] rest
  | command {name start s rest : List Char} {args : List Node} (hname : name ≠ "verb".toList)
    (hargs : Reads (.args (commandSignature (String.ofList name)) s) args rest) :
    Reads (.node ⟨.command name, start, s⟩) [.command name args] rest
  | noArgs {signature : Signature} {s : List Char} (hkinds : signature.args = []) : Reads (.args signature s) [] s
  | moreArgs {signature : Signature} {kind : ArgKind} {kinds : List ArgKind} {s mid rest : List Char} {arg : Node}
    {args : List Node} (hkinds : signature.args = kind :: kinds) (harg : Reads (.arg signature.tight kind s) [arg] mid)
    (hargs : Reads (.args { signature with args := kinds } mid) args rest) :
    Reads (.args signature s) (arg :: args) rest
  | star {tight : Bool} {s : List Char} {t : Scanned} (hnext : next {} s = .ok (some t)) (hstar : t.lexeme = .char '*') :
    Reads (.arg tight .star s) [.text ['*']] t.rest
  | noStar {tight : Bool} {s : List Char} {t : Scanned} (hnext : next {} s = .ok (some t))
    (hstar : t.lexeme ≠ .char '*') : Reads (.arg tight .star s) [.absent] s
  | optional {tight : Bool} {s rest : List Char} {t : Scanned} {node : Node} (htight : barsOptional tight s = false)
    (hnext : next { environments := false, squares := true } s = .ok (some t)) (hsquare : t.lexeme = .opening .square)
    (hnode : Reads (.node t) [node] rest) : Reads (.arg tight .optional s) [node] rest
  | barred {tight : Bool} {s : List Char} (htight : barsOptional tight s = true) :
    Reads (.arg tight .optional s) [.absent] s
  | noOptional {tight : Bool} {s : List Char} {t? : Option Scanned}
    (hnext : next { environments := false, squares := true } s = .ok t?)
    (hsquare : ∀ t ∈ t?, t.lexeme ≠ .opening .square) : Reads (.arg tight .optional s) [.absent] s
  | mandatory {tight : Bool} {s rest : List Char} {t : Scanned} {node : Node}
    (hnext : next { environments := false } s = .ok (some t)) (hwhole : t.lexeme.isWhole = true)
    (hnode : Reads (.node t) [node] rest) : Reads (.arg tight .mandatory s) [node] rest
  | closed {tight : Bool} {s : List Char} {t : Scanned} {bracket : Bracket}
    (hnext : next { environments := false } s = .ok (some t)) (hclosing : t.lexeme = .closing bracket) :
    Reads (.arg tight .mandatory s) [.text []] t.start
  | bare {tight : Bool} {s name : List Char} {t : Scanned} (hnext : next { environments := false } s = .ok (some t))
    (hname : t.lexeme.bareName? = some name) : Reads (.arg tight .mandatory s) [.command name []] t.rest

/-! ### What is read is read by the rules -/

theorem scanCommand_environments {mode : ScanMode} (hmode : mode.environments = false) {start s : List Char} {t : Scanned}
    (h : scanCommand mode start s = .ok t) (name : List Char) : t.lexeme ≠ .envStart name ∧ t.lexeme ≠ .envEnd name := by
  unfold scanCommand at h
  split at h
  split at h
  case h_5 =>
    rw [hmode, Bool.false_and, if_neg Bool.false_ne_true] at h
    cases h
    exact ⟨nofun, nofun⟩
  all_goals
    cases h
    exact ⟨nofun, nofun⟩

/-- Where arguments are due, environments neither begin nor end. -/
theorem scan_environments {mode : ScanMode} (hmode : mode.environments = false) {s : List Char} {t : Scanned}
    (h : scan mode s = .ok (some t)) (name : List Char) : t.lexeme ≠ .envStart name ∧ t.lexeme ≠ .envEnd name := by
  unfold scan at h
  split at h
  · cases h
    exact ⟨nofun, nofun⟩
  · cases h
  · dsimp only at h
    split at h
    · split at h
      · cases h
      · obtain ⟨t', ht', h⟩ := exists_of_map h
        cases h
        exact scanCommand_environments hmode ht' name
    · cases h
      exact ⟨nofun, nofun⟩
    · cases h
      exact ⟨nofun, nofun⟩
    · split at h
      · cases h
        exact ⟨nofun, nofun⟩
      · split at h
        · cases h
          exact ⟨nofun, nofun⟩
        · split at h <;> cases h <;> exact ⟨nofun, nofun⟩

/-- With this fuel everything is read by the rules. -/
structure Sound (fuel : Nat) : Prop where
  row : ∀ {stop s nodes rest}, readNodes fuel stop s = .ok (nodes, rest) → Reads (.row stop s) nodes rest
  args : ∀ {signature s args rest}, readArgs fuel signature s = .ok (args, rest) → Reads (.args signature s) args rest
  arg : ∀ {tight kind s arg rest}, readArg fuel tight kind s = .ok (arg, rest) → Reads (.arg tight kind s) [arg] rest

theorem Sound.node {fuel : Nat} (hsound : Sound fuel) {t : Scanned} {node : Node} {rest : List Char}
    (h : readNode fuel t = .ok (node, rest)) : Reads (.node t) [node] rest := by
  obtain ⟨lexeme, start, s⟩ := t
  cases lexeme with
  | char | paragraph | ligature =>
    cases h
    exact .text rfl
  | opening bracket =>
    obtain ⟨⟨body, rest⟩, hbody, h⟩ := exists_of_bind h
    cases h
    exact .group (hsound.row hbody)
  | mathStart display =>
    obtain ⟨⟨body, rest⟩, hbody, h⟩ := exists_of_bind h
    cases h
    exact .math (hsound.row hbody)
  | envStart name =>
    obtain ⟨⟨args, mid⟩, hargs, h⟩ := exists_of_bind h
    obtain ⟨⟨body, rest⟩, hbody, h⟩ := exists_of_bind h
    cases h
    unfold readEnvironmentArgs at hargs
    split at hargs
    next hname =>
      obtain ⟨⟨content, mid⟩, hcontent, hargs⟩ := exists_of_bind hargs
      cases hargs
      subst hname
      exact .verbatim hcontent (hsound.row hbody)
    next hname => exact .environment hname (hsound.args hargs) (hsound.row hbody)
  | command name =>
    simp only [readNode] at h
    split at h
    next hname =>
      obtain ⟨content, rfl⟩ := readVerb_ok h
      subst hname
      exact .verb h
    next hname =>
      obtain ⟨⟨args, rest⟩, hargs, h⟩ := exists_of_bind h
      cases h
      exact .command hname (hsound.args hargs)
  | closing | envEnd | mathEnd => cases h

theorem Sound.mandatory {fuel : Nat} (hsound : Sound fuel) {tight : Bool} {s rest : List Char} {t : Scanned} {arg : Node}
    (hnext : next { environments := false } s = .ok (some t)) (h : readMandatory fuel t = .ok (arg, rest)) :
    Reads (.arg tight .mandatory s) [arg] rest := by
  by_cases hwhole : t.lexeme.isWhole = true
  · rw [readMandatory_whole hwhole] at h
    exact .mandatory hnext hwhole (hsound.node h)
  · obtain ⟨lexeme, start, rest'⟩ := t
    cases lexeme with
    | char | paragraph | ligature | opening => exact absurd rfl hwhole
    | closing bracket =>
      cases h
      exact .closed hnext rfl
    | command name =>
      simp only [readMandatory] at h
      split at h
      next => cases h
      next hend =>
        cases h
        exact .bare hnext (if_neg hend)
    | mathStart | mathEnd =>
      cases h
      exact .bare hnext rfl
    | envStart name => exact absurd rfl ((scan_environments rfl (next_ok.1 hnext) name).1)
    | envEnd name => exact absurd rfl ((scan_environments rfl (next_ok.1 hnext) name).2)

theorem Sound.argument {fuel : Nat} (hsound : Sound fuel) {tight : Bool} {kind : ArgKind} {s rest : List Char} {arg : Node}
    (h : readArg (fuel + 1) tight kind s = .ok (arg, rest)) : Reads (.arg tight kind s) [arg] rest := by
  cases kind with
  | mandatory =>
    rw [readArg_mandatory] at h
    obtain ⟨t?, hnext, h⟩ := exists_of_bind h
    cases t? with
    | none => cases h
    | some t => exact hsound.mandatory hnext h
  | star =>
    rw [readArg_star] at h
    obtain ⟨t?, hnext, h⟩ := exists_of_bind h
    cases t? with
    | none => cases h
    | some t =>
      dsimp only at h
      split at h
      next hstar =>
        cases h
        exact .star hnext hstar
      next hstar =>
        cases h
        exact .noStar hnext hstar
  | optional =>
    rw [readArg_optional] at h
    split at h
    next htight =>
      cases h
      exact .barred htight
    next htight =>
      obtain ⟨t?, hnext, h⟩ := exists_of_bind h
      by_cases hsquare : ∃ t ∈ t?, t.lexeme = .opening .square
      · obtain ⟨t, ht, hsquare⟩ := hsquare
        cases ht
        rw [readOption_square hsquare] at h
        exact .optional (by simpa using htight) hnext hsquare (hsound.node h)
      · have hsquare : ∀ t ∈ t?, t.lexeme ≠ .opening .square := fun t ht heq => hsquare ⟨t, ht, heq⟩
        rw [readOption_absent hsquare] at h
        cases h
        exact .noOptional hnext hsquare

theorem sound (fuel : Nat) : Sound fuel := by
  induction fuel with
  | zero =>
    refine ⟨fun h => ?_, fun h => ?_, fun h => ?_⟩
    · rw [readNodes] at h
      cases h
    · rw [readArgs] at h
      cases h
    · rw [readArg] at h
      cases h
  | succ fuel ih =>
    refine ⟨fun h => ?_, fun h => ?_, ih.argument⟩
    · rcases readNodes_ok h with ⟨hnext, rfl, rfl, rfl⟩ | ⟨t, hnext, ⟨hends, rfl, rfl⟩ | hmore⟩
      · exact .atEnd hnext
      · exact .atStop hnext hends
      · obtain ⟨node, mid, others, hends, hnode, hothers, rfl⟩ := hmore
        exact .more hnext hends (ih.node hnode) (ih.row hothers)
    · rcases readArgs_ok h with ⟨hkinds, rfl, rfl⟩ | ⟨kind, kinds, arg, mid, more, hkinds, harg, hmore, rfl⟩
      · exact .noArgs hkinds
      · exact .moreArgs hkinds (ih.arg harg) (ih.args hmore)

end WikiTypeset.Formula
