import WikiTypeset.Proofs.Formula.Rules

/-!
# Fuel enough for a formula

Every lexeme leaves less of the input, and no command has many arguments. So the fuel that the length of a formula gives
is enough for all that the rules read of it, and the structure of a formula is what they read. Main statements:
`Reads.readWith` and `read_eq_ok_iff`.
-/

namespace WikiTypeset.Formula

/-! ### What is read leaves less -/

theorem skipBlanks_length (afterNewline : Bool) (s : List Char) :
    (∀ rest, skipBlanks afterNewline s = .paragraph rest → rest.length < s.length) ∧
      ∀ rest, skipBlanks afterNewline s = .input rest → rest.length ≤ s.length := by
  induction s generalizing afterNewline with
  | nil => simp [skipBlanks]
  | cons c s ih =>
    rw [skipBlanks]
    split
    · simp
    · split
      · obtain ⟨hparagraph, hinput⟩ := ih (decide (c = '\n'))
        refine ⟨fun rest h => ?_, fun rest h => ?_⟩
        · have := hparagraph rest h
          simp only [List.length_cons]
          omega
        · have := hinput rest h
          simp only [List.length_cons]
          omega
      · simp

theorem skipSpace_length (s : List Char) : (skipSpace s).length ≤ s.length := by
  induction s with
  | nil => exact Nat.le_refl _
  | cons c s ih =>
    rw [skipSpace]
    split
    · exact Nat.le_refl _
    · split
      · simp only [List.length_cons]
        omega
      · exact Nat.le_refl _

theorem commandName_length (s : List Char) :
    (commandName s).2.1.length ≤ s.length ∧ (commandName s).2.2.length ≤ s.length := by
  unfold commandName
  dsimp only
  split
  · simp
  · have hspace := skipSpace_length (s.drop (s.takeWhile Text.isLetter).length)
    simp only [List.length_drop] at hspace ⊢
    omega

theorem envName?_length {s name rest : List Char} (h : envName? s = some (name, rest)) : rest.length ≤ s.length := by
  have hblanks := (List.dropWhile_suffix (p := Text.isBlank) (l := s)).length_le
  unfold envName? at h
  split at h
  next t heq =>
    dsimp only at h
    split at h
    next rest' hdrop =>
      split at h
      next => cases h
      next =>
        cases h
        have hdrop := congrArg List.length hdrop
        rw [heq] at hblanks
        simp only [List.length_drop, List.length_cons] at hdrop hblanks
        omega
    next => cases h
  next => cases h

theorem scanCommand_length {mode : ScanMode} {start s : List Char} {t : Scanned} (h : scanCommand mode start s = .ok t) :
    t.start = start ∧ t.rest.length ≤ s.length := by
  obtain ⟨hafter, hrest⟩ := commandName_length s
  unfold scanCommand at h
  split at h
  next name after rest heq =>
    rw [heq] at hafter hrest
    split at h
    case h_5 =>
      split at h
      · split at h
        next env rest' henv =>
          cases h
          exact ⟨rfl, Nat.le_trans (envName?_length henv) hafter⟩
        next => cases h
      · cases h
        exact ⟨rfl, hrest⟩
    all_goals
      cases h
      exact ⟨rfl, hafter⟩

theorem scan_length {mode : ScanMode} {s : List Char} {t : Scanned} (h : scan mode s = .ok (some t)) :
    t.rest.length < s.length ∧ (t.lexeme ≠ .paragraph → t.start.length ≤ s.length) := by
  obtain ⟨hparagraph, hinput⟩ := skipBlanks_length false s
  have hligature : ∀ l ∈ ligatures, l ≠ [] := by decide
  unfold scan at h
  split at h
  next rest hskip =>
    cases h
    exact ⟨hparagraph _ hskip, fun hlexeme => absurd rfl hlexeme⟩
  next => cases h
  next c rest hskip =>
    have hlength := hinput _ hskip
    rw [List.length_cons] at hlength
    dsimp only at h
    split at h
    · split at h
      next => cases h
      next =>
        obtain ⟨t', ht', h⟩ := exists_of_map h
        cases h
        obtain ⟨hstart, hrest⟩ := scanCommand_length ht'
        rw [hstart]
        exact ⟨by omega, fun _ => by simpa using hlength⟩
    · cases h
      exact ⟨by dsimp only; omega, fun _ => hlength⟩
    · cases h
      exact ⟨by dsimp only; omega, fun _ => hlength⟩
    · split at h
      · cases h
        exact ⟨by dsimp only; omega, fun _ => hlength⟩
      · split at h
        · cases h
          exact ⟨by dsimp only; omega, fun _ => hlength⟩
        · split at h
          next l hl =>
            cases h
            have hpos := List.length_pos_iff.2 (hligature l (List.mem_of_find?_eq_some hl))
            refine ⟨?_, fun _ => hlength⟩
            simp only [List.length_drop, List.length_cons]
            omega
          next =>
            cases h
            exact ⟨by dsimp only; omega, fun _ => hlength⟩

theorem readVerb_length {s rest : List Char} {node : Node} (h : readVerb s = .ok (node, rest)) : rest.length ≤ s.length := by
  have hblanks := (List.dropWhile_suffix (p := Text.isBlank) (l := s)).length_le
  unfold readVerb at h
  split at h
  next => cases h
  next delimiter s' heq =>
    rw [heq, List.length_cons] at hblanks
    dsimp only at h
    split at h
    next => cases h
    next c rest' hdrop =>
      cases h
      have hdrop := congrArg List.length hdrop
      simp only [List.length_drop, List.length_cons] at hdrop
      omega

theorem readVerbatim_length {s content rest : List Char} (h : readVerbatim s = .ok (content, rest)) :
    rest.length ≤ s.length := by
  induction s generalizing content with
  | nil => cases h
  | cons c s ih =>
    rw [readVerbatim] at h
    split at h
    · cases h
      exact Nat.le_refl _
    · obtain ⟨⟨content', rest'⟩, hcontent, h⟩ := exists_of_map h
      cases h
      exact Nat.le_succ_of_le (ih hcontent)

/-! ### What the rules read is read with fuel enough -/

/-- The input that something is read of. -/
def Due.input : Due → List Char
  | .row _ s | .args _ s | .arg _ _ s => s
  | .node t => t.rest

theorem Reads.length_le {due : Due} {nodes : List Node} {rest : List Char} (h : Reads due nodes rest) :
    rest.length ≤ due.input.length := by
  induction h with
  | atEnd => exact Nat.zero_le _
  | atStop hnext => exact Nat.le_of_lt (scan_length (next_ok.1 hnext)).1
  | more hnext _ _ _ ihnode ihothers =>
    have := (scan_length (next_ok.1 hnext)).1
    simp only [Due.input] at ihnode ihothers ⊢
    omega
  | text => exact Nat.le_refl _
  | group _ ih | math _ ih | command _ _ ih => exact ih
  | verbatim hcontent _ ih => exact Nat.le_trans ih (readVerbatim_length hcontent)
  | environment _ _ _ ihargs ihbody => exact Nat.le_trans ihbody ihargs
  | verb hcontent => exact readVerb_length hcontent
  | noArgs => exact Nat.le_refl _
  | moreArgs _ _ _ iharg ihargs => exact Nat.le_trans ihargs iharg
  | star hnext => exact Nat.le_of_lt (scan_length (next_ok.1 hnext)).1
  | noStar | barred | noOptional => exact Nat.le_refl _
  | optional _ hnext _ _ ih | mandatory hnext _ _ ih =>
    exact Nat.le_trans ih (Nat.le_of_lt (scan_length (next_ok.1 hnext)).1)
  | closed hnext hclosing => exact (scan_length (next_ok.1 hnext)).2 (by rw [hclosing]; exact nofun)
  | bare hnext => exact Nat.le_of_lt (scan_length (next_ok.1 hnext)).1

/-- Fuel that is enough, eight for each character as in `read`. -/
def Due.fuel : Due → Nat
  | .row _ s => 8 * s.length + 8
  | .node t => 8 * t.rest.length + 15
  | .args signature s => 8 * s.length + 8 + signature.args.length
  | .arg _ _ s => 8 * s.length + 8

/-- What is due is read with some fuel. -/
def Due.ReadWith (fuel : Nat) : Due → List Node → List Char → Prop
  | .row stop s, nodes, rest => readNodes fuel stop s = .ok (nodes, rest)
  | .node t, nodes, rest => ∃ node, nodes = [node] ∧ readNode fuel t = .ok (node, rest)
  | .args signature s, nodes, rest => readArgs fuel signature s = .ok (nodes, rest)
  | .arg tight kind s, nodes, rest => ∃ arg, nodes = [arg] ∧ readArg fuel tight kind s = .ok (arg, rest)

/-- No command and no environment has more arguments than the fuel for a character is enough for. -/
theorem commandSignature_length (name : String) : (commandSignature name).args.length ≤ 7 := by
  have htable : ∀ e ∈ furtherCommands, (argKinds e.2).length ≤ 7 := by decide +kernel
  unfold commandSignature
  split
  · decide
  · split
    · decide
    · split
      · decide
      · split
        · decide
        · split
          next e shorthand hfind => exact htable _ (List.mem_of_find?_eq_some hfind)
          next => decide

theorem environmentSignature_length (name : String) : (environmentSignature name).args.length ≤ 7 := by
  have htable : ∀ e ∈ environmentArgs, (argKinds e.2).length ≤ 7 := by decide +kernel
  unfold environmentSignature
  split
  next e shorthand hfind => exact htable _ (List.mem_of_find?_eq_some hfind)
  next => decide

theorem Due.exists_fuel {due : Due} {fuel : Nat} (h : due.fuel ≤ fuel) : ∃ n, fuel = n + 1 := by
  refine ⟨fuel - 1, ?_⟩
  cases due <;> simp only [Due.fuel] at h <;> omega

/-- What the rules read is read with any fuel that is enough. -/
theorem Reads.readWith {due : Due} {nodes : List Node} {rest : List Char} (h : Reads due nodes rest) :
    ∀ fuel, due.fuel ≤ fuel → due.ReadWith fuel nodes rest := by
  induction h with
  | atEnd hnext =>
    intro fuel hfuel
    obtain ⟨fuel, rfl⟩ := Due.exists_fuel hfuel
    exact readNodes_end hnext fuel
  | atStop hnext hends =>
    intro fuel hfuel
    obtain ⟨fuel, rfl⟩ := Due.exists_fuel hfuel
    exact readNodes_stop hnext hends fuel
  | more hnext hends hnode hothers ihnode ihothers =>
    intro fuel hfuel
    obtain ⟨fuel, rfl⟩ := Due.exists_fuel hfuel
    have hless := (scan_length (next_ok.1 hnext)).1
    have hmid := hnode.length_le
    simp only [Due.fuel, Due.input] at hfuel hmid ihnode ihothers
    obtain ⟨node, heq, hnode⟩ := ihnode fuel (by omega)
    cases heq
    exact readNodes_cons hnext hends hnode (ihothers fuel (by omega))
  | @text t text htext =>
    intro fuel _
    obtain ⟨lexeme, start, s⟩ := t
    refine ⟨_, rfl, ?_⟩
    cases lexeme <;> cases htext <;> rfl
  | group hbody ih =>
    intro fuel hfuel
    simp only [Due.fuel] at hfuel ih
    exact ⟨_, rfl, readNode_group (ih fuel (by omega)) _⟩
  | math hbody ih =>
    intro fuel hfuel
    simp only [Due.fuel] at hfuel ih
    exact ⟨_, rfl, readNode_math (ih fuel (by omega)) _⟩
  | verbatim hcontent hbody ih =>
    intro fuel hfuel
    have hmid := readVerbatim_length hcontent
    simp only [Due.fuel] at hfuel ih
    refine ⟨_, rfl, readNode_environment ?_ (ih fuel (by omega)) _⟩
    rw [readEnvironmentArgs, if_pos rfl, hcontent]
    rfl
  | @environment name start s mid rest args body hname hargs hbody ihargs ihbody =>
    intro fuel hfuel
    have hkinds := environmentSignature_length (String.ofList name)
    have hmid := hargs.length_le
    simp only [Due.fuel, Due.input] at hfuel hmid ihargs ihbody
    have hargs := ihargs fuel (by omega)
    refine ⟨_, rfl, readNode_environment ?_ (ihbody fuel (by omega)) _⟩
    rw [readEnvironmentArgs, if_neg hname]
    exact hargs
  | verb hcontent =>
    intro fuel _
    exact ⟨_, rfl, by simp only [readNode, if_true, hcontent]⟩
  | @command name start s rest args hname hargs ih =>
    intro fuel hfuel
    have hkinds := commandSignature_length (String.ofList name)
    simp only [Due.fuel] at hfuel ih
    exact ⟨_, rfl, readNode_command hname (ih fuel (by omega)) _⟩
  | noArgs hkinds =>
    intro fuel hfuel
    obtain ⟨fuel, rfl⟩ := Due.exists_fuel hfuel
    exact readArgs_nil hkinds fuel _
  | moreArgs hkinds harg hargs iharg ihargs =>
    intro fuel hfuel
    obtain ⟨fuel, rfl⟩ := Due.exists_fuel hfuel
    have hmid := harg.length_le
    simp only [Due.fuel, Due.input, hkinds, List.length_cons] at hfuel hmid iharg ihargs
    obtain ⟨arg, heq, harg⟩ := iharg fuel (by omega)
    cases heq
    exact readArgs_more hkinds harg (ihargs fuel (by omega))
  | star hnext hstar =>
    intro fuel hfuel
    obtain ⟨fuel, rfl⟩ := Due.exists_fuel hfuel
    refine ⟨_, rfl, ?_⟩
    rw [readArg_star, hnext]
    exact if_pos hstar
  | noStar hnext hstar =>
    intro fuel hfuel
    obtain ⟨fuel, rfl⟩ := Due.exists_fuel hfuel
    refine ⟨_, rfl, ?_⟩
    rw [readArg_star, hnext]
    exact if_neg hstar
  | @optional tight s rest t node htight hnext hsquare hnode ih =>
    intro fuel hfuel
    obtain ⟨fuel, rfl⟩ := Due.exists_fuel hfuel
    have hless := (scan_length (next_ok.1 hnext)).1
    simp only [Due.fuel] at hfuel ih
    obtain ⟨node, heq, hnode⟩ := ih fuel (by omega)
    refine ⟨node, heq, ?_⟩
    rw [readArg_optional, htight, hnext]
    exact (readOption_square hsquare fuel s).trans hnode
  | barred htight =>
    intro fuel hfuel
    obtain ⟨fuel, rfl⟩ := Due.exists_fuel hfuel
    exact ⟨_, rfl, by rw [readArg_optional, if_pos htight]⟩
  | noOptional hnext hsquare =>
    intro fuel hfuel
    obtain ⟨fuel, rfl⟩ := Due.exists_fuel hfuel
    refine ⟨_, rfl, ?_⟩
    rw [readArg_optional, hnext]
    split
    · rfl
    · exact readOption_absent hsquare fuel _
  | mandatory hnext hwhole hnode ih =>
    intro fuel hfuel
    obtain ⟨fuel, rfl⟩ := Due.exists_fuel hfuel
    have hless := (scan_length (next_ok.1 hnext)).1
    simp only [Due.fuel] at hfuel ih
    obtain ⟨node, heq, hnode⟩ := ih fuel (by omega)
    refine ⟨node, heq, ?_⟩
    rw [readArg_mandatory, hnext]
    show readMandatory fuel _ = _
    rw [readMandatory_whole hwhole, hnode]
  | closed hnext hclosing =>
    intro fuel hfuel
    obtain ⟨fuel, rfl⟩ := Due.exists_fuel hfuel
    refine ⟨_, rfl, ?_⟩
    rw [readArg_mandatory, hnext]
    show readMandatory fuel _ = _
    simp only [readMandatory, hclosing]
  | bare hnext hname =>
    intro fuel hfuel
    obtain ⟨fuel, rfl⟩ := Due.exists_fuel hfuel
    refine ⟨_, rfl, ?_⟩
    rw [readArg_mandatory, hnext]
    exact readMandatory_bare hname fuel

/-- A row is what the rules read, with the fuel that its length gives. -/
theorem readNodes_eq_ok_iff {stop : Stop} {s : List Char} {nodes : List Node} {rest : List Char} :
    readNodes (8 * (s.length + 1)) stop s = .ok (nodes, rest) ↔ Reads (.row stop s) nodes rest := by
  refine ⟨fun h => (sound _).row h, fun h => ?_⟩
  exact h.readWith _ (Nat.le_of_eq rfl)

/-- The structure of a formula is what the rules read of it. -/
theorem read_eq_ok_iff {s : List Char} {nodes : List Node} :
    read s = .ok nodes ↔ ∃ rest, Reads (.row .endOfInput s) nodes rest := by
  unfold read
  constructor
  · intro h
    obtain ⟨⟨nodes', rest⟩, hread, rfl⟩ := exists_of_map h
    exact ⟨rest, readNodes_eq_ok_iff.1 hread⟩
  · rintro ⟨rest, hreads⟩
    rw [readNodes_eq_ok_iff.2 hreads]
    rfl

end WikiTypeset.Formula
