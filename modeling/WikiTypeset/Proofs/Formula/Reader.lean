import WikiTypeset.Formula.Tree

/-!
# The reader of formulas step by step

A row of nodes is read node by node: each lexeme begins a node, or it ends the row. Arguments are read one by one.
`readNodes_ok` and `readArgs_ok` say all that a reading that succeeds can have done in a step; the lemmas beside them lead
from the steps to the whole.
-/

namespace WikiTypeset.Formula

theorem next_ok {mode : ScanMode} {s : List Char} {t? : Option Scanned} : next mode s = .ok t? ↔ scan mode s = .ok t? := by
  unfold next
  constructor
  · intro h
    split at h
    next heq =>
      cases h
      exact heq
    next => cases h
  · intro h
    rw [h]

/-- What a lexeme ends, if it begins no node. -/
def Lexeme.stop? : Lexeme → Option Stop
  | .closing bracket => some (.closing bracket)
  | .envEnd name => some (.envEnd name)
  | .mathEnd display => some (.mathEnd display)
  | _ => none

/-- The text that a lexeme is read as, if it is read as text. -/
def Lexeme.text? : Lexeme → Option (List Char)
  | .char c => some [c]
  | .paragraph => some ['\n', '\n']
  | .ligature l => some l
  | _ => none

/-- The command that a lexeme is read as where an argument is due. -/
def Lexeme.bareName? : Lexeme → Option (List Char)
  | .command name => if name = "end".toList then none else some name
  | .mathStart display => some (if display then ['['] else ['('])
  | .mathEnd display => some (if display then [']'] else [')'])
  | _ => none

/-- Whether a lexeme is read as an argument as it is read elsewhere. -/
def Lexeme.isWhole : Lexeme → Bool
  | .char _ | .paragraph | .ligature _ | .opening _ => true
  | _ => false

/-- The arguments of an environment, and the input after them. -/
def readEnvironmentArgs (fuel : Nat) (name s : List Char) : Except StructureError (List Node × List Char) :=
  if name = "verbatim".toList then do
    let (content, rest) ← readVerbatim s
    return ([.verbatim content], rest)
  else readArgs fuel (environmentSignature (String.ofList name)) s

/-- The node that a lexeme begins, and the input after it. -/
def readNode (fuel : Nat) (t : Scanned) : Except StructureError (Node × List Char) :=
  match t.lexeme with
  | .char c => .ok (.text [c], t.rest)
  | .paragraph => .ok (.text ['\n', '\n'], t.rest)
  | .ligature l => .ok (.text l, t.rest)
  | .opening bracket => do
    let (body, rest) ← readNodes fuel (.closing bracket) t.rest
    return (.group bracket body, rest)
  | .mathStart display => do
    let (body, rest) ← readNodes fuel (.mathEnd display) t.rest
    return (.math display body, rest)
  | .envStart name => do
    let (args, rest) ← readEnvironmentArgs fuel name t.rest
    let (body, rest) ← readNodes fuel (.envEnd name) rest
    return (.environment name args body, rest)
  | .command name =>
    if name = "verb".toList then readVerb t.rest
    else do
      let (args, rest) ← readArgs fuel (commandSignature (String.ofList name)) t.rest
      return (.command name args, rest)
  | .closing _ | .envEnd _ | .mathEnd _ => .error .mismatch

/-- The mode in which the nodes before a certain end are scanned. -/
abbrev Stop.mode (stop : Stop) : ScanMode := { squares := stop = .closing .square }

/-- A row of nodes ends, or it goes on with a node. -/
theorem readNodes_succ (fuel : Nat) (stop : Stop) (s : List Char) : readNodes (fuel + 1) stop s =
    (next stop.mode s >>= fun t? => match t? with
      | none => if stop = .endOfInput then .ok ([], []) else .error .endOfInput
      | some t => match t.lexeme.stop? with
        | some ends => if stop = ends then .ok ([], t.rest) else .error .mismatch
        | none => do
          let (node, rest) ← readNode fuel t
          let (nodes, rest) ← readNodes fuel stop rest
          return (node :: nodes, rest)) := by
  rw [readNodes]
  refine congrArg _ (funext fun t? => ?_)
  cases t? with
  | none => rfl
  | some t =>
    cases hlexeme : t.lexeme <;> simp only [readNode, hlexeme, Lexeme.stop?]
    case command name => split <;> simp only [bind_assoc, pure_bind]
    case envStart name =>
      rw [readEnvironmentArgs]
      split <;> simp only [bind_assoc, pure_bind]
    case opening bracket | mathStart display => simp only [bind_assoc, pure_bind]
    all_goals rfl

/-- A reading in two steps that succeeds has succeeded in the first one. -/
theorem exists_of_bind {ε α β : Type} {x : Except ε α} {f : α → Except ε β} {b : β} (h : (x >>= f) = .ok b) :
    ∃ a, x = .ok a ∧ f a = .ok b := by
  cases x with
  | error cause => cases h
  | ok a => exact ⟨a, rfl, h⟩

theorem exists_of_map {ε α β : Type} {x : Except ε α} {f : α → β} {b : β} (h : x.map f = .ok b) :
    ∃ a, x = .ok a ∧ f a = b := by
  cases x with
  | error cause => cases h
  | ok a => exact ⟨a, rfl, Except.ok.inj h⟩

/-- What a successful reading of a row can have done: found the end of the input, found what ends the row, or read a
node and gone on. -/
theorem readNodes_ok {fuel : Nat} {stop : Stop} {s rest : List Char} {nodes : List Node}
    (h : readNodes (fuel + 1) stop s = .ok (nodes, rest)) :
    (next stop.mode s = .ok none ∧ stop = .endOfInput ∧ nodes = [] ∧ rest = []) ∨
      ∃ t, next stop.mode s = .ok (some t) ∧ ((t.lexeme.stop? = some stop ∧ nodes = [] ∧ rest = t.rest) ∨
        ∃ node mid more, t.lexeme.stop? = none ∧ readNode fuel t = .ok (node, mid) ∧
          readNodes fuel stop mid = .ok (more, rest) ∧ nodes = node :: more) := by
  rw [readNodes_succ] at h
  obtain ⟨t?, hnext, h⟩ := exists_of_bind h
  cases t? with
  | none =>
    dsimp only at h
    split at h
    next hstop =>
      cases h
      exact .inl ⟨hnext, hstop, rfl, rfl⟩
    next => cases h
  | some t =>
    refine .inr ⟨t, hnext, ?_⟩
    dsimp only at h
    split at h
    next ends hends =>
      split at h
      next hstop =>
        cases h
        exact .inl ⟨by rw [hends, hstop], rfl, rfl⟩
      next => cases h
    next hends =>
      obtain ⟨⟨node, mid⟩, hnode, h⟩ := exists_of_bind h
      obtain ⟨⟨more, rest'⟩, hmore, h⟩ := exists_of_bind h
      cases h
      exact .inr ⟨node, mid, more, hends, hnode, hmore, rfl⟩

theorem readNodes_cons {fuel : Nat} {stop : Stop} {s mid rest : List Char} {t : Scanned} {node : Node} {more : List Node}
    (hnext : next stop.mode s = .ok (some t)) (hends : t.lexeme.stop? = none) (hnode : readNode fuel t = .ok (node, mid))
    (hmore : readNodes fuel stop mid = .ok (more, rest)) : readNodes (fuel + 1) stop s = .ok (node :: more, rest) := by
  rw [readNodes_succ, hnext]
  show (match t.lexeme.stop? with
    | some ends => _
    | none => _) = _
  rw [hends, hnode]
  show (readNodes fuel stop mid >>= _) = _
  rw [hmore]
  rfl

theorem readNodes_stop {stop : Stop} {s : List Char} {t : Scanned} (hnext : next stop.mode s = .ok (some t))
    (hends : t.lexeme.stop? = some stop) (fuel : Nat) : readNodes (fuel + 1) stop s = .ok ([], t.rest) := by
  rw [readNodes_succ, hnext]
  show (match t.lexeme.stop? with
    | some ends => _
    | none => _) = _
  rw [hends]
  exact if_pos rfl

theorem readNodes_end {s : List Char} (hnext : next Stop.endOfInput.mode s = .ok none) (fuel : Nat) :
    readNodes (fuel + 1) .endOfInput s = .ok ([], []) := by
  rw [readNodes_succ, hnext]
  rfl

theorem readVerb_ok {s rest : List Char} {node : Node} (h : readVerb s = .ok (node, rest)) :
    ∃ content, node = .command "verb".toList [.verbatim content] := by
  unfold readVerb at h
  split at h
  · cases h
  · dsimp only at h
    split at h
    · cases h
    · cases h
      exact ⟨_, rfl⟩

theorem readNode_group {fuel : Nat} {bracket : Bracket} {s rest : List Char} {body : List Node}
    (hbody : readNodes fuel (.closing bracket) s = .ok (body, rest)) (start : List Char) :
    readNode fuel ⟨.opening bracket, start, s⟩ = .ok (.group bracket body, rest) := by
  simp only [readNode, hbody]
  rfl

theorem readNode_math {fuel : Nat} {display : Bool} {s rest : List Char} {body : List Node}
    (hbody : readNodes fuel (.mathEnd display) s = .ok (body, rest)) (start : List Char) :
    readNode fuel ⟨.mathStart display, start, s⟩ = .ok (.math display body, rest) := by
  simp only [readNode, hbody]
  rfl

theorem readNode_environment {fuel : Nat} {name s mid rest : List Char} {args body : List Node}
    (hargs : readEnvironmentArgs fuel name s = .ok (args, mid))
    (hbody : readNodes fuel (.envEnd name) mid = .ok (body, rest)) (start : List Char) :
    readNode fuel ⟨.envStart name, start, s⟩ = .ok (.environment name args body, rest) := by
  simp only [readNode, hargs]
  show (readNodes fuel (.envEnd name) mid >>= _) = _
  rw [hbody]
  rfl

theorem readNode_command {fuel : Nat} {name s rest : List Char} {args : List Node} (hname : name ≠ "verb".toList)
    (hargs : readArgs fuel (commandSignature (String.ofList name)) s = .ok (args, rest)) (start : List Char) :
    readNode fuel ⟨.command name, start, s⟩ = .ok (.command name args, rest) := by
  simp only [readNode, if_neg hname, hargs]
  rfl

/-! ### Arguments -/

theorem readArgs_nil {signature : Signature} (h : signature.args = []) (fuel : Nat) (s : List Char) :
    readArgs (fuel + 1) signature s = .ok ([], s) := by
  rw [readArgs, h]

theorem readArgs_cons {signature : Signature} {kind : ArgKind} {kinds : List ArgKind} (h : signature.args = kind :: kinds)
    (fuel : Nat) (s : List Char) : readArgs (fuel + 1) signature s = (do
      let (arg, rest) ← readArg fuel signature.tight kind s
      let (args, rest) ← readArgs fuel { signature with args := kinds } rest
      return (arg :: args, rest)) := by
  rw [readArgs, h]

theorem readArgs_more {fuel : Nat} {signature : Signature} {kind : ArgKind} {kinds : List ArgKind} {s mid rest : List Char}
    {arg : Node} {args : List Node} (hkinds : signature.args = kind :: kinds)
    (harg : readArg fuel signature.tight kind s = .ok (arg, mid))
    (hargs : readArgs fuel { signature with args := kinds } mid = .ok (args, rest)) :
    readArgs (fuel + 1) signature s = .ok (arg :: args, rest) := by
  rw [readArgs_cons hkinds, harg]
  show (readArgs fuel { signature with args := kinds } mid >>= _) = _
  rw [hargs]
  rfl

/-- What a successful reading of arguments can have done: found that none are left, or read one and gone on. -/
theorem readArgs_ok {fuel : Nat} {signature : Signature} {s rest : List Char} {args : List Node}
    (h : readArgs (fuel + 1) signature s = .ok (args, rest)) :
    (signature.args = [] ∧ args = [] ∧ rest = s) ∨ ∃ kind kinds arg mid more, signature.args = kind :: kinds ∧
      readArg fuel signature.tight kind s = .ok (arg, mid) ∧
      readArgs fuel { signature with args := kinds } mid = .ok (more, rest) ∧ args = arg :: more := by
  cases hsignature : signature.args with
  | nil =>
    rw [readArgs_nil hsignature] at h
    cases h
    exact .inl ⟨rfl, rfl, rfl⟩
  | cons kind kinds =>
    rw [readArgs_cons hsignature] at h
    obtain ⟨⟨arg, mid⟩, harg, h⟩ := exists_of_bind h
    obtain ⟨⟨more, rest'⟩, hmore, h⟩ := exists_of_bind h
    cases h
    exact .inr ⟨kind, kinds, arg, mid, more, rfl, harg, hmore, rfl⟩

/-- The mandatory argument that a lexeme begins, and the input after it. -/
def readMandatory (fuel : Nat) (t : Scanned) : Except StructureError (Node × List Char) :=
  match t.lexeme with
  | .char c => .ok (.text [c], t.rest)
  | .paragraph => .ok (.text ['\n', '\n'], t.rest)
  | .ligature l => .ok (.text l, t.rest)
  | .opening bracket => do
    let (body, rest) ← readNodes fuel (.closing bracket) t.rest
    return (.group bracket body, rest)
  | .closing _ => .ok (.text [], t.start)
  | .command name => if name = "end".toList then .error .endAsArgument else .ok (.command name [], t.rest)
  | .mathStart display => .ok (.command (if display then ['['] else ['(']) [], t.rest)
  | .mathEnd display => .ok (.command (if display then [']'] else [')']) [], t.rest)
  | .envStart name | .envEnd name => .ok (.command name [], t.rest)

theorem readArg_mandatory (fuel : Nat) (tight : Bool) (s : List Char) : readArg (fuel + 1) tight .mandatory s =
    (next { environments := false } s >>= fun t? => match t? with
      | none => .error .endOfInput
      | some t => readMandatory fuel t) := by
  rw [readArg]
  refine congrArg _ (funext fun t? => ?_)
  cases t? with
  | none => rfl
  | some t => cases hlexeme : t.lexeme <;> simp only [readMandatory, hlexeme] <;> rfl

theorem readArg_star (fuel : Nat) (tight : Bool) (s : List Char) : readArg (fuel + 1) tight .star s =
    (next {} s >>= fun t? => match t? with
      | none => .error .endOfInput
      | some t => if t.lexeme = .char '*' then .ok (.text ['*'], t.rest) else .ok (.absent, s)) := by
  rw [readArg]
  refine congrArg _ (funext fun t? => ?_)
  cases t? with
  | none => rfl
  | some t => rfl

/-- Where an optional argument may not stand: behind a blank, if the command wants it right behind it. -/
def barsOptional (tight : Bool) (s : List Char) : Bool := tight && (s.head?.map Text.isBlank).getD false

/-- The argument in square brackets that a lexeme begins, if it begins one. -/
def readOption (fuel : Nat) (s : List Char) : Option Scanned → Except StructureError (Node × List Char)
  | some ⟨.opening .square, _, rest⟩ => do
    let (body, rest) ← readNodes fuel (.closing .square) rest
    return (.group .square body, rest)
  | _ => .ok (.absent, s)

theorem readArg_optional (fuel : Nat) (tight : Bool) (s : List Char) : readArg (fuel + 1) tight .optional s =
    if barsOptional tight s then .ok (.absent, s)
    else next { environments := false, squares := true } s >>= readOption fuel s := by
  rw [readArg, barsOptional]
  split
  · rfl
  · rfl

theorem readOption_square {t : Scanned} (h : t.lexeme = .opening .square) (fuel : Nat) (s : List Char) :
    readOption fuel s (some t) = readNode fuel t := by
  obtain ⟨lexeme, start, rest⟩ := t
  cases h
  rfl

theorem readOption_absent {t? : Option Scanned} (h : ∀ t ∈ t?, t.lexeme ≠ .opening .square) (fuel : Nat) (s : List Char) :
    readOption fuel s t? = .ok (.absent, s) := by
  unfold readOption
  split
  next => exact absurd rfl (h _ rfl)
  next => rfl

theorem readMandatory_whole {t : Scanned} (h : t.lexeme.isWhole = true) (fuel : Nat) :
    readMandatory fuel t = readNode fuel t := by
  obtain ⟨lexeme, start, rest⟩ := t
  cases lexeme with
  | char | paragraph | ligature | opening => rfl
  | closing | command | mathStart | mathEnd | envStart | envEnd => cases h

theorem readMandatory_bare {t : Scanned} {name : List Char} (h : t.lexeme.bareName? = some name) (fuel : Nat) :
    readMandatory fuel t = .ok (.command name [], t.rest) := by
  unfold readMandatory
  cases hlexeme : t.lexeme with
  | command name' =>
    simp only [hlexeme, Lexeme.bareName?] at h
    split at h
    next => cases h
    next hend =>
      cases h
      exact if_neg hend
  | mathStart | mathEnd =>
    rw [hlexeme] at h
    cases h
    rfl
  | char | paragraph | ligature | opening | closing | envStart | envEnd =>
    rw [hlexeme] at h
    cases h

end WikiTypeset.Formula
