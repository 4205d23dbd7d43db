import Mathlib.Algebra.Ring.Int.Defs
import WikiTypeset.Proofs.Article.Matching
import WikiTypeset.Proofs.Emission.Braced
import WikiTypeset.Proofs.Tex.Brackets

/-!
# Where bracketed arguments end

The bracket that ends the short form of a heading or the label of a term is only taken for the end if no `]` comes
before it outside braces. Text is not protected from that: a `]` in it ends the argument early unless formatting, a run
or braces of its own stand around it. Going through a reading, `nestingOf` counts the groups that pieces open, and where
each command and fragment is balanced these are their braces. Main statement: `document_arguments_end_iff`.
-/

namespace WikiTypeset.Article

open Action Latex Typeset Html Formula

/-! ### Groups -/

/-- How many groups an open argument adds. -/
def Argument.groups : Argument → Int
  | short | label => 0
  | long | box => 1

/-- How many more groups are open after a mark. -/
def Mark.nesting : Mark → Int
  | opens a => a.groups
  | turns => 1
  | closesBrace => -1
  | closesBracket => 0

/-- What a piece does to arguments, if it does anything. -/
def markAt? : Piece → Option Mark
  | .fragment value => mark? value
  | _ => none

/-- How many more groups are open after a piece: formatting, runs and arguments in braces. -/
def nestingAt : Piece → Int
  | .openInline _ _ | .openRun _ => 1
  | .closeInline _ | .closeRun => -1
  | p => (markAt? p).elim 0 Mark.nesting

/-- How many more groups are open after some pieces. -/
def nestingOf (ps : List Piece) : Int := (ps.map nestingAt).sum

/-- How many groups open arguments add. -/
def groupsOf (stack : List Opened) : Int := (stack.map fun opened => opened.1.groups).sum

@[simp] theorem groupsOf_cons (opened : Opened) (stack : List Opened) :
    groupsOf (opened :: stack) = opened.1.groups + groupsOf stack := rfl

@[simp] theorem nestingOf_cons (p : Piece) (ps : List Piece) : nestingOf (p :: ps) = nestingAt p + nestingOf ps := rfl

variable {frames frames' : List Latex.Frame} {stack stack' : List Opened} {found : List Placed} {ps : List Piece}

theorem Mark.groupsOf_matched {m : Mark} {inside : List Wrapper} (h : m.matched? inside stack = some stack') :
    groupsOf stack' = groupsOf stack + m.nesting := by
  cases Mark.moves_of_matched h <;> simp only [groupsOf_cons, nesting, Argument.groups] <;> omega

theorem matchAll_chars (stack : List Opened) (inside : List Wrapper) (s : List Char) :
    matchAll stack (charsInside inside s) = some stack := by
  have hnone : (charsInside inside s).filter isCommand = [] := by simp [charsInside, isCommand]
  rw [← matchAll_filter, hnone]
  rfl

/-- The mark of a piece is all of it that matters to arguments. -/
theorem matchAll_placed (stack : List Opened) (inside : List Wrapper) (p : Piece) :
    matchAll stack (p.placed inside) = (markAt? p).elim (some stack) fun m => m.matched? inside stack := by
  cases p with
  | text style source => exact matchAll_chars stack inside source
  | fragment value =>
    cases hmark : mark? value with
    | none => simp [Piece.placed, markAt?, hmark, matched?_other hmark]
    | some m => simp [Piece.placed, markAt?, hmark, matched?_mark hmark]
  | _ => rfl

/-- A piece opens as many groups as its reading says. -/
theorem nestingAt_read {p : Piece} (hread : p.read frames = some (found, frames'))
    (hmatch : matchAll stack found = some stack') :
    frames'.length + groupsOf stack' = frames.length + groupsOf stack + nestingAt p := by
  rw [Piece.found_of_read hread, matchAll_placed] at hmatch
  cases p with
  | fragment value =>
    cases hread
    cases hmark : mark? value with
    | none =>
      simp only [markAt?, hmark] at hmatch
      cases hmatch
      simp [nestingAt, markAt?, hmark]
    | some m =>
      simp only [markAt?, hmark] at hmatch
      have hgroups := Mark.groupsOf_matched hmatch
      simp [nestingAt, markAt?, hmark, hgroups, Int.add_assoc]
  | closeInline delimiter =>
    cases hmatch
    obtain _ | ⟨_ | _, frames⟩ := frames <;> simp only [Piece.read, reduceCtorEq, Option.ite_none_right_eq_some] at hread
    obtain ⟨-, hread⟩ := hread
    cases hread
    simp only [List.length_cons, nestingAt]
    omega
  | closeRun =>
    cases hmatch
    obtain _ | ⟨_ | _, frames⟩ := frames <;> cases hread
    simp only [List.length_cons, nestingAt]
    omega
  | openInline _ _ | openRun _ =>
    cases hmatch
    cases hread
    simp only [List.length_cons, nestingAt]
    omega
  | _ =>
    cases hmatch
    cases hread
    simp [nestingAt, markAt?]

/-- Pieces open as many groups as their reading says. -/
theorem nestingOf_read (hread : readPieces frames ps = some (found, frames')) (hmatch : matchAll stack found = some stack') :
    frames'.length + groupsOf stack' = frames.length + groupsOf stack + nestingOf ps := by
  induction ps generalizing frames stack found with
  | nil =>
    cases hread
    cases hmatch
    simp [nestingOf]
  | cons p ps ih =>
    obtain ⟨here, mid, rest, hhere, hrest, rfl⟩ := gather_cons_inv hread
    rw [matchAll_append] at hmatch
    obtain ⟨between, hfirst, hlater⟩ := Option.bind_eq_some_iff.1 hmatch
    have hp := nestingAt_read hhere hfirst
    have hps := ih hrest hlater
    rw [nestingOf_cons]
    omega

/-! ### Enclosing pieces -/

/-- The open arguments after a piece, the innermost first. -/
def encloseAt (arguments : List Argument) (p : Piece) : Option (List Argument) :=
  (markAt? p).elim (some arguments) fun m => m.after? arguments

/-- The open arguments after some pieces. -/
abbrev enclosePieces : List Argument → List Piece → Option (List Argument) := List.foldlM encloseAt

theorem enclosePieces_cons (arguments : List Argument) (p : Piece) (ps : List Piece) :
    enclosePieces arguments (p :: ps) = (encloseAt arguments p).bind fun after => enclosePieces after ps :=
  List.foldlM_cons

theorem enclosePieces_append (arguments : List Argument) (ps qs : List Piece) :
    enclosePieces arguments (ps ++ qs) = (enclosePieces arguments ps).bind fun after => enclosePieces after qs :=
  List.foldlM_append

theorem Mark.after_of_matched {m : Mark} {inside : List Wrapper} (h : m.matched? inside stack = some stack') :
    m.after? (stack.map Prod.fst) = some (stack'.map Prod.fst) := by
  cases Mark.moves_of_matched h <;> rfl

/-- The arguments that match in a reading are those that the pieces open and close. -/
theorem enclosePieces_read (hread : readPieces frames ps = some (found, frames'))
    (hmatch : matchAll stack found = some stack') :
    enclosePieces (stack.map Prod.fst) ps = some (stack'.map Prod.fst) := by
  induction ps generalizing frames stack found with
  | nil =>
    cases hread
    cases hmatch
    rfl
  | cons p ps ih =>
    obtain ⟨here, mid, rest, hhere, hrest, rfl⟩ := gather_cons_inv hread
    rw [matchAll_append, Piece.found_of_read hhere, matchAll_placed] at hmatch
    obtain ⟨between, hfirst, hlater⟩ := Option.bind_eq_some_iff.1 hmatch
    have hp : encloseAt (stack.map Prod.fst) p = some (between.map Prod.fst) := by
      unfold encloseAt
      cases hmark : markAt? p with
      | none =>
        rw [hmark] at hfirst
        cases hfirst
        rfl
      | some m =>
        rw [hmark] at hfirst
        exact Mark.after_of_matched hfirst
    rw [enclosePieces_cons, hp]
    exact ih hrest hlater

/-! ### Braces in an argument -/

theorem scan_mark {value : String} {m : Mark} (h : mark? value = some m) :
    scanBraces value.toList = ⟨false, m.nesting⟩ :=
  (by decide : ∀ value ∈ argumentMarks, ∀ m ∈ mark? value, scanBraces value.toList = ⟨false, m.nesting⟩)
    value (mem_argumentMarks h) m h

/-- A piece whose command or fragment is balanced has the braces that its reading says. -/
theorem scan_piece {p : Piece} (hp : markAt? p = none → p.IsBraced) : scanBraces p.latex = ⟨false, nestingAt p⟩ := by
  cases p with
  | text style source => exact ((complete_escape style source).leads 0).scan_eq
  | fragment value =>
    cases hmark : mark? value with
    | none =>
      have hvalue : Leads value.toList 0 0 := hp hmark
      have hnone : nestingAt (.fragment value) = 0 := by simp [nestingAt, markAt?, hmark]
      rw [hnone]
      exact hvalue.scan_eq
    | some m =>
      have hsome : nestingAt (.fragment value) = m.nesting := by simp [nestingAt, markAt?, hmark]
      rw [hsome]
      exact scan_mark hmark
  | openInline command delimiters =>
    obtain ⟨hcommand, rfl⟩ := hp rfl
    have hafter : BraceScan.after {} command.toList = {} := hcommand.scan_eq
    change BraceScan.after {} (command.toList ++ "\x7b".toList) = _
    rw [BraceScan.after_append, hafter]
    rfl
  | closeInline delimiter =>
    obtain rfl : delimiter = "\x7d" := hp rfl
    rfl
  | block value =>
    have hvalue : Leads value.toList 0 0 := hp rfl
    exact hvalue.scan_eq
  | setDirection d | openRun d => cases d <;> rfl
  | _ => rfl

/-- Where each command and fragment is balanced, the braces of pieces are their groups. -/
theorem scan_pieces (hps : ∀ p ∈ ps, markAt? p = none → p.IsBraced) :
    scanBraces (latexOf ps) = ⟨false, nestingOf ps⟩ := by
  have hfrom : ∀ depth, BraceScan.after ⟨false, depth⟩ (latexOf ps) = ⟨false, depth + nestingOf ps⟩ := by
    induction ps with
    | nil => simp [latexOf, nestingOf]
    | cons p ps ih =>
      intro depth
      obtain ⟨hp, hlater⟩ := List.forall_mem_cons.1 hps
      have hpiece : BraceScan.after {} p.latex = ⟨false, nestingAt p⟩ := scan_piece hp
      have hdeeper := BraceScan.after_deeper {} depth p.latex
      rw [hpiece] at hdeeper
      have hone : BraceScan.after ⟨false, depth⟩ p.latex = ⟨false, depth + nestingAt p⟩ := by
        simpa [Int.add_comm] using hdeeper
      rw [latexOf_cons, BraceScan.after_append, hone, ih hlater, nestingOf_cons, Int.add_assoc]
  have hstart := hfrom 0
  rwa [Int.zero_add] at hstart

/-! ### The end of an argument -/

/-- What stands between the fragment that opens an argument and the end of that argument: all that is opened in it is
closed in it. -/
structure IsArgument (a : Argument) (rest content after : List Piece) : Prop where
  split : rest = content ++ .fragment a.ending :: after
  enclosed : enclosePieces [] content = some []
  nesting : nestingOf content = 0

/-- The first `]` outside braces is the one that ends the argument. -/
def EndsFirst (rest content : List Piece) : Prop := firstBracket? {} (latexOf rest) = some (latexOf content).length

/-- An argument in brackets is opened, with some pieces behind. -/
def OpensBracket (ps : List Piece) (a : Argument) (rest : List Piece) : Prop :=
  a.isBracketed = true ∧ ∃ before value, ps = before ++ .fragment value :: rest ∧ mark? value = some (.opens a)

/-- Every argument in brackets ends where it is closed. -/
def ArgumentsEnd (ps : List Piece) : Prop :=
  ∀ a rest, OpensBracket ps a rest → ∃ content after, IsArgument a rest content after ∧ EndsFirst rest content

namespace IsArgument

variable {a : Argument} {rest content after : List Piece}

/-- An argument ends at one place only. -/
theorem unique {content' after' : List Piece} (h : IsArgument a rest content after)
    (h' : IsArgument a rest content' after') : content = content' := by
  -- Where nothing is open, the end of an argument is out of place.
  have hends : encloseAt [] (.fragment a.ending) = none := by cases a <;> decide
  have hno : ∀ {first later : List Piece}, enclosePieces [] first = some [] →
      enclosePieces [] (first ++ .fragment a.ending :: later) ≠ some [] := by
    intro first later hfirst hlonger
    rw [enclosePieces_append, hfirst, Option.bind_some, enclosePieces_cons, hends] at hlonger
    cases hlonger
  rcases List.append_eq_append_iff.1 (h.split.symm.trans h'.split) with ⟨between, rfl, heq⟩ | ⟨between, rfl, heq⟩
  · cases between with
    | nil => rw [List.append_nil]
    | cons p between =>
      cases heq
      exact absurd h'.enclosed (hno h.enclosed)
  · cases between with
    | nil => rw [List.append_nil]
    | cons p between =>
      cases heq
      exact absurd h.enclosed (hno h'.enclosed)

/-- An argument ends first just if its braces are balanced and no piece of it shows a `]` where it stands. -/
theorem endsFirst_iff (h : IsArgument a rest content after) (ha : a.isBracketed = true) :
    EndsFirst rest content ↔ scanBraces (latexOf content) = {} ∧
      ∀ before p later, content = before ++ p :: later → p.showsBracket (scanBraces (latexOf before)) = false := by
  obtain ⟨s, hs⟩ : ∃ s, a.ending.toList = ']' :: s := by
    cases a with
    | short => exact ⟨['\x7b'], rfl⟩
    | label => exact ⟨[], rfl⟩
    | long | box => cases ha
  have hlatex : latexOf rest = latexOf content ++ ']' :: (s ++ latexOf after) := by
    have hending : (Piece.fragment a.ending).latex = ']' :: s := hs
    rw [h.split, latexOf_append, latexOf_cons, hending, List.cons_append]
  rw [EndsFirst, hlatex, firstBracket?_eq_length_iff, hasBracket_latexOf]
  rfl

/-- Where each command and fragment is balanced, it does just if no piece shows a `]` among the groups that are open. -/
theorem endsFirst_iff_of_braced (h : IsArgument a rest content after) (ha : a.isBracketed = true)
    (hbraced : ∀ p ∈ content, markAt? p = none → p.IsBraced) :
    EndsFirst rest content ↔
      ∀ before p later, content = before ++ p :: later → p.showsBracket ⟨false, nestingOf before⟩ = false := by
  have hbalanced : scanBraces (latexOf content) = {} := by rw [scan_pieces hbraced, h.nesting]
  have hscan : ∀ before p later, content = before ++ p :: later →
      scanBraces (latexOf before) = ⟨false, nestingOf before⟩ := by
    rintro before p later rfl
    exact scan_pieces fun q hq => hbraced q (List.mem_append_left _ hq)
  rw [h.endsFirst_iff ha]
  constructor
  · rintro ⟨-, hnone⟩ before p later heq
    rw [← hscan before p later heq]
    exact hnone before p later heq
  · intro hnone
    refine ⟨hbalanced, fun before p later heq => ?_⟩
    rw [hscan before p later heq]
    exact hnone before p later heq

end IsArgument

/-! ### Documents -/

theorem isStructural_of_mark {value : String} {m : Mark} (h : mark? value = some m) : isStructural value = true := by
  simp [isStructural, h]

theorem isStructural_ending (a : Argument) : isStructural a.ending = true := by
  cases a <;> decide

/-- Where all arguments match and structural commands keep out of runs, an argument that is opened has an end. -/
theorem exists_argument {placed : List Placed} (hread : readPieces [] ps = some (placed, []))
    (hmatch : matchAll [] placed = some []) (hapart : apartAll isStructural false ps = some false)
    {before rest : List Piece} {value : String} {a : Argument} (hps : ps = before ++ .fragment value :: rest)
    (hvalue : mark? value = some (.opens a)) : ∃ content after, IsArgument a rest content after := by
  subst hps
  obtain ⟨first, frames, found, hbefore, hrest, rfl⟩ := gather_append_inv hread
  obtain ⟨here, mid, behind, hopening, hlater, rfl⟩ := gather_cons_inv hrest
  cases hopening
  rw [matchAll_append] at hmatch
  obtain ⟨outer, hfirst, hmore⟩ := Option.bind_eq_some_iff.1 hmatch
  -- The argument is innermost behind its opening, and nothing is open at the end.
  have hclosed : matchAll ([] ++ (a, insideOf frames) :: outer) behind = some [] := by
    rw [List.singleton_append, matchAll_cons, matched?_mark hvalue] at hmore
    exact hmore
  obtain ⟨items, items', rfl, hitems⟩ := exists_closing hclosed (Nat.zero_le _)
  obtain ⟨content, p, after, inner, rfl, hcontent, hitem, hinside⟩ := readPieces_split rfl hlater
  obtain rfl : p = .fragment a.ending := by
    cases p <;> cases hitem
    rfl
  -- Outside runs the formatting around a place is all that is open there.
  have hframes : frames = (insideOf frames).reverse.map .inline :=
    frames_before_chosen hapart (isStructural_of_mark hvalue) hbefore
  have hinner : inner = (insideOf inner).reverse.map .inline := by
    have hbehind : apartAll isStructural false
        ((before ++ .fragment value :: content) ++ .fragment a.ending :: after) = some false := by
      simpa using hapart
    have hopened : readPieces [] (before ++ .fragment value :: content) =
        some (first ++ ([⟨.fragment value, insideOf frames⟩] ++ items), inner) :=
      gather_append_of hbefore (gather_cons _ rfl hcontent)
    exact frames_before_chosen hbehind (isStructural_ending a) hopened
  obtain rfl : inner = frames := by rw [hinner, hinside, ← hframes]
  have hnesting := nestingOf_read hcontent hitems
  refine ⟨content, after, rfl, enclosePieces_read hcontent hitems, ?_⟩
  omega

/-- Whatever the document, each argument in brackets that its output opens, the short form of a heading or the label of a
term, has an end of its own. The first `]` outside braces is this end just if the braces of the argument are balanced and
no piece of it shows a `]` where it stands. Where each command and fragment in it is balanced, the braces around a piece
are the formatting, the runs and the arguments that are open there. -/
theorem document_arguments_end_iff (document : Element) (title? : Option String) (lang : String)
    (options : ArticleOptions) (warned : List String) :
    Leaves (typesetDocument document title? lang) (start options (.known options.direction) warned)
      (fun _ t => ∀ a rest, OpensBracket t.emitter.output a rest → ∃ content after, IsArgument a rest content after ∧
        (EndsFirst rest content ↔ scanBraces (latexOf content) = {} ∧
          ∀ before p later, content = before ++ p :: later → p.showsBracket (scanBraces (latexOf before)) = false) ∧
        ((∀ p ∈ content, markAt? p = none → p.IsBraced) → (EndsFirst rest content ↔
          ∀ before p later, content = before ++ p :: later → p.showsBracket ⟨false, nestingOf before⟩ = false)))
      fun _ _ => True := by
  refine (typesetDocument_skeleton document title? lang options warned).imp_left fun _ t h => ?_
  obtain ⟨l, placed, -, hread, hskeleton, hapart⟩ := h
  rintro a rest ⟨ha, before, value, houtput, hvalue⟩
  have hmatch : matchAll [] placed = some [] := by
    rw [← matchAll_filter, hskeleton]
    exact l.matched [] []
  obtain ⟨content, after, hargument⟩ := exists_argument hread hmatch hapart houtput hvalue
  exact ⟨content, after, hargument, hargument.endsFirst_iff ha, hargument.endsFirst_iff_of_braced ha⟩

/-- A heading with a bracket in its text. -/
def bracketHeading : Element :=
  { name := "[document]"
    children := [.element "h2" [] [.text .plain ['a', ']', 'b']]] }

/-- Whether an output begins with a short form and, right behind it, a text that shows a bracket. -/
def beginsWithBracket : List Piece → Bool
  | .fragment value :: .text style source :: _ => mark? value == some (.opens .short) && style.showsBracket source
  | _ => false

/-- The short form of the heading ends at the bracket of the text. -/
theorem bracketHeading_ends_early : ∃ t,
    (typesetDocument bracketHeading none "en").perform (start {} (.known .ltr) []) = (.ok (), t) ∧
      ¬ ArgumentsEnd t.emitter.output := by
  have hok : ((typesetDocument bracketHeading none "en").perform (start {} (.known .ltr) [])).1.toBool = true := by
    decide +kernel
  have hshape : beginsWithBracket
      ((typesetDocument bracketHeading none "en").perform (start {} (.known .ltr) [])).2.emitter.output = true := by
    decide +kernel
  generalize (typesetDocument bracketHeading none "en").perform (start {} (.known .ltr) []) = r at hok hshape
  obtain ⟨_ | _, t⟩ := r
  · cases hok
  · refine ⟨t, rfl, fun hend => ?_⟩
    unfold beginsWithBracket at hshape
    split at hshape
    next value style source rest houtput =>
      simp only [Bool.and_eq_true, beq_iff_eq] at hshape
      obtain ⟨hvalue, hshows⟩ := hshape
      obtain ⟨content, after, hargument, hfirst⟩ := hend .short _ ⟨rfl, [], value, houtput, hvalue⟩
      obtain ⟨-, hnone⟩ := (hargument.endsFirst_iff rfl).1 hfirst
      cases content with
      | nil => cases hargument.split
      | cons p content =>
        cases hargument.split
        cases hshows.symm.trans (hnone [] (.text style source) content rfl)
    next => cases hshape

end WikiTypeset.Article
