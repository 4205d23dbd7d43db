import WikiTypeset.Proofs.Article.Documents
import WikiTypeset.Proofs.Article.Enclosure
import WikiTypeset.Proofs.Emission.Detached

/-!
# Structural commands and the formatting around them

Environments and headings put the formatting that is open aside, but what begins an item or a term is a fragment like any
other. `Layout.skeleton` lists the structural commands of a layout with the formatting around each. Main statement:
`document_commands_outside_iff`, by which all of them stand outside formatting and runs but for items and terms inside
formatting.
-/

namespace WikiTypeset.Article

open Action Latex Typeset Html

/-! ### Structural commands -/

/-- Whether a fragment begins an item or a term. -/
def isItem (value : String) : Bool := "\\item".toList.isPrefixOf value.toList

/-- Whether a fragment begins an item or does something to arguments. -/
def isStructural (value : String) : Bool := isItem value || (mark? value).isSome

/-- Whether an item is a block or a structural fragment. -/
def isCommand (q : Placed) : Bool :=
  match q.item with
  | .char _ => false
  | .fragment value => isStructural value
  | .block _ => true

@[simp] theorem isCommand_fragment (value : String) (inside : List Wrapper) :
    isCommand ⟨.fragment value, inside⟩ = isStructural value := rfl

@[simp] theorem isCommand_block (value : String) (inside : List Wrapper) : isCommand ⟨.block value, inside⟩ = true := rfl

theorem isItem_itemMark (reference? : Option (Nat × String)) : isItem (itemMark reference?) = true := by
  cases reference? with
  | none => decide
  | some reference =>
    obtain ⟨number, id⟩ := reference
    simp [isItem, itemMark]

/-- A fragment that begins otherwise begins no item. -/
theorem not_isItem_of_starts {s : List Char} (hs : s.isPrefixOf "\\item".toList = false)
    (hs' : "\\item".toList.isPrefixOf s = false) {value : String} (h : s <+: value.toList) : isItem value = false := by
  by_contra hitem
  have hprefix : "\\item".toList <+: value.toList := List.isPrefixOf_iff_prefix.1 (by simpa [isItem] using hitem)
  rcases List.prefix_or_prefix_of_prefix h hprefix with hshort | hlong
  · cases hs.symm.trans (List.isPrefixOf_iff_prefix.2 hshort)
  · cases hs'.symm.trans (List.isPrefixOf_iff_prefix.2 hlong)

theorem not_isStructural {value : String} (hitem : isItem value = false) (hmark : value ∉ argumentMarks) :
    isStructural value = false := by
  rw [isStructural, hitem, mark?_other hmark]
  rfl

theorem IsContent.not_isStructural {value : String} (h : IsContent value) : isStructural value = false := by
  obtain ⟨s, hs, hstarts⟩ := h.starts
  have hshorter : ∀ s ∈ contentStarts, s.isPrefixOf "\\item".toList = false := by decide
  have hlonger : ∀ s ∈ contentStarts, "\\item".toList.isPrefixOf s = false := by decide
  exact Article.not_isStructural (not_isItem_of_starts (hshorter s hs) (hlonger s hs) hstarts) h.not_mark

theorem style_not_isStructural {value : String} (h : value ∈ styleFragments) : isStructural value = false :=
  (by decide : ∀ value ∈ styleFragments, isStructural value = false) value h

theorem ltrFontCommand_not_isStructural {l : Language} {command : String} (h : l.ltrFontCommand? = some command) :
    isStructural command = false :=
  not_isStructural (not_isItem_of_starts (by decide) (by decide) (ltrFontCommand_starts h)) (ltrFontCommand_not_mark h)

theorem isStructural_shortOpening {command : String} (h : command ∈ sectionCommands) :
    isStructural (shortOpening command) = true := by
  rw [isStructural, mark?_short h]
  simp

/-! ### Structural commands stand outside runs -/

theorem detach_styleOperations {styles : List String} (h : ∀ style ∈ styles, style ∈ styleFragments) :
    detachAll? isStructural false (styleOperations styles) = some false := by
  induction styles with
  | nil => rfl
  | cons style styles ih =>
    obtain ⟨hstyle, hstyles⟩ := List.forall_mem_cons.1 h
    have hone := style_not_isStructural hstyle
    have hrest := ih hstyles
    simpa [styleOperations, detachAll?, Operation.detach?, Decoration.raw, Decoration.isChosen, hone] using hrest

theorem detach_enteringLanguage (l : Language) (coverage? : Option Bool) :
    detachAll? isStructural false (enteringLanguage l coverage?) = some false := by
  cases hfont : l.ltrFontCommand? with
  | none => cases coverage? <;> simp [enteringLanguage, fontOperations, hfont, detachAll?, Operation.detach?]
  | some command =>
    have hcommand := ltrFontCommand_not_isStructural hfont
    cases coverage? <;> simp [enteringLanguage, fontOperations, hfont, detachAll?, Operation.detach?, Decoration.raw,
      Decoration.isChosen, hcommand]

theorem detach_headingText {os : List Operation} (h : detachAll? isStructural false os = some false) (late : Bool)
    (language? : Option HeadingLanguage) : detachAll? isStructural late (headingText language? os) = some false := by
  cases language? with
  | none =>
    have hlast : detachAll? isStructural false [.dirBreak] = some false := rfl
    simpa [headingText, detachAll?, Operation.detach?] using detachAll?_append_of h hlast
  | some l => simp [headingText, detachAll?, Operation.detach?, h]

theorem detach_termText {os : List Operation} (h : detachAll? isStructural false os = some false) (long : Bool) :
    detachAll? isStructural false (termText long os) = some false := by
  have hopening : detachAll? isStructural false (.record (.raw labelOpening) ::
      (if long then [.record (.raw boxOpening)] else []) ++ [.dirBreak, .resetLine]) = some false := by
    cases long <;> rfl
  have hclosing : detachAll? isStructural false (.dirBreak :: (if long then [.record (.raw "\x7d")] else []) ++
      [.record (.raw "]"), .dirBreak]) = some false := by
    cases long <;> rfl
  have hall := detachAll?_append_of hopening (detachAll?_append_of h hclosing)
  simpa [termText] using hall

/-- A layout writes nothing between a structural command and the next turn. -/
theorem Layout.detach (l : Layout) : detachAll? isStructural false l.program = some false := by
  induction l with
  | empty => rfl
  | append _ _ ih ih' => exact detachAll?_append_of ih ih'
  | step o ho => cases o <;> first | rfl | cases ho
  | fragment value h =>
    have hvalue := h.not_isStructural
    simp [program, detachAll?, Operation.detach?, Decoration.raw, Decoration.isChosen, hvalue]
  | wrap _ _ _ ih => simpa [program, detachAll?, Operation.detach?] using ih
  | languageInline code withOptions _ ih => simpa [program, detachAll?, Operation.detach?] using ih
  | resuming _ ih => simp [program, detachAll?, Operation.detach?, ih]
  | environment env options _ _ styles hstyles _ ih ih' =>
    have hstyle := detach_styleOperations hstyles
    have hend : detachAll? isStructural false [.endEnv env] = some false := rfl
    exact detachAll?_append_of (detachAll?_append_of (detachAll?_append_of ih hstyle) ih') hend
  | languageBlock code coverage? styles hstyles _ ih =>
    have hopening := detach_enteringLanguage (.ofCode code) coverage?
    have hstyle := detach_styleOperations hstyles
    exact detachAll?_append_of (detachAll?_append_of hopening (detachAll?_append_of hstyle ih)) rfl
  | item reference? => simp [program, detachAll?, Operation.detach?, Decoration.raw]
  | term long _ ih => exact detach_termText ih long
  | heading command hcommand shortLanguage? language? _ _ ih ih' =>
    have hopening : detachAll? isStructural false [.deepenToc 1, .record (.raw (shortOpening command))] = some true := by
      simp [detachAll?, Operation.detach?, Decoration.raw, Decoration.isChosen, isStructural_shortOpening hcommand]
    have hshort := detach_headingText ih true shortLanguage?
    have hturn : detachAll? isStructural false [.deepenToc (-1), .record (.raw "]\x7b")] = some true := rfl
    have htext := detach_headingText ih' true language?
    have hclosing : detachAll? isStructural false [.record (.raw "\x7d")] = some true := rfl
    have hcontent := detachAll?_append_of (detachAll?_append_of (detachAll?_append_of
      (detachAll?_append_of hopening hshort) hturn) htext) hclosing
    simpa [program] using detachAll?_isolated hcontent

/-! ### The skeleton of a layout -/

/-- The formatting around the text of a heading, inside the heading. -/
def headingWrappers : Option HeadingLanguage → List Wrapper
  | none => []
  | some l => [⟨languageCommand (.ofCode l.code) l.withOptions, {}⟩]

/-- The structural commands of a layout, in order, with the formatting around them. -/
def Layout.skeleton (inside : List Wrapper) : Layout → List Placed
  | empty | step .. | fragment .. => []
  | append first second => first.skeleton inside ++ second.skeleton inside
  | wrap command _ content => content.skeleton (inside ++ [⟨command, {}⟩])
  | languageInline code withOptions content =>
    content.skeleton (inside ++ [⟨languageCommand (.ofCode code) withOptions, {}⟩])
  | resuming content => content.skeleton inside
  | environment env options _ before _ _ content =>
    ⟨.block (beginCommand env options), []⟩ :: (before.skeleton inside ++ content.skeleton inside) ++
      [⟨.block (endCommand env), []⟩]
  | languageBlock code _ _ _ content =>
    ⟨.block (beginCommand (Language.ofCode code).environment (Language.ofCode code).options), []⟩ ::
      content.skeleton inside ++ [⟨.block (endCommand (Language.ofCode code).environment), []⟩]
  | item reference? => [⟨.fragment (itemMark reference?), inside⟩]
  | term long content =>
    ⟨.fragment labelOpening, inside⟩ :: (if long then [⟨.fragment boxOpening, inside⟩] else []) ++
      content.skeleton inside ++ (if long then [⟨.fragment "\x7d", inside⟩] else []) ++ [⟨.fragment "]", inside⟩]
  | heading command _ shortLanguage? language? short text =>
    ⟨.fragment (shortOpening command), []⟩ :: short.skeleton (headingWrappers shortLanguage?) ++
      [⟨.fragment "]\x7b", []⟩] ++ text.skeleton (headingWrappers language?) ++ [⟨.fragment "\x7d", []⟩]

variable {inside : List Wrapper}

theorem marksIn_styleOperations {styles : List String} (h : ∀ style ∈ styles, style ∈ styleFragments) :
    (marksIn inside (styleOperations styles)).filter isCommand = [] := by
  induction styles with
  | nil => rfl
  | cons style styles ih =>
    obtain ⟨hstyle, hstyles⟩ := List.forall_mem_cons.1 h
    have hone := style_not_isStructural hstyle
    have hrest := ih hstyles
    simpa [styleOperations, marksIn, Operation.marks, Decoration.raw, List.filter_cons, hone] using hrest

theorem marksIn_enteringLanguage (l : Language) (coverage? : Option Bool) :
    (marksIn inside (enteringLanguage l coverage?)).filter isCommand =
      [⟨.block (beginCommand l.environment l.options), []⟩] := by
  cases hfont : l.ltrFontCommand? with
  | none => cases coverage? <;> simp [enteringLanguage, fontOperations, hfont, marksIn, Operation.marks]
  | some command =>
    have hcommand := ltrFontCommand_not_isStructural hfont
    cases coverage? <;> simp [enteringLanguage, fontOperations, hfont, marksIn, Operation.marks, Decoration.raw,
      List.filter_cons, hcommand]

theorem marksIn_headingText (language? : Option HeadingLanguage) (os : List Operation) :
    marksIn inside (headingText language? os) = marksIn (inside ++ headingWrappers language?) os := by
  cases language? <;> simp [headingText, headingWrappers, marksIn, marksIn_append, Operation.marks]

/-- The skeleton of a layout is what its program places. -/
theorem Layout.marksIn_program (l : Layout) (inside : List Wrapper) :
    (marksIn inside l.program).filter isCommand = l.skeleton inside := by
  induction l generalizing inside with
  | empty => rfl
  | append _ _ ih ih' => rw [program, marksIn_append, List.filter_append, ih, ih', skeleton]
  | step o ho => cases o <;> first | rfl | cases ho
  | fragment value h =>
    have hvalue := h.not_isStructural
    simp [program, skeleton, marksIn, Operation.marks, Decoration.raw, hvalue]
  | wrap _ _ _ ih => simp [program, skeleton, marksIn, Operation.marks, ih]
  | languageInline code withOptions _ ih => simp [program, skeleton, marksIn, Operation.marks, ih]
  | resuming _ ih => simp [program, skeleton, marksIn, Operation.marks, ih]
  | environment env options _ _ styles hstyles _ ih ih' =>
    have hstyle : (marksIn inside (styleOperations styles)).filter isCommand = [] := marksIn_styleOperations hstyles
    simp [program, skeleton, marksIn, marksIn_append, Operation.marks, List.filter_cons, hstyle, ih, ih']
  | languageBlock code coverage? styles hstyles _ ih =>
    have hstyle : (marksIn inside (styleOperations styles)).filter isCommand = [] := marksIn_styleOperations hstyles
    simp [program, skeleton, marksIn, marksIn_append, Operation.marks, List.filter_cons, marksIn_enteringLanguage, hstyle, ih]
  | item reference? =>
    have hitem : isStructural (itemMark reference?) = true := by simp [isStructural, isItem_itemMark]
    simp [program, skeleton, marksIn, Operation.marks, Decoration.raw, hitem]
  | term long _ ih =>
    have hlabel : isStructural labelOpening = true := by decide
    have hbox : isStructural boxOpening = true := by decide
    have hbrace : isStructural "\x7d" = true := by decide
    have hbracket : isStructural "]" = true := by decide
    cases long <;> simp [program, termText, skeleton, marksIn, marksIn_append, Operation.marks, Decoration.raw,
      hlabel, hbox, hbrace, hbracket, ih]
  | heading command hcommand shortLanguage? language? _ _ ih ih' =>
    have hopening := isStructural_shortOpening hcommand
    have hturn : isStructural "]\x7b" = true := by decide
    have hclosing : isStructural "\x7d" = true := by decide
    simp [program, skeleton, marksIn, marksIn_append, marksIn_headingText, Operation.marks, Decoration.raw,
      hopening, hturn, hclosing, ih, ih']

/-! ### Commands inside formatting -/

/-- Whether an item begins or ends an environment or begins a heading. -/
def isBoundary : Item → Bool
  | .char _ => false
  | .fragment value => decide (value ∈ sectionCommands.map shortOpening)
  | .block _ => true

/-- Whether an item begins an item of a list or a term. -/
def beginsItem : Item → Bool
  | .fragment value => isItem value
  | _ => false

/-- Whether an item stands outside formatting if it is one of some kind. -/
def standsOutside (kind : Item → Bool) (q : Placed) : Bool := !kind q.item || q.inside.isEmpty

@[simp] theorem standsOutside_nil (kind : Item → Bool) (i : Item) : standsOutside kind ⟨i, []⟩ = true := by
  simp [standsOutside]

theorem standsOutside_other {kind : Item → Bool} {i : Item} (h : kind i = false) (inside : List Wrapper) :
    standsOutside kind ⟨i, inside⟩ = true := by
  simp [standsOutside, h]

theorem standsOutside_of_kind {kind : Item → Bool} {i : Item} (h : kind i = true) (inside : List Wrapper) :
    standsOutside kind ⟨i, inside⟩ = inside.isEmpty := by
  simp [standsOutside, h]

/-- Whether all items and terms of a layout stand outside formatting, if `outside` says that the layout does. -/
def Layout.itemsOutside (outside : Bool) : Layout → Bool
  | empty | step .. | fragment .. => true
  | append first second => first.itemsOutside outside && second.itemsOutside outside
  | wrap _ _ content | languageInline _ _ content => content.itemsOutside false
  | resuming content => content.itemsOutside outside
  | environment _ _ _ before _ _ content => before.itemsOutside outside && content.itemsOutside outside
  | languageBlock _ _ _ _ content => content.itemsOutside outside
  | item _ => outside
  | term _ content => outside && content.itemsOutside outside
  | heading _ _ shortLanguage? language? short text =>
    short.itemsOutside shortLanguage?.isNone && text.itemsOutside language?.isNone

theorem not_isBoundary_itemMark (reference? : Option (Nat × String)) :
    isBoundary (.fragment (itemMark reference?)) = false := by
  have hmark := itemMark_not_mark reference?
  simp only [argumentMarks, List.mem_append, not_or] at hmark
  simpa [isBoundary] using hmark.1

/-- Environments and headings stand outside formatting, wherever the layout stands. -/
theorem Layout.boundaries_outside (l : Layout) (inside : List Wrapper) :
    (l.skeleton inside).all (standsOutside isBoundary) = true := by
  induction l generalizing inside with
  | empty | step | fragment => rfl
  | append _ _ ih ih' => simp [skeleton, ih, ih']
  | wrap _ _ _ ih | languageInline _ _ _ ih | resuming _ ih => exact ih _
  | environment _ _ _ _ _ _ _ ih ih' => simp [skeleton, ih, ih']
  | languageBlock _ _ _ _ _ ih => simp [skeleton, ih]
  | item reference? => simp [skeleton, standsOutside_other (not_isBoundary_itemMark reference?)]
  | term long _ ih =>
    have hmarks : ∀ value ∈ [labelOpening, boxOpening, "\x7d", "]"], isBoundary (.fragment value) = false := by decide
    simp only [List.forall_mem_cons] at hmarks
    obtain ⟨hlabel, hbox, hbrace, hbracket, -⟩ := hmarks
    cases long <;> simp [skeleton, ih, standsOutside_other hlabel, standsOutside_other hbox, standsOutside_other hbrace,
      standsOutside_other hbracket]
  | heading _ _ shortLanguage? language? _ _ ih ih' => simp [skeleton, ih, ih']

theorem isEmpty_headingWrappers (language? : Option HeadingLanguage) :
    (headingWrappers language?).isEmpty = language?.isNone := by
  cases language? <;> rfl

/-- What begins items and terms stands outside formatting just if no item and no term comes inside formatting. -/
theorem Layout.items_outside (l : Layout) (inside : List Wrapper) :
    (l.skeleton inside).all (standsOutside beginsItem) = l.itemsOutside inside.isEmpty := by
  have hinner : ∀ (ws : List Wrapper) (w : Wrapper), (ws ++ [w]).isEmpty = false := fun ws w => by cases ws <;> rfl
  induction l generalizing inside with
  | empty | step | fragment => rfl
  | append _ _ ih ih' => simp [skeleton, itemsOutside, ih inside, ih' inside]
  | wrap command _ _ ih =>
    have hcontent := ih (inside ++ [⟨command, {}⟩])
    rw [hinner] at hcontent
    simpa [skeleton, itemsOutside] using hcontent
  | languageInline code withOptions _ ih =>
    have hcontent := ih (inside ++ [⟨languageCommand (.ofCode code) withOptions, {}⟩])
    rw [hinner] at hcontent
    simpa [skeleton, itemsOutside] using hcontent
  | resuming _ ih => exact ih inside
  | environment _ _ _ _ _ _ _ ih ih' => simp [skeleton, itemsOutside, ih inside, ih' inside]
  | languageBlock _ _ _ _ _ ih => simp [skeleton, itemsOutside, ih inside]
  | item reference? =>
    have hitem : beginsItem (.fragment (itemMark reference?)) = true := isItem_itemMark reference?
    simp [skeleton, itemsOutside, standsOutside_of_kind hitem]
  | term long _ ih =>
    have hlabel : beginsItem (.fragment labelOpening) = true := by decide
    have hmarks : ∀ value ∈ [boxOpening, "\x7d", "]"], beginsItem (.fragment value) = false := by decide
    simp only [List.forall_mem_cons] at hmarks
    obtain ⟨hbox, hbrace, hbracket, -⟩ := hmarks
    cases long <;> simp [skeleton, itemsOutside, ih inside, standsOutside_of_kind hlabel, standsOutside_other hbox,
      standsOutside_other hbrace, standsOutside_other hbracket]
  | heading _ _ shortLanguage? language? _ _ ih ih' =>
    have hshort := ih (headingWrappers shortLanguage?)
    have htext := ih' (headingWrappers language?)
    rw [isEmpty_headingWrappers] at hshort htext
    simp [skeleton, itemsOutside, hshort, htext]

/-! ### Documents -/

/-- No formatting and no run is open after some pieces. -/
def IsOutside (ps : List Piece) : Prop := ∃ found, readPieces [] ps = some (found, [])

/-- The fragments and blocks of some kind stand outside all formatting and all runs. -/
def Outside (kind : Item → Bool) (ps : List Piece) : Prop :=
  ∀ before p after i, ps = before ++ p :: after → p.item? = some i → kind i = true → IsOutside before

theorem isChosen_of_item? {p : Piece} {i : Item} (h : p.item? = some i) (inside : List Wrapper) :
    p.isChosen isStructural = isCommand ⟨i, inside⟩ := by
  cases p <;> cases h <;> rfl

theorem isCommand_of_isBoundary (i : Item) (inside : List Wrapper) (h : isBoundary i = true) :
    isCommand ⟨i, inside⟩ = true := by
  cases i with
  | char c => cases h
  | fragment value =>
    obtain ⟨command, hcommand, rfl⟩ := List.mem_map.1 (of_decide_eq_true h)
    exact isStructural_shortOpening hcommand
  | block value => rfl

theorem isCommand_of_beginsItem (i : Item) (inside : List Wrapper) (h : beginsItem i = true) :
    isCommand ⟨i, inside⟩ = true := by
  cases i with
  | fragment value =>
    have hitem : isItem value = true := h
    simp [isStructural, hitem]
  | _ => cases h

/-- Commands that keep apart from runs stand outside just if no formatting is found around them. -/
theorem outside_iff {kind : Item → Bool} (hkind : ∀ i inside, kind i = true → isCommand ⟨i, inside⟩ = true)
    {ps : List Piece} {placed : List Placed} (hread : readPieces [] ps = some (placed, []))
    (hapart : apartAll isStructural false ps = some false) :
    Outside kind ps ↔ (placed.filter isCommand).all (standsOutside kind) = true := by
  rw [List.all_eq_true]
  constructor
  · intro houtside q hq
    obtain ⟨hplaced, hcommand⟩ := List.mem_filter.1 hq
    have hmark : q.isMark = true := by
      obtain ⟨_ | _ | _, inside⟩ := q <;> first | rfl | cases hcommand
    obtain ⟨before, p, after, first, mid, rfl, hbefore, hitem, hinside⟩ := (mem_readPieces hread hmark).1 hplaced
    cases hk : kind q.item with
    | false => exact standsOutside_other hk q.inside
    | true =>
      obtain ⟨found, hfound⟩ := houtside before p after q.item rfl hitem hk
      cases hbefore.symm.trans hfound
      rw [standsOutside, ← hinside]
      simp [insideOf]
  · rintro hall before p after i rfl hitem hk
    obtain ⟨first, mid, rest, hbefore, hrest, -⟩ := gather_append_inv hread
    have hcommand : isCommand ⟨i, insideOf mid⟩ = true := hkind i _ hk
    have hmark : Placed.isMark ⟨i, insideOf mid⟩ = true := by
      cases i <;> first | rfl | cases hcommand
    have hplaced : ⟨i, insideOf mid⟩ ∈ placed :=
      (mem_readPieces hread hmark).2 ⟨before, p, after, first, mid, rfl, hbefore, hitem, rfl⟩
    have hstands := hall _ (List.mem_filter.2 ⟨hplaced, hcommand⟩)
    rw [standsOutside_of_kind hk, List.isEmpty_iff] at hstands
    have hchosen : p.isChosen isStructural = true := (isChosen_of_item? hitem _).trans hcommand
    have hframes := frames_before_chosen hapart hchosen hbefore
    rw [hstands] at hframes
    obtain rfl : mid = [] := hframes
    exact ⟨first, hbefore⟩

/-- The output of a document has the structural commands of its layout, outside all runs. -/
theorem typesetDocument_skeleton (document : Element) (title? : Option String) (lang : String) (options : ArticleOptions)
    (warned : List String) :
    Leaves (typesetDocument document title? lang) (start options (.known options.direction) warned)
      (fun _ t => ∃ (l : Layout) (placed : List Placed),
        (performAll (l.program ++ [.flush])).perform (Emitter.start (.known options.direction)) = (.ok (), t.emitter) ∧
          readPieces [] t.emitter.output = some (placed, []) ∧ placed.filter isCommand = l.skeleton [] ∧
          apartAll isStructural false t.emitter.output = some false)
      fun _ _ => True := by
  refine (typesetDocument_lays document title? lang options _ warned).imp (fun _ t h => ?_) fun _ _ _ => trivial
  obtain ⟨l, hn, hperform⟩ := h
  have hflushed := flushed_tracks (sound_paragraph _) (.known options.direction) hn (List.Subset.refl _)
  obtain ⟨-, -, hread⟩ := hflushed.ok hperform
  have hdetach : detachAll? isStructural false (l.program ++ [.flush]) = some false := detachAll?_append_of l.detach rfl
  have hdetached := (performAll_detaches _ [] hdetach (start_detaches isStructural (.known options.direction))).ok hperform
  refine ⟨l, _, hperform, hread, ?_, hdetached.output⟩
  have hcommands : ∀ placed : List Placed, (marksOf placed).filter isCommand = placed.filter isCommand := by
    intro placed
    rw [marksOf, List.filter_filter]
    refine List.filter_congr fun q _ => ?_
    obtain ⟨_ | _ | _, inside⟩ := q <;> simp [Placed.isMark, isCommand]
  rw [← hcommands, marks_flushed, l.marksIn_program]

/-- Whatever the document, the beginnings and ends of its environments and the beginnings of its headings stand outside
all formatting and all runs of the output. What begins items and terms does so just if the layout has no item and no term
inside formatting. -/
theorem document_commands_outside_iff (document : Element) (title? : Option String) (lang : String)
    (options : ArticleOptions) (warned : List String) :
    Leaves (typesetDocument document title? lang) (start options (.known options.direction) warned)
      (fun _ t => ∃ l : Layout,
        (performAll (l.program ++ [.flush])).perform (Emitter.start (.known options.direction)) = (.ok (), t.emitter) ∧
          Outside isBoundary t.emitter.output ∧ (Outside beginsItem t.emitter.output ↔ l.itemsOutside true = true))
      fun _ _ => True := by
  refine (typesetDocument_skeleton document title? lang options warned).imp_left fun _ t h => ?_
  obtain ⟨l, placed, hperform, hread, hskeleton, hapart⟩ := h
  refine ⟨l, hperform, ?_, ?_⟩
  · rw [outside_iff isCommand_of_isBoundary hread hapart, hskeleton]
    exact l.boundaries_outside []
  · rw [outside_iff isCommand_of_beginsItem hread hapart, hskeleton, l.items_outside]
    rfl

/-- Formatting around a list. -/
def boldList : Element :=
  { name := "[document]"
    children := [.element "b" [] [.element "ul" [] [.element "li" [] [.text .plain ['x']]]]] }

/-- The item of the list begins inside the formatting. -/
theorem boldList_item_inside : ∃ t, (typesetDocument boldList none "en").perform (start {} (.known .ltr) []) = (.ok (), t) ∧
    ¬ Outside beginsItem t.emitter.output := by
  have hok : ((typesetDocument boldList none "en").perform (start {} (.known .ltr) [])).1.toBool = true := by decide +kernel
  have hinside : (readPieces []
      ((typesetDocument boldList none "en").perform (start {} (.known .ltr) [])).2.emitter.output).any
        (fun r => r.2.isEmpty && !(r.1.filter isCommand).all (standsOutside beginsItem)) = true := by decide +kernel
  have hapart : apartAll isStructural false
      ((typesetDocument boldList none "en").perform (start {} (.known .ltr) [])).2.emitter.output = some false := by
    decide +kernel
  rcases hperform : (typesetDocument boldList none "en").perform (start {} (.known .ltr) []) with ⟨c | _, t⟩
  · simp [hperform, Except.toBool] at hok
  · rw [hperform] at hinside hapart
    obtain ⟨⟨placed, frames⟩, hread, hany⟩ := (Option.any_eq_true _ _).1 hinside
    simp only [Bool.and_eq_true, List.isEmpty_iff, Bool.not_eq_true'] at hany
    obtain ⟨rfl, hnot⟩ := hany
    refine ⟨t, rfl, fun houtside => ?_⟩
    rw [outside_iff isCommand_of_beginsItem hread hapart, hnot] at houtside
    cases houtside

end WikiTypeset.Article
