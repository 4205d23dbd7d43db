import WikiTypeset.Proofs.Article.Documents

/-!
# The texts that are lost

A list whose items are formulas is typeset as these formulas alone, and a line break has no content. Text that stands
there is lost, and no other text is. Main statements: `textsOf_eq_iff`, by which the texts of a node are all typeset just
if it keeps its texts, and `document_texts`, which says so of documents.
-/

namespace WikiTypeset.Article

open Html Latex

variable {o : ArticleOptions} {headed : Bool}

mutual

/-- Whether no text of a node is lost, in a heading or outside. -/
def keepsTexts (o : ArticleOptions) (headed : Bool) : Node → Bool
  | .text _ _ => true
  | .element name attributes children =>
    match ownRole ⟨name, attributes, children⟩ with
    | .hidden | .backLink | .math | .table | .image | .figure | .multipleImage => true
    | .lineBreak | .wordBreak => (allTextsOf o true headed children).isEmpty
    | .references => itemsKeepTexts o headed children
    | .heading => isUntitled o headed ⟨name, attributes, children⟩ || allKeepTexts o true children
    | .descriptionList =>
      if isFormulaList ⟨name, attributes, children⟩ then (allTextsOf o true headed children).isEmpty
      else allKeepTexts o headed children
    | _ => allKeepTexts o headed children

/-- Whether no text of nodes is lost. -/
def allKeepTexts (o : ArticleOptions) (headed : Bool) : List Node → Bool
  | [] => true
  | n :: ns => keepsTexts o headed n && allKeepTexts o headed ns

/-- Whether no text is lost in the elements among the nodes, which are items. -/
def itemsKeepTexts (o : ArticleOptions) (headed : Bool) : List Node → Bool
  | [] => true
  | .element _ _ children :: ns => allKeepTexts o headed children && itemsKeepTexts o headed ns
  | .text _ _ :: ns => itemsKeepTexts o headed ns

end

/-! ### What is left of texts -/

/-- Some texts are left of others, in their order, and they are all of them just if nothing is lost. -/
structure LeftOf (kept : Bool) (W W' : List (List Char)) : Prop where
  sublist : W.Sublist W'
  eq_iff : W = W' ↔ kept = true

namespace LeftOf

variable {kept kept' : Bool} {W W' V V' : List (List Char)}

theorem all (W : List (List Char)) : LeftOf true W W := ⟨.refl W, by simp⟩

/-- None are left of texts. -/
theorem none (W : List (List Char)) : LeftOf W.isEmpty [] W := by
  refine ⟨W.nil_sublist, ?_⟩
  rw [List.isEmpty_iff]
  exact eq_comm

theorem append (h : LeftOf kept W W') (h' : LeftOf kept' V V') : LeftOf (kept && kept') (W ++ V) (W' ++ V') := by
  refine ⟨h.sublist.append h'.sublist, ?_⟩
  rw [Bool.and_eq_true, ← h.eq_iff, ← h'.eq_iff]
  refine ⟨fun heq => ?_, fun ⟨hW, hV⟩ => by rw [hW, hV]⟩
  -- Neither part can make up for what the other one has lost.
  have hlength := congrArg List.length heq
  have hle := h.sublist.length_le
  have hle' := h'.sublist.length_le
  simp only [List.length_append] at hlength
  exact ⟨h.sublist.eq_of_length (by omega), h'.sublist.eq_of_length (by omega)⟩

/-- Twice the same texts. -/
theorem twice (h : LeftOf kept W W') : LeftOf kept (W ++ W) (W' ++ W') := by
  have htwice := h.append h
  rwa [Bool.and_self] at htwice

theorem cons (h : LeftOf kept W W') (text : List Char) : LeftOf kept (text :: W) (text :: W') := by
  have hall := (all [text]).append h
  rwa [Bool.true_and] at hall

end LeftOf

mutual

theorem textsOf_left (o : ArticleOptions) (headed : Bool) (n : Node) :
    LeftOf (keepsTexts o headed n) (textsOf o false headed n) (textsOf o true headed n) := by
  cases n with
  | text kind s =>
    rw [keepsTexts, textsOf, textsOf]
    exact .all _
  | element name attributes children =>
    have hall := allTextsOf_left o headed children
    have hheading := allTextsOf_left o true children
    have hitems := itemTextsOf_left o headed children
    rw [keepsTexts, textsOf, textsOf]
    cases ownRole ⟨name, attributes, children⟩ with
    | hidden | backLink | math | table | image | figure | multipleImage => exact .all _
    | lineBreak => exact .none _
    | wordBreak => exact (LeftOf.none _).cons _
    | references => exact hitems
    | heading =>
      cases isUntitled o headed ⟨name, attributes, children⟩ with
      | true => exact .all _
      | false => exact hheading.twice
    | descriptionList =>
      cases isFormulaList ⟨name, attributes, children⟩ with
      | true => exact .none _
      | false => exact hall
    | _ => exact hall

theorem allTextsOf_left (o : ArticleOptions) (headed : Bool) (ns : List Node) :
    LeftOf (allKeepTexts o headed ns) (allTextsOf o false headed ns) (allTextsOf o true headed ns) := by
  cases ns with
  | nil =>
    rw [allKeepTexts, allTextsOf, allTextsOf]
    exact .all _
  | cons n ns =>
    rw [allKeepTexts, allTextsOf, allTextsOf]
    exact (textsOf_left o headed n).append (allTextsOf_left o headed ns)

theorem itemTextsOf_left (o : ArticleOptions) (headed : Bool) (ns : List Node) :
    LeftOf (itemsKeepTexts o headed ns) (itemTextsOf o false headed ns) (itemTextsOf o true headed ns) := by
  match ns with
  | [] =>
    rw [itemsKeepTexts, itemTextsOf, itemTextsOf]
    exact .all _
  | .element name attributes children :: ns =>
    rw [itemsKeepTexts, itemTextsOf, itemTextsOf]
    exact (allTextsOf_left o headed children).append (itemTextsOf_left o headed ns)
  | .text kind s :: ns =>
    rw [itemsKeepTexts, itemTextsOf, itemTextsOf]
    exact itemTextsOf_left o headed ns

end

/-- The texts of a node are all typeset just if it keeps them. -/
theorem textsOf_eq_iff (n : Node) : textsOf o false headed n = textsOf o true headed n ↔ keepsTexts o headed n = true :=
  (textsOf_left o headed n).eq_iff

/-! ### Documents -/

theorem keepsTexts_of_heading {e : Element} (h : ownRole e = .heading) (hall : allKeepTexts o true e.children = true) :
    keepsTexts o headed e.toNode = true := by
  obtain ⟨name, attributes, children⟩ := e
  rw [Element.toNode, keepsTexts, h]
  simpa using .inr hall

/-- A title keeps its text. -/
theorem titleHeading_keeps (title lang : String) : keepsTexts o false (titleHeading title lang).toNode = true := by
  let bare : Element := { name := "span", children := [.text .plain title.toList] }
  have hspan : ownRole ⟨"span", [⟨"lang", .text lang⟩], bare.children⟩ = .children := by
    refine (ownRole_likens (bare.likens_withAttr (.inl rfl) (.text lang))).trans ?_
    rw [ownRole_eq, Element.isHidden, Element.isMultipleImage]
    rfl
  have hkeeps : keepsTexts o true (.element "span" [⟨"lang", .text lang⟩] bare.children) = true := by
    rw [keepsTexts, hspan]
    rfl
  refine keepsTexts_of_heading ?_ ?_
  · rw [ownRole_eq, Element.isHidden, Element.isMultipleImage]
    rfl
  · show (keepsTexts o true (.element "span" [⟨"lang", .text lang⟩] bare.children) && true) = true
    rw [hkeeps]
    rfl

/-- Whether a document keeps its texts. -/
def documentKeepsTexts (o : ArticleOptions) (document : Element) : Bool :=
  keepsTexts o false (bodyPlace document).element.toNode

theorem documentTexts_left (o : ArticleOptions) (document : Element) (title? : Option String) (lang : String) :
    LeftOf (documentKeepsTexts o document) (documentTexts o false document title? lang)
      (documentTexts o true document title? lang) := by
  have hbody := textsOf_left o false (bodyPlace document).element.toNode
  cases title? with
  | none => exact hbody
  | some title =>
    have htitle := textsOf_left o false (titleHeading title lang).toNode
    rw [titleHeading_keeps] at htitle
    have hall := htitle.append hbody
    rwa [Bool.true_and] at hall

/-- Whatever the document, the texts that are typeset are texts of the document in their order, and they are all of them
just if it keeps its texts: no text stands beside the formulas of a list that only indents them, and none in a line
break. -/
theorem document_texts (document : Element) (title? : Option String) (lang : String) (options : ArticleOptions)
    (warned : List String) :
    Leaves (typesetDocument document title? lang) (start options (.known options.direction) warned)
      (fun _ t => ∃ l : Layout,
        (performAll (l.program ++ [.flush])).perform (Emitter.start (.known options.direction)) = (.ok (), t.emitter) ∧
          l.wording = documentTexts options false document title? lang ∧
          l.wording.Sublist (documentTexts options true document title? lang) ∧
          (l.wording = documentTexts options true document title? lang ↔ documentKeepsTexts options document = true))
      fun c _ => ∀ cause, c = .emit cause → ∃ reason, cause = .analysis reason := by
  refine (typesetDocument_words document title? lang options warned).imp_left fun _ t h => ?_
  obtain ⟨l, hwording, -, -, hperform⟩ := h
  obtain ⟨hsublist, heq⟩ := documentTexts_left options document title? lang
  rw [← hwording] at hsublist heq
  exact ⟨l, hperform, hwording, hsublist, heq⟩

/-- A list of one definition, which has a text beside its formula. -/
def indentedFormula : Element :=
  { name := "[document]"
    children := [.element "dl" [] [.element "dd" [] [.text .plain ['a'],
      .element "span" [⟨"typeof", .text "mw:Extension/math"⟩,
        ⟨"data-mw", .text "\x7b\"body\":\x7b\"extsrc\":\"x\"\x7d\x7d"⟩] []]]] }

/-- The text is one of the document, but nothing is typeset except the formula. -/
theorem indentedFormula_loses_text : documentTexts {} true indentedFormula none "en" = [['a']] ∧
    ∃ t, (typesetDocument indentedFormula none "en").perform (start {} (.known .ltr) []) = (.ok (), t) ∧
      t.emitter.latex = "\\begin\x7bequation*\x7d\n\x7bx\x7d\n\\end\x7bequation*\x7d\n".toList := by
  have hok : ((typesetDocument indentedFormula none "en").perform (start {} (.known .ltr) [])).1.toBool = true := by
    decide +kernel
  have hlatex : ((typesetDocument indentedFormula none "en").perform (start {} (.known .ltr) [])).2.emitter.latex =
      "\\begin\x7bequation*\x7d\n\x7bx\x7d\n\\end\x7bequation*\x7d\n".toList := by decide +kernel
  refine ⟨by decide +kernel, ?_⟩
  rcases hperform : (typesetDocument indentedFormula none "en").perform (start {} (.known .ltr) []) with ⟨c | _, t⟩
  · simp [hperform, Except.toBool] at hok
  · rw [hperform] at hlatex
    exact ⟨t, rfl, hlatex⟩

end WikiTypeset.Article
