import WikiTypeset.Proofs.Article.Origins
import WikiTypeset.Proofs.Article.Skeleton
import WikiTypeset.Proofs.Tex.Urls

/-!
# The arguments of links

A link has the text of an attribute in its argument, and so has the name of a reference. A resolved URL is escaped there;
the target of a link in the document and the name of a reference stand as they are. Main statement: `document_links`, by
which these arguments are harmless just if the braces of the URLs match, and the other attributes happen to be the
escaped forms of texts whose braces match.
-/

namespace WikiTypeset.Article

open Action Html Latex

/-! ### Links and what they are made from -/

/-- Whether a piece of output opens a link or gives a reference its name. -/
def hasLink : Piece → Bool
  | .openInline command _ =>
    "\\hyperlink\x7b".toList.isPrefixOf command.toList || "\\href\x7b".toList.isPrefixOf command.toList
  | .fragment value => "\\item[\\hypertarget\x7b".toList.isPrefixOf value.toList
  | _ => false

/-- The three ways from an attribute to an argument. -/
inductive LinkKind
  /-- A link to a place in the document. -/
  | target
  /-- A link to elsewhere. -/
  | url
  /-- The name of a reference. -/
  | name
  deriving DecidableEq, Repr

namespace LinkKind

/-- An element of a document with the given base provides a text for an argument. -/
def Provides (base : String) (e : Element) : LinkKind → List Char → Prop
  | target, s => e.name = "a" ∧ (e.attr "href").toList = '#' :: s
  | url, s => e.name = "a" ∧ e.attr "href" ≠ "" ∧ Reference.resolve base.toList (e.attr "href").toList = .ok s
  | name, s => s ≠ [] ∧ (e.attr "id").toList = s

/-- The argument that is made from a text. -/
def argument : LinkKind → List Char → List Char
  | url, s => escapeUrl s
  | target, s | name, s => s

/-- The piece has an argument of this kind. -/
def Fills (p : Piece) (argument : List Char) : LinkKind → Prop
  | target => ∃ delimiters, p = .openInline ("\\hyperlink\x7b" ++ String.ofList argument ++ "\x7d") delimiters
  | url => ∃ delimiters, p = .openInline ("\\href\x7b" ++ String.ofList argument ++ "\x7d") delimiters
  | name => ∃ number, p = .fragment (itemMark (some (number, String.ofList argument)))

/-- The argument that is made from a text will be harmless: the braces of the text match, and if it stands as it is, it
is already in the form of a URL that is escaped. -/
def IsSafe : LinkKind → List Char → Prop
  | url, s => BracesMatch s
  | target, s | name, s => ∃ text, BracesMatch text ∧ s = escapeUrl text

theorem contained_argument_iff (kind : LinkKind) (s : List Char) : Contained (kind.argument s) ↔ kind.IsSafe s := by
  cases kind with
  | target | name => exact contained_iff s
  | url => exact contained_escapeUrl_iff s

end LinkKind

/-! ### The links of a document -/

theorem hasLink_inlineCommand (name : String) (delimiters : Delimiters) :
    hasLink (.openInline (inlineCommand name) delimiters) = false := by
  unfold inlineCommand
  split <;> rfl

theorem hasLink_languageCommand (l : Language) (withOptions : Bool) (delimiters : Delimiters) :
    hasLink (.openInline (languageCommand l withOptions) delimiters) = false := by
  simp [hasLink, languageCommand, List.isPrefixOf]

/-- What begins otherwise than an item names no reference. -/
theorem hasLink_of_not_isItem {value : String} (h : isItem value = false) : hasLink (.fragment value) = false := by
  by_contra hlink
  rw [Bool.not_eq_false] at hlink
  have hprefix : "\\item[\\hypertarget\x7b".toList <+: value.toList := List.isPrefixOf_iff_prefix.1 hlink
  have hshorter : "\\item".toList <+: "\\item[\\hypertarget\x7b".toList := by decide
  cases h.symm.trans (List.isPrefixOf_iff_prefix.2 (hshorter.trans hprefix))

/-- Nor does a reference without a name. -/
theorem hasLink_unnamed (number : Nat) : hasLink (.fragment (itemMark (some (number, "")))) = false := by
  simp [hasLink, itemMark, referenceLabel, List.isPrefixOf]

variable {k : Source} {codes : List String}

/-- An element provides the argument of a link that the source gives an emitter. -/
theorem Sourced.link_fills {p : Piece} (h : p.IsFrom (supply k codes)) (hlink : hasLink p = true) :
    ∃ e kind s, k.element e ∧ LinkKind.Provides k.options.baseUrl e kind s ∧ LinkKind.Fills p (kind.argument s) kind := by
  cases p with
  | openInline command delimiters =>
    have hsourced : Sourced k codes .startInline command := h
    cases hsourced with
    | inline name => cases (hasLink_inlineCommand name delimiters).symm.trans hlink
    | language _ withOptions => cases (hasLink_languageCommand _ withOptions delimiters).symm.trans hlink
    | @link e he hname _ hcommand =>
      cases hcommand with
      | @target s htarget => exact ⟨e, .target, s, he, ⟨hname, htarget⟩, delimiters, rfl⟩
      | @url hempty s hurl => exact ⟨e, .url, s, he, ⟨hname, hempty, hurl⟩, delimiters, rfl⟩
  | fragment value =>
    have hitem : isItem value = true := by
      by_contra hitem
      rw [Bool.not_eq_true] at hitem
      cases (hasLink_of_not_isItem hitem).symm.trans hlink
    have hstructural : isStructural value = true := by rw [isStructural, hitem, Bool.true_or]
    have hsourced : Sourced k codes .raw value := h
    cases hsourced with
    | content hcontent => cases hcontent.not_isStructural.symm.trans hstructural
    | style hstyle => cases (style_not_isStructural hstyle).symm.trans hstructural
    | font _ hfont => cases (ltrFontCommand_not_isStructural hfont).symm.trans hstructural
    | argument hmark _ =>
      have hnone : ∀ value ∈ argumentMarks, hasLink (.fragment value) = false := by decide
      cases (hnone value hmark).symm.trans hlink
    | item => cases hlink
    | @reference e he number =>
      refine ⟨e, .name, (e.attr "id").toList, he, ⟨fun hempty => ?_, rfl⟩, number, ?_⟩
      · have hid : e.attr "id" = "" := String.toList_inj.1 hempty
        rw [hid, hasLink_unnamed] at hlink
        cases hlink
      · rw [LinkKind.argument, String.ofList_toList]
  | _ => cases hlink

variable {document : Element}

/-- An element that has a link or a name for it is one of the document. -/
theorem LinkKind.Provides.of_isElementOf {base : String} {e : Element} {kind : LinkKind} {s : List Char}
    (h : kind.Provides base e s) (he : IsElementOf document e) :
    ∃ e' ∈ document.toNode.elements, kind.Provides base e' s := by
  obtain ⟨e', he', hlikens⟩ := he
  have hhref := hlikens.attr "href" (by decide) (by decide)
  have hid := hlikens.attr "id" (by decide) (by decide)
  have hprovides : kind.Provides base e' s := by
    cases kind with
    | target => exact ⟨hlikens.name ▸ h.1, hhref ▸ h.2⟩
    | url => exact ⟨hlikens.name ▸ h.1, hhref ▸ h.2.1, hhref ▸ h.2.2⟩
    | name => exact ⟨h.1, hid ▸ h.2⟩
  rcases he' with he' | ⟨hbare, -⟩
  · exact ⟨e', he', hprovides⟩
  -- An element without attributes has neither a link nor a name.
  · have hempty := Element.attr_of_bare hbare
    cases kind with
    | target =>
      have htarget := hprovides.2
      rw [hempty] at htarget
      cases htarget
    | url => exact absurd (hempty "href") hprovides.2.1
    | name =>
      have hname := hprovides.2
      rw [hempty] at hname
      exact absurd hname.symm hprovides.1

/-- Every argument of a link and every name of a reference that a document has in its output comes from an element of the
document, and it is harmless just if the text that it is made from is safe. -/
theorem document_links (document : Element) (title? : Option String) (lang : String) (options : ArticleOptions)
    (warned : List String) :
    Leaves (typesetDocument document title? lang) (start options (.known options.direction) warned)
      (fun _ t => ∀ p ∈ t.emitter.output, hasLink p = true →
        ∃ e ∈ document.toNode.elements, ∃ kind s, LinkKind.Provides options.baseUrl e kind s ∧
          LinkKind.Fills p (kind.argument s) kind ∧ (Contained (kind.argument s) ↔ kind.IsSafe s))
      fun _ _ => True := by
  refine (typesetDocument_origins document title? lang options _ warned).imp (fun _ t h => ?_) fun _ _ _ => trivial
  obtain ⟨hoptions, hdraws⟩ := h
  intro p hp hlink
  have hfrom := hdraws.written p (List.mem_reverse.1 hp)
  obtain ⟨e, kind, s, he, hprovides, hfills⟩ := Sourced.link_fills hfrom hlink
  obtain ⟨e', he', hprovides'⟩ := hprovides.of_isElementOf he
  exact ⟨e', he', kind, s, hprovides', hfills, kind.contained_argument_iff s⟩

/-- A document with a link to a place in it whose name has a space, in the form that URLs have. -/
def spacedLinkDocument : Element :=
  { name := "[document]"
    children := [.element "a" [⟨"href", .text "#a%20b"⟩] [.text .plain ['x']]] }

/-- The percent sign stands as it is in the argument, and begins a comment there. -/
theorem spacedLinkDocument_comments : ∃ t,
    (typesetDocument spacedLinkDocument none "en").perform (start {} (.known .ltr) []) = (.ok (), t) ∧
      t.emitter.output.any (fun p => p == .openInline "\\hyperlink\x7ba%20b\x7d" {}) = true ∧
      ¬ Contained "a%20b".toList := by
  have hok : ((typesetDocument spacedLinkDocument none "en").perform (start {} (.known .ltr) [])).1.toBool = true := by
    decide +kernel
  have hlink : ((typesetDocument spacedLinkDocument none "en").perform
      (start {} (.known .ltr) [])).2.emitter.output.any
        (fun p => p == .openInline "\\hyperlink\x7ba%20b\x7d" {}) = true := by decide +kernel
  rcases hperform : (typesetDocument spacedLinkDocument none "en").perform (start {} (.known .ltr) []) with ⟨c | _, t⟩
  · rw [hperform] at hok
    cases hok
  · rw [hperform] at hlink
    exact ⟨t, rfl, hlink, by decide⟩

end WikiTypeset.Article
