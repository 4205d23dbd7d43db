import WikiTypeset.Proofs.Tex.LineEnds
import WikiTypeset.Proofs.Tex.OneLine

/-!
# Set text read back

A text as it is set consists of the escaped forms of its characters and of groups around URLs and Latin words. Such a
text is read unit by unit; what its units stand for, without the groups, is its wording. The segments of a text are
escaped one by one when its URLs are wrapped, so a line end beside a URL stands at the edge of a segment, and there
newlines are dropped. Nothing else is lost, and a text without such line ends reads the same with its URLs wrapped as
without. Main statements: `readUnits_escaped`, `readUnits_escapePlain` and `wording_escapeWithUrls_iff`.
-/

namespace WikiTypeset.Latex

open Text

/-- The groups that are set around parts of a text. -/
inductive TextGroup
  /-- The argument of the command that lets a URL break. -/
  | url
  /-- The scope of the font for Latin words. -/
  | latin
  deriving DecidableEq, Repr

/-- A unit of set text. -/
inductive SetUnit
  | opening (g : TextGroup)
  | closing (g : TextGroup)
  | char (c : Char)
  deriving DecidableEq, Repr

namespace SetUnit

/-- The character that a unit stands for. -/
def char? : SetUnit → Option Char
  | char c => some c
  | _ => none

/-- The groups that are open after a unit, the innermost first. -/
def after (opened : List TextGroup) : SetUnit → List TextGroup
  | opening g => g :: opened
  | closing _ => opened.tail
  | char _ => opened

end SetUnit

/-- What begins a group. -/
def TextGroup.start : TextGroup → List Char
  | url => "\\nolinkurl\x7b".toList
  | latin => "\x7b\\latinfont ".toList

/-- The units of set text that are neither plain characters nor the ends of groups. -/
def unitForms : List (List Char × SetUnit) :=
  [.url, .latin].map (fun g : TextGroup => (g.start, .opening g)) ++ codes.map fun code => (code.1, .char code.2)

/-- The unit of a character that begins no form: a brace closes the innermost open group. -/
def plainUnit (c : Char) : List TextGroup → SetUnit
  | g :: _ => if c = '\x7d' then .closing g else .char c
  | [] => .char c

/-- The units of a text inside some open groups; the first `skipped` characters have been read already. -/
def readUnitsFrom (skipped : Nat) (opened : List TextGroup) : List Char → List SetUnit
  | [] => []
  | c :: s =>
    match skipped with
    | skipped + 1 => readUnitsFrom skipped opened s
    | 0 =>
      match unitForms.find? fun entry => entry.1.isPrefixOf (c :: s) with
      | some (form, u) => u :: readUnitsFrom (form.length - 1) (u.after opened) s
      | none => plainUnit c opened :: readUnitsFrom 0 ((plainUnit c opened).after opened) s

/-- The units of a text inside some open groups. -/
def readUnits (opened : List TextGroup) (s : List Char) : List SetUnit := readUnitsFrom 0 opened s

/-- What units stand for, groups left out. -/
def wording (us : List SetUnit) : List Char := us.filterMap SetUnit.char?

@[simp] theorem wording_append (us us' : List SetUnit) : wording (us ++ us') = wording us ++ wording us' :=
  List.filterMap_append

@[simp] theorem wording_chars (s : List Char) : wording (s.map .char) = s := by
  have hchar : SetUnit.char? ∘ SetUnit.char = some := rfl
  rw [wording, List.filterMap_map, hchar, List.filterMap_some]

/-! ### Units one by one -/

/-- No form is the start of another one. -/
theorem unitForms_apart : ∀ entry ∈ unitForms, ∀ entry' ∈ unitForms, entry.1 <+: entry'.1 → entry = entry' := by
  decide

theorem unitForms_special_head : ∀ entry ∈ unitForms, ∃ c ∈ entry.1.head?, (specialForm? c).isSome = true := by
  have hhead : ∀ entry ∈ unitForms, (entry.1.head?.any fun c => (specialForm? c).isSome) = true := by decide
  exact fun entry hentry => (Option.any_eq_true _ _).1 (hhead entry hentry)

theorem readUnitsFrom_append (opened : List TextGroup) (u t : List Char) :
    readUnitsFrom u.length opened (u ++ t) = readUnits opened t := by
  induction u with
  | nil => rfl
  | cons c u ih => exact ih

theorem readUnits_form {entry : List Char × SetUnit} (hentry : entry ∈ unitForms) (opened : List TextGroup)
    (t : List Char) : readUnits opened (entry.1 ++ t) = entry.2 :: readUnits (entry.2.after opened) t := by
  have hfind := find?_form unitForms_apart hentry t
  obtain ⟨c, hc, -⟩ := unitForms_special_head entry hentry
  obtain ⟨u, hu⟩ : ∃ u, entry.1 = c :: u := List.head?_eq_some_iff.1 hc
  rw [hu, List.cons_append] at hfind ⊢
  rw [readUnits, readUnitsFrom, hfind, ← readUnitsFrom_append _ u t]
  simp [hu]

theorem readUnits_start (g : TextGroup) (opened : List TextGroup) (t : List Char) :
    readUnits opened (g.start ++ t) = .opening g :: readUnits (g :: opened) t := by
  have hmem : (g.start, SetUnit.opening g) ∈ unitForms := by cases g <;> decide
  exact readUnits_form hmem opened t

theorem readUnits_close (g : TextGroup) (opened : List TextGroup) (t : List Char) :
    readUnits (g :: opened) ('\x7d' :: t) = .closing g :: readUnits opened t := by
  -- Every form begins with another character than the brace.
  have hnone : (unitForms.find? fun entry => entry.1.isPrefixOf ('\x7d' :: t)) = none := by
    have hhead : ∀ entry ∈ unitForms, entry.1.head? ≠ some '\x7d' ∧ entry.1 ≠ [] := by decide
    refine List.find?_eq_none.2 fun entry hentry hstarts => ?_
    obtain ⟨hne, hnil⟩ := hhead entry hentry
    obtain ⟨c, u, hu⟩ := List.exists_cons_of_ne_nil hnil
    rw [hu] at hne hstarts
    obtain ⟨rest, hrest⟩ := List.isPrefixOf_iff_prefix.1 hstarts
    cases hrest
    exact hne rfl
  rw [readUnits, readUnitsFrom, hnone]
  rfl

/-- A group is read apart from what follows if what stands in it is. -/
theorem readUnits_group (g : TextGroup) {opened : List TextGroup} {s : List Char} {us : List SetUnit}
    (hs : ∀ t, readUnits (g :: opened) (s ++ t) = us ++ readUnits (g :: opened) t) (t : List Char) :
    readUnits opened (g.start ++ s ++ ['\x7d'] ++ t) = .opening g :: us ++ [.closing g] ++ readUnits opened t := by
  have hclosing : readUnits (g :: opened) (s ++ '\x7d' :: t) = us ++ .closing g :: readUnits opened t := by
    rw [hs, readUnits_close]
  have hstart := readUnits_start g opened (s ++ '\x7d' :: t)
  rw [hclosing] at hstart
  simpa using hstart

theorem readUnits_char {c : Char} (hc : specialForm? c = none) (opened : List TextGroup) (t : List Char) :
    readUnits opened (c :: t) = .char c :: readUnits opened t := by
  have hplain : plainUnit c opened = .char c := by
    cases opened with
    | nil => rfl
    | cons g opened =>
      refine if_neg ?_
      rintro rfl
      cases hc
  rw [readUnits, readUnitsFrom, find?_special unitForms_special_head hc, hplain]
  rfl

/-! ### Escaped text -/

/-- Escaped text is read as its characters in any groups, apart from what follows. -/
theorem readUnits_escaped {s : List Char} (hs : Escaped ["~", "$-$"] s) (opened : List TextGroup) (t : List Char) :
    readUnits opened (s ++ t) = (decode s).map .char ++ readUnits opened t := by
  have hcode : ∀ code ∈ codes, ∀ s, readUnits opened (s ++ t) = (decode s).map .char ++ readUnits opened t →
      readUnits opened (code.1 ++ s ++ t) = (decode (code.1 ++ s)).map .char ++ readUnits opened t := by
    intro code hcode s ih
    have hmem : (code.1, SetUnit.char code.2) ∈ unitForms := List.mem_append_right _ (List.mem_map_of_mem hcode)
    have hread := readUnits_form hmem opened (s ++ t)
    rw [List.append_assoc, decode_code hcode, List.map_cons, List.cons_append, ← ih]
    exact hread
  induction hs with
  | nil => rfl
  | char hc _ ih =>
    rw [List.cons_append, readUnits_char hc, ih, decode_char hc]
    rfl
  | form hc _ ih => exact hcode _ (List.mem_cons_of_mem _ (List.mem_cons_of_mem _ (mem_specialCodes hc))) _ ih
  | unit hu _ ih =>
    rw [List.mem_cons, List.mem_singleton] at hu
    rcases hu with rfl | rfl
    · exact hcode tieCode (by decide) _ ih
    · exact hcode minusCode (by decide) _ ih

/-- The units of a segment: a URL that is not empty when it is set stands in a group. -/
def urlUnits (piece : Segment) : List SetUnit :=
  let characters := (decode (escapeText piece.text)).map .char
  if piece.marked && !(escapeText piece.text).isEmpty then .opening .url :: characters ++ [.closing .url] else characters

/-- The units of a text without regard to fonts. -/
def plainUnits (style : TextStyle) (s : List Char) : List SetUnit :=
  if style.urls then (segments urlLength? s).flatMap urlUnits else (decode (escapeText s)).map .char

/-- A text is read segment by segment, in any groups and apart from what follows. -/
theorem readUnits_flatMap {f : Segment → List Char} {units : Segment → List SetUnit} {opened : List TextGroup}
    {ps : List Segment}
    (h : ∀ piece ∈ ps, ∀ t, readUnits opened (f piece ++ t) = units piece ++ readUnits opened t) (t : List Char) :
    readUnits opened (ps.flatMap f ++ t) = ps.flatMap units ++ readUnits opened t := by
  induction ps with
  | nil => rfl
  | cons piece ps ih =>
    obtain ⟨hpiece, hps⟩ := List.forall_mem_cons.1 h
    rw [List.flatMap_cons, List.append_assoc, hpiece, ih hps, List.flatMap_cons, List.append_assoc]

theorem readUnits_escapeWithUrls (s : List Char) (opened : List TextGroup) (t : List Char) :
    readUnits opened (escapeWithUrls s ++ t) = (segments urlLength? s).flatMap urlUnits ++ readUnits opened t := by
  unfold escapeWithUrls
  apply readUnits_flatMap
  intro piece _ t
  have hescaped : ∀ opened t, readUnits opened (escapeText piece.text ++ t) =
      (decode (escapeText piece.text)).map .char ++ readUnits opened t :=
    readUnits_escaped (escaped_escapeText piece.text)
  dsimp only [urlUnits]
  by_cases hwrapped : (piece.marked && !(escapeText piece.text).isEmpty) = true
  · rw [if_pos hwrapped, if_pos hwrapped]
    exact readUnits_group .url (hescaped _) t
  · rw [if_neg hwrapped, if_neg hwrapped]
    exact hescaped opened t

theorem readUnits_escapePlain (style : TextStyle) (s : List Char) (opened : List TextGroup) (t : List Char) :
    readUnits opened (style.escapePlain s ++ t) = plainUnits style s ++ readUnits opened t := by
  unfold TextStyle.escapePlain plainUnits
  split
  · exact readUnits_escapeWithUrls s opened t
  · exact readUnits_escaped (escaped_escapeText s) opened t

theorem wording_urlUnits (piece : Segment) : wording (urlUnits piece) = decode (escapeText piece.text) := by
  dsimp only [urlUnits]
  split
  · have hends : wording [.opening .url] = [] ∧ wording [.closing .url] = [] := by decide
    rw [List.cons_append, ← List.singleton_append, wording_append, wording_append, wording_chars, hends.1, hends.2,
      List.nil_append, List.append_nil]
  · exact wording_chars _

/-- With its URLs wrapped, a text reads as its segments with their newlines tidied one by one. -/
theorem straight_wording_urlUnits (ps : List Segment) :
    (wording (ps.flatMap urlUnits)).map straight = ((ps.map Segment.text).flatMap tidyNewlines).map straight := by
  induction ps with
  | nil => rfl
  | cons piece ps ih =>
    have hpiece := (decode_escapeText piece.text).2
    rw [List.flatMap_cons, wording_append, wording_urlUnits, List.map_append, hpiece, ih, List.map_cons,
      List.flatMap_cons, List.map_append]

/-- A text on one line is read back whole, whether its URLs are wrapped or not. -/
theorem straight_wording_plainUnits (style : TextStyle) {s : List Char} (hs : Unbroken s) :
    (wording (plainUnits style s)).map straight = s.map straight := by
  unfold plainUnits
  split
  · have hflatten : ((segments urlLength? s).map Segment.text).flatten = s := flatten_segments urlLength? s
    have hpieces := flatMap_tidyNewlines_of_forall ((segments urlLength? s).map Segment.text)
    rw [hflatten] at hpieces
    rw [straight_wording_urlUnits, hpieces hs]
  · rw [wording_chars, (decode_escapeText s).2, tidyNewlines_of_forall hs]

/-! ### Text with its URLs wrapped -/

/-- A character that is made straight is a quote before and after. -/
theorem straight_ne {c : Char} (h : straight c ≠ c) : straight c ≠ '\n' ∧ c ≠ '\n' := by
  unfold straight at *
  split
  next hc => rcases hc with rfl | rfl <;> decide
  next hdouble =>
    split
    next hc =>
      rw [hc]
      decide
    next hsingle =>
      rw [if_neg hdouble, if_neg hsingle] at h
      exact absurd rfl h

/-- Curling quotes keeps parts of a text apart from the whole. -/
theorem map_straight_eq_iff {s t : List Char} (h : s.Sublist t) : s.map straight = t.map straight ↔ s = t := by
  constructor
  · intro heq
    have hlength := congrArg List.length heq
    rw [List.length_map, List.length_map] at hlength
    exact h.eq_of_length hlength
  · rintro rfl
    rfl

/-- Line feeds apart, parts tidied one by one are the whole tidied. -/
theorem filter_flatMap_tidyNewlines (parts : List (List Char)) :
    (parts.flatMap tidyNewlines).filter (· ≠ '\n') = (tidyNewlines parts.flatten).filter (· ≠ '\n') := by
  induction parts with
  | nil => rfl
  | cons s parts ih =>
    have hseam : (if Seam s parts.flatten then ['\n'] else []).filter (· ≠ '\n') = [] := by split <;> rfl
    rw [List.flatMap_cons, List.flatten_cons, tidyNewlines_append, List.filter_append, List.filter_append,
      List.filter_append, hseam, ih, List.append_nil]

/-- Wrapped or not, a text reads the same just if no cut between its URLs and what stands around them is a seam; all that
can be lost at a seam is a line feed. -/
theorem wording_escapeWithUrls_iff (s : List Char) :
    ((wording (readUnits [] (escapeWithUrls s))).map straight = (decode (escapeText s)).map straight ↔
      ∀ before after, segments urlLength? s = before ++ after →
        ¬ Seam (before.flatMap Segment.text) (after.flatMap Segment.text)) ∧
    ((wording (readUnits [] (escapeWithUrls s))).map straight).filter (· ≠ '\n') =
      ((decode (escapeText s)).map straight).filter (· ≠ '\n') := by
  have hflatten : ((segments urlLength? s).map Segment.text).flatten = s := flatten_segments urlLength? s
  have hnewline : (fun c => decide (c ≠ '\n')) ∘ straight = fun c => decide (c ≠ '\n') := by
    funext c
    by_cases hc : straight c = c
    · exact congrArg (fun d => decide (d ≠ '\n')) hc
    · obtain ⟨hquote, hplain⟩ := straight_ne hc
      simp [hquote, hplain]
  have hread := readUnits_escapeWithUrls s [] []
  have hnil : readUnits [] [] = [] := rfl
  rw [List.append_nil, hnil, List.append_nil] at hread
  rw [hread, straight_wording_urlUnits, (decode_escapeText s).2]
  constructor
  · have hsublist := flatMap_tidyNewlines_sublist ((segments urlLength? s).map Segment.text)
    have hiff := flatMap_tidyNewlines_iff ((segments urlLength? s).map Segment.text)
    rw [hflatten] at hsublist hiff
    rw [map_straight_eq_iff hsublist, hiff]
    constructor
    · intro hnone before after hsplit
      exact hnone (before.map Segment.text) (after.map Segment.text) (by rw [hsplit, List.map_append])
    · rintro hnone before after hsplit
      obtain ⟨before', after', hsegments, rfl, rfl⟩ := List.map_eq_append_iff.1 hsplit
      exact hnone before' after' hsegments
  · have hfilter := filter_flatMap_tidyNewlines ((segments urlLength? s).map Segment.text)
    rw [hflatten] at hfilter
    rw [List.filter_map, List.filter_map, hnewline, hfilter]

/-- The line end before a URL is lost. -/
theorem urlOnNewLine_joins : (wording (readUnits [] (escapeWithUrls "a\nhttp://x.yz/".toList))).map straight ≠
    (decode (escapeText "a\nhttp://x.yz/".toList)).map straight := by
  decide +kernel

end WikiTypeset.Latex
