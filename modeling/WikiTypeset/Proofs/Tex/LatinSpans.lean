import Mathlib.Data.List.TakeWhile
import WikiTypeset.Proofs.Tex.SetUnits

/-!
# Stretches in the font for Latin words

Where the font of a text has no Latin letters, each stretch of Latin words stands in a group with a font of its own. The
stretches begin and end with Latin letters, hold all of them and, besides, printable ASCII only, and between any two of
them stands a character of neither kind. Main statement: `latinSpans_escape`.
-/

namespace WikiTypeset.Latex

open Text

/-- A printable ASCII character. -/
def IsPrintable (c : Char) : Prop := ' ' ≤ c ∧ c ≤ '~'

instance (c : Char) : Decidable (IsPrintable c) := inferInstanceAs (Decidable (_ ∧ _))

/-- A cut of a text into stretches of Latin words, which are marked, and what stands around them. -/
structure IsLatinCut (spans : List Segment) : Prop where
  outside : ∀ span ∈ spans, span.marked = false → ∀ c ∈ span.text, isLatin c = false
  inside : ∀ span ∈ spans, span.marked = true → ∀ c ∈ span.text, isLatin c = true ∨ IsPrintable c
  ends : ∀ span ∈ spans, span.marked = true →
    (∃ c ∈ span.text.head?, isLatin c = true) ∧ ∃ c ∈ span.text.getLast?, isLatin c = true
  apart : ∀ before first between second after, spans = before ++ first :: between ++ second :: after →
    first.marked = true → second.marked = true →
    ∃ c ∈ between.flatMap Segment.text, isLatin c = false ∧ ¬ IsPrintable c

/-! ### Stretches of Latin words -/

/-- A character that a stretch of Latin words can hold. -/
def isLatinText (c : Char) : Bool := isLatin c || isLatinSeparator c

theorem isLatinText_iff {c : Char} : isLatinText c = true ↔ isLatin c = true ∨ IsPrintable c := by
  by_cases hletter : isAsciiLetter c = true
  · have hlatin : isLatin c = true := by simp [isLatin, hletter]
    simp [isLatinText, hlatin]
  · simp [isLatinText, isLatinSeparator, hletter, IsPrintable]

theorem isLatinText_eq_false_iff {c : Char} : isLatinText c = false ↔ isLatin c = false ∧ ¬ IsPrintable c := by
  have h := (isLatinText_iff (c := c)).not
  rwa [Bool.not_eq_true, not_or, Bool.not_eq_true] at h

theorem latinLength?_of_not {previous : Option Char} {c : Char} {s : List Char} (h : isLatin c = false) :
    latinLength? previous (c :: s) = none := by
  simp [latinLength?, h]

/-- A text with a character that satisfies `p` is cut behind the last one. -/
theorem exists_cut_behind_last {p : Char → Bool} {s : List Char} (h : ∃ c ∈ s, p c = true) : ∃ kept rest,
    s = kept ++ rest ∧ kept.length = (s.reverse.dropWhile (! p ·)).length ∧ (∃ c ∈ kept.getLast?, p c = true) ∧
      ∀ c ∈ rest, p c = false := by
  have hrest : ∀ c ∈ s.reverse.takeWhile (! p ·), p c = false := fun c hc => by
    simpa using List.mem_takeWhile_imp hc
  have hsplit : (s.reverse.dropWhile (! p ·)).reverse ++ (s.reverse.takeWhile (! p ·)).reverse = s := by
    rw [← List.reverse_append, List.takeWhile_append_dropWhile, List.reverse_reverse]
  refine ⟨_, _, hsplit.symm, List.length_reverse, ?_, fun c hc => hrest c (List.mem_reverse.1 hc)⟩
  rw [List.getLast?_reverse]
  cases hkept : s.reverse.dropWhile (! p ·) with
  | nil =>
    obtain ⟨c, hc, hp⟩ := h
    rw [← hsplit, hkept, List.reverse_nil, List.nil_append, List.mem_reverse] at hc
    cases hp.symm.trans (hrest c hc)
  | cons d kept =>
    have hhead := List.head?_dropWhile_not (! p ·) s.reverse
    rw [hkept] at hhead
    exact ⟨d, rfl, by simpa using hhead⟩

/-- A stretch begins and ends with a Latin letter, and no further one can be reached from its end. -/
theorem latinLength?_of_isLatin (previous : Option Char) {c : Char} (s : List Char) (h : isLatin c = true) :
    ∃ n, latinLength? previous (c :: s) = some (n + 1) ∧ (∀ d ∈ c :: s.take n, isLatinText d = true) ∧
      (∃ d ∈ (c :: s.take n).getLast?, isLatin d = true) ∧
      ∀ d ∈ (s.drop n).takeWhile isLatinText, isLatin d = false := by
  have hc : isLatinText c = true := by simp [isLatinText, h]
  have hmem : c ∈ (c :: s).takeWhile isLatinText := by simp [hc]
  have htext : ∀ d ∈ (c :: s).takeWhile isLatinText, isLatinText d = true := fun d hd => List.mem_takeWhile_imp hd
  obtain ⟨kept, rest, hrun, hlength, hlast, hrest⟩ := exists_cut_behind_last ⟨c, hmem, h⟩
  obtain ⟨n, hn⟩ : ∃ n, kept.length = n + 1 := by
    refine Nat.exists_eq_succ_of_ne_zero fun hzero => ?_
    rw [List.length_eq_zero_iff] at hzero
    rw [hzero] at hlast
    obtain ⟨d, hd, -⟩ := hlast
    cases hd
  have hwhole : c :: s = kept ++ (rest ++ (c :: s).dropWhile isLatinText) := by
    rw [← List.append_assoc, ← hrun, List.takeWhile_append_dropWhile]
  have htake : c :: s.take n = kept := by
    have htake := congrArg (List.take (n + 1)) hwhole
    rwa [← hn, List.take_left, hn, List.take_succ_cons] at htake
  have hdrop : s.drop n = rest ++ (c :: s).dropWhile isLatinText := by
    have hdrop := congrArg (List.drop (n + 1)) hwhole
    rwa [← hn, List.drop_left, hn, List.drop_succ_cons] at hdrop
  have hstop : ((c :: s).dropWhile isLatinText).takeWhile isLatinText = [] := by
    have hhead := List.head?_dropWhile_not isLatinText (c :: s)
    cases hdropped : (c :: s).dropWhile isLatinText with
    | nil => rfl
    | cons d t =>
      rw [hdropped] at hhead
      have hd : isLatinText d = false := by simpa using hhead
      simp [hd]
  refine ⟨n, ?_, ?_, ?_, ?_⟩
  · have hfound : latinLength? previous (c :: s) =
        some (((c :: s).takeWhile isLatinText).reverse.dropWhile (! isLatin ·)).length := by
      simp only [latinLength?, List.head?_cons, Option.map_some, Option.getD_some, h, if_true]
      rfl
    rw [hfound, ← hlength, hn]
  · rw [htake]
    exact fun d hd => htext d (hrun ▸ List.mem_append_left rest hd)
  · rw [htake]
    exact hlast
  · have hrestText : ∀ d ∈ rest, isLatinText d = true := fun d hd =>
      htext d (hrun ▸ List.mem_append_right kept hd)
    rw [hdrop, List.takeWhile_append_of_pos hrestText, hstop, List.append_nil]
    exact hrest

/-! ### The cut at the stretches -/

/-- A stretch before a cut, with text around it that has no Latin letters and, before a further stretch, a character
that no stretch can hold. -/
theorem IsLatinCut.cons {plain span first : List Char} {rest : List Segment} (hplain : ∀ c ∈ plain, isLatin c = false)
    (hspan : ∀ c ∈ span, isLatinText c = true)
    (hends : (∃ c ∈ span.head?, isLatin c = true) ∧ ∃ c ∈ span.getLast?, isLatin c = true)
    (hrest : IsLatinCut (⟨false, first⟩ :: rest)) (hgap : rest = [] ∨ ∃ c ∈ first, isLatinText c = false) :
    IsLatinCut (⟨false, plain⟩ :: ⟨true, span⟩ :: ⟨false, first⟩ :: rest) := by
  constructor
  · intro piece hpiece hmarked
    rcases List.mem_cons.1 hpiece with rfl | hpiece
    · exact hplain
    · rcases List.mem_cons.1 hpiece with rfl | hpiece
      · cases hmarked
      · exact hrest.outside piece hpiece hmarked
  · intro piece hpiece hmarked
    rcases List.mem_cons.1 hpiece with rfl | hpiece
    · cases hmarked
    · rcases List.mem_cons.1 hpiece with rfl | hpiece
      · exact fun c hc => isLatinText_iff.1 (hspan c hc)
      · exact hrest.inside piece hpiece hmarked
  · intro piece hpiece hmarked
    rcases List.mem_cons.1 hpiece with rfl | hpiece
    · cases hmarked
    · rcases List.mem_cons.1 hpiece with rfl | hpiece
      · exact hends
      · exact hrest.ends piece hpiece hmarked
  · intro before x between y after hsplit hx hy
    rw [List.append_assoc] at hsplit
    rcases before with _ | ⟨_, _ | ⟨_, before⟩⟩
    · obtain ⟨rfl, -⟩ := List.cons.inj hsplit
      cases hx
    · -- The stretch is the first of the two, so what follows it directly stands between them.
      have htail := (List.cons.inj (List.cons.inj hsplit).2).2
      cases between with
      | nil =>
        obtain ⟨rfl, -⟩ := List.cons.inj htail
        cases hy
      | cons _ between =>
        obtain ⟨rfl, rfl⟩ := List.cons.inj htail
        obtain ⟨c, hc, hforeign⟩ := hgap.resolve_left (by simp)
        exact ⟨c, List.mem_flatMap.2 ⟨_, List.mem_cons_self .., hc⟩, isLatinText_eq_false_iff.1 hforeign⟩
    · have htail : (⟨false, first⟩ :: rest : List Segment) = before ++ x :: between ++ y :: after := by
        rw [List.append_assoc]
        exact (List.cons.inj (List.cons.inj hsplit).2).2
      exact hrest.apart before x between y after htail hx hy

/-- A cut goes on with a plain piece. Another stretch follows only behind a character that no stretch can hold, if there
is one in what the piece begins with or no Latin letter can be reached from there. -/
theorem isLatinCut_segmentsFrom (previous : Option Char) {plain : List Char} (s : List Char)
    (hplain : ∀ c ∈ plain, isLatin c = false) : IsLatinCut (segmentsFrom latinLength? previous plain s) ∧
      ∃ first rest, segmentsFrom latinLength? previous plain s = ⟨false, first⟩ :: rest ∧
        ((∃ c ∈ plain, isLatinText c = false) ∨ (∀ c ∈ s.takeWhile isLatinText, isLatin c = false) →
          rest = [] ∨ ∃ c ∈ first, isLatinText c = false) := by
  fun_induction segmentsFrom latinLength? previous plain s with
  | case1 previous plain =>
    refine ⟨⟨?_, ?_, ?_, ?_⟩, plain.reverse, [], rfl, fun _ => .inl rfl⟩
    · intro piece hpiece _ c hc
      rw [List.mem_singleton.1 hpiece] at hc
      exact hplain c (List.mem_reverse.1 hc)
    · intro piece hpiece hmarked
      rw [List.mem_singleton.1 hpiece] at hmarked
      cases hmarked
    · intro piece hpiece hmarked
      rw [List.mem_singleton.1 hpiece] at hmarked
      cases hmarked
    · intro before x between y after hsplit
      have hlength := congrArg List.length hsplit
      simp only [List.length_append, List.length_cons, List.length_nil] at hlength
      omega
  | case2 previous plain c s n hfound span ih =>
    have hletter : isLatin c = true := by
      by_contra hnot
      rw [latinLength?_of_not (Bool.not_eq_true _ ▸ hnot)] at hfound
      cases hfound
    obtain ⟨m, hm, hspan, hlast, hstop⟩ := latinLength?_of_isLatin previous s hletter
    obtain rfl : m = n := by simpa using hm.symm.trans hfound
    obtain ⟨hcut, first, rest, heq, hgap⟩ := ih (List.forall_mem_nil _)
    rw [heq] at hcut ⊢
    refine ⟨hcut.cons (fun d hd => hplain d (List.mem_reverse.1 hd)) hspan ⟨⟨c, rfl, hletter⟩, hlast⟩ (hgap (.inr hstop)),
      plain.reverse, _, rfl, fun h => .inr ?_⟩
    rcases h with ⟨d, hd, hforeign⟩ | hnone
    · exact ⟨d, List.mem_reverse.2 hd, hforeign⟩
    · have htext : isLatinText c = true := by simp [isLatinText, hletter]
      have hreach : c ∈ (c :: s).takeWhile isLatinText := by simp [htext]
      cases hletter.symm.trans (hnone c hreach)
  | case3 previous plain c s hnone ih =>
    have hletter : isLatin c = false := by
      by_contra hnot
      obtain ⟨n, hn, -⟩ := latinLength?_of_isLatin previous s (Bool.not_eq_false _ ▸ hnot)
      exact hnone n hn
    obtain ⟨hcut, first, rest, heq, hgap⟩ := ih (List.forall_mem_cons.2 ⟨hletter, hplain⟩)
    refine ⟨hcut, first, rest, heq, fun h => hgap ?_⟩
    rcases h with ⟨d, hd, hforeign⟩ | hreach
    · exact .inl ⟨d, List.mem_cons_of_mem c hd, hforeign⟩
    · by_cases htext : isLatinText c = true
      · rw [List.takeWhile_cons_of_pos htext] at hreach
        exact .inr fun d hd => hreach d (List.mem_cons_of_mem c hd)
      · exact .inl ⟨c, List.mem_cons_self .., by simpa using htext⟩

theorem isLatinCut_segments (s : List Char) : IsLatinCut (segments latinLength? s) :=
  (isLatinCut_segmentsFrom none s (List.forall_mem_nil _)).1

/-! ### The groups of set text -/

/-- The parts of set text inside and outside groups for Latin words, with what has been read of the part under way;
nothing if such a group stands in another one or is left open. -/
def latinSpansFrom (inside : Bool) (text : List Char) : List SetUnit → Option (List Segment)
  | [] => if inside then none else some [⟨false, text⟩]
  | .opening .latin :: us => if inside then none else (latinSpansFrom true [] us).map (⟨false, text⟩ :: ·)
  | .closing .latin :: us => if inside then (latinSpansFrom false [] us).map (⟨true, text⟩ :: ·) else none
  | u :: us => latinSpansFrom inside (text ++ wording [u]) us

/-- The parts of set text inside and outside groups for Latin words. -/
def latinSpans (us : List SetUnit) : Option (List Segment) := latinSpansFrom false [] us

/-- The units of a segment of a text whose Latin words need a font of their own. -/
def latinUnits (style : TextStyle) (piece : Segment) : List SetUnit :=
  if piece.marked then .opening .latin :: plainUnits style piece.text ++ [.closing .latin]
  else plainUnits style piece.text

theorem latinSpansFrom_append {us : List SetUnit} (h : .opening .latin ∉ us ∧ .closing .latin ∉ us) (inside : Bool)
    (text : List Char) (us' : List SetUnit) :
    latinSpansFrom inside text (us ++ us') = latinSpansFrom inside (text ++ wording us) us' := by
  induction us generalizing text with
  | nil => simp [wording]
  | cons u us ih =>
    simp only [List.mem_cons, not_or] at h
    have hcons : wording (u :: us) = wording [u] ++ wording us := wording_append [u] us
    rw [List.cons_append, latinSpansFrom, ih ⟨h.1.2, h.2.2⟩, hcons, List.append_assoc]
    · rintro rfl
      exact h.1.1 rfl
    · rintro rfl
      exact h.2.1 rfl

theorem latin_not_mem_plainUnits (style : TextStyle) (s : List Char) :
    .opening .latin ∉ plainUnits style s ∧ .closing .latin ∉ plainUnits style s := by
  have hchars : ∀ t : List Char, .opening TextGroup.latin ∉ t.map SetUnit.char ∧
      .closing TextGroup.latin ∉ t.map SetUnit.char := by simp
  have hpiece : ∀ piece : Segment, .opening .latin ∉ urlUnits piece ∧ .closing .latin ∉ urlUnits piece := by
    intro piece
    have htext := hchars (decode (escapeText piece.text))
    dsimp only [urlUnits]
    split
    · simp
    · exact htext
  unfold plainUnits
  split
  · simp only [List.mem_flatMap, not_exists, not_and]
    exact ⟨fun piece _ => (hpiece piece).1, fun piece _ => (hpiece piece).2⟩
  · exact hchars _

/-- The groups of the units of segments are the marked segments. -/
theorem latinSpans_segmentsFrom (style : TextStyle) (find : SpanFinder) (previous : Option Char) (plain s : List Char) :
    latinSpans ((segmentsFrom find previous plain s).flatMap (latinUnits style)) =
      some ((segmentsFrom find previous plain s).map fun piece => ⟨piece.marked, wording (plainUnits style piece.text)⟩) := by
  have happend : ∀ (inside : Bool) (t : List Char) (us : List SetUnit),
      latinSpansFrom inside [] (plainUnits style t ++ us) = latinSpansFrom inside (wording (plainUnits style t)) us :=
    fun inside t us => latinSpansFrom_append (latin_not_mem_plainUnits style t) inside [] us
  unfold latinSpans
  fun_induction segmentsFrom find previous plain s with
  | case1 previous plain =>
    have hone := happend false plain.reverse []
    simpa [latinUnits, latinSpansFrom] using hone
  | case2 previous plain c s n _ span ih =>
    simp only [List.flatMap_cons, latinUnits, Bool.false_eq_true, if_false, if_true, List.cons_append, List.append_assoc,
      List.nil_append, happend, latinSpansFrom, ih, Option.map_some, List.map_cons]
  | case3 previous plain c s _ ih => exact ih

theorem readUnits_latin (urls : Bool) (s : List Char) : readUnits [] ((TextStyle.mk urls true).escape s) =
    (segments latinLength? s).flatMap (latinUnits ⟨urls, true⟩) := by
  have hread : ∀ t, readUnits [] ((TextStyle.mk urls true).escape s ++ t) =
      (segments latinLength? s).flatMap (latinUnits ⟨urls, true⟩) ++ readUnits [] t := by
    unfold TextStyle.escape
    rw [if_pos rfl]
    apply readUnits_flatMap
    intro piece _ t
    have hplain := readUnits_escapePlain ⟨urls, true⟩ piece.text
    unfold latinUnits
    by_cases hmarked : piece.marked = true
    · rw [if_pos hmarked, if_pos hmarked]
      exact readUnits_group .latin (hplain _) t
    · rw [if_neg hmarked, if_neg hmarked]
      exact hplain [] t
  have hnil : readUnits [] [] = [] := rfl
  simpa [hnil] using hread []

/-! ### Set text -/

/-- A segment with its quotes made straight. -/
def straightened (piece : Segment) : Segment := ⟨piece.marked, piece.text.map straight⟩

/-- Text on one line whose Latin words need a font of their own is read back as a cut of it into stretches of Latin
words, each in a group, and what stands around them. -/
theorem latinSpans_escape (urls : Bool) {s : List Char} (hs : Unbroken s) : ∃ spans, IsLatinCut spans ∧
    spans.flatMap Segment.text = s ∧
    (latinSpans (readUnits [] ((TextStyle.mk urls true).escape s))).map (List.map straightened) =
      some (spans.map straightened) := by
  refine ⟨segments latinLength? s, isLatinCut_segments s, flatten_segments latinLength? s, ?_⟩
  have hspans := latinSpans_segmentsFrom ⟨urls, true⟩ latinLength? none [] s
  rw [readUnits_latin, segments, hspans, Option.map_some, List.map_map]
  refine congrArg some (List.map_congr_left fun piece hpiece => ?_)
  have hpieceUnbroken : Unbroken piece.text := hs.mono fun c hc => by
    rw [← flatten_segments latinLength? s]
    exact List.mem_flatMap.2 ⟨piece, hpiece, hc⟩
  have hstraight := straight_wording_plainUnits ⟨urls, true⟩ hpieceUnbroken
  simp only [Function.comp, straightened, hstraight]

/-- Two stretches around a dash that is no ASCII character, the second with a URL in it. -/
theorem latinSpans_dashedUrl : Unbroken "a b \u2014 see http://x.yz/c. ".toList ∧ ∃ spans, IsLatinCut spans ∧
    spans.flatMap Segment.text = "a b \u2014 see http://x.yz/c. ".toList ∧
    (latinSpans (readUnits [] ((TextStyle.mk true true).escape "a b \u2014 see http://x.yz/c. ".toList))).map
      (List.map straightened) = some (spans.map straightened) :=
  have hs : Unbroken "a b \u2014 see http://x.yz/c. ".toList := by decide
  ⟨hs, latinSpans_escape true hs⟩

end WikiTypeset.Latex
