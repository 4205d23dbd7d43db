/-!
# Texts cut into marked and plain segments

A finder says how long a span of interest begins at a place of a text. `segments` cuts the text at the spans
that a left-to-right scan finds: plain and marked segments alternate, and plain ones stand at both ends.
Main statement: `flatten_segments`, that the segments make up the text.
-/

namespace WikiTypeset.Text

/-- A piece of a text, marked if it is a span of interest. -/
structure Segment where
  marked : Bool
  text : List Char
  deriving DecidableEq, Repr

/-- The length of the span that begins at a place, given the character before it and the text from there. -/
abbrev SpanFinder := Option Char → List Char → Option Nat

/-- The segments of `s`, which follows `previous`; `plain` holds, in reverse, the text of the segment under way. -/
def segmentsFrom (find : SpanFinder) (previous : Option Char) (plain : List Char) : List Char → List Segment
  | [] => [⟨false, plain.reverse⟩]
  | c :: s =>
    match find previous (c :: s) with
    | some (n + 1) =>
      let span := c :: s.take n
      ⟨false, plain.reverse⟩ :: ⟨true, span⟩ :: segmentsFrom find span.getLast? [] (s.drop n)
    | _ => segmentsFrom find (some c) (c :: plain) s
  termination_by s => s.length
  decreasing_by
    all_goals simp only [List.length_drop, List.length_cons]; omega

/-- The segments of a text. -/
def segments (find : SpanFinder) (s : List Char) : List Segment := segmentsFrom find none [] s

private theorem flatten_segmentsFrom (find : SpanFinder) (previous : Option Char) (plain s : List Char) :
    (segmentsFrom find previous plain s).flatMap Segment.text = plain.reverse ++ s := by
  fun_induction segmentsFrom find previous plain s with
  | case1 => simp
  | case2 previous plain c s n h span ih =>
    simp [ih, span]
  | case3 previous plain c s _ ih => simp [ih]

/-- Cutting loses nothing: the segments make up the text. -/
theorem flatten_segments (find : SpanFinder) (s : List Char) :
    (segments find s).flatMap Segment.text = s := by
  simp [segments, flatten_segmentsFrom]

end WikiTypeset.Text
