import WikiTypeset.Latex.Decoration
import WikiTypeset.Proofs.Tex.Braces

/-!
# Brackets outside braces

An optional argument ends at the first `]` outside the braces in it. Escaping leaves `]` alone, so one that stands in a
text shows unless braces are set around it: those of a URL or of a stretch of Latin words. Main statement:
`hasBracket_escape`.
-/

namespace WikiTypeset.Latex

open Formula Text

/-! ### The first bracket -/

/-- The offset of the first `]` that is not literal and stands outside braces. -/
def firstBracket? (b : BraceScan) : List Char → Option Nat
  | [] => none
  | c :: s => if c = ']' ∧ b = {} then some 0 else (firstBracket? (b.step c) s).map (· + 1)

/-- Whether there is such a `]`. -/
def hasBracket (b : BraceScan) (s : List Char) : Bool := (firstBracket? b s).isSome

theorem firstBracket?_append (b : BraceScan) (s t : List Char) :
    firstBracket? b (s ++ t) = (firstBracket? b s).or ((firstBracket? (b.after s) t).map (· + s.length)) := by
  induction s generalizing b with
  | nil => simp [firstBracket?]
  | cons c s ih =>
    rw [List.cons_append, firstBracket?, firstBracket?]
    split
    next => rfl
    next =>
      rw [ih, BraceScan.after_cons]
      cases firstBracket? (b.step c) s with
      | some n => rfl
      | none => cases firstBracket? ((b.step c).after s) t <;> simp [Nat.add_assoc]

theorem hasBracket_append (b : BraceScan) (s t : List Char) :
    hasBracket b (s ++ t) = (hasBracket b s || hasBracket (b.after s) t) := by
  unfold hasBracket
  rw [firstBracket?_append]
  cases firstBracket? b s <;> simp

theorem firstBracket?_lt {b : BraceScan} {s : List Char} {n : Nat} (h : firstBracket? b s = some n) : n < s.length := by
  induction s generalizing b n with
  | nil => cases h
  | cons c s ih =>
    rw [firstBracket?] at h
    split at h
    next =>
      cases h
      exact Nat.succ_pos _
    next =>
      obtain ⟨m, hm, rfl⟩ := Option.map_eq_some_iff.1 h
      exact Nat.succ_lt_succ (ih hm)

/-- A `]` behind a text is the first one just if the braces of the text are balanced and it has no `]` itself. -/
theorem firstBracket?_eq_length_iff (s t : List Char) :
    firstBracket? {} (s ++ ']' :: t) = some s.length ↔ scanBraces s = {} ∧ hasBracket {} s = false := by
  have hscan : BraceScan.after {} s = scanBraces s := rfl
  rw [firstBracket?_append, hscan, hasBracket]
  cases hfirst : firstBracket? {} s with
  | some n =>
    have hne : n ≠ s.length := Nat.ne_of_lt (firstBracket?_lt hfirst)
    simp [hne]
  | none =>
    by_cases hs : scanBraces s = {}
    · simp [firstBracket?, hs]
    · have hlater : firstBracket? (scanBraces s) (']' :: t) ≠ some 0 := by simp [firstBracket?, hs]
      simp [hs, hlater]

/-! ### Brackets in braces -/

/-- A text that closes no brace of others shows no bracket when it stands in braces. -/
theorem not_hasBracket_deeper {escaped : Bool} {depth k : Nat} {s : List Char}
    (h : braceDepth? escaped depth s = some k) (m : Nat) : hasBracket ⟨escaped, depth + (m + 1)⟩ s = false := by
  induction s generalizing escaped depth with
  | nil => rfl
  | cons c s ih =>
    obtain ⟨escaped', depth', hstep, hs, -⟩ := braceDepth?_cons h
    have hdeeper := BraceScan.after_deeper ⟨escaped, depth⟩ (m + 1) [c]
    simp only [BraceScan.after_cons, BraceScan.after_nil, hstep] at hdeeper
    have hnot : ¬ (c = ']' ∧ (⟨escaped, depth + (m + 1)⟩ : BraceScan) = {}) := by
      rintro ⟨-, hstart⟩
      have hdepth := congrArg BraceScan.depth hstart
      simp only at hdepth
      omega
    have hrest := ih hs
    rw [hasBracket, firstBracket?, if_neg hnot, hdeeper, Option.isSome_map]
    exact hrest

theorem Leads.scan_eq {s : List Char} (h : Leads s 0 0) : scanBraces s = {} := by
  have hdepth := h.scan.1
  have hpaired := h.paired
  generalize scanBraces s = b at hdepth hpaired
  obtain ⟨escaped, depth⟩ := b
  cases hdepth
  cases hpaired
  rfl

/-- A balanced text in braces of its own shows no bracket. -/
theorem not_hasBracket_group (start : List Char) {s : List Char} (hs : Leads s 0 0)
    (hstart : scanBraces start = ⟨false, 1⟩ ∧ hasBracket {} start = false) :
    hasBracket {} (start ++ s ++ ['\x7d']) = false := by
  have hopened : BraceScan.after {} start = ⟨false, 1⟩ := hstart.1
  have hinner : hasBracket ⟨false, 1⟩ s = false := not_hasBracket_deeper hs.depth 0
  have hclosing : ∀ b, hasBracket b ['\x7d'] = false := by
    intro b
    simp [hasBracket, firstBracket?]
  rw [hasBracket_append, hasBracket_append, hstart.2, hopened, hinner, hclosing]
  rfl

/-- Balanced parts show their brackets one by one. -/
theorem hasBracket_flatMap {α : Type} {f : α → List Char} {xs : List α} (h : ∀ x ∈ xs, Leads (f x) 0 0) :
    hasBracket {} (xs.flatMap f) = xs.any fun x => hasBracket {} (f x) := by
  induction xs with
  | nil => rfl
  | cons x xs ih =>
    obtain ⟨hx, hxs⟩ := List.forall_mem_cons.1 h
    have hafter : BraceScan.after {} (f x) = {} := hx.scan_eq
    rw [List.flatMap_cons, hasBracket_append, hafter, ih hxs, List.any_cons]

/-! ### Brackets in escaped text -/

/-- What is replaced in a text makes or removes no `]` if no replacement does. -/
theorem Retouched.mem_iff {touch : Char → List Char → Prop} (htouch : ∀ c r, touch c r → c ≠ ']' ∧ ']' ∉ r)
    {s t : List Char} (h : Retouched touch s t) : ']' ∈ t ↔ ']' ∈ s := by
  induction h with
  | nil => rfl
  | keep c _ ih => simp [ih]
  | touch hr _ ih =>
    obtain ⟨hc, hr⟩ := htouch _ _ hr
    simp [hr, hc.symm, ih]

theorem Touch.not_bracket {c : Char} {r : List Char} (h : Touch c r) : c ≠ ']' ∧ ']' ∉ r := by
  have hreplaced : ∀ c ∈ ['\n', '\r', '\u00A0', '"', '\''], c ≠ ']' := by simp
  refine ⟨hreplaced c h.mem, ?_⟩
  cases h with
  | lineFeed _ => decide
  | dropped _ => decide
  | tie => decide
  | curled _ hd =>
    have hcurled : ∀ d ∈ ['\u201C', '\u201D', '\u2019'], ']' ∉ [d] := by simp
    exact hcurled _ hd

theorem mem_escapeSpecials (s : List Char) : ']' ∈ escapeSpecials s ↔ ']' ∈ s := by
  have hforms : ∀ form ∈ specialForms, ']' ∉ form.toList := by decide
  induction s with
  | nil => rfl
  | cons c s ih =>
    cases hc : specialForm? c with
    | none =>
      have hcons : escapeSpecials (c :: s) = c :: escapeSpecials s := by simp [escapeSpecials, hc]
      simp [hcons, ih]
    | some form =>
      have hcons : escapeSpecials (c :: s) = form.toList ++ escapeSpecials s := by simp [escapeSpecials, hc]
      have hne : c ≠ ']' := by
        rintro rfl
        cases hc
      have hform := hforms form (mem_specialForms hc)
      simp [hcons, hform, hne.symm, ih]

theorem mem_escapeText (s : List Char) : ']' ∈ escapeText s ↔ ']' ∈ s := by
  obtain ⟨t, hsteps, heq⟩ := escapeText_steps s
  have htouched : ']' ∈ t ↔ ']' ∈ s := by
    clear heq
    induction hsteps with
    | refl => exact mem_escapeSpecials s
    | tail _ h ih => exact (h.mem_iff fun _ _ hr => hr.not_bracket).trans ih
  rw [heq, (retouched_setMinus .ready t).mem_iff fun c r hr => ?_, htouched]
  rw [hr.1, hr.2]
  decide

/-- In text made of plain characters, literal forms and units without brackets every `]` shows. -/
theorem Escaped.hasBracket_iff {units : List String} {s : List Char} (hs : Escaped units s)
    (hunits : ∀ u ∈ units, scanBraces u.toList = {} ∧ hasBracket {} u.toList = false ∧ ']' ∉ u.toList) :
    hasBracket {} s = true ↔ ']' ∈ s := by
  have hforms : ∀ form ∈ specialForms,
      scanBraces form.toList = {} ∧ hasBracket {} form.toList = false ∧ ']' ∉ form.toList := by decide
  have hunit : ∀ u s : List Char, scanBraces u = {} ∧ hasBracket {} u = false ∧ ']' ∉ u →
      (hasBracket {} s = true ↔ ']' ∈ s) → (hasBracket {} (u ++ s) = true ↔ ']' ∈ u ++ s) := by
    rintro u s ⟨hscan, hnone, hmem⟩ hs
    have hafter : BraceScan.after {} u = {} := hscan
    rw [hasBracket_append, hafter, hnone, Bool.false_or, hs]
    simp [hmem]
  induction hs with
  | nil => simp [hasBracket, firstBracket?]
  | @char c s hc _ ih =>
    have hstep : BraceScan.step {} c = {} := by
      have hbackslash : c ≠ '\\' := by rintro rfl; cases hc
      have hopening : c ≠ '\x7b' := by rintro rfl; cases hc
      have hclosing : c ≠ '\x7d' := by rintro rfl; cases hc
      simp [BraceScan.step, hbackslash, hopening, hclosing]
    by_cases hbracket : c = ']'
    · simp [hasBracket, firstBracket?, hbracket]
    · have hrest : hasBracket {} (c :: s) = hasBracket {} s := by
        simp [hasBracket, firstBracket?, hbracket, hstep]
      simp [hrest, ih, Ne.symm hbracket]
  | form hc _ ih => exact hunit _ _ (hforms _ (mem_specialForms hc)) ih
  | unit hu _ ih => exact hunit _ _ (hunits _ hu) ih

theorem hasBracket_escapeText (s : List Char) : hasBracket {} (escapeText s) = s.contains ']' := by
  have hiff := (escaped_escapeText s).hasBracket_iff (by decide)
  rw [mem_escapeText] at hiff
  rw [Bool.eq_iff_iff, hiff, List.contains_iff_mem]

/-! ### Brackets in styled text -/

namespace TextStyle

/-- Whether a `]` stands in a text outside the URLs that are looked for. -/
def showsPlain (style : TextStyle) (s : List Char) : Bool :=
  if style.urls then (segments urlLength? s).any fun piece => !piece.marked && piece.text.contains ']'
  else s.contains ']'

/-- Whether a `]` stands in a text outside URLs and outside the stretches that need a font of their own. -/
def showsBracket (style : TextStyle) (s : List Char) : Bool :=
  if style.latinFont then (segments latinLength? s).any fun piece => !piece.marked && style.showsPlain piece.text
  else style.showsPlain s

variable (style : TextStyle)

theorem hasBracket_escapePlain (s : List Char) : hasBracket {} (style.escapePlain s) = style.showsPlain s := by
  unfold escapePlain showsPlain
  split
  next =>
    unfold escapeWithUrls
    rw [hasBracket_flatMap fun piece _ => ?_]
    · congr 1
      funext piece
      have hleads : Leads (escapeText piece.text) 0 0 := (complete_escapeText piece.text).leads 0
      have hplain := hasBracket_escapeText piece.text
      cases piece.marked with
      | false => simpa using hplain
      | true =>
        have hgroup := not_hasBracket_group "\\nolinkurl\x7b".toList hleads (by decide)
        simp only [Bool.not_true, Bool.false_and, Bool.true_and]
        split
        next => exact hgroup
        next hempty =>
          have hnil : escapeText piece.text = [] := by simpa using hempty
          rw [hnil]
          rfl
    · dsimp only
      split
      · exact ((complete_escapeText piece.text).inGroup (by decide)).leads 0
      · exact (complete_escapeText piece.text).leads 0
  next => exact hasBracket_escapeText s

/-- A `]` of a text shows outside URLs and Latin words, and nothing else does. -/
theorem hasBracket_escape (s : List Char) : hasBracket {} (style.escape s) = style.showsBracket s := by
  unfold escape showsBracket
  split
  next =>
    rw [hasBracket_flatMap fun piece _ => ?_]
    · congr 1
      funext piece
      have hleads : Leads (style.escapePlain piece.text) 0 0 := (complete_escapePlain style piece.text).leads 0
      cases piece.marked with
      | false => simpa using style.hasBracket_escapePlain piece.text
      | true =>
        have hgroup := not_hasBracket_group "\x7b\\latinfont ".toList hleads (by decide)
        simpa using hgroup
    · split
      · exact ((complete_escapePlain style piece.text).inGroup (by decide)).leads 0
      · exact (complete_escapePlain style piece.text).leads 0
  next => exact style.hasBracket_escapePlain s

end TextStyle

/-! ### Brackets in pieces -/

/-- Whether a `]` of a piece shows behind a scan. Text shows none in braces. -/
def Piece.showsBracket (b : BraceScan) : Piece → Bool
  | .text style source =>
    if b = {} then style.showsBracket source else (b.escaped || b.depth < 0) && hasBracket b (style.escape source)
  | p => hasBracket b p.latex

theorem Piece.hasBracket_latex (p : Piece) (b : BraceScan) : hasBracket b p.latex = p.showsBracket b := by
  cases p with
  | text style source =>
    change hasBracket b (style.escape source) = if b = {} then style.showsBracket source else
      (b.escaped || b.depth < 0) && hasBracket b (style.escape source)
    split
    next hb =>
      rw [hb]
      exact style.hasBracket_escape source
    next hb =>
      cases hbelow : b.escaped || decide (b.depth < 0) with
      | true => rfl
      | false =>
        obtain ⟨escaped, depth⟩ := b
        simp only [Bool.or_eq_false_iff, decide_eq_false_iff_not, Int.not_lt] at hbelow
        obtain ⟨rfl, hdepth⟩ := hbelow
        have hpos : depth ≠ 0 := fun h => hb (by rw [h])
        have hdeep : depth = ((0 : Nat) : Int) + (((depth - 1).toNat : Nat) + 1) := by omega
        have hleads : Leads (style.escape source) 0 0 := (complete_escape style source).leads 0
        have hnone := not_hasBracket_deeper hleads.depth (depth - 1).toNat
        rwa [← hdeep] at hnone
  | _ => rfl

theorem latexOf_cons (p : Piece) (ps : List Piece) : latexOf (p :: ps) = p.latex ++ latexOf ps := List.flatMap_cons

/-- Pieces show no `]` just if none does where it stands. -/
theorem hasBracket_latexOf (b : BraceScan) (ps : List Piece) : hasBracket b (latexOf ps) = false ↔
    ∀ before p after, ps = before ++ p :: after → p.showsBracket (b.after (latexOf before)) = false := by
  induction ps generalizing b with
  | nil => simp [latexOf, hasBracket, firstBracket?]
  | cons p ps ih =>
    rw [latexOf_cons, hasBracket_append, Bool.or_eq_false_iff, p.hasBracket_latex, ih]
    constructor
    · rintro ⟨hp, hps⟩ before q after heq
      cases before with
      | nil =>
        cases heq
        exact hp
      | cons _ before =>
        cases heq
        rw [latexOf_cons, BraceScan.after_append]
        exact hps before q after rfl
    · intro hall
      refine ⟨hall [] p ps rfl, fun before q after heq => ?_⟩
      have hbehind := hall (p :: before) q after (by rw [heq, List.cons_append])
      rwa [latexOf_cons, BraceScan.after_append] at hbehind

end WikiTypeset.Latex
