import Mathlib.Data.List.Basic
import WikiTypeset.Bidi.Class
import WikiTypeset.Text.CharClass

/-!
# TeX tokens

A row of characters as TeX takes it apart: control words, control symbols, braces and other characters. A fragment nests
from one depth to another if its braces lead from one to the other, nothing in it is left unpaired, and no command in it
concerns directions. Main statements: `texTokens_append` and `Nests.append`, by which fragments are read one by one.
-/

namespace WikiTypeset.Latex

open Bidi Text

/-- A unit of what TeX reads. -/
inductive TexToken
  /-- A backslash with the letters after it. -/
  | word (name : List Char)
  /-- A backslash with another character after it. -/
  | symbol (c : Char)
  | opening
  | closing
  | char (c : Char)
  /-- A backslash at the very end. -/
  | unpaired
  deriving DecidableEq, Repr

/-- Where a scan for tokens stands. -/
inductive TexScan
  | plain
  | backslash
  | word (name : List Char)
  deriving DecidableEq, Repr

namespace TexScan

/-- The tokens that a character completes outside control sequences, and where the scan stands after it. -/
def stepPlain (c : Char) : List TexToken × TexScan :=
  match c with
  | '\\' => ([], backslash)
  | '\x7b' => ([.opening], plain)
  | '\x7d' => ([.closing], plain)
  | c => ([.char c], plain)

/-- The tokens that a character completes, and where the scan stands after it. -/
def step : TexScan → Char → List TexToken × TexScan
  | plain, c => stepPlain c
  | backslash, c => if isAsciiLetter c then ([], word [c]) else ([.symbol c], plain)
  | word name, c =>
    if isAsciiLetter c then ([], word (name ++ [c])) else (.word name :: (stepPlain c).1, (stepPlain c).2)

/-- The token that the end completes. -/
def finish : TexScan → List TexToken
  | plain => []
  | backslash => [.unpaired]
  | word name => [.word name]

/-- The tokens of a text, from a place where the scan stands. -/
def tokens : TexScan → List Char → List TexToken
  | scan, [] => scan.finish
  | scan, c :: s => (scan.step c).1 ++ tokens (scan.step c).2 s

/-- Where the scan stands after a text. -/
def after (scan : TexScan) (s : List Char) : TexScan := s.foldl (fun scan c => (scan.step c).2) scan

end TexScan

/-- The tokens of a fragment. -/
abbrev texTokens : List Char → List TexToken := TexScan.plain.tokens

/-- A fragment that ends outside control sequences. -/
def EndsPlain (s : List Char) : Prop := TexScan.plain.after s = .plain

instance (s : List Char) : Decidable (EndsPlain s) := inferInstanceAs (Decidable (_ = _))

theorem EndsPlain.append {s t : List Char} (hs : EndsPlain s) (ht : EndsPlain t) : EndsPlain (s ++ t) := by
  unfold EndsPlain TexScan.after at *
  rw [List.foldl_append, hs, ht]

namespace TexScan

theorem unpaired_mem_of_after {scan : TexScan} {s : List Char} (h : scan.after s = backslash) :
    .unpaired ∈ scan.tokens s := by
  induction s generalizing scan with
  | nil =>
    have hscan : scan = backslash := h
    rw [hscan]
    exact List.mem_singleton_self _
  | cons c s ih => exact List.mem_append_right _ (ih h)

/-- A letter does not end a control word, and anything but a backslash may be followed by what is no letter. -/
theorem tokens_append {scan : TexScan} {s t : List Char} (hpaired : scan.after s ≠ backslash)
    (ht : scan.after s = plain ∨ ∀ c ∈ t.head?, isAsciiLetter c = false) :
    scan.tokens (s ++ t) = scan.tokens s ++ texTokens t := by
  induction s generalizing scan with
  | nil =>
    -- The scan is at the end of the first part, where only a control word could go on.
    cases scan with
    | plain => rfl
    | backslash => exact absurd rfl hpaired
    | word name =>
      have hletter : ∀ c ∈ t.head?, isAsciiLetter c = false := ht.resolve_left nofun
      cases t with
      | nil => rfl
      | cons c t => simp [tokens, step, finish, hletter c rfl]
  | cons c s ih =>
    have hrest : (scan.step c).2.tokens (s ++ t) = (scan.step c).2.tokens s ++ texTokens t := ih hpaired ht
    simp only [List.cons_append, tokens, hrest, List.append_assoc]

end TexScan

/-- A fragment that ends outside control sequences is read apart from what follows. -/
theorem EndsPlain.texTokens_append {s : List Char} (hs : EndsPlain s) (t : List Char) :
    texTokens (s ++ t) = texTokens s ++ texTokens t := by
  refine TexScan.tokens_append (fun h => ?_) (.inl hs)
  cases hs.symm.trans h

/-- So is one with no unpaired backslash at its end if no letter follows. -/
theorem texTokens_append {s t : List Char} (hs : .unpaired ∉ texTokens s)
    (ht : ∀ c ∈ t.head?, isAsciiLetter c = false) : texTokens (s ++ t) = texTokens s ++ texTokens t :=
  TexScan.tokens_append (fun h => hs (TexScan.unpaired_mem_of_after h)) (.inr ht)

/-! ### Groups and directions -/

namespace TexToken

/-- How many groups are open after a token. -/
def depth (n : Nat) : TexToken → Option Nat
  | opening => some (n + 1)
  | closing => if n = 0 then none else some (n - 1)
  | _ => some n

/-- The direction that a control word makes the ambient one. -/
def ambient? : TexToken → Option Direction
  | word name => if name = "setLTR".toList then some .ltr else if name = "setRTL".toList then some .rtl else none
  | _ => none

/-- The direction that a control word sets for the group after it. -/
def override? : TexToken → Option Direction
  | word name => if name = "LRE".toList then some .ltr else if name = "RLE".toList then some .rtl else none
  | _ => none

/-- Whether a token sets no direction and is complete. -/
def isInert (t : TexToken) : Bool := t != .unpaired && t.ambient?.isNone && t.override?.isNone

/-- How many groups are open after some tokens. -/
def depthAfter (n : Nat) (ts : List TexToken) : Option Nat := ts.foldlM depth n

theorem depthAfter_append {n m k : Nat} {ts ts' : List TexToken} (h : depthAfter n ts = some m)
    (h' : depthAfter m ts' = some k) : depthAfter n (ts ++ ts') = some k := by
  unfold depthAfter at *
  simp [List.foldlM_append, h, h']

theorem depth_add {n m : Nat} {t : TexToken} (h : t.depth n = some m) (k : Nat) : t.depth (n + k) = some (m + k) := by
  cases t with
  | opening =>
    cases h
    simp [depth, Nat.add_right_comm]
  | closing =>
    by_cases hn : n = 0
    · simp [depth, hn] at h
    · simp only [depth, hn, if_false, Option.some.injEq] at h
      have hpositive : n + k ≠ 0 := by omega
      simp only [depth, hpositive, if_false, Option.some.injEq]
      omega
  | word name | symbol c | char c | unpaired =>
    cases h
    rfl

theorem depthAfter_cons (n : Nat) (t : TexToken) (ts : List TexToken) :
    depthAfter n (t :: ts) = (t.depth n).bind fun m => depthAfter m ts := rfl

/-- What is open around some tokens stays open. -/
theorem depthAfter_add {n m : Nat} {ts : List TexToken} (h : depthAfter n ts = some m) (k : Nat) :
    depthAfter (n + k) ts = some (m + k) := by
  induction ts generalizing n with
  | nil =>
    cases h
    rfl
  | cons t ts ih =>
    obtain ⟨mid, ht, hts⟩ := Option.bind_eq_some_iff.1 ((depthAfter_cons n t ts).symm.trans h)
    rw [depthAfter_cons, depth_add ht k]
    exact ih hts

end TexToken

/-- A fragment that leads from depth `n` to depth `m`, with no unpaired backslash at its end and no direction command. -/
structure Nests (s : List Char) (n m : Nat) : Prop where
  depth : TexToken.depthAfter n (texTokens s) = some m
  inert : ∀ t ∈ texTokens s, t.isInert = true

instance (s : List Char) (n m : Nat) : Decidable (Nests s n m) :=
  decidable_of_iff (TexToken.depthAfter n (texTokens s) = some m ∧ (texTokens s).all TexToken.isInert = true)
    ⟨fun h => ⟨h.1, List.all_eq_true.1 h.2⟩, fun h => ⟨h.depth, List.all_eq_true.2 h.inert⟩⟩

namespace Nests

variable {s t : List Char} {n m k : Nat}

theorem add (h : Nests s n m) (k : Nat) : Nests s (n + k) (m + k) := ⟨TexToken.depthAfter_add h.depth k, h.inert⟩

theorem append (hs : Nests s n m) (ht : Nests t m k) (h : texTokens (s ++ t) = texTokens s ++ texTokens t) :
    Nests (s ++ t) n k := by
  refine ⟨?_, fun x hx => ?_⟩
  · rw [h]
    exact TexToken.depthAfter_append hs.depth ht.depth
  · rw [h, List.mem_append] at hx
    exact hx.elim (hs.inert x) (ht.inert x)

end Nests

/-- A fragment that leaves groups and directions alone: its braces are balanced, it does not end in an unpaired
backslash, and no direction command stands in it. -/
def Inert (s : List Char) : Prop := Nests s 0 0

instance (s : List Char) : Decidable (Inert s) := inferInstanceAs (Decidable (Nests s 0 0))

end WikiTypeset.Latex
