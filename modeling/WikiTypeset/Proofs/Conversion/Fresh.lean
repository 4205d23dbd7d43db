import Mathlib.Data.List.Perm.Subperm
import WikiTypeset.Proofs.Conversion.Inside
import WikiTypeset.Proofs.Files.Contents

/-!
# Fresh files

A fresh word is drawn until its name is free. There are more words to try than entries in the tree, so one of them is free,
and a fresh file is made where nothing stood. Work on files that fails says what is wrong with a file.
-/

namespace WikiTypeset

open Action Files Progress

namespace Files

/-! ### Names of files -/

namespace Path

variable {s : String} {here : List String} {p : Path}

/-- The text is a name that a file can have. -/
structure IsFileName (s : String) : Prop extends IsName s where
  ne_empty : s ≠ ""
  ne_dot : s ≠ "."

theorem isFileName_of_mem (h : '/' ∉ s.toList) {c : Char} (hc : c ∈ s.toList) (hdot : c ≠ '.') : IsFileName s where
  plain := h
  ne_up := by
    rintro rfl
    simp at hc
    exact hdot hc
  ne_empty := by
    rintro rfl
    simp at hc
  ne_dot := by
    rintro rfl
    simp at hc
    exact hdot hc

theorem IsFileName.ofText_eq (h : IsFileName s) : ofText s = ⟨"", [s]⟩ := by
  have hkeep : (!s.toList.isEmpty && s.toList != ['.']) = true := by
    have hempty : s.toList ≠ [] := fun hs => h.ne_empty (String.toList_eq_nil_iff.1 hs)
    have hdot : s.toList ≠ ['.'] := fun hs => h.ne_dot (String.toList_injective hs)
    simp [hempty, hdot]
  have hnames : namesIn s = [s] := by
    rw [namesIn, splitWhere_eq_self (beq_slash_eq_false h.plain)]
    simp [hkeep]
  rw [ofText, hnames, show rootIn s = "" from h.descends.relative]

theorem IsFileName.child_eq (h : IsFileName s) : p.child s = { p with names := p.names ++ [s] } := by
  rw [child, h.ofText_eq]
  rfl

theorem IsFileName.resolve_child (h : IsFileName s) : (p.child s).resolve here = p.resolve here ++ [s] :=
  resolve_name h.ofText_eq h.ne_up

end Path

/-! ### Walks to what is there -/

namespace Tree

open Path

variable {t : Tree} {here names more place : List String} {p : Path} {s : String}

theorem walk_append : t.walk here (names ++ more) = t.walk here names >>= fun place => t.walk place more := by
  induction names generalizing here with
  | nil => rfl
  | cons name names ih =>
    rw [List.cons_append, walk, walk]
    split
    · rfl
    · split
      · rfl
      · exact ih

theorem walk_name (hhere : t.isDirectory here = true) (hshort : s.utf8ByteSize ≤ 255) (hup : s ≠ "..") :
    t.walk here [s] = .ok (here ++ [s]) := by
  rw [walk, hhere, if_neg (by simp), if_neg (by omega), if_neg hup, walk]

/-- A file in a directory is where its name leads from there. -/
theorem locate_child (hs : IsFileName s) (hp : t.locate here p = .ok place) (hplace : t.isDirectory place = true)
    (hshort : s.utf8ByteSize ≤ 255) : t.locate here (p.child s) = .ok (place ++ [s]) := by
  have hwalk : t.locate here (p.child s) = t.walk (if p.isAbsolute then [] else here) (p.names ++ [s]) := by
    rw [hs.child_eq]
    rfl
  have hp : t.walk (if p.isAbsolute then [] else here) p.names = .ok place := hp
  rw [hwalk, walk_append, hp]
  exact walk_name hplace hshort hs.ne_up

/-- Names that go down lead to whatever stands there. -/
theorem IsSound.walk_eq (hs : t.IsSound) (htaken : t.isTaken (here ++ names) = true) (hup : ".." ∉ names) :
    t.walk here names = .ok (here ++ names) := by
  induction names generalizing here with
  | nil => rw [walk, List.append_nil]
  | cons name names ih =>
    rw [List.mem_cons, not_or] at hup
    have hhere : t.isDirectory here = true :=
      hs.isDirectory_above htaken (List.prefix_append here _) (by simp)
    have hshort : name.utf8ByteSize ≤ 255 := hs.name_short htaken (by simp)
    rw [walk, hhere, if_neg (by simp), if_neg (by omega), if_neg (Ne.symm hup.1)]
    have hrest : here ++ name :: names = here ++ [name] ++ names := by simp
    rw [hrest] at htaken ⊢
    exact ih htaken hup.2

/-- A name in a directory that is given from the root leads to what has it there. -/
theorem IsSound.locate_in (hs : t.IsSound) (hplace : t.isDirectory place = true) (hup : ".." ∉ place)
    (hname : IsFileName s) (hshort : s.utf8ByteSize ≤ 255) :
    t.locate here (child ⟨"/", place⟩ s) = .ok (place ++ [s]) := by
  have hlocate : t.locate here ⟨"/", place⟩ = .ok place := hs.walk_eq (isTaken_of_isDirectory hplace) hup
  exact locate_child hname hlocate hplace hshort

theorem write_of_free {c : Content} (hfault : t.fault? place = none) (hfree : t.entry place = none) :
    t.write place c = .ok (t.put place (.file c)) := by
  have hdirectory : t.isDirectory place = false := by rw [isDirectory, hfree]
  rw [write, hfault]
  dsimp only
  rw [hdirectory, if_neg (by simp)]

theorem fault?_of_write {t' : Tree} {c : Content} (h : t.write place c = .ok t') : t.fault? place = none := by
  unfold write at h
  split at h
  · cases h
  · assumption

theorem fault?_of_makeDirectory {t' : Tree} (h : t.makeDirectory place = .ok t') : t.fault? place = none := by
  unfold makeDirectory at h
  split at h
  · cases h
  · assumption

end Tree

end Files

namespace Work

open Workshop

/-! ### Work on files that fails -/

theorem entryAt_fails (p : Path) (w : Workshop) :
    Leaves ( entry? p) w (fun _ _ => True)
      fun e _ => e.isConverterFault = true ∧ ∀ place, w.tree.locate w.here p ≠ .ok place := by
  refine Leaves.get_bind ?_
  cases hlocate : w.tree.locate w.here p with
  | ok place => exact Leaves.of_pure trivial
  | error fault =>
    cases fault with
    | nameTooLong => exact Leaves.of_throw ⟨rfl, nofun⟩
    | _ => exact Leaves.of_pure trivial

/-- Whether something stands where a path leads is known, unless the path leads nowhere. -/
theorem pathIsTaken_finds (p : Path) (w : Workshop) :
    Leaves (pathIsTaken p) w (fun taken w' => taken = (w.entryAt? p).isSome ∧ w' = w)
      fun e w' => w' = w ∧ e.isConverterFault = true ∧ ∀ place, w.tree.locate w.here p ≠ .ok place := by
  refine ((entryAt_leaves p w).and (entryAt_fails p w)).bind fun found w' h => ?_
  obtain ⟨⟨rfl, rfl⟩, -⟩ := h
  exact Leaves.of_pure ⟨rfl, rfl⟩

theorem changeFile_fails (p : Path) (f : Tree → List String → Except FileFault Tree) (w : Workshop) :
    Leaves (changeFile p f) w (fun _ _ => True)
      fun e _ => e.isConverterFault = true ∧ ∀ t', w.tree.locate w.here p >>= f w.tree ≠ .ok t' := by
  have hread : Leaves (onFile p f) w (fun _ _ => True)
      fun e _ => e.isConverterFault = true ∧ ∀ t', w.tree.locate w.here p >>= f w.tree ≠ .ok t' := by
    refine Leaves.get_bind ?_
    cases hresult : w.tree.locate w.here p >>= f w.tree with
    | ok t' => exact Leaves.of_pure trivial
    | error fault => exact Leaves.of_throw ⟨rfl, nofun⟩
  exact hread.bind fun _ _ _ => Leaves.of_modify trivial

/-- What moving a file does: the move in the tree, between the places where the two paths lead. -/
theorem moveFile_leaves (p q : Path) (w : Workshop) :
    Leaves (moveFile p q) w
      (fun _ w' => (w.tree.locate w.here p = .ok (p.resolve w.here) ∧ w.tree.locate w.here q = .ok (q.resolve w.here) ∧
        w.tree.move (p.resolve w.here) (q.resolve w.here) = .ok w'.tree) ∧ w' = { w with tree := w'.tree })
      fun e w' => w' = w ∧ e.isConverterFault = true ∧ ∀ source target t', w.tree.locate w.here p = .ok source →
        w.tree.locate w.here q = .ok target → w.tree.move source target ≠ .ok t' := by
  refine Leaves.get_bind ?_
  dsimp only
  split
  · rename_i tree hmoved
    obtain ⟨source, hsource, hmoved⟩ := Formula.exists_of_bind hmoved
    obtain ⟨target, htarget, hmoved⟩ := Formula.exists_of_bind hmoved
    obtain rfl := Tree.eq_of_locate hsource
    obtain rfl := Tree.eq_of_locate htarget
    exact Leaves.of_ok rfl ⟨⟨hsource, htarget, hmoved⟩, rfl⟩
  · rename_i fault hmoved
    refine Leaves.of_throw ⟨rfl, rfl, fun source target t' hsource htarget hmove => ?_⟩
    rw [hsource, htarget] at hmoved
    exact nomatch hmoved.symm.trans hmove

/-! ### Drawing names -/

theorem toString_injective : Function.Injective (toString : Nat → String) := by
  intro m n h
  have hdigits : Nat.toDigits 10 m = Nat.toDigits 10 n := by
    simpa only [Nat.toString_eq_ofList_toDigits, String.toList_ofList] using congrArg String.toList h
  have hread := congrArg (fun digits => Nat.ofDigitChars 10 digits 0) hdigits
  simpa using hread

/-- The name of a fresh file. -/
def freshName (start ending stem : String) (n : Nat) : String := start ++ freshWord stem n ++ ending

theorem freshName_injective (start ending stem : String) : Function.Injective (freshName start ending stem) := by
  intro m n h
  simp only [freshName, freshWord, String.append_assoc] at h
  have hlists := congrArg String.toList h
  simp only [String.toList_append] at hlists
  have hnumbers : (toString m).toList = (toString n).toList := by simpa using hlists
  exact toString_injective (String.toList_injective hnumbers)

theorem isFileName_freshName {start ending stem : String} (hstart : '/' ∉ start.toList) (hstem : '/' ∉ stem.toList)
    (hending : '/' ∉ ending.toList) (n : Nat) : Path.IsFileName (freshName start ending stem n) := by
  obtain ⟨hplain, c, hc, hdot⟩ := drawn_ending hending n
  have heq : freshName start ending stem n = (start ++ stem) ++ (toString n ++ ending) := freshName_eq start stem ending n
  rw [heq]
  refine Path.isFileName_of_mem ?_ (String.toList_append ▸ List.mem_append_right _ hc) hdot
  simp only [String.toList_append, List.mem_append, not_or] at hplain ⊢
  exact ⟨⟨hstart, hstem⟩, hplain⟩

/-- Distinct names that are all taken are no more than the entries of the tree. -/
theorem card_taken_le {t : Tree} {numbers : List Nat} (place : Nat → List String) (hnodup : numbers.Nodup)
    (hplace : Function.Injective place) (hne : ∀ n, place n ≠ []) (htaken : ∀ n ∈ numbers, t.isTaken (place n) = true) :
    numbers.length ≤ t.entries.length := by
  have hsubset : numbers.map place ⊆ t.entries.map (·.1) := by
    intro r hr
    obtain ⟨n, hn, rfl⟩ := List.mem_map.1 hr
    obtain ⟨e, he⟩ := Option.isSome_iff_exists.1 (htaken n hn)
    exact List.mem_map.2 ⟨_, Tree.mem_of_entry he (hne n), rfl⟩
  have hlength := (List.subperm_of_subset (hnodup.map hplace) hsubset).length_le
  rwa [List.length_map, List.length_map] at hlength

/-- The `n`-th fresh word is the next one whose name is free. -/
structure IsNext (w : Workshop) (n : Nat) : Prop where
  lower : w.drawn < n
  upper : n ≤ w.drawn + w.tree.entries.length + 1

/-- What is drawn is the name of nothing in the directory. -/
theorem drawName_draws {directory : Path} {name : String → String} {w : Workshop}
    (hname : ∀ n, Path.IsFileName (name (freshWord w.freshStem n)))
    (hinjective : Function.Injective fun n => name (freshWord w.freshStem n)) {F : Failure → Workshop → Prop} :
    Leaves (drawName directory name) w
      (fun s w' => ∃ n, s = name (freshWord w.freshStem n) ∧ IsNext w n ∧ w' = { w with drawn := n } ∧
        ∀ place, w.tree.locate w.here (directory.child s) = .ok place → w.tree.entry place = none) F := by
  refine Leaves.get_bind ?_
  dsimp only
  generalize hfind : List.find? _ _ = n?
  cases n? with
  | some n =>
    refine Leaves.of_ok rfl ⟨n, rfl, ?_, rfl, fun place hplace => ?_⟩
    · obtain ⟨i, hi, rfl⟩ := List.mem_map.1 (List.mem_of_find?_eq_some hfind)
      have hi := List.mem_range.1 hi
      exact ⟨by omega, by omega⟩
    · have hfree := List.find?_some hfind
      dsimp only [Option.getD_some] at hplace
      rw [hplace] at hfree
      simpa [Tree.isTaken] using hfree
  | none =>
    -- All the names would be taken, but they are more than the entries.
    rw [List.find?_eq_none] at hfind
    have hnodup : ((List.range (w.tree.entries.length + 1)).map (w.drawn + 1 + ·)).Nodup :=
      List.nodup_range.map fun _ _ h => by simpa using h
    have hcard := card_taken_le (t := w.tree) (fun n => directory.resolve w.here ++ [name (freshWord w.freshStem n)]) hnodup
      (fun m n h => hinjective (by simpa using h)) (by simp) fun n hn => ?_
    · rw [List.length_map, List.length_range] at hcard
      omega
    · have htaken := hfind n hn
      cases hplace : w.tree.locate w.here (directory.child (name (freshWord w.freshStem n))) with
      | error fault => simp [hplace] at htaken
      | ok place =>
        rw [hplace] at htaken
        rw [← (hname n).resolve_child, ← Tree.eq_of_locate hplace]
        simpa using htaken

/-- A fresh file is made where nothing stood; where that cannot be done, it is because the name is too long or the
directory is not there. -/
theorem makeFreshFile_makes {directory : Path} {start ending : String} (hstart : '/' ∉ start.toList)
    (hending : '/' ∉ ending.toList) {w : Workshop} (hplain : w.IsPlain) (hsound : w.tree.IsSound) :
    Leaves (makeFreshFile directory start ending) w
      (fun p w' => ∃ n, p = Path.child ⟨"/", directory.resolve w.here⟩ (freshName start ending w.freshStem n) ∧
        IsNext w n ∧ w.tree.entry (directory.resolve w.here ++ [freshName start ending w.freshStem n]) = none ∧
        w.tree.fault? (directory.resolve w.here ++ [freshName start ending w.freshStem n]) = none ∧
        w' = { w with
          tree := w.tree.put (directory.resolve w.here ++ [freshName start ending w.freshStem n]) (.file (.text ""))
          drawn := n })
      fun e w' => e.isConverterFault = true ∧ ∃ n, IsNext w n ∧ w' = { w with drawn := n } ∧
        (w.tree.isDirectory (directory.resolve w.here) = true →
          255 < (freshName start ending w.freshStem n).utf8ByteSize) := by
  have hname : ∀ n, Path.IsFileName (freshName start ending w.freshStem n) :=
    isFileName_freshName hstart hplain.fresh hending
  have hroot : Path.resolve w.here ⟨"/", directory.resolve w.here⟩ = directory.resolve w.here :=
    Path.resolve_absolute hplain.here
  refine (absolute_leaves directory w).bind fun absolute w₁ h₁ => ?_
  obtain ⟨rfl, rfl⟩ := h₁
  refine (drawName_draws hname (freshName_injective start ending w₁.freshStem)).bind fun s w₂ h₂ => ?_
  obtain ⟨n, rfl, hnext, rfl, hfree⟩ := h₂
  have hwrite := (changeFile_leaves (Path.child ⟨"/", directory.resolve w₁.here⟩ (freshName start ending w₁.freshStem n))
    (fun t place => t.write place (.text "")) { w₁ with drawn := n }).and (changeFile_fails _ _ _)
  refine (hwrite.imp (fun _ w₃ h₃ => h₃) fun e w₃ h₃ => ?_).bind fun _ w₃ h₃ => Leaves.of_pure ⟨n, rfl, hnext, ?_⟩
  · obtain ⟨rfl, hfault, hnot⟩ := h₃
    refine ⟨hfault, n, hnext, rfl, fun hdirectory => ?_⟩
    by_contra hshort
    have hplace : w₁.tree.locate w₁.here
        (Path.child ⟨"/", directory.resolve w₁.here⟩ (freshName start ending w₁.freshStem n)) =
        .ok (directory.resolve w₁.here ++ [freshName start ending w₁.freshStem n]) :=
      hsound.locate_in hdirectory (Path.not_mem_resolve hplain.here) (hname n) (by omega)
    have hwritten := Tree.write_of_free (c := .text "") (hsound.fault?_child hdirectory (by omega)) (hfree _ hplace)
    refine hnot _ (Eq.trans ?_ hwritten)
    show w₁.tree.locate w₁.here _ >>= _ = _
    rw [hplace]
    rfl
  · obtain ⟨⟨⟨hlocate, hwritten⟩, hw₃⟩, -⟩ := h₃
    rw [(hname n).resolve_child, hroot] at hlocate hwritten
    exact ⟨hfree _ hlocate, Tree.fault?_of_write hwritten, by rw [hw₃, (Tree.makes_of_write hwritten).eq]⟩

end Work

end WikiTypeset
