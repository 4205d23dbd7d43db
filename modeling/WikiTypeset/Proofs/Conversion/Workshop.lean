import WikiTypeset.Bundle.Store
import WikiTypeset.Conversion.Workshop
import WikiTypeset.Proofs.Files.Places
import WikiTypeset.Proofs.Leaves

/-!
# What basic work changes

Telling of anything but progress, looking at files and drawing names move nothing: the tree, the current directory and
the reports stay as they are. What writes to a file changes the tree where its path leads, and nothing else.
-/

namespace WikiTypeset

open Action Files Progress

namespace Workshop

/-- Neither the files nor what has been reported has changed, nor where paths lead. -/
structure Unmoved (w w' : Workshop) : Prop where
  tree : w'.tree = w.tree
  here : w'.here = w.here
  freshStem : w'.freshStem = w.freshStem
  watched : w'.watched = w.watched
  reports : w'.reports = w.reports

theorem Unmoved.refl (w : Workshop) : w.Unmoved w := ⟨rfl, rfl, rfl, rfl, rfl⟩

theorem Unmoved.trans {w w₁ w₂ : Workshop} (h : w.Unmoved w₁) (h₁ : w₁.Unmoved w₂) : w.Unmoved w₂ where
  tree := h₁.tree.trans h.tree
  here := h₁.here.trans h.here
  freshStem := h₁.freshStem.trans h.freshStem
  watched := h₁.watched.trans h.watched
  reports := h₁.reports.trans h.reports

/-- All has stayed as it was, for the work that is to come. -/
def unmoved : Alteration Workshop := ⟨Unmoved, .refl, .trans⟩

/-- The reports with another notice. -/
theorem reports_cons (w : Workshop) (n : Notice) : Workshop.reports { w with told := n :: w.told } =
    w.reports ++ (match n with
      | .report r => [r]
      | _ => []) := by
  unfold reports notices
  cases n <;> simp

/-- What stands where a path leads. -/
def entryAt? (w : Workshop) (p : Path) : Option Entry := (w.tree.locate w.here p).toOption.bind w.tree.entry

theorem Unmoved.entryAt? {w w' : Workshop} (h : w.Unmoved w') (p : Path) : w'.entryAt? p = w.entryAt? p := by
  unfold Workshop.entryAt?
  rw [h.tree, h.here]

def storeAt? (w : Workshop) (p : Path) : Option Store :=
  match w.entryAt? p with
  | some (.file content) => some { path := p, rows := Store.rowsOf content }
  | _ => none

theorem storeAt?_congr {w w' : Workshop} {p : Path} (h : w'.entryAt? p = w.entryAt? p) :
    w'.storeAt? p = w.storeAt? p := by
  unfold storeAt?
  rw [h]

end Workshop

namespace Work

open Workshop

theorem unmoved_of_told {n : Notice} (hn : ∀ r, n ≠ .report r) (w : Workshop) :
    w.Unmoved { w with told := n :: w.told } := by
  refine ⟨rfl, rfl, rfl, rfl, ?_⟩
  rw [Workshop.reports_cons]
  cases n with
  | report r => exact absurd rfl (hn r)
  | record r => simp
  | line s => simp

theorem tell_unmoved {n : Notice} (hn : ∀ r, n ≠ .report r) : Moves unmoved (tell n) :=
  MovesWith.of_modify (unmoved_of_told hn)

theorem note_unmoved (log : Log) : Moves unmoved (note log) :=
  MovesWith.forM fun _ _ => tell_unmoved fun _ h => by cases h

theorem say_unmoved (level : LogLevel) (source : LogSource) (text : String) : Moves unmoved (say level source text) :=
  tell_unmoved fun _ h => by cases h

theorem say_leaves (level : LogLevel) (source : LogSource) (text : String) (w : Workshop)
    {F : Failure → Workshop → Prop} : Leaves (say level source text) w (fun _ w' => w.Unmoved w') F :=
  Leaves.of_modify (unmoved_of_told (fun _ h => by cases h) w)

theorem modify_unmoved {g : Workshop → Workshop} (h : ∀ w : Workshop, w.Unmoved (g w)) :
    Moves unmoved (modify g : Work Unit) :=
  MovesWith.of_modify h

theorem lookup_unmoved (code : String) : MovesWith unmoved (· = Language.ofCode code) (lookup code) := by
  refine MovesWith.get_bind fun w => ?_
  rcases Language.noteLookup w.warned code with ⟨warned, log⟩
  refine (modify_unmoved fun w => ?_).bind fun _ _ => (note_unmoved log).bind fun _ _ => MovesWith.of_pure rfl
  exact ⟨rfl, rfl, rfl, rfl, rfl⟩

theorem entryAt_leaves (p : Path) (w : Workshop) :
    Leaves ( entry? p) w (fun found w' => found = w.entryAt? p ∧ w' = w) fun _ w' => w' = w := by
  refine Leaves.get_bind ?_
  unfold Workshop.entryAt?
  cases w.tree.locate w.here p with
  | ok place => exact Leaves.of_pure ⟨rfl, rfl⟩
  | error fault =>
    cases fault with
    | nameTooLong => exact Leaves.of_throw rfl
    | _ => exact Leaves.of_pure ⟨rfl, rfl⟩

theorem entryAt_unmoved (p : Path) : Moves unmoved ( entry? p) :=
  fun w => (entryAt_leaves p w).imp (fun _ _ h => ⟨trivial, h.2 ▸ .refl w⟩) fun _ _ h => h ▸ .refl w

theorem pathIsTaken_unmoved (p : Path) : Moves unmoved (pathIsTaken p) :=
  (entryAt_unmoved p).bind fun _ _ => MovesWith.of_pure trivial

/-- What is done to a file is done where its path leads. -/
theorem onFile_leaves {α : Type} (p : Path) (f : Tree → List String → Except FileFault α) (w : Workshop) :
    Leaves (onFile p f) w
      (fun x w' => (w.tree.locate w.here p = .ok (p.resolve w.here) ∧ f w.tree (p.resolve w.here) = .ok x) ∧ w' = w)
      fun _ w' => w' = w := by
  refine Leaves.get_bind ?_
  cases hresult : w.tree.locate w.here p >>= f w.tree with
  | error fault => exact Leaves.of_throw rfl
  | ok x =>
    refine Leaves.of_pure ⟨?_, rfl⟩
    cases hlocate : w.tree.locate w.here p with
    | error fault =>
      rw [hlocate] at hresult
      cases hresult
    | ok place =>
      obtain rfl := Tree.eq_of_locate hlocate
      rw [hlocate] at hresult
      exact ⟨rfl, hresult⟩

theorem onFile_unmoved {α : Type} (p : Path) (f : Tree → List String → Except FileFault α) :
    Moves unmoved (onFile p f) :=
  fun w => (onFile_leaves p f w).imp (fun _ _ h => ⟨trivial, h.2 ▸ .refl w⟩) fun _ _ h => h ▸ .refl w

theorem pathIsTaken_leaves (p : Path) (w : Workshop) :
    Leaves (pathIsTaken p) w (fun taken w' => taken = (w.entryAt? p).isSome ∧ w' = w) fun _ w' => w' = w :=
  (entryAt_leaves p w).bind fun _ _ h => Leaves.of_pure ⟨congrArg Option.isSome h.1, h.2⟩

/-- What is read is what stands where the path leads. -/
theorem readContent_leaves (p : Path) (w : Workshop) :
    Leaves (readContent p) w (fun content w' => w.entryAt? p = some (.file content) ∧ w' = w) fun _ w' => w' = w := by
  refine (onFile_leaves p _ w).imp_left fun content w' h => ?_
  obtain ⟨⟨hlocate, hread⟩, rfl⟩ := h
  refine ⟨?_, rfl⟩
  unfold Tree.read at hread
  split at hread
  · cases hread
  · split at hread
    · rename_i hentry
      cases hread
      simp [Workshop.entryAt?, hlocate, hentry, Except.toOption]
    · cases hread
    · cases hread

theorem readText_leaves (p : Path) (w : Workshop) :
    Leaves (readText p) w
      (fun s w' => (∃ content, w.entryAt? p = some (.file content) ∧ s = plainLines (content.text?.getD "")) ∧ w' = w)
      fun _ w' => w' = w := by
  refine (readContent_leaves p w).bind fun content w' h => Leaves.of_pure ?_
  exact ⟨⟨content, h.1, rfl⟩, h.2⟩

theorem readContent_unmoved (p : Path) : Moves unmoved (readContent p) := onFile_unmoved p _

theorem readText_unmoved (p : Path) : Moves unmoved (readText p) :=
  (readContent_unmoved p).bind fun _ _ => MovesWith.of_pure trivial

theorem run_unmoved (command : List String) : Moves unmoved (run command) := by
  refine (modify_unmoved fun w => ?_).bind fun _ _ => MovesWith.get_bind fun w => ?_
  · exact ⟨rfl, rfl, rfl, rfl, rfl⟩
  · split
    · exact MovesWith.of_pure trivial
    · exact MovesWith.of_throw
    · exact MovesWith.of_throw

/-- The name that is drawn has the stem of the workshop, with a number behind it. -/
theorem drawName_leaves (directory : Path) (name : String → String) (w : Workshop) {F : Failure → Workshop → Prop} :
    Leaves (drawName directory name) w (fun s w' => (∃ n, s = name (freshWord w.freshStem n)) ∧ w.Unmoved w') F := by
  refine Leaves.get_bind ?_
  exact Leaves.of_ok rfl ⟨⟨_, rfl⟩, rfl, rfl, rfl, rfl, rfl⟩

theorem absolute_leaves (p : Path) (w : Workshop) {F : Failure → Workshop → Prop} :
    Leaves (absolute p) w (fun q w' => q = ⟨"/", p.resolve w.here⟩ ∧ w' = w) F :=
  Leaves.get_bind (Leaves.of_pure ⟨rfl, rfl⟩)

/-- A change of a file, if it succeeds, is one of the tree where the path leads. -/
theorem changeFile_leaves (p : Path) (f : Tree → List String → Except FileFault Tree) (w : Workshop) :
    Leaves (changeFile p f) w
      (fun _ w' => (w.tree.locate w.here p = .ok (p.resolve w.here) ∧ f w.tree (p.resolve w.here) = .ok w'.tree) ∧
        w' = { w with tree := w'.tree })
      fun _ w' => w' = w := by
  refine (onFile_leaves p f w).bind fun tree w₁ h₁ => ?_
  obtain ⟨hplace, rfl⟩ := h₁
  exact Leaves.of_modify ⟨hplace, rfl⟩

/-- What stands where the path leads goes, with all below it. -/
theorem removeAll_leaves (p : Path) (w : Workshop) {F : Failure → Workshop → Prop} :
    Leaves (removeAll p) w
      (fun _ w' => w' = { w with tree := w'.tree } ∧
        ∀ place, w.tree.locate w.here p = .ok place → w'.tree = w.tree.removeAll place) F := by
  refine Leaves.get_bind ?_
  cases w.tree.locate w.here p with
  | ok place =>
    refine Leaves.of_ok rfl ⟨rfl, fun place' h => ?_⟩
    cases h
    rfl
  | error fault => exact Leaves.of_pure ⟨rfl, nofun⟩

end Work

theorem Store.ofPath_leaves (p : Path) (w : Workshop) :
    Leaves (Store.ofPath p) w (fun store w' => w.storeAt? p = some store ∧ w' = w) fun _ w' => w' = w := by
  refine (Work.entryAt_leaves p w).bind fun entry? w' h => ?_
  obtain ⟨rfl, rfl⟩ := h
  unfold Workshop.storeAt?
  rcases w'.entryAt? p with _ | _ | content
  · exact Leaves.of_throw rfl
  · exact Leaves.of_throw rfl
  · exact Leaves.of_pure ⟨rfl, rfl⟩

end WikiTypeset
