import WikiTypeset.Conversion.Workshop
import WikiTypeset.Proofs.Conversion.Workshop
import WikiTypeset.Proofs.Formula.Reader

/-!
# What work in a build directory leaves alone

Work in a build directory writes below it, and tells of its progress. Where the names that it is given lead down, all
that stands elsewhere stays as it was.
-/

namespace WikiTypeset

open Action Files Progress

namespace Workshop

/-- Paths mean what they say: the way from the root to the current directory has no steps upwards, and fresh words have
no slashes. -/
structure IsPlain (w : Workshop) : Prop where
  here : ".." ∉ w.here
  fresh : '/' ∉ w.freshStem.toList

/-- The reports have been told, if someone watches, and paths lead where they did. -/
structure Tells (w : Workshop) (reports : List Report) (w' : Workshop) : Prop where
  here : w'.here = w.here
  freshStem : w'.freshStem = w.freshStem
  watched : w'.watched = w.watched
  reports : w'.reports = w.reports ++ if w.watched then reports else []

variable {w w₁ w₂ : Workshop} {rs rs' : List Report}

theorem Tells.append (h : w.Tells rs w₁) (h' : w₁.Tells rs' w₂) : w.Tells (rs ++ rs') w₂ where
  here := h'.here.trans h.here
  freshStem := h'.freshStem.trans h.freshStem
  watched := h'.watched.trans h.watched
  reports := by
    rw [h'.reports, h.reports, h.watched]
    split <;> simp

theorem Tells.isPlain (h : w.Tells rs w₁) (hw : w.IsPlain) : w₁.IsPlain where
  here := by
    rw [h.here]
    exact hw.here
  fresh := by
    rw [h.freshStem]
    exact hw.fresh

theorem Unmoved.tells (h : w.Unmoved w₁) : w.Tells [] w₁ where
  here := h.here
  freshStem := h.freshStem
  watched := h.watched
  reports := by simp [h.reports]

theorem tells_of_tree (w : Workshop) (t : Tree) : w.Tells [] { w with tree := t } where
  here := rfl
  freshStem := rfl
  watched := rfl
  reports := by simp [Workshop.reports, Workshop.notices]

/-- Where no one watches, nothing is told. -/
theorem Tells.of_unwatched (h : w.Tells rs w₁) (hw : ¬ w.watched = true) (rs' : List Report) : w.Tells rs' w₁ where
  here := h.here
  freshStem := h.freshStem
  watched := h.watched
  reports := by rw [h.reports, if_neg hw, if_neg hw]

/-- The reports have been told, and if `P` holds, all but what is below the build directory stands as it did. -/
structure Goes (build : Path) (P : Prop) (w : Workshop) (reports : List Report) (w' : Workshop) : Prop where
  tells : w.Tells reports w'
  elsewhere : P → w.IsPlain → Tree.SameOutside (build.resolve w.here) w.tree w'.tree

variable {build : Path} {P : Prop}

theorem Goes.of_unmoved (h : w.Unmoved w₁) : w.Goes build P [] w₁ where
  tells := h.tells
  elsewhere _ _ q _ := by rw [h.tree]

theorem Goes.append (h : w.Goes build P rs w₁) (h' : w₁.Goes build P rs' w₂) : w.Goes build P (rs ++ rs') w₂ where
  tells := h.tells.append h'.tells
  elsewhere hP hw := by
    have hrest := h'.elsewhere hP (h.tells.isPlain hw)
    rw [h.tells.here] at hrest
    exact (h.elsewhere hP hw).trans hrest

/-- All has stayed as it was but what is below the build directory, and nothing has been told of progress. -/
def inside (build : Path) (P : Prop) : Alteration Workshop where
  rel w w' := w.Goes build P [] w'
  refl w := .of_unmoved (.refl w)
  trans h h' := h.append h'

end Workshop

namespace Work

open Workshop

variable {build : Path} {P : Prop} {α : Type}

theorem inside_of_unmoved {Q : α → Prop} {a : Work α} (h : MovesWith unmoved Q a) : MovesWith (inside build P) Q a :=
  h.weaken fun _ _ => .of_unmoved

/-- A change of the tree below the build directory. -/
theorem goes_of_tree {w : Workshop} {t : Tree}
    (h : P → w.IsPlain → Tree.SameOutside (build.resolve w.here) w.tree t) :
    w.Goes build P [] { w with tree := t } where
  tells := tells_of_tree w t
  elsewhere := h

/-- What is done where a path leads is done inside if the path leads below the build directory. -/
theorem changeFile_goes {p : Path} {f : Tree → List String → Except FileFault Tree} {w : Workshop}
    (hf : ∀ t place t', f t place = .ok t' → ∀ q, q ≠ place → t'.entry q = t.entry q)
    (hp : P → w.IsPlain → Path.IsBelow (build.resolve w.here) (p.resolve w.here)) :
    Leaves (changeFile p f) w (fun _ w' => w.Goes build P [] w') fun _ w' => w.Goes build P [] w' := by
  refine (changeFile_leaves p f w).imp (fun _ w' h => ?_) fun _ w₁ h => ?_
  · obtain ⟨⟨-, htree⟩, hw'⟩ := h
    rw [hw']
    refine goes_of_tree fun hP hw q hq => hf _ _ _ htree q ?_
    rintro rfl
    exact hq (hp hP hw)
  · subst h
    exact .of_unmoved (.refl w₁)

/-- A path that leads below the build directory from everywhere. -/
def LeadsInside (build : Path) (P : Prop) (p : Path) : Prop :=
  P → ∀ here, Path.IsBelow (build.resolve here) (p.resolve here)

theorem leadsInside_name {name : String} (h : Path.ofText name = ⟨"", [name]⟩) (hname : name ≠ "..") :
    LeadsInside build P (build.child name) := by
  intro _ here
  rw [Path.resolve_name h hname]
  exact Path.isBelow_append (List.cons_ne_nil _ _)

theorem LeadsInside.child {p : Path} {s : String} (hp : LeadsInside build P p) (hs : P → (Path.ofText s).Descends) :
    LeadsInside build P (p.child s) := by
  intro hP here
  rw [Path.resolve_child (hs hP)]
  exact (hp hP here).append _

theorem changeFile_inside {p : Path} {f : Tree → List String → Except FileFault Tree}
    (hf : ∀ t place t', f t place = .ok t' → ∀ q, q ≠ place → t'.entry q = t.entry q) (hp : LeadsInside build P p) :
    Moves (inside build P) (changeFile p f) :=
  fun w => (changeFile_goes hf fun hP _ => hp hP w.here).imp_left fun _ _ h => ⟨trivial, h⟩

theorem entry_write {t t' : Tree} {place q : List String} {c : Content} (h : t.write place c = .ok t') (hq : q ≠ place) :
    t'.entry q = t.entry q :=
  (Tree.makes_of_write h).entry_of_ne hq

theorem writeText_inside {p : Path} (hp : LeadsInside build P p) (s : String) : Moves (inside build P) (writeText p s) :=
  changeFile_inside (fun _ _ _ h _ hq => entry_write h hq) hp

theorem makeDirectory_inside {p : Path} (hp : LeadsInside build P p) : Moves (inside build P) (makeDirectory p) :=
  changeFile_inside (fun _ _ _ h _ hq => (Tree.makes_of_makeDirectory h).1.entry_of_ne hq) hp

theorem removeFile_inside {p : Path} (hp : LeadsInside build P p) : Moves (inside build P) (removeFile p) := by
  refine changeFile_inside (fun t place t' h q hq => ?_) hp
  rw [(Tree.eq_of_unlink h).1]
  by_cases hnil : q = []
  · subst hnil
    rfl
  · rw [Tree.entry_remove hnil, if_neg hq]

theorem moveFile_goes {p q : Path} {w : Workshop}
    (hp : P → w.IsPlain → Path.IsBelow (build.resolve w.here) (p.resolve w.here))
    (hq : P → w.IsPlain → Path.IsBelow (build.resolve w.here) (q.resolve w.here)) :
    Leaves (moveFile p q) w (fun _ w' => w.Goes build P [] w') fun _ w' => w.Goes build P [] w' := by
  refine Leaves.get_bind ?_
  dsimp only
  split
  · rename_i tree hmoved
    refine Leaves.of_ok rfl (goes_of_tree fun hP hw r hr => ?_)
    obtain ⟨source, hsource, hmoved⟩ := Formula.exists_of_bind hmoved
    obtain ⟨target, htarget, hmoved⟩ := Formula.exists_of_bind hmoved
    obtain rfl := Tree.eq_of_locate hsource
    obtain rfl := Tree.eq_of_locate htarget
    exact Tree.entry_move hmoved (fun h => hr ((hp hP hw).extend h)) fun h => hr ((hq hP hw).extend h)
  · exact Leaves.of_throw (.of_unmoved (.refl w))

theorem run_inside (command : List String) : Moves (inside build P) (run command) :=
  inside_of_unmoved (run_unmoved command)

theorem report_leaves (r : Report) (w : Workshop) {F : Failure → Workshop → Prop} :
    Leaves (report r) w (fun _ w' => w.Tells [r] w' ∧ w'.tree = w.tree) F := by
  refine Leaves.get_bind ?_
  by_cases hw : w.watched = true
  · rw [if_pos hw]
    refine Leaves.of_modify ⟨⟨rfl, rfl, rfl, ?_⟩, rfl⟩
    rw [Workshop.reports_cons, hw]
    rfl
  · rw [if_neg hw]
    refine Leaves.of_pure ⟨⟨rfl, rfl, rfl, ?_⟩, rfl⟩
    rw [if_neg hw, List.append_nil]

theorem report_goes (r : Report) (w : Workshop) {F : Failure → Workshop → Prop} :
    Leaves (report r) w (fun _ w' => w.Goes build P [r] w') F :=
  (report_leaves r w).imp_left fun _ w' h => ⟨h.1, fun _ _ _ _ => by rw [h.2]⟩

theorem forM_report_goes {γ : Type} (r : γ → Report) (xs : List γ) (w : Workshop) {F : Failure → Workshop → Prop} :
    Leaves (xs.forM fun x => report (r x)) w (fun _ w' => w.Goes build P (xs.map r) w') F := by
  induction xs generalizing w with
  | nil => exact Leaves.of_pure (.of_unmoved (.refl w))
  | cons x xs ih =>
    have hx : Leaves (report (r x)) w (fun _ w' => w.Goes build P [r x] w') F := report_goes (r x) w
    refine hx.bind fun _ w₁ h₁ => (ih w₁).imp_left fun _ w₂ h₂ => ?_
    exact h₁.append h₂

theorem toString_isDigit (n : Nat) : ∀ c ∈ (toString n).toList, c.isDigit = true := by
  intro c hc
  rw [Nat.toString_eq_ofList_toDigits, String.toList_ofList] at hc
  exact Nat.isDigit_of_mem_toDigits (by decide) (by decide) hc

theorem toString_ne_nil (n : Nat) : (toString n).toList ≠ [] := by
  rw [Nat.toString_eq_ofList_toDigits, String.toList_ofList]
  exact Nat.toDigits_ne_nil

/-- What a drawn name ends in: its number, and what comes behind it. -/
theorem drawn_ending {ending : String} (hending : '/' ∉ ending.toList) (n : Nat) :
    '/' ∉ (toString n ++ ending).toList ∧ ∃ c ∈ (toString n ++ ending).toList, c ≠ '.' := by
  have hdigits := toString_isDigit n
  rw [String.toList_append]
  constructor
  · rw [List.mem_append, not_or]
    exact ⟨fun hc => absurd (hdigits _ hc) (by decide), hending⟩
  · obtain ⟨c, hc⟩ := List.exists_mem_of_ne_nil _ (toString_ne_nil n)
    refine ⟨c, List.mem_append_left _ hc, ?_⟩
    rintro rfl
    exact absurd (hdigits _ hc) (by decide)

theorem freshName_eq (start stem ending : String) (n : Nat) :
    start ++ freshWord stem n ++ ending = (start ++ stem) ++ (toString n ++ ending) := by
  simp only [freshWord, String.append_assoc]

/-- A fresh file in a directory below the build directory is there itself, under a name. -/
theorem makeFreshFile_leaves {directory : Path} (hdirectory : LeadsInside build P directory) {start ending : String}
    (hstart : '/' ∉ start.toList) (hending : '/' ∉ ending.toList) (w : Workshop) :
    Leaves (makeFreshFile directory start ending) w
      (fun p w' => w.Goes build P [] w' ∧
        (P → w.IsPlain → Path.IsBelow (build.resolve w.here) (p.resolve w.here)) ∧
        ∃ name, p.names.getLast? = some name ∧ Path.IsName name)
      fun _ w' => w.Goes build P [] w' := by
  refine (absolute_leaves directory w).bind fun absolute w₁ h₁ => ?_
  obtain ⟨rfl, rfl⟩ := h₁
  refine (drawName_leaves _ _ w₁).bind fun s w₂ h₂ => ?_
  obtain ⟨⟨n, rfl⟩, h₂⟩ := h₂
  obtain ⟨hplain, hdot⟩ := drawn_ending hending n
  have hinside : P → w₁.IsPlain → Path.IsBelow (build.resolve w₁.here)
      ((Path.child ⟨"/", directory.resolve w₁.here⟩ (start ++ freshWord w₁.freshStem n ++ ending)).resolve
        w₁.here) := by
    intro hP hw
    have hbefore : '/' ∉ (start ++ w₁.freshStem).toList := by
      rw [String.toList_append, List.mem_append, not_or]
      exact ⟨hstart, hw.fresh⟩
    rw [freshName_eq, Path.resolve_child (Path.isName_append hbefore hplain hdot).descends,
      Path.resolve_absolute hw.here]
    exact (hdirectory hP w₁.here).append _
  have hwrite : Leaves (writeText (Path.child ⟨"/", directory.resolve w₁.here⟩
        (start ++ freshWord w₁.freshStem n ++ ending)) "") w₂
      (fun _ w' => w₂.Goes build P [] w') fun _ w' => w₂.Goes build P [] w' := by
    refine changeFile_goes (fun _ _ _ h _ hq => entry_write h hq) fun hP hw => ?_
    have hw₁ : w₁.IsPlain := ⟨h₂.here ▸ hw.here, h₂.freshStem ▸ hw.fresh⟩
    rw [h₂.here]
    exact hinside hP hw₁
  have hgoes : ∀ w', w₂.Goes build P [] w' → w₁.Goes build P [] w' := fun w' h => (Goes.of_unmoved h₂).append h
  refine (hwrite.imp (fun _ _ h => hgoes _ h) fun _ _ h => hgoes _ h).bind fun _ w₃ h₃ => ?_
  refine Leaves.of_pure ⟨h₃, hinside, ?_⟩
  obtain ⟨before, hlast, hbefore⟩ := Path.getLast?_ofText (s := start ++ w₁.freshStem) hplain hdot
  rw [← freshName_eq] at hlast
  exact ⟨_, Path.getLast?_child _ hlast, Path.isName_append hbefore hplain hdot⟩

end Work

end WikiTypeset
