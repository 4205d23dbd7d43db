import WikiTypeset.Conversion.Convert
import WikiTypeset.Proofs.Collection.Steps
import WikiTypeset.Proofs.Media.Preparation

/-!
# The stages of a conversion

A conversion prepares a build directory, images, and the LaTeX of the collection, and compiles it. Each of the four is a
stage. What is written elsewhere than in the build directory is the output, and nothing follows it that can fail. Main
statement: `workIn_ends`.
-/

namespace WikiTypeset

open Action Files Progress Workshop

/-- The work goes through `n` stages and ends with something else; if it fails, it has gone through no more stages, and
has done nothing else. -/
def EndsAt {α : Type} (build : Path) (P : Prop) (n : Nat) (w : Workshop) (R : Workshop → Workshop → Prop) (a : Work α) :
    Prop :=
  Leaves a w (fun _ w' => ∃ bs w₁, bs.length = n ∧ Passes build P bs w w₁ ∧ R w₁ w')
    fun _ w' => ∃ bs, bs.length ≤ n ∧ Passes build P bs w w'

section Ending

variable {α β : Type} {build : Path} {P : Prop} {m n : Nat} {w : Workshop} {a : Work α} {f : α → Work β}
variable {R R' : Workshop → Workshop → Prop}

theorem ProceedsAt.ends {Q : α → Workshop → Prop} (ha : ProceedsAt build P m w Q a)
    (hf : ∀ x w', Q x w' → EndsAt build P n w' R (f x)) : EndsAt build P (m + n) w R (a >>= f) := by
  refine Leaves.bind (M := fun x w' => Q x w' ∧ ∃ bs, bs.length = m ∧ Passes build P bs w w')
    (ha.imp (fun _ _ h => h) fun _ _ h => ?_) fun x w₁ h₁ => ?_
  · obtain ⟨bs, hlength, h⟩ := h
    exact ⟨bs, by omega, h⟩
  · obtain ⟨hx, bs, hlength, h₁⟩ := h₁
    refine (hf x w₁ hx).imp (fun y w₂ h₂ => ?_) fun _ w₂ h₂ => ?_
    · obtain ⟨bs', w', hlength', h', hend⟩ := h₂
      refine ⟨bs ++ bs', w', ?_, h₁.append h', hend⟩
      rw [List.length_append, hlength, hlength']
    · obtain ⟨bs', hlength', h₂⟩ := h₂
      refine ⟨bs ++ bs', ?_, h₁.append h₂⟩
      rw [List.length_append]
      omega

/-- Work that ends, and what follows and cannot fail. -/
theorem EndsAt.bind_sure (ha : EndsAt build P n w R a)
    (hf : ∀ x w₁ w', R w₁ w' → ∀ F, Leaves (f x) w' (fun _ w'' => R' w₁ w'') F) : EndsAt build P n w R' (a >>= f) := by
  refine Leaves.bind ha fun x w' h => ?_
  obtain ⟨bs, w₁, hlength, hpasses, hend⟩ := h
  exact (hf x w₁ w' hend _).imp_left fun _ w'' h => ⟨bs, w₁, hlength, hpasses, h⟩

end Ending

namespace Compilation

variable {build : Path} {P : Prop}

/-! ### Compiling -/

theorem readLog_unmoved (build : Path) : Moves unmoved (readLog build) := by
  refine (Work.pathIsTaken_unmoved _).bind fun taken _ => ?_
  split
  · exact Work.readText_unmoved _
  · exact MovesWith.of_pure trivial

theorem leadsInside_log : Work.LeadsInside build P (build.child (jobName ++ ".log")) :=
  Work.leadsInside_name (by decide) (by decide)

theorem leadsInside_pdf : Work.LeadsInside build P (build.child (jobName ++ ".pdf")) :=
  Work.leadsInside_name (by decide) (by decide)

theorem leadsInside_driver : Work.LeadsInside build P (build.child (jobName ++ ".tex")) :=
  Work.leadsInside_name (by decide) (by decide)

/-- A run of the compiler leaves its files in the build directory. -/
theorem runCompiler_inside (command : List String) :
    Moves (inside build P) (Work.runCompiler build jobName command) := by
  intro w
  refine Leaves.get_bind ?_
  dsimp only
  generalize Work.nextPass w.programs.passes = next
  obtain ⟨pass, passes⟩ := next
  refine Leaves.bind (M := fun _ w' => w.Goes build P [] w') (Leaves.of_ok rfl (.of_unmoved ?_)) fun _ w₁ h₁ => ?_
  · exact ⟨rfl, rfl, rfl, rfl, rfl⟩
  refine Leaves.imp ((?_ : Moves (inside build P) _) w₁) (fun _ _ h => ⟨trivial, h₁.append h.2⟩) fun _ _ h => h₁.append h
  -- The log and the document are written in this order, each only if the pass leaves one.
  cases pass.log?
  case' some s => refine (Work.writeText_inside leadsInside_log s).bind fun _ _ => ?_
  all_goals
    cases pass.pdf? with
    | some s => exact (Work.writeText_inside leadsInside_pdf s).bind fun _ _ => MovesWith.of_pure trivial
    | none => exact MovesWith.of_pure trivial

theorem runPasses_inside (command : List String) (n left : Nat) :
    Moves (inside build P) (runPasses build command n left) := by
  induction left generalizing n with
  | zero => exact Work.inside_of_unmoved (Work.say_unmoved _ _ _)
  | succ left ih =>
    refine (Work.inside_of_unmoved (Work.say_unmoved _ _ _)).bind fun _ _ => ?_
    refine (runCompiler_inside command).bind fun status _ => ?_
    have hlog : Moves (inside build P) (readLog build) := Work.inside_of_unmoved (readLog_unmoved build)
    have hagain : Moves (inside build P) (do
        if needsRerun (← readLog build) then runPasses build command (n + 1) left) := by
      refine hlog.bind fun log _ => ?_
      split
      · exact ih (n + 1)
      · exact MovesWith.of_pure trivial
    split
    · exact hlog.bind fun _ _ => MovesWith.of_throw
    · exact hagain

theorem makePdf_inside (size : PaperSize) : Moves (inside build P) (makePdf build size) := by
  refine MovesWith.get_bind fun w => ?_
  split
  · exact MovesWith.of_throw
  · refine (Work.writeText_inside leadsInside_driver _).bind fun _ _ => ?_
    refine (runPasses_inside _ 1 passLimit).bind fun _ _ => ?_
    refine (Work.inside_of_unmoved (Work.pathIsTaken_unmoved _)).bind fun taken _ => ?_
    have hlog : Moves (inside build P) (readLog build) := Work.inside_of_unmoved (readLog_unmoved build)
    split
    · exact Work.inside_of_unmoved (Work.readContent_unmoved _)
    · exact hlog.bind fun _ _ => MovesWith.of_throw

/-- The output has been written, if it is a file, and nothing else has been. -/
structure Delivers (o : ConversionOptions) (w w' : Workshop) : Prop where
  tells : w.Tells [] w'
  elsewhere : ∀ q, (∀ file, o.output? = some file → q ≠ file.resolve w.here) → w'.tree.entry q = w.tree.entry q
  directories : ∀ q, w'.tree.isDirectory q = w.tree.isDirectory q

theorem writeOutput_leaves (c : Content) (o : ConversionOptions) (w : Workshop) :
    Leaves (writeOutput c o) w (fun _ w' => Delivers o w w') fun _ w' => w' = w := by
  unfold writeOutput
  cases houtput : o.output? with
  | none =>
    refine Leaves.of_modify ⟨⟨rfl, rfl, rfl, ?_⟩, fun _ _ => rfl, fun _ => rfl⟩
    simp [Workshop.reports, Workshop.notices]
  | some file =>
    refine Leaves.get_bind ?_
    split
    · rename_i tree hwritten
      obtain ⟨place, hplace, hwritten⟩ := Formula.exists_of_bind hwritten
      obtain rfl := Tree.eq_of_locate hplace
      have hmakes := Tree.makes_of_write hwritten
      refine Leaves.of_ok rfl ⟨tells_of_tree w tree, fun q hq => ?_, fun q => hmakes.isDirectory_eq⟩
      exact hmakes.entry_of_ne (hq file houtput)
    · exact Leaves.of_throw rfl

/-- Giving out something is the end of compiling. -/
theorem writeOutput_ends (c : Content) (o : ConversionOptions) (w : Workshop) :
    EndsAt build P 0 w (Delivers o) (writeOutput c o) := by
  refine (writeOutput_leaves c o w).imp (fun _ w' h => ⟨[], w, rfl, .of_goes (.of_unmoved (.refl w)), h⟩) fun _ _ h => ?_
  subst h
  exact ⟨[], Nat.le_refl 0, .of_goes (.of_unmoved (.refl _))⟩

theorem compile_ends (o : ConversionOptions) (w : Workshop) :
    EndsAt build P 1 w (Delivers o) (compile build o) := by
  refine (ProceedsAt.stage _ w).ends (n := 0) fun _ w₁ _ => ?_
  split
  · exact writeOutput_ends _ o w₁
  · exact (ProceedsAt.of_inside (makePdf_inside o.size)).ends (n := 0) fun pdf w₂ _ => writeOutput_ends pdf o w₂

end Compilation

/-! ### The work in a build directory -/

/-- The output has been delivered, and the end has been told. -/
structure Closes (o : ConversionOptions) (w w' : Workshop) : Prop where
  tells : w.Tells [.stage (0 : Nat) (some "Done") .null] w'
  elsewhere : ∀ q, (∀ file, o.output? = some file → q ≠ file.resolve w.here) → w'.tree.entry q = w.tree.entry q
  directories : ∀ q, w'.tree.isDirectory q = w.tree.isDirectory q

def outlineAt? (build : Path) (w : Workshop) : Option Json :=
  ((Outline.load (Workspace.bundleIn build)).perform w).1.toOption

/-- The names that a bundle gives to files lead down. -/
structure LeadsDown (build : Path) (w : Workshop) : Prop where
  articles : ∀ outline, outlineAt? build w = some outline →
    ∀ item ∈ Collection.reached outline, (Path.ofText (Collection.fileNameOf item)).Descends
  images : ∀ image ∈ Media.imagesListed build w, ∀ s, image.name = .text s → (Path.ofText s).Descends

theorem text?_eq_some {v : Json} {s : String} : v.text? = some s ↔ v = .text s := by
  cases v with
  | text t => simp [Json.text?]
  | _ => simp [Json.text?]

theorem leadsDown_iff {build : Path} {w : Workshop} : LeadsDown build w ↔
    (∀ outline ∈ (outlineAt? build w).toList,
      ∀ item ∈ Collection.reached outline, (Path.ofText (Collection.fileNameOf item)).Descends) ∧
    ∀ image ∈ Media.imagesListed build w, ∀ s ∈ image.name.text?.toList, (Path.ofText s).Descends := by
  simp only [Option.mem_toList, text?_eq_some]
  exact ⟨fun h => ⟨h.articles, h.images⟩, fun h => ⟨h.1, h.2⟩⟩

instance (build : Path) (w : Workshop) : Decidable (LeadsDown build w) := decidable_of_iff' _ leadsDown_iff

section Producing

variable {build : Path} {P : Prop} {w : Workshop} {o : ConversionOptions}

theorem load_leaves (build : Path) (w : Workshop) :
    Leaves (Outline.load (Workspace.bundleIn build)) w (fun outline w' => outlineAt? build w = some outline ∧ w' = w)
      fun _ w' => w' = w := by
  have hstill : Leaves (Outline.load (Workspace.bundleIn build)) w (fun _ w' => w' = w) fun _ w' => w' = w := by
    refine Leaves.get_bind ?_
    dsimp only
    split
    · refine (Leaves.of_pure (P := fun _ w' => w' = w) rfl).bind fun text w₁ h₁ => ?_
      subst h₁
      split
      · exact Leaves.of_pure rfl
      · exact Leaves.of_throw rfl
    · exact Leaves.of_throw rfl
    · exact Leaves.of_throw rfl
  refine ((Leaves.self _ w).and hstill).imp (fun outline w' h => ⟨?_, h.2⟩) fun _ _ h => h.2
  rw [outlineAt?, h.1]
  rfl

theorem sayDone_leaves (name : String) (w : Workshop) {F : Failure → Workshop → Prop} :
    Leaves (sayDone name) w (fun _ w' => w.Unmoved w') F :=
  Leaves.get_bind (Work.say_leaves _ _ _ w)

theorem sayDone_unmoved (name : String) : Moves unmoved (sayDone name) :=
  fun w => (sayDone_leaves name w).imp_left fun _ _ h => ⟨trivial, h⟩

theorem timed_proceeds {α : Type} {n : Nat} {a : Work α} (name : String)
    (h : ProceedsAt build P n w (fun _ _ => True) a) : ProceedsAt build P n w (fun _ _ => True) (timed name a) :=
  h.bind_rest fun _ _ _ => (Work.inside_of_unmoved (sayDone_unmoved name)).bind fun _ _ => MovesWith.of_pure trivial

theorem warnOfMissingTools_unmoved : Moves unmoved warnOfMissingTools :=
  MovesWith.get_bind fun _ => MovesWith.forM fun _ _ => Work.say_unmoved _ _ _

theorem imagesListed_congr {w₁ : Workshop} (h : w.Unmoved w₁) :
    Media.imagesListed build w₁ = Media.imagesListed build w := by
  unfold Media.imagesListed
  rw [storeAt?_congr (h.entryAt? _)]

theorem finish_ends (o : ConversionOptions) (w : Workshop) :
    EndsAt build P 1 w (Closes o) (do
      timed "Compiling" (Compilation.compile build o)
      Work.stage 0 "Done") := by
  have htimed : EndsAt build P 1 w (Compilation.Delivers o) (timed "Compiling" (Compilation.compile build o)) := by
    refine (Compilation.compile_ends o w).bind_sure fun _ w₁ w₂ h F => ?_
    refine (sayDone_leaves "Compiling" w₂).bind fun _ w₃ h₃ => Leaves.of_pure ⟨?_, fun q hq => ?_, fun q => ?_⟩
    · exact h.tells.append h₃.tells
    · rw [h₃.tree, h.elsewhere q hq]
    · rw [h₃.tree, h.directories q]
  refine htimed.bind_sure fun _ w₁ w₂ h F => (Work.report_leaves _ w₂).imp_left fun _ w₃ h₃ => ?_
  obtain ⟨htells, htree⟩ := h₃
  refine ⟨h.tells.append htells, fun q hq => ?_, fun q => ?_⟩
  · rw [htree, h.elsewhere q hq]
  · rw [htree, h.directories q]

/-- The stages behind the first one. -/
theorem produce_ends {outline : Json} (o : ConversionOptions) (w : Workshop)
    (harticles : P → ∀ item ∈ Collection.reached outline, (Path.ofText (Collection.fileNameOf item)).Descends)
    (himages : P → ∀ image ∈ Media.imagesListed build w, ∀ s, image.name = .text s → (Path.ofText s).Descends) :
    EndsAt build P 3 w (Closes o) (produce o build outline) := by
  have hwarn : ProceedsAt build P 0 w (fun _ w' => w.Unmoved w') warnOfMissingTools :=
    ProceedsAt.of_goes ((warnOfMissingTools_unmoved w).imp (fun _ _ h => ⟨h.2, .of_unmoved h.2⟩) fun _ _ h => .of_unmoved h)
  refine hwarn.ends (n := 3) fun _ w₁ h₁ => ?_
  rw [← imagesListed_congr h₁] at himages
  refine (timed_proceeds _ (Media.prepareImages_proceeds o himages)).ends (n := 2) fun images w₂ _ => ?_
  refine (timed_proceeds _ (Collection.writeSources_proceeds outline images o w₂ harticles)).ends (n := 1)
    fun _ w₃ _ => ?_
  exact finish_ends o w₃

theorem workIn_ends (o : ConversionOptions) (w : Workshop) (hnames : P → LeadsDown build w) :
    EndsAt build P 3 w (Closes o) (workIn o build) := by
  have hload : ProceedsAt build P 0 w (fun outline w' => outlineAt? build w = some outline ∧ w' = w)
      (Outline.load (Workspace.bundleIn build)) := by
    refine ProceedsAt.of_goes ((load_leaves build w).imp (fun _ _ h => ⟨h, ?_⟩) fun _ _ h => ?_)
    · rw [h.2]
      exact .of_unmoved (.refl w)
    · rw [h]
      exact .of_unmoved (.refl w)
  refine hload.ends (n := 3) fun outline w₁ h₁ => ?_
  obtain ⟨houtline, rfl⟩ := h₁
  have hdone : ProceedsAt build P 0 w₁ (fun _ w' => w₁.Unmoved w') (sayDone "Preparing workspace") :=
    ProceedsAt.of_goes ((sayDone_leaves _ w₁).imp (fun _ _ h => ⟨h, .of_unmoved h⟩) fun _ _ h => h)
  refine hdone.ends (n := 3) fun _ w₂ h₂ => produce_ends o w₂ ?_ ?_
  · exact fun hP => (hnames hP).articles outline houtline
  · rw [imagesListed_congr h₂]
    exact fun hP => (hnames hP).images

end Producing

end WikiTypeset
