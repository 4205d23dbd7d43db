import WikiTypeset.Proofs.Conversion.Closing

/-!
# The course of a conversion

A conversion ends without a build directory, with all of its stages behind it, or with some of them; then the build
directory goes, unless it is to stay. It reports the stages that it has gone through, and its end if it comes to it; with
as many stages as a reporter reckons with, the percentage never falls, and is 100 in the end. Main statements:
`convert_course` and `convert_progress`.
-/

namespace WikiTypeset

open Action Files Progress Workshop

/-- What becomes of a build directory in the end. -/
def IsLeft (o : ConversionOptions) (build : Path) (w w' : Workshop) : Prop :=
  if o.keepsBuild = true then w.Unmoved w'
  else w' = { w with tree := w'.tree } ∧
    ∀ place, w.tree.locate w.here build = .ok place → w'.tree = w.tree.removeAll place

/-- How a conversion goes, and whether it comes to its end. -/
inductive Course (P : Prop) (o : ConversionOptions) (w : Workshop) : Bool → Workshop → Prop
  /-- There is no build directory to work in. -/
  | unprepared {cause : Failure} {w₁ w' : Workshop} (hprepare : (Workspace.prepare o).perform w = (.error cause, w₁))
    (hsaid : w₁.Unmoved w') : Course P o w false w'
  | failed {build : Path} {bs : List (List Report)} {w₁ w₂ w₃ w' : Workshop}
    (hprepare : (Workspace.prepare o).perform w = (.ok build, w₁)) (hlength : bs.length ≤ 3)
    (hpasses : Passes build P bs w₁ w₂) (hsaid : w₂.Unmoved w₃) (hleft : IsLeft o build w₃ w') : Course P o w false w'
  | ended {build : Path} {bs : List (List Report)} {w₁ w₂ w₃ w' : Workshop}
    (hprepare : (Workspace.prepare o).perform w = (.ok build, w₁)) (hlength : bs.length = 3)
    (hpasses : Passes build P bs w₁ w₂) (hcloses : Closes o w₂ w₃) (hleft : IsLeft o build w₃ w') : Course P o w true w'

variable {P : Prop} {o : ConversionOptions} {w : Workshop}

theorem leaveBuild_leaves (o : ConversionOptions) (build : Path) (w : Workshop) {F : Failure → Workshop → Prop} :
    Leaves (leaveBuild o build) w (fun _ w' => IsLeft o build w w') F := by
  unfold leaveBuild IsLeft
  split
  · exact Work.say_leaves _ _ _ w
  · exact Work.removeAll_leaves build w

/-- A failure is logged, and makes the status one; or it is passed on. -/
theorem statusOf_leaves {work : Work Unit} {S F : Workshop → Prop} (h : Leaves work w (fun _ => S) fun _ => F) :
    Leaves (statusOf o work) w
      (fun n w' => n = 0 ∧ S w' ∨ n = 1 ∧ o.debug = false ∧ ∃ w₁, F w₁ ∧ w₁.Unmoved w')
      fun _ w' => o.debug = true ∧ F w' := by
  have hattempt : Leaves (work.attempt : Work (Except Failure Unit)) w
      (fun r w' => r = .ok () ∧ S w' ∨ ∃ e, r = .error e ∧ F w') fun _ w' => o.debug = true ∧ F w' := by
    rcases hwork : work.perform w with ⟨e | ⟨⟩, w'⟩
    · have hr : (work.attempt : Work (Except Failure Unit)).perform w = (.ok (.error e), w') := by
        rw [perform_attempt, hwork]
      exact Leaves.of_ok hr (Or.inr ⟨e, rfl, h.error hwork⟩)
    · have hr : (work.attempt : Work (Except Failure Unit)).perform w = (.ok (.ok ()), w') := by
        rw [perform_attempt, hwork]
      exact Leaves.of_ok hr (Or.inl ⟨rfl, h.ok hwork⟩)
  refine hattempt.bind fun r w₁ h₁ => ?_
  rcases h₁ with ⟨rfl, hS⟩ | ⟨e, rfl, hF⟩
  · exact Leaves.of_pure (Or.inl ⟨rfl, hS⟩)
  · by_cases hdebug : o.debug = true
    · dsimp only
      rw [if_pos hdebug]
      exact Leaves.of_throw ⟨hdebug, hF⟩
    · dsimp only
      rw [if_neg hdebug]
      refine (Work.say_leaves _ _ _ w₁).bind fun _ w₂ h₂ => Leaves.of_pure (Or.inr ⟨rfl, ?_, w₁, hF, h₂⟩)
      simpa using hdebug

/-- A conversion has a course, whose end its status tells; failures are passed on only to whoever looks for them. -/
theorem convert_course (o : ConversionOptions) (w : Workshop)
    (hnames : P → ∀ build w₁, (Workspace.prepare o).perform w = (.ok build, w₁) → LeadsDown build w₁) :
    Leaves (convert o) w (fun n w' => n = 0 ∧ Course P o w true w' ∨ n = 1 ∧ o.debug = false ∧ Course P o w false w')
      fun _ w' => o.debug = true ∧ Course P o w false w' := by
  rcases hprepare : (Workspace.prepare o).perform w with ⟨cause | build, w₁⟩
  · have hconvert : (convert o).perform w = (statusOf o (throw cause)).perform w₁ := by
      rw [convert, perform_bind, perform_attempt, hprepare]
    have hthrow : Leaves (throw cause : Work Unit) w₁ (fun _ _ => False) fun _ w' => w' = w₁ := Leaves.of_throw rfl
    refine Leaves.of_perform_eq ((statusOf_leaves hthrow).imp (fun n w' h => ?_) fun _ w' h => ?_) hconvert
    · rcases h with ⟨-, h⟩ | ⟨rfl, hdebug, w₂, rfl, hsaid⟩
      · exact h.elim
      · exact Or.inr ⟨rfl, hdebug, .unprepared hprepare hsaid⟩
    · obtain ⟨hdebug, rfl⟩ := h
      exact ⟨hdebug, .unprepared hprepare (.refl _)⟩
  · have hconvert : (convert o).perform w = ((statusOf o (workIn o build)).finishing (leaveBuild o build)).perform w₁ := by
      rw [convert, perform_bind, perform_attempt, hprepare]
    have hwork : EndsAt build P 3 w₁ (Closes o) (workIn o build) :=
      workIn_ends o w₁ fun hP => hnames hP build w₁ hprepare
    refine Leaves.of_perform_eq (Leaves.finishing ((statusOf_leaves hwork).imp (fun n w₃ h => ?_) fun _ w₃ h => ?_)) hconvert
    · refine (leaveBuild_leaves o build w₃).imp_left fun _ w' hleft => ?_
      rcases h with ⟨rfl, bs, w₂, hlength, hpasses, hcloses⟩ | ⟨rfl, hdebug, w₂, ⟨bs, hlength, hpasses⟩, hsaid⟩
      · exact Or.inl ⟨rfl, .ended hprepare hlength hpasses hcloses hleft⟩
      · exact Or.inr ⟨rfl, hdebug, .failed hprepare hlength hpasses hsaid hleft⟩
    · refine (leaveBuild_leaves o build w₃).imp_left fun _ w' hleft => ?_
      obtain ⟨hdebug, bs, hlength, hpasses⟩ := h
      exact ⟨hdebug, .failed hprepare hlength hpasses (.refl w₃) hleft⟩

/-! ### What a conversion reports -/

variable {build : Path} {w' : Workshop}

/-- The last report of a conversion. -/
def doneReport : Report := .stage (0 : Nat) (some "Done") .null

theorem IsLeft.tells (h : IsLeft o build w w') : w.Tells [] w' := by
  unfold IsLeft at h
  split at h
  · exact h.tells
  · rw [h.1]
    exact tells_of_tree w w'.tree

/-- What has been reported are stages: all of them, and the end; or not more than that. -/
theorem Course.reports {finished : Bool} (h : Course P o w finished w') :
    ∃ bs : List (List Report), (∀ b ∈ bs, IsStage b) ∧ (finished = false → bs.length ≤ 4) ∧
      (finished = true → bs.length = 4) ∧
      w.Tells (bs.flatten ++ if finished then [doneReport] else []) w' := by
  have hprepare := Workspace.prepare_leaves o w
  cases h with
  | unprepared hfails hsaid =>
    obtain ⟨⟨bs, hlength, hbs, htells⟩, -⟩ := hprepare.error hfails
    refine ⟨bs, hbs, fun _ => by omega, nofun, ?_⟩
    exact htells.append hsaid.tells
  | failed hdone hlength hpasses hsaid hleft =>
    rename_i bs w₁ w₂ w₃
    obtain ⟨⟨b, hb, htells⟩, -⟩ := hprepare.ok hdone
    refine ⟨b :: bs, List.forall_mem_cons.2 ⟨hb, hpasses.stages⟩, fun _ => ?_, nofun, ?_⟩
    · rw [List.length_cons]
      omega
    · have hall := ((htells.append hpasses.goes.tells).append hsaid.tells).append hleft.tells
      simpa using hall
  | ended hdone hlength hpasses hcloses hleft =>
    rename_i bs w₁ w₂ w₃
    obtain ⟨⟨b, hb, htells⟩, -⟩ := hprepare.ok hdone
    refine ⟨b :: bs, List.forall_mem_cons.2 ⟨hb, hpasses.stages⟩, nofun, fun _ => ?_, ?_⟩
    · rw [List.length_cons, hlength]
    · have hall := ((htells.append hpasses.goes.tells).append hcloses.tells).append hleft.tells
      simpa [doneReport] using hall

theorem exists_course (o : ConversionOptions) (w : Workshop) :
    ∃ finished, Course False o w finished ((convert o).perform w).2 ∧
      (((convert o).perform w).1 = .ok 0 → finished = true) := by
  have hcourse := convert_course (P := False) o w nofun
  rcases hperform : (convert o).perform w with ⟨e | n, w'⟩
  · exact ⟨false, (hcourse.error hperform).2, nofun⟩
  · rcases hcourse.ok hperform with ⟨rfl, h⟩ | ⟨rfl, -, h⟩
    · exact ⟨true, h, fun _ => rfl⟩
    · exact ⟨false, h, fun hzero => by simp at hzero⟩

/-- Whatever a conversion comes to, the percentages of its events never fall and stay between 0 and 100, no stage takes
more steps than it has announced, and success is told at 100. -/
theorem convert_progress (o : ConversionOptions) (w : Workshop) :
    ∃ told, ((convert o).perform w).2.reports = w.reports ++ told ∧
      ((Reporter.eventsOf conversionStages told : List (Event ℚ)).map (·.percent)).Pairwise (· ≤ ·) ∧
      (∀ e ∈ (Reporter.eventsOf conversionStages told : List (Event ℚ)), 0 ≤ e.percent ∧ e.percent ≤ 100) ∧
      (∀ stage ∈ stagesOf told, stage.2 ≤ stage.1) ∧
      (w.watched = true → ((convert o).perform w).1 = .ok 0 →
        (Reporter.eventsOf conversionStages told : List (Event ℚ)).getLast?.map (·.percent) = some 100) := by
  obtain ⟨finished, hcourse, hsucceeds⟩ := exists_course o w
  obtain ⟨bs, hbs, hsome, hall, htells⟩ := hcourse.reports
  refine ⟨_, htells.reports, ?_⟩
  by_cases hw : w.watched = true
  · rw [if_pos hw]
    cases finished with
    | false =>
      obtain ⟨hrises, hbounds⟩ := Reporter.eventsOf_rises (n := 4) (by decide) hbs (hsome rfl)
      simp only [Bool.false_eq_true, if_false, List.append_nil]
      refine ⟨hrises, hbounds, stagesFrom_le hbs (Int.le_refl 0), fun _ hzero => ?_⟩
      exact absurd (hsucceeds hzero) (by decide)
    | true =>
      obtain ⟨⟨hrises, hbounds⟩, hlast⟩ :=
        Reporter.eventsOf_done (n := 4) (by decide) hbs (hall rfl) 0 (some "Done") .null
      have hstages : ∀ b ∈ bs ++ [[doneReport]], IsStage b :=
        List.forall_mem_append.2 ⟨hbs, List.forall_mem_singleton.2 (.empty 0 _ _)⟩
      have hle := stagesFrom_le hstages (Int.le_refl 0)
      rw [List.flatten_append, List.flatten_singleton] at hle
      simp only [if_true]
      exact ⟨hrises, hbounds, hle, fun _ _ => hlast⟩
  · -- Where no one watches there are no events.
    rw [if_neg hw]
    refine ⟨List.Pairwise.nil, List.forall_mem_nil _, ?_, fun hwatched => absurd hwatched hw⟩
    exact stagesFrom_le (List.forall_mem_nil _) (Int.le_refl 0)

end WikiTypeset
