import WikiTypeset.Proofs.Conversion.Inside
import WikiTypeset.Proofs.Progress.Stages

/-!
# Work that proceeds by stages

Work in a build directory goes through stages, each with no more steps than it announces. If it fails, it has gone
through no more stages than if it had not.
-/

namespace WikiTypeset

open Action Files Progress

namespace Workshop

/-- Work inside the build directory has told of the stages. -/
structure Passes (build : Path) (P : Prop) (bs : List (List Report)) (w w' : Workshop) : Prop where
  stages : ∀ b ∈ bs, IsStage b
  goes : w.Goes build P bs.flatten w'

variable {build : Path} {P : Prop} {bs bs' : List (List Report)} {w w₁ w₂ : Workshop}

theorem Passes.of_goes (h : w.Goes build P [] w₁) : Passes build P [] w w₁ where
  stages := List.forall_mem_nil _
  goes := h

theorem Passes.append (h : Passes build P bs w w₁) (h' : Passes build P bs' w₁ w₂) :
    Passes build P (bs ++ bs') w w₂ where
  stages := List.forall_mem_append.2 ⟨h.stages, h'.stages⟩
  goes := by
    rw [List.flatten_append]
    exact h.goes.append h'.goes

end Workshop

open Workshop

/-- From the given workshop, the work goes through `n` stages, and its result is as `Q` says; if it fails, it has gone
through no more. -/
def ProceedsAt {α : Type} (build : Path) (P : Prop) (n : Nat) (w : Workshop) (Q : α → Workshop → Prop) (a : Work α) :
    Prop :=
  Leaves a w (fun x w' => Q x w' ∧ ∃ bs, bs.length = n ∧ Passes build P bs w w')
    fun _ w' => ∃ bs, bs.length ≤ n ∧ Passes build P bs w w'

namespace ProceedsAt

variable {α β : Type} {build : Path} {P : Prop} {m n : Nat} {w : Workshop} {a : Work α} {f : α → Work β}
variable {Q : α → Workshop → Prop} {Q' : β → Workshop → Prop}

theorem bind (ha : ProceedsAt build P m w Q a) (hf : ∀ x w', Q x w' → ProceedsAt build P n w' Q' (f x)) :
    ProceedsAt build P (m + n) w Q' (a >>= f) := by
  refine Leaves.bind (M := fun x w' => Q x w' ∧ ∃ bs, bs.length = m ∧ Passes build P bs w w')
    (ha.imp (fun _ _ h => h) fun _ _ h => ?_) fun x w₁ h₁ => ?_
  · obtain ⟨bs, hlength, h⟩ := h
    exact ⟨bs, by omega, h⟩
  · obtain ⟨hx, bs, hlength, h₁⟩ := h₁
    refine (hf x w₁ hx).imp (fun y w₂ h₂ => ?_) fun _ w₂ h₂ => ?_
    · obtain ⟨hy, bs', hlength', h₂⟩ := h₂
      refine ⟨hy, bs ++ bs', ?_, h₁.append h₂⟩
      rw [List.length_append, hlength, hlength']
    · obtain ⟨bs', hlength', h₂⟩ := h₂
      refine ⟨bs ++ bs', ?_, h₁.append h₂⟩
      rw [List.length_append]
      omega

theorem of_goes (h : Leaves a w (fun x w' => Q x w' ∧ w.Goes build P [] w') fun _ w' => w.Goes build P [] w') :
    ProceedsAt build P 0 w Q a :=
  h.imp (fun _ _ h => ⟨h.1, [], rfl, .of_goes h.2⟩) fun _ _ h => ⟨[], Nat.le_refl 0, .of_goes h⟩

theorem of_inside {Q : α → Prop} (h : MovesWith (inside build P) Q a) : ProceedsAt build P 0 w (fun x _ => Q x) a :=
  of_goes (h w)

/-- Work before the stages that tells of none. -/
theorem bind_inside {Q : α → Prop} (ha : MovesWith (inside build P) Q a)
    (hf : ∀ x w', Q x → ProceedsAt build P n w' Q' (f x)) : ProceedsAt build P n w Q' (a >>= f) := by
  have h := (of_inside (w := w) ha).bind hf
  rwa [Nat.zero_add] at h

theorem bind_look {Q : α → Prop} (ha : Leaves a w (fun x w' => Q x ∧ w' = w) fun _ w' => w' = w)
    (hf : ∀ x, Q x → ProceedsAt build P n w Q' (f x)) : ProceedsAt build P n w Q' (a >>= f) := by
  have hstill : ∀ w', w' = w → w.Goes build P [] w' := by
    rintro _ rfl
    exact .of_unmoved (.refl _)
  have hlook : ProceedsAt build P 0 w (fun x w' => Q x ∧ w' = w) a :=
    of_goes (ha.imp (fun _ w' h => ⟨h, hstill w' h.2⟩) fun _ w' h => hstill w' h)
  have hrest : ∀ x w', Q x ∧ w' = w → ProceedsAt build P n w' Q' (f x) := by
    rintro x _ ⟨hx, rfl⟩
    exact hf x hx
  have h := hlook.bind hrest
  rwa [Nat.zero_add] at h

/-- Work that needs a result that may not be there. -/
theorem bind_lift {e : Except Failure α} (hf : ∀ x, e = .ok x → ProceedsAt build P n w Q' (f x)) :
    ProceedsAt build P n w Q' ((liftM e : Work α) >>= f) :=
  Leaves.lift_bind hf fun _ _ => ⟨[], Nat.zero_le n, .of_goes (.of_unmoved (.refl w))⟩

/-- Work behind the stages that tells of none. -/
theorem bind_rest {Q' : β → Prop} (ha : ProceedsAt build P n w Q a)
    (hf : ∀ x w', Q x w' → MovesWith (inside build P) Q' (f x)) :
    ProceedsAt build P n w (fun x _ => Q' x) (a >>= f) :=
  ha.bind fun x w' hx => of_inside (hf x w' hx)

/-- A stage with a step for each of the things that it is about, and what is done for them. -/
theorem of_steps {γ : Type} {xs : List γ} {r : γ → Report} (hr : ∀ x, IsStep (r x)) (message : String) {b : Work β}
    {Q : β → Prop} (hb : MovesWith (inside build P) Q b) :
    ProceedsAt build P 1 w (fun x _ => Q x) (do
      Work.stage xs.length message
      xs.forM fun x => Work.report (r x)
      b) := by
  have hstage : Leaves (Work.stage xs.length message) w
      (fun _ w' => w.Goes build P [.stage xs.length (some message) .null] w')
      fun _ w' => ∃ bs, bs.length ≤ 1 ∧ Passes build P bs w w' := Work.report_goes _ w
  refine hstage.bind fun _ w₁ h₁ => ?_
  have hsteps : Leaves (xs.forM fun x => Work.report (r x)) w₁ (fun _ w' => w₁.Goes build P (xs.map r) w')
      fun _ w' => ∃ bs, bs.length ≤ 1 ∧ Passes build P bs w w' := Work.forM_report_goes r xs w₁
  refine hsteps.bind fun _ w₂ h₂ => ?_
  have hblock : IsStage (.stage xs.length (some message) .null :: xs.map r) :=
    .intro (by simpa using fun x _ => hr x) (by simp)
  have hpasses : ∀ w', w₂.Goes build P [] w' →
      Passes build P [.stage xs.length (some message) .null :: xs.map r] w w' := by
    intro w' h
    refine ⟨by simpa using hblock, ?_⟩
    simpa using (h₁.append h₂).append h
  exact (hb w₂).imp (fun _ w' h => ⟨h.1, _, rfl, hpasses w' h.2⟩) fun _ w' h => ⟨[_], Nat.le_refl 1, hpasses w' h⟩

theorem stage (message : String) (w : Workshop) :
    ProceedsAt build P 1 w (fun _ _ => True) (Work.stage 0 message) := by
  have hreport : Leaves (Work.stage 0 message) w
      (fun _ w' => w.Goes build P [.stage (0 : Nat) (some message) .null] w')
      fun _ w' => ∃ bs, bs.length ≤ 1 ∧ Passes build P bs w w' := Work.report_goes _ w
  refine hreport.imp_left fun _ w' h => ⟨trivial, [[.stage (0 : Nat) (some message) .null]], rfl, ?_⟩
  exact ⟨List.forall_mem_singleton.2 (.empty 0 _ _), by simpa using h⟩

/-- A stage without steps, and what is done in it. -/
theorem of_stage (message : String) {b : Work β} {Q : β → Prop} (hb : MovesWith (inside build P) Q b) :
    ProceedsAt build P 1 w (fun x _ => Q x) (do
      Work.stage 0 message
      b) :=
  (stage message w).bind_rest fun _ _ _ => hb

end ProceedsAt

end WikiTypeset
