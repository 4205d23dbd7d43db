import WikiTypeset.Progress.Reporter
import Mathlib.Algebra.Order.Field.Rat
import Mathlib.Tactic.FieldSimp
import Mathlib.Tactic.Linarith
import Mathlib.Tactic.Positivity
import Mathlib.Tactic.Ring

/-!
# Stages and what they come to

A stage announces a number of steps, and if no more steps are told in it, the percentage stays within the share of the
stage. Reckoned in rational numbers, the events of such stages in a row have percentages that never fall.
-/

namespace WikiTypeset.Progress

/-- The length that each stage announces, with the number of the steps that are told in it. What is told before the
first stage belongs to one of the given length, with the given number of steps. -/
def stagesFrom (length steps : Int) : List Report → List (Int × Int)
  | [] => [(length, steps)]
  | .stage next _ _ :: reports => (length, steps) :: stagesFrom next 0 reports
  | .step count _ _ :: reports => stagesFrom length (steps + count) reports

/-- The stages of some reports. Steps before the first one are those of a stage of no length. -/
def stagesOf (reports : List Report) : List (Int × Int) := stagesFrom 0 0 reports

/-- A single step. -/
inductive IsStep : Report → Prop
  | intro (message? : Option String) (file : Json) : IsStep (.step 1 message? file)

/-- A stage with single steps, no more than it announces. -/
inductive IsStage : List Report → Prop
  | intro {length : Nat} {message? : Option String} {file : Json} {steps : List Report}
    (hsteps : ∀ report ∈ steps, IsStep report) (hlength : steps.length ≤ length) :
    IsStage (.stage length message? file :: steps)

theorem IsStage.empty (length : Nat) (message? : Option String) (file : Json) :
    IsStage [.stage length message? file] :=
  .intro (List.forall_mem_nil _) (Nat.zero_le length)

/-- What has been told of a stage so far. -/
theorem IsStage.told {b told : List Report} (h : IsStage b) (htold : told <+: b) : told = [] ∨ IsStage told := by
  obtain ⟨hsteps, hlength⟩ := h
  cases told with
  | nil => exact Or.inl rfl
  | cons report told =>
    obtain ⟨rfl, hrest⟩ := List.cons_prefix_cons.1 htold
    exact Or.inr (.intro (fun r hr => hsteps r (hrest.subset hr)) (hrest.length_le.trans hlength))

/-! ### Steps in stages -/

theorem stagesFrom_steps {steps rest : List Report} (h : ∀ report ∈ steps, IsStep report) (length told : Int) :
    stagesFrom length told (steps ++ rest) = stagesFrom length (told + steps.length) rest := by
  induction steps generalizing told with
  | nil => simp
  | cons report steps ih =>
    rw [List.forall_mem_cons] at h
    obtain ⟨⟨message?, file⟩, h⟩ := h
    rw [List.cons_append, stagesFrom, ih h]
    congr 1
    rw [List.length_cons]
    omega

/-- No stage of a row of stages has more steps than it announces. -/
theorem stagesFrom_le {bs : List (List Report)} (hbs : ∀ b ∈ bs, IsStage b) {length told : Int} (h : told ≤ length) :
    ∀ stage ∈ stagesFrom length told bs.flatten, stage.2 ≤ stage.1 := by
  induction bs generalizing length told with
  | nil => simpa [stagesFrom] using h
  | cons b bs ih =>
    rw [List.forall_mem_cons] at hbs
    obtain ⟨⟨hsteps, hlength⟩, hbs⟩ := hbs
    rw [List.flatten_cons, List.cons_append, stagesFrom, stagesFrom_steps hsteps, List.forall_mem_cons]
    refine ⟨h, ih hbs ?_⟩
    omega

/-! ### Percentages -/

/-- The percentages never fall, and stay within bounds. -/
def Rises (low high : ℚ) (events : List (Event ℚ)) : Prop :=
  (events.map (·.percent)).Pairwise (· ≤ ·) ∧ ∀ e ∈ events, low ≤ e.percent ∧ e.percent ≤ high

variable {low middle high : ℚ} {events more : List (Event ℚ)}

theorem Rises.nil : Rises low high [] := by
  constructor
  · exact List.Pairwise.nil
  · exact List.forall_mem_nil _

theorem Rises.mono {low' high' : ℚ} (h : Rises low high events) (hlow : low' ≤ low) (hhigh : high ≤ high') :
    Rises low' high' events := by
  refine ⟨h.1, fun e he => ?_⟩
  obtain ⟨hle, hge⟩ := h.2 e he
  exact ⟨hlow.trans hle, hge.trans hhigh⟩

theorem Rises.cons {e : Event ℚ} (hlow : low ≤ e.percent) (hhigh : e.percent ≤ high)
    (h : Rises e.percent high events) : Rises low high (e :: events) := by
  constructor
  · rw [List.map_cons, List.pairwise_cons]
    refine ⟨fun p hp => ?_, h.1⟩
    obtain ⟨e', he', rfl⟩ := List.mem_map.1 hp
    exact (h.2 e' he').1
  · rw [List.forall_mem_cons]
    refine ⟨⟨hlow, hhigh⟩, fun e' he' => ?_⟩
    obtain ⟨hle, hge⟩ := h.2 e' he'
    exact ⟨hlow.trans hle, hge⟩

theorem Rises.append (h : Rises low middle events) (h' : Rises middle high more) (hlow : low ≤ middle)
    (hhigh : middle ≤ high) : Rises low high (events ++ more) := by
  constructor
  · rw [List.map_append, List.pairwise_append]
    refine ⟨h.1, h'.1, fun p hp q hq => ?_⟩
    obtain ⟨e, he, rfl⟩ := List.mem_map.1 hp
    obtain ⟨e', he', rfl⟩ := List.mem_map.1 hq
    exact (h.2 e he).2.trans (h'.2 e' he').1
  · intro e he
    rcases List.mem_append.1 he with he | he
    · obtain ⟨hle, hge⟩ := h.2 e he
      exact ⟨hle, hge.trans hhigh⟩
    · obtain ⟨hle, hge⟩ := h'.2 e he
      exact ⟨hlow.trans hle, hge⟩

/-! ### Reporters -/

namespace Reporter

/-- The reporter after some reports. -/
def after (r : Reporter ℚ) (reports : List Report) : Reporter ℚ := reports.foldl (fun r report => (r.take report).1) r

theorem eventsFrom_cons (r : Reporter ℚ) (report : Report) (reports : List Report) :
    r.eventsFrom (report :: reports) = (r.take report).2 :: (r.take report).1.eventsFrom reports := rfl

theorem after_cons (r : Reporter ℚ) (report : Report) (reports : List Report) :
    r.after (report :: reports) = (r.take report).1.after reports := rfl

theorem eventsFrom_append (r : Reporter ℚ) (reports rest : List Report) :
    r.eventsFrom (reports ++ rest) = r.eventsFrom reports ++ (r.after reports).eventsFrom rest := by
  induction reports generalizing r with
  | nil => rfl
  | cons report reports ih => rw [List.cons_append, eventsFrom_cons, eventsFrom_cons, after_cons, ih, List.cons_append]

theorem after_append (r : Reporter ℚ) (reports rest : List Report) :
    r.after (reports ++ rest) = (r.after reports).after rest :=
  List.foldl_append

/-- A topic changes nothing about the percentage. -/
theorem exists_withTopic (r : Reporter ℚ) (message? : Option String) (file : Json) :
    ∃ message file', r.withTopic message? file = { r with message, file := file' } := by
  unfold withTopic
  split
  · exact ⟨_, _, rfl⟩
  · split
    · exact ⟨r.message, _, rfl⟩
    · exact ⟨r.message, r.file, rfl⟩

theorem take_stage (r : Reporter ℚ) (length : Nat) (message? : Option String) (file : Json) :
    ∃ message file', (r.take (.stage length message? file)).1 =
        { r with message, file := file', percent := 100 * r.stage * r.perStage, stage := r.stage + 1,
                 perStep := share length 0 } ∧
      (r.take (.stage length message? file)).2.percent = 100 * r.stage * r.perStage := by
  obtain ⟨message, file', htopic⟩ := exists_withTopic
    { r with percent := ((100 : Int) : ℚ) * r.stage * r.perStage, stage := r.stage + 1,
             perStep := share length ((0 : Int) : ℚ) } message? file
  refine ⟨message, file', ?_, ?_⟩
  · simp only [take, htopic]
    push_cast
    rfl
  · simp only [take, htopic, event]
    push_cast
    rfl

theorem take_step (r : Reporter ℚ) (message? : Option String) (file : Json) :
    ∃ message file', (r.take (.step 1 message? file)).1 =
        { r with message, file := file', percent := r.percent + 100 * (r.perStage * r.perStep) } ∧
      (r.take (.step 1 message? file)).2.percent = r.percent := by
  obtain ⟨message, file', htopic⟩ := exists_withTopic r message? file
  refine ⟨message, file', ?_, ?_⟩
  · have hgrows : r.percent + ((100 : Int) : ℚ) * r.perStage * r.perStep * ((1 : Int) : ℚ) =
        r.percent + 100 * (r.perStage * r.perStep) := by
      push_cast
      ring
    simp only [take, htopic, hgrows]
  · simp only [take, htopic, event]

variable {r : Reporter ℚ}

/-- Single steps take the percentage up by the same share each. -/
theorem steps_rise {steps : List Report} (h : ∀ report ∈ steps, IsStep report) (hshare : 0 ≤ r.perStage * r.perStep) :
    Rises r.percent (r.percent + 100 * (r.perStage * r.perStep) * steps.length) (r.eventsFrom steps) ∧
      (r.after steps).perStage = r.perStage ∧ (r.after steps).stage = r.stage := by
  induction steps generalizing r with
  | nil => exact ⟨Rises.nil, rfl, rfl⟩
  | cons report steps ih =>
    rw [List.forall_mem_cons] at h
    obtain ⟨⟨message?, file⟩, h⟩ := h
    obtain ⟨message, file', hnext, hevent⟩ := take_step r message? file
    have hsum : r.percent + 100 * (r.perStage * r.perStep) + 100 * (r.perStage * r.perStep) * steps.length =
        r.percent + 100 * (r.perStage * r.perStep) * (steps.length + 1 : ℕ) := by
      push_cast
      ring
    have hlength : (0 : ℚ) ≤ steps.length := by positivity
    have hproduct := mul_nonneg hshare hlength
    rw [eventsFrom_cons, after_cons, hnext, List.length_cons]
    obtain ⟨hrises, hper, hstage⟩ := ih
      (r := { r with message, file := file', percent := r.percent + 100 * (r.perStage * r.perStep) }) h hshare
    rw [hsum] at hrises
    refine ⟨Rises.cons hevent.ge ?_ (hrises.mono ?_ le_rfl), hper, hstage⟩
    · rw [hevent, ← hsum]
      linarith
    · rw [hevent]
      linarith

theorem share_bounds {length count : Nat} (h : count ≤ length) :
    0 ≤ (share length 0 : ℚ) ∧ (share length 0 : ℚ) * count ≤ 1 := by
  unfold share
  by_cases hzero : length = 0
  · subst hzero
    simp
  · have hpos : (0 : ℚ) < length := by
      have hnat := Nat.pos_of_ne_zero hzero
      exact_mod_cast hnat
    have hcount : (count : ℚ) ≤ length := by exact_mod_cast h
    have hint : ¬ (length : Int) = 0 := by exact_mod_cast hzero
    rw [if_neg hint]
    push_cast
    constructor
    · positivity
    · rw [one_div, inv_mul_le_iff₀ hpos, mul_one]
      exact hcount

/-- In a stage, the percentage stays within the share of the stage. -/
theorem stage_rises {b : List Report} (hb : IsStage b) (hper : 0 ≤ r.perStage) :
    Rises (100 * r.stage * r.perStage) (100 * (r.stage + 1) * r.perStage) (r.eventsFrom b) ∧
      (r.after b).perStage = r.perStage ∧ (r.after b).stage = r.stage + 1 := by
  obtain @⟨length, message?, file, steps, hsteps, hlength⟩ := hb
  obtain ⟨message, file', hnext, hevent⟩ := take_stage r length message? file
  obtain ⟨hshare, hwhole⟩ := share_bounds hlength
  rw [eventsFrom_cons, after_cons, hnext]
  obtain ⟨hrises, hperStage, hstage⟩ := steps_rise
    (r := { r with message, file := file', percent := 100 * r.stage * r.perStage, stage := r.stage + 1,
                   perStep := share length 0 }) hsteps (mul_nonneg hper hshare)
  have htop : 100 * r.stage * r.perStage + 100 * (r.perStage * share length 0) * steps.length ≤
      100 * (r.stage + 1) * r.perStage := by
    have hpart := mul_le_mul_of_nonneg_left hwhole hper
    nlinarith [hpart]
  have hbelow : 100 * (r.stage : ℚ) * r.perStage ≤ 100 * (r.stage + 1) * r.perStage := by nlinarith [hper]
  exact ⟨Rises.cons hevent.ge (hevent.trans_le hbelow) (hrises.mono hevent.le htop), hperStage, hstage⟩

/-- Over stages in a row, the percentage stays within the shares of these stages. -/
theorem stages_rise {bs : List (List Report)} (hbs : ∀ b ∈ bs, IsStage b) (hper : 0 ≤ r.perStage) :
    Rises (100 * r.stage * r.perStage) (100 * (r.stage + bs.length) * r.perStage) (r.eventsFrom bs.flatten) ∧
      (r.after bs.flatten).perStage = r.perStage ∧ (r.after bs.flatten).stage = r.stage + bs.length := by
  induction bs generalizing r with
  | nil =>
    refine ⟨Rises.nil, rfl, ?_⟩
    simp [after]
  | cons b bs ih =>
    rw [List.forall_mem_cons] at hbs
    obtain ⟨hb, hbs⟩ := hbs
    obtain ⟨hrises, hper', hstage⟩ := stage_rises hb hper
    obtain ⟨hrises', hper'', hstage'⟩ := ih (r := r.after b) hbs (by rw [hper']; exact hper)
    have hcast : ((r.after b).stage : ℚ) = r.stage + 1 := by
      rw [hstage]
      push_cast
      ring
    have hlength : (r.stage : ℚ) + 1 + bs.length = r.stage + (b :: bs).length := by
      rw [List.length_cons]
      push_cast
      ring
    have hmore : 0 ≤ (bs.length : ℚ) * r.perStage := by positivity
    rw [hcast, hper', hlength] at hrises'
    rw [List.flatten_cons, eventsFrom_append, after_append]
    refine ⟨hrises.append hrises' ?_ ?_, hper''.trans hper', ?_⟩
    · linarith
    · rw [← hlength]
      linarith
    · rw [hstage', hstage, List.length_cons]
      push_cast
      ring

theorem start_perStage {n : Nat} (hn : 0 < n) : (start n : Reporter ℚ).perStage = 1 / n := by
  have hint : ¬ (n : Int) = 0 := by omega
  rw [start, share, if_neg hint]
  push_cast
  rfl

/-- As many stages as there are to be, or fewer, keep the percentage between 0 and 100. -/
theorem eventsOf_rises {n : Nat} (hn : 0 < n) {bs : List (List Report)} (hbs : ∀ b ∈ bs, IsStage b)
    (hlength : bs.length ≤ n) : Rises 0 100 (eventsOf n bs.flatten) := by
  have hpos : (0 : ℚ) < n := by exact_mod_cast hn
  have hper := start_perStage hn
  obtain ⟨hrises, -, -⟩ := stages_rise (r := start n) hbs (by rw [hper]; positivity)
  have hcount : (bs.length : ℚ) ≤ n := by exact_mod_cast hlength
  refine hrises.mono ?_ ?_
  · simp [start]
  · rw [hper]
    have hshare : (bs.length : ℚ) * (1 / n) ≤ 1 := by
      rw [mul_one_div, div_le_one hpos]
      exact hcount
    simp only [start, Int.cast_zero, zero_add]
    linarith

/-- When all stages are over, what follows begins at 100. -/
theorem eventsOf_done {n : Nat} (hn : 0 < n) {bs : List (List Report)} (hbs : ∀ b ∈ bs, IsStage b)
    (hlength : bs.length = n) (length : Nat) (message? : Option String) (file : Json) :
    Rises 0 100 (eventsOf n (bs.flatten ++ [.stage length message? file])) ∧
      ((eventsOf n (bs.flatten ++ [.stage length message? file]) : List (Event ℚ)).getLast?.map (·.percent)) =
        some 100 := by
  have hpos : (n : ℚ) ≠ 0 := by
    have hnat : n ≠ 0 := by omega
    exact_mod_cast hnat
  have hper := start_perStage hn
  obtain ⟨-, hper', hstage⟩ := stages_rise (r := start n) hbs (by rw [hper]; positivity)
  obtain ⟨message, file', -, hevent⟩ := take_stage ((start n : Reporter ℚ).after bs.flatten) length message? file
  have hlast : (((start n : Reporter ℚ).after bs.flatten).take (.stage length message? file)).2.percent = 100 := by
    have hzero : (start n : Reporter ℚ).stage = 0 := rfl
    rw [hevent, hper', hper, hstage, hzero, hlength]
    push_cast
    field_simp
    ring
  have hsplit : (eventsOf n (bs.flatten ++ [.stage length message? file]) : List (Event ℚ)) =
      eventsOf n bs.flatten ++ [(((start n : Reporter ℚ).after bs.flatten).take (.stage length message? file)).2] :=
    eventsFrom_append _ _ _
  rw [hsplit]
  constructor
  · refine (eventsOf_rises hn hbs hlength.le).append (Rises.cons hlast.ge hlast.le Rises.nil) ?_ le_rfl
    norm_num
  · rw [List.getLast?_concat, Option.map_some, hlast]

end Reporter

end WikiTypeset.Progress
