import WikiTypeset.Bundle.Workspace
import WikiTypeset.Proofs.Conversion.Proceeding

/-!
# What preparing a build directory leaves

A build directory is made where nothing stands, and the bundle is brought into it. If that fails, all is as it was.
Main statement: `prepare_leaves`.
-/

namespace WikiTypeset.Workspace

open Action Files Progress Workshop

theorem ok_of_mapError {ε δ α : Type} {e : Except ε α} {f : ε → δ} {x : α} (h : e.mapError f = .ok x) : e = .ok x := by
  cases e with
  | error cause => cases h
  | ok y =>
    cases h
    rfl

/-! ### Bringing in a bundle -/

section Trees

variable {t t' : Tree} {place q : List String}

/-- A directory to which something is brought: it stands there, with all above it. -/
def Stands (t : Tree) (place : List String) : Prop := ∀ p, p <+: place → t.isDirectory p = true

theorem Stands.of_makes (h : t.Makes place .directory t') : Stands t' place := by
  rintro p ⟨names, hnames⟩
  cases names with
  | nil =>
    rw [List.append_nil] at hnames
    rw [hnames, Tree.isDirectory_iff]
    exact h.entry_self
  | cons name names =>
    have hlength : p.length < place.length := by
      rw [← hnames, List.length_append, List.length_cons]
      omega
    have hway := h.way p.length hlength
    rw [← hnames, List.take_left] at hway
    exact h.isDirectory hway

theorem Stands.of_sameOutside (hplace : Stands t place) (h : Tree.SameOutside place t t') : Stands t' place := by
  intro p hp
  have hout : ¬ Path.IsBelow place p := fun hbelow => hbelow.2 (hp.eq_of_length_le hbelow.1.length_le)
  rw [Tree.isDirectory_congr (h p hout), hplace p hp]

/-- A link makes a directory, and things in it. -/
theorem entry_link {source target : List String} (h : link t source target = .ok t') (hq : ¬ target <+: q) :
    t'.entry q = t.entry q := by
  obtain ⟨t₁, hmade, h⟩ := Formula.exists_of_bind h
  have hfirst : t₁.entry q = t.entry q := (Tree.makes_of_makeDirectory hmade).1.entry_of_ne fun heq => hq (heq ▸ List.prefix_rfl)
  rw [← hfirst]
  generalize t.below source = entries at h
  clear hmade hfirst
  induction entries generalizing t₁ with
  | nil =>
    cases h
    rfl
  | cons x entries ih =>
    obtain ⟨names, e⟩ := x
    have hput : (t₁.put (target ++ names) e).entry q = t₁.entry q :=
      Tree.entry_put_of_ne fun heq => hq (heq ▸ List.prefix_append target names)
    rw [ih _ h, hput]

/-- The way to a place below is made below, as all above stands. -/
theorem outside_way {target : List String} (htarget : place <+: target) {ps : List (List String)}
    (hps : ∀ p ∈ ps, p <+: target) (hplace : Stands t place)
    (h : ps.foldlM (fun t p => if t.isTaken p then .ok t else t.makeDirectory p) t = .ok t') : Tree.SameOutside place t t' := by
  induction ps generalizing t with
  | nil =>
    cases h
    exact .refl _ _
  | cons p ps ih =>
    obtain ⟨hp, hps⟩ := List.forall_mem_cons.1 hps
    obtain ⟨t₁, h₁, h⟩ := Formula.exists_of_bind h
    have hfirst : Tree.SameOutside place t t₁ := by
      dsimp only at h₁
      split at h₁
      · cases h₁
        exact .refl _ _
      · rename_i hfree
        refine (Tree.makes_of_makeDirectory h₁).1.sameOutside ?_
        have hnot : ¬ p <+: place := by
          intro habove
          have hdirectory := hplace p habove
          rw [Tree.isDirectory_iff] at hdirectory
          exact hfree (by simp [Tree.isTaken, hdirectory])
        rcases List.prefix_or_prefix_of_prefix hp htarget with habove | hbelow
        · exact absurd habove hnot
        · exact ⟨hbelow, fun heq => hnot (heq ▸ List.prefix_rfl)⟩
    exact hfirst.trans (ih hps (hplace.of_sameOutside hfirst) h)

theorem outside_withWay {target : List String} (htarget : place <+: target) (hplace : Stands t place)
    (h : withWay t target = .ok t') : Tree.SameOutside place t t' := by
  refine outside_way htarget (fun p hp => ?_) hplace h
  obtain ⟨n, -, rfl⟩ := List.mem_map.1 hp
  exact List.take_prefix n target

/-- A member is unpacked below the directory, which stands already. -/
theorem outside_unpackMember (hplace : Stands t place) {name : String} {c : Content}
    (h : unpackMember t place name c = .ok t') : Tree.SameOutside place t t' := by
  have htarget : place <+: place ++ memberNames name := List.prefix_append _ _
  have hmember : (do
      let t ← withWay t (place ++ memberNames name)
      if name.endsWith "/" then
        if t.isDirectory (place ++ memberNames name) then .ok t
        else t.makeDirectory (place ++ memberNames name)
      else t.write (place ++ memberNames name) c) = Except.ok t' :=
    ok_of_mapError h
  obtain ⟨t₁, hway, h⟩ := Formula.exists_of_bind hmember
  have hfirst := outside_withWay htarget hplace hway
  have hmade : ∀ {e t₂}, t₁.Makes (place ++ memberNames name) e t₂ → Tree.SameOutside place t t₂ := by
    intro e t₂ hmakes
    refine hfirst.trans (hmakes.sameOutside ⟨htarget, fun heq => ?_⟩)
    have hdirectory := hplace.of_sameOutside hfirst place List.prefix_rfl
    rw [← heq, hmakes.free] at hdirectory
    cases hdirectory
  split at h
  · split at h
    · cases h
      exact hfirst
    · exact hmade (Tree.makes_of_makeDirectory h).1
  · exact hmade (Tree.makes_of_write h)

theorem outside_unpack (hplace : Stands t place) {members : List (String × Content)}
    (h : unpack t place members = .ok t') : Tree.SameOutside place t t' := by
  induction members generalizing t with
  | nil =>
    cases h
    exact .refl _ _
  | cons member members ih =>
    obtain ⟨name, c⟩ := member
    obtain ⟨t₁, h₁, h⟩ := Formula.exists_of_bind h
    have hfirst := outside_unpackMember hplace h₁
    exact hfirst.trans (ih (hplace.of_sameOutside hfirst) h)

end Trees

variable {build : Path} {P : Prop}

theorem leadsInside_bundleIn : Work.LeadsInside build P (bundleIn build) :=
  Work.leadsInside_name (by decide) (by decide)

theorem leadsInside_latexIn : Work.LeadsInside build P (latexIn build) :=
  Work.leadsInside_name (by decide) (by decide)

/-- Linking a directory changes nothing but what is in the bundle of the build directory. -/
theorem link_sameOutside {w : Workshop} {source : Path} {tree : Tree}
    (h : (do
      let place ← w.tree.locate w.here source
      link w.tree place (← w.tree.locate w.here (bundleIn build))) = .ok tree) :
    Tree.SameOutside (build.resolve w.here) w.tree tree := by
  obtain ⟨place, -, h⟩ := Formula.exists_of_bind h
  obtain ⟨target, htarget, h⟩ := Formula.exists_of_bind h
  obtain rfl := Tree.eq_of_locate htarget
  have hbelow : Path.IsBelow (build.resolve w.here) ((bundleIn build).resolve w.here) :=
    leadsInside_bundleIn (P := True) trivial w.here
  exact fun q hq => entry_link h fun hin => hq (hbelow.extend hin)

/-- Unpacking an archive into the bundle of the build directory. -/
theorem unpack_sameOutside {w : Workshop} (hplace : Stands w.tree ((bundleIn build).resolve w.here))
    {members : List (String × Content)} {cause : FileFault → FileError} {tree : Tree}
    (h : (do
      let place ← (w.tree.locate w.here (bundleIn build)).mapError cause
      unpack w.tree place members) = .ok tree) : Tree.SameOutside (build.resolve w.here) w.tree tree := by
  obtain ⟨place, hlocate, h⟩ := Formula.exists_of_bind h
  obtain rfl := Tree.eq_of_locate (ok_of_mapError hlocate)
  have hbelow : Path.IsBelow (build.resolve w.here) ((bundleIn build).resolve w.here) :=
    leadsInside_bundleIn (P := True) trivial w.here
  exact fun q hq => outside_unpack hplace h q fun hin => hq (hbelow.extend hin.1)

/-- Bringing in a bundle is a stage inside the build directory. -/
theorem populate_proceeds (source : Path) (w : Workshop) :
    ProceedsAt build P 1 w (fun _ _ => True) (populate source build) := by
  have hlook : ∀ w, Leaves (Work.entry? source) w (fun _ w' => True ∧ w' = w) fun _ w' => w' = w :=
    fun w => (Work.entryAt_leaves source w).imp_left fun _ _ h => ⟨trivial, h.2⟩
  refine ProceedsAt.bind_inside (Work.makeDirectory_inside leadsInside_latexIn) fun _ w₁ _ => ?_
  refine ProceedsAt.bind_look (hlook w₁) fun entry? _ => ?_
  split
  · refine ProceedsAt.of_stage _ fun w₂ => Leaves.get_bind ?_
    dsimp only
    split
    · rename_i tree hlinked
      exact Leaves.of_ok rfl ⟨trivial, Work.goes_of_tree fun _ _ => link_sameOutside hlinked⟩
    · exact Leaves.of_throw (.of_unmoved (.refl w₂))
  · refine ProceedsAt.of_stage _ fun w₂ => ?_
    refine ((Work.changeFile_leaves (bundleIn build) _ w₂).imp (fun _ _ h => h) fun _ _ h => ?_).bind fun _ w₃ h₃ => ?_
    · subst h
      exact .of_unmoved (.refl _)
    obtain ⟨⟨-, hmade⟩, hw₃⟩ := h₃
    have hmakes := (Tree.makes_of_makeDirectory hmade).1
    have hbelow : Path.IsBelow (build.resolve w₂.here) ((bundleIn build).resolve w₂.here) :=
      leadsInside_bundleIn (P := True) trivial w₂.here
    have hfirst : w₂.Goes build P [] w₃ := by
      rw [hw₃]
      exact Work.goes_of_tree fun _ _ => hmakes.sameOutside hbelow
    split
    · refine Leaves.get_bind ?_
      dsimp only
      split
      · rename_i tree hunpacked
        refine Leaves.of_ok rfl ⟨trivial, hfirst.append (Work.goes_of_tree fun _ _ => unpack_sameOutside ?_ hunpacked)⟩
        rw [hfirst.tells.here]
        exact Stands.of_makes hmakes
      · exact Leaves.of_throw hfirst
    · exact Leaves.of_throw hfirst

/-! ### Making a build directory -/

/-- A fresh directory is made where nothing stands. -/
theorem makeFreshDirectory_leaves (parent : Path) (start : String) (w : Workshop) :
    Leaves (Work.makeFreshDirectory parent start) w
      (fun build w' => w.Tells [] w' ∧ w.tree.locate w.here build = .ok (build.resolve w.here) ∧
        Tree.Opens (build.resolve w.here) w.tree w'.tree)
      fun _ w' => w.Unmoved w' := by
  refine (Work.drawName_leaves parent _ w).bind fun name w₁ h₁ => ?_
  obtain ⟨-, h₁⟩ := h₁
  refine ((Work.changeFile_leaves (parent.child name) _ w₁).imp (fun _ _ h => h) fun _ w₂ h => ?_).bind
    fun _ w₂ h₂ => ?_
  · subst h
    exact h₁
  obtain ⟨⟨hplace, hmade⟩, hw₂⟩ := h₂
  obtain ⟨hmakes, hfree⟩ := Tree.makes_of_makeDirectory hmade
  rw [h₁.tree, h₁.here] at hplace
  rw [h₁.here] at hmakes hfree
  rw [h₁.tree] at hmakes hfree
  refine Leaves.of_pure ⟨?_, hplace, .of_makes hmakes hfree⟩
  rw [hw₂]
  exact h₁.tells.append (tells_of_tree w₁ w₂.tree)

theorem perform_orRemove (build : Path) (work : Work Unit) (w : Workshop) :
    (orRemove build work).perform w = match work.perform w with
      | (.ok (), w) => (.ok (), w)
      | (.error e, w) => (.error e, ((Work.removeAll build).perform w).2) := rfl

/-- The build directory goes if the work in it fails. -/
theorem orRemove_leaves {work : Work Unit} {w : Workshop} {S : Unit → Workshop → Prop} {F : Failure → Workshop → Prop}
    (h : Leaves work w S fun e w' => Leaves (Work.removeAll build) w' (fun _ => F e) fun _ => F e) :
    Leaves (orRemove build work) w S F := by
  rcases hwork : work.perform w with ⟨e | ⟨⟩, w'⟩
  · have hlast := h.error hwork
    refine Leaves.of_error (by rw [perform_orRemove, hwork]) ?_
    rcases hremove : (Work.removeAll build).perform w' with ⟨e' | ⟨⟩, w''⟩
    · exact hlast.error hremove
    · exact hlast.ok hremove
  · exact Leaves.of_ok (by rw [perform_orRemove, hwork]) (h.ok hwork)

/-- A build directory that the bundle has been brought into, after a single stage; or nothing, after one at most. -/
theorem prepare_leaves (o : ConversionOptions) (w : Workshop) :
    Leaves (prepare o) w
      (fun build w' => (∃ b, IsStage b ∧ w.Tells b w') ∧
        w.tree.locate w.here build = .ok (build.resolve w.here) ∧
        (w.IsPlain → Tree.Opens (build.resolve w.here) w.tree w'.tree))
      fun _ w' => (∃ bs : List (List Report), bs.length ≤ 1 ∧ (∀ b ∈ bs, IsStage b) ∧ w.Tells bs.flatten w') ∧
        (w.IsPlain → w.tree.IsGrounded → ∀ q, w'.tree.entry q = w.tree.entry q) := by
  have hnone : ∀ {w'}, w.Unmoved w' →
      (∃ bs : List (List Report), bs.length ≤ 1 ∧ (∀ b ∈ bs, IsStage b) ∧ w.Tells bs.flatten w') ∧
        (w.IsPlain → w.tree.IsGrounded → ∀ q, w'.tree.entry q = w.tree.entry q) := by
    intro w' h
    refine ⟨⟨[], Nat.zero_le 1, List.forall_mem_nil _, h.tells⟩, fun _ _ q => ?_⟩
    rw [h.tree]
  refine (Work.absolute_leaves o.bundle w).bind fun source w₁ h₁ => ?_
  obtain ⟨-, rfl⟩ := h₁
  refine ((Work.pathIsTaken_leaves source w₁).imp (fun _ _ h => h) fun _ _ h => ?_).bind fun taken w₂ h₂ => ?_
  · subst h
    exact hnone (.refl _)
  obtain ⟨-, rfl⟩ := h₂
  cases taken with
  | false => exact Leaves.of_throw (hnone (.refl w₂))
  | true =>
    refine Leaves.get_bind ?_
    refine ((makeFreshDirectory_leaves _ _ w₂).imp (fun _ _ h => h) fun _ _ h => hnone h).bind fun build w₃ h₃ => ?_
    obtain ⟨htells, hlocate, hopens⟩ := h₃
    refine (Work.say_leaves _ _ _ w₃).bind fun _ w₄ h₄ => ?_
    have hsofar : w₂.Tells [] w₄ := htells.append h₄.tells
    rw [← h₄.tree] at hopens
    have hlast : ∀ {bs w'}, Passes build True bs w₄ w' →
        w₂.Tells bs.flatten w' ∧ (w₂.IsPlain → Tree.Opens (build.resolve w₂.here) w₂.tree w'.tree) := by
      intro bs w' h
      refine ⟨hsofar.append h.goes.tells, fun hplain => ?_⟩
      have hinside := h.goes.elsewhere trivial (hsofar.isPlain hplain)
      rw [hsofar.here] at hinside
      exact hopens.then hinside
    refine (orRemove_leaves ((populate_proceeds (P := True) source w₄).imp (fun _ w₅ h₅ => ?_) fun e w₅ h₅ => ?_)).bind
      fun _ w₅ h₅ => Leaves.of_pure h₅
    · obtain ⟨-, bs, hlength, h₅⟩ := h₅
      obtain ⟨b, rfl⟩ := List.length_eq_one_iff.1 hlength
      obtain ⟨htold, hopens⟩ := hlast h₅
      rw [List.flatten_singleton] at htold
      exact ⟨⟨b, List.forall_mem_singleton.1 h₅.stages, htold⟩, hlocate, hopens⟩
    · obtain ⟨bs, hlength, h₅⟩ := h₅
      obtain ⟨htold, hopens⟩ := hlast h₅
      refine (Work.removeAll_leaves build w₅).imp_left fun _ w₆ h₆ => ?_
      obtain ⟨hw₆, hremoved⟩ := h₆
      constructor
      · refine ⟨bs, hlength, h₅.stages, ?_⟩
        rw [hw₆]
        simpa using htold.append (tells_of_tree w₅ w₆.tree)
      · intro hplain hgrounded q
        have hplace : w₅.tree.locate w₅.here build = .ok (build.resolve w₂.here) := by
          rw [htold.here]
          exact (hopens hplain).locate hgrounded hlocate
        rw [hremoved _ hplace]
        exact (hopens hplain).entry_removeAll hgrounded q

end WikiTypeset.Workspace
