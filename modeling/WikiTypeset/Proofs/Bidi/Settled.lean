import WikiTypeset.Proofs.Bidi.Rules

/-!
# Classified texts are analysed

The rules take a class away from no character: each of them leaves fewer classes to settle than the one before it, and
after the last there are only those that have a level. So an analysis fails for nothing but a character without a class.
Main statement: `paragraph_of_classified`.
-/

namespace WikiTypeset.Bidi

/-! ### The classes between the rules -/

/-- A class that the weak rules have to do with: it opens and closes nothing and is not removed. -/
def isUnresolved : Option BidiClass → Bool
  | none | some .LRI | some .RLI | some .FSI | some .PDI => false
  | cls => !isRemoved cls

/-- A class that is left when marks are settled. -/
def isUnmarked (cls : Option BidiClass) : Bool := isUnresolved cls && cls != some .NSM

/-- A class that is left when Arabic letters are settled as well. -/
def isUniform (cls : Option BidiClass) : Bool := isUnmarked cls && cls != some .AL

/-- A class that has a level. -/
def isSettled : Option BidiClass → Bool
  | some .L | some .R | some .EN | some .AN => true
  | _ => false

/-- A class that is left when the weak rules are done. -/
def isFirm (cls : Option BidiClass) : Bool := isSettled cls || isNeutral cls

/-- The units have classes of the given kind. -/
abbrev Have (kind : Option BidiClass → Bool) (us : List LevelUnit) : Prop := ∀ u ∈ us, kind u.cls = true

theorem Have.map {kind kind' : Option BidiClass → Bool} {f : LevelUnit → LevelUnit} {us : List LevelUnit}
    (hf : ∀ u : LevelUnit, kind u.cls = true → kind' (f u).cls = true) (h : Have kind us) : Have kind' (us.map f) := by
  intro u hu
  obtain ⟨v, hv, rfl⟩ := List.mem_map.1 hu
  exact hf v (h v hv)

/-! ### Explicit rules -/

/-- No override of the embedding gives a class that has no level. -/
def Embedding.IsStrong (e : Embedding) : Prop :=
  ∀ o ∈ e.override :: e.enclosing.map (·.2), ∀ cls, o = some cls → isSettled (some cls) = true

theorem Embedding.isStrong_iff {e : Embedding} :
    e.IsStrong ↔ e.All fun _ o => ∀ cls, o = some cls → isSettled (some cls) = true := by
  simp only [IsStrong, All, List.forall_mem_cons, List.forall_mem_map]

theorem isUnresolved_of_isSettled {cls : Option BidiClass} (h : isSettled cls = true) : isUnresolved cls = true := by
  revert h
  rcases cls with _ | cls
  · decide
  · cases cls <;> decide

/-- An override gives a strong class. -/
theorem isSettled_of_opening? {n level : Nat} {cls : Option BidiClass} {override : Override}
    (h : opening? n cls = some (level, override)) : ∀ cls', override = some cls' → isSettled (some cls') = true := by
  rintro cls' rfl
  unfold opening? at h
  split at h <;> cases h <;> rfl

/-- What is removed opens an embedding, closes one or is a boundary neutral. -/
theorem removed_cases {n : Nat} {cls : Option BidiClass} (h : isRemoved cls = true) (hopening : opening? n cls = none) :
    cls = some .PDF ∨ cls = some .BN := by
  rcases cls with _ | cls
  · cases h
  · cases cls <;> simp [isRemoved, opening?] at h hopening ⊢

/-- A step of the explicit rules leaves the class of a character, that of an override, or nothing. -/
theorem explicitStep_isUnresolved (base : Nat) {e : Embedding} (he : e.IsStrong) (c : Char) {cls : Option BidiClass}
    (hcls : (isUnresolved cls || isRemoved cls) = true) :
    (explicitStep base e c cls).1.IsStrong ∧ ∀ u, (explicitStep base e c cls).2 = some u → isUnresolved u.cls = true := by
  unfold explicitStep
  split
  next level override hopening =>
    exact ⟨Embedding.isStrong_iff.2 ((Embedding.isStrong_iff.1 he).push (isSettled_of_opening? hopening)), nofun⟩
  next hopening =>
    split
    · exact ⟨Embedding.isStrong_iff.2 (Embedding.isStrong_iff.1 he).pop, nofun⟩
    · exact ⟨he, nofun⟩
    · refine ⟨fun o ho => ?_, fun u hu => ?_⟩
      · obtain rfl : o = none := by simpa using ho
        exact nofun
      · obtain rfl := Option.some.inj hu
        rfl
    next hpop hneutral hseparator =>
      have hplain : isUnresolved cls = true := by
        rcases Bool.or_eq_true_iff.1 hcls with hplain | hremoved
        · exact hplain
        · exact ((removed_cases hremoved hopening).elim hpop hneutral).elim
      refine ⟨he, fun u hu => ?_⟩
      obtain rfl := Option.some.inj hu
      cases hoverride : e.override with
      | none => exact hplain
      | some o =>
        have hsettled := he (some o) (hoverride ▸ List.mem_cons_self ..) o rfl
        exact isUnresolved_of_isSettled hsettled

theorem have_explicitUnitsFrom (base : Nat) {e : Embedding} (he : e.IsStrong) {cs : List (Char × Option BidiClass)}
    (h : ∀ x ∈ cs, (isUnresolved x.2 || isRemoved x.2) = true) : Have isUnresolved (explicitUnitsFrom base e cs) :=
  forall_explicitUnitsFrom (I := Embedding.IsStrong) (C := fun _ cls => (isUnresolved cls || isRemoved cls) = true)
    (fun he hcls => explicitStep_isUnresolved base he _ hcls) he h

/-! ### Weak rules -/

theorem have_resolveMarks (strong : Option BidiClass) {previous : Option BidiClass} (hp : isUnmarked previous = true)
    {us : List LevelUnit} (h : Have isUnresolved us) : Have isUnmarked (resolveMarks strong previous us) := by
  refine forall_resolveMarks (S := fun _ => True) (C := fun cls => isUnmarked cls = true) (fun hp hu => ?_)
    (fun _ hu => ?_) (fun hu => ⟨trivial, hu⟩) trivial hp h
  · dsimp only
    split
    · exact hp
    next hne => simp [isUnmarked, hu, hne]
  · dsimp only
    split
    · rfl
    · exact hu

theorem have_resolveArabic {us : List LevelUnit} (h : Have isUnmarked us) : Have isUniform (resolveArabic us) := by
  refine h.map fun u hu => ?_
  split
  · rfl
  next hne => simp [isUniform, hu, hne]

theorem isUniform_separatorClass {previous cls : Option BidiClass} (next : Option BidiClass)
    (h : isUniform cls = true) : isUniform (separatorClass previous cls next) = true := by
  unfold separatorClass
  split
  · rfl
  · split
    next hjoined => rcases hjoined.2.2 with hnumber | hnumber <;> rw [hnumber] <;> rfl
    · exact h

theorem have_resolveSeparators (previous : Option BidiClass) {us : List LevelUnit} (h : Have isUniform us) :
    Have isUniform (resolveSeparators previous us) :=
  forall_resolveSeparators (C := fun _ => True) (fun _ hu _ => isUniform_separatorClass _ hu) (fun _ => trivial)
    trivial h

theorem have_resolveTerminators {us : List LevelUnit} (h : Have isUniform us) : Have isUniform (resolveTerminators us) :=
  forall_resolveTerminators (N := True) (fun _ _ => trivial) (fun _ _ _ => rfl) h

theorem have_resolveLoose {us : List LevelUnit} (h : Have isUniform us) : Have isFirm (resolveLoose us) := by
  refine h.map fun u hu => ?_
  have hfirm : ∀ cls : Option BidiClass, isUniform cls = true → ¬ (cls = some .ET ∨ cls = some .ES ∨ cls = some .CS) →
      isFirm cls = true := by
    rintro (_ | cls)
    · exact nofun
    · cases cls <;> decide
  split
  · rfl
  next hne => exact hfirm u.cls hu hne

theorem have_resolveNumbers (strong : Option BidiClass) {us : List LevelUnit} (h : Have isFirm us) :
    Have isFirm (resolveNumbers strong us) := by
  refine forall_resolveNumbers (S := fun _ => True) (fun _ hu => ?_) (fun _ _ => trivial) trivial h
  dsimp only
  split
  · rfl
  · exact hu

theorem isUnmarked_strongOf (level : Nat) : isUnmarked (some (strongOf level)) = true := by
  unfold strongOf
  split <;> rfl

/-- The weak rules leave classes that have a level, and neutrals. -/
theorem have_resolveWeak {before : BidiClass} (hbefore : isUnmarked (some before) = true) {us : List LevelUnit}
    (h : Have isUnresolved us) : Have isFirm (resolveWeak before us) :=
  have_resolveNumbers _ (have_resolveLoose (have_resolveTerminators (have_resolveSeparators none
    (have_resolveArabic (have_resolveMarks _ hbefore h)))))

/-! ### Neutral rules -/

theorem isSettled_influence {cls : Option BidiClass} (h : isSettled cls = true) : isSettled (influence cls) = true := by
  unfold influence
  split
  · rfl
  · exact h

theorem isSettled_strongOf (level : Nat) : isSettled (some (strongOf level)) = true := by
  unfold strongOf
  split <;> rfl

/-- What stands around neutrals settles them. -/
theorem have_resolveNeutral {previous : Option BidiClass} (hp : isSettled previous = true) (after : Option BidiClass)
    {us : List LevelUnit} (h : Have isFirm us) : Have isSettled (resolveNeutral previous after us) := by
  refine forall_resolveNeutral (C := fun cls => isSettled cls = true) (fun {previous u} next hp _ _ => ?_)
    (fun hu hneutral => ?_) hp after h
  · show isSettled (neutralClass previous next u.level) = true
    unfold neutralClass
    split
    · exact isSettled_influence hp
    · exact isSettled_strongOf u.level
  · have hsettled := hu
    rw [isFirm, hneutral, Bool.or_false] at hsettled
    exact ⟨hsettled, hsettled⟩

/-! ### Levels -/

theorem have_resolveRuns (base : Nat) {us : List LevelUnit} (h : Have isUnresolved us) :
    Have isSettled ((levelRuns base us).flatMap resolveRun) := by
  refine forall_resolveRuns (L := fun _ => True) trivial (fun _ _ => trivial) (fun {r m n} _ _ hbefore _ hunits => ?_) h
  have hweak : Have isFirm (resolveWeak r.before r.units) :=
    have_resolveWeak (hbefore ▸ isUnmarked_strongOf m) hunits
  exact have_resolveNeutral (hbefore ▸ isSettled_strongOf m) _ hweak

theorem settle?_isSome {u : LevelUnit} (h : isSettled u.cls = true) : (settle? u).isSome = true := by
  rw [settle?, Option.isSome_map]
  revert h
  rcases u.cls with _ | cls
  · exact nofun
  · cases cls <;> simp [isSettled, implicitLevel?]

/-- The levels of units whose classes the weak rules have to do with can be resolved. -/
theorem resolveUnits_isSome (base : Nat) {us : List LevelUnit} (h : Have isUnresolved us) :
    ∃ vs, resolveUnits base us = some vs := by
  have hall : ∀ us : List LevelUnit, Have isSettled us → ∃ vs, us.mapM settle? = some vs := by
    intro us hus
    induction us with
    | nil => exact ⟨[], rfl⟩
    | cons u us ih =>
      obtain ⟨hu, hus⟩ := List.forall_mem_cons.1 hus
      obtain ⟨v, hv⟩ := Option.isSome_iff_exists.1 (settle?_isSome hu)
      obtain ⟨vs, hvs⟩ := ih hus
      exact ⟨v :: vs, by simp [List.mapM_cons, hv, hvs]⟩
  exact hall _ (have_resolveRuns base h)

/-- All characters of a text have a bidi class. -/
def IsClassified (s : List Char) : Prop := ∀ c ∈ s, (assignedClass c).isSome = true

instance (s : List Char) : Decidable (IsClassified s) := List.decidableBAll _ s

theorem assignedClass_eq_of_isSome {c : Char} (h : (assignedClass c).isSome = true) :
    assignedClass c = some (bidiClass c) := by
  obtain ⟨cls, hcls⟩ := Option.isSome_iff_exists.1 h
  rw [bidiClass, hcls, Option.getD_some]

/-- When isolates have become embeddings, the explicit rules and the weak ones have to do with all classes. -/
theorem classes_isolatesAsEmbeddings {s : List Char} (h : IsClassified s) :
    ∀ c ∈ isolatesAsEmbeddings s, (isUnresolved (assignedClass c) || isRemoved (assignedClass c)) = true := by
  induction s with
  | nil => exact nofun
  | cons c s ih =>
    obtain ⟨hc, hs⟩ := List.forall_mem_cons.1 h
    obtain ⟨c', heq, hkept, hremoved⟩ := isolatesAsEmbeddings_cons c s
    rw [heq]
    refine List.forall_mem_cons.2 ⟨?_, ih hs⟩
    by_cases hk : isKept c = true
    · obtain rfl := hkept hk
      obtain ⟨cls, hcls⟩ := Option.isSome_iff_exists.1 hc
      simp only [isKept, bidiClass, hcls, Option.getD_some] at hk
      rw [hcls]
      revert hk
      cases cls <;> decide
    · simp [hremoved, hk]

theorem isUnresolved_explicitUnits {s : List Char} (h : IsClassified s) (base : Nat) :
    Have isUnresolved (explicitUnits base ((isolatesAsEmbeddings s).map fun c => (c, assignedClass c))) := by
  refine have_explicitUnitsFrom _ (fun o ho => ?_) fun x hx => ?_
  · obtain rfl : o = none := by simpa using ho
    exact nofun
  · obtain ⟨c, hc, rfl⟩ := List.mem_map.1 hx
    exact classes_isolatesAsEmbeddings h c hc

/-- The levels of a text can be resolved if all of its characters have a bidi class. -/
theorem resolvedUnits?_of_classified {s : List Char} (h : IsClassified s) (base : Direction) :
    ∃ units, resolvedUnits? s base = some units :=
  resolveUnits_isSome (paragraphLevel s base) (isUnresolved_explicitUnits h _)

/-- A text all of whose characters have a bidi class is analysed. -/
theorem paragraph_of_classified {s : List Char} (h : IsClassified s) (base : Direction) :
    ∃ p, paragraph s base = .ok p := by
  obtain ⟨units, hresolved⟩ := resolvedUnits?_of_classified h base
  exact ⟨_, paragraph_of_resolved hresolved⟩

end WikiTypeset.Bidi
