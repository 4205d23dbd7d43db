import WikiTypeset.Proofs.Article.Settings
import WikiTypeset.Proofs.Emission.WellNested
import WikiTypeset.Proofs.Leaves

/-!
# Walks compose programs

What a typesetter does to its emitter is a well-nested program of operations. `Composes` says so of an action, with a set
that the program is in: the action comes to a given setting or fails in a frame of a given set, and for no other reason of
the emitter than a text that cannot be analysed. Another action is given beside it that does the same, unless the first
fails for one of some causes. Every way of composing actions has a rule.
-/

namespace WikiTypeset.Latex

open Action Bidi

/-- The emitter is open, its text reads in order, and the given formatting is open. -/
def Emitter.Coherent (e : Emitter) (stack : List Decoration) : Prop := ∃ l, e.Tracks paragraph stack l

/-- A failure that leaves the emitter open and comes from the analysis of a text. -/
def OnlyAnalysis (c : EmitError) (e : Emitter) : Prop := e.closed = false ∧ ∃ cause, c = .analysis cause

theorem sound_paragraph (all : List Turn) : Sound paragraph all := fun _ _ _ => paragraph_partitions

theorem Unanalysed.onlyAnalysis {an : Analyzer} {all : List Turn} {c : EmitError} {e : Emitter}
    (h : Unanalysed an all c e) : OnlyAnalysis c e := by
  obtain ⟨hopen, cause, hc, -⟩ := h
  exact ⟨hopen, cause, hc⟩

theorem performAll_coherent {os : List Operation} (hn : wellNestedAll os = true) {e : Emitter}
    {stack : List Decoration} (h : e.Coherent stack) :
    Leaves (performAll os) e (fun _ e' => e'.Coherent stack) OnlyAnalysis := by
  obtain ⟨l, h⟩ := h
  exact (performAll_tracks (sound_paragraph _) os hn h (List.Subset.refl _)).imp (fun _ _ h' => ⟨_, h'⟩)
    fun _ _ h' => h'.onlyAnalysis

end WikiTypeset.Latex

namespace WikiTypeset.Article

open Action Latex Emit

/-! ### Sets of programs -/

/-- A set of programs. -/
abbrev Programs := List Operation → Prop

/-- The set of one program. -/
def Programs.only (os : List Operation) : Programs := (· = os)

/-- Programs of one set followed by programs of another. -/
def Programs.andThen (L L' : Programs) : Programs := fun os => ∃ first second, L first ∧ L' second ∧ os = first ++ second

/-- Programs inside an operation. -/
def Programs.inside (L : Programs) (o : List Operation → Operation) : Programs := fun os => ∃ inner, L inner ∧ os = [o inner]

/-! ### Actions that leave the emitter alone -/

/-- A failure for no reason of the emitter. -/
def ArticleError.IsOutside (c : ArticleError) : Prop := ∀ cause, c ≠ .emit cause

/-- The setting and the emitter are as they were. -/
def Typesetter.Untouched (t t' : Typesetter) : Prop := t'.setting = t.setting ∧ t'.emitter = t.emitter

theorem Typesetter.Untouched.trans {t t' t'' : Typesetter} (h : t.Untouched t') (h' : t'.Untouched t'') :
    t.Untouched t'' :=
  ⟨h'.1.trans h.1, h'.2.trans h.2⟩

/-- The action does nothing to the setting and the emitter, and does not fail because of them; its results are of the
given kind. -/
def SilentWith {α : Type} (R : α → Prop) (a : Typeset α) : Prop :=
  ∀ t : Typesetter, Leaves a t (fun x t' => R x ∧ t.Untouched t') fun c t' => c.IsOutside ∧ t.Untouched t'

/-- The action does nothing to the setting and the emitter, and does not fail because of them. -/
abbrev Silent {α : Type} (a : Typeset α) : Prop := SilentWith (fun _ => True) a

namespace SilentWith

variable {α β : Type} {R : α → Prop} {Q : β → Prop} {a : Typeset α} {f : α → Typeset β}

theorem of_pure {x : α} (h : R x) : SilentWith R (pure x : Typeset α) := fun _ => Leaves.of_pure ⟨h, rfl, rfl⟩

theorem bind (ha : SilentWith R a) (hf : ∀ x, R x → SilentWith Q (f x)) : SilentWith Q (a >>= f) := by
  intro t
  refine (ha t).bind fun x t₁ h₁ => (hf x h₁.1 t₁).imp (fun _ t₂ h₂ => ?_) fun c t₂ h₂ => ?_
  · exact ⟨h₂.1, h₁.2.trans h₂.2⟩
  · exact ⟨h₂.1, h₁.2.trans h₂.2⟩

end SilentWith

namespace Silent

variable {α β : Type} {a : Typeset α} {f : α → Typeset β}

theorem of_pure (x : α) : Silent (pure x : Typeset α) := SilentWith.of_pure trivial

theorem of_get : Silent (get : Typeset Typesetter) := fun t => Leaves.of_ok (perform_get t) ⟨trivial, rfl, rfl⟩

theorem of_modify {g : Typesetter → Typesetter} (h : ∀ t : Typesetter, t.Untouched (g t)) :
    Silent (modify g : Typeset Unit) :=
  fun t => Leaves.of_modify ⟨trivial, h t⟩

theorem of_throw {c : ArticleError} (h : c.IsOutside) : Silent (throw c : Typeset α) :=
  fun _ => Leaves.of_throw ⟨h, rfl, rfl⟩

theorem bind (ha : Silent a) (hf : ∀ x, Silent (f x)) : Silent (a >>= f) := SilentWith.bind ha fun x _ => hf x

theorem note (log : Log) : Silent (Typeset.note log) := of_modify fun _ => ⟨rfl, rfl⟩

theorem say (level : LogLevel) (text : String) : Silent (Typeset.say level text) := note _

end Silent

/-- A look-up gives the language of its code. -/
theorem SilentWith.lookup (code : String) : SilentWith (· = Language.ofCode code) (Typeset.lookup code) := by
  refine SilentWith.bind Silent.of_get fun t _ => SilentWith.bind (Silent.of_modify fun _ => ⟨rfl, rfl⟩) fun _ _ => ?_
  exact SilentWith.bind (Silent.note _) fun _ _ => .of_pure rfl

/-- A change of the frame of a typesetter, and of nothing else that content depends on. -/
structure Reframing (g : Typesetter → Typesetter) (G : Frame → Frame) : Prop where
  setting : ∀ t, (g t).setting = t.setting.reframed G
  emitter : ∀ t, (g t).emitter = t.emitter

theorem Reframing.frame {g : Typesetter → Typesetter} {G : Frame → Frame} (h : Reframing g G) (t : Typesetter) :
    (g t).frame = G t.frame :=
  congrArg Setting.frame (h.setting t)

/-! ### Actions that compose programs -/

/-- A result in the setting `s`, after a well-nested program of the set has been performed in the emitter. -/
def Composed (e : Emitter) (stack : List Decoration) (s : Setting) (L : Programs) (t : Typesetter) : Prop :=
  t.setting = s ∧ t.emitter.Coherent stack ∧
    ∃ os, L os ∧ wellNestedAll os = true ∧ (performAll os).perform e = (.ok (), t.emitter)

/-- A failure in a frame of the set, which leaves the emitter open; if it is one of the emitter, then for a text that
cannot be analysed. -/
def Broken (E : Frame → Prop) (c : ArticleError) (t : Typesetter) : Prop :=
  E t.frame ∧ t.emitter.closed = false ∧ ∀ cause, c = .emit cause → ∃ reason, cause = .analysis reason

theorem Broken.imp {E E' : Frame → Prop} {c : ArticleError} {t t' : Typesetter} (h : Broken E c t)
    (hframe : E t.frame → E' t'.frame) (hclosed : t'.emitter.closed = t.emitter.closed) : Broken E' c t' :=
  ⟨hframe h.1, hclosed.trans h.2.1, h.2.2⟩

theorem Broken.outside {E : Frame → Prop} {c : ArticleError} {t : Typesetter} {stack : List Decoration}
    (hE : E t.frame) (ht : t.emitter.Coherent stack) (hc : c.IsOutside) : Broken E c t := by
  obtain ⟨l, hl⟩ := ht
  exact ⟨hE, hl.isOpen, fun cause h => absurd h (hc cause)⟩

/-- In a coherent emitter the first action performs a program of the set and comes to the setting `s`, or it is broken in
a frame of `E`; and the second action follows it. -/
def Composes {α : Type} (C : ArticleError → Prop) (a a' : Typeset α) (t : Typesetter) (s : Setting)
    (E : Frame → Prop) (L : Programs) : Prop :=
  ∀ stack, t.emitter.Coherent stack →
    Leaves a t (fun _ => Composed t.emitter stack s L) (Broken E) ∧ Retraces C a a' t

/-- The actions compose a program of the set, and come to a setting of the frame in which they may fail. -/
abbrev Returns {α : Type} (C : ArticleError → Prop) (a a' : Typeset α) (t : Typesetter) (s : Setting)
    (L : Programs) : Prop :=
  Composes C a a' t s (· = s.frame) L

/-- An action of the emitter that fails for no other reason than the analysis of a text. -/
theorem leaves_emit {α : Type} {a : Emit α} {t : Typesetter} {P : α → Emitter → Prop} {E : Frame → Prop}
    (h : Leaves a t.emitter P OnlyAnalysis) (hk : KeepsMode t.emitter.mode a) (hE : E t.frame) :
    Leaves (Typeset.emit a) t
      (fun x t' => t'.setting = t.setting ∧ a.perform t.emitter = (.ok x, t'.emitter) ∧ P x t'.emitter) (Broken E) := by
  refine Leaves.within ?_
  have hmode := hk t.emitter rfl
  rcases hperform : a.perform t.emitter with ⟨c | x, e⟩
  · obtain ⟨hopen, reason, hreason⟩ := h.error hperform
    refine Leaves.of_error hperform ⟨?_, hopen, fun cause hc => ⟨reason, ?_⟩⟩
    · rw [frame_of_mode (hmode.error hperform)]
      exact hE
    · cases hc
      exact hreason
  · refine Leaves.of_ok hperform ⟨?_, rfl, h.ok hperform⟩
    exact setting_of_mode (hmode.ok hperform)

namespace Composes

variable {α β : Type} {C : ArticleError → Prop} {a a' : Typeset α} {f f' : α → Typeset β} {t : Typesetter}
  {s q r : Setting} {E F : Frame → Prop} {L L' : Programs}

theorem mono (h : Composes C a a' t s E L) (hL : ∀ os, L os → L' os) : Composes C a a' t s E L' := by
  intro stack ht
  obtain ⟨hleaves, hretraces⟩ := h stack ht
  refine ⟨hleaves.imp_left fun _ t' h' => ?_, hretraces⟩
  obtain ⟨hsetting, hcoherent, os, hos, hrest⟩ := h'
  exact ⟨hsetting, hcoherent, os, hL os hos, hrest⟩

theorem weaken (h : Composes C a a' t s F L) (hE : ∀ x, F x → E x) : Composes C a a' t s E L := by
  intro stack ht
  obtain ⟨hleaves, hretraces⟩ := h stack ht
  exact ⟨hleaves.imp (fun _ _ h' => h') fun _ _ h' => h'.imp (hE _) rfl, hretraces⟩

theorem of_silent (ha : Silent a) (ht : t.setting = s) : Returns C a a t s (.only []) := by
  intro stack hcoherent
  refine ⟨(ha t).imp (fun _ t' h' => ?_) fun c t' h' => ?_, .refl a t⟩
  · obtain ⟨-, hsetting, hemitter⟩ := h'
    exact ⟨hsetting.trans ht, hemitter ▸ hcoherent, [], rfl, rfl, by rw [hemitter]; rfl⟩
  · obtain ⟨houtside, hsetting, hemitter⟩ := h'
    exact .outside (frame_of_setting (hsetting.trans ht)) (hemitter ▸ hcoherent) houtside

theorem of_pure (x : α) (ht : t.setting = s) : Composes C (pure x) (pure x) t s E (.only []) := by
  intro stack hcoherent
  exact ⟨Leaves.of_pure ⟨ht, hcoherent, [], rfl, rfl, rfl⟩, .refl _ t⟩

theorem silent_bind {R : α → Prop} (ha : SilentWith R a) (ht : t.setting = q) (hE : E q.frame)
    (hf : ∀ x t', R x → t'.setting = q → t'.emitter = t.emitter → Composes C (f x) (f' x) t' s E L) :
    Composes C (a >>= f) (a >>= f') t s E L := by
  intro stack hcoherent
  have hafter : ∀ x t', R x ∧ t.Untouched t' →
      Leaves (f x) t' (fun _ => Composed t.emitter stack s L) (Broken E) ∧ Retraces C (f x) (f' x) t' := by
    rintro x t' ⟨hx, hsetting, hemitter⟩
    have hrest := hf x t' hx (hsetting.trans ht) hemitter stack (hemitter ▸ hcoherent)
    rw [hemitter] at hrest
    exact hrest
  refine ⟨Leaves.bind (M := fun x t' => R x ∧ t.Untouched t') ?_ fun x t' h' => (hafter x t' h').1,
    (Retraces.refl a t).bind fun x t' hperform => (hafter x t' ((ha t).ok hperform)).2⟩
  refine (ha t).imp (fun _ _ h' => h') fun c t' h' => ?_
  obtain ⟨houtside, hsetting, hemitter⟩ := h'
  exact .outside ((frame_of_setting (hsetting.trans ht)).symm ▸ hE) (hemitter ▸ hcoherent) houtside

theorem modify_bind {f f' : Unit → Typeset β} {g : Typesetter → Typesetter} {G : Frame → Frame} (hg : Reframing g G)
    (ht : t.setting = q) (hf : ∀ t', t'.setting = q.reframed G → t'.emitter = t.emitter →
      Composes C (f ()) (f' ()) t' s E L) : Composes C (modify g >>= f) (modify g >>= f') t s E L := by
  intro stack hcoherent
  have hrest := hf (g t) (by rw [hg.setting, ht]) (hg.emitter t) stack (hg.emitter t ▸ hcoherent)
  rw [hg.emitter] at hrest
  refine ⟨hrest.1.of_perform_eq (by rw [perform_bind, perform_modify]), (Retraces.refl _ t).bind fun x t' hperform => ?_⟩
  rw [perform_modify] at hperform
  cases hperform
  exact hrest.2

theorem modify_silent {g : Typesetter → Typesetter} {G : Frame → Frame} (hg : Reframing g G) (ht : t.setting = s) :
    Composes C (modify g) (modify g) t (s.reframed G) E (.only []) := by
  intro stack hcoherent
  rw [← hg.emitter] at hcoherent
  refine ⟨Leaves.of_modify ⟨?_, hcoherent, [], rfl, rfl, ?_⟩, .refl _ t⟩
  · rw [hg.setting, ht]
  · rw [hg.emitter]
    rfl

/-- A look-up gives the language of its code. -/
theorem lookup_bind {f f' : Language → Typeset β} {code : String} (ht : t.setting = q) (hE : E q.frame)
    (hf : ∀ t', t'.setting = q → t'.emitter = t.emitter →
      Composes C (f (Language.ofCode code)) (f' (Language.ofCode code)) t' s E L) :
    Composes C (Typeset.lookup code >>= f) (Typeset.lookup code >>= f') t s E L := by
  refine silent_bind (.lookup code) ht hE fun l t' hl ht' h' => ?_
  rw [hl]
  exact hf t' ht' h'

theorem get_bind {f f' : Typesetter → Typeset β} (h : Composes C (f t) (f' t) t s E L) :
    Composes C (get >>= f) (get >>= f') t s E L := by
  intro stack ht
  obtain ⟨hleaves, hretraces⟩ := h stack ht
  exact ⟨Leaves.get_bind hleaves, hretraces.get_bind⟩

theorem bind (ha : Composes C a a' t r E L)
    (hf : ∀ x t', t'.setting = r → Composes C (f x) (f' x) t' s E L') :
    Composes C (a >>= f) (a' >>= f') t s E (L.andThen L') := by
  intro stack ht
  obtain ⟨hleaves, hretraces⟩ := ha stack ht
  refine ⟨hleaves.bind fun x t₁ h₁ => ?_, hretraces.bind fun x t₁ hperform => ?_⟩
  · obtain ⟨hsetting, hcoherent, os, hos, hn, hperform⟩ := h₁
    refine (hf x t₁ hsetting stack hcoherent).1.imp_left fun _ t₂ h₂ => ?_
    obtain ⟨hsetting', hcoherent', os', hos', hn', hperform'⟩ := h₂
    refine ⟨hsetting', hcoherent', os ++ os', ⟨os, os', hos, hos', rfl⟩, ?_, ?_⟩
    · rw [wellNestedAll_append, hn, hn']
      rfl
    · rw [performAll_append, perform_bind, hperform]
      exact hperform'
  · obtain ⟨hsetting, hcoherent, -⟩ := hleaves.ok hperform
    exact (hf x t₁ hsetting stack hcoherent).2

/-- Actions that perform one program each. -/
theorem only_bind {os os' : List Operation} (ha : Composes C a a' t r E (.only os))
    (hf : ∀ x t', t'.setting = r → Composes C (f x) (f' x) t' s E (.only os')) :
    Composes C (a >>= f) (a' >>= f') t s E (.only (os ++ os')) := by
  refine (ha.bind hf).mono ?_
  rintro _ ⟨_, _, rfl, rfl, rfl⟩
  rfl

/-! ### Operations -/

/-- An operation of the emitter that comes to a setting. -/
theorem of_leaves {o : Operation} (hn : o.wellNested = true) {a : Emit Unit} (ha : o.perform = a)
    (hs : Leaves (Typeset.emit a) t (fun _ t' => t'.setting = s) fun _ t' => E t'.frame) :
    Composes C (Typeset.emit a) (Typeset.emit a) t s E (.only [o]) := by
  subst ha
  intro stack ht
  have hwell : wellNestedAll [o] = true := by simp [wellNestedAll, hn]
  have hone : performAll [o] = o.perform := by simp [performAll]
  have hrun := performAll_coherent hwell ht
  rw [hone] at hrun
  have hemit : Leaves (Typeset.emit o.perform) t (fun _ t' => t'.emitter.Coherent stack ∧
      (performAll [o]).perform t.emitter = (.ok (), t'.emitter))
      fun c t' => t'.emitter.closed = false ∧ ∀ cause, c = .emit cause → ∃ reason, cause = .analysis reason := by
    refine Leaves.within ?_
    rcases hperform : o.perform.perform t.emitter with ⟨c | x, e⟩
    · obtain ⟨hopen, reason, hreason⟩ := hrun.error hperform
      refine Leaves.of_error hperform ⟨hopen, fun cause hc => ⟨reason, ?_⟩⟩
      cases hc
      exact hreason
    · exact Leaves.of_ok hperform ⟨hrun.ok hperform, hone ▸ hperform⟩
  refine ⟨(hs.and hemit).imp (fun _ t' h' => ?_) fun c t' h' => ⟨h'.1, h'.2⟩, .refl _ t⟩
  exact ⟨h'.1, h'.2.1, [o], rfl, hwell, h'.2.2⟩

/-- An operation that keeps the mode of the emitter. -/
theorem emit {o : Operation} (hn : o.wellNested = true) {a : Emit Unit} (ha : o.perform = a)
    (hk : ∀ m, KeepsMode m a) (ht : t.setting = s) :
    Returns C (Typeset.emit a) (Typeset.emit a) t s (.only [o]) := by
  refine of_leaves hn ha (Leaves.within ((hk _ t.emitter rfl).imp (fun _ e h' => ?_) fun _ e h' => ?_))
  · exact (setting_of_mode h').trans ht
  · exact (frame_of_mode h').trans (frame_of_setting ht)

/-- A change of the base direction. -/
theorem switchDirection (direction : NamedDirection) (ht : t.setting = s) :
    Returns C (Typeset.emit (Emit.switchDirection direction)) (Typeset.emit (Emit.switchDirection direction)) t
      { s with paragraphDir := direction } (.only [.switchDirection direction]) := by
  subst ht
  refine of_leaves rfl rfl (Leaves.within ((leaves_switchDirection direction rfl).imp (fun _ e h' => ?_) fun _ e h' => ?_))
  · exact setting_of_mode h'
  · exact frame_of_mode h'

/-- A change of the font of Latin words. -/
theorem setCoverage (coverage : Bool) (ht : t.setting = s) :
    Returns C (Typeset.emit (Emit.setCoverage coverage)) (Typeset.emit (Emit.setCoverage coverage)) t
      { s with latinSwitch := !coverage } (.only [.setCoverage coverage]) := by
  subst ht
  refine of_leaves rfl rfl (Leaves.within ((leaves_setCoverage coverage rfl).imp (fun _ e h' => ?_) fun _ e h' => ?_))
  · exact setting_of_mode h'
  · exact frame_of_mode h'

/-- A change of the typesetter that is an operation of its emitter. -/
theorem of_modify {o : Operation} (hn : o.wellNested = true) {g : Typesetter → Typesetter} {G : Frame → Frame}
    (hg : ∀ t, o.perform.perform t.emitter = (.ok (), (g t).emitter)) (hs : ∀ t, (g t).setting = t.setting.reframed G)
    (ht : t.setting = s) :
    Composes C (modify g) (modify g) t (s.reframed G) E (.only [o]) := by
  intro stack hcoherent
  have hperform : (performAll [o]).perform t.emitter = (.ok (), (g t).emitter) := by
    simpa [performAll] using hg t
  have hrun := performAll_coherent (show wellNestedAll [o] = true by simp [wellNestedAll, hn]) hcoherent
  refine ⟨Leaves.of_modify ⟨?_, hrun.ok hperform, [o], rfl, by simp [wellNestedAll, hn], hperform⟩, .refl _ t⟩
  rw [hs, ht]

/-! ### Parts -/

/-- What is put right at the end does not concern the emitter. -/
theorem finishing_silent {a a' : Typeset Unit} (ha : Composes C a a' t r F L) {g : Typesetter → Typesetter}
    {G : Frame → Frame} (hg : Reframing g G) (hs : r.reframed G = s) (hE : ∀ x, F x → E (G x)) :
    Composes C (Action.finishing a (modify g)) (Action.finishing a' (modify g)) t s E L := by
  intro stack ht
  obtain ⟨hleaves, hretraces⟩ := ha stack ht
  refine ⟨Leaves.finishing (hleaves.imp (fun _ t' h' => ?_) fun c t' h' => ?_),
    hretraces.finishing fun _ t' _ _ => ⟨_, perform_modify g t'⟩⟩
  · obtain ⟨hsetting, hrest⟩ := h'
    refine Leaves.of_modify ⟨?_, ?_⟩
    · rw [hg.setting, hsetting, hs]
    · rw [hg.emitter]
      exact hrest
  · refine Leaves.of_modify (h'.imp (fun hframe => ?_) (by rw [hg.emitter]))
    rw [hg.frame]
    exact hE _ hframe

/-- A part during which the emitter is set otherwise. -/
theorem finishing {o : Operation} (hn : o.wellNested = true) {a a' : Typeset Unit}
    (ha : Composes C a a' t r F L) {g : Typesetter → Typesetter} {G : Frame → Frame}
    (hg : ∀ t, o.perform.perform t.emitter = (.ok (), (g t).emitter)) (hG : ∀ t, (g t).setting = t.setting.reframed G)
    (hclosed : ∀ t, (g t).emitter.closed = t.emitter.closed) (hE : ∀ x, F x → E (G x)) :
    Composes C (Action.finishing a (modify g)) (Action.finishing a' (modify g)) t (r.reframed G) E
      (L.andThen (.only [o])) := by
  intro stack ht
  obtain ⟨hleaves, hretraces⟩ := ha stack ht
  refine ⟨Leaves.finishing (hleaves.imp (fun _ t₁ h₁ => ?_) fun c t₁ h₁ => ?_),
    hretraces.finishing fun _ t' _ _ => ⟨_, perform_modify g t'⟩⟩
  · obtain ⟨hsetting, hcoherent, os, hos, hnos, hperform⟩ := h₁
    obtain ⟨hlast, -⟩ := of_modify (C := C) (E := E) hn hg hG hsetting stack hcoherent
    refine hlast.imp_left fun _ t₂ h₂ => ?_
    obtain ⟨hsetting', hcoherent', os', hos', hnos', hperform'⟩ := h₂
    refine ⟨hsetting', hcoherent', os ++ os', ⟨os, os', hos, hos', rfl⟩, by rw [wellNestedAll_append, hnos, hnos']; rfl, ?_⟩
    rw [performAll_append, perform_bind, hperform]
    exact hperform'
  · refine Leaves.of_modify (h₁.imp (fun hframe => ?_) (hclosed t₁))
    rw [frame_of_setting (hG t₁)]
    exact hE _ hframe

/-- Content inside inline formatting. -/
theorem wrap {command : String} {content content' : Typeset Unit} (ht : t.setting = q)
    (h : ∀ t', t'.setting = q → Composes C content content' t' s E L) :
    Composes C (Typeset.wrap command content) (Typeset.wrap command content') t s E
      (L.inside (.wrap command {})) := by
  rintro stack ⟨l, hl⟩
  obtain ⟨d, hd, hstart⟩ := hl.recordStart command {}
  have hrecord := perform_record hl.isOpen (.startInline command)
  have hemit : ∀ {t' : Typesetter} {d : Decoration}, t'.emitter.closed = false →
      (Typeset.emit (Emit.record d)).perform t' = (.ok (), { t' with emitter := t'.emitter.recorded d }) := by
    intro t' d hopen
    rw [Typeset.emit, perform_within, perform_record hopen]
  have hbegin := hemit (d := .startInline command) hl.isOpen
  obtain ⟨hleaves, hretraces⟩ := h { t with emitter := t.emitter.recorded (.startInline command) } ht (d :: stack)
    ⟨_, hstart⟩
  refine ⟨Leaves.bind (M := fun _ t₁ => t₁ = { t with emitter := t.emitter.recorded (.startInline command) })
    (Leaves.of_ok hbegin rfl) ?_, (Retraces.refl _ t).bind fun _ t₁ hperform => ?_⟩
  · rintro _ _ rfl
    refine Leaves.finishing (hleaves.imp (fun _ t₂ h₂ => ?_) fun c t₂ h₂ => ?_)
    · obtain ⟨hsetting, ⟨l₂, ht₂⟩, os, hos, hn, hperform⟩ := h₂
      have hend := perform_record ht₂.isOpen (.endInline command)
      refine Leaves.of_ok (hemit ht₂.isOpen)
        ⟨hsetting, ⟨_, ht₂.recordEnd hd⟩, [.wrap command {} os], ⟨os, hos, rfl⟩, ?_, ?_⟩
      · simp [wellNestedAll, Operation.wellNested, hn]
      · simp only [performAll, Operation.perform, Emit.wrap, perform_bind, hrecord, perform_finishing, hperform, hend,
          perform_pure]
    · exact Leaves.of_ok (hemit h₂.2.1) (h₂.imp (fun hframe => hframe) rfl)
  · rw [hbegin] at hperform
    cases hperform
    exact hretraces.finishing fun c t' hfail _ => ⟨_, hemit (hleaves.error hfail).2.1⟩

/-- Content outside all inline formatting. -/
theorem isolated {content content' : Typeset Unit} (ht : t.setting = q) (hE₀ : E q.frame) (hE : E s.frame)
    (h : ∀ t', t'.setting = q → Composes C content content' t' s E L) :
    Composes C (Typeset.isolated content) (Typeset.isolated content') t s E (L.inside .isolated) := by
  rintro stack ⟨l, hl⟩
  have hentering := (hl.enterIsolation (sound_paragraph _) (List.Subset.refl _)).imp (fun _ _ h' => h')
    fun _ _ h' => h'.onlyAnalysis
  have hentered := leaves_emit (E := E) hentering (robust_mode _).keeps_enterIsolation ((frame_of_setting ht).symm ▸ hE₀)
  have hinner : ∀ t₁ : Typesetter, t₁.setting = q → (∃ l, t₁.emitter.Tracks Bidi.paragraph [] l) →
      Leaves (content >>= fun _ => Typeset.emit checkIsolation) t₁
        (fun _ t₂ => t₂.setting = s ∧ (∃ l, t₂.emitter.Tracks Bidi.paragraph [] l ∧ t₂.emitter.tokens = []) ∧
          ∃ os, L os ∧ wellNestedAll os = true ∧
            (performAll os >>= fun _ => checkIsolation).perform t₁.emitter = (.ok (), t₂.emitter)) (Broken E) ∧
        Retraces C (content >>= fun _ => Typeset.emit checkIsolation)
          (content' >>= fun _ => Typeset.emit checkIsolation) t₁ := by
    intro t₁ hr hcoherent
    obtain ⟨hleaves, hretraces⟩ := h t₁ hr [] hcoherent
    refine ⟨hleaves.bind fun _ t₂ h₂ => ?_, hretraces.bind fun _ t₂ _ => .refl _ t₂⟩
    obtain ⟨hsetting, ⟨l₂, ht₂⟩, os, hos, hn, hperform⟩ := h₂
    have hcheck := (ht₂.checkIsolation (sound_paragraph _) (List.Subset.refl _)).imp (fun _ _ h' => h')
      fun _ _ h' => h'.onlyAnalysis
    refine (leaves_emit hcheck (robust_mode _).keeps_checkIsolation ((frame_of_setting hsetting).symm ▸ hE)).imp_left fun _ t₃ h₃ => ?_
    refine ⟨h₃.1.trans hsetting, ⟨_, h₃.2.2⟩, os, hos, hn, ?_⟩
    rw [perform_bind, hperform]
    exact h₃.2.1
  have hleave : ∀ (saved : List Decoration) (t' : Typesetter), (Typeset.emit (leaveIsolation saved)).perform t' =
      (.ok (), { t' with emitter := { t'.emitter with stack := saved } }) := fun _ _ => rfl
  refine ⟨hentered.bind fun saved t₁ h₁ => ?_, (Retraces.refl _ t).bind fun saved t₁ hperform => ?_⟩
  -- The part is checked before the formatting comes back, and the formatting comes back even if the check fails.
  · obtain ⟨hsetting, hperformed, rfl, hl₁⟩ := h₁
    refine Leaves.finishing ((hinner t₁ (hsetting.trans ht) ⟨_, hl₁⟩).1.imp (fun _ t₂ h₂ => ?_) fun c t₂ h₂ => ?_)
    · obtain ⟨hsetting₂, ⟨l₂, ht₂, htokens⟩, os, hos, hn, hperform⟩ := h₂
      refine Leaves.of_ok (hleave _ t₂)
        ⟨hsetting₂, ⟨_, ht₂.exchange htokens saved⟩, [.isolated os], ⟨os, hos, rfl⟩, ?_, ?_⟩
      · simp [wellNestedAll, Operation.wellNested, hn]
      · simp only [performAll, Operation.perform, Emit.isolated, perform_bind, hperformed, perform_finishing,
          leaveIsolation, perform_modify, perform_pure]
        rw [perform_bind] at hperform
        simp only [hperform]
    · exact Leaves.of_ok (hleave _ t₂) (h₂.imp (fun hframe => hframe) rfl)
  · obtain ⟨hsetting, -, -, hl₁⟩ := hentered.ok hperform
    exact (hinner t₁ (hsetting.trans ht) ⟨_, hl₁⟩).2.finishing fun c t' _ _ => ⟨_, hleave saved t'⟩

/-- A part one level deeper in lists. -/
theorem inList {content content' : Typeset Unit} {restore : Typesetter → Typesetter} {G : Frame → Frame}
    (hr : Reframing restore G) (ht : t.setting = q)
    (h : ∀ t', t'.setting = q.reframed (Frame.deeper 1) → Composes C content content' t' r F L)
    (hs : r.reframed (fun x => G (x.deeper (-1))) = s) (hE : ∀ x, F x → E (G (x.deeper (-1)))) :
    Composes C (Typeset.inList content restore) (Typeset.inList content' restore) t s E
      ((Programs.only [.deepenList 1]).andThen (L.andThen (.only [.deepenList (-1)]))) := by
  refine (of_modify (o := .deepenList 1) (G := Frame.deeper 1) rfl (fun _ => rfl) (fun _ => rfl) ht).bind fun _ t₁ ht₁ => ?_
  subst hs
  refine (h t₁ ht₁).finishing (o := .deepenList (-1)) rfl (fun t => ?_) (fun t => ?_) (fun t => ?_) hE
  · rw [hr.emitter]
    rfl
  · rw [hr.setting]
    rfl
  · rw [hr.emitter]

/-- A program that assumes the direction again that was assumed before it, and goes on. -/
theorem resuming (ha : Composes C a a' t s E
      ((L.andThen (.only [.assumeDirection t.emitter.contextDir])).andThen L')) :
    Composes C a a' t s E ((L.inside .resuming).andThen L') := by
  intro stack ht
  obtain ⟨hleaves, hretraces⟩ := ha stack ht
  refine ⟨hleaves.imp_left fun _ t' h' => ?_, hretraces⟩
  -- The direction that is assumed in the end is the one of the emitter before the program.
  obtain ⟨hsetting, hcoherent, os, ⟨_, rest, ⟨first, _, hfirst, rfl, rfl⟩, hrest, rfl⟩, hn, hperform⟩ := h'
  rw [wellNestedAll_append, wellNestedAll_append, Bool.and_eq_true, Bool.and_eq_true] at hn
  refine ⟨hsetting, hcoherent, [.resuming first] ++ rest, ⟨_, rest, ⟨first, hfirst, rfl⟩, hrest, rfl⟩, ?_, ?_⟩
  · simp [wellNestedAll, Operation.wellNested, hn.1.1, hn.2]
  · rw [performAll_append, performAll_append, bind_assoc] at hperform
    simpa [performAll, Operation.perform, perform_bind, perform_get] using hperform

end Composes

end WikiTypeset.Article
