import WikiTypeset.Article.Walk
import WikiTypeset.Proofs.Article.Handlers
import WikiTypeset.Proofs.Formula.Commands

/-!
# Every walk composes a program

Lists, formulas and figures compose programs as running text does. By induction on the bound of its depth, so does every
walk: `visitFrom_composes`.
-/

namespace WikiTypeset.Article

open Action Latex Typeset Html

variable {C : ArticleError → Prop} {visit visit' : Visit} {t : Typesetter} {s : Setting} {W W' : List (List Char)}

/-! ### Environments -/

/-- What stands in an environment: a first part, styles, and a last part. -/
def Styled (W : List (List Char)) (env : String) : Programs := fun os => ∃ W₁ W₂ before styles content,
  Laying W₁ before ∧ (∀ style ∈ styles, style ∈ styleFragments) ∧ IsSetUp env styles content ∧ Laying W₂ content ∧
  W = W₁ ++ W₂ ∧ os = before ++ styleOperations styles ++ content

/-- What stands in an environment, with its end. -/
def Ending (W : List (List Char)) (env : String) : Programs := (Styled W env).andThen (.only [.endEnv env])

theorem Laying.styled {os : List Operation} (h : Laying W os) (env : String) : Styled W env os :=
  ⟨[], W, [], [], os, .empty, List.forall_mem_nil _, fun _ hstyles => absurd rfl hstyles, h, rfl, rfl⟩

theorem Styled.after {env : String} {os os' : List Operation} (h : Styled W' env os') (hos : Laying W os) :
    Styled (W ++ W') env (os ++ os') := by
  obtain ⟨W₁, W₂, before, styles, content, hbefore, hstyles, hset, hcontent, rfl, rfl⟩ := h
  exact ⟨W ++ W₁, W₂, os ++ before, styles, content, hos.append hbefore, hstyles, hset, hcontent,
    (List.append_assoc _ _ _).symm, by simp⟩

theorem ending_of_endEnv (env : String) (ht : t.setting = s) :
    Returns C (emit (Emit.endEnv env)) (emit (Emit.endEnv env)) t s (Ending [] env) :=
  (endEnv_composes env ht).mono fun os hos => ⟨[], os, Laying.empty.styled env, hos, rfl⟩

theorem ending_composes (env : String) {content content' : Typeset Unit}
    (h : Returns C content content' t s (Laying W)) :
    Returns C (do content; emit (Emit.endEnv env)) (do content'; emit (Emit.endEnv env)) t s (Ending W env) :=
  (h.mono fun _ hos => hos.styled env).bind fun _ _ ht => endEnv_composes env ht

theorem Returns.beforeEnding {env : String} {a a' : Typeset Unit} {f f' : Unit → Typeset Unit}
    (ha : Returns C a a' t s (Laying W))
    (hf : ∀ x t', t'.setting = s → Returns C (f x) (f' x) t' s (Ending W' env)) :
    Returns C (a >>= f) (a' >>= f') t s (Ending (W ++ W') env) := by
  refine (ha.bind hf).mono ?_
  rintro _ ⟨os, _, hos, ⟨os', last, hos', hlast, rfl⟩, rfl⟩
  exact ⟨os ++ os', last, hos'.after hos, hlast, (List.append_assoc _ _ _).symm⟩

/-- A style, and content in it. -/
theorem styled_composes {env style : String} (hstyle : style ∈ styleFragments) {L : Programs}
    (hL : ∀ os, L os → Laying W os ∧ IsSetUp env [style] os) {content content' : Typeset Unit} (ht : t.setting = s)
    (h : ∀ t', t'.setting = s → Returns C content content' t' s L) :
    Returns C (do fragment style; content) (do fragment style; content') t s (Styled W env) := by
  refine ((fragment_composes style ht).bind fun _ t ht => h t ht).mono ?_
  rintro _ ⟨_, os, rfl, hos, rfl⟩
  obtain ⟨hcontent, hset⟩ := hL os hos
  exact ⟨[], W, [], [style], os, .empty, List.forall_mem_singleton.2 hstyle, hset, hcontent, rfl, rfl⟩

/-- An environment that something follows. -/
theorem opened_composes {env : String} (henv : env ∈ plainEnvironments) (options : String) {rest rest' : Typeset Unit}
    (hW : (if env = "figure" then [] else W) = W') (ht : t.setting = s)
    (h : ∀ t', t'.setting = s → Returns C rest rest' t' s ((Ending W env).andThen (Laying []))) :
    Returns C (do emit (Emit.beginEnv env options); rest) (do emit (Emit.beginEnv env options); rest') t s
      (Laying W') := by
  refine ((beginEnv_composes env options ht).bind fun _ t ht => h t ht).mono ?_
  rintro _ ⟨_, _, rfl, ⟨_, more, ⟨_, _, ⟨W₁, W₂, before, styles, content, hbefore, hstyles, hset, hcontent, rfl,
    rfl⟩, rfl, rfl⟩, hmore, rfl⟩, rfl⟩
  have henvironment := (Laying.environment henv options hbefore hstyles hset hcontent).append hmore
  rw [hW, List.append_nil] at henvironment
  simpa using henvironment

theorem Returns.ended {env : String} {a a' : Typeset Unit} (h : Returns C a a' t s (Ending W env)) :
    Returns C a a' t s ((Ending W env).andThen (Laying [])) :=
  h.mono fun os hos => ⟨os, [], hos, .empty, (List.append_nil os).symm⟩

theorem environment_composes {env : String} (henv : env ∈ plainEnvironments) (options : String)
    {content content' : Typeset Unit} (hW : (if env = "figure" then [] else W) = W') (ht : t.setting = s)
    (h : ∀ t', t'.setting = s → Returns C content content' t' s (Laying W)) :
    Returns C (do emit (Emit.beginEnv env options); content; emit (Emit.endEnv env))
      (do emit (Emit.beginEnv env options); content'; emit (Emit.endEnv env)) t s (Laying W') :=
  opened_composes henv options hW ht fun t ht => (ending_composes env (h t ht)).ended

/-- An environment that ends one level deeper in lists. -/
theorem endingInList_composes {env : String} {content content' : Typeset Unit} {restore : Typesetter → Typesetter}
    {G : Frame → Frame} {s' : Setting} (hr : Reframing restore G) (ht : t.setting = s') (hs : s'.reframed G = s)
    (h : ∀ t', t'.setting = s'.reframed (Frame.deeper 1) →
      Returns C content content' t' (s'.reframed (Frame.deeper 1)) (Ending W env)) :
    Returns C (inList content restore) (inList content' restore) t s ((Ending W env).andThen (Laying [])) := by
  have hback : ∀ x, x = s'.frame.deeper 1 → G (x.deeper (-1)) = s.frame := by
    rintro x rfl
    rw [← hs, s'.frame.deeper_back 1]
    rfl
  refine (Composes.inList (F := (· = s'.frame.deeper 1)) hr ht h ?_ hback).mono ?_
  · rw [← hs]
    exact congrArg (fun x => { s' with frame := G x }) (s'.frame.deeper_back 1)
  · rintro _ ⟨_, _, rfl, ⟨_, _, ⟨os, _, hos, rfl, rfl⟩, rfl, rfl⟩, rfl⟩
    exact ⟨_, _, ⟨_, _, hos.after (.step (o := .deepenList 1) rfl), rfl, rfl⟩, .step (o := .deepenList (-1)) rfl, by simp⟩

theorem blockEnvironment_mem (name : String) : blockEnvironment name ∈ plainEnvironments := by
  unfold blockEnvironment
  split <;> decide

theorem blockEnvironment_ne (name : String) : blockEnvironment name ≠ "figure" := by
  unfold blockEnvironment
  split <;> decide

theorem visitEnvironment_composes (h : ComposesAll C visit visit') (ht : t.setting = s) (hs : s.Settled)
    (p : Place) :
    Returns C (visitEnvironment visit p) (visitEnvironment visit' p) t s (Laying (s.texts p.element.children)) :=
  environment_composes (blockEnvironment_mem _) "" (if_neg (blockEnvironment_ne _)) ht fun _ ht =>
    visitChildren_composes h ht hs p

/-! ### Lists -/

theorem mark_composes (reference? : Option (Nat × String)) (ht : t.setting = s) :
    Returns C (mark (itemMark reference?)) (mark (itemMark reference?)) t s
      (.only [.record (.raw (itemMark reference?)), .dirBreak, .resetLine]) :=
  (fragment_composes _ ht).only_bind fun _ _ ht => (dirBreak_composes ht).only_bind fun _ _ ht => resetLine_composes ht

theorem emptyItem_composes (ht : t.setting = s) : Returns C emptyItem emptyItem t s (Laying []) :=
  (mark_composes none ht).mono fun _ hos => hos ▸ .item none

/-- The list around a place, put back. -/
theorem reframing_list (saved : ListContext) :
    Reframing (fun t => { t with list := saved }) (Frame.within saved.kind?) :=
  ⟨fun _ => rfl, fun _ => rfl⟩

theorem visitList_composes (h : ComposesAll C visit visit') (ht : t.setting = s) (hs : s.Settled) (p : Place) :
    Returns C (visitList visit p) (visitList visit' p) t s (Laying (s.texts p.element.children)) := by
  unfold visitList
  split
  · rename_i hempty
    rw [Setting.texts, allTextsOf_of_empty hempty]
    exact .nothing (.of_pure ()) ht
  · rename_i first _
    refine opened_composes (blockEnvironment_mem _) "" (if_neg (blockEnvironment_ne _)) ht fun t ht => Composes.get_bind ?_
    subst ht
    have hitems : ∀ (kind : ListKind) (t' : Typesetter),
        t'.setting = (t.setting.reframed (Frame.within kind)).reframed (Frame.deeper 1) → Returns C
          (do visitChildren visit p; emit (Emit.endEnv (blockEnvironment p.element.name)))
          (do visitChildren visit' p; emit (Emit.endEnv (blockEnvironment p.element.name))) t'
          ((t.setting.reframed (Frame.within kind)).reframed (Frame.deeper 1))
          (Ending (t.setting.texts p.element.children) (blockEnvironment p.element.name)) :=
      fun kind t' ht' => ending_composes _ (visitChildren_composes h ht' (fun hout => hs hout) p)
    refine Composes.modify_bind (G := Frame.within _) ⟨fun _ => rfl, fun _ => rfl⟩ rfl fun t₁ ht₁ _ => ?_
    refine endingInList_composes (reframing_list t.list) ht₁ rfl fun t' ht' => ?_
    split
    · exact hitems _ t' ht'
    · exact Returns.beforeEnding (emptyItem_composes ht') fun _ t' ht' => hitems _ t' ht'

theorem visitListItem_composes (h : ComposesAll C visit visit') (ht : t.setting = s) (hs : s.Settled) (p : Place) :
    Returns C (visitListItem visit p) (visitListItem visit' p) t s (Laying (s.texts p.element.children)) := by
  have hitem : Returns C (do emit Emit.envBreak; emptyItem; visitChildren visit p)
      (do emit Emit.envBreak; emptyItem; visitChildren visit' p) t s (Laying (s.texts p.element.children)) :=
    (envBreak_composes ht).before fun _ t ht => (emptyItem_composes ht).before fun _ t ht =>
      visitChildren_composes h ht hs p
  refine Composes.get_bind ?_
  split
  · exact hitem
  · exact hitem
  · exact visitParagraph_composes h ht hs p

/-! ### Formulas -/

/-- An accepted formula is a group. -/
theorem output_isContent {source : List Char} {a : Formula.Accepted} (h : Formula.check source = .ok a) :
    ∃ s, String.ofList a.output = "\x7b" ++ s ++ "\x7d" := by
  obtain ⟨-, -, nodes, -, -, rfl⟩ := Formula.check_ok h
  exact ⟨String.ofList (Formula.standardize (Text.trim source)), String.toList_inj.1 (by simp)⟩

/-- The formula of a group raises and lowers no number. -/
theorem formula_wording (inner : String) : numberWording ("$" ++ ("\x7b" ++ inner ++ "\x7d") ++ "$") = [] := by
  unfold numberWording
  split
  · rename_i sign rest heq
    obtain ⟨rfl, -⟩ : '\x7b' = sign ∧ inner.toList ++ ['\x7d', '$'] = '\x7b' :: rest := by simpa using heq
    rfl
  · rfl

theorem setFormula_composes (display : Bool) {output : String} (h : ∃ s, output = "\x7b" ++ s ++ "\x7d")
    (ht : t.setting = s) : Returns C (setFormula display output) (setFormula display output) t s (Laying []) := by
  obtain ⟨inner, rfl⟩ := h
  unfold setFormula
  split
  · refine environment_composes (by decide) "" (if_neg (by decide)) ht fun t ht => ?_
    have hcontent := content_composes (C := C) (.inr (.inl ⟨inner, rfl⟩)) ht
    rwa [show numberWording ("\x7b" ++ inner ++ "\x7d") = [] by simp [numberWording]] at hcontent
  · refine Returns.before ?_ fun _ t ht => envBreak_composes ht
    have hcontent := content_composes (C := C) (.inl ⟨"\x7b" ++ inner ++ "\x7d", rfl⟩) ht
    rwa [formula_wording] at hcontent

theorem visitMath_composes (display : Bool) (e : Element) (ht : t.setting = s) :
    Returns C (visitMath display e) (visitMath display e) t s (Laying []) := by
  unfold visitMath
  refine Returns.before (envBreak_composes ht) fun _ t ht => ?_
  rcases e.metadata "data-mw" with ⟨data?, log⟩
  refine Returns.before (.nothing (.note log) ht) fun _ t ht => ?_
  split
  · exact .nothing (.say _ _) ht
  · split
    · exact .nothing (.of_throw fun _ => nofun) ht
    · exact .nothing (.say _ _) ht
    · refine Composes.get_bind ?_
      split
      · exact setFormula_composes _ (output_isContent ‹_›) ht
      · exact Returns.nothing (.say _ _) ht

/-! ### Terms and definitions -/

theorem definitionEnvironment_mem (o : ArticleOptions) (terms : Bool) :
    definitionEnvironment o terms ∈ plainEnvironments := by
  unfold definitionEnvironment
  split
  · decide
  · split <;> decide

theorem definitionEnvironment_ne (o : ArticleOptions) (terms : Bool) : definitionEnvironment o terms ≠ "figure" := by
  unfold definitionEnvironment
  split
  · decide
  · split <;> decide

theorem forM_composes {α : Type} {f : α → Typeset Unit}
    (hf : ∀ x t, t.setting = s → Returns C (f x) (f x) t s (Laying [])) (xs : List α) (ht : t.setting = s) :
    Returns C (xs.forM f) (xs.forM f) t s (Laying []) := by
  induction xs generalizing t with
  | nil => exact .nothing (.of_pure ()) ht
  | cons x xs ih => exact Returns.before (hf x t ht) fun _ t ht => ih ht

theorem elements_of_children (p : Place) : p.children.map (·.element) = p.element.elementChildren := by
  have hgo : ∀ before ns, (Place.children.go p before ns).map (·.element) = ns.filterMap (·.element?) := by
    intro before ns
    induction ns generalizing before with
    | nil => rfl
    | cons n ns ih =>
      cases n with
      | element name attributes children => exact congrArg (Element.mk name attributes children :: ·) (ih _)
      | text kind x => exact ih _
  exact hgo [] p.element.children

theorem soleFormula?_isSome (p : Place) : (soleFormula? p).isSome = isFormulaItem p.element := by
  unfold soleFormula? isFormulaItem
  rw [← elements_of_children]
  rcases p.children with _ | ⟨q, _ | ⟨_, _⟩⟩
  · rfl
  · by_cases hmath : q.element.attr? "typeof" = some "mw:Extension/math" <;> simp [hmath]
  · rfl

/-- A list with formulas for its items is typeset as these formulas. -/
theorem indentedFormulas?_isSome (p : Place) :
    (if hasTerm p.element then none else indentedFormulas? p).isSome = isFormulaList p.element := by
  have hmap : ∀ ps : List Place, (ps.mapM soleFormula?).isSome = (ps.map (·.element)).all isFormulaItem := by
    intro ps
    induction ps with
    | nil => rfl
    | cons q qs ih =>
      rw [List.map_cons, List.all_cons, ← ih, ← soleFormula?_isSome, List.mapM_cons]
      cases soleFormula? q <;> cases qs.mapM soleFormula? <;> rfl
  unfold isFormulaList indentedFormulas?
  rw [← elements_of_children]
  cases hasTerm p.element with
  | true => rfl
  | false =>
    cases hempty : p.children.isEmpty with
    | true => simp [hempty]
    | false => simp [hempty, hmap]

/-- What a list has shown so far is no part of the setting. -/
theorem sawTerm_silent (sawTerm : Bool) :
    Silent (modify fun t : Typesetter => { t with list := { t.list with sawTerm } }) :=
  .of_modify fun _ => ⟨rfl, rfl⟩

/-- The texts of a list of terms and definitions: there are none if it is typeset as formulas. -/
def descriptionTexts (s : Setting) (e : Element) : List (List Char) :=
  if isFormulaList e then [] else s.texts e.children

theorem visitDescriptionList_composes (h : ComposesAll C visit visit') (ht : t.setting = s) (hs : s.Settled)
    (p : Place) :
    Returns C (visitDescriptionList visit p) (visitDescriptionList visit' p) t s
      (Laying (descriptionTexts s p.element)) := by
  have hformulas := indentedFormulas?_isSome p
  unfold visitDescriptionList descriptionTexts
  split
  · rename_i hempty
    rw [Setting.texts, allTextsOf_of_empty hempty, ite_self]
    exact .nothing (.of_pure ()) ht
  · rename_i first _
    dsimp only
    split
    · rename_i formulas hsome
      rw [hsome] at hformulas
      have hlist : isFormulaList p.element = true := hformulas.symm
      rw [if_pos hlist]
      exact forM_composes (fun q t ht => visitMath_composes true q.element ht) formulas ht
    · rename_i hnone
      rw [hnone] at hformulas
      have hlist : ¬ isFormulaList p.element = true := by
        rw [← hformulas]
        exact Bool.false_ne_true
      rw [if_neg hlist]
      refine Composes.get_bind ?_
      subst ht
      refine Composes.modify_bind (G := Frame.within _) ⟨fun _ => rfl, fun _ => rfl⟩ rfl fun t₁ ht₁ _ => Composes.get_bind ?_
      have hcontent : ∀ (env : String) (empty : Bool) {s' : Setting} (t' : Typesetter), t'.setting = s' →
          s'.Settled → s'.texts p.element.children = t.setting.texts p.element.children → Returns C (do
          if empty then
            emptyItem
            modify fun t => { t with list := { t.list with sawTerm := true } }
          visitChildren visit p
          emit (Emit.endEnv env)) (do
          if empty then
            emptyItem
            modify fun t => { t with list := { t.list with sawTerm := true } }
          visitChildren visit' p
          emit (Emit.endEnv env)) t' s' (Ending (t.setting.texts p.element.children) env) := by
        intro env empty s' t' ht' hs' htexts
        rw [← htexts]
        split
        · refine Returns.beforeEnding (emptyItem_composes ht') fun _ t' ht' => ?_
          refine Returns.beforeEnding (.nothing (sawTerm_silent true) ht') fun _ t' ht' => ?_
          exact ending_composes env (visitChildren_composes h ht' hs' p)
        · exact ending_composes env (visitChildren_composes h ht' hs' p)
      let kind := if hasTerm p.element then ListKind.terms else .indent
      refine Composes.finishing_silent (r := t.setting.reframed (Frame.within kind)) (F := (· = t.frame.within kind)) ?_
        (reframing_list t.list) rfl fun x hx => hx ▸ rfl
      refine opened_composes (definitionEnvironment_mem _ _) "" (if_neg (definitionEnvironment_ne _ _)) ht₁
        fun t' ht' => ?_
      split
      · refine endingInList_composes (G := id) ⟨fun _ => rfl, fun _ => rfl⟩ ht' rfl fun t' ht' => ?_
        exact hcontent _ _ t' ht' (fun hout => hs hout) rfl
      · exact (hcontent _ _ t' ht' (fun hout => hs hout) rfl).ended

/-- The text of a term from a fresh start, and what comes after it. -/
theorem freshText_composes (h : ComposesAll C visit visit') (ht : t.setting = s) (hs : s.Settled) (p : Place)
    {rest : Typeset Unit} {L : Programs} (hrest : ∀ t, t.setting = s → Returns C rest rest t s L) :
    Returns C (do
      emit Emit.dirBreak
      emit Emit.resetLine
      visitChildren visit p
      emit Emit.dirBreak
      rest) (do
      emit Emit.dirBreak
      emit Emit.resetLine
      visitChildren visit' p
      emit Emit.dirBreak
      rest) t s
      (fun os => ∃ content after, Laying (s.texts p.element.children) content ∧ L after ∧
        os = .dirBreak :: .resetLine :: content ++ [.dirBreak] ++ after) := by
  refine ((dirBreak_composes ht).bind fun _ t ht => (resetLine_composes ht).bind fun _ t ht =>
    (visitChildren_composes h ht hs p).bind fun _ t ht => (dirBreak_composes ht).bind fun _ t ht => hrest t ht).mono ?_
  rintro _ ⟨_, _, rfl, ⟨_, _, rfl, ⟨content, _, hcontent, ⟨_, after, rfl, hafter, rfl⟩, rfl⟩, rfl⟩, rfl⟩
  exact ⟨content, after, hcontent, hafter, by simp⟩

theorem visitTerm_composes (h : ComposesAll C visit visit') (ht : t.setting = s) (hs : s.Settled) (p : Place) :
    Returns C (visitTerm visit p) (visitTerm visit' p) t s (Laying (s.texts p.element.children)) := by
  refine Composes.get_bind ?_
  split
  · exact visitParagraph_composes h ht hs p
  · have hlast : ∀ t : Typesetter, t.setting = s → Returns C (do
        fragment "]"
        emit Emit.dirBreak
        modify fun t => { t with list := { t.list with sawTerm := true } }) (do
        fragment "]"
        emit Emit.dirBreak
        modify fun t => { t with list := { t.list with sawTerm := true } }) t s
        (.only [.record (.raw "]"), .dirBreak]) := fun t ht =>
      (fragment_composes "]" ht).only_bind fun _ t ht => (dirBreak_composes ht).only_bind fun _ t ht =>
        .of_silent (sawTerm_silent true) ht
    refine Returns.before (.nothing (sawTerm_silent false) ht) fun _ t ht => ?_
    refine Returns.before (envBreak_composes ht) fun _ t ht => ?_
    split
    · have hclosing : ∀ t : Typesetter, t.setting = s → Returns C (do
          fragment "\x7d"
          fragment "]"
          emit Emit.dirBreak
          modify fun t => { t with list := { t.list with sawTerm := true } }) (do
          fragment "\x7d"
          fragment "]"
          emit Emit.dirBreak
          modify fun t => { t with list := { t.list with sawTerm := true } }) t s
          (.only [.record (.raw "\x7d"), .record (.raw "]"), .dirBreak]) := fun t ht =>
        (fragment_composes "\x7d" ht).only_bind fun _ t ht => hlast t ht
      refine ((fragment_composes _ ht).bind fun _ t ht => (fragment_composes _ ht).bind fun _ t ht =>
        freshText_composes h ht hs p hclosing).mono ?_
      rintro _ ⟨_, _, rfl, ⟨_, _, rfl, ⟨content, _, hcontent, rfl, rfl⟩, rfl⟩, rfl⟩
      simpa [termText, labelOpening, boxOpening] using Laying.term true hcontent
    · refine ((fragment_composes _ ht).bind fun _ t ht => freshText_composes h ht hs p hlast).mono ?_
      rintro _ ⟨_, _, rfl, ⟨content, _, hcontent, rfl, rfl⟩, rfl⟩
      simpa [termText, labelOpening] using Laying.term false hcontent

theorem visitDefinition_composes (h : ComposesAll C visit visit') (ht : t.setting = s) (hs : s.Settled) (p : Place) :
    Returns C (visitDefinition visit p) (visitDefinition visit' p) t s (Laying (s.texts p.element.children)) := by
  refine Composes.get_bind ?_
  split
  · exact visitParagraph_composes h ht hs p
  · split
    · exact visitChildren_composes h ht hs p
    · split
      · exact visitChildren_composes h ht hs p
      · refine Returns.before (envBreak_composes ht) fun _ t ht => ?_
        exact Returns.before (emptyItem_composes ht) fun _ t ht => visitChildren_composes h ht hs p

/-! ### Reference lists -/

/-- References, if there are any, begin with a break and an item. -/
theorem visitReferencesFrom_composes (h : ComposesAll C visit visit') (hs : s.Settled) (number : Nat)
    (ps : List Place) (ht : t.setting = s) :
    Returns C (visitReferencesFrom visit number ps) (visitReferencesFrom visit' number ps) t s
      (fun os => Laying (ps.flatMap fun q => s.texts q.element.children) os ∧
        (ps ≠ [] → ∃ reference? rest, os = .envBreak :: .record (.raw (itemMark reference?)) :: rest)) := by
  induction ps generalizing number t with
  | nil => exact (Returns.nothing (.of_pure ()) ht).mono fun os hos => ⟨hos, fun hne => absurd rfl hne⟩
  | cons p ps ih =>
    let reference? := some (number, p.element.attr "id")
    have hmore : ∀ t : Typesetter, t.setting = s → Returns C
        (do visitChildren visit p; visitReferencesFrom visit (number + 1) ps)
        (do visitChildren visit' p; visitReferencesFrom visit' (number + 1) ps) t s
        (Laying ((p :: ps).flatMap fun q => s.texts q.element.children)) := fun t ht =>
      (visitChildren_composes h ht hs p).andThen fun _ t ht => (ih (number + 1) ht).mono fun _ hos => hos.1
    refine ((Composes.emit (o := .envBreak) rfl rfl (fun m => (robust_mode m).keeps_envBreak) ht).bind fun _ t ht =>
      (mark_composes reference? ht).bind fun _ t ht => hmore t ht).mono ?_
    rintro _ ⟨_, _, rfl, ⟨_, os, rfl, hos, rfl⟩, rfl⟩
    have hall := (Laying.step (o := .envBreak) rfl).append ((Laying.item reference?).append hos)
    exact ⟨hall, fun _ => ⟨reference?, _, rfl⟩⟩

theorem itemTexts_of_children (p : Place) :
    p.children.flatMap (fun q => s.texts q.element.children) = itemTextsOf s.options false s.headed p.element.children := by
  have hgo : ∀ before ns, (Place.children.go p before ns).flatMap (fun q => s.texts q.element.children) =
      itemTextsOf s.options false s.headed ns := by
    intro before ns
    induction ns generalizing before with
    | nil => rfl
    | cons n ns ih =>
      cases n with
      | element name attributes children =>
        exact congrArg (allTextsOf s.options false s.headed children ++ ·) (ih _)
      | text kind x => exact ih _
  exact hgo [] p.element.children

theorem visitReferences_composes (h : ComposesAll C visit visit') (ht : t.setting = s) (hs : s.Settled) (p : Place) :
    Returns C (visitReferences visit p) (visitReferences visit' p) t s
      (Laying (itemTextsOf s.options false s.headed p.element.children)) := by
  rw [← itemTexts_of_children]
  unfold visitReferences
  dsimp only
  split
  · rename_i hempty
    rw [List.isEmpty_iff.1 hempty]
    exact .nothing (.of_pure ()) ht
  · rename_i hsome
    have hne : p.children ≠ [] := fun hnil => hsome (by rw [hnil]; rfl)
    refine opened_composes (by decide) "" (if_neg (by decide)) ht fun t ht =>
      endingInList_composes (G := id) ⟨fun _ => rfl, fun _ => rfl⟩ ht rfl fun t ht => ?_
    have hstyled : ∀ t : Typesetter, t.setting = s.reframed (Frame.deeper 1) → Returns C
        (do fragment "\\small\n"; visitReferencesFrom visit 1 p.children)
        (do fragment "\\small\n"; visitReferencesFrom visit' 1 p.children) t (s.reframed (Frame.deeper 1))
        (Styled (p.children.flatMap fun q => s.texts q.element.children) "enumerate") := fun t ht =>
      styled_composes (by decide) (fun _ hos => ⟨hos.1, fun _ _ => ⟨rfl, hos.2 hne⟩⟩) ht fun t ht =>
        visitReferencesFrom_composes h (s := s.reframed (Frame.deeper 1)) (fun hout => hs hout) 1 p.children ht
    have hended : Returns C ((do fragment "\\small\n"; visitReferencesFrom visit 1 p.children) >>=
        fun _ => emit (Emit.endEnv "enumerate")) ((do fragment "\\small\n"; visitReferencesFrom visit' 1 p.children) >>=
        fun _ => emit (Emit.endEnv "enumerate")) t (s.reframed (Frame.deeper 1))
        (Ending (p.children.flatMap fun q => s.texts q.element.children) "enumerate") :=
      (hstyled t ht).bind fun _ t ht => endEnv_composes "enumerate" ht
    rwa [bind_assoc, bind_assoc] at hended

/-! ### Figures -/

theorem visitCaption_composes (h : ComposesAll C visit visit') (ht : t.setting = s) (hs : s.Settled)
    (caption : Place) :
    Returns C (visitCaption visit caption) (visitCaption visit' caption) t s
      (Styled (s.texts caption.element.children) "figure") := by
  have hstyle : "\\small\\itshape\n" ∈ styleFragments := by decide
  refine Composes.get_bind (Composes.lookup_bind ht rfl fun t' ht' h' => ?_)
  dsimp only
  split
  · refine Composes.mono (L := Laying (s.texts caption.element.children)) ?_ fun _ hos => hos.styled "figure"
    refine switched_composes _ (List.forall_mem_singleton.2 hstyle) ht' (by rw [h']) (fun t ht => fragment_composes _ ht)
      (fun t ht => visitChildren_composes h ht hs caption) fun t ht => ?_
    refine (assume_composes _ ht).mono ?_
    rintro _ rfl
    exact ⟨_, [], rfl, .empty, rfl⟩
  · have hplain : "figure" ∉ listEnvironments := by decide
    refine styled_composes (L := Laying _) hstyle (fun _ hos => ⟨hos, fun hlist => absurd hlist hplain⟩) ht' fun t ht => ?_
    exact (visitChildren_composes h ht hs caption).after fun _ t ht => .nothing (.of_pure ()) ht

theorem setFigure_composes (h : ComposesAll C visit visit') (hs : s.Settled) (filename : String)
    (caption? : Option Place) (ht : t.setting = s) :
    Returns C (setFigure visit filename caption?) (setFigure visit' filename caption?) t s (Laying []) := by
  have himage : IsContent ("\\includegraphics[width=0.95\\columnwidth]\x7b" ++
      String.ofList (escapeFileName filename.toList) ++ "\x7d") := .inr (.inr ⟨_, rfl⟩)
  have hcenter := fun t (ht : Typesetter.setting t = s) =>
    environment_composes (show "center" ∈ plainEnvironments by decide) "" (if_neg (by decide)) ht fun t ht =>
      content_composes (C := C) himage ht
  cases caption? with
  | none =>
    have hrest := fun t (ht : Typesetter.setting t = s) =>
      (hcenter t ht).beforeEnding fun _ t ht => ending_of_endEnv "figure" ht
    simp only [bind_assoc] at hrest
    exact opened_composes (by decide) "tbh!" (if_pos rfl) ht fun t ht => (hrest t ht).ended
  | some caption =>
    have hrest := fun t (ht : Typesetter.setting t = s) => (hcenter t ht).beforeEnding fun _ t ht =>
      (visitCaption_composes h ht hs caption).bind fun _ t ht => endEnv_composes "figure" ht
    simp only [bind_assoc] at hrest
    exact opened_composes (by decide) "tbh!" (if_pos rfl) ht fun t ht => (hrest t ht).ended

/-- Asking for a page fails for one cause only. -/
theorem pageAsked_error {data? : Option Json} {c : ArticleError} (h : pageAsked data? = .error c) :
    c = .badImageOptions := by
  unfold pageAsked at h
  repeat' split at h
  all_goals first | (cases h; rfl) | cases h

theorem pageAsked_isOutside {data? : Option Json} {c : ArticleError} (h : pageAsked data? = .error c) : c.IsOutside := by
  rw [pageAsked_error h]
  exact fun _ => nofun

theorem pageFile_silent (e : Element) (filename : String) : Silent (pageFile e filename) := by
  have hsome : ∀ (page : String) (files : List String), Silent (do
      if page ≠ "1" && !Files.pathExists files (Files.joinPath filename (page ++ ".pdf")) then
        say .info ("Page " ++ page ++ " of " ++ filename ++ " not found, using page 1")
        return Files.joinPath filename "1.pdf"
      else return Files.joinPath filename (page ++ ".pdf")) := by
    intro page files
    split
    · exact (Silent.say _ _).bind fun _ => .of_pure _
    · exact .of_pure _
  unfold pageFile
  rcases e.metadata "data-parsoid" with ⟨data?, log⟩
  refine (Silent.note log).bind fun _ => ?_
  dsimp only
  cases hpage : pageAsked data? with
  | ok page =>
    refine (Silent.of_pure _).bind fun page => Silent.of_get.bind fun t => ?_
    cases t.options.imageFiles? with
    | none => exact .of_pure _
    | some files => exact hsome page files
  | error cause =>
    refine (Silent.of_throw (pageAsked_isOutside hpage)).bind fun page => Silent.of_get.bind fun t => ?_
    cases t.options.imageFiles? with
    | none => exact .of_pure _
    | some files => exact hsome page files

theorem visitFigure_composes (h : ComposesAll C visit visit') (ht : t.setting = s) (hs : s.Settled) (p : Place)
    (otherCaption? : Option Place) :
    Returns C (visitFigure visit p otherCaption?) (visitFigure visit' p otherCaption?) t s (Laying []) := by
  unfold visitFigure
  split
  · exact .nothing (.of_pure ()) ht
  · refine Composes.get_bind (Composes.silent_bind (resolved_silent _ _) ht rfl fun resource t' _ ht' _ => ?_)
    dsimp only
    split
    · exact Returns.nothing (.say _ _) ht'
    · split
      · exact Returns.nothing (.say _ _) ht'
      · split
        · exact Returns.nothing (.say _ _) ht'
        · rename_i hfloat
          have hset : ∀ filename caption? (t' : Typesetter), t'.setting = s → Returns C (do
              modify fun t => { t with inFloat := true }
              Action.finishing (setFigure visit filename caption?) (modify fun t => { t with inFloat := false })) (do
              modify fun t => { t with inFloat := true }
              Action.finishing (setFigure visit' filename caption?) (modify fun t => { t with inFloat := false })) t' s
              (Laying []) := by
            intro filename caption? t' ht'
            have hout : s.frame.inFloat = false := by
              rw [← ht]
              exact Bool.eq_false_iff.2 hfloat
            let land (x : Frame) : Frame := { x with inFloat := false }
            have hland : land s.frame.floating = s.frame := by
              show ({ s.frame with inFloat := false } : Frame) = s.frame
              rw [← hout]
            refine Composes.modify_bind (G := Frame.floating) ⟨fun _ => rfl, fun _ => rfl⟩ ht' fun t' ht' _ => ?_
            refine Composes.finishing_silent (setFigure_composes (s := s.reframed Frame.floating) h (fun hshown => hs hshown) filename caption? ht')
              (G := land) ⟨fun _ => rfl, fun _ => rfl⟩ ?_ fun x hx => ?_
            · exact congrArg (fun x => { s with frame := x }) hland
            · rw [hx]
              exact hland
          split
          · exact Composes.silent_bind (pageFile_silent _ _) ht' rfl fun filename t' _ ht' _ => hset _ _ t' ht'
          · exact Composes.silent_bind (Silent.of_pure _) ht' rfl fun filename t' _ ht' _ => hset _ _ t' ht'

theorem visitImage_composes (h : ComposesAll C visit visit') (ht : t.setting = s) (hs : s.Settled) (p : Place) :
    Returns C (visitImage visit p) (visitImage visit' p) t s (Laying []) := by
  unfold visitImage
  split
  · exact .nothing (.of_pure ()) ht
  · split
    · exact .nothing (.say _ _) ht
    · exact visitFigure_composes h ht hs p none

theorem visitFigures_composes (h : ComposesAll C visit visit') (ht : t.setting = s) (hs : s.Settled)
    (images captions : List Place) :
    Returns C (visitFigures visit images captions) (visitFigures visit' images captions) t s (Laying []) := by
  induction images generalizing captions t with
  | nil => exact .nothing (.of_pure ()) ht
  | cons image images ih =>
    cases captions with
    | nil => exact Returns.before (visitFigure_composes h ht hs image none) fun _ t ht => ih ht []
    | cons caption captions =>
      exact Returns.before (visitFigure_composes h ht hs image (some caption)) fun _ t ht => ih ht captions

theorem visitMultipleImage_composes (h : ComposesAll C visit visit') (ht : t.setting = s) (hs : s.Settled)
    (p : Place) :
    Returns C (visitMultipleImage visit p) (visitMultipleImage visit' p) t s (Laying []) := by
  refine Composes.silent_bind (Silent.of_modify fun _ => ⟨rfl, rfl⟩) ht rfl fun _ t _ ht _ => ?_
  dsimp only
  split
  · exact Returns.nothing (.of_throw fun _ => nofun) ht
  · exact visitFigures_composes h ht hs _ _

theorem visitTable_silent (p : Place) : Silent (visitTable p) := by
  refine Silent.of_get.bind fun t => ?_
  dsimp only
  split
  · exact .of_pure ()
  · exact .say _ _

/-! ### Walks -/

theorem visitAs_composes (h : ComposesAll C visit visit') (ht : t.setting = s) (hs : s.Settled) (p : Place)
    {role : Role} (hrole : role = .language ∨ role = .direction ∨ role = ownRole p.element) :
    Returns C (visitAs visit role p) (visitAs visit' role p) t s (Laying (s.textsIn (.element p))) := by
  rcases hrole with rfl | rfl | hrole
  · exact visitLanguage_composes h ht hs p
  · exact visitDirection_composes h ht hs p
  · have htexts := textsOf_toNode s.options false s.headed p.element
    rw [← hrole] at htexts
    rw [Setting.textsIn, htexts]
    cases role with
    | hidden => exact Returns.nothing (.of_pure ()) ht
    | backLink => exact Returns.nothing (.of_pure ()) ht
    | language => exact htexts ▸ visitLanguage_composes h ht hs p
    | direction => exact htexts ▸ visitDirection_composes h ht hs p
    | image => exact visitImage_composes h ht hs p
    | math => exact visitMath_composes false p.element ht
    | references => exact visitReferences_composes h ht hs p
    | multipleImage => exact visitMultipleImage_composes h ht hs p
    | citation => exact visitScript_composes h ht hs "sup" p
    | anchor => exact visitAnchor_composes h ht hs p
    | paragraph => exact visitParagraph_composes h ht hs p
    | heading => exact visitHeading_composes h ht hs p
    | inline => exact visitInline_composes h ht hs _ p
    | script => exact visitScript_composes h ht hs _ p
    | lineBreak => exact lineBreak_composes ht
    | wordBreak => exact write_composes ['\u200B'] ht
    | environment => exact visitEnvironment_composes h ht hs p
    | list => exact visitList_composes h ht hs p
    | descriptionList =>
      simp only [Bool.not_false, Bool.and_true]
      exact visitDescriptionList_composes h ht hs p
    | term => exact visitTerm_composes h ht hs p
    | definition => exact visitDefinition_composes h ht hs p
    | listItem => exact visitListItem_composes h ht hs p
    | table => exact Returns.nothing (visitTable_silent p) ht
    | figure => exact visitFigure_composes h ht hs p none
    | div => exact visitDiv_composes h ht hs p
    | children => exact visitChildren_composes h ht hs p

/-- One level of a walk, with a way of typesetting what is below. -/
def visitBy (visit : Visit) : Visit
  | .text kind x => if kind = .plain || kind = .literal then write x else pure ()
  | .element p => do
    let t ← get
    let (role, log) := roleOf t.language t.direction p.element
    note log
    visitAs visit role p

theorem visitFrom_succ (depth : Nat) : visitFrom (depth + 1) = visitBy (visitFrom depth) := by
  funext c
  cases c <;> rfl

/-- A level of a walk composes a program if what is below does. -/
theorem visitBy_composes (h : ComposesAll C visit visit') : ComposesAll C (visitBy visit) (visitBy visit') := by
  intro c t s ht hs
  cases c with
  | text kind x =>
    have hvoid : ∀ k, kind = k → (k = .plain ∨ k = .literal) → s.textsIn (.text kind x) = wordingOf (.write x) := by
      rintro k rfl (rfl | rfl)
      · rfl
      · rfl
    unfold visitBy
    cases kind with
    | plain => exact hvoid .plain rfl (.inl rfl) ▸ write_composes x ht
    | literal => exact hvoid .literal rfl (.inr rfl) ▸ write_composes x ht
    | comment => exact Returns.nothing (.of_pure ()) ht
    | embedded => exact Returns.nothing (.of_pure ()) ht
  | element p =>
    refine Composes.get_bind ?_
    have hrole := roleOf_own t.language t.direction p.element
    rcases hroleOf : roleOf t.language t.direction p.element with ⟨role, log⟩
    rw [hroleOf] at hrole
    exact Composes.silent_bind (Silent.note log) ht rfl fun _ t _ ht _ => visitAs_composes h ht hs p hrole

/-- A walk composes a program, however deep it goes, and a deeper one composes the same unless the bound of the first one
is too small. -/
theorem visitFrom_composes (depth more : Nat) (hmore : more = 0 ∨ C .exhausted) :
    ComposesAll C (visitFrom depth) (visitFrom (depth + more)) := by
  -- Each handler visits the contents with the bound of one level less.
  induction depth with
  | zero =>
    intro c t s ht _ stack hcoherent
    have hout : ArticleError.IsOutside .exhausted := fun _ => nofun
    refine ⟨Leaves.of_throw (.outside (frame_of_setting ht) hcoherent hout), ?_⟩
    rcases hmore with rfl | hexhausted
    · exact .refl _ t
    · exact .inr ⟨_, t, perform_throw _ t, hexhausted⟩
  | succ depth ih =>
    rw [Nat.succ_add, visitFrom_succ, visitFrom_succ]
    exact visitBy_composes ih

end WikiTypeset.Article
