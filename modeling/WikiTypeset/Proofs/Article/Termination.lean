import WikiTypeset.Proofs.Article.Handing
import WikiTypeset.Proofs.Article.Origins
import WikiTypeset.Proofs.Article.Visits

/-!
# Walks come to an end

What a visit reaches needs less depth than the visit itself: what an element contains is less high, a change of language or
of direction is made once, and only outside figures is a table entered that stands beside the element. So a walk that has
the depth that it needs is never cut short, and chains of visits are no longer than that. Main statement:
`visit_terminates`.
-/

namespace WikiTypeset.Article

open Action Html Latex Typeset

variable {k : Stock} {H : Nat} {p q : Place} {f g : Frame} {c c' : Content}

/-! ### What is reached needs less depth -/

theorem Frame.Agrees.need_eq (h : f.Agrees g) (c : Content) : g.need H c = f.need H c := by
  cases c with
  | text kind s => rfl
  | element p =>
    show g.turns p.element + 3 * p.element.toNode.height + g.reserve H =
      f.turns p.element + 3 * p.element.toNode.height + f.reserve H
    rw [turns, turns, reserve, reserve, h.language, h.direction, h.inFloat]

theorem Frame.need_pos (f : Frame) (c : Content) : 0 < f.need H c := by
  cases c with
  | text kind s => exact Nat.one_pos
  | element p =>
    have hpos := Node.height_pos p.element.toNode
    show 0 < f.turns p.element + 3 * p.element.toNode.height + f.reserve H
    omega

/-- What stands around what stands around a place stands around the place. -/
theorem ancestors_subset {r : Place} (h : r ∈ p.ancestors) : r.ancestors ⊆ p.ancestors := by
  generalize hp : p.ancestors = ps at h ⊢
  induction ps generalizing p with
  | nil => cases h
  | cons q qs ih =>
    obtain ⟨e, before, _ | parent⟩ := p
    · cases hp
    · obtain ⟨rfl, hparent⟩ := List.cons.inj hp
      rcases List.mem_cons.1 h with rfl | h
      · exact hparent ▸ List.subset_cons_self _ _
      · exact List.subset_cons_of_subset _ (ih hparent h)

/-- What is known around a place is known around its parents. -/
theorem bears_ancestor (h : p.Bears k H) {r : Place} (hr : r ∈ p.ancestors) : r.Bears k H := fun q hq =>
  h q <| List.mem_cons_of_mem _ <| (List.mem_cons.1 hq).elim (fun heq => heq ▸ hr) fun hq => ancestors_subset hr hq

theorem bears_surrounding (h : p.Bears k H) (hq : q ∈ p.surroundings) : q.Bears k H := by
  obtain ⟨r, hr, hq⟩ := List.mem_flatMap.1 hq
  have hbears : r.Bears k H := by
    rcases List.mem_cons.1 hr with rfl | hr
    · exact h
    · exact bears_ancestor h hr
  rcases List.mem_cons.1 hq with rfl | hq
  · exact hbears
  · exact (hbears.descendant hq).1

theorem Reaches.need_lt (h : Reaches p f c g) (hp : p.Bears k H) (he : k.element p.element) :
    c.Within k H ∧ g.need H c < f.need H (.element p) := by
  have hneed : f.need H (.element p) = f.turns p.element + 3 * p.element.toNode.height + f.reserve H := rfl
  cases h with
  | @contents q _ _ hq hc hg =>
    have hle : q.Bears k H ∧ q.element.toNode.height ≤ p.element.toNode.height := by
      rcases hq with rfl | hq
      · exact ⟨hp, Nat.le_refl _⟩
      · have hparent := Place.isParent_of_mem_children hq
        exact ⟨(hp.child hparent).1, Nat.le_of_lt (Element.height_lt hparent.mem)⟩
    obtain ⟨hwithin, hlt⟩ := within_contents hle.1 f hc
    refine ⟨hwithin, ?_⟩
    rw [hg.need_eq]
    omega
  | language hchange hg =>
    have hturns := Frame.turns_language hchange
    refine ⟨⟨hp, he⟩, ?_⟩
    rw [hg.need_eq]
    show Frame.turns _ _ + 3 * p.element.toNode.height + f.reserve H < _
    omega
  | direction hchange hg =>
    have hturns := Frame.turns_direction hchange
    refine ⟨⟨hp, he⟩, ?_⟩
    rw [hg.need_eq]
    show Frame.turns _ _ + 3 * p.element.toNode.height + f.reserve H < _
    omega
  | @caption q _ _ hfloat hq hc hg =>
    have hbears := bears_surrounding hp hq
    obtain ⟨hwithin, hlt⟩ := within_contents hbears f.floating hc
    have hle := hbears.holds.height_le
    have hreserve : f.reserve H = 3 * H + 3 := by
      rw [Frame.reserve, hfloat]
      rfl
    have hinside : f.floating.reserve H = 0 := rfl
    refine ⟨hwithin, ?_⟩
    rw [hg.need_eq]
    omega

/-! ### The bound is never met -/

/-- A walk that does `v` where it comes to the bound of its depth. -/
def visitUpTo (v : Visit) : Nat → Visit
  | 0 => v
  | depth + 1 => visitBy (visitUpTo v depth)

/-- The walk is the one that gives up at its bound. -/
theorem visitFrom_eq (depth : Nat) : visitFrom depth = visitUpTo (fun _ => throw .exhausted) depth := by
  induction depth with
  | zero => rfl
  | succ depth ih => rw [visitFrom_succ, ih, visitUpTo]

/-- A walk that has the depth that it needs comes to the same whatever would be done at its bound, and is not cut short. -/
theorem visitFrom_settles (v : Visit) (depth : Nat) (o : Outlook) (c : Content) (hc : c.Within k H)
    (hdepth : o.frame.need H c ≤ depth) :
    Hands False o (handedFrom depth o.form c) (visitFrom depth c) (visitUpTo v depth c) := by
  induction depth generalizing o c with
  | zero => exact absurd hdepth (Nat.not_le.2 (o.frame.need_pos c))
  | succ depth ih =>
    rw [visitFrom_succ]
    refine visitBy_hands fun p hp c' q hreach => ?_
    subst hp
    obtain ⟨hwithin, hlt⟩ := hreach.need_lt hc.1 hc.2
    exact ih q c' hwithin (by omega)

/-! ### Chains of visits -/

/-- A visit in the course of another is one that the other reaches. -/
theorem Calls.reaches {depth : Nat} {t t' : Typesetter} (h : Calls (visitFrom depth) c t c' t') :
    ∃ p, c = .element p ∧ Reaches p t.outlook.frame c' t'.outlook.frame := by
  obtain ⟨visit', hagree, hdiffer⟩ := h
  by_contra hnot
  -- All that is reached is visited as before, so what comes of the visit is the same.
  have hall : Hands True t.outlook (handedBy (handedFrom depth) t.outlook.form c) (visitBy (visitFrom depth) c)
      (visitBy visit' c) := by
    refine visitBy_hands fun p hp d q hreach u hu => ?_
    obtain ⟨-, hleaves⟩ := visitFrom_hands depth q d u hu
    refine ⟨hagree d u ?_, hleaves⟩
    by_contra hsame
    obtain ⟨rfl, rfl⟩ : d = c' ∧ u = t' := by simpa using hsame
    exact hnot ⟨p, hp, by rw [hu]; exact hreach⟩
  exact hdiffer (hall t rfl).1

/-- A chain of visits, each in the course of the one before: from the visit of the first content in the first state, the
walk comes to the visit of the second content in the second state, by the number of visits between them. -/
inductive Nested (c : Content) (t : Typesetter) : Nat → Content → Typesetter → Prop
  | here : Nested c t 0 c t
  | inside {n depth : Nat} {c' c'' : Content} {t' t'' : Typesetter} (h : Nested c t n c' t')
    (hcalls : Calls (visitFrom depth) c' t' c'' t'') : Nested c t (n + 1) c'' t''

theorem Nested.need_le {n : Nat} {t t' : Typesetter} (h : Nested c t n c' t') (hc : c.Within k H) :
    c'.Within k H ∧ t'.outlook.frame.need H c' + n ≤ t.outlook.frame.need H c := by
  induction h with
  | here => exact ⟨hc, Nat.le_refl _⟩
  | inside _ hcalls ih =>
    obtain ⟨hwithin, hle⟩ := ih
    obtain ⟨p, rfl, hreach⟩ := hcalls.reaches
    obtain ⟨hwithin', hlt⟩ := hreach.need_lt hwithin.1 hwithin.2
    exact ⟨hwithin', by omega⟩

/-! ### The places of a tree -/

/-- A stock of all elements and characters. -/
def anything : Stock := ⟨fun _ => True, fun _ => True⟩

theorem bears_anything {root : Element} (hp : p = .root root ∨ p ∈ (Place.root root).descendants) :
    p.Bears anything root.toNode.height ∧ rootOf p = .root root := by
  have hroot : (Place.root root).Bears anything root.toNode.height :=
    bears_root ⟨Nat.le_refl _, fun _ _ => trivial, fun _ _ => trivial⟩
  rcases hp with rfl | hp
  · exact ⟨hroot, rootOf_root root⟩
  · obtain ⟨q, hq, hparent⟩ := Place.exists_parent
      (fun _ _ hq hparent => (rootOf_eq_of_isParent hparent).trans hq) (rootOf_root root) hp
    exact ⟨(hroot.descendant hp).1, (rootOf_eq_of_isParent hparent).trans hq⟩

/-- From every state, the visit of an element of a tree comes to an end, also if the attributes of the element have been
changed: it comes to the same whatever would be done at the bound of its depth, it does not fail for that bound, and the
chains of visits in its course are shorter. -/
theorem visit_terminates {root : Element} (hp : p = .root root ∨ p ∈ (Place.root root).descendants) {e : Element}
    (he : e.children = p.element.children) (t : Typesetter) :
    let q : Place := .mk e p.before p.parent?
    (∀ v : Visit, (visitUpTo v (depthBound q) (.element q)).perform t = (visit q).perform t) ∧
      (∀ t', (visit q).perform t ≠ (.error .exhausted, t')) ∧
      ∀ n c t', Nested (.element q) t n c t' → n < depthBound q := by
  obtain ⟨hbears, hroot⟩ := bears_anything hp
  obtain ⟨e', before, parent?⟩ := p
  intro q
  have hheight : (rootOf q).element.toNode.height = root.toNode.height :=
    (height_rootOf_exchange he before parent?).trans (congrArg (·.element.toNode.height) hroot)
  have hwithin : Content.Within anything root.toNode.height (.element q) := ⟨bears_exchange he hbears, trivial⟩
  have hneed : ∀ f : Frame, f.need root.toNode.height (.element q) + 3 ≤ depthBound q := by
    intro f
    have hturns := f.turns_le q.element
    have hle := hwithin.1.holds.height_le
    have hreserve : f.reserve root.toNode.height ≤ 3 * root.toNode.height + 3 := by
      unfold Frame.reserve
      split <;> omega
    show f.turns q.element + 3 * q.element.toNode.height + f.reserve root.toNode.height + 3 ≤
      6 * (rootOf q).element.toNode.height + 8
    rw [hheight]
    omega
  have hsettles : ∀ v, Hands False t.outlook _ (visitFrom (depthBound q) (.element q)) _ := fun v =>
    visitFrom_settles v (depthBound q) t.outlook (.element q) hwithin (Nat.le_of_add_right_le (hneed _))
  refine ⟨fun v => (hsettles v t rfl).1, fun t' hcut => ?_, fun n c t' hn => ?_⟩
  · exact (hsettles (visitFrom 0) t rfl).2.error hcut rfl
  · obtain ⟨-, hle⟩ := hn.need_le hwithin
    have hbound := hneed t.outlook.frame
    omega

/-- A paragraph in Hebrew is entered again for its language and for its direction, and the walk comes to an end. -/
theorem paragraphPlace_terminates : paragraphPlace ∈ (Place.root paragraphDocument).descendants ∧
    (∀ v : Visit, (visitUpTo v (depthBound paragraphPlace) (.element paragraphPlace)).perform
      (start {} (.known .ltr) []) = (visit paragraphPlace).perform (start {} (.known .ltr) [])) ∧
    (∀ t', (visit paragraphPlace).perform (start {} (.known .ltr) []) ≠ (.error .exhausted, t')) ∧
    ∀ n c t', Nested (.element paragraphPlace) (start {} (.known .ltr) []) n c t' → n < depthBound paragraphPlace := by
  have hplaces : (Place.root paragraphDocument).descendants = [bodyPlace paragraphDocument, paragraphPlace] := by rfl
  have hmem : paragraphPlace ∈ (Place.root paragraphDocument).descendants := by
    rw [hplaces]
    exact List.mem_cons_of_mem _ (List.mem_singleton_self _)
  exact ⟨hmem, visit_terminates (.inr hmem) (e := paragraphPlace.element) rfl _⟩

end WikiTypeset.Article
