import WikiTypeset.Proofs.Article.Documents

/-!
# Visits leave the typesetter as they find it

A typesetter is at ease if its setting is settled and its emitter coherent. It is at ease at the start of a document and
wherever content is visited; from there, a visit brings back the setting and the formatting that is open, and the frame
even if it fails. Main statement: `visit_restores`.
-/

namespace WikiTypeset.Latex

theorem Emitter.Coherent.opened? {e : Emitter} {stack : List Decoration} (h : e.Coherent stack) :
    e.opened? = some stack := by
  obtain ⟨l, hl⟩ := h
  obtain ⟨written, held, -, hheld, -⟩ := hl.reads
  exact nest_of_read hheld

end WikiTypeset.Latex

namespace WikiTypeset.Article

open Action Html Latex Typeset

/-! ### Visits in the course of a document -/

/-- In the typesetting of `c` from `t`, there is a visit of `c'` from `t'`: what comes of it depends on what comes of that
visit. -/
def Calls (visit : Visit) (c : Content) (t : Typesetter) (c' : Content) (t' : Typesetter) : Prop :=
  ∃ visit' : Visit, (∀ d u, d ≠ c' ∨ u ≠ t' → (visit' d).perform u = (visit d).perform u) ∧
    (visitBy visit' c).perform t ≠ (visitBy visit c).perform t

/-- A visit that passes its failure on is one of those. -/
theorem calls_of_fails {visit : Visit} {c c' : Content} {t t' : Typesetter}
    (h : ∀ (visit' : Visit) (x : ArticleError), (visit' c').perform t' = (.error x, t') →
      (visitBy visit' c).perform t = (.error x, t')) : Calls visit c t c' t' := by
  classical
  obtain ⟨x, hx⟩ : ∃ x, (visitBy visit c).perform t ≠ (.error x, t') := by
    by_cases hfail : (visitBy visit c).perform t = (.error .exhausted, t')
    · refine ⟨.badTemplateName, fun hother => ?_⟩
      rw [hfail] at hother
      cases hother
    · exact ⟨.exhausted, hfail⟩
  let visit' : Visit := fun d => Action.of fun u => if d = c' ∧ u = t' then (.error x, u) else (visit d).perform u
  have hfails : (visit' c').perform t' = (.error x, t') := if_pos ⟨rfl, rfl⟩
  refine ⟨visit', fun d u hne => ?_, ?_⟩
  · have hnot : ¬ (d = c' ∧ u = t') := by
      rintro ⟨rfl, rfl⟩
      simp at hne
    exact if_neg hnot
  · rw [h visit' x hfails]
    exact hx.symm

/-- Where an element stands for its children, the first of them is visited first. -/
theorem calls_first {visit : Visit} {p : Place} {t : Typesetter} {c : Content} {cs : List Content}
    (hrole : (roleOf t.language t.direction p.element).1 = .children) (hc : contentsOf p = c :: cs) :
    Calls visit (.element p) t c
      { t with records := (roleOf t.language t.direction p.element).2.reverse ++ t.records } := by
  refine calls_of_fails fun visit' x hfail => ?_
  rcases hroleOf : roleOf t.language t.direction p.element with ⟨role, log⟩
  rw [hroleOf] at hrole hfail
  obtain rfl : role = .children := hrole
  have hnote : (note log).perform t = (.ok (), { t with records := log.reverse ++ t.records }) := rfl
  simp only [visitBy, perform_bind, perform_get, hroleOf, hnote, visitAs, visitChildren, hc, List.forM_eq_forM,
    List.forM_cons, hfail]

/-- What is typeset of a document before its body. -/
def titleText (title? : Option String) (lang : String) : Typeset Unit :=
  match title? with
  | some title => visit (.root (titleHeading title lang))
  | none => pure ()

variable {document : Element} {title? : Option String} {lang : String} {options : ArticleOptions} {warned : List String}

/-- The visits in the typesetting of a document: of its title, of its body, and of what is visited for these. A visit comes
with its content, the bound of its depth, and the typesetter that it begins with. -/
inductive IsVisit (document : Element) (title? : Option String) (lang : String) (options : ArticleOptions)
    (warned : List String) : Nat → Content → Typesetter → Prop
  | title {title : String} (h : title? = some title) :
    IsVisit document title? lang options warned (depthBound (.root (titleHeading title lang)))
      (.element (.root (titleHeading title lang))) (start options (.known options.direction) warned)
  | body {body : Element} {t : Typesetter}
    (h : (titleText title? lang >>= fun _ => withLanguage (bodyPlace document).element lang).perform
      (start options (.known options.direction) warned) = (.ok body, t)) :
    IsVisit document title? lang options warned
      (depthBound (.mk body (bodyPlace document).before (bodyPlace document).parent?))
      (.element (.mk body (bodyPlace document).before (bodyPlace document).parent?)) t
  | inside {depth : Nat} {c c' : Content} {t t' : Typesetter}
    (h : IsVisit document title? lang options warned (depth + 1) c t) (hcalls : Calls (visitFrom depth) c t c' t') :
    IsVisit document title? lang options warned depth c' t'

/-- The typesetter is where a visit begins, or where one has come to its end. -/
def Typesetter.IsReached (document : Element) (title? : Option String) (lang : String) (options : ArticleOptions)
    (warned : List String) (t : Typesetter) : Prop :=
  ∃ depth c t₀, IsVisit document title? lang options warned depth c t₀ ∧
    (t = t₀ ∨ (visitFrom depth c).perform t₀ = (.ok (), t))

/-! ### At ease -/

/-- The setting is settled, and the emitter coherent. -/
def Typesetter.AtEase (t : Typesetter) : Prop := t.setting.Settled ∧ ∃ stack, t.emitter.Coherent stack

theorem start_atEase (options : ArticleOptions) (warned : List String) :
    (start options (.known options.direction) warned).AtEase :=
  ⟨start_settled options warned, [], start_coherent options _ warned⟩

/-- What a visit leaves behind. -/
theorem visitFrom_leaves (depth : Nat) (c : Content) {t : Typesetter} (hs : t.setting.Settled) {stack : List Decoration}
    (h : t.emitter.Coherent stack) :
    Leaves (visitFrom depth c) t (fun _ t' => t'.setting = t.setting ∧ t'.emitter.Coherent stack)
      fun _ t' => t'.frame = t.frame := by
  obtain ⟨hleaves, -⟩ := visitFrom_composes (C := fun _ => False) depth 0 (.inl rfl) c t t.setting rfl hs stack h
  exact hleaves.imp (fun _ _ h' => ⟨h'.1, h'.2.1⟩) fun _ _ h' => h'.1

theorem visitFrom_atEase (depth : Nat) (c : Content) {t : Typesetter} (h : t.AtEase) :
    Leaves (visitFrom depth c) t (fun _ t' => t'.AtEase) fun _ _ => True := by
  obtain ⟨hs, stack, hcoherent⟩ := h
  refine (visitFrom_leaves depth c hs hcoherent).imp (fun _ t' h' => ?_) fun _ _ _ => trivial
  exact ⟨h'.1 ▸ hs, stack, h'.2⟩

/-- What is visited in the typesetting of content is visited at ease. -/
theorem Calls.atEase {depth : Nat} {c c' : Content} {t t' : Typesetter} (h : Calls (visitFrom depth) c t c' t')
    (ht : t.AtEase) : t'.AtEase := by
  obtain ⟨visit', hagree, hdiffer⟩ := h
  by_contra hnot
  -- Wherever the typesetter is at ease, the two ways agree, so what comes of them is the same.
  have hall : ComposesAll (fun _ => False) (visitFrom depth) visit' := by
    intro d u s hu hs stack hcoherent
    obtain ⟨hleaves, -⟩ := visitFrom_composes (C := fun _ => False) depth 0 (.inl rfl) d u s hu hs stack hcoherent
    refine ⟨hleaves, .inl (hagree d u (.inr ?_))⟩
    rintro rfl
    exact hnot ⟨hu ▸ hs, stack, hcoherent⟩
  obtain ⟨hs, stack, hcoherent⟩ := ht
  exact hdiffer (visitBy_composes hall c t _ rfl hs stack hcoherent).2.eq_of_none

theorem titleText_atEase (title? : Option String) (lang : String) {t : Typesetter} (h : t.AtEase) :
    Leaves (titleText title? lang) t (fun _ t' => t'.AtEase) fun _ _ => True := by
  cases title? with
  | none => exact Leaves.of_pure h
  | some title => exact visitFrom_atEase _ _ h

theorem IsVisit.atEase {depth : Nat} {c : Content} {t : Typesetter}
    (h : IsVisit document title? lang options warned depth c t) : t.AtEase := by
  induction h with
  | title h => exact start_atEase options warned
  | @body body t h =>
    have hbody := (titleText_atEase title? lang (start_atEase options warned)).bind (f := fun _ => withLanguage (bodyPlace document).element lang)
      (P := fun _ t' => t'.AtEase) fun _ t' ht' => (withLanguage_silent _ lang t').imp
        (fun _ t₁ h₁ => ⟨h₁.2.1 ▸ ht'.1, h₁.2.2 ▸ ht'.2⟩) fun _ _ _ => trivial
    exact hbody.ok h
  | inside _ hcalls ih => exact hcalls.atEase ih

theorem Typesetter.IsReached.atEase {t : Typesetter} (h : t.IsReached document title? lang options warned) :
    t.AtEase := by
  obtain ⟨depth, c, t₀, hvisit, rfl | hperform⟩ := h
  · exact hvisit.atEase
  · exact (visitFrom_atEase depth c hvisit.atEase).ok hperform

/-- From wherever a typesetter comes to in a document, whatever is visited: the language, the direction and the list of the
place, the depths, and whether it is in a heading or a figure are as before, even if the visit fails; and if it does not,
then so are the formatting that is open, the base direction and the font of Latin words. -/
theorem visit_restores {t : Typesetter} (h : t.IsReached document title? lang options warned) (depth : Nat) (c : Content) :
    Leaves (visitFrom depth c) t
      (fun _ t' => t'.frame = t.frame ∧ t'.emitter.opened? = t.emitter.opened? ∧
        t'.emitter.paragraphDir = t.emitter.paragraphDir ∧ t'.emitter.latinSwitch = t.emitter.latinSwitch)
      fun _ t' => t'.frame = t.frame := by
  obtain ⟨hs, stack, hcoherent⟩ := h.atEase
  refine (visitFrom_leaves depth c hs hcoherent).imp_left fun _ t' h' => ?_
  refine ⟨frame_of_setting h'.1, ?_, congrArg Setting.paragraphDir h'.1, congrArg Setting.latinSwitch h'.1⟩
  rw [h'.2.opened?, hcoherent.opened?]

/-- A document with a paragraph in Hebrew. -/
def paragraphDocument : Element :=
  { name := "[document]"
    children := [.element "body" [⟨"lang", .text "en"⟩, ⟨"dir", .text "ltr"⟩]
      [.element "p" [⟨"lang", .text "he"⟩] [.text .plain ['\u05D0']]]] }

/-- The place of the paragraph. -/
def paragraphPlace : Place :=
  .mk ⟨"p", [⟨"lang", .text "he"⟩], [.text .plain ['\u05D0']]⟩ [] (some (bodyPlace paragraphDocument))

/-- The paragraph is visited in English text, and can be typeset: after that, the language is English again, and Latin words
are set as before. -/
theorem paragraphDocument_restores : ∃ t : Typesetter, t.IsReached paragraphDocument none "en" {} [] ∧
    t.language = "en" ∧ ((visitFrom 9 (.element paragraphPlace)).perform t).1.toBool = true ∧
    Leaves (visitFrom 9 (.element paragraphPlace)) t
      (fun _ t' => t'.frame = t.frame ∧ t'.emitter.opened? = t.emitter.opened? ∧
        t'.emitter.paragraphDir = t.emitter.paragraphDir ∧ t'.emitter.latinSwitch = t.emitter.latinSwitch)
      fun _ t' => t'.frame = t.frame := by
  have hbody : (titleText none "en" >>= fun _ => withLanguage (bodyPlace paragraphDocument).element "en").perform
      (start {} (.known .ltr) []) = (.ok (bodyPlace paragraphDocument).element, start {} (.known .ltr) []) := by rfl
  have hrole : (roleOf "en" .ltr (bodyPlace paragraphDocument).element).1 = .children := by decide +kernel
  have hcontents : contentsOf (bodyPlace paragraphDocument) = [.element paragraphPlace] := by rfl
  have hvisit : IsVisit paragraphDocument none "en" {} [] _ (.element paragraphPlace) _ :=
    (IsVisit.body hbody).inside (calls_first hrole hcontents)
  have hreached : Typesetter.IsReached _ _ _ _ _ _ := ⟨_, _, _, hvisit, .inl rfl⟩
  exact ⟨_, hreached, rfl, by decide +kernel, visit_restores hreached 9 (.element paragraphPlace)⟩

end WikiTypeset.Article
