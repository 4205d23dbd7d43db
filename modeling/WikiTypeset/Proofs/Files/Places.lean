import WikiTypeset.Proofs.Files.Entries

/-!
# Where paths lead

A path leads to the place that its names resolve to, as long as every place on the way is a directory; a tree with more
directories leads it there too. A path that goes down leads to a place below the one that it is read from.
-/

namespace WikiTypeset.Files

open Text

variable {here : List String} {p q : Path} {t t' : Tree} {place : List String}

namespace Path

/-- The path leads from a directory to a place in it, or below. -/
structure Descends (p : Path) : Prop where
  relative : p.root = ""
  down : ".." ∉ p.names

instance (p : Path) : Decidable p.Descends :=
  decidable_of_iff (p.root = "" ∧ ".." ∉ p.names) ⟨fun h => ⟨h.1, h.2⟩, fun h => ⟨h.relative, h.down⟩⟩

theorem Descends.isAbsolute (h : p.Descends) : p.isAbsolute = false := by
  unfold Path.isAbsolute
  rw [h.relative]
  rfl

def stepTo (names : List String) (name : String) : List String :=
  if name = ".." then names.dropLast else names ++ [name]

theorem resolve_eq (here : List String) (p : Path) :
    p.resolve here = p.names.foldl stepTo (if p.isAbsolute then [] else here) := rfl

theorem foldl_stepTo {names : List String} (h : ".." ∉ names) (start : List String) :
    names.foldl stepTo start = start ++ names := by
  induction names generalizing start with
  | nil => simp
  | cons name names ih =>
    rw [List.mem_cons, not_or] at h
    have hname : ¬ name = ".." := fun heq => h.1 heq.symm
    rw [List.foldl_cons, ih h.2, stepTo, if_neg hname]
    simp

theorem resolve_join (h : q.Descends) : (p.join q).resolve here = p.resolve here ++ q.names := by
  have hjoin : p.join q = { p with names := p.names ++ q.names } := by
    unfold join
    rw [h.isAbsolute]
    rfl
  rw [hjoin, resolve_eq, resolve_eq, List.foldl_append, foldl_stepTo h.down]
  rfl

theorem resolve_child {s : String} (h : (ofText s).Descends) :
    (p.child s).resolve here = p.resolve here ++ (ofText s).names :=
  resolve_join h

/-- A path that a name follows leads to what has that name. -/
theorem resolve_name {name : String} (h : ofText name = ⟨"", [name]⟩) (hname : name ≠ "..") :
    (p.child name).resolve here = p.resolve here ++ [name] := by
  have hdescends : (ofText name).Descends := by
    rw [h]
    exact ⟨rfl, fun hup => hname (List.mem_singleton.1 hup).symm⟩
  rw [resolve_child hdescends, h]

/-- A place that names lead to from the root, or from a place without steps upwards, has none either. -/
theorem not_mem_foldl_stepTo {start : List String} (hstart : ".." ∉ start) (names : List String) :
    ".." ∉ names.foldl stepTo start := by
  induction names generalizing start with
  | nil => exact hstart
  | cons name names ih =>
    apply ih
    unfold stepTo
    split
    · exact fun h => hstart (List.dropLast_subset start h)
    · rename_i hname
      simp only [List.mem_append, List.mem_singleton, not_or]
      exact ⟨hstart, fun h => hname h.symm⟩

theorem not_mem_resolve (h : ".." ∉ here) : ".." ∉ p.resolve here := by
  rw [resolve_eq]
  apply not_mem_foldl_stepTo
  split
  · simp
  · exact h

/-- Seen from the root, a path leads to the same place. -/
theorem resolve_absolute (h : ".." ∉ here) : Path.resolve here ⟨"/", p.resolve here⟩ = p.resolve here := by
  rw [resolve_eq, if_pos (by rfl)]
  have hnames := foldl_stepTo (not_mem_resolve (p := p) h) []
  simpa using hnames

/-- The last name of a path is that of the place, unless it leads upwards. -/
theorem getLast?_resolve {name : String} (h : p.names.getLast? = some name) (hname : name ≠ "..") :
    (p.resolve here).getLast? = some name := by
  obtain ⟨before, hbefore⟩ : ∃ before, p.names = before ++ [name] := List.getLast?_eq_some_iff.1 h
  rw [resolve_eq, hbefore, List.foldl_append, List.foldl_cons, List.foldl_nil, stepTo, if_neg hname]
  simp

/-! ### The last names of paths -/

theorem splitWhere_eq_self {p : Char → Bool} {t : List Char} (ht : ∀ c ∈ t, p c = false) : splitWhere p t = [t] := by
  induction t with
  | nil => rfl
  | cons c t ih =>
    rw [List.forall_mem_cons] at ht
    rw [splitWhere, if_neg (by simp [ht.1]), ih ht.2]

theorem splitWhere_ne_nil (p : Char → Bool) (s : List Char) : splitWhere p s ≠ [] := by
  cases s with
  | nil => simp [splitWhere]
  | cons c s =>
    unfold splitWhere
    split
    · simp
    · split <;> simp

theorem forall_splitWhere {p : Char → Bool} (s : List Char) : ∀ w ∈ splitWhere p s, ∀ c ∈ w, p c = false := by
  induction s with
  | nil => simp [splitWhere]
  | cons c s ih =>
    unfold splitWhere
    split
    · rw [List.forall_mem_cons]
      exact ⟨List.forall_mem_nil _, ih⟩
    · rename_i hc
      have hc : p c = false := by simpa using hc
      split
      · simpa using hc
      · rename_i first rest heq
        rw [heq, List.forall_mem_cons] at ih
        rw [List.forall_mem_cons, List.forall_mem_cons]
        exact ⟨⟨hc, ih.1⟩, ih.2⟩

theorem getLast?_splitWhere {p : Char → Bool} {t : List Char} (ht : ∀ c ∈ t, p c = false) (s : List Char) :
    ∃ w, (splitWhere p (s ++ t)).getLast? = some (w ++ t) := by
  induction s with
  | nil => exact ⟨[], by simp [splitWhere_eq_self ht]⟩
  | cons c s ih =>
    obtain ⟨w, hw⟩ := ih
    rw [List.cons_append, splitWhere]
    split
    · refine ⟨w, ?_⟩
      rw [List.getLast?_cons, hw]
      rfl
    · split
      · rename_i heq
        exact absurd heq (splitWhere_ne_nil p _)
      · rename_i first rest heq
        rw [heq] at hw
        cases rest with
        | nil =>
          obtain rfl : first = w ++ t := by simpa using hw
          exact ⟨c :: w, by simp⟩
        | cons second rest => exact ⟨w, by simpa using hw⟩

/-! ### Places below others -/

/-- The place is below another, and is not that place itself. -/
def IsBelow (root place : List String) : Prop := root <+: place ∧ place ≠ root

theorem isBelow_append {root names : List String} (h : names ≠ []) : IsBelow root (root ++ names) := by
  refine ⟨List.prefix_append root names, fun heq => h ?_⟩
  simpa using heq

theorem IsBelow.extend {root place place' : List String} (h : IsBelow root place) (hplace : place <+: place') :
    IsBelow root place' := by
  refine ⟨h.1.trans hplace, ?_⟩
  rintro rfl
  exact h.2 (hplace.eq_of_length_le h.1.length_le)

theorem IsBelow.append {root place : List String} (h : IsBelow root place) (names : List String) :
    IsBelow root (place ++ names) :=
  h.extend (List.prefix_append place names)

/-! ### Names -/

/-- The text is a single name that leads to no parent. -/
structure IsName (s : String) : Prop where
  plain : '/' ∉ s.toList
  ne_up : s ≠ ".."

/-- Nothing separates the characters of a text without a slash. -/
theorem beq_slash_eq_false {s : List Char} (h : '/' ∉ s) : ∀ c ∈ s, (c == '/') = false := by
  intro c hc
  rw [beq_eq_false_iff_ne]
  rintro rfl
  exact h hc

theorem IsName.names_subset {s : String} (h : IsName s) : ∀ name ∈ namesIn s, name = s := by
  intro name hname
  obtain ⟨part, hpart, rfl⟩ := List.mem_map.1 hname
  rw [splitWhere_eq_self (beq_slash_eq_false h.plain)] at hpart
  obtain rfl := List.mem_singleton.1 (List.mem_filter.1 hpart).1
  exact String.ofList_toList

theorem IsName.descends {s : String} (h : IsName s) : (ofText s).Descends where
  relative := by
    show rootIn s = ""
    unfold rootIn
    split
    · rename_i heq
      exact absurd (heq ▸ List.mem_cons_self) h.plain
    · rename_i heq
      exact absurd (heq ▸ List.mem_cons_self) h.plain
    · rename_i heq
      exact absurd (heq ▸ List.mem_cons_self) h.plain
    · rfl
  down := fun hup => h.ne_up (h.names_subset ".." hup).symm

/-- What the text of a path ends in without a slash is the end of its last name. -/
theorem getLast?_ofText {s t : String} (ht : '/' ∉ t.toList) (hdot : ∃ c ∈ t.toList, c ≠ '.') :
    ∃ before, (ofText (s ++ t)).names.getLast? = some (before ++ t) ∧ '/' ∉ before.toList := by
  obtain ⟨w, hw⟩ := getLast?_splitWhere (beq_slash_eq_false ht) s.toList
  have hslash : '/' ∉ w := by
    intro hc
    have hsep := forall_splitWhere _ _ (List.mem_of_getLast? hw) '/' (List.mem_append_left _ hc)
    simp at hsep
  obtain ⟨before, hbefore⟩ := List.getLast?_eq_some_iff.1 hw
  have hkeep : [w ++ t.toList].filter (fun name => !name.isEmpty && name != ['.']) = [w ++ t.toList] := by
    obtain ⟨c, hc, hdot⟩ := hdot
    have hmem : c ∈ w ++ t.toList := List.mem_append_right _ hc
    have hempty : w ++ t.toList ≠ [] := List.ne_nil_of_mem hmem
    have hsingle : w ++ t.toList ≠ ['.'] := fun h => hdot (List.mem_singleton.1 (h ▸ hmem))
    simp only [List.filter_cons, List.filter_nil]
    rw [if_pos]
    simpa using ⟨fun hw ht => hempty (by simp [hw, ht]), hsingle⟩
  refine ⟨String.ofList w, ?_, by simpa using hslash⟩
  show (namesIn (s ++ t)).getLast? = _
  rw [namesIn, String.toList_append, hbefore, List.filter_append, hkeep]
  simp

/-- What ends in characters of a name, one of them no dot, and has no slash before them, is a name. -/
theorem isName_append {before t : String} (hbefore : '/' ∉ before.toList) (ht : '/' ∉ t.toList)
    (hdot : ∃ c ∈ t.toList, c ≠ '.') : IsName (before ++ t) where
  plain := by
    rw [String.toList_append, List.mem_append, not_or]
    exact ⟨hbefore, ht⟩
  ne_up := by
    obtain ⟨c, hc, hdot⟩ := hdot
    intro heq
    have hmem : c ∈ (before ++ t).toList := by
      rw [String.toList_append]
      exact List.mem_append_right _ hc
    rw [heq] at hmem
    simp at hmem
    exact hdot hmem

/-- The last name of a place says that a text file with TeX may stand there. -/
def IsTex (place : List String) : Prop := ∃ name, place.getLast? = some (name ++ ".tex")

/-- The last name of a path is that of the text that it ends in. -/
theorem getLast?_child {s name : String} (p : Path) (h : (ofText s).names.getLast? = some name) :
    (p.child s).names.getLast? = some name := by
  unfold child join
  split
  · exact h
  · rw [List.getLast?_append, h]
    rfl

/-- A file whose name ends so is at such a place, wherever its path leads. -/
theorem isTex_child (p : Path) (s : String) : IsTex ((p.child (s ++ ".tex")).resolve here) := by
  obtain ⟨name, hname, -⟩ := getLast?_ofText (s := s) (t := ".tex") (by decide) ⟨'t', by decide, by decide⟩
  refine ⟨name, getLast?_resolve (getLast?_child p hname) fun h => ?_⟩
  have hlength : (name ++ ".tex").length = 2 := congrArg String.length h
  have htex : ".tex".length = 4 := rfl
  rw [String.length_append, htex] at hlength
  omega

/-- A file with another ending is at no such place. -/
theorem not_isTex_name {name : String} (h : ofText name = ⟨"", [name]⟩) (hname : name ≠ "..")
    (hends : ¬ ".tex".toList <:+ name.toList) : ¬ IsTex ((p.child name).resolve here) := by
  rintro ⟨before, hbefore⟩
  rw [resolve_name h hname, List.getLast?_concat] at hbefore
  apply hends
  rw [Option.some.inj hbefore, String.toList_append]
  exact List.suffix_append _ _

end Path

namespace Tree

open Path

theorem eq_of_walk {here names : List String} (h : t.walk here names = .ok place) :
    place = names.foldl stepTo here := by
  induction names generalizing here with
  | nil =>
    cases h
    rfl
  | cons name names ih =>
    unfold walk at h
    split at h
    · cases h
    · split at h
      · cases h
      · exact ih h

theorem eq_of_locate (h : t.locate here p = .ok place) : place = p.resolve here := eq_of_walk h

theorem walk_of_directories (hd : ∀ q, t.isDirectory q = true → t'.isDirectory q = true) {here names : List String}
    (h : t.walk here names = .ok place) : t'.walk here names = .ok place := by
  induction names generalizing here with
  | nil => exact h
  | cons name names ih =>
    unfold walk at h ⊢
    split at h
    · cases h
    · rename_i hhere
      split at h
      · cases h
      · rename_i hlength
        have hhere : t.isDirectory here = true := by simpa using hhere
        rw [hd here hhere, if_neg (by simp), if_neg hlength]
        exact ih h

/-- More directories lead a path to the same place. -/
theorem locate_of_directories (hd : ∀ q, t.isDirectory q = true → t'.isDirectory q = true)
    (h : t.locate here p = .ok place) : t'.locate here p = .ok place :=
  walk_of_directories hd h

/-- The same directories lead paths to the same places. -/
theorem locate_toOption (hd : ∀ q, t'.isDirectory q = t.isDirectory q) :
    (t'.locate here p).toOption = (t.locate here p).toOption := by
  cases h : t.locate here p with
  | ok place =>
    have h' := locate_of_directories (fun q hq => (hd q).trans hq) h
    rw [h']
  | error fault =>
    cases h' : t'.locate here p with
    | error fault' => rfl
    | ok place =>
      have hback := locate_of_directories (fun q hq => (hd q).symm.trans hq) h'
      rw [h] at hback
      cases hback

/-! ### Changes below a place -/

/-- What is not below a place has stayed as it was. -/
def SameOutside (root : List String) (t t' : Tree) : Prop := ∀ q, ¬ IsBelow root q → t'.entry q = t.entry q

theorem SameOutside.refl (root : List String) (t : Tree) : SameOutside root t t := fun _ _ => rfl

theorem SameOutside.trans {root : List String} {t'' : Tree} (h : SameOutside root t t')
    (h' : SameOutside root t' t'') : SameOutside root t t'' :=
  fun q hq => (h' q hq).trans (h q hq)

theorem Makes.sameOutside {root p : List String} {e : Entry} (h : t.Makes p e t') (hp : IsBelow root p) :
    SameOutside root t t' := by
  intro q hq
  refine h.entry_of_ne ?_
  rintro rfl
  exact hq hp

/-- A directory has been made where nothing stood, and all that has changed is in it. -/
structure Opens (root : List String) (t t' : Tree) : Prop where
  free : t.entry root = none
  directory : t'.isDirectory root = true
  elsewhere : ∀ q, ¬ root <+: q → t'.entry q = t.entry q

theorem Opens.of_makes {root : List String} (h : t.Makes root .directory t') (hfree : t.entry root = none) :
    Opens root t t' where
  free := hfree
  directory := isDirectory_iff.2 h.entry_self
  elsewhere _ hq := h.entry_of_ne fun heq => hq (heq ▸ List.prefix_rfl)

theorem Opens.then {root : List String} {t'' : Tree} (h : Opens root t t') (h' : SameOutside root t' t'') :
    Opens root t t'' where
  free := h.free
  directory := by
    rw [isDirectory_congr (h' root fun hbelow => hbelow.2 rfl)]
    exact h.directory
  elsewhere q hq := by rw [h' q fun hbelow => hq hbelow.1, h.elsewhere q hq]

/-- Paths still lead where they led. -/
theorem Opens.locate {root : List String} (h : Opens root t t') (ht : t.IsGrounded)
    (hplace : t.locate here p = .ok place) : t'.locate here p = .ok place := by
  refine locate_of_directories (fun q hq => ?_) hplace
  have hout : ¬ root <+: q := by
    intro hin
    rw [isDirectory_iff, ht.entry_eq_none h.free hin] at hq
    cases hq
  rw [isDirectory_congr (h.elsewhere q hout), hq]

/-- Without the directory, all is as it was. -/
theorem Opens.entry_removeAll {root : List String} (h : Opens root t t') (ht : t.IsGrounded) (q : List String) :
    (t'.removeAll root).entry q = t.entry q := by
  by_cases hnil : q = []
  · subst hnil
    rfl
  · rw [Tree.entry_removeAll hnil]
    split
    · rename_i hin
      rw [ht.entry_eq_none h.free hin]
    · rename_i hout
      exact h.elsewhere q hout

end Tree

end WikiTypeset.Files
