import Mathlib.Data.Multiset.Filter
import WikiTypeset.Proofs.Files.Places

/-!
# What the files below a place hold

In a tree as it is on a disk, where everything stands in a directory and nothing stands twice, a move to a place that is
free, or that an empty file takes, loses nothing: what stood at the source and below it stands at the target, and the files
below any place around both hold what they held. The tree stays one as on a disk.
-/

namespace WikiTypeset.Files

/-- Whether a file holds nothing. Stores and archives hold something even if they have no rows and no members. -/
def Content.isEmpty : Content → Bool
  | text s => s.isEmpty
  | bytes b => b.isEmpty
  | rows _ | archive _ => false

/-- What an entry holds, if it is a file that is not empty. -/
def Entry.held? : Entry → Option Content
  | .directory => none
  | .file c => if c.isEmpty then none else some c

namespace Path

variable {root place : List String}

instance (root place : List String) : Decidable (IsBelow root place) :=
  inferInstanceAs (Decidable (root <+: place ∧ place ≠ root))

theorem isBelow_iff_length : IsBelow root place ↔ root <+: place ∧ root.length < place.length := by
  refine and_congr_right fun hr => ⟨fun hne => ?_, ?_⟩
  · exact lt_of_le_of_ne hr.length_le fun heq => hne (hr.eq_of_length heq).symm
  · rintro hlength rfl
    exact lt_irrefl _ hlength

end Path

namespace Tree

variable {t t' : Tree} {p q r root : List String} {e : Entry} {c : Content}

/-- The contents of the files below a place that are not empty. -/
def contentsBelow (t : Tree) (root : List String) : Multiset Content :=
  ((t.below root).filterMap fun x => x.2.held? : List Content)

/-- What an entry adds to the contents below a place. -/
def heldBelow? (root : List String) (x : List String × Entry) : Option Content :=
  if Path.IsBelow root x.1 then x.2.held? else none

theorem contentsBelow_eq (t : Tree) (root : List String) :
    t.contentsBelow root = (t.entries.filterMap (heldBelow? root) : List Content) := by
  rw [contentsBelow, below, List.filterMap_filterMap]
  congr 2
  funext ⟨r, e⟩
  have hbelow : (root.isPrefixOf r && root.length < r.length) = true ↔ Path.IsBelow root r := by
    rw [Path.isBelow_iff_length]
    simp
  by_cases hr : Path.IsBelow root r
  · simp only [heldBelow?, if_pos hr, if_pos (hbelow.2 hr), Option.bind_some]
  · simp only [heldBelow?, if_neg hr, if_neg (hr ∘ hbelow.1), Option.bind_none]

/-- The tree is as on a disk. -/
structure IsSound (t : Tree) : Prop where
  grounded : t.IsGrounded
  nodup : (t.entries.map (·.1)).Nodup
  /-- No name is longer than a name may be. -/
  short : ∀ x ∈ t.entries, ∀ name ∈ x.1, name.utf8ByteSize ≤ 255

/-! ### Entries of sound trees -/

theorem isTaken_of_isDirectory (h : t.isDirectory p = true) : t.isTaken p = true := by
  rw [isTaken, isDirectory_iff.1 h]
  rfl

theorem mem_of_firstAt {entries : List (List String × Entry)} (h : firstAt entries p = some e) : (p, e) ∈ entries := by
  unfold firstAt at h
  obtain ⟨⟨p', e'⟩, hfind, rfl⟩ := Option.map_eq_some_iff.1 h
  have hkey : p' = p := by simpa using List.find?_some hfind
  exact hkey ▸ List.mem_of_find?_eq_some hfind

theorem mem_of_entry (h : t.entry p = some e) (hp : p ≠ []) : (p, e) ∈ t.entries :=
  mem_of_firstAt (entry_of_ne_nil hp ▸ h)

/-- In a list without a second entry for any place, an entry is the first one for its place. -/
theorem firstAt_of_mem {entries : List (List String × Entry)} (hnodup : (entries.map (·.1)).Nodup)
    (h : (p, e) ∈ entries) : firstAt entries p = some e := by
  induction entries with
  | nil => cases h
  | cons x entries ih =>
    rw [List.map_cons, List.nodup_cons] at hnodup
    rw [firstAt_cons]
    rcases List.mem_cons.1 h with rfl | h
    · rw [if_pos rfl]
    · have hne : x.1 ≠ p := fun hx => hnodup.1 (hx ▸ List.mem_map_of_mem h)
      rw [if_neg hne, ih hnodup.2 h]

namespace IsSound

theorem entry_of_mem (hs : t.IsSound) (h : (p, e) ∈ t.entries) (hp : p ≠ []) : t.entry p = some e := by
  rw [entry_of_ne_nil hp, firstAt_of_mem hs.nodup h]

theorem name_short (hs : t.IsSound) (h : t.isTaken p = true) {name : String} (hname : name ∈ p) :
    name.utf8ByteSize ≤ 255 := by
  obtain ⟨e, he⟩ := Option.isSome_iff_exists.1 h
  exact hs.short _ (mem_of_entry he (List.ne_nil_of_mem hname)) name hname

/-- Nothing stands below a place where no directory is. -/
theorem entry_below (hs : t.IsSound) (hp : t.isDirectory p = false) (hpq : p <+: q) (hne : p ≠ q) : t.entry q = none := by
  obtain ⟨names, rfl⟩ := hpq
  cases names with
  | nil => exact absurd (List.append_nil p).symm hne
  | cons name names =>
    have hnext : t.entry (p ++ [name]) = none := by
      by_contra htaken
      rw [hs.grounded p name (Option.isSome_iff_ne_none.2 htaken)] at hp
      cases hp
    exact hs.grounded.entry_eq_none hnext ⟨names, by simp⟩

/-- Nor is a directory below. -/
theorem isDirectory_below (hs : t.IsSound) (hp : t.isDirectory p = false) (hpq : p <+: q) :
    t.isDirectory q = false := by
  by_cases hne : p = q
  · rwa [← hne]
  · rw [isDirectory, hs.entry_below hp hpq hne]

/-- All that a taken place stands in are directories. -/
theorem isDirectory_above (hs : t.IsSound) (h : t.isTaken q = true) (hpq : p <+: q) (hne : p ≠ q) :
    t.isDirectory p = true := by
  by_contra hp
  rw [isTaken, hs.entry_below (by simpa using hp) hpq hne] at h
  cases h

end IsSound

theorem fault?_eq_none_iff : t.fault? p = none ↔
    (∀ n < p.length, t.isDirectory (p.take n) = true) ∧ ∀ name ∈ p, name.utf8ByteSize ≤ 255 := by
  constructor
  · refine fun h => ⟨fun n hn => isDirectory_of_fault? h hn, ?_⟩
    unfold fault? at h
    dsimp only at h
    split at h
    · cases h
    · split at h
      · cases h
      · rename_i hlong
        simpa using hlong
  · rintro ⟨hway, hshort⟩
    have hfind : ((List.range p.length).map p.take).find? (fun q => !t.isDirectory q) = none := by
      simpa [List.find?_eq_none] using hway
    unfold fault?
    dsimp only
    rw [hfind]
    simpa using hshort

/-- In a directory, something may be made under any name that is short enough. -/
theorem IsSound.fault?_child (hs : t.IsSound) (hp : t.isDirectory p = true) {name : String}
    (hname : name.utf8ByteSize ≤ 255) : t.fault? (p ++ [name]) = none := by
  have htaken := isTaken_of_isDirectory hp
  refine fault?_eq_none_iff.2 ⟨fun n hn => ?_, fun other hother => ?_⟩
  · have hn : n ≤ p.length := by simpa [Nat.lt_succ_iff] using hn
    rw [List.take_append_of_le_length hn]
    by_cases heq : p.take n = p
    · rwa [heq]
    · exact hs.isDirectory_above htaken (List.take_prefix n p) heq
  · rcases List.mem_append.1 hother with hother | hother
    · exact hs.name_short htaken hother
    · exact List.mem_singleton.1 hother ▸ hname

/-! ### Making an entry where there is none -/

theorem put_of_free (hp : p ≠ []) (hfree : t.entry p = none) : t.put p e = { t with entries := t.entries ++ [(p, e)] } := by
  rw [put, if_neg]
  intro hany
  obtain ⟨x, hx, hkey⟩ := List.any_eq_true.1 hany
  have hsome : (firstAt t.entries p).isSome = true := by
    rw [firstAt, Option.isSome_map, List.find?_isSome]
    exact ⟨x, hx, hkey⟩
  rw [← entry_of_ne_nil hp, hfree] at hsome
  cases hsome

theorem key_ne_of_free (hs : t.IsSound) (hp : p ≠ []) (hfree : t.entry p = none) : ∀ x ∈ t.entries, x.1 ≠ p := by
  rintro ⟨p', e'⟩ hx rfl
  rw [hs.entry_of_mem hx hp] at hfree
  cases hfree

theorem IsSound.put (hs : t.IsSound) (hp : p ≠ []) (hfree : t.entry p = none) (hfault : t.fault? p = none) :
    (t.put p e).IsSound where
  grounded := by
    intro parent name htaken
    by_cases hnew : parent ++ [name] = p
    · have hne : parent ≠ p := fun h => by simp [h] at hnew
      have hlength : parent.length < p.length := by simp [← hnew]
      have hparent := isDirectory_of_fault? hfault hlength
      rw [← hnew, List.take_left] at hparent
      rwa [isDirectory_congr (entry_put_of_ne hne)]
    · have hparent := hs.grounded parent name (by rwa [isTaken, entry_put_of_ne hnew] at htaken)
      have hne : parent ≠ p := by
        rintro rfl
        rw [isDirectory_iff, hfree] at hparent
        cases hparent
      rwa [isDirectory_congr (entry_put_of_ne hne)]
  nodup := by
    rw [put_of_free hp hfree, List.map_append, List.nodup_append]
    refine ⟨hs.nodup, List.nodup_singleton _, fun key hkey other hother => ?_⟩
    obtain ⟨x, hx, rfl⟩ := List.mem_map.1 hkey
    obtain rfl : other = p := by simpa using hother
    exact key_ne_of_free hs hp hfree x hx
  short := by
    rw [put_of_free hp hfree]
    intro x hx
    rcases List.mem_append.1 hx with hx | hx
    · exact hs.short x hx
    · rw [List.mem_singleton.1 hx]
      exact (fault?_eq_none_iff.1 hfault).2

/-- A directory or an empty file that is made where nothing was adds nothing to the contents. -/
theorem contentsBelow_put (hp : p ≠ []) (hfree : t.entry p = none) (he : e.held? = none) (root : List String) :
    (t.put p e).contentsBelow root = t.contentsBelow root := by
  have hnew : heldBelow? root (p, e) = none := by
    unfold heldBelow?
    split
    · exact he
    · rfl
  rw [contentsBelow_eq, contentsBelow_eq, put_of_free hp hfree, List.filterMap_append, List.filterMap_cons_none hnew,
    List.filterMap_nil, List.append_nil]

/-! ### Moving -/

/-- What a move that succeeds has done. -/
theorem eq_of_move (h : t.move p q = .ok t') : (∃ e, t.entry p = some e) ∧ t.fault? q = none ∧
    (p = q ∧ t' = t ∨ ¬ p <+: q ∧ t' = (t.remove q).rebase p q) := by
  unfold move at h
  split at h
  · cases h
  · cases h
  · cases h
  · cases h
  · rename_i hp hfault _ _
    refine ⟨⟨_, hp⟩, Option.eq_none_iff_forall_ne_some.2 fun fault hq => hfault fault hq, ?_⟩
    split at h
    · rename_i heq
      cases h
      exact .inl ⟨by simpa using heq, rfl⟩
    · split at h
      · cases h
      · rename_i hinto
        cases h
        exact .inr ⟨fun hpq => hinto (List.isPrefixOf_iff_prefix.2 hpq), rfl⟩

/-- A thing does not move into itself. -/
theorem not_moves_into (hpq : p <+: q) (hne : p ≠ q) : t.move p q ≠ .ok t' := by
  intro h
  obtain ⟨-, -, ⟨heq, -⟩ | ⟨hinto, -⟩⟩ := eq_of_move h
  · exact hne heq
  · exact hinto hpq

/-- Where a place is moved to. -/
def rebased (p q r : List String) : List String := if p.isPrefixOf r then q ++ r.drop p.length else r

theorem rebased_below (names : List String) : rebased p q (p ++ names) = q ++ names := by
  rw [rebased, if_pos (List.isPrefixOf_iff_prefix.2 (List.prefix_append p names)), List.drop_left]

theorem rebased_apart (h : ¬ p <+: r) : rebased p q r = r := by
  rw [rebased, if_neg fun hpr => h (List.isPrefixOf_iff_prefix.1 hpr)]

theorem rebase_entries : (t.rebase p q).entries = t.entries.map fun x => (rebased p q x.1, x.2) := rfl

/-- Where nothing stands at the target and below it, only what was at the source gets there. -/
theorem rebased_eq_target (hr : ¬ q <+: r) (names : List String) : rebased p q r = q ++ names ↔ r = p ++ names := by
  by_cases hpr : p <+: r
  · obtain ⟨rest, rfl⟩ := hpr
    rw [rebased_below, List.append_cancel_left_eq, List.append_cancel_left_eq]
  · rw [rebased_apart hpr]
    constructor
    · rintro rfl
      exact absurd (List.prefix_append q names) hr
    · rintro rfl
      exact absurd (List.prefix_append p names) hpr

private theorem firstAt_rebased_target {entries : List (List String × Entry)} (hnone : ∀ x ∈ entries, ¬ q <+: x.1)
    (names : List String) :
    firstAt (entries.map fun x => (rebased p q x.1, x.2)) (q ++ names) = firstAt entries (p ++ names) := by
  induction entries with
  | nil => rfl
  | cons x entries ih =>
    obtain ⟨hx, hrest⟩ := List.forall_mem_cons.1 hnone
    rw [List.map_cons, firstAt_cons, firstAt_cons, ih hrest]
    simp only [rebased_eq_target hx]

private theorem firstAt_rebased_source {entries : List (List String × Entry)} (hp : p <+: r) (hq : ¬ q <+: r) :
    firstAt (entries.map fun x => (rebased p q x.1, x.2)) r = none := by
  induction entries with
  | nil => rfl
  | cons x entries ih =>
    have hne : rebased p q x.1 ≠ r := by
      by_cases hx : p <+: x.1
      · obtain ⟨names, hnames⟩ := hx
        rw [← hnames, rebased_below]
        rintro rfl
        exact hq (List.prefix_append q names)
      · rw [rebased_apart hx]
        rintro rfl
        exact hx hp
    rw [List.map_cons, firstAt_cons, if_neg hne, ih]

/-- A move, of a tree as on a disk, to another place, where no directory is. -/
structure Relocates (t : Tree) (p q : List String) (t' : Tree) : Prop where
  sound : t.IsSound
  moves : t.move p q = .ok t'
  other : p ≠ q
  free : t.isDirectory q = false

namespace Relocates

theorem eq (h : t.Relocates p q t') : t' = (t.remove q).rebase p q := by
  obtain ⟨-, -, ⟨heq, -⟩ | ⟨-, heq⟩⟩ := eq_of_move h.moves
  · exact absurd heq h.other
  · exact heq

theorem taken (h : t.Relocates p q t') : t.isTaken p = true := by
  obtain ⟨e, he⟩ := (eq_of_move h.moves).1
  rw [isTaken, he]
  rfl

theorem fault? (h : t.Relocates p q t') : t.fault? q = none := (eq_of_move h.moves).2.1

theorem not_into (h : t.Relocates p q t') : ¬ p <+: q := fun hpq => not_moves_into hpq h.other h.moves

theorem not_outOf (h : t.Relocates p q t') : ¬ q <+: p := by
  intro hqp
  have hfree := h.free
  rw [h.sound.isDirectory_above h.taken hqp h.other.symm] at hfree
  cases hfree

theorem source_ne_nil (h : t.Relocates p q t') : p ≠ [] := fun hp => h.not_into (hp ▸ List.nil_prefix)

theorem target_ne_nil (h : t.Relocates p q t') : q ≠ [] := fun hq => h.not_outOf (hq ▸ List.nil_prefix)

/-- Without what was at the target, there is nothing below it. -/
theorem not_below_target (h : t.Relocates p q t') : ∀ x ∈ (t.remove q).entries, ¬ q <+: x.1 := by
  rintro ⟨r, e⟩ hx hqr
  obtain ⟨hmem, hne⟩ := List.mem_filter.1 hx
  have hnone := h.sound.entry_below h.free hqr (by simpa using Ne.symm (by simpa using hne))
  rw [h.sound.entry_of_mem hmem fun hr => h.target_ne_nil (List.prefix_nil.1 (hr ▸ hqr))] at hnone
  cases hnone

theorem entry_target (h : t.Relocates p q t') (names : List String) : t'.entry (q ++ names) = t.entry (p ++ names) := by
  have hsource : p ++ names ≠ [] := List.append_ne_nil_of_left_ne_nil h.source_ne_nil names
  have hq : p ++ names ≠ q := fun heq => h.not_into ⟨names, heq⟩
  rw [h.eq, entry_of_ne_nil (List.append_ne_nil_of_left_ne_nil h.target_ne_nil names), rebase_entries,
    firstAt_rebased_target h.not_below_target, ← entry_of_ne_nil hsource, entry_remove hsource, if_neg hq]

theorem entry_source (h : t.Relocates p q t') (hp : p <+: r) (hq : ¬ q <+: r) : t'.entry r = none := by
  have hr : r ≠ [] := fun hr => h.source_ne_nil (List.prefix_nil.1 (hr ▸ hp))
  rw [h.eq, entry_of_ne_nil hr, rebase_entries, firstAt_rebased_source hp hq]

theorem entry_elsewhere (h : t.Relocates p q t') (hp : ¬ p <+: r) (hq : ¬ q <+: r) : t'.entry r = t.entry r :=
  entry_move h.moves hp hq

/-- Where something is made, all places on the way are directories still. -/
theorem isDirectory_way (h : t.Relocates p q t') (hr : r <+: q) (hne : r ≠ q) : t'.isDirectory r = true := by
  have hlength : r.length < q.length :=
    lt_of_le_of_ne hr.length_le fun heq => hne (hr.eq_of_length heq)
  have hway := isDirectory_of_fault? h.fault? hlength
  rw [← List.prefix_iff_eq_take.1 hr] at hway
  rwa [isDirectory_congr (h.entry_elsewhere (fun hp => h.not_into (hp.trans hr)) fun hq => ?_)]
  exact hne (hr.eq_of_length_le hq.length_le)

theorem isGrounded (h : t.Relocates p q t') : t'.IsGrounded := by
  intro parent name htaken
  by_cases hq : q <+: parent ++ [name]
  · rcases List.prefix_concat_iff.1 hq with heq | ⟨names, rfl⟩
    · exact h.isDirectory_way ⟨[name], heq.symm⟩ fun hparent => by simp [hparent] at heq
    · rw [List.append_assoc, isTaken, h.entry_target, ← List.append_assoc] at htaken
      rw [isDirectory_iff, h.entry_target, ← isDirectory_iff]
      exact h.sound.grounded _ _ htaken
  · by_cases hp : p <+: parent ++ [name]
    · rw [isTaken, h.entry_source hp hq] at htaken
      cases htaken
    · have hparent : parent <+: parent ++ [name] := List.prefix_append parent [name]
      rw [isTaken, h.entry_elsewhere hp hq] at htaken
      rw [isDirectory_congr (h.entry_elsewhere (fun h => hp (h.trans hparent)) fun h => hq (h.trans hparent))]
      exact h.sound.grounded _ _ htaken

theorem isSound (h : t.Relocates p q t') : t'.IsSound where
  grounded := h.isGrounded
  nodup := by
    have hkeys : (t.remove q).entries.map (·.1) = (t.entries.map (·.1)).filter (· != q) := by
      rw [List.filter_map]
      rfl
    have hrebased : t'.entries.map (·.1) = ((t.remove q).entries.map (·.1)).map (rebased p q) := by
      rw [h.eq, rebase_entries, List.map_map, List.map_map]
      rfl
    rw [hrebased]
    refine List.Nodup.map_on (fun r hr r' hr' heq => ?_) (hkeys ▸ h.sound.nodup.filter _)
    obtain ⟨x, hx, rfl⟩ := List.mem_map.1 hr
    obtain ⟨x', hx', rfl⟩ := List.mem_map.1 hr'
    by_cases hp : p <+: x.1
    · obtain ⟨names, hnames⟩ := hp
      rw [← hnames, rebased_below] at heq
      rw [← hnames, (rebased_eq_target (h.not_below_target _ hx') names).1 heq.symm]
    · rw [rebased_apart hp] at heq
      by_cases hp' : p <+: x'.1
      · obtain ⟨names, hnames⟩ := hp'
        rw [← hnames, rebased_below] at heq
        exact absurd ⟨names, heq.symm⟩ (h.not_below_target _ hx)
      · rwa [rebased_apart hp'] at heq
  short := by
    rw [h.eq]
    intro x hx name hname
    obtain ⟨y, hy, rfl⟩ := List.mem_map.1 hx
    have hy : y ∈ t.entries := (List.mem_filter.1 hy).1
    dsimp only at hname
    split at hname
    · rcases List.mem_append.1 hname with hname | hname
      · exact (fault?_eq_none_iff.1 h.fault?).2 name hname
      · exact h.sound.short y hy name (List.mem_of_mem_drop hname)
    · exact h.sound.short y hy name hname

/-- Moving a file makes and unmakes no directory. -/
theorem isDirectory_eq (h : t.Relocates p q t') (hp : t.isDirectory p = false) : t'.isDirectory r = t.isDirectory r := by
  by_cases hq : q <+: r
  · obtain ⟨names, rfl⟩ := hq
    have hsource := h.sound.isDirectory_below hp (List.prefix_append p names)
    rw [h.sound.isDirectory_below h.free (List.prefix_append q names), isDirectory, h.entry_target]
    exact hsource
  · by_cases hpr : p <+: r
    · rw [h.sound.isDirectory_below hp hpr, isDirectory, h.entry_source hpr hq]
    · exact isDirectory_congr (h.entry_elsewhere hpr hq)

theorem entries_length (h : t.Relocates p q t') : t'.entries.length ≤ t.entries.length := by
  rw [h.eq, rebase_entries, List.length_map]
  exact List.length_filter_le _ _

end Relocates

/-- A file moves to where something may be made that is no directory. -/
theorem exists_move_of_file (hp : t.entry p = some (.file c)) (hfault : t.fault? q = none) (hq : t.isDirectory q = false)
    (hpq : p <+: q → p = q) : ∃ t', t.move p q = .ok t' := by
  unfold move
  rw [hp, hfault]
  cases hentry : t.entry q with
  | none =>
    dsimp only
    split
    · exact ⟨_, rfl⟩
    · rename_i hne
      rw [if_neg fun hprefix => hne (by simpa using hpq (List.isPrefixOf_iff_prefix.1 hprefix))]
      exact ⟨_, rfl⟩
  | some e =>
    cases e with
    | directory =>
      rw [isDirectory_iff.2 hentry] at hq
      cases hq
    | file c' =>
      dsimp only
      split
      · exact ⟨_, rfl⟩
      · rename_i hne
        rw [if_neg fun hprefix => hne (by simpa using hpq (List.isPrefixOf_iff_prefix.1 hprefix))]
        exact ⟨_, rfl⟩

/-! ### Moves that lose nothing -/

/-- Nothing stands at a place, or an empty file. -/
def IsSpare (t : Tree) (p : List String) : Prop := ∀ e, t.entry p = some e → ∃ c, e = .file c ∧ c.isEmpty = true

theorem IsSpare.not_isDirectory (h : t.IsSpare q) : t.isDirectory q = false := by
  by_contra hd
  obtain ⟨c, hc, -⟩ := h .directory (isDirectory_iff.1 (by simpa using hd))
  cases hc

/-- A move between places below another keeps below it what was there. -/
theorem isBelow_rebased (hp : Path.IsBelow root p) (hq : Path.IsBelow root q) :
    Path.IsBelow root (rebased p q r) ↔ Path.IsBelow root r := by
  by_cases hr : p <+: r
  · obtain ⟨names, rfl⟩ := hr
    rw [rebased_below]
    exact iff_of_true (hq.append names) (hp.append names)
  · rw [rebased_apart hr]

/-- A move to a place that is free, or that an empty file takes, loses nothing below a place around both. -/
theorem contentsBelow_move (hs : t.IsSound) (h : t.move p q = .ok t') (hspare : t.IsSpare q)
    (hp : Path.IsBelow root p) (hq : Path.IsBelow root q) : t'.contentsBelow root = t.contentsBelow root := by
  by_cases hne : p = q
  · obtain ⟨-, -, ⟨-, rfl⟩ | ⟨hinto, -⟩⟩ := eq_of_move h
    · rfl
    · exact absurd (hne ▸ List.prefix_rfl) hinto
  · have hrelocates : t.Relocates p q t' := ⟨hs, h, hne, hspare.not_isDirectory⟩
    have hkept : ∀ x : List String × Entry, heldBelow? root (rebased p q x.1, x.2) = heldBelow? root x := by
      intro x
      simp only [heldBelow?, isBelow_rebased hp hq]
    rw [contentsBelow_eq, contentsBelow_eq, hrelocates.eq, rebase_entries, List.filterMap_map, remove,
      List.filterMap_filter]
    congr 1
    refine List.filterMap_congr fun x hx => ?_
    rw [Function.comp_apply, hkept]
    by_cases hxq : x.1 = q
    · obtain ⟨c, hc, hempty⟩ := hspare x.2 (hxq ▸ hs.entry_of_mem hx (hxq ▸ hrelocates.target_ne_nil))
      simp [heldBelow?, hxq, hc, Entry.held?, hempty]
    · rw [if_pos (by simpa using hxq)]

/-- A tree as on a disk stays one when something moves to where no directory is. -/
theorem IsSound.move (hs : t.IsSound) (h : t.move p q = .ok t') (hq : t.isDirectory q = false) : t'.IsSound := by
  by_cases hne : p = q
  · obtain ⟨-, -, ⟨-, rfl⟩ | ⟨hinto, -⟩⟩ := eq_of_move h
    · exact hs
    · exact absurd (hne ▸ List.prefix_rfl) hinto
  · exact Relocates.isSound ⟨hs, h, hne, hq⟩

end Tree

end WikiTypeset.Files
