import Mathlib.Data.List.AList

/-! Tables keyed by a primary key and sessions that write rows back column by column. A session
keeps each row as it was read next to its changed copy; flushing writes exactly the columns in
which the two differ onto the row version that is committed at that moment. -/

namespace PdeOperator.Base

variable {κ ρ : Type} [DecidableEq κ]

/-- A table: a finite map from primary keys to the other columns of the row. -/
abbrev Table (κ ρ : Type) := AList fun _ : κ => ρ

/-- The value of one column after a write-back. -/
def column {α : Type} [DecidableEq α] (read work current : α) : α :=
  if work = read then current else work

@[simp] theorem column_clean {α : Type} [DecidableEq α] (read current : α) :
    column read read current = current := if_pos rfl

@[simp] theorem column_fresh {α : Type} [DecidableEq α] (read work : α) :
    column read work read = work := by
  unfold column
  split
  · next h => exact h.symm
  · rfl

theorem column_eq_or {α : Type} [DecidableEq α] (read work current : α) :
    column read work current = current ∨ column read work current = work := by
  unfold column
  split
  · exact Or.inl rfl
  · exact Or.inr rfl

/-- A write-back leaves a column as it is when the session has not changed it, or has changed it to
the value that it has. -/
theorem column_eq_current_iff {α : Type} [DecidableEq α] {read work current : α} :
    column read work current = current ↔ work = read ∨ work = current := by
  unfold column
  split
  · next h => exact iff_of_true rfl (Or.inl h)
  · next h => exact ⟨Or.inr, fun hor => hor.resolve_left h⟩

/-- A write-back sets a column to the session's value, unless the session has not changed it and
somebody else has. -/
theorem column_eq_work {α : Type} [DecidableEq α] {read work current : α}
    (h : read = work → current = read) : column read work current = work := by
  unfold column
  split
  · next hsame => exact (h hsame.symm).trans hsame.symm
  · rfl

theorem column_kept {α : Type} [DecidableEq α] {read work : α} (h : work = read) (current : α) :
    column read work current = current := if_pos h

/-- A nullable column that is set stays set. -/
def Grows {α : Type} (before after : Option α) : Prop := before.isSome = true → after.isSome = true

namespace Grows

variable {α : Type} {before after last : Option α}

theorem refl (value : Option α) : Grows value value := fun hset => hset

theorem trans (h : Grows before after) (h' : Grows after last) : Grows before last :=
  fun hset => h' (h hset)

theorem of_some (before : Option α) (value : α) : Grows before (some value) := fun _ => rfl

theorem or (before other : Option α) : Grows before (before.or other) := by
  intro hset
  rw [Option.isSome_or, hset, Bool.true_or]

/-- A session that clears no column clears none when it writes back, whatever has been committed in
between. -/
theorem column [DecidableEq α] (h : Grows before after) (current : Option α) :
    Grows current (column before after current) := by
  intro hset
  unfold Base.column
  split
  · exact hset
  · next hne =>
    cases hafter : after with
    | some value => rfl
    | none =>
        have hbefore : before = none := by
          rw [hafter] at h
          exact Option.not_isSome_iff_eq_none.mp fun hsome => Bool.false_ne_true (h hsome)
        exact absurd (hafter.trans hbefore.symm) hne

end Grows

/-- Row types that are written back column by column. -/
class WriteBack (ρ : Type) where
  writeBack : ρ → ρ → ρ → ρ
  writeBack_clean : ∀ read current, writeBack read read current = current
  writeBack_fresh : ∀ read work, writeBack read work read = work

export WriteBack (writeBack writeBack_clean writeBack_fresh)

attribute [simp] writeBack_clean writeBack_fresh

/-- A row in a session: the version that was read and the session's changed copy. -/
structure Tracked (κ ρ : Type) where
  key : κ
  read : ρ
  work : ρ

namespace Table

/-- The rows a `SELECT ... WHERE` returns. -/
def select (t : Table κ ρ) (p : κ → ρ → Bool) : List (κ × ρ) :=
  (t.entries.filter fun e => p e.1 e.2).map fun e => (e.1, e.2)

theorem mem_select {t : Table κ ρ} {p : κ → ρ → Bool} {k : κ} {r : ρ} :
    (k, r) ∈ t.select p ↔ t.lookup k = some r ∧ p k r = true := by
  simp only [select, List.mem_map, List.mem_filter, Prod.mk.injEq]
  constructor
  · rintro ⟨⟨k', r'⟩, ⟨hmem, hp⟩, rfl, rfl⟩
    exact ⟨AList.mem_lookup_iff.mpr hmem, hp⟩
  · rintro ⟨hlookup, hp⟩
    exact ⟨⟨k, r⟩, ⟨AList.mem_lookup_iff.mp hlookup, hp⟩, rfl, rfl⟩

omit [DecidableEq κ] in
theorem nodup_select (t : Table κ ρ) (p : κ → ρ → Bool) : ((t.select p).map Prod.fst).Nodup := by
  have hkeys : (t.entries.map Sigma.fst).Nodup := t.keys_nodup
  rw [select, List.map_map]
  exact hkeys.sublist (List.Sublist.map Sigma.fst List.filter_sublist)

/-- A selection grows by at most the rows that were not selected before. -/
theorem length_select_le {t t' : Table κ ρ} {p p' : κ → ρ → Bool} (extra : List κ)
    (h : ∀ k r', t'.lookup k = some r' → p' k r' = true →
      k ∈ extra ∨ ∃ r, t.lookup k = some r ∧ p k r = true) :
    (t'.select p').length ≤ (t.select p).length + extra.length := by
  have hsub : (t'.select p').map Prod.fst ⊆ (t.select p).map Prod.fst ++ extra := by
    intro k hk
    obtain ⟨⟨k, r'⟩, hmem, rfl⟩ := List.mem_map.mp hk
    obtain ⟨hlookup, hp⟩ := mem_select.mp hmem
    rcases h k r' hlookup hp with hextra | ⟨r, hr, hpr⟩
    · exact List.mem_append_right _ hextra
    · exact List.mem_append_left _ (List.mem_map.mpr ⟨(k, r), mem_select.mpr ⟨hr, hpr⟩, rfl⟩)
  have hle := (List.subperm_of_subset (nodup_select t' p') hsub).length_le
  simpa using hle

theorem mem_map_fst_select {t : Table κ ρ} {p : κ → ρ → Bool} {k : κ} :
    k ∈ (t.select p).map Prod.fst ↔ ∃ r, t.lookup k = some r ∧ p k r = true := by
  simp only [List.mem_map, Prod.exists, mem_select]
  exact ⟨fun ⟨_, r, hr, hk⟩ => hk ▸ ⟨r, hr⟩, fun ⟨r, hr⟩ => ⟨k, r, hr, rfl⟩⟩

/-- Keys that are all selected. -/
theorem length_le_select {t : Table κ ρ} {p : κ → ρ → Bool} {keys : List κ} (hnodup : keys.Nodup)
    (h : ∀ k ∈ keys, ∃ r, t.lookup k = some r ∧ p k r = true) :
    keys.length ≤ (t.select p).length := by
  have hsub : keys ⊆ (t.select p).map Prod.fst := fun k hk => mem_map_fst_select.mpr (h k hk)
  simpa using (List.subperm_of_subset hnodup hsub).length_le

/-- A selection that gains nothing and loses a row shrinks. -/
theorem length_select_lt {t t' : Table κ ρ} {p p' : κ → ρ → Bool} {k : κ}
    (h : ∀ k, (∃ r, t'.lookup k = some r ∧ p' k r = true) → ∃ r, t.lookup k = some r ∧ p k r = true)
    (hk : ∃ r, t.lookup k = some r ∧ p k r = true)
    (hgone : ¬∃ r, t'.lookup k = some r ∧ p' k r = true) :
    (t'.select p').length < (t.select p).length := by
  have hnodup : (k :: (t'.select p').map Prod.fst).Nodup := by
    refine List.nodup_cons.mpr ⟨?_, nodup_select t' p'⟩
    rwa [mem_map_fst_select]
  have hle : (k :: (t'.select p').map Prod.fst).length ≤ (t.select p).length := by
    apply length_le_select hnodup
    intro key hkey
    rcases List.mem_cons.mp hkey with rfl | hkey
    · exact hk
    · exact h key (mem_map_fst_select.mp hkey)
  rw [List.length_cons, List.length_map] at hle
  omega

/-- A selection that gains the rows of a list grows by its length. -/
theorem length_select_eq {t t' : Table κ ρ} {p p' : κ → ρ → Bool} {extra : List κ}
    (hnodup : extra.Nodup) (hnew : ∀ k ∈ extra, ∀ r, t.lookup k = some r → p k r = false)
    (h : ∀ k, (∃ r, t'.lookup k = some r ∧ p' k r = true) ↔
      k ∈ extra ∨ ∃ r, t.lookup k = some r ∧ p k r = true) :
    (t'.select p').length = (t.select p).length + extra.length := by
  have hall : (extra ++ (t.select p).map Prod.fst).Nodup := by
    refine List.nodup_append.mpr ⟨hnodup, nodup_select t p, ?_⟩
    rintro k hk _ hmem rfl
    obtain ⟨r, hr, hp⟩ := mem_map_fst_select.mp hmem
    rw [hnew k hk r hr] at hp
    cases hp
  have hperm : ((t'.select p').map Prod.fst).Perm (extra ++ (t.select p).map Prod.fst) := by
    refine (List.perm_ext_iff_of_nodup (nodup_select t' p') hall).mpr fun k => ?_
    rw [mem_map_fst_select, List.mem_append, mem_map_fst_select]
    exact h k
  have hlength := hperm.length_eq
  simp only [List.length_append, List.length_map] at hlength
  omega

variable [DecidableEq ρ] [WriteBack ρ]

/-- Write one tracked row back; a changed row that is no longer in the table is an error. -/
def flush (t : Table κ ρ) (x : Tracked κ ρ) : Option (Table κ ρ) :=
  if x.work = x.read then some t
  else (t.lookup x.key).map fun current => t.insert x.key (writeBack x.read x.work current)

/-- Write all rows of a session back in one transaction. -/
def flushAll (t : Table κ ρ) : List (Tracked κ ρ) → Option (Table κ ρ)
  | [] => some t
  | x :: xs => (flush t x).bind fun t' => flushAll t' xs

theorem lookup_flush_of_ne {t t' : Table κ ρ} {x : Tracked κ ρ} (h : flush t x = some t') {k : κ}
    (hk : k ≠ x.key) : t'.lookup k = t.lookup k := by
  unfold flush at h
  split at h
  · rw [Option.some.injEq] at h
    rw [h]
  · obtain ⟨current, -, rfl⟩ := Option.map_eq_some_iff.mp h
    exact AList.lookup_insert_ne hk

theorem lookup_flush_self {t t' : Table κ ρ} {x : Tracked κ ρ} (h : flush t x = some t') :
    t'.lookup x.key = (t.lookup x.key).map (writeBack x.read x.work) := by
  unfold flush at h
  split at h
  · next hclean =>
    rw [Option.some.injEq] at h
    subst h
    cases hrow : t.lookup x.key with
    | none => rfl
    | some row => simp [hclean]
  · obtain ⟨current, hrow, rfl⟩ := Option.map_eq_some_iff.mp h
    rw [AList.lookup_insert, hrow, Option.map_some]

theorem lookup_flushAll_of_notMem {t t' : Table κ ρ} {xs : List (Tracked κ ρ)}
    (h : flushAll t xs = some t') {k : κ} (hk : k ∉ xs.map Tracked.key) :
    t'.lookup k = t.lookup k := by
  induction xs generalizing t with
  | nil =>
      rw [flushAll, Option.some.injEq] at h
      rw [h]
  | cons x xs ih =>
      rw [List.map_cons, List.mem_cons, not_or] at hk
      obtain ⟨mid, hmid, hrest⟩ := Option.bind_eq_some_iff.mp h
      rw [ih hrest hk.2, lookup_flush_of_ne hmid hk.1]

theorem lookup_flushAll_of_mem {t t' : Table κ ρ} {xs : List (Tracked κ ρ)}
    (h : flushAll t xs = some t') (hnodup : (xs.map Tracked.key).Nodup) {x : Tracked κ ρ}
    (hx : x ∈ xs) : t'.lookup x.key = (t.lookup x.key).map (writeBack x.read x.work) := by
  induction xs generalizing t with
  | nil => simp at hx
  | cons y ys ih =>
      rw [List.map_cons, List.nodup_cons] at hnodup
      obtain ⟨mid, hmid, hrest⟩ := Option.bind_eq_some_iff.mp h
      rcases List.mem_cons.mp hx with rfl | hys
      · rw [lookup_flushAll_of_notMem hrest hnodup.1, lookup_flush_self hmid]
      · have hne : x.key ≠ y.key := fun heq =>
          hnodup.1 (heq ▸ List.mem_map_of_mem hys)
        rw [ih hrest hnodup.2 hys, lookup_flush_of_ne hmid hne]

/-- A flush adds no row and takes none away. -/
theorem isSome_flush {t t' : Table κ ρ} {x : Tracked κ ρ} (h : flush t x = some t') (k : κ) :
    (t'.lookup k).isSome = (t.lookup k).isSome := by
  by_cases hk : k = x.key
  · rw [hk, lookup_flush_self h, Option.isSome_map]
  · rw [lookup_flush_of_ne h hk]

theorem isSome_flushAll {t t' : Table κ ρ} {xs : List (Tracked κ ρ)} (h : flushAll t xs = some t')
    (k : κ) : (t'.lookup k).isSome = (t.lookup k).isSome := by
  induction xs generalizing t with
  | nil =>
      cases h
      rfl
  | cons x xs ih =>
      obtain ⟨mid, hmid, hrest⟩ := Option.bind_eq_some_iff.mp h
      rw [ih hrest, isSome_flush hmid]

/-- After a flush a row is the old row or the write-back of a tracked copy of it. -/
theorem lookup_flushAll_cases {t t' : Table κ ρ} {xs : List (Tracked κ ρ)}
    (h : flushAll t xs = some t') (hnodup : (xs.map Tracked.key).Nodup) (k : κ) :
    (k ∉ xs.map Tracked.key ∧ t'.lookup k = t.lookup k) ∨
      ∃ x ∈ xs, x.key = k ∧ t'.lookup k = (t.lookup k).map (writeBack x.read x.work) := by
  by_cases hk : k ∈ xs.map Tracked.key
  · obtain ⟨x, hx, rfl⟩ := List.mem_map.mp hk
    exact Or.inr ⟨x, hx, rfl, lookup_flushAll_of_mem h hnodup hx⟩
  · exact Or.inl ⟨hk, lookup_flushAll_of_notMem h hk⟩

/-- A session whose rows are all still there can be flushed. -/
theorem exists_flushAll {t : Table κ ρ} {xs : List (Tracked κ ρ)}
    (h : ∀ x ∈ xs, (t.lookup x.key).isSome = true) : ∃ t', flushAll t xs = some t' := by
  induction xs generalizing t with
  | nil => exact ⟨t, rfl⟩
  | cons x xs ih =>
      obtain ⟨mid, hmid⟩ : ∃ mid, flush t x = some mid := by
        unfold flush
        split
        · exact ⟨t, rfl⟩
        · obtain ⟨current, hcurrent⟩ := Option.isSome_iff_exists.mp (h x List.mem_cons_self)
          exact ⟨_, by rw [hcurrent, Option.map_some]⟩
      have hrest : ∀ y ∈ xs, (mid.lookup y.key).isSome = true := by
        intro y hy
        have hsome := h y (List.mem_cons_of_mem _ hy)
        by_cases hkey : y.key = x.key
        · rw [hkey, lookup_flush_self hmid, Option.isSome_map]
          exact hkey ▸ hsome
        · rw [lookup_flush_of_ne hmid hkey]
          exact hsome
      obtain ⟨t', ht'⟩ := ih hrest
      exact ⟨t', by rw [flushAll, hmid, Option.bind_some, ht']⟩

end Table
end PdeOperator.Base
