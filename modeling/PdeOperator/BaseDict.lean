import Mathlib.Data.List.Induction
import Mathlib.Data.List.Nodup
import Mathlib.Tactic.Tauto
import PdeOperator.BaseSystem

/-! Python dictionaries in insertion order, as lists of pairs with distinct keys: assignment replaces the
value where the key stands, or appends the pair. -/

namespace PdeOperator.Base

namespace Dict

section Assignment

variable {κ ν : Type} [DecidableEq κ]

/-- `d[key] = value` -/
def set (key : κ) (value : ν) : List (κ × ν) → List (κ × ν)
  | [] => [(key, value)]
  | (k, v) :: rest => if k = key then (key, value) :: rest else (k, v) :: set key value rest

/-- The value of a key is changed where it stands. -/
def modify (key : κ) (change : ν → ν) : List (κ × ν) → List (κ × ν)
  | [] => []
  | (k, v) :: rest => if k = key then (k, change v) :: rest else (k, v) :: modify key change rest

/-- A dictionary comprehension: the last pair of a key wins. -/
def ofPairs (pairs : List (κ × ν)) : List (κ × ν) :=
  pairs.foldl (fun d pair => set pair.1 pair.2 d) []

theorem mem_keys_set {key k : κ} {value : ν} {d : List (κ × ν)} :
    k ∈ (set key value d).map Prod.fst ↔ k = key ∨ k ∈ d.map Prod.fst := by
  induction d with
  | nil => simp [set]
  | cons pair d ih =>
      rw [set]
      split
      · next heq =>
        subst heq
        simp
      · rw [List.map_cons, List.mem_cons, ih, List.map_cons, List.mem_cons]
        tauto

theorem nodup_set {key : κ} {value : ν} {d : List (κ × ν)} (h : (d.map Prod.fst).Nodup) :
    ((set key value d).map Prod.fst).Nodup := by
  induction d with
  | nil => simp [set]
  | cons pair d ih =>
      rw [List.map_cons, List.nodup_cons] at h
      rw [set]
      split
      · next heq =>
        rw [List.map_cons, List.nodup_cons]
        exact ⟨heq ▸ h.1, h.2⟩
      · next hne =>
        rw [List.map_cons, List.nodup_cons, mem_keys_set, not_or]
        exact ⟨⟨hne, h.1⟩, ih h.2⟩

theorem nodup_ofPairs (pairs : List (κ × ν)) : ((ofPairs pairs).map Prod.fst).Nodup := by
  have hfold : ∀ d : List (κ × ν), (d.map Prod.fst).Nodup →
      ((pairs.foldl (fun d pair => set pair.1 pair.2 d) d).map Prod.fst).Nodup := by
    induction pairs with
    | nil => exact fun d hd => hd
    | cons pair pairs ih => exact fun d hd => ih _ (nodup_set hd)
  exact hfold [] List.nodup_nil

theorem mem_set {key : κ} {value : ν} {d : List (κ × ν)} {pair : κ × ν} (h : pair ∈ set key value d) :
    pair = (key, value) ∨ pair ∈ d := by
  induction d with
  | nil => exact Or.inl (List.mem_singleton.mp h)
  | cons first d ih =>
      rw [set] at h
      split at h
      · exact (List.mem_cons.mp h).imp_right (List.mem_cons_of_mem _)
      · rcases List.mem_cons.mp h with rfl | h
        · exact Or.inr List.mem_cons_self
        · exact (ih h).imp_right (List.mem_cons_of_mem _)

theorem mem_of_mem_ofPairs {pairs : List (κ × ν)} {pair : κ × ν} (h : pair ∈ ofPairs pairs) :
    pair ∈ pairs := by
  have hfold : ∀ d : List (κ × ν), pair ∈ pairs.foldl (fun d pair => set pair.1 pair.2 d) d →
      pair ∈ d ∨ pair ∈ pairs := by
    clear h
    induction pairs with
    | nil => exact fun d hd => Or.inl hd
    | cons first pairs ih =>
        intro d hd
        rcases ih _ hd with hset | hmem
        · rcases mem_set hset with rfl | hd
          · exact Or.inr List.mem_cons_self
          · exact Or.inl hd
        · exact Or.inr (List.mem_cons_of_mem _ hmem)
  exact (hfold [] h).resolve_left List.not_mem_nil

theorem set_of_notMem {key : κ} {value : ν} {d : List (κ × ν)} (h : key ∉ d.map Prod.fst) :
    set key value d = d ++ [(key, value)] := by
  induction d with
  | nil => rfl
  | cons pair d ih =>
      rw [List.map_cons, List.mem_cons, not_or] at h
      rw [set, if_neg (fun heq => h.1 heq.symm), ih h.2]
      rfl

/-- Pairs with distinct keys are kept as they are. -/
theorem ofPairs_of_nodup {pairs : List (κ × ν)} (h : (pairs.map Prod.fst).Nodup) :
    ofPairs pairs = pairs := by
  have hfold : ∀ d : List (κ × ν), ((d ++ pairs).map Prod.fst).Nodup →
      pairs.foldl (fun d pair => set pair.1 pair.2 d) d = d ++ pairs := by
    clear h
    induction pairs with
    | nil => exact fun d _ => (List.append_nil d).symm
    | cons pair pairs ih =>
        intro d hd
        have hnew : pair.1 ∉ d.map Prod.fst := by
          rw [List.map_append, List.map_cons, List.nodup_append] at hd
          exact fun hmem => hd.2.2 _ hmem _ List.mem_cons_self rfl
        rw [List.foldl_cons, set_of_notMem hnew, ih, List.append_assoc, List.singleton_append]
        rwa [List.append_assoc, List.singleton_append]
  exact (hfold [] h).trans (List.nil_append pairs)

end Assignment

section Lookup

variable {κ ν : Type} [DecidableEq κ] [BEq κ] [LawfulBEq κ] {key : κ} {value : ν} {d : List (κ × ν)}

theorem lookup_set_self : (set key value d).lookup key = some value := by
  induction d with
  | nil => rw [set, List.lookup_cons, beq_self_eq_true]
  | cons pair d ih =>
      obtain ⟨k, v⟩ := pair
      rw [set]
      by_cases hkey : k = key
      · rw [if_pos hkey, List.lookup_cons, beq_self_eq_true]
      · rw [if_neg hkey, List.lookup_cons, beq_false_of_ne (Ne.symm hkey)]
        exact ih

theorem lookup_set_of_ne {other : κ} (hne : other ≠ key) : (set key value d).lookup other = d.lookup other := by
  induction d with
  | nil => rw [set, List.lookup_cons, beq_false_of_ne hne]
  | cons pair d ih =>
      obtain ⟨k, v⟩ := pair
      rw [set]
      by_cases hkey : k = key
      · subst hkey
        rw [if_pos rfl, List.lookup_cons, List.lookup_cons, beq_false_of_ne hne]
      · rw [if_neg hkey, List.lookup_cons, List.lookup_cons, ih]

end Lookup

section Modification

variable {κ ν : Type} [DecidableEq κ] [BEq κ] [LawfulBEq κ] {key : κ} {value : ν} {change : ν → ν}
  {d : List (κ × ν)}

variable (change) in
/-- The pair of a key stands between others, of which none changes. -/
theorem modify_of_lookup (h : d.lookup key = some value) :
    ∃ before after, d = before ++ (key, value) :: after ∧
      modify key change d = before ++ (key, change value) :: after := by
  induction d with
  | nil => cases h
  | cons pair d ih =>
      obtain ⟨k, v⟩ := pair
      rw [List.lookup_cons] at h
      rw [modify]
      by_cases hkey : k = key
      · subst hkey
        rw [beq_self_eq_true] at h
        obtain rfl := Option.some.inj h
        exact ⟨[], d, rfl, if_pos rfl⟩
      · rw [beq_false_of_ne (Ne.symm hkey)] at h
        obtain ⟨before, after, hd, hmodify⟩ := ih h
        refine ⟨(k, v) :: before, after, congrArg _ hd, ?_⟩
        rw [if_neg hkey, hmodify]
        rfl

theorem lookup_modify_self (h : d.lookup key = some value) :
    (modify key change d).lookup key = some (change value) := by
  induction d with
  | nil => cases h
  | cons pair d ih =>
      obtain ⟨k, v⟩ := pair
      rw [List.lookup_cons] at h
      rw [modify]
      by_cases hkey : k = key
      · subst hkey
        rw [beq_self_eq_true] at h
        obtain rfl := Option.some.inj h
        rw [if_pos rfl, List.lookup_cons, beq_self_eq_true]
      · rw [beq_false_of_ne (Ne.symm hkey)] at h
        rw [if_neg hkey, List.lookup_cons, beq_false_of_ne (Ne.symm hkey)]
        exact ih h

theorem lookup_modify_of_ne {other : κ} (hne : other ≠ key) :
    (modify key change d).lookup other = d.lookup other := by
  induction d with
  | nil => rfl
  | cons pair d ih =>
      obtain ⟨k, v⟩ := pair
      rw [modify]
      by_cases hkey : k = key
      · subst hkey
        rw [if_pos rfl, List.lookup_cons, List.lookup_cons, beq_false_of_ne hne]
      · rw [if_neg hkey, List.lookup_cons, List.lookup_cons, ih]

end Modification

/-- Looking a key up finds the pair of the key. -/
theorem lookup_eq_some_iff {κ ν : Type} [BEq κ] [LawfulBEq κ] {d : List (κ × ν)}
    (h : (d.map Prod.fst).Nodup) {key : κ} {value : ν} :
    d.lookup key = some value ↔ (key, value) ∈ d := by
  induction d with
  | nil => simp
  | cons pair d ih =>
      obtain ⟨k, v⟩ := pair
      rw [List.map_cons, List.nodup_cons] at h
      rw [List.lookup_cons]
      by_cases hkey : key = k
      · subst hkey
        rw [beq_self_eq_true, List.mem_cons, Prod.mk.injEq]
        constructor
        · intro heq
          exact Or.inl ⟨rfl, (Option.some.inj heq).symm⟩
        · rintro (⟨-, rfl⟩ | hmem)
          · rfl
          · exact absurd (List.mem_map_of_mem hmem) h.1
      · rw [beq_false_of_ne hkey, List.mem_cons, Prod.mk.injEq]
        simp only [hkey, false_and, false_or]
        exact ih h.2

/-- A comprehension over the items keeps the keys and their order. -/
theorem keys_of_mapM_ok {ε κ α β : Type} {f : κ × α → Except ε β} {entries : List (κ × α)}
    {results : List (κ × β)}
    (h : entries.mapM (fun entry => (f entry).map (Prod.mk entry.1)) = .ok results) :
    results.map Prod.fst = entries.map Prod.fst := by
  have hturns := mapM_eq_ok_iff.mp h
  clear h
  induction hturns with
  | nil => rfl
  | cons hturn _ ih =>
      obtain ⟨result, -, heq⟩ := map_eq_ok.mp hturn
      rw [List.map_cons, List.map_cons, ih, ← heq]

/-- Dropping items and changing values keeps the order of the keys. -/
theorem keys_filterMap_sublist {κ α β : Type} {f : κ × α → Option (κ × β)}
    (hf : ∀ entry result, f entry = some result → result.1 = entry.1) (d : List (κ × α)) :
    ((d.filterMap f).map Prod.fst).Sublist (d.map Prod.fst) := by
  induction d with
  | nil => exact List.Sublist.slnil
  | cons entry d ih =>
      rw [List.filterMap_cons, List.map_cons]
      split
      · exact ih.cons _
      · next result hresult =>
        rw [List.map_cons, hf entry result hresult]
        exact ih.cons_cons _

end Dict

section Distinct

variable {α : Type} [DecidableEq α]

/-- The items in order, each at its first place only. -/
def distinct (items : List α) : List α :=
  items.foldl (fun out item => if item ∈ out then out else out ++ [item]) []

theorem distinct_concat (items : List α) (item : α) : distinct (items ++ [item]) =
    if item ∈ distinct items then distinct items else distinct items ++ [item] := by
  rw [distinct, List.foldl_append]
  rfl

theorem mem_distinct {items : List α} {item : α} : item ∈ distinct items ↔ item ∈ items := by
  induction items using List.reverseRecOn with
  | nil => exact Iff.rfl
  | append_singleton items last ih =>
      rw [distinct_concat]
      split
      · next hlast =>
        rw [ih, List.mem_append, List.mem_singleton]
        constructor
        · exact Or.inl
        · rintro (hmem | rfl)
          · exact hmem
          · exact ih.mp hlast
      · rw [List.mem_append, List.mem_append, ih]

theorem nodup_distinct (items : List α) : (distinct items).Nodup := by
  induction items using List.reverseRecOn with
  | nil => exact List.nodup_nil
  | append_singleton items last ih =>
      rw [distinct_concat]
      split
      · exact ih
      · next hlast =>
        refine List.nodup_append.mpr ⟨ih, List.nodup_singleton last, fun a ha b hb heq => ?_⟩
        rw [List.mem_singleton] at hb
        exact hlast (hb ▸ heq ▸ ha)

theorem distinct_of_nodup {items : List α} (h : items.Nodup) : distinct items = items := by
  induction items using List.reverseRecOn with
  | nil => rfl
  | append_singleton items last ih =>
      have hitems := h.of_append_left
      have hnew : last ∉ items := fun hmem =>
        List.disjoint_of_nodup_append h hmem (List.mem_singleton_self last)
      rw [distinct_concat, ih hitems, if_neg hnew]

end Distinct
end PdeOperator.Base
