import Mathlib.Data.Set.Basic
import Mathlib.Logic.Function.Basic

/-! Caches whose entries are validated by a mark. A read asks the source for its mark, serves the entry
that carries it, and fetches the value anew otherwise. -/

namespace PdeOperator.Base

/-- The entry of a query, and what its source shows: a mark, and a value to fetch. -/
structure Marked (κ ι ρ μ α : Type) where
  key : ι → κ
  mark : ι → ρ → Option μ
  fetch : ι → ρ → Option α

namespace Marked

variable {κ ι ρ μ α : Type} [DecidableEq κ] [DecidableEq μ] (C : Marked κ ι ρ μ α)
  {entries : κ → Option (μ × α)} {allowed : ι → Set ρ} {right : ι → ρ → α → Prop}

/-- What a read fetches replaces the entry, whether it succeeds or not. -/
def refetch (entries : κ → Option (μ × α)) (i : ι) (r : ρ) (mark : μ) : (κ → Option (μ × α)) × Option α :=
  match C.fetch i r with
  | none => (Function.update entries (C.key i) none, none)
  | some value => (Function.update entries (C.key i) (some (mark, value)), some value)

def read (entries : κ → Option (μ × α)) (i : ι) (r : ρ) : (κ → Option (μ × α)) × Option α :=
  match C.mark i r, entries (C.key i) with
  | none, _ => (entries, none)
  | some mark, none => C.refetch entries i r mark
  | some mark, some (kept, value) =>
      if kept = mark then (entries, some value) else C.refetch entries i r mark

/-- The reads of a run with what they are served. -/
def served : (κ → Option (μ × α)) → List (ι × ρ) → List (ι × ρ × Option α)
  | _, [] => []
  | entries, (i, r) :: reads => (i, r, (C.read entries i r).2) :: served (C.read entries i r).1 reads

theorem mem_served_of_mem {reads : List (ι × ρ)} {i : ι} {r : ρ} (h : (i, r) ∈ reads) :
    ∃ result, (i, r, result) ∈ C.served entries reads := by
  induction reads generalizing entries with
  | nil => exact absurd h List.not_mem_nil
  | cons read reads ih =>
      rcases List.mem_cons.mp h with rfl | h
      · exact ⟨_, List.mem_cons_self⟩
      · obtain ⟨result, hresult⟩ := ih h
        exact ⟨result, List.mem_cons_of_mem _ hresult⟩

theorem mem_of_mem_served {reads : List (ι × ρ)} {i : ι} {r : ρ} {result : Option α}
    (h : (i, r, result) ∈ C.served entries reads) : (i, r) ∈ reads := by
  induction reads generalizing entries with
  | nil => exact absurd h List.not_mem_nil
  | cons read reads ih =>
      rcases List.mem_cons.mp h with heq | h
      · cases heq
        exact List.mem_cons_self
      · exact List.mem_cons_of_mem _ (ih h)

/-- Different queries of a run have different entries. -/
def KeysApart (reads : List (ι × ρ)) : Prop :=
  ∀ read ∈ reads, ∀ read' ∈ reads, C.key read.1 = C.key read'.1 → read.1 = read'.1

/-- A value fetched under a mark is right for every source with that mark. -/
def Steady (allowed : ι → Set ρ) (right : ι → ρ → α → Prop) : Prop :=
  ∀ i, ∀ r ∈ allowed i, ∀ r' ∈ allowed i, ∀ mark, C.mark i r = some mark → C.mark i r' = some mark →
    ∀ value, C.fetch i r' = some value → right i r value

/-- Each entry was fetched from an allowed source that showed its mark, for a query with that entry. -/
def Kept (allowed : ι → Set ρ) (known : Set ι) (entries : κ → Option (μ × α)) : Prop :=
  ∀ k mark value, entries k = some (mark, value) → ∃ i ∈ known, C.key i = k ∧
    ∃ r ∈ allowed i, C.mark i r = some mark ∧ C.fetch i r = some value

variable {C}

theorem read_of_none {i : ι} {r : ρ} (hmark : C.mark i r = none) : C.read entries i r = (entries, none) := by
  rw [read, hmark]

theorem read_of_marked {i : ι} {r : ρ} {mark : μ} {value : α} (hmark : C.mark i r = some mark)
    (hentry : entries (C.key i) = some (mark, value)) : C.read entries i r = (entries, some value) := by
  rw [read, hmark, hentry]
  exact if_pos rfl

theorem read_of_forall_ne {i : ι} {r : ρ} {mark : μ} (hmark : C.mark i r = some mark)
    (hentry : ∀ value, entries (C.key i) ≠ some (mark, value)) :
    C.read entries i r = C.refetch entries i r mark := by
  rw [read, hmark]
  cases hkept : entries (C.key i) with
  | none => rfl
  | some entry =>
      refine if_neg fun heq => hentry entry.2 ?_
      rw [hkept, ← heq]

/-- The three kinds of reads. -/
theorem read_cases (entries : κ → Option (μ × α)) (i : ι) (r : ρ) :
    (C.mark i r = none ∧ C.read entries i r = (entries, none)) ∨
    (∃ mark value, C.mark i r = some mark ∧ entries (C.key i) = some (mark, value) ∧
      C.read entries i r = (entries, some value)) ∨
    ∃ mark, C.mark i r = some mark ∧ C.read entries i r = C.refetch entries i r mark := by
  cases hmark : C.mark i r with
  | none => exact Or.inl ⟨rfl, read_of_none hmark⟩
  | some mark =>
      by_cases hentry : ∃ value, entries (C.key i) = some (mark, value)
      · obtain ⟨value, hvalue⟩ := hentry
        exact Or.inr (Or.inl ⟨mark, value, rfl, hvalue, read_of_marked hmark hvalue⟩)
      · exact Or.inr (Or.inr ⟨mark, rfl, read_of_forall_ne hmark fun value h => hentry ⟨value, h⟩⟩)

omit [DecidableEq μ] in
theorem kept_update {known : Set ι} {i : ι} {entry : Option (μ × α)} (h : C.Kept allowed known entries)
    (hentry : ∀ mark value, entry = some (mark, value) → i ∈ known ∧
      ∃ r ∈ allowed i, C.mark i r = some mark ∧ C.fetch i r = some value) :
    C.Kept allowed known (Function.update entries (C.key i) entry) := by
  intro k mark value hk
  by_cases hkey : k = C.key i
  · subst hkey
    rw [Function.update_self] at hk
    obtain ⟨hi, hfetched⟩ := hentry mark value hk
    exact ⟨i, hi, rfl, hfetched⟩
  · rw [Function.update_of_ne hkey] at hk
    exact h k mark value hk

omit [DecidableEq μ] in
theorem kept_refetch {known : Set ι} {i : ι} {r : ρ} {mark : μ} (h : C.Kept allowed known entries)
    (hi : i ∈ known) (hr : r ∈ allowed i) (hmark : C.mark i r = some mark) :
    C.Kept allowed known (C.refetch entries i r mark).1 := by
  rw [refetch]
  cases hfetch : C.fetch i r with
  | none => exact kept_update h nofun
  | some value =>
      refine kept_update h fun mark' value' heq => ⟨hi, r, hr, ?_⟩
      cases heq
      exact ⟨hmark, hfetch⟩

/-- A read keeps the entries right. -/
theorem kept_read {known : Set ι} {i : ι} {r : ρ} (h : C.Kept allowed known entries) (hi : i ∈ known)
    (hr : r ∈ allowed i) : C.Kept allowed known (C.read entries i r).1 := by
  rcases C.read_cases entries i r with ⟨-, hread⟩ | ⟨mark, value, -, -, hread⟩ | ⟨mark, hmark, hread⟩
  · rw [hread]
    exact h
  · rw [hread]
    exact h
  · rw [hread]
    exact kept_refetch h hi hr hmark

omit [DecidableEq μ] in
theorem right_refetch {i : ι} {r : ρ} {mark : μ} {value : α} (hsteady : C.Steady allowed right)
    (hr : r ∈ allowed i) (hmark : C.mark i r = some mark) (h : (C.refetch entries i r mark).2 = some value) :
    right i r value := by
  rw [refetch] at h
  cases hfetch : C.fetch i r with
  | none =>
      rw [hfetch] at h
      cases h
  | some fetched =>
      rw [hfetch] at h
      cases h
      exact hsteady i r hr r hr mark hmark hmark value hfetch

/-- A read from kept entries is served a right value. -/
theorem right_read {known : Set ι} {i : ι} {r : ρ} {value : α} (hsteady : C.Steady allowed right)
    (hapart : ∀ j ∈ known, C.key j = C.key i → j = i) (h : C.Kept allowed known entries)
    (hr : r ∈ allowed i) (hserved : (C.read entries i r).2 = some value) : right i r value := by
  rcases C.read_cases entries i r with ⟨-, hread⟩ | ⟨mark, kept, hmark, hentry, hread⟩ | ⟨mark, hmark, hread⟩
  · rw [hread] at hserved
    cases hserved
  · rw [hread] at hserved
    cases hserved
    obtain ⟨j, hj, hkey, r', hr', hmark', hfetch⟩ := h _ _ _ hentry
    obtain rfl := hapart j hj hkey
    exact hsteady j r hr r' hr' mark hmark hmark' value hfetch
  · rw [hread] at hserved
    exact right_refetch hsteady hr hmark hserved

theorem right_served (known : Set ι) (hsteady : C.Steady allowed right)
    (hapart : ∀ i ∈ known, ∀ j ∈ known, C.key j = C.key i → j = i) {reads : List (ι × ρ)}
    (hreads : ∀ read ∈ reads, read.1 ∈ known ∧ read.2 ∈ allowed read.1) (h : C.Kept allowed known entries) :
    ∀ i r value, (i, r, some value) ∈ C.served entries reads → right i r value := by
  induction reads generalizing entries with
  | nil => exact fun _ _ _ hmem => absurd hmem List.not_mem_nil
  | cons read reads ih =>
      obtain ⟨⟨hi, hr⟩, hrest⟩ := List.forall_mem_cons.mp hreads
      intro i r value hmem
      rcases List.mem_cons.mp hmem with heq | hmem
      · obtain ⟨rfl, hrest⟩ := Prod.mk.inj heq
        obtain ⟨rfl, hvalue⟩ := Prod.mk.inj hrest
        exact right_read hsteady (hapart _ hi) h hr hvalue.symm
      · exact ih hrest (kept_read h hi hr) i r value hmem

/-- Two reads show what a cache that is not steady does. -/
theorem served_twice {i : ι} {r r' : ρ} {mark : μ} {value : α} (hmark : C.mark i r = some mark)
    (hmark' : C.mark i r' = some mark) (hfetch : C.fetch i r' = some value) :
    C.served (fun _ => none) [(i, r'), (i, r)] = [(i, r', some value), (i, r, some value)] := by
  have hfirst : C.read (fun _ => none) i r' =
      (Function.update (fun _ => none) (C.key i) (some (mark, value)), some value) := by
    rw [read_of_forall_ne hmark' fun _ => (Option.some_ne_none _).symm, refetch, hfetch]
  have hsecond : (C.read (Function.update (fun _ => none) (C.key i) (some (mark, value))) i r).2 =
      some value := by
    rw [read_of_marked hmark (Function.update_self _ _ _)]
  rw [served, served, served, hfirst, hsecond]

/-- Every run is served right values exactly if the sources are steady. -/
theorem served_right_iff :
    (∀ reads : List (ι × ρ), (∀ read ∈ reads, read.2 ∈ allowed read.1) → C.KeysApart reads →
      ∀ i r value, (i, r, some value) ∈ C.served (fun _ => none) reads → right i r value) ↔
      C.Steady allowed right := by
  constructor
  · intro h i r hr r' hr' mark hmark hmark' value hfetch
    have hreads : ∀ read ∈ [(i, r'), (i, r)], read.1 = i ∧ read.2 ∈ allowed read.1 := by
      simp only [List.forall_mem_cons]
      exact ⟨⟨trivial, hr'⟩, ⟨trivial, hr⟩, nofun⟩
    have hall := h [(i, r'), (i, r)] (fun read hread => (hreads read hread).2)
      fun read hread read' hread' _ => (hreads read hread).1.trans (hreads read' hread').1.symm
    rw [served_twice hmark hmark' hfetch] at hall
    exact hall i r value (List.mem_cons_of_mem _ List.mem_cons_self)
  · intro hsteady reads hallowed hapart
    refine right_served {i | ∃ read ∈ reads, read.1 = i} hsteady ?_
      (fun read hread => ⟨⟨read, hread, rfl⟩, hallowed read hread⟩) nofun
    intro i hi j hj hkey
    obtain ⟨read, hread, rfl⟩ := hi
    obtain ⟨read', hread', rfl⟩ := hj
    exact hapart read' hread' read hread hkey

end Marked

end PdeOperator.Base
