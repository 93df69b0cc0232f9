import Mathlib.Data.List.Basic

/-! The history of a browser tab: entries, of which one is the current one. A push drops the entries in front of
the current one. -/

namespace PdeOperator.Base

@[ext] structure History (α : Type) where
  entries : List α
  here : Nat
  here_lt : here < entries.length
  deriving DecidableEq

namespace History

variable {α : Type}

def start (x : α) : History α := ⟨[x], 0, Nat.zero_lt_one⟩

def current (h : History α) : α := h.entries.get ⟨h.here, h.here_lt⟩

def replace (h : History α) (x : α) : History α where
  entries := h.entries.set h.here x
  here := h.here
  here_lt := by rw [List.length_set]; exact h.here_lt

def push (h : History α) (x : α) : History α where
  entries := h.entries.take (h.here + 1) ++ [x]
  here := h.here + 1
  here_lt := by
    have hlt := h.here_lt
    rw [List.length_append, List.length_take, List.length_singleton]
    omega

def travel (h : History α) (j : Nat) : Option (History α) :=
  if hj : j < h.entries.length then some { entries := h.entries, here := j, here_lt := hj } else none

variable {h h' : History α} {p : α → Prop} {x : α} {j : Nat}

theorem current_mem (h : History α) : h.current ∈ h.entries := List.get_mem _ _

theorem getElem?_here (h : History α) : h.entries[h.here]? = some h.current :=
  List.getElem?_eq_getElem h.here_lt

theorem current_eq_iff : h.current = x ↔ h.entries[h.here]? = some x := by
  rw [getElem?_here, Option.some.injEq]

@[simp] theorem current_replace : (h.replace x).current = x := by
  rw [current_eq_iff]
  exact List.getElem?_set_self h.here_lt

@[simp] theorem current_push : (h.push x).current = x := by
  have hlength : (h.entries.take (h.here + 1)).length = h.here + 1 :=
    List.length_take_of_le h.here_lt
  rw [current_eq_iff]
  show (h.entries.take (h.here + 1) ++ [x])[h.here + 1]? = some x
  rw [List.getElem?_append_right (by omega), hlength, Nat.sub_self]
  rfl

theorem replace_current (h : History α) : h.replace h.current = h := by
  ext1
  · exact List.set_getElem_self h.here_lt
  · rfl

theorem replace_replace {y : α} : (h.replace x).replace y = h.replace y := by
  ext1
  · exact List.set_set x
  · rfl

theorem replace_push {y : α} : (h.push x).replace y = h.push y := by
  have hlength : (h.entries.take (h.here + 1)).length = h.here + 1 := List.length_take_of_le h.here_lt
  ext1
  · show (h.entries.take (h.here + 1) ++ [x]).set (h.here + 1) y = h.entries.take (h.here + 1) ++ [y]
    rw [List.set_append_right _ _ (by omega), hlength, Nat.sub_self]
    rfl
  · rfl

theorem travel_eq_some : h.travel j = some h' ↔ h'.entries = h.entries ∧ h'.here = j := by
  unfold travel
  constructor
  · intro htravel
    split at htravel
    · cases htravel
      exact ⟨rfl, rfl⟩
    · cases htravel
  · rintro ⟨hentries, rfl⟩
    have hj : h'.here < h.entries.length := by
      rw [← hentries]
      exact h'.here_lt
    rw [dif_pos hj, Option.some.injEq]
    exact History.ext hentries.symm rfl

theorem travel_here (h : History α) : h.travel h.here = some h := travel_eq_some.mpr ⟨rfl, rfl⟩

theorem forall_replace (hall : ∀ y ∈ h.entries, p y) (hx : p x) : ∀ y ∈ (h.replace x).entries, p y := by
  intro y hy
  rcases List.mem_or_eq_of_mem_set hy with hold | rfl
  · exact hall y hold
  · exact hx

theorem forall_push (hall : ∀ y ∈ h.entries, p y) (hx : p x) : ∀ y ∈ (h.push x).entries, p y := by
  intro y hy
  rcases List.mem_append.mp hy with hold | hnew
  · exact hall y (List.mem_of_mem_take hold)
  · rw [List.mem_singleton.mp hnew]
    exact hx

theorem forall_travel (hall : ∀ y ∈ h.entries, p y) (htravel : h.travel j = some h') :
    ∀ y ∈ h'.entries, p y := by
  rw [(travel_eq_some.mp htravel).1]
  exact hall

/-- From a pushed entry one comes back to the entry that was left. -/
theorem back_push (h : History α) (x : α) : ∃ h', (h.push x).travel h.here = some h' ∧ h'.current = h.current := by
  have hlength : (h.entries.take (h.here + 1)).length = h.here + 1 := List.length_take_of_le h.here_lt
  have hlt : h.here < (h.push x).entries.length := by
    show h.here < (h.entries.take (h.here + 1) ++ [x]).length
    rw [List.length_append]
    omega
  refine ⟨⟨(h.push x).entries, h.here, hlt⟩, travel_eq_some.mpr ⟨rfl, rfl⟩, ?_⟩
  rw [current_eq_iff]
  show (h.entries.take (h.here + 1) ++ [x])[h.here]? = some h.current
  rw [List.getElem?_append_left (by omega), List.getElem?_take_of_lt (Nat.lt_succ_self _), getElem?_here]

end History

end PdeOperator.Base
