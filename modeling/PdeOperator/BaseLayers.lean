import Mathlib.Data.List.Basic

/-! Layers of partial settings: the first layer that gives a key decides about it. -/

namespace PdeOperator.Base

section Layers

variable {κ α : Type} {layers : List (κ → Option α)} {key low high : κ} {value value' : α} {i j : Nat}

def resolve (layers : List (κ → Option α)) (key : κ) : Option α := layers.findSome? (· key)

@[simp] theorem resolve_nil (key : κ) : resolve ([] : List (κ → Option α)) key = none := rfl

@[simp] theorem resolve_cons (layer : κ → Option α) (layers : List (κ → Option α)) (key : κ) :
    resolve (layer :: layers) key = (layer key).or (resolve layers key) := by
  rw [resolve, List.findSome?_cons]
  cases layer key <;> rfl

/-- The `i`th layer gives the value, and none above it gives one. -/
def DecidedBy (layers : List (κ → Option α)) (i : Nat) (key : κ) (value : α) : Prop :=
  ∃ above layer below, layers = above ++ layer :: below ∧ above.length = i ∧
    (∀ other ∈ above, other key = none) ∧ layer key = some value

theorem resolve_eq_some_iff : resolve layers key = some value ↔ ∃ i, DecidedBy layers i key value := by
  rw [resolve, List.findSome?_eq_some_iff]
  constructor
  · intro h
    obtain ⟨above, layer, below, hlayers, hvalue, habove⟩ := h
    exact ⟨above.length, above, layer, below, hlayers, rfl, habove, hvalue⟩
  · intro h
    obtain ⟨i, above, layer, below, hlayers, -, habove, hvalue⟩ := h
    exact ⟨above, layer, below, hlayers, hvalue, habove⟩

/-- A relation between two values wherever both are given. -/
def BothGiven (R : α → α → Prop) (first second : Option α) : Prop :=
  ∀ a b, first = some a → second = some b → R a b

/-- Two keys decided by one layer are related as that layer has them. -/
theorem DecidedBy.related {R : α → α → Prop}
    (hlayers : ∀ layer ∈ layers, BothGiven R (layer low) (layer high))
    (hlow : DecidedBy layers i low value) (hhigh : DecidedBy layers i high value') : R value value' := by
  obtain ⟨above, layer, below, heq, hlength, -, hvalue⟩ := hlow
  obtain ⟨above', layer', below', heq', hlength', -, hvalue'⟩ := hhigh
  have hsame := List.append_inj (heq.symm.trans heq') (hlength.trans hlength'.symm)
  have hlayer : layer = layer' := (List.cons.inj hsame.2).1
  have hmem : layer ∈ layers := by
    rw [heq]
    exact List.mem_append_right _ List.mem_cons_self
  exact hlayers layer hmem value value' hvalue (by rw [hlayer]; exact hvalue')

/-- Layers that are each in order are in order together exactly if the pairs of two layers are. -/
theorem bothGiven_resolve_iff {R : α → α → Prop}
    (hlayers : ∀ layer ∈ layers, BothGiven R (layer low) (layer high)) :
    BothGiven R (resolve layers low) (resolve layers high) ↔
      ∀ i j, i ≠ j → ∀ a b, DecidedBy layers i low a → DecidedBy layers j high b → R a b := by
  constructor
  · intro h i j _ a b hlow hhigh
    exact h a b (resolve_eq_some_iff.mpr ⟨i, hlow⟩) (resolve_eq_some_iff.mpr ⟨j, hhigh⟩)
  · intro h a b ha hb
    obtain ⟨i, hlow⟩ := resolve_eq_some_iff.mp ha
    obtain ⟨j, hhigh⟩ := resolve_eq_some_iff.mp hb
    by_cases hij : i = j
    · subst hij
      exact hlow.related hlayers hhigh
    · exact h i j hij a b hlow hhigh

end Layers

end PdeOperator.Base
