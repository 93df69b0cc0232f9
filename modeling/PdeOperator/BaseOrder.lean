import Mathlib.Data.List.Sort

/-! `ORDER BY ... LIMIT n`: which rows are the first ones, said without a sorting algorithm. -/

namespace PdeOperator.Base

section TieBreak

variable {α : Type} [LinearOrder α] {p q r : Prop}

theorem tieBreak_total (a b : α) (h : p ∨ q) : (a < b ∨ a = b ∧ p) ∨ (b < a ∨ b = a ∧ q) := by
  rcases lt_trichotomy a b with hlt | heq | hgt
  · exact Or.inl (Or.inl hlt)
  · exact h.imp (fun hp => Or.inr ⟨heq, hp⟩) fun hq => Or.inr ⟨heq.symm, hq⟩
  · exact Or.inr (Or.inl hgt)

theorem tieBreak_trans {a b c : α} (h : p → q → r) (hab : a < b ∨ a = b ∧ p)
    (hbc : b < c ∨ b = c ∧ q) : a < c ∨ a = c ∧ r := by
  rcases hab with hab | ⟨rfl, hp⟩
  · rcases hbc with hbc | ⟨rfl, -⟩
    · exact Or.inl (hab.trans hbc)
    · exact Or.inl hab
  · rcases hbc with hbc | ⟨rfl, hq⟩
    · exact Or.inl hbc
    · exact Or.inr ⟨rfl, h hp hq⟩

end TieBreak

variable {α : Type}

/-- The first `limit` of the rows in an order; all of them without a limit. -/
structure FirstRows (before : α → α → Prop) (limit : Option Nat) (rows xs : List α) : Prop where
  ordered : xs.Pairwise before
  nodup : xs.Nodup
  mem : ∀ x ∈ xs, x ∈ rows
  length_eq : xs.length = limit.elim rows.length fun n => min n rows.length
  earlier : ∀ x ∈ xs, ∀ y ∈ rows, y ∉ xs → before x y

namespace FirstRows

variable {before : α → α → Prop} {limit : Option Nat} {n : Nat} {rows xs : List α} {y : α}

/-- A row is left out only if the limit is reached. -/
theorem length_of_notMem (h : FirstRows before (some n) rows xs) (hy : y ∈ rows) (hout : y ∉ xs) :
    xs.length = n := by
  have hsub : y :: xs ⊆ rows := by
    intro x hx
    rcases List.mem_cons.mp hx with rfl | hx
    · exact hy
    · exact h.mem x hx
  have hlt : (y :: xs).length ≤ rows.length :=
    (List.subperm_of_subset (h.nodup.cons hout) hsub).length_le
  have hmin : xs.length = min n rows.length := h.length_eq
  rw [List.length_cons] at hlt
  omega

theorem length_le (h : FirstRows before (some n) rows xs) : xs.length ≤ n :=
  h.length_eq.trans_le (min_le_left _ _)

end FirstRows

section Sorted

variable (before : α → α → Prop) [DecidableRel before] [Std.Total before] [IsTrans α before]
  {rows : List α}

theorem firstRows_insertionSort (hnodup : rows.Nodup) :
    FirstRows before none rows (rows.insertionSort before) := by
  constructor
  · exact List.pairwise_insertionSort before rows
  · exact (List.perm_insertionSort before rows).nodup_iff.mpr hnodup
  · exact fun x hx => (List.mem_insertionSort before).mp hx
  · exact List.length_insertionSort before rows
  · intro x _ y hy hout
    exact absurd ((List.mem_insertionSort before).mpr hy) hout

theorem firstRows_take (hnodup : rows.Nodup) (n : Nat) :
    FirstRows before (some n) rows ((rows.insertionSort before).take n) := by
  have hall := firstRows_insertionSort before hnodup
  constructor
  · exact hall.ordered.sublist (List.take_sublist _ _)
  · exact hall.nodup.sublist (List.take_sublist _ _)
  · exact fun x hx => hall.mem x (List.mem_of_mem_take hx)
  · rw [List.length_take, hall.length_eq]
    rfl
  · intro x hx y hy hout
    have hsplit := List.take_append_drop n (rows.insertionSort before)
    have hsorted := hall.ordered
    rw [← hsplit, List.pairwise_append] at hsorted
    have hin : y ∈ rows.insertionSort before := (List.mem_insertionSort before).mpr hy
    rw [← hsplit, List.mem_append] at hin
    exact hsorted.2.2 x hx y (hin.resolve_left hout)

end Sorted
end PdeOperator.Base
