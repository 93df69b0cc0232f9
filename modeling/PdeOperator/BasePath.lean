import PdeOperator.BaseText

/-! Paths: words, each behind a separator. They are cut into the words again. -/

namespace PdeOperator.Base

section Path

variable {α : Type} {sep : α} {base base' : List α} {words words' : List (List α)}

/-- The words, each behind a separator. -/
def pathOf (sep : α) (words : List (List α)) : List α := words.flatMap (sep :: ·)

@[simp] theorem pathOf_nil : pathOf sep [] = [] := rfl

@[simp] theorem pathOf_cons (word : List α) (words : List (List α)) :
    pathOf sep (word :: words) = sep :: (word ++ pathOf sep words) := List.flatMap_cons

theorem pathOf_append (words words' : List (List α)) :
    pathOf sep (words ++ words') = pathOf sep words ++ pathOf sep words' := List.flatMap_append

/-- The last character of a path is that of its last word. -/
theorem getLast?_pathOf_concat {word : List α} (hword : word ≠ []) :
    (pathOf sep (words ++ [word])).getLast? = word.getLast? := by
  rw [pathOf_append, pathOf_cons, pathOf_nil, List.append_nil, List.getLast?_append_of_ne_nil _ (by simp),
    List.getLast?_cons_of_ne_nil hword]

variable [DecidableEq α]

theorem splitOn_pathOf (hbase : sep ∉ base) (hwords : ∀ word ∈ words, sep ∉ word) :
    (base ++ pathOf sep words).splitOn sep = base :: words := by
  induction words generalizing base with
  | nil => rw [pathOf_nil, List.append_nil, List.splitOn_eq_singleton hbase]
  | cons word words ih =>
      obtain ⟨hword, hwords⟩ := List.forall_mem_cons.mp hwords
      rw [pathOf_cons, List.splitOn_append_cons_self_of_not_mem hbase, ih hword hwords]

omit [DecidableEq α]

variable {root path word word' : List α}

/-- The path itself, or one that goes on behind a separator. -/
def Below (sep : α) (root path : List α) : Prop := path = root ∨ ∃ rest, path = root ++ sep :: rest

theorem below_refl (sep : α) (root : List α) : Below sep root root := Or.inl rfl

theorem Below.length_le (h : Below sep root path) : root.length ≤ path.length := by
  rcases h with rfl | ⟨rest, rfl⟩
  · exact Nat.le_refl _
  · rw [List.length_append]
    omega

theorem Below.of_child (h : Below sep (root ++ sep :: word) path) : Below sep root path := by
  rcases h with rfl | ⟨rest, rfl⟩
  · exact Or.inr ⟨word, rfl⟩
  · exact Or.inr ⟨word ++ sep :: rest, by rw [List.append_assoc, List.cons_append]⟩

/-- Words without separators that go on with a separator or end. -/
theorem word_unique {rest rest' : List α} (hword : sep ∉ word) (hword' : sep ∉ word')
    (hrest : ∀ c ∈ rest.head?, c = sep) (hrest' : ∀ c ∈ rest'.head?, c = sep)
    (h : word ++ rest = word' ++ rest') : word = word' := by
  rcases List.append_eq_append_iff.mp h with ⟨more, rfl, rfl⟩ | ⟨more, rfl, rfl⟩
  · cases more with
    | nil => rw [List.append_nil]
    | cons c more =>
        obtain rfl := hrest c rfl
        exact absurd (List.mem_append_right _ List.mem_cons_self) hword'
  · cases more with
    | nil => rw [List.append_nil]
    | cons c more =>
        obtain rfl := hrest' c rfl
        exact absurd (List.mem_append_right _ List.mem_cons_self) hword

theorem below_iff : Below sep root path ↔ ∃ rest, path = root ++ rest ∧ ∀ c ∈ rest.head?, c = sep := by
  constructor
  · rintro (rfl | ⟨rest, rfl⟩)
    · exact ⟨[], (List.append_nil _).symm, nofun⟩
    · exact ⟨sep :: rest, rfl, fun c hc => (Option.some.inj hc).symm⟩
  · rintro ⟨rest, rfl, hrest⟩
    cases rest with
    | nil => exact Or.inl (List.append_nil _)
    | cons c rest =>
        obtain rfl := hrest c rfl
        exact Or.inr ⟨rest, rfl⟩

/-- A path is below one child at most. -/
theorem Below.child_unique (hword : sep ∉ word) (hword' : sep ∉ word')
    (h : Below sep (root ++ sep :: word) path) (h' : Below sep (root ++ sep :: word') path) : word = word' := by
  obtain ⟨rest, rfl, hrest⟩ := below_iff.mp h
  obtain ⟨rest', heq, hrest'⟩ := below_iff.mp h'
  rw [List.append_assoc, List.append_assoc, List.append_cancel_left_eq, List.cons_append, List.cons_append,
    List.cons_inj_right] at heq
  exact word_unique hword hword' hrest hrest' heq

end Path

end PdeOperator.Base
