import PdeOperator.BaseTable

/-! What a session is going to do to a table: rows that it adds, rows that it writes back and rows that
it deletes, in this order, all at once when it is committed. -/

namespace PdeOperator.Base

variable {κ ρ : Type} [DecidableEq κ] [DecidableEq ρ] [WriteBack ρ]

/-- One statement of a flush. -/
inductive Change (κ ρ : Type) where
  | insert (key : κ) (row : ρ)
  | write (row : Tracked κ ρ)
  | delete (key : κ)

namespace Change

/-- A key that is there already or a changed row that is gone is an error; deleting a row that is gone
is not. -/
def apply (t : Table κ ρ) : Change κ ρ → Option (Table κ ρ)
  | .insert key row => if (t.lookup key).isSome then none else some (t.insert key row)
  | .write row => t.flush row
  | .delete key => some (t.erase key)

def key : Change κ ρ → κ
  | .insert key _ => key
  | .write row => row.key
  | .delete key => key

/-- The key of a row that the statement deletes. -/
def deletes : Change κ ρ → Option κ
  | .delete key => some key
  | _ => none

/-- What the session that has issued the statement sees of a row, when it has seen `row` before. -/
def see (key : κ) (row : Option ρ) : Change κ ρ → Option ρ
  | .insert other new => if other = key then some new else row
  | .write tracked => if tracked.key = key then some tracked.work else row
  | .delete other => if other = key then none else row

/-- The statement keeps a property of rows, whatever version of its row it meets. -/
def Keeps (p : κ → ρ → Prop) : Change κ ρ → Prop
  | .insert key row => p key row
  | .write row => ∀ current, p row.key current → p row.key (writeBack row.read row.work current)
  | .delete _ => True

variable {t t' : Table κ ρ} {change : Change κ ρ} {p : κ → ρ → Prop} {key : κ}

/-- How a statement changes one row. -/
theorem lookup_apply (h : change.apply t = some t') (key : κ) :
    t'.lookup key = t.lookup key ∨
      (∃ row, change = .insert key row ∧ t.lookup key = none ∧ t'.lookup key = some row) ∨
      (∃ row current, change = .write row ∧ row.key = key ∧ t.lookup key = some current ∧
        t'.lookup key = some (writeBack row.read row.work current)) ∨
      (change = .delete key ∧ t'.lookup key = none) := by
  cases change with
  | insert other row =>
      simp only [apply] at h
      split at h
      · cases h
      · next hnone =>
        cases h
        by_cases hkey : key = other
        · subst hkey
          have hfree : t.lookup key = none := Option.not_isSome_iff_eq_none.mp hnone
          exact Or.inr (Or.inl ⟨row, rfl, hfree, AList.lookup_insert _⟩)
        · exact Or.inl (AList.lookup_insert_ne hkey)
  | write row =>
      by_cases hkey : key = row.key
      · subst hkey
        have hrow := Table.lookup_flush_self h
        cases hcurrent : t.lookup row.key with
        | none =>
            rw [hcurrent] at hrow
            exact Or.inl hrow
        | some current =>
            rw [hcurrent] at hrow
            exact Or.inr (Or.inr (Or.inl ⟨row, current, rfl, rfl, rfl, hrow⟩))
      · exact Or.inl (Table.lookup_flush_of_ne h hkey)
  | delete other =>
      cases h
      by_cases hkey : key = other
      · subst hkey
        exact Or.inr (Or.inr (Or.inr ⟨rfl, AList.lookup_erase _ _⟩))
      · exact Or.inl (AList.lookup_erase_ne hkey)

theorem apply_forall (h : change.apply t = some t') (hkeeps : change.Keeps p)
    (hrows : ∀ key row, t.lookup key = some row → p key row) :
    ∀ key row, t'.lookup key = some row → p key row := by
  intro key row hrow
  rcases lookup_apply h key with hsame | ⟨new, rfl, -, hnew⟩ | ⟨tracked, current, rfl, rfl, hold, hnew⟩ |
    ⟨rfl, hgone⟩
  · exact hrows key row (hsame ▸ hrow)
  · obtain rfl := Option.some.inj (hnew.symm.trans hrow)
    exact hkeeps
  · obtain rfl := Option.some.inj (hnew.symm.trans hrow)
    exact hkeeps current (hrows _ current hold)
  · rw [hgone] at hrow
    cases hrow

theorem apply_isSome (h : change.apply t = some t') (hkeep : change.deletes ≠ some key)
    (hsome : (t.lookup key).isSome = true) : (t'.lookup key).isSome = true := by
  rcases lookup_apply h key with hsame | ⟨new, -, -, hnew⟩ | ⟨_, _, -, -, -, hnew⟩ | ⟨rfl, -⟩
  · exact hsame ▸ hsome
  · exact hnew ▸ rfl
  · exact hnew ▸ rfl
  · exact absurd rfl hkeep

end Change

namespace Table

/-- The commit of a session. -/
def applyAll (t : Table κ ρ) (changes : List (Change κ ρ)) : Option (Table κ ρ) :=
  changes.foldlM Change.apply t

omit [WriteBack ρ] [DecidableEq ρ] in
/-- What a session with open changes sees of a row. -/
def seen (t : Table κ ρ) (changes : List (Change κ ρ)) (key : κ) : Option ρ :=
  changes.foldl (Change.see key) (t.lookup key)

variable {t t' : Table κ ρ} {changes : List (Change κ ρ)} {p : κ → ρ → Prop} {key : κ}

/-- A commit whose statements all keep a property keeps it of every row of the table. -/
theorem applyAll_forall (h : t.applyAll changes = some t') (hkeeps : ∀ change ∈ changes, change.Keeps p)
    (hrows : ∀ key row, t.lookup key = some row → p key row) :
    ∀ key row, t'.lookup key = some row → p key row := by
  induction changes generalizing t with
  | nil =>
      cases h
      exact hrows
  | cons change changes ih =>
      obtain ⟨hhead, htail⟩ := List.forall_mem_cons.mp hkeeps
      obtain ⟨mid, hmid, hrest⟩ := Option.bind_eq_some_iff.mp h
      exact ih hrest htail (Change.apply_forall hmid hhead hrows)

/-- A commit keeps the rows that it does not delete. -/
theorem applyAll_isSome (h : t.applyAll changes = some t')
    (hkeep : ∀ change ∈ changes, change.deletes ≠ some key) (hsome : (t.lookup key).isSome = true) :
    (t'.lookup key).isSome = true := by
  induction changes generalizing t with
  | nil =>
      cases h
      exact hsome
  | cons change changes ih =>
      obtain ⟨hhead, htail⟩ := List.forall_mem_cons.mp hkeep
      obtain ⟨mid, hmid, hrest⟩ := Option.bind_eq_some_iff.mp h
      exact ih hrest htail (Change.apply_isSome hmid hhead hsome)

end Table
end PdeOperator.Base
