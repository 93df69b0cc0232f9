import Mathlib.Data.Char
import Mathlib.Data.List.Lex
import Mathlib.Data.List.Sort
import PdeOperator.BaseJson
import PdeOperator.BaseOrder

/-! Columns of the type `JSONB`. What is read back is the value that was written, but the keys of an
object come back in an order of the database's own, and a number with a point may be written in another
way. -/

namespace PdeOperator.Base

/-- A `JSONB` column: `store` is what is read back. -/
structure Jsonb where
  store : Json → Json
  store_null : store .null = .null
  store_bool : ∀ value, store (.bool value) = .bool value
  store_int : ∀ value, store (.int value) = .int value
  store_str : ∀ value, store (.str value) = .str value
  store_arr : ∀ items, store (.arr items) = .arr (items.map store)
  store_obj : ∀ fields, ∃ fields', store (.obj fields) = .obj fields' ∧
    ∀ key, Json.get fields' key = (Json.get fields key).map store

namespace Jsonb

variable (column : Jsonb)

/-- The fields of an object that is read back. -/
def storeFields (fields : List (Text × Json)) : List (Text × Json) :=
  match column.store (.obj fields) with
  | .obj fields' => fields'
  | _ => fields

theorem store_object (fields : List (Text × Json)) :
    column.store (.obj fields) = .obj (column.storeFields fields) := by
  obtain ⟨fields', hstore, -⟩ := column.store_obj fields
  rw [storeFields, hstore]

theorem get_storeFields (fields : List (Text × Json)) (key : Text) :
    Json.get (column.storeFields fields) key = (Json.get fields key).map column.store := by
  obtain ⟨fields', hstore, hget⟩ := column.store_obj fields
  rw [storeFields, hstore]
  exact hget key

theorem get_storeFields_of_get {fields : List (Text × Json)} {key : Text} {value : Json}
    (h : Json.get fields key = some value) :
    Json.get (column.storeFields fields) key = some (column.store value) := by
  rw [get_storeFields, h, Option.map_some]

/-- A value without objects and without numbers with a point. -/
inductive IsPlain : Json → Prop
  | null : IsPlain .null
  | bool (value : Bool) : IsPlain (.bool value)
  | int (value : Int) : IsPlain (.int value)
  | str (value : Text) : IsPlain (.str value)
  | arr {items : List Json} (h : ∀ item ∈ items, IsPlain item) : IsPlain (.arr items)

theorem store_of_isPlain {value : Json} (h : IsPlain value) : column.store value = value := by
  induction h with
  | null => exact column.store_null
  | bool value => exact column.store_bool value
  | int value => exact column.store_int value
  | str value => exact column.store_str value
  | arr _ ih =>
      rw [column.store_arr]
      exact congrArg Json.arr ((List.map_congr_left ih).trans (List.map_id _))

def byteLength (text : Text) : Nat := text.foldl (fun length c => length + c.utf8Size) 0

/-- Shorter keys come first, and keys of one length in the order of their bytes. -/
def keyBefore (a b : Text × Json) : Prop :=
  byteLength a.1 < byteLength b.1 ∨ byteLength a.1 = byteLength b.1 ∧ a.1 ≤ b.1

instance : DecidableRel keyBefore := fun a b =>
  inferInstanceAs (Decidable
    (byteLength a.1 < byteLength b.1 ∨ byteLength a.1 = byteLength b.1 ∧ a.1 ≤ b.1))

instance : Std.Total keyBefore := ⟨fun a b => tieBreak_total _ _ (le_total a.1 b.1)⟩

instance : IsTrans (Text × Json) keyBefore := ⟨fun _ _ _ => tieBreak_trans le_trans⟩

mutual
def sortedValue : Json → Json
  | .arr items => .arr (sortedItems items)
  | .obj fields => .obj ((sortedFields fields).insertionSort keyBefore)
  | value => value
def sortedItems : List Json → List Json
  | [] => []
  | item :: items => sortedValue item :: sortedItems items
def sortedFields : List (Text × Json) → List (Text × Json)
  | [] => []
  | (key, value) :: fields => (key, sortedValue value) :: sortedFields fields
end

theorem sortedItems_eq (items : List Json) : sortedItems items = items.map sortedValue := by
  induction items with
  | nil => rfl
  | cons item items ih => rw [sortedItems, ih, List.map_cons]

theorem get_sortedFields (fields : List (Text × Json)) (key : Text) :
    Json.get (sortedFields fields) key = (Json.get fields key).map sortedValue := by
  induction fields with
  | nil => rfl
  | cons entry fields ih =>
      obtain ⟨other, value⟩ := entry
      simp only [sortedFields, Json.get, List.lookup_cons] at ih ⊢
      split
      · rfl
      · exact ih

/-- The first entry of a key stays the first. -/
theorem get_insertionSort (fields : List (Text × Json)) (key : Text) :
    Json.get (fields.insertionSort keyBefore) key = Json.get fields key := by
  have hget : ∀ entries : List (Text × Json), Json.get entries key =
      ((entries.filter fun entry => entry.1 == key).head?).map Prod.snd := by
    intro entries
    induction entries with
    | nil => rfl
    | cons entry entries ih =>
        obtain ⟨other, value⟩ := entry
        rw [Json.get, List.lookup_cons, List.filter_cons]
        by_cases hkey : other = key
        · simp [hkey]
        · have hother : (key == other) = false := beq_false_of_ne (Ne.symm hkey)
          have hfirst : (other == key) = false := beq_false_of_ne hkey
          rw [hother, hfirst]
          exact ih
  have hpairwise : (fields.filter fun entry => entry.1 == key).Pairwise keyBefore := by
    refine List.Pairwise.imp_of_mem (R := fun _ _ => True) ?_ (List.pairwise_of_forall fun _ _ => trivial)
    intro a b ha hb _
    have hsame : a.1 = b.1 := by
      rw [beq_iff_eq.mp (List.mem_filter.mp ha).2, beq_iff_eq.mp (List.mem_filter.mp hb).2]
    exact Or.inr ⟨by rw [hsame], hsame ▸ le_refl _⟩
  have hsub := (List.sublist_insertionSort hpairwise List.filter_sublist).filter
    fun entry => entry.1 == key
  have hsame : (fields.filter fun entry => entry.1 == key) =
      (fields.insertionSort keyBefore).filter fun entry => entry.1 == key := by
    rw [List.filter_filter] at hsub
    simp only [Bool.and_self] at hsub
    exact hsub.eq_of_length (((List.perm_insertionSort keyBefore fields).filter _).length_eq).symm
  rw [hget, hget, hsame]

/-- The columns of PostgreSQL, with numbers kept as they were written. -/
def sorted : Jsonb where
  store := sortedValue
  store_null := rfl
  store_bool _ := rfl
  store_int _ := rfl
  store_str _ := rfl
  store_arr items := by rw [sortedValue, sortedItems_eq]
  store_obj fields := by
    refine ⟨_, rfl, fun key => ?_⟩
    rw [get_insertionSort, get_sortedFields]

end Jsonb
end PdeOperator.Base
