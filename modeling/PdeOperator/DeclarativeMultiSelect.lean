import PdeOperator.BaseJoin
import PdeOperator.DeclarativeEngine

/-! The values that a multi-select accepts, and the selections that the form joins with commas. -/

namespace PdeOperator
open Base

namespace Declarative

/-- A select field with several choices, without validators. -/
structure FieldSpec.IsMultiSelect (field : FieldSpec) (options : List Text) : Prop where
  fieldType : field.fieldType = .select
  selectType : field.selectType = .multi
  options_eq : field.options = some options
  validators : field.validators = []

/-- `next.join(",")` of one or more options. -/
def IsSelection (options : List Text) (value : Text) : Prop :=
  ∃ selection : List Text, selection ≠ [] ∧ (∀ option ∈ selection, option ∈ options) ∧
    [','].intercalate selection = value

variable {lib : EngineLibrary} {field : FieldSpec} {options : List Text} {value : Text}

theorem isSelection_iff_isJoin : IsSelection options value ↔ IsJoin ',' options value :=
  isJoin_iff.symm

/-- The empty parts of the value are not looked at. -/
theorem validateField_multiSelect (hfield : field.IsMultiSelect options) :
    validateField lib field (.str value) = .ok () ↔ PartsIn ',' options value := by
  unfold validateField
  rw [hfield.fieldType, hfield.validators]
  simp only [validatePatterns, validateOptions, hfield.options_eq, hfield.selectType]
  show (if _ then Except.ok () else _) = _ ↔ _
  split
  · next hall =>
    refine iff_of_true rfl fun part hpart hne => ?_
    have hkept := List.all_eq_true.mp hall part (List.mem_filter.mpr ⟨hpart, by simpa using hne⟩)
    exact List.contains_iff_mem.mp hkept
  · next hall =>
    refine iff_of_false (fun herror => by cases herror) fun hparts => hall (List.all_eq_true.mpr fun part hpart => ?_)
    obtain ⟨hpart, hne⟩ := List.mem_filter.mp hpart
    exact List.contains_iff_mem.mpr (hparts part hpart (by simpa using hne))

/-- The validator agrees with the selections on every value that is not empty, if and only if every part of
every option is an option and the options hold the empty text or reach every empty part. Where no option
has a comma, it agrees on one value if and only if the empty text is an option, the value has no empty
part, or some other part of it is not an option. -/
theorem validateField_multiSelect_iff (hfield : field.IsMultiSelect options) :
    ((∀ value, value ≠ [] →
        (validateField lib field (.str value) = .ok () ↔ IsSelection options value)) ↔
      (∀ option ∈ options, PartsIn ',' options option) ∧ ([] ∈ options ∨ CoversBlanks ',' options)) ∧
    ((∀ option ∈ options, ',' ∉ option) → ∀ value,
      ((validateField lib field (.str value) = .ok () ↔ IsSelection options value) ↔
        [] ∈ options ∨ [] ∉ value.splitOn ',' ∨ ∃ part ∈ value.splitOn ',', part ≠ [] ∧ part ∉ options)) := by
  simp only [validateField_multiSelect hfield, isSelection_iff_isJoin]
  refine ⟨partsIn_iff_isJoin_iff, fun hcommas value => ?_⟩
  rw [partsIn_iff_isJoin_of_notMem hcommas]
  have hnot : ¬PartsIn ',' options value ↔
      ∃ part ∈ value.splitOn ',', part ≠ [] ∧ part ∉ options := by
    simp only [PartsIn, not_forall, exists_prop]
  rw [hnot]

/-- A multi-select of some options. -/
def multiSelectOf (options : List Text) : FieldSpec where
  name := "TARGETS".toList
  options := some options
  fieldType := .select
  selectType := .multi

theorem isMultiSelect_multiSelectOf : (multiSelectOf options).IsMultiSelect options :=
  ⟨rfl, rfl, rfl, rfl⟩

theorem validateField_multiSelect_iff_values :
    validateField Engine.plainLibrary (multiSelectOf ["value1".toList, "value2".toList])
        (.str "value2,value1".toList) = .ok () ↔
      IsSelection ["value1".toList, "value2".toList] "value2,value1".toList :=
  ((validateField_multiSelect_iff isMultiSelect_multiSelectOf).2 (by decide) _).mpr
    (Or.inr (Or.inl (by decide)))

/-- A lone comma is accepted and selects nothing, and the choice of an option with a comma is refused. -/
theorem separators_accepted_and_comma_refused :
    (validateField Engine.plainLibrary (multiSelectOf ["a".toList, "b".toList]) (.str ",".toList) = .ok () ∧
      ¬IsSelection ["a".toList, "b".toList] ",".toList) ∧
    IsSelection ["a,b".toList] "a,b".toList ∧
      validateField Engine.plainLibrary (multiSelectOf ["a,b".toList]) (.str "a,b".toList) ≠ .ok () := by
  refine ⟨⟨by decide, fun h => ?_⟩, ?_, by decide⟩
  · have hparts := (isJoin_iff_forall_mem (by decide)).mp (isSelection_iff_isJoin.mp h)
    exact absurd hparts (by decide)
  · exact isSelection_iff_isJoin.mpr (.single List.mem_cons_self)

end Declarative
end PdeOperator
