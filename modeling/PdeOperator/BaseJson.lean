import PdeOperator.BaseText

/-! JSON values as Python holds them after `json.loads`: numbers keep their Python type, and an object
is a `dict` (the keys in insertion order). -/

namespace PdeOperator.Base

inductive Json where
  | null
  | bool (value : Bool)
  | int (value : Int)
  | float (literal : Text)
  | str (value : Text)
  | arr (items : List Json)
  | obj (fields : List (Text × Json))

namespace Json

/-! Equality of JSON values is decided by recursion on the tree. -/

mutual
def beq : Json → Json → Bool
  | .null, .null => true
  | .bool a, .bool b => a == b
  | .int a, .int b => a == b
  | .float a, .float b => a == b
  | .str a, .str b => a == b
  | .arr xs, .arr ys => beqItems xs ys
  | .obj xs, .obj ys => beqFields xs ys
  | _, _ => false
def beqItems : List Json → List Json → Bool
  | [], [] => true
  | x :: xs, y :: ys => beq x y && beqItems xs ys
  | _, _ => false
def beqFields : List (Text × Json) → List (Text × Json) → Bool
  | [], [] => true
  | (k, x) :: xs, (l, y) :: ys => k == l && beq x y && beqFields xs ys
  | _, _ => false
end

mutual
theorem beq_iff_eq : ∀ a b : Json, beq a b = true ↔ a = b
  | .null, b => by cases b <;> simp [beq]
  | .bool a, b => by cases b <;> simp [beq]
  | .int a, b => by cases b <;> simp [beq]
  | .float a, b => by cases b <;> simp [beq]
  | .str a, b => by cases b <;> simp [beq]
  | .arr xs, b => by cases b <;> simp [beq, beqItems_iff_eq]
  | .obj xs, b => by cases b <;> simp [beq, beqFields_iff_eq]
theorem beqItems_iff_eq : ∀ xs ys : List Json, beqItems xs ys = true ↔ xs = ys
  | [], ys => by cases ys <;> simp [beqItems]
  | x :: xs, ys => by cases ys <;> simp [beqItems, beq_iff_eq x, beqItems_iff_eq xs]
theorem beqFields_iff_eq : ∀ xs ys : List (Text × Json), beqFields xs ys = true ↔ xs = ys
  | [], ys => by cases ys <;> simp [beqFields]
  | (k, x) :: xs, ys => by
      cases ys <;> simp [beqFields, beq_iff_eq x, beqFields_iff_eq xs, Prod.ext_iff]
end

instance : DecidableEq Json := fun a b => decidable_of_iff _ (beq_iff_eq a b)

/-- `document.get(key)` on a `dict`. -/
def get (fields : List (Text × Json)) (key : Text) : Option Json := fields.lookup key

end Json

/-- A JSON object that has passed `isinstance(data, dict)`. -/
abbrev JsonObject := List (Text × Json)

end PdeOperator.Base
