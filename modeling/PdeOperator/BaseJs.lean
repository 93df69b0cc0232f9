import Mathlib.Data.List.Sort
import PdeOperator.BaseDict
import PdeOperator.BaseText

/-! JavaScript objects that serve as maps: own properties over `Object.prototype`, which also answers for
the names that it has itself, and whose `__proto__` is a setter. -/

namespace PdeOperator.Base.Js

/-- White space and line terminators: what `String.prototype.trim` removes and `\s` matches. -/
def isSpace (c : Char) : Bool :=
  let n := c.toNat
  (9 ≤ n && n ≤ 13) || n == 32 || n == 0xA0 || n == 0x1680 || (0x2000 ≤ n && n ≤ 0x200A) ||
    n == 0x2028 || n == 0x2029 || n == 0x202F || n == 0x205F || n == 0x3000 || n == 0xFEFF

/-- `String.prototype.trim` -/
def trim (s : Text) : Text := Text.trimBy isSpace s

/-- `String.prototype.trimEnd` -/
def trimEnd (s : Text) : Text := s.rdropWhile isSpace

/-- `other` is any value that is none of these, by its text. -/
inductive Value where
  | undefined
  | null
  | bool (value : Bool)
  | str (value : Text)
  | other (text : Text)
  deriving DecidableEq

/-- What a condition makes of a boolean, a string, nothing or an object. -/
def Value.truthy : Value → Bool
  | .undefined | .null => false
  | .bool value => value
  | .str value => !value.isEmpty
  | .other _ => true

/-- `__proto__` -/
def proto : Text := "__proto__".toList

/-- The names of `Object.prototype`. -/
def prototypeNames : List Text :=
  [proto, "constructor".toList, "__defineGetter__".toList, "__defineSetter__".toList,
    "hasOwnProperty".toList, "__lookupGetter__".toList, "__lookupSetter__".toList,
    "isPrototypeOf".toList, "propertyIsEnumerable".toList, "toString".toList, "valueOf".toList,
    "toLocaleString".toList]

/-- What `Object.prototype` answers; `native` is the text of its function of a name. -/
def inherited (native : Text → Text) (name : Text) : Value :=
  if name = proto then .other "[object Object]".toList
  else if name ∈ prototypeNames then .other (native name)
  else .undefined

/-- The array index that a name is. -/
def arrayIndex (name : Text) : Option Nat :=
  let n := name.foldl (fun n c => 10 * n + (c.toNat - 48)) 0
  if Nat.toDigits 10 n = name ∧ n < 4294967295 then some n else none

/-- `Object.entries` of an object from JSON: the array indices in ascending order, then the other names
as they stand. -/
def entries {α : Type} (fields : List (Text × α)) : List (Text × α) :=
  (fields.filter fun field => (arrayIndex field.1).isSome).insertionSort
      (fun a b => (arrayIndex a.1).getD 0 ≤ (arrayIndex b.1).getD 0) ++
    fields.filter fun field => !(arrayIndex field.1).isSome

theorem entries_perm {α : Type} (fields : List (Text × α)) : (entries fields).Perm fields :=
  ((List.perm_insertionSort _ _).append_right _).trans
    (List.filter_append_perm (fun field => (arrayIndex field.1).isSome) fields)

structure Object where
  own : List (Text × Value) := []
  /-- Whether the prototype is still `Object.prototype`, and not null. -/
  inherits : Bool := true

namespace Object

def get (native : Text → Text) (o : Object) (name : Text) : Value :=
  match o.own.lookup name with
  | some value => value
  | none => if o.inherits then inherited native name else .undefined

/-- `o[name] = value`; the setter of `__proto__` takes null and objects only, and the only object that
it is given here is the prototype itself. -/
def set (o : Object) (name : Text) (value : Value) : Object :=
  if name = proto ∧ o.inherits = true ∧ o.own.lookup proto = none then
    if value = .null then { o with inherits := false } else o
  else { o with own := Dict.set name value o.own }

/-- A new object after a run of assignments. -/
def assign (pairs : List (Text × Value)) : Object :=
  pairs.foldl (fun o pair => o.set pair.1 pair.2) {}

theorem assign_concat (pairs : List (Text × Value)) (pair : Text × Value) :
    assign (pairs ++ [pair]) = (assign pairs).set pair.1 pair.2 := by
  rw [assign, List.foldl_append]
  rfl

/-- After assignments to distinct names: `__proto__` is no own property, and null cuts the prototype
off. -/
theorem assign_eq {pairs : List (Text × Value)} (h : (pairs.map Prod.fst).Nodup) :
    assign pairs =
      { own := pairs.filter fun pair => pair.1 ≠ proto
        inherits := decide ((proto, Value.null) ∉ pairs) } := by
  induction pairs using List.reverseRecOn with
  | nil => rfl
  | append_singleton pairs pair ih =>
      rw [List.map_append, List.map_singleton, List.nodup_append] at h
      have hnew : pair.1 ∉ pairs.map Prod.fst := fun hmem =>
        h.2.2 _ hmem _ (List.mem_singleton_self _) rfl
      obtain ⟨name, value⟩ := pair
      rw [assign_concat, ih h.1, List.filter_append]
      by_cases hname : name = proto
      · subst hname
        have hbefore : (proto, Value.null) ∉ pairs := fun hmem =>
          hnew (List.mem_map.mpr ⟨_, hmem, rfl⟩)
        have hlookup : (pairs.filter fun pair => pair.1 ≠ proto).lookup proto = none := by
          rw [List.lookup_eq_none_iff]
          intro other hother
          have hne := (List.mem_filter.mp hother).2
          rw [bne_iff_ne]
          exact fun heq => (of_decide_eq_true hne) heq.symm
        rw [set, if_pos ⟨rfl, decide_eq_true hbefore, hlookup⟩]
        by_cases hvalue : value = .null
        · subst hvalue
          simp
        · have hnull : (proto, Value.null) ≠ (proto, value) := fun heq =>
            hvalue (Prod.mk.inj heq).2.symm
          simp [hvalue, hbefore, Ne.symm hvalue]
      · have hkey : name ∉ (pairs.filter fun pair => pair.1 ≠ proto).map Prod.fst := fun hmem =>
          hnew ((List.filter_sublist.map Prod.fst).mem hmem)
        rw [set, if_neg fun hset => hname hset.1, Dict.set_of_notMem hkey]
        simp [hname, Ne.symm hname]

/-- Every own property was assigned. -/
theorem mem_of_mem_own_assign {pairs : List (Text × Value)} {pair : Text × Value}
    (h : pair ∈ (assign pairs).own) : pair ∈ pairs := by
  induction pairs using List.reverseRecOn with
  | nil => exact absurd h List.not_mem_nil
  | append_singleton pairs last ih =>
      rw [assign_concat, set] at h
      split at h
      · split at h
        · exact List.mem_append_left _ (ih h)
        · exact List.mem_append_left _ (ih h)
      · rcases Dict.mem_set h with rfl | hmem
        · exact List.mem_append_right _ (List.mem_singleton_self _)
        · exact List.mem_append_left _ (ih hmem)

theorem nodup_own_assign (pairs : List (Text × Value)) :
    ((assign pairs).own.map Prod.fst).Nodup := by
  induction pairs using List.reverseRecOn with
  | nil => exact List.nodup_nil
  | append_singleton pairs last ih =>
      rw [assign_concat, set]
      split
      · split
        · exact ih
        · exact ih
      · exact Dict.nodup_set ih

/-- Without null among the values the prototype stays, and its setter takes `__proto__`. -/
theorem proto_notMem_own_assign {pairs : List (Text × Value)}
    (h : ∀ pair ∈ pairs, pair.2 ≠ .null) :
    (assign pairs).inherits = true ∧ proto ∉ (assign pairs).own.map Prod.fst := by
  induction pairs using List.reverseRecOn with
  | nil => exact ⟨rfl, List.not_mem_nil⟩
  | append_singleton pairs last ih =>
      obtain ⟨hinherits, hproto⟩ := ih fun pair hpair => h pair (List.mem_append_left _ hpair)
      have hlookup : (assign pairs).own.lookup proto = none := by
        rw [List.lookup_eq_none_iff]
        intro pair hpair
        rw [bne_iff_ne]
        exact fun heq => hproto (heq ▸ List.mem_map_of_mem hpair)
      have hlast := h last (List.mem_append_right _ (List.mem_singleton_self _))
      rw [assign_concat, set]
      split
      · exact ⟨hinherits, hproto⟩
      · next hset =>
        refine ⟨hinherits, fun hmem => ?_⟩
        rcases Dict.mem_keys_set.mp hmem with heq | hmem
        · exact hset ⟨heq.symm, hinherits, hlookup⟩
        · exact hproto hmem

variable {pairs : List (Text × Value)} (native : Text → Text)

theorem get_assign_of_mem (h : (pairs.map Prod.fst).Nodup) {name : Text} {value : Value}
    (hmem : (name, value) ∈ pairs) (hname : name ≠ proto) :
    (assign pairs).get native name = value := by
  have hown : (name, value) ∈ pairs.filter fun pair => pair.1 ≠ proto :=
    List.mem_filter.mpr ⟨hmem, decide_eq_true hname⟩
  have hkeys : ((pairs.filter fun pair => pair.1 ≠ proto).map Prod.fst).Nodup :=
    h.sublist (List.filter_sublist.map Prod.fst)
  rw [get, assign_eq h, (Dict.lookup_eq_some_iff hkeys).mpr hown]

/-- A name that has not become an own property is answered by the prototype, if it is there. -/
theorem get_assign_of_absent (h : (pairs.map Prod.fst).Nodup) {name : Text}
    (habsent : name = proto ∨ name ∉ pairs.map Prod.fst) :
    (assign pairs).get native name =
      if (proto, Value.null) ∈ pairs then .undefined else inherited native name := by
  have hlookup : (pairs.filter fun pair => pair.1 ≠ proto).lookup name = none := by
    rw [List.lookup_eq_none_iff]
    intro pair hpair
    obtain ⟨hmem, hne⟩ := List.mem_filter.mp hpair
    rw [bne_iff_ne]
    rintro rfl
    rcases habsent with hproto | habsent
    · exact (of_decide_eq_true hne) hproto
    · exact habsent (List.mem_map_of_mem hmem)
  rw [get, assign_eq h, hlookup]
  by_cases hcut : (proto, Value.null) ∈ pairs
  · simp [hcut]
  · simp [hcut]

end Object

theorem inherited_of_notMem {native : Text → Text} {name : Text} (h : name ∉ prototypeNames) :
    inherited native name = .undefined := by
  rw [inherited, if_neg, if_neg h]
  rintro rfl
  exact h List.mem_cons_self

theorem inherited_of_mem {native : Text → Text} {name : Text} (h : name ∈ prototypeNames) :
    ∃ text, inherited native name = .other text := by
  by_cases hname : name = proto
  · exact ⟨_, if_pos hname⟩
  · exact ⟨_, (if_neg hname).trans (if_pos h)⟩

end PdeOperator.Base.Js
