import PdeOperator.BaseJs
import PdeOperator.BaseJson
import PdeOperator.BaseUuid

/-! JSON values as texts, in Python (`json.dumps`) and in the browser (`String`). The two agree on no
array and on no object. -/

namespace PdeOperator.Base

namespace Json

/-- The quotation mark around a string. -/
def quotationMark : Char := Char.ofNat 34

/-- `\uXXXX` -/
def escapeUnit (unit : Nat) : Text := '\\' :: 'u' :: Uuid.hex 4 unit

/-- A character inside a string; what is not printable ASCII is escaped, in UTF-16. -/
def escapeChar (c : Char) : Text :=
  if c = quotationMark ∨ c = '\\' then ['\\', c]
  else if c = '\n' then ['\\', 'n']
  else if c = '\r' then ['\\', 'r']
  else if c = '\t' then ['\\', 't']
  else if c.toNat = 8 then ['\\', 'b']
  else if c.toNat = 12 then ['\\', 'f']
  else if 32 ≤ c.toNat ∧ c.toNat ≤ 126 then [c]
  else if c.toNat < 0x10000 then escapeUnit c.toNat
  else escapeUnit (0xD800 + (c.toNat - 0x10000) / 0x400) ++
    escapeUnit (0xDC00 + (c.toNat - 0x10000) % 0x400)

def quoted (s : Text) : Text := quotationMark :: (s.flatMap escapeChar ++ [quotationMark])

def isNull : Json → Bool
  | .null => true
  | _ => false

section Dumps

variable (number : Json → Text)

mutual
/-- `json.dumps`; `number` gives the text of a number. -/
def dumps : Json → Text
  | .null => "null".toList
  | .bool true => "true".toList
  | .bool false => "false".toList
  | .int n => number (.int n)
  | .float literal => number (.float literal)
  | .str s => quoted s
  | .arr items => '[' :: (dumpsItems items ++ [']'])
  | .obj fields => '\x7b' :: (dumpsFields fields ++ ['\x7d'])
def dumpsItems : List Json → Text
  | [] => []
  | [item] => dumps item
  | item :: next :: items => dumps item ++ ", ".toList ++ dumpsItems (next :: items)
def dumpsFields : List (Text × Json) → Text
  | [] => []
  | [(name, value)] => quoted name ++ ": ".toList ++ dumps value
  | (name, value) :: next :: fields =>
      quoted name ++ ": ".toList ++ dumps value ++ ", ".toList ++ dumpsFields (next :: fields)
end

theorem dumps_arr_cons (item : Json) (items : List Json) :
    ∃ rest, dumps number (.arr (item :: items)) = '[' :: (dumps number item ++ rest) := by
  cases items with
  | nil => exact ⟨[']'], by rw [dumps, dumpsItems]⟩
  | cons next items =>
      refine ⟨", ".toList ++ dumpsItems number (next :: items) ++ [']'], ?_⟩
      rw [dumps, dumpsItems]
      simp only [List.append_assoc]

end Dumps
end Json

namespace Js

/-- `String` of an object. -/
def objectText : Text := "[object Object]".toList

section String

variable (number : Json → Text)

mutual
/-- `String` of a value that `JSON.parse` gives; an array is its items, joined. -/
def string : Json → Text
  | .null => "null".toList
  | .bool true => "true".toList
  | .bool false => "false".toList
  | .int n => number (.int n)
  | .float literal => number (.float literal)
  | .str s => s
  | .arr items => joinItems items
  | .obj _ => objectText
/-- `Array.prototype.join`; null leaves no text. -/
def joinItems : List Json → Text
  | [] => []
  | [item] => if item.isNull then [] else string item
  | item :: next :: items =>
      (if item.isNull then [] else string item) ++ ',' :: joinItems (next :: items)
end

/-- An item of an array. -/
def itemText (item : Json) : Text := if item.isNull then [] else string number item

end String

section Differ

/-- What follows an item. -/
def IsRest (rest : Text) : Prop := rest = [] ∨ ∃ items, rest = ',' :: items

theorem IsRest.append {rest rest' : Text} (h : IsRest rest) (h' : IsRest rest') :
    IsRest (rest ++ rest') := by
  rcases h with rfl | ⟨items, rfl⟩
  · exact h'
  · exact Or.inr ⟨items ++ rest', List.cons_append⟩

variable {number : Json → Text}

variable (number) in
theorem string_arr_cons (item : Json) (items : List Json) :
    ∃ rest, string number (.arr (item :: items)) = itemText number item ++ rest ∧ IsRest rest := by
  cases items with
  | nil => exact ⟨[], by rw [string, joinItems, itemText, List.append_nil], Or.inl rfl⟩
  | cons next items =>
      exact ⟨',' :: joinItems number (next :: items), by rw [string, joinItems, itemText],
        Or.inr ⟨_, rfl⟩⟩

/-- The characters at the beginning of `json.dumps` of nested arrays around a string of them. -/
def isOpening (c : Char) : Bool := c = '[' || c = Json.quotationMark || c = '\\'

theorem isOpening_escapeChar {c : Char} (hc : isOpening c = true) :
    ∀ d ∈ Json.escapeChar c, isOpening d = true := by
  have hcases : c = '[' ∨ c = Json.quotationMark ∨ c = '\\' := by simpa [isOpening, or_assoc] using hc
  rcases hcases with rfl | rfl | rfl
  · decide
  · decide
  · decide

theorem length_le_flatMap_escapeChar (s : Text) : s.length ≤ (s.flatMap Json.escapeChar).length := by
  induction s with
  | nil => exact Nat.le_refl 0
  | cons c s ih =>
      have hpos : 1 ≤ (Json.escapeChar c).length := by
        unfold Json.escapeChar Json.escapeUnit
        repeat' split
        all_goals simp
      rw [List.flatMap_cons, List.length_append, List.length_cons]
      omega

/-- A text that is longer on the right goes on with one of its characters on the left. -/
theorem exists_cons_of_append_eq {a b q y : Text} (h : a ++ b = q ++ y)
    (hlength : a.length < q.length) : ∃ c rest, b = c :: rest ∧ c ∈ q := by
  rcases List.append_eq_append_iff.mp h with ⟨between, rfl, rfl⟩ | ⟨between, rfl, -⟩
  · cases between with
    | nil =>
        rw [List.append_nil] at hlength
        exact absurd hlength (Nat.lt_irrefl _)
    | cons c between =>
        exact ⟨c, between ++ y, List.cons_append, List.mem_append_right _ List.mem_cons_self⟩
  · rw [List.length_append] at hlength
    omega

/-- A string inside arrays is escaped, and so it never catches up with the characters before it. -/
theorem str_append_ne {s rest y : Text} (hrest : IsRest rest) (depth : Nat) :
    s ++ rest ≠ List.replicate depth '[' ++ (Json.quoted s ++ y) := by
  intro h
  -- the part of the text up to its first character that is not one of the opening ones
  have hcut := List.takeWhile_append_dropWhile (p := isOpening) (l := s)
  generalize ha : s.takeWhile isOpening = a at hcut
  generalize hb : s.dropWhile isOpening = b at hcut
  have hopening : ∀ c ∈ a, isOpening c = true := fun c hc =>
    List.mem_takeWhile_imp (ha.symm ▸ hc)
  have hq : ∀ c ∈ List.replicate depth '[' ++ Json.quotationMark :: a.flatMap Json.escapeChar,
      isOpening c = true := by
    intro c hc
    rcases List.mem_append.mp hc with hc | hc
    · rw [List.eq_of_mem_replicate hc]
      rfl
    · rcases List.mem_cons.mp hc with rfl | hc
      · rfl
      · obtain ⟨d, hd, hc⟩ := List.mem_flatMap.mp hc
        exact isOpening_escapeChar (hopening d hd) c hc
  have hlength : a.length <
      (List.replicate depth '[' ++ Json.quotationMark :: a.flatMap Json.escapeChar).length := by
    have := length_le_flatMap_escapeChar a
    rw [List.length_append, List.length_cons]
    omega
  have heq : a ++ (b ++ rest) =
      (List.replicate depth '[' ++ Json.quotationMark :: a.flatMap Json.escapeChar) ++
        (b.flatMap Json.escapeChar ++ Json.quotationMark :: y) := by
    rw [← List.append_assoc, hcut, h, Json.quoted, ← hcut, List.flatMap_append]
    simp only [List.append_assoc, List.cons_append, List.nil_append]
  obtain ⟨c, after, hc, hmem⟩ := exists_cons_of_append_eq heq hlength
  have hfirst := hq c hmem
  cases b with
  | nil =>
      rcases hrest with rfl | ⟨items, rfl⟩
      · cases hc
      · obtain ⟨rfl, -⟩ := List.cons.inj hc
        exact absurd hfirst (by decide)
  | cons d b =>
      obtain ⟨rfl, -⟩ := List.cons.inj hc
      have hstop := List.head_dropWhile_not isOpening (l := s) (by rw [hb]; exact List.cons_ne_nil _ _)
      simp only [hb, List.head_cons] at hstop
      rw [hfirst] at hstop
      cases hstop

/-- The browser never begins the text of a number with a bracket. -/
def IsNumberText (number : Json → Text) : Prop := ∀ value, '[' ∉ number value

theorem append_ne_of_notMem {s rest y : Text} (hs : '[' ∉ s) (hrest : IsRest rest) :
    s ++ rest ≠ '[' :: y := by
  intro h
  cases s with
  | nil =>
      rcases hrest with rfl | ⟨items, rfl⟩
      · cases h
      · exact absurd (List.cons.inj h).1 (by decide)
  | cons c s =>
      obtain ⟨rfl, -⟩ := List.cons.inj h
      exact hs List.mem_cons_self

/-- An item of an array against the same item in `json.dumps`, behind the brackets of the arrays around
it. -/
theorem itemText_append_ne (hnumber : IsNumberText number) (printed : Json → Text) :
    ∀ (item : Json) (depth : Nat) (rest y : Text), IsRest rest →
      itemText number item ++ rest ≠
        List.replicate (depth + 1) '[' ++ (Json.dumps printed item ++ y)
  | .null, _, _, _, hrest => append_ne_of_notMem List.not_mem_nil hrest
  | .bool true, _, _, _, hrest => append_ne_of_notMem (s := "true".toList) (by decide) hrest
  | .bool false, _, _, _, hrest => append_ne_of_notMem (s := "false".toList) (by decide) hrest
  | .int n, _, _, _, hrest => append_ne_of_notMem (hnumber (.int n)) hrest
  | .float literal, _, _, _, hrest => append_ne_of_notMem (hnumber (.float literal)) hrest
  | .str _, depth, _, _, hrest => str_append_ne hrest (depth + 1)
  | .obj fields, depth, rest, y, _ => by
      intro h
      have hsecond := (List.cons.inj h).2
      cases depth with
      | zero => exact absurd (List.cons.inj hsecond).1 (by decide)
      | succ depth => exact absurd (List.cons.inj hsecond).1 (by decide)
  | .arr [], _, _, _, hrest => append_ne_of_notMem List.not_mem_nil hrest
  | .arr (item :: items), depth, rest, y, hrest => by
      obtain ⟨tail, htail, hsep⟩ := string_arr_cons number item items
      obtain ⟨close, hclose⟩ := Json.dumps_arr_cons printed item items
      have hnext := itemText_append_ne hnumber printed item (depth + 1) (tail ++ rest) (close ++ y)
        (hsep.append hrest)
      intro h
      apply hnext
      rw [itemText, if_neg nofun, htail, hclose] at h
      rw [← List.append_assoc, h, List.replicate_succ' (n := depth + 1)]
      simp only [List.append_assoc, List.cons_append, List.nil_append]

/-- No array has the same text in the browser and in `json.dumps`. -/
theorem string_arr_ne_dumps (hnumber : IsNumberText number) (printed : Json → Text)
    (items : List Json) : string number (.arr items) ≠ Json.dumps printed (.arr items) := by
  cases items with
  | nil => exact fun h => absurd (h : [] = _) nofun
  | cons item items =>
      obtain ⟨tail, htail, hsep⟩ := string_arr_cons number item items
      obtain ⟨close, hclose⟩ := Json.dumps_arr_cons printed item items
      rw [htail, hclose]
      exact itemText_append_ne hnumber printed item 0 tail close hsep

theorem string_obj_ne_dumps (number printed : Json → Text) (fields : List (Text × Json)) :
    string number (.obj fields) ≠ Json.dumps printed (.obj fields) := by
  intro h
  rw [string, Json.dumps] at h
  exact absurd (List.cons.inj h).1 (by decide)

end Differ
end Js
end PdeOperator.Base
