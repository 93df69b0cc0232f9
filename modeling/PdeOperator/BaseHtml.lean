import Mathlib.Data.List.Basic

/-! Text in HTML, over the UTF-16 code units of a JavaScript string: escapes for the characters of markup,
and what is read back when tags are removed and escapes undone. -/

namespace PdeOperator.Base

/-- A JavaScript string. -/
abbrev Utf16 := List UInt16

/-- The code unit of an ASCII character. -/
def unit (c : Char) : UInt16 := UInt16.ofNat c.toNat

def units (s : String) : Utf16 := s.toList.map unit

namespace Html

variable {s t rest : Utf16}

def escapeUnit (c : UInt16) : Utf16 :=
  if c = unit '&' then units "&amp;"
  else if c = unit '<' then units "&lt;"
  else if c = unit '>' then units "&gt;"
  else [c]

def escape (s : Utf16) : Utf16 := s.flatMap escapeUnit

/-- Undo the escapes behind the units of an escape that has been undone. -/
def undoFrom : Nat → Utf16 → Utf16
  | _, [] => []
  | skip + 1, _ :: rest => undoFrom skip rest
  | 0, c :: rest =>
      if (units "&amp;").isPrefixOf (c :: rest) then unit '&' :: undoFrom 4 rest
      else if (units "&lt;").isPrefixOf (c :: rest) then unit '<' :: undoFrom 3 rest
      else if (units "&gt;").isPrefixOf (c :: rest) then unit '>' :: undoFrom 3 rest
      else c :: undoFrom 0 rest

def undoEscapes (s : Utf16) : Utf16 := undoFrom 0 s

theorem escape_append (s t : Utf16) : escape (s ++ t) = escape s ++ escape t := List.flatMap_append

theorem escape_cons (c : UInt16) (s : Utf16) : escape (c :: s) = escapeUnit c ++ escape s := List.flatMap_cons

/-- The kinds of units. -/
theorem escapeUnit_cases (c : UInt16) :
    (c = unit '&' ∧ escapeUnit c = units "&amp;") ∨ (c = unit '<' ∧ escapeUnit c = units "&lt;") ∨
      (c = unit '>' ∧ escapeUnit c = units "&gt;") ∨
      (c ≠ unit '&' ∧ c ≠ unit '<' ∧ c ≠ unit '>' ∧ escapeUnit c = [c]) := by
  by_cases hamp : c = unit '&'
  · exact Or.inl ⟨hamp, if_pos hamp⟩
  by_cases hlt : c = unit '<'
  · exact Or.inr (Or.inl ⟨hlt, by rw [escapeUnit, if_neg hamp, if_pos hlt]⟩)
  by_cases hgt : c = unit '>'
  · exact Or.inr (Or.inr (Or.inl ⟨hgt, by rw [escapeUnit, if_neg hamp, if_neg hlt, if_pos hgt]⟩))
  · exact Or.inr (Or.inr (Or.inr ⟨hamp, hlt, hgt, by rw [escapeUnit, if_neg hamp, if_neg hlt, if_neg hgt]⟩))

/-- An escaped text has no angle brackets. -/
theorem angle_notMem_escape (s : Utf16) : unit '<' ∉ escape s ∧ unit '>' ∉ escape s := by
  have hunit : ∀ c, unit '<' ∉ escapeUnit c ∧ unit '>' ∉ escapeUnit c := by
    intro c
    rcases escapeUnit_cases c with ⟨-, h⟩ | ⟨-, h⟩ | ⟨-, h⟩ | ⟨-, hlt, hgt, h⟩
    · rw [h]
      decide
    · rw [h]
      decide
    · rw [h]
      decide
    · rw [h, List.mem_singleton, List.mem_singleton]
      exact ⟨hlt.symm, hgt.symm⟩
  simp only [escape, List.mem_flatMap, not_exists, not_and]
  exact ⟨fun c _ => (hunit c).1, fun c _ => (hunit c).2⟩

theorem undoFrom_of_ne {c : UInt16} (h : c ≠ unit '&') (rest : Utf16) :
    undoFrom 0 (c :: rest) = c :: undoFrom 0 rest := by
  have hprefix : ∀ word : Utf16, word.head? = some (unit '&') → word.isPrefixOf (c :: rest) = false := by
    intro word hword
    obtain ⟨word', rfl⟩ := List.head?_eq_some_iff.mp hword
    rw [List.isPrefixOf_cons_cons, beq_eq_false_iff_ne.mpr h.symm, Bool.false_and]
  rw [undoFrom, hprefix (units "&amp;") rfl, hprefix (units "&lt;") rfl, hprefix (units "&gt;") rfl]
  rfl

theorem undoEscapes_escape (s : Utf16) : undoEscapes (escape s) = s := by
  induction s with
  | nil => rfl
  | cons c s ih =>
      rw [escape_cons]
      rcases escapeUnit_cases c with ⟨rfl, h⟩ | ⟨rfl, h⟩ | ⟨rfl, h⟩ | ⟨hamp, -, -, h⟩
      · rw [h]
        exact congrArg (unit '&' :: ·) ih
      · rw [h]
        exact congrArg (unit '<' :: ·) ih
      · rw [h]
        exact congrArg (unit '>' :: ·) ih
      · rw [h, List.singleton_append, undoEscapes, undoFrom_of_ne hamp]
        exact congrArg (c :: ·) ih

def removeTagsFrom : Bool → Utf16 → Utf16
  | _, [] => []
  | true, c :: rest => removeTagsFrom (c ≠ unit '>') rest
  | false, c :: rest => if c = unit '<' then removeTagsFrom true rest else c :: removeTagsFrom false rest

/-- The text without what stands between angle brackets. -/
def removeTags (s : Utf16) : Utf16 := removeTagsFrom false s

theorem removeTags_append (h : unit '<' ∉ s) (rest : Utf16) : removeTags (s ++ rest) = s ++ removeTags rest := by
  induction s with
  | nil => rfl
  | cons c s ih =>
      rw [List.mem_cons, not_or] at h
      obtain ⟨hc, hs⟩ := h
      rw [List.cons_append, removeTags, removeTagsFrom, if_neg (Ne.symm hc), List.cons_append]
      exact congrArg (c :: ·) (ih hs)

theorem removeTags_tag (h : unit '>' ∉ s) (rest : Utf16) :
    removeTags (unit '<' :: (s ++ unit '>' :: rest)) = removeTags rest := by
  rw [removeTags, removeTagsFrom, if_pos rfl]
  induction s with
  | nil => rfl
  | cons c s ih =>
      rw [List.mem_cons, not_or] at h
      obtain ⟨hc, hs⟩ := h
      rw [List.cons_append, removeTagsFrom, decide_eq_true (Ne.symm hc), ih hs]

/-- The units of a text, each with the tag of the element that is open there. Elements do not nest, and the second
argument is the part of a tag that has been read. -/
def taggedFrom : Utf16 → Option Utf16 → Utf16 → List (Utf16 × UInt16)
  | _, _, [] => []
  | tag, none, c :: rest =>
      if c = unit '<' then taggedFrom tag (some []) rest else (tag, c) :: taggedFrom tag none rest
  | tag, some name, c :: rest =>
      if c = unit '>' then taggedFrom (if name.head? = some (unit '/') then [] else name) none rest
      else taggedFrom tag (some (name ++ [c])) rest

def tagged (s : Utf16) : List (Utf16 × UInt16) := taggedFrom [] none s

variable {tag name : Utf16}

theorem taggedFrom_append (h : unit '<' ∉ s) (rest : Utf16) :
    taggedFrom tag none (s ++ rest) = s.map (tag, ·) ++ taggedFrom tag none rest := by
  induction s with
  | nil => rfl
  | cons c s ih =>
      rw [List.mem_cons, not_or] at h
      obtain ⟨hc, hs⟩ := h
      rw [List.cons_append, taggedFrom, if_neg (Ne.symm hc), ih hs]
      rfl

theorem taggedFrom_tag (h : unit '>' ∉ s) (rest : Utf16) :
    taggedFrom tag (some name) (s ++ unit '>' :: rest) =
      taggedFrom (if (name ++ s).head? = some (unit '/') then [] else name ++ s) none rest := by
  induction s generalizing name with
  | nil => rw [List.nil_append, taggedFrom, if_pos rfl, List.append_nil]
  | cons c s ih =>
      rw [List.mem_cons, not_or] at h
      obtain ⟨hc, hs⟩ := h
      rw [List.cons_append, taggedFrom, if_neg (Ne.symm hc), ih hs, List.append_assoc, List.singleton_append]

/-- An opening tag is that of the text behind it. -/
theorem taggedFrom_open (h : unit '>' ∉ s) (hopen : s.head? ≠ some (unit '/')) (rest : Utf16) :
    taggedFrom tag none (unit '<' :: (s ++ unit '>' :: rest)) = taggedFrom s none rest := by
  rw [taggedFrom, if_pos rfl, taggedFrom_tag h, List.nil_append, if_neg hopen]

theorem taggedFrom_close (h : unit '>' ∉ s) (rest : Utf16) :
    taggedFrom tag none (unit '<' :: unit '/' :: (s ++ unit '>' :: rest)) = taggedFrom [] none rest := by
  have hgt : unit '>' ∉ unit '/' :: s := by
    rw [List.mem_cons, not_or]
    exact ⟨by decide, h⟩
  rw [taggedFrom, if_pos rfl]
  refine (taggedFrom_tag hgt rest).trans ?_
  rw [List.nil_append, List.head?_cons, if_pos rfl]

end Html

end PdeOperator.Base
