import Mathlib.Data.List.DropRight
import Mathlib.Data.List.Basic
import Mathlib.Tactic.Common

/-! Python text: `str.strip`, `str.splitlines`, `str.partition` and `"\n".join` over lists of code
points, the laws that make a line-based text format a codec, and those of cutting and trimming. -/

namespace PdeOperator.Base

/-- A Python `str`: its code points. -/
abbrev Text := List Char

instance : LawfulBEq Text := List.instLawfulBEq

namespace Text

/-- The characters that `str.isspace` accepts and `str.strip` removes. -/
def isSpace (c : Char) : Bool :=
  let n := c.toNat
  (9 ≤ n && n ≤ 13) || (28 ≤ n && n ≤ 32) || n == 0x85 || n == 0xA0 || n == 0x1680 ||
    (0x2000 ≤ n && n ≤ 0x200A) || n == 0x2028 || n == 0x2029 || n == 0x202F || n == 0x205F ||
    n == 0x3000

/-- The line boundaries of `str.splitlines`; `\r\n` counts as one. -/
def isLineBreak (c : Char) : Bool :=
  let n := c.toNat
  (10 ≤ n && n ≤ 13) || (28 ≤ n && n ≤ 30) || n == 0x85 || n == 0x2028 || n == 0x2029

def strip (s : Text) : Text := (s.dropWhile isSpace).rdropWhile isSpace

/-- `not s.strip()` -/
def isBlank (s : Text) : Bool := s.all isSpace

/-- Every `\r\n` becomes a single boundary. -/
def joinCrLf : Text → Text
  | '\r' :: '\n' :: rest => '\n' :: joinCrLf rest
  | c :: rest => c :: joinCrLf rest
  | [] => []

/-- Cut at every boundary; a boundary at the end opens no further line. -/
def breakLines : Text → List Text
  | [] => []
  | c :: rest =>
      if isLineBreak c then [] :: breakLines rest
      else match breakLines rest with
        | [] => [[c]]
        | line :: lines => (c :: line) :: lines

def splitlines (s : Text) : List Text := breakLines (joinCrLf s)

/-- `"\n".join(lines)` -/
def joinLines (lines : List Text) : Text := ['\n'].intercalate lines

/-- `s.partition(sep)` without the separator; the second part is empty when `sep` does not occur. -/
def partition (sep : Char) (s : Text) : Text × Text :=
  (s.takeWhile (· != sep), (s.dropWhile (· != sep)).tail)

/-- `s.split()` -/
def words (s : Text) : List Text := (s.splitOnP isSpace).filter fun word => !word.isEmpty

/-- What is left of a text between the characters that are trimmed off its ends. -/
def trimBy (p : Char → Bool) (s : Text) : Text := (s.dropWhile p).rdropWhile p

section Trim

variable {p : Char → Bool} {s t : Text}

theorem trimBy_eq_nil_iff : trimBy p s = [] ↔ ∀ c ∈ s, p c = true := by
  rw [trimBy, List.rdropWhile_eq_nil_iff]
  constructor
  · intro h c hc
    by_contra hstays
    have hdrop : s.dropWhile p = [] := by
      by_contra hne
      have hhead := List.head_dropWhile_not p hne
      rw [h _ (List.head_mem hne)] at hhead
      exact absurd hhead (by simp)
    exact hstays (List.dropWhile_eq_nil_iff.mp hdrop c hc)
  · exact fun h c hc => h c ((List.dropWhile_suffix p).mem hc)

theorem dropWhile_cons_eq_self_iff {c : Char} : (c :: s).dropWhile p = c :: s ↔ p c = false := by
  rw [List.dropWhile_cons]
  cases hc : p c with
  | false => simp
  | true =>
      have hle := (List.dropWhile_suffix (l := s) p).length_le
      refine iff_of_false (fun heq => ?_) nofun
      have hlength := congrArg List.length heq
      rw [if_pos rfl, List.length_cons] at hlength
      omega

theorem dropWhile_eq_self_of_prefix (h : t <+: s) (hs : s.dropWhile p = s) : t.dropWhile p = t := by
  cases t with
  | nil => rfl
  | cons c t =>
      obtain ⟨rest, rfl⟩ := h
      rw [List.cons_append, dropWhile_cons_eq_self_iff] at hs
      rwa [dropWhile_cons_eq_self_iff]

theorem rdropWhile_eq_self_of_suffix (h : t <:+ s) (hs : s.rdropWhile p = s) :
    t.rdropWhile p = t := by
  rw [List.rdropWhile_eq_self_iff] at hs ⊢
  intro ht
  obtain ⟨rest, rfl⟩ := h
  have hlast := hs (List.append_ne_nil_of_right_ne_nil rest ht)
  rwa [List.getLast_append_of_ne_nil _ ht] at hlast

theorem trimBy_eq_self_iff : trimBy p s = s ↔ s.dropWhile p = s ∧ s.rdropWhile p = s := by
  constructor
  · intro h
    have hle := (List.rdropWhile_prefix p (s.dropWhile p)).length_le
    have hleft : s.dropWhile p = s :=
      (List.dropWhile_suffix p).eq_of_length_le (by rw [trimBy] at h; rwa [h] at hle)
    rw [trimBy, hleft] at h
    exact ⟨hleft, h⟩
  · rintro ⟨hleft, hright⟩
    rw [trimBy, hleft, hright]

theorem dropWhile_trimBy : (trimBy p s).dropWhile p = trimBy p s :=
  dropWhile_eq_self_of_prefix (List.rdropWhile_prefix p _) (List.dropWhile_idempotent p s)

theorem rdropWhile_trimBy : (trimBy p s).rdropWhile p = trimBy p s := List.rdropWhile_idempotent p _

theorem trimBy_trimBy : trimBy p (trimBy p s) = trimBy p s :=
  trimBy_eq_self_iff.mpr ⟨dropWhile_trimBy, rdropWhile_trimBy⟩

theorem mem_of_mem_trimBy {c : Char} (h : c ∈ trimBy p s) : c ∈ s :=
  (List.dropWhile_suffix p).mem ((List.rdropWhile_prefix p _).mem h)

theorem rdropWhile_append_of_self (hs : s.rdropWhile p = s) (t : Text) :
    (s ++ t).rdropWhile p = s ++ t.rdropWhile p := by
  induction t using List.reverseRecOn with
  | nil => rw [List.append_nil, List.rdropWhile_nil, List.append_nil, hs]
  | append_singleton t c ih =>
      rw [← List.append_assoc, List.rdropWhile_concat, List.rdropWhile_concat]
      split
      · exact ih
      · rw [List.append_assoc]

/-- Characters that stay are not trimmed in front of others. -/
theorem trimBy_append_of_forall_not (hne : s ≠ []) (hs : ∀ c ∈ s, p c = false) (t : Text) :
    trimBy p (s ++ t) = s ++ t.rdropWhile p := by
  have hright : s.rdropWhile p = s := by
    rw [List.rdropWhile_eq_self_iff]
    exact fun _ => by simp [hs _ (List.getLast_mem hne)]
  obtain ⟨c, rest, rfl⟩ := List.exists_cons_of_ne_nil hne
  rw [trimBy, List.cons_append, dropWhile_cons_eq_self_iff.mpr (hs c List.mem_cons_self), ← List.cons_append,
    rdropWhile_append_of_self hright]

theorem trimBy_append_of_all (h : ∀ c ∈ s, p c = true) : trimBy p (s ++ t) = trimBy p t := by
  rw [trimBy, List.dropWhile_append_of_pos h, trimBy]

/-- A text that begins and ends with characters that stay. -/
theorem trimBy_append_cons {c : Char} (hs : s ≠ []) (hleft : s.dropWhile p = s) (hc : p c = false)
    (hright : t.rdropWhile p = t) : trimBy p (s ++ c :: t) = s ++ c :: t := by
  rw [trimBy_eq_self_iff]
  constructor
  · cases s with
    | nil => exact absurd rfl hs
    | cons d s =>
        rw [dropWhile_cons_eq_self_iff] at hleft
        rwa [List.cons_append, dropWhile_cons_eq_self_iff]
  · rw [List.rdropWhile_eq_self_iff] at hright ⊢
    intro hne
    rw [List.getLast_append_of_ne_nil _ (List.cons_ne_nil c t)]
    by_cases ht : t = []
    · subst ht
      rw [List.getLast_singleton, hc]
      exact Bool.false_ne_true
    · rw [List.getLast_cons ht]
      exact hright ht

end Trim

/-! ### Lines -/

/-- A text without boundaries: what a line can be. -/
def IsLine (s : Text) : Prop := ∀ c ∈ s, isLineBreak c = false

/-- A property of the characters of a text is decided along the text, not over all characters. -/
instance (priority := 2000) decidableForallChar (s : Text) (p : Char → Prop) [DecidablePred p] :
    Decidable (∀ c ∈ s, p c) := List.decidableBAll p s

instance (s : Text) : Decidable (IsLine s) := decidableForallChar s fun c => isLineBreak c = false

theorem isLine_append {s t : Text} : IsLine (s ++ t) ↔ IsLine s ∧ IsLine t := by
  simp only [IsLine, List.mem_append, or_imp, forall_and]

theorem IsLine.joinCrLf_append {line : Text} (hline : IsLine line) (rest : Text) :
    joinCrLf (line ++ rest) = line ++ joinCrLf rest := by
  induction line with
  | nil => rfl
  | cons c line ih =>
      have hc : isLineBreak c = false := hline c List.mem_cons_self
      have hcr : c ≠ '\r' := by
        rintro rfl
        exact absurd hc (by decide)
      rw [List.cons_append, joinCrLf.eq_def]
      split
      · next heq => exact absurd (List.cons.inj heq).1 hcr
      · next heq =>
        obtain ⟨rfl, rfl⟩ := List.cons.inj heq
        rw [ih fun d hd => hline d (List.mem_cons_of_mem _ hd), List.cons_append]
      · next heq => exact absurd heq (List.cons_ne_nil _ _)

theorem breakLines_line_append_newline {line : Text} (hline : IsLine line) (rest : Text) :
    breakLines (line ++ '\n' :: rest) = line :: breakLines rest := by
  induction line with
  | nil => rfl
  | cons c line ih =>
      have hc : isLineBreak c = false := hline c List.mem_cons_self
      rw [List.cons_append, breakLines, if_neg (by simp [hc]),
        ih fun d hd => hline d (List.mem_cons_of_mem _ hd)]

theorem breakLines_line {line : Text} (hline : IsLine line) (hne : line ≠ []) :
    breakLines line = [line] := by
  induction line with
  | nil => exact absurd rfl hne
  | cons c line ih =>
      have hc : isLineBreak c = false := hline c List.mem_cons_self
      rw [breakLines, if_neg (by simp [hc])]
      cases line with
      | nil => rfl
      | cons d line =>
          rw [ih (fun e he => hline e (List.mem_cons_of_mem _ he)) (List.cons_ne_nil _ _)]

theorem isLine_of_mem_breakLines {s line : Text} (h : line ∈ breakLines s) : IsLine line := by
  induction s generalizing line with
  | nil => simp [breakLines] at h
  | cons c rest ih =>
      rw [breakLines] at h
      split at h
      · rcases List.mem_cons.mp h with rfl | hrest
        · exact fun c hc => absurd hc List.not_mem_nil
        · exact ih hrest
      · next hc =>
        have hc : isLineBreak c = false := by simpa using hc
        split at h
        · rw [List.mem_singleton] at h
          subst h
          simpa [IsLine] using hc
        · next first others hlines =>
          rcases List.mem_cons.mp h with rfl | hothers
          · intro d hd
            rcases List.mem_cons.mp hd with rfl | hd
            · exact hc
            · exact ih (hlines ▸ List.mem_cons_self) d hd
          · exact ih (hlines ▸ List.mem_cons_of_mem _ hothers)

theorem isLine_of_mem_splitlines {s line : Text} (h : line ∈ splitlines s) : IsLine line :=
  isLine_of_mem_breakLines h

@[simp] theorem joinLines_nil : joinLines [] = [] := rfl

@[simp] theorem joinLines_singleton (line : Text) : joinLines [line] = line := by
  simp [joinLines, List.intercalate]

theorem joinLines_cons_cons (line next : Text) (lines : List Text) :
    joinLines (line :: next :: lines) = line ++ '\n' :: joinLines (next :: lines) := by
  simp [joinLines, List.intercalate]

/-- `splitlines` undoes `"\n".join` on non-empty lines. -/
theorem splitlines_joinLines {lines : List Text} (hline : ∀ line ∈ lines, IsLine line)
    (hne : ∀ line ∈ lines, line ≠ []) : splitlines (joinLines lines) = lines := by
  induction lines with
  | nil => rfl
  | cons line lines ih =>
      have hhead := hline line List.mem_cons_self
      cases lines with
      | nil =>
          have happend := hhead.joinCrLf_append []
          rw [List.append_nil, joinCrLf, List.append_nil] at happend
          rw [joinLines_singleton, splitlines, happend]
          exact breakLines_line hhead (hne line List.mem_cons_self)
      | cons next lines =>
          have hrest := ih (fun l hl => hline l (List.mem_cons_of_mem _ hl))
            (fun l hl => hne l (List.mem_cons_of_mem _ hl))
          have hnewline : joinCrLf ('\n' :: joinLines (next :: lines)) =
              '\n' :: joinCrLf (joinLines (next :: lines)) := by
            rw [joinCrLf]
            simp
          rw [joinLines_cons_cons, splitlines, hhead.joinCrLf_append, hnewline,
            breakLines_line_append_newline hhead]
          exact congrArg (line :: ·) hrest

/-- Distinct lists of non-empty lines have distinct joins. -/
theorem joinLines_injective {lines lines' : List Text} (hline : ∀ line ∈ lines, IsLine line)
    (hne : ∀ line ∈ lines, line ≠ []) (hline' : ∀ line ∈ lines', IsLine line)
    (hne' : ∀ line ∈ lines', line ≠ []) (h : joinLines lines = joinLines lines') :
    lines = lines' := by
  rw [← splitlines_joinLines hline hne, h, splitlines_joinLines hline' hne']

theorem partition_fst_notMem (sep : Char) (s : Text) : sep ∉ (partition sep s).1 := by
  intro h
  exact absurd (List.mem_takeWhile_imp h) (by simp)

/-- The two parts and the separator make up the text again. -/
theorem partition_append {sep : Char} {s : Text} (h : sep ∈ s) :
    (partition sep s).1 ++ sep :: (partition sep s).2 = s := by
  have hne : s.dropWhile (· != sep) ≠ [] := fun hnil => by
    have := List.dropWhile_eq_nil_iff.mp hnil sep h
    simp at this
  have hhead : (s.dropWhile (· != sep)).head hne = sep := by
    simpa using List.head_dropWhile_not (· != sep) hne
  have hcons : s.dropWhile (· != sep) = sep :: (s.dropWhile (· != sep)).tail := by
    conv_lhs => rw [← List.cons_head_tail hne, hhead]
  rw [partition, ← hcons, List.takeWhile_append_dropWhile]

/-- A text put together around its first separator is partitioned there. -/
theorem partition_of_notMem {sep : Char} {key value : Text} (h : sep ∉ key) :
    partition sep (key ++ sep :: value) = (key, value) := by
  have hall : ∀ c ∈ key, (c != sep) = true := by
    intro c hc
    rw [bne_iff_ne]
    exact fun heq => h (heq ▸ hc)
  rw [partition, List.takeWhile_append_of_pos hall, List.dropWhile_append_of_pos hall]
  simp

theorem partition_of_absent {sep : Char} {s : Text} (h : sep ∉ s) : partition sep s = (s, []) := by
  have hall : ∀ c ∈ s, (c != sep) = true := by
    intro c hc
    rw [bne_iff_ne]
    exact fun heq => h (heq ▸ hc)
  rw [partition, List.takeWhile_eq_self_iff.mpr hall, List.dropWhile_eq_nil_iff.mpr hall]
  rfl

/-- The first part of a partition is a given text when the text is that or goes on with the
separator after it. -/
theorem partition_fst_eq_iff {sep : Char} {s key : Text} (h : sep ∉ key) :
    (partition sep s).1 = key ↔ s = key ∨ ∃ rest, s = key ++ sep :: rest := by
  constructor
  · rintro rfl
    by_cases hsep : sep ∈ s
    · exact Or.inr ⟨_, (partition_append hsep).symm⟩
    · rw [partition_of_absent hsep]
      exact Or.inl rfl
  · rintro (rfl | ⟨rest, rfl⟩)
    · rw [partition_of_absent h]
    · rw [partition_of_notMem h]

theorem joinCrLf_cons (c : Char) (rest : Text) : joinCrLf (c :: rest) =
    if c = '\r' ∧ rest.head? = some '\n' then joinCrLf rest else c :: joinCrLf rest := by
  split
  · next h =>
    obtain ⟨rfl, hnewline⟩ := h
    obtain ⟨tail, rfl⟩ : ∃ tail, rest = '\n' :: tail := by
      cases rest with
      | nil => cases hnewline
      | cons d tail => exact ⟨tail, congrArg (· :: tail) (Option.some.inj hnewline)⟩
    rw [joinCrLf, joinCrLf]
    exact nofun
  · next h =>
    refine joinCrLf.eq_2 c rest fun tail hc hrest => h ⟨hc, ?_⟩
    rw [hrest]
    rfl

/-- A character other than `\r` is no part of a `\r\n` with what follows it. -/
theorem exists_joinCrLf_append {c : Char} (hc : c ≠ '\r') (s : Text) :
    ∃ before, ∀ rest, joinCrLf (s ++ c :: rest) = before ++ c :: joinCrLf rest := by
  induction s with
  | nil =>
      refine ⟨[], fun rest => ?_⟩
      rw [List.nil_append, joinCrLf_cons, if_neg fun h => hc h.1]
      rfl
  | cons d s ih =>
      obtain ⟨before, hbefore⟩ := ih
      have hhead : ∀ rest : Text, (s ++ c :: rest).head? = (s ++ [c]).head? := by
        intro rest
        cases s <;> rfl
      by_cases hpair : d = '\r' ∧ (s ++ [c]).head? = some '\n'
      · refine ⟨before, fun rest => ?_⟩
        rw [List.cons_append, joinCrLf_cons, hhead, if_pos hpair, hbefore]
      · refine ⟨d :: before, fun rest => ?_⟩
        rw [List.cons_append, joinCrLf_cons, hhead, if_neg hpair, hbefore]
        rfl

theorem breakLines_ne_nil {s : Text} (h : s ≠ []) : breakLines s ≠ [] := by
  cases s with
  | nil => exact absurd rfl h
  | cons c rest =>
      rw [breakLines]
      split
      · exact List.cons_ne_nil _ _
      · split <;> exact List.cons_ne_nil _ _

/-- What stands after a boundary is broken into lines of its own. -/
theorem breakLines_append_break {c : Char} (hc : isLineBreak c = true) (s rest : Text) :
    breakLines (s ++ c :: rest) = breakLines (s ++ [c]) ++ breakLines rest := by
  induction s with
  | nil =>
      rw [List.nil_append, List.nil_append, breakLines, if_pos hc, breakLines, if_pos hc]
      rfl
  | cons d s ih =>
      rw [List.cons_append, List.cons_append, breakLines, breakLines, ih]
      split
      · rfl
      · cases hlines : breakLines (s ++ [c]) with
        | nil => exact absurd hlines (breakLines_ne_nil (by simp))
        | cons line lines => rfl

theorem splitlines_append_newline (s rest : Text) :
    splitlines (s ++ '\n' :: rest) = splitlines (s ++ ['\n']) ++ splitlines rest := by
  obtain ⟨before, hbefore⟩ := exists_joinCrLf_append (by decide : '\n' ≠ '\r') s
  rw [splitlines, splitlines, splitlines, hbefore, hbefore]
  exact breakLines_append_break (by decide) _ _

section Cut

variable {α : Type} {p q : α → Bool}

/-- A piece has characters of the text, and none at which the text is cut. -/
theorem mem_of_mem_splitOnP {s piece : List α} (h : piece ∈ s.splitOnP p) :
    ∀ a ∈ piece, a ∈ s ∧ p a = false := by
  induction s generalizing piece with
  | nil =>
      rw [List.splitOnP_nil, List.mem_singleton] at h
      exact fun a ha => absurd (h ▸ ha) List.not_mem_nil
  | cons c s ih =>
      have hlater : ∀ {later : List α}, later ∈ s.splitOnP p → ∀ a ∈ later,
          a ∈ c :: s ∧ p a = false := fun hmem a ha =>
        ⟨List.mem_cons_of_mem c (ih hmem a ha).1, (ih hmem a ha).2⟩
      rw [List.splitOnP_cons_eq_if_modifyHead] at h
      split at h
      · rcases List.mem_cons.mp h with rfl | h
        · exact fun a ha => absurd ha List.not_mem_nil
        · exact hlater h
      · next hc =>
        cases hpieces : s.splitOnP p with
        | nil => exact absurd hpieces (List.splitOnP_ne_nil p s)
        | cons first rest =>
            rw [hpieces, List.modifyHead_cons, List.mem_cons] at h
            rcases h with rfl | h
            · intro a ha
              rcases List.mem_cons.mp ha with rfl | ha
              · exact ⟨List.mem_cons_self, Bool.eq_false_iff.mpr hc⟩
              · exact hlater (hpieces ▸ List.mem_cons_self) a ha
            · exact hlater (hpieces ▸ List.mem_cons_of_mem _ h)

/-- Cutting at two kinds of characters is cutting the pieces again. -/
theorem splitOnP_or (s : List α) :
    s.splitOnP (fun a => p a || q a) = (s.splitOnP p).flatMap (List.splitOnP q) := by
  induction s with
  | nil => rfl
  | cons c s ih =>
      cases hpieces : s.splitOnP p with
      | nil => exact absurd hpieces (List.splitOnP_ne_nil p s)
      | cons first rest =>
          rw [hpieces, List.flatMap_cons] at ih
          rw [List.splitOnP_cons_eq_if_modifyHead, List.splitOnP_cons_eq_if_modifyHead, ih, hpieces]
          cases hp : p c with
          | true => simp
          | false =>
              cases hq : q c with
              | true => simp [List.splitOnP_cons_eq_if_modifyHead, hq]
              | false =>
                  cases hcut : first.splitOnP q with
                  | nil => exact absurd hcut (List.splitOnP_ne_nil q first)
                  | cons part parts => simp [List.splitOnP_cons_eq_if_modifyHead, hq, hcut]

end Cut

end Text
end PdeOperator.Base
