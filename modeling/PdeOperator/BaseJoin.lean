import PdeOperator.BaseText

/-! Sequences of words that are joined by a separator, and what is left of them when the joined text is
cut again and its empty parts are dropped. -/

namespace PdeOperator.Base

section Join

variable {α : Type} (sep : α) (words : List (List α))

/-- A text that is made of one or more words with a separator between any two. -/
inductive IsJoin : List α → Prop where
  | single {word} (hword : word ∈ words) : IsJoin word
  | cons {word rest} (hword : word ∈ words) (hrest : IsJoin rest) : IsJoin (word ++ sep :: rest)

/-- Every part of the text that is not empty is a word. -/
def PartsIn [DecidableEq α] (text : List α) : Prop := ∀ part ∈ text.splitOn sep, part ≠ [] → part ∈ words

/-- The words reach every empty part: a separator before, after or around a part that is empty or a word
makes a word. -/
def CoversBlanks : Prop :=
  ∀ part, part = [] ∨ (part ∈ words ∧ sep ∉ part) →
    part ++ [sep] ∈ words ∧ sep :: part ∈ words ∧ sep :: (part ++ [sep]) ∈ words

variable {sep words} {text s t : List α}

theorem isJoin_iff : IsJoin sep words text ↔ ∃ selection : List (List α), selection ≠ [] ∧
    (∀ word ∈ selection, word ∈ words) ∧ [sep].intercalate selection = text := by
  constructor
  · intro h
    induction h with
    | @single word hword =>
        refine ⟨[word], List.cons_ne_nil _ _, ?_, List.intercalate_singleton⟩
        exact fun other hother => List.mem_singleton.mp hother ▸ hword
    | @cons word rest hword _ ih =>
        obtain ⟨selection, hne, hall, rfl⟩ := ih
        refine ⟨word :: selection, List.cons_ne_nil _ _, List.forall_mem_cons.mpr ⟨hword, hall⟩, ?_⟩
        rw [List.intercalate_cons_of_ne_nil hne, List.append_assoc, List.singleton_append]
  · rintro ⟨selection, hne, hall, rfl⟩
    induction selection with
    | nil => exact absurd rfl hne
    | cons word rest ih =>
        obtain ⟨hword, hrest⟩ := List.forall_mem_cons.mp hall
        cases rest with
        | nil =>
            rw [List.intercalate_singleton]
            exact .single hword
        | cons next rest =>
            rw [List.intercalate_cons_cons, List.append_assoc, List.singleton_append]
            exact .cons hword (ih (List.cons_ne_nil _ _) hrest)

theorem IsJoin.append (h : IsJoin sep words s) (h' : IsJoin sep words t) :
    IsJoin sep words (s ++ sep :: t) := by
  induction h with
  | single hword => exact .cons hword h'
  | cons hword _ ih =>
      rw [List.append_assoc, List.cons_append]
      exact .cons hword ih

theorem isJoin_nil_iff : IsJoin sep words [] ↔ [] ∈ words := by
  constructor
  · intro h
    generalize htext : ([] : List α) = text at h
    cases h with
    | single hword => exact hword
    | cons _ _ => exact absurd htext.symm (List.append_ne_nil_of_right_ne_nil _ (List.cons_ne_nil _ _))
  · exact .single

/-- With words that reach the empty parts, any parts but a single empty one can be joined. -/
theorem isJoin_intercalate (hcovers : CoversBlanks sep words) : ∀ parts : List (List α),
    (∀ part ∈ parts, part = [] ∨ (part ∈ words ∧ sep ∉ part)) → parts ≠ [] → parts ≠ [[]] →
    IsJoin sep words ([sep].intercalate parts)
  | [], _, hne, _ => absurd rfl hne
  | [a], hparts, _, hblank => by
      rw [List.intercalate_singleton]
      have ha : a ≠ [] := fun ha => hblank (congrArg (fun x => [x]) ha)
      exact .single ((hparts a List.mem_cons_self).resolve_left ha).1
  | [a, b], hparts, _, _ => by
      rw [List.intercalate_cons_cons, List.intercalate_singleton, List.append_assoc,
        List.singleton_append]
      have ha := hparts a List.mem_cons_self
      have hb := hparts b (List.mem_cons_of_mem _ List.mem_cons_self)
      rcases ha with rfl | ⟨haword, hasep⟩
      · exact .single (hcovers b hb).2.1
      · rcases hb with rfl | ⟨hbword, -⟩
        · exact .single (hcovers a (Or.inr ⟨haword, hasep⟩)).1
        · exact .cons haword (.single hbword)
  | [a, b, c], hparts, _, _ => by
      have hrest : ∀ part ∈ [b, c], part = [] ∨ (part ∈ words ∧ sep ∉ part) := fun part hpart =>
        hparts part (List.mem_cons_of_mem _ hpart)
      have hfirst : ∀ part ∈ [a, b], part = [] ∨ (part ∈ words ∧ sep ∉ part) := fun part hpart =>
        hparts part ((List.prefix_append [a, b] [c]).mem hpart)
      rcases hparts a List.mem_cons_self with rfl | ⟨haword, -⟩
      · rcases hparts c (by simp) with rfl | ⟨hcword, -⟩
        · have hb := hparts b (by simp)
          have hword := (hcovers b hb).2.2
          simpa [List.intercalate_cons_cons] using (IsJoin.single hword : IsJoin sep words _)
        · have hjoin := isJoin_intercalate hcovers [[], b] hfirst (by simp) (by simp)
          have hall := hjoin.append (.single hcword)
          simpa [List.intercalate_cons_cons] using hall
      · have hjoin := isJoin_intercalate hcovers [b, c] hrest (by simp) (by simp)
        have hall := IsJoin.cons haword hjoin
        simpa [List.intercalate_cons_cons] using hall
  | a :: b :: c :: d :: rest, hparts, _, _ => by
      have hfirst := isJoin_intercalate hcovers [a, b]
        (fun part hpart => hparts part ((List.prefix_append [a, b] (c :: d :: rest)).mem hpart))
        (by simp) (by simp)
      have hlast := isJoin_intercalate hcovers (c :: d :: rest)
        (fun part hpart => hparts part (List.mem_cons_of_mem _ (List.mem_cons_of_mem _ hpart)))
        (by simp) (by simp)
      have hall := hfirst.append hlast
      simpa [List.intercalate_cons_cons] using hall

variable [DecidableEq α]

/-- The parts of a join are words when those of its words are. -/
theorem IsJoin.partsIn (hwords : ∀ word ∈ words, PartsIn sep words word)
    (h : IsJoin sep words text) : PartsIn sep words text := by
  induction h with
  | single hword => exact hwords _ hword
  | cons hword _ ih =>
      intro part hpart
      rw [List.splitOn_append_cons_self, List.mem_append] at hpart
      rcases hpart with hpart | hpart
      · exact hwords _ hword part hpart
      · exact ih part hpart

theorem eq_intercalate_of_splitOn {parts : List (List α)} (h : text.splitOn sep = parts) :
    text = [sep].intercalate parts := by
  rw [← h, List.intercalate_splitOn]

theorem notMem_of_mem_splitOn {part : List α} (h : part ∈ text.splitOn sep) : sep ∉ part := by
  intro hsep
  rw [List.splitOn_eq_splitOnP] at h
  have hcut : (sep == sep) = false := (Text.mem_of_mem_splitOnP h sep hsep).2
  rw [beq_self_eq_true] at hcut
  cases hcut

theorem isJoin_of_forall_mem (h : ∀ part ∈ text.splitOn sep, part ∈ words) :
    IsJoin sep words text :=
  isJoin_iff.mpr ⟨text.splitOn sep, List.splitOn_ne_nil sep text, h, List.intercalate_splitOn sep⟩

/-- Words without the separator are the parts of their joins. -/
theorem isJoin_iff_forall_mem (hwords : ∀ word ∈ words, sep ∉ word) :
    IsJoin sep words text ↔ ∀ part ∈ text.splitOn sep, part ∈ words := by
  constructor
  · intro h
    obtain ⟨selection, hne, hall, rfl⟩ := isJoin_iff.mp h
    rw [List.splitOn_intercalate sep (fun word hword => hwords word (hall word hword)) hne]
    exact hall
  · exact isJoin_of_forall_mem

theorem eq_nil_of_splitOn (h : text.splitOn sep = [[]]) : text = [] :=
  eq_intercalate_of_splitOn h

/-- A join that is no word has a first word and a rest, which share its parts. -/
theorem exists_splitOn_append (h : IsJoin sep words text) (hword : text ∉ words) :
    ∃ word ∈ words, ∃ rest, IsJoin sep words rest ∧
      word.splitOn sep ++ rest.splitOn sep = text.splitOn sep := by
  cases h with
  | single hmem => exact absurd hmem hword
  | @cons word rest hmem hrest =>
      exact ⟨word, hmem, rest, hrest, (List.splitOn_append_cons_self word rest).symm⟩

/-- Two parts, one of them empty, can only come from one word. -/
theorem mem_of_two_parts (hblank : [] ∉ words) {a b : List α} (h : IsJoin sep words text)
    (hparts : text.splitOn sep = [a, b]) (hempty : a = [] ∨ b = []) : text ∈ words := by
  by_contra hword
  obtain ⟨word, hmem, rest, hrest, hcut⟩ := exists_splitOn_append h hword
  have hrestNe := List.splitOn_ne_nil sep rest
  rw [hparts] at hcut
  match hw : word.splitOn sep, hcut with
  | [], _ => exact List.splitOn_ne_nil sep word hw
  | [x], hcut =>
      obtain ⟨rfl, hb⟩ := List.cons.inj hcut
      rcases hempty with rfl | rfl
      · exact hblank (eq_nil_of_splitOn hw ▸ hmem)
      · exact hblank (isJoin_nil_iff.mp (eq_nil_of_splitOn hb ▸ hrest))
  | [_, _], hcut => exact hrestNe (List.cons.inj (List.cons.inj hcut).2).2
  | _ :: _ :: _ :: _, hcut => cases (List.cons.inj (List.cons.inj hcut).2).2

/-- So can three parts of which the outer two are empty. -/
theorem mem_of_three_parts (hblank : [] ∉ words) {b : List α} (h : IsJoin sep words text)
    (hparts : text.splitOn sep = [[], b, []]) : text ∈ words := by
  by_contra hword
  obtain ⟨word, hmem, rest, hrest, hcut⟩ := exists_splitOn_append h hword
  have hrestNe := List.splitOn_ne_nil sep rest
  rw [hparts] at hcut
  match hw : word.splitOn sep, hcut with
  | [], _ => exact List.splitOn_ne_nil sep word hw
  | [x], hcut =>
      obtain ⟨rfl, -⟩ := List.cons.inj hcut
      exact hblank (eq_nil_of_splitOn hw ▸ hmem)
  | [_, _], hcut =>
      have hlast := (List.cons.inj (List.cons.inj hcut).2).2
      exact hblank (isJoin_nil_iff.mp (eq_nil_of_splitOn hlast ▸ hrest))
  | [_, _, _], hcut => exact hrestNe (List.cons.inj (List.cons.inj (List.cons.inj hcut).2).2).2
  | _ :: _ :: _ :: _ :: _, hcut =>
      cases (List.cons.inj (List.cons.inj (List.cons.inj hcut).2).2).2

/-- Where all texts with the right parts are joins, and the empty text is no word, the words reach every
empty part. -/
theorem coversBlanks_of_forall (h : ∀ text, text ≠ [] → PartsIn sep words text → IsJoin sep words text)
    (hblank : [] ∉ words) : CoversBlanks sep words := by
  intro part hpart
  have hsep : sep ∉ part := by
    rcases hpart with rfl | ⟨-, hsep⟩
    · exact List.not_mem_nil
    · exact hsep
  have hone : part.splitOn sep = [part] := List.splitOn_eq_singleton hsep
  have hword : part ≠ [] → part ∈ words := fun hne => (hpart.resolve_left hne).1
  have hafter : (part ++ [sep]).splitOn sep = [part, []] := by
    rw [List.splitOn_append_cons_self, hone, List.splitOn_nil]
    rfl
  have hbefore : (sep :: part).splitOn sep = [[], part] := by
    have hcut := List.splitOn_append_cons_self (a := sep) [] part
    rwa [List.nil_append, List.splitOn_nil, hone] at hcut
  have haround : (sep :: (part ++ [sep])).splitOn sep = [[], part, []] := by
    have hcut := List.splitOn_append_cons_self (a := sep) [] (part ++ [sep])
    rwa [List.nil_append, List.splitOn_nil, hafter] at hcut
  have hin : ∀ {text : List α}, (∀ p ∈ text.splitOn sep, p = [] ∨ p = part) → PartsIn sep words text :=
    fun hall p hp hne => (hall p hp).resolve_left hne ▸ hword ((hall p hp).resolve_left hne ▸ hne)
  refine ⟨?_, ?_, ?_⟩
  · refine mem_of_two_parts hblank (h _ (by simp) (hin fun p hp => ?_)) hafter (Or.inr rfl)
    rw [hafter] at hp
    simpa [or_comm] using hp
  · refine mem_of_two_parts hblank (h _ (by simp) (hin fun p hp => ?_)) hbefore (Or.inl rfl)
    rw [hbefore] at hp
    simpa using hp
  · refine mem_of_three_parts hblank (h _ (by simp) (hin fun p hp => ?_)) haround
    rw [haround] at hp
    simp only [List.mem_cons, List.not_mem_nil, or_false] at hp
    tauto

/-- Apart from the empty text, the joins are the texts whose parts are words, exactly if the parts of the
words are words and either the empty text is a word or the words reach every empty part. -/
theorem partsIn_iff_isJoin_iff :
    (∀ text, text ≠ [] → (PartsIn sep words text ↔ IsJoin sep words text)) ↔
      (∀ word ∈ words, PartsIn sep words word) ∧ ([] ∈ words ∨ CoversBlanks sep words) := by
  constructor
  · intro h
    refine ⟨fun word hword => ?_, ?_⟩
    · by_cases hnil : word = []
      · rw [hnil, PartsIn, List.splitOn_nil]
        exact fun part hpart hne => absurd (List.mem_singleton.mp hpart) hne
      · exact (h word hnil).mpr (.single hword)
    · by_cases hblank : [] ∈ words
      · exact Or.inl hblank
      · exact Or.inr (coversBlanks_of_forall (fun text htext => (h text htext).mp) hblank)
  · rintro ⟨hwords, hblank⟩ text htext
    refine ⟨fun hparts => ?_, IsJoin.partsIn hwords⟩
    rcases hblank with hblank | hcovers
    · refine isJoin_of_forall_mem fun part hpart => ?_
      by_cases hne : part = []
      · exact hne ▸ hblank
      · exact hparts part hpart hne
    · have hcut : [sep].intercalate (text.splitOn sep) = text := List.intercalate_splitOn sep
      rw [← hcut]
      refine isJoin_intercalate hcovers _ (fun part hpart => ?_) (List.splitOn_ne_nil sep text)
        fun hempty => htext (eq_nil_of_splitOn hempty)
      by_cases hne : part = []
      · exact Or.inl hne
      · exact Or.inr ⟨hparts part hpart hne, notMem_of_mem_splitOn hpart⟩

/-- The same for one text and words without the separator. -/
theorem partsIn_iff_isJoin_of_notMem (hwords : ∀ word ∈ words, sep ∉ word) :
    (PartsIn sep words text ↔ IsJoin sep words text) ↔
      [] ∈ words ∨ [] ∉ text.splitOn sep ∨ ¬PartsIn sep words text := by
  rw [isJoin_iff_forall_mem hwords]
  by_cases hparts : PartsIn sep words text
  · simp only [hparts, true_iff, not_true_eq_false, or_false]
    constructor
    · intro hall
      by_cases hblank : [] ∈ text.splitOn sep
      · exact Or.inl (hall [] hblank)
      · exact Or.inr hblank
    · rintro hblank part hpart
      by_cases hne : part = []
      · subst hne
        exact hblank.resolve_right fun hnot => hnot hpart
      · exact hparts part hpart hne
  · refine iff_of_true ?_ (Or.inr (Or.inr hparts))
    exact iff_of_false hparts fun hall => hparts fun part hpart _ => hall part hpart

end Join

end PdeOperator.Base
