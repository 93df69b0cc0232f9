import PdeOperator.BaseSystem
import PdeOperator.InputCrypto

/-! Masking a stored secure text and merging the mask back. The stored texts are the results of
`merge_masked_secure`; the round trip gives back each line with the last value of its key, and the
bare placeholder for a line without `=`. -/

namespace PdeOperator.InputCrypto
open Base Text

theorem equals_not_lineBreak : isLineBreak '=' = false := by decide

theorem isLine_maskedValue : IsLine maskedValue := by
  have hall : maskedValue.all (fun c => !isLineBreak c) = true := by decide
  intro c hc
  simpa using List.all_eq_true.mp hall c hc

theorem not_isBlank_keyValueLine (key value : Text) : isBlank (keyValueLine key value) = false := by
  rw [isBlank, keyValueLine, List.all_append, List.all_cons, show isSpace '=' = false by decide,
    Bool.false_and, Bool.and_false]

theorem isLine_keyValueLine {key value : Text} (hkey : IsLine key) (hvalue : IsLine value) :
    IsLine (keyValueLine key value) := by
  refine isLine_append.mpr ⟨hkey, fun c hc => ?_⟩
  rcases List.mem_cons.mp hc with rfl | hc
  · exact equals_not_lineBreak
  · exact hvalue c hc

theorem IsLine.partition {line : Text} (h : IsLine line) (sep : Char) :
    IsLine (partition sep line).1 ∧ IsLine (partition sep line).2 :=
  ⟨fun c hc => h c ((List.takeWhile_prefix _).mem hc),
    fun c hc => h c ((List.dropWhile_suffix _).mem (List.mem_of_mem_tail hc))⟩

/-- A line with `=` is its key and its value. -/
theorem keyValueLine_partition {line : Text} (h : '=' ∈ line) :
    keyValueLine (partition '=' line).1 (partition '=' line).2 = line :=
  partition_append h

theorem partition_keyValueLine {key : Text} (h : '=' ∉ key) (value : Text) :
    partition '=' (keyValueLine key value) = (key, value) :=
  partition_of_notMem h

theorem mem_keyValueLine (key value : Text) : '=' ∈ keyValueLine key value :=
  List.mem_append_right _ List.mem_cons_self

theorem ne_nil_of_not_isBlank {line : Text} (h : isBlank line = false) : line ≠ [] := by
  rintro rfl
  exact absurd h (by decide)

theorem isLine_maskLine {line : Text} (h : IsLine line) : IsLine (maskLine line) := by
  unfold maskLine
  split
  · exact h
  · split
    · exact isLine_keyValueLine (IsLine.partition h '=').1 isLine_maskedValue
    · exact isLine_maskedValue

theorem not_isBlank_maskLine {line : Text} (h : isBlank line = false) :
    isBlank (maskLine line) = false := by
  rw [maskLine, if_neg (by simp [h])]
  split
  · exact not_isBlank_keyValueLine _ _
  · decide

/-- The shape of a stored secure text: nothing, or lines that are not blank. -/
inductive Stored : Option Text → Prop where
  | none : Stored none
  | lines (lines : List Text) (hne : lines ≠ []) (hline : ∀ line ∈ lines, IsLine line)
      (hblank : ∀ line ∈ lines, isBlank line = false) : Stored (some (joinLines lines))

theorem lookup_addSecret {existing : Table Text Text} {line key value : Text}
    (h : (addSecret existing line).lookup key = some value) :
    ('=' ∈ line ∧ partition '=' line = (key, value)) ∨ existing.lookup key = some value := by
  unfold addSecret at h
  split at h
  · next heq =>
    by_cases hkey : key = (partition '=' line).1
    · subst hkey
      rw [AList.lookup_insert, Option.some.injEq] at h
      exact Or.inl ⟨heq, Prod.ext rfl h⟩
    · rw [AList.lookup_insert_ne hkey] at h
      exact Or.inr h
  · exact Or.inr h

theorem isSome_lookup_addSecret {existing : Table Text Text} {line : Text} {key : Text}
    (h : (existing.lookup key).isSome = true) :
    ((addSecret existing line).lookup key).isSome = true := by
  unfold addSecret
  split
  · by_cases hkey : key = (partition '=' line).1
    · rw [hkey, AList.lookup_insert]
      rfl
    · rwa [AList.lookup_insert_ne hkey]
  · exact h

theorem mem_foldl_addSecret {lines : List Text} {existing : Table Text Text} {key value : Text}
    (h : (lines.foldl addSecret existing).lookup key = some value) :
    (∃ line ∈ lines, '=' ∈ line ∧ partition '=' line = (key, value)) ∨
      existing.lookup key = some value := by
  induction lines generalizing existing with
  | nil => exact Or.inr h
  | cons line lines ih =>
      rcases ih h with ⟨other, hmem, hother⟩ | hfirst
      · exact Or.inl ⟨other, List.mem_cons_of_mem _ hmem, hother⟩
      · exact (lookup_addSecret hfirst).imp_left fun hline => ⟨line, List.mem_cons_self, hline⟩

theorem isSome_foldl_addSecret {lines : List Text} {existing : Table Text Text} {key : Text}
    (h : (∃ line ∈ lines, '=' ∈ line ∧ (partition '=' line).1 = key) ∨
      (existing.lookup key).isSome = true) :
    ((lines.foldl addSecret existing).lookup key).isSome = true := by
  induction lines generalizing existing with
  | nil => exact h.resolve_left fun ⟨_, hmem, _⟩ => List.not_mem_nil hmem
  | cons other lines ih =>
      refine ih ?_
      rcases h with ⟨line, hmem, heq, hkey⟩ | hsome
      · rcases List.mem_cons.mp hmem with rfl | hmem
        · right
          rw [addSecret, if_pos heq, hkey, AList.lookup_insert]
          rfl
        · exact Or.inl ⟨line, hmem, heq, hkey⟩
      · exact Or.inr (isSome_lookup_addSecret hsome)

/-- A stored secret comes from a line of the stored text. -/
theorem mem_existingSecrets {existingReal : Option Text} {key value : Text}
    (h : (existingSecrets existingReal).lookup key = some value) :
    ∃ line ∈ secureLines existingReal, '=' ∈ line ∧ partition '=' line = (key, value) :=
  (mem_foldl_addSecret h).resolve_right (by simp)

theorem isSome_existingSecrets {existingReal : Option Text} {line : Text}
    (hmem : line ∈ secureLines existingReal) (heq : '=' ∈ line) :
    ((existingSecrets existingReal).lookup (partition '=' line).1).isSome = true :=
  isSome_foldl_addSecret (Or.inl ⟨line, hmem, heq, rfl⟩)

theorem mergeLine_isLine {existingReal : Option Text} {line merged : Text} (hline : IsLine line)
    (hblank : isBlank line = false)
    (h : mergeLine (existingSecrets existingReal) line = .ok merged) :
    IsLine merged ∧ isBlank merged = false := by
  unfold mergeLine at h
  split at h
  · split at h
    · split at h
      · cases h
      · next value hvalue =>
        cases h
        obtain ⟨stored, hstored, -, hpart⟩ := mem_existingSecrets hvalue
        have hvalueLine := (IsLine.partition (isLine_of_mem_splitlines hstored) '=').2
        rw [hpart] at hvalueLine
        exact ⟨isLine_keyValueLine (IsLine.partition hline '=').1 hvalueLine,
          not_isBlank_keyValueLine _ _⟩
    · cases h
      exact ⟨isLine_keyValueLine (IsLine.partition hline '=').1 (IsLine.partition hline '=').2,
        not_isBlank_keyValueLine _ _⟩
  · cases h
    exact ⟨hline, hblank⟩

/-- The lines that come out of a merge. -/
theorem isLine_of_mem_merged {existingReal : Option Text} {text : Text} {lines : List Text}
    (h : ((splitlines text).filter fun line => !isBlank line).mapM
      (mergeLine (existingSecrets existingReal)) = .ok lines) {line : Text} (hline : line ∈ lines) :
    IsLine line ∧ isBlank line = false := by
  obtain ⟨source, hsource, hmerge⟩ := mem_of_mapM_ok h hline
  obtain ⟨hsource, hblank⟩ := List.mem_filter.mp hsource
  exact mergeLine_isLine (isLine_of_mem_splitlines hsource) (by simpa using hblank) hmerge

/-- Whatever is submitted, an accepted merge is a stored text. -/
theorem stored_of_mergeMaskedSecure {submitted existingReal merged : Option Text}
    (h : mergeMaskedSecure submitted existingReal = .ok merged) : Stored merged := by
  unfold mergeMaskedSecure at h
  split at h
  · cases h
    exact Stored.none
  · split at h
    · cases h
      exact Stored.none
    · next text _ =>
      obtain ⟨lines, hlines, h⟩ := bind_eq_ok.mp h
      cases lines with
      | nil =>
          cases h
          exact Stored.none
      | cons line lines =>
          cases h
          exact Stored.lines _ (List.cons_ne_nil _ _) (fun l hl => (isLine_of_mem_merged hlines hl).1)
            fun l hl => (isLine_of_mem_merged hlines hl).2

/-- A text of lines that are not blank is not blank. -/
theorem not_isBlank_joinLines {lines : List Text} (hne : lines ≠ [])
    (hblank : ∀ line ∈ lines, isBlank line = false) : isBlank (joinLines lines) = false := by
  cases lines with
  | nil => exact absurd rfl hne
  | cons line lines =>
      have hfirst := hblank line List.mem_cons_self
      cases lines with
      | nil => rwa [joinLines_singleton]
      | cons next lines =>
          rw [isBlank] at hfirst
          rw [joinLines_cons_cons, isBlank, List.all_append, hfirst, Bool.false_and]

/-- What comes back for one stored line. -/
def restoreLine (existing : Table Text Text) (line : Text) : Text :=
  if '=' ∈ line then
    keyValueLine (partition '=' line).1 ((existing.lookup (partition '=' line).1).getD [])
  else maskedValue

theorem mergeLine_maskLine {existingReal : Option Text} {line : Text}
    (hmem : line ∈ secureLines existingReal) (hblank : isBlank line = false) :
    mergeLine (existingSecrets existingReal) (maskLine line) =
      .ok (restoreLine (existingSecrets existingReal) line) := by
  rw [maskLine, if_neg (by simp [hblank]), restoreLine]
  by_cases heq : '=' ∈ line
  · obtain ⟨value, hvalue⟩ := Option.isSome_iff_exists.mp (isSome_existingSecrets hmem heq)
    rw [if_pos heq, if_pos heq, mergeLine, if_pos (mem_keyValueLine _ _),
      partition_keyValueLine (partition_fst_notMem '=' line), if_pos rfl]
    simp only [hvalue, Option.getD_some]
  · rw [if_neg heq, if_neg heq, mergeLine, if_neg (by decide)]

/-- Merging the displayed mask of a stored text never fails; this is what it yields. -/
theorem mergeMaskedSecure_mask_lines {lines : List Text} (hne : lines ≠ [])
    (hline : ∀ line ∈ lines, IsLine line) (hblank : ∀ line ∈ lines, isBlank line = false) :
    mergeMaskedSecure (maskSecureVars (some (joinLines lines))) (some (joinLines lines)) =
      .ok (some (joinLines
        (lines.map (restoreLine (existingSecrets (some (joinLines lines))))))) := by
  have hsplit : splitlines (joinLines lines) = lines :=
    splitlines_joinLines hline fun l hl => ne_nil_of_not_isBlank (hblank l hl)
  have hmaskLine : ∀ l ∈ lines.map maskLine, IsLine l ∧ isBlank l = false := by
    intro l hl
    obtain ⟨line, hmem, rfl⟩ := List.mem_map.mp hl
    exact ⟨isLine_maskLine (hline line hmem), not_isBlank_maskLine (hblank line hmem)⟩
  have hmaskSplit : splitlines (joinLines (lines.map maskLine)) = lines.map maskLine :=
    splitlines_joinLines (fun l hl => (hmaskLine l hl).1)
      fun l hl => ne_nil_of_not_isBlank (hmaskLine l hl).2
  have hfilter : (lines.map maskLine).filter (fun line => !isBlank line) = lines.map maskLine :=
    List.filter_eq_self.mpr fun l hl => by rw [(hmaskLine l hl).2]; rfl
  have hmerge := mapM_ok_of_forall
    (f := fun line => mergeLine (existingSecrets (some (joinLines lines))) (maskLine line))
    (g := restoreLine (existingSecrets (some (joinLines lines))))
    fun line (hmem : line ∈ lines) => mergeLine_maskLine (by rwa [secureLines, Option.getD_some, hsplit])
      (hblank line hmem)
  have htext : (joinLines lines).isEmpty = false := by
    rw [List.isEmpty_eq_false_iff]
    exact ne_nil_of_not_isBlank (not_isBlank_joinLines hne hblank)
  have hmapM : (lines.map maskLine).mapM (mergeLine (existingSecrets (some (joinLines lines)))) =
      .ok (lines.map (restoreLine (existingSecrets (some (joinLines lines))))) := by
    rw [List.mapM_map]
    exact hmerge
  rw [maskSecureVars, htext]
  simp only [Bool.false_eq_true, if_false]
  rw [hsplit, mergeMaskedSecure, if_neg (by
    rw [not_isBlank_joinLines (by simpa using hne) fun l hl => (hmaskLine l hl).2]
    simp), hmaskSplit, hfilter, hmapM]
  cases lines with
  | nil => exact absurd rfl hne
  | cons line lines => rfl

/-- The texts whose lines the round trip gives back: a line without `=` is the bare placeholder,
and lines with the same key are the same line. -/
structure KeepsSecrets (secure : Option Text) : Prop where
  plain : ∀ line ∈ secureLines secure, '=' ∉ line → line = maskedValue
  keys : ∀ line ∈ secureLines secure, ∀ other ∈ secureLines secure, '=' ∈ line → '=' ∈ other →
    (partition '=' line).1 = (partition '=' other).1 → line = other

theorem restoreLine_eq_iff {secure : Option Text} :
    (∀ line ∈ secureLines secure, restoreLine (existingSecrets secure) line = line) ↔
      KeepsSecrets secure := by
  constructor
  · intro h
    refine ⟨fun line hmem heq => ?_, fun line hmem other hother heq heq' hkey => ?_⟩
    · rw [← h line hmem, restoreLine, if_neg heq]
    · rw [← h line hmem, ← h other hother, restoreLine, restoreLine, if_pos heq, if_pos heq', hkey]
  · intro h line hmem
    by_cases heq : '=' ∈ line
    · obtain ⟨value, hvalue⟩ := Option.isSome_iff_exists.mp (isSome_existingSecrets hmem heq)
      obtain ⟨last, hlast, hlastEq, hpart⟩ := mem_existingSecrets hvalue
      have hsame : line = last := h.keys line hmem last hlast heq hlastEq (by rw [hpart])
      have hvalueEq : (partition '=' line).2 = value := by rw [hsame, hpart]
      rw [restoreLine, if_pos heq, hvalue, Option.getD_some, ← hvalueEq,
        keyValueLine_partition heq]
    · rw [restoreLine, if_neg heq, h.plain line hmem heq]

/-- The round trip on the stored texts, with the exact condition for it to be the identity. -/
theorem mergeMaskedSecure_maskSecureVars {secure : Option Text} (hstored : Stored secure) :
    ∃ restored, mergeMaskedSecure (maskSecureVars secure) secure = .ok restored ∧
      (restored = secure ↔ KeepsSecrets secure) := by
  cases hstored with
  | none =>
      refine ⟨none, rfl, iff_of_true rfl ⟨?_, ?_⟩⟩
      · exact fun line hmem => absurd hmem List.not_mem_nil
      · exact fun line hmem => absurd hmem List.not_mem_nil
  | lines lines hne hline hblank =>
      have hsplit : secureLines (some (joinLines lines)) = lines :=
        splitlines_joinLines hline fun l hl => ne_nil_of_not_isBlank (hblank l hl)
      refine ⟨_, mergeMaskedSecure_mask_lines hne hline hblank, ?_⟩
      rw [← restoreLine_eq_iff, hsplit, Option.some.injEq]
      have hrestored : ∀ l ∈ lines.map (restoreLine (existingSecrets (some (joinLines lines)))),
          IsLine l ∧ isBlank l = false := by
        intro l hl
        obtain ⟨line, hmem, rfl⟩ := List.mem_map.mp hl
        have hsecure : line ∈ secureLines (some (joinLines lines)) := by rwa [hsplit]
        have hmerge := mergeLine_maskLine hsecure (hblank line hmem)
        exact mergeLine_isLine (isLine_maskLine (hline line hmem))
          (not_isBlank_maskLine (hblank line hmem)) hmerge
      constructor
      · intro h
        have hlines := joinLines_injective (fun l hl => (hrestored l hl).1)
          (fun l hl => ne_nil_of_not_isBlank (hrestored l hl).2) hline
          (fun l hl => ne_nil_of_not_isBlank (hblank l hl)) h
        exact List.map_inj_left.mp (hlines.trans (List.map_id' lines).symm)
      · intro h
        rw [List.map_congr_left h, List.map_id']

/-- No key stands in front of two values. -/
def KeysOnce (secure : Option Text) : Prop :=
  (((secureLines secure).filter fun line => '=' ∈ line).map fun line => (partition '=' line).1).Nodup

instance (secure : Option Text) : Decidable (KeysOnce secure) := inferInstanceAs (Decidable (List.Nodup _))

/-- A merged line keeps its key, or is the line itself if it has none. -/
theorem mergeLine_key {existing : Table Text Text} {line merged : Text}
    (h : mergeLine existing line = .ok merged) :
    ('=' ∈ merged ↔ '=' ∈ line) ∧ ('=' ∈ line → (partition '=' merged).1 = (partition '=' line).1) := by
  have hkey : ∀ value, ('=' ∈ keyValueLine (partition '=' line).1 value ↔ '=' ∈ line) ↔ '=' ∈ line :=
    fun value => iff_true_left (mem_keyValueLine _ value)
  have hpart : ∀ value, (partition '=' (keyValueLine (partition '=' line).1 value)).1 =
      (partition '=' line).1 :=
    fun value => by rw [partition_keyValueLine (partition_fst_notMem '=' line)]
  unfold mergeLine at h
  split at h
  · next heq =>
    split at h
    · split at h
      · cases h
      · cases h
        exact ⟨(hkey _).mpr heq, fun _ => hpart _⟩
    · cases h
      exact ⟨(hkey _).mpr heq, fun _ => hpart _⟩
  · next heq =>
    cases h
    exact ⟨Iff.rfl, fun hmem => absurd hmem heq⟩

/-- A line that has been merged is merged in the same way with the result of the merge. -/
theorem mergeLine_again {existing again : Table Text Text} {line merged : Text}
    (h : mergeLine existing line = .ok merged)
    (hkept : '=' ∈ line → again.lookup (partition '=' merged).1 = some (partition '=' merged).2) :
    mergeLine again line = .ok merged := by
  obtain ⟨hmem, hkey⟩ := mergeLine_key h
  unfold mergeLine at h ⊢
  split at h
  · next heq =>
    rw [if_pos heq]
    split at h
    · next hmasked =>
      rw [if_pos hmasked]
      have hlookup := hkept heq
      rw [hkey heq] at hlookup
      rw [hlookup]
      dsimp only
      rw [← hkey heq, keyValueLine_partition (hmem.mpr heq)]
    · next hmasked => rw [if_neg hmasked, h]
  · next heq => rw [if_neg heq, h]

section Merged

variable {existingReal merged : Option Text} {text : Text} {lines : List Text}

/-- What is stored after a merge has the merged lines. -/
theorem secureLines_merged
    (hlines : ((splitlines text).filter fun line => !isBlank line).mapM
      (mergeLine (existingSecrets existingReal)) = .ok lines)
    (hmerged : (if lines.isEmpty then none else some (joinLines lines)) = merged) :
    secureLines merged = lines := by
  rw [← hmerged]
  cases lines with
  | nil => rfl
  | cons line lines =>
      exact splitlines_joinLines (fun l hl => (isLine_of_mem_merged hlines hl).1)
        fun l hl => ne_nil_of_not_isBlank (isLine_of_mem_merged hlines hl).2

/-- Each merged line is found under its key, as no other line has the key. -/
theorem lookup_merged (honce : KeysOnce (some text))
    (hlines : ((splitlines text).filter fun line => !isBlank line).mapM
      (mergeLine (existingSecrets existingReal)) = .ok lines)
    (hsecure : secureLines merged = lines) {source line : Text} (hsource : source ∈ splitlines text)
    (hline : line ∈ lines) (hmerge : mergeLine (existingSecrets existingReal) source = .ok line)
    (heq : '=' ∈ source) :
    (existingSecrets merged).lookup (partition '=' line).1 = some (partition '=' line).2 := by
  obtain ⟨hmem, hkey⟩ := mergeLine_key hmerge
  obtain ⟨value, hvalue⟩ := Option.isSome_iff_exists.mp
    (isSome_existingSecrets (hsecure.symm ▸ hline) (hmem.mpr heq))
  obtain ⟨last, hlast, hlastEq, hpart⟩ := mem_existingSecrets hvalue
  rw [hsecure] at hlast
  obtain ⟨other, hother, hotherMerge⟩ := mem_of_mapM_ok hlines hlast
  obtain ⟨hotherMem, hotherKey⟩ := mergeLine_key hotherMerge
  have hotherEq : '=' ∈ other := hotherMem.mp hlastEq
  have hkeys : (partition '=' other).1 = (partition '=' source).1 := by
    rw [← hotherKey hotherEq, hpart, hkey heq]
  have hsame : other = source := by
    refine List.inj_on_of_nodup_map honce ?_ ?_ hkeys
    · exact List.mem_filter.mpr ⟨(List.mem_filter.mp hother).1, decide_eq_true hotherEq⟩
    · exact List.mem_filter.mpr ⟨hsource, decide_eq_true heq⟩
  rw [hsame, hmerge] at hotherMerge
  rw [hvalue, Except.ok.inj hotherMerge, hpart]

end Merged

/-- Merging the same text with what has come out of the first merge changes nothing. -/
theorem mergeMaskedSecure_again {submitted existingReal merged : Option Text} (honce : KeysOnce submitted)
    (h : mergeMaskedSecure submitted existingReal = .ok merged) :
    mergeMaskedSecure submitted merged = .ok merged := by
  unfold mergeMaskedSecure at h ⊢
  split at h
  · exact h
  · next text =>
    split at h
    · next hblank =>
      rw [if_pos hblank]
      exact h
    · next hblank =>
      rw [if_neg hblank]
      obtain ⟨lines, hlines, hmerged⟩ := bind_eq_ok.mp h
      have hsecure : secureLines merged = lines := secureLines_merged hlines (Except.ok.inj hmerged)
      have hagain : ((splitlines text).filter fun line => !isBlank line).mapM
          (mergeLine (existingSecrets merged)) = .ok lines := by
        rw [← hlines]
        refine mapM_congr fun source hsource => ?_
        obtain ⟨line, hline, hmerge⟩ := exists_of_mapM_ok hlines hsource
        rw [hmerge]
        refine mergeLine_again hmerge ?_
        exact lookup_merged honce hlines hsecure (List.mem_filter.mp hsource).1 hline hmerge
      exact bind_eq_ok.mpr ⟨lines, hagain, hmerged⟩

end PdeOperator.InputCrypto
