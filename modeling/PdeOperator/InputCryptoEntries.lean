import PdeOperator.BaseDict
import PdeOperator.BaseSystem
import PdeOperator.InputCryptoRoundTrip

/-! Secure texts that are lists of `KEY=VALUE` lines with distinct keys. Such a text is a map; merging
a submitted one with the stored secrets is an edit of the stored map. -/

namespace PdeOperator.InputCrypto
open Base Text

/-- `KEY=VALUE` lines with distinct keys; no key contains `=`, and nothing contains a line boundary. -/
structure SecretEntries where
  entries : List (Text × Text)
  nodup : (entries.map Prod.fst).Nodup
  noEquals : ∀ e ∈ entries, '=' ∉ e.1
  isLine : ∀ e ∈ entries, IsLine e.1 ∧ IsLine e.2

namespace SecretEntries

variable (m : SecretEntries)

def lines : List Text := m.entries.map fun e => keyValueLine e.1 e.2

/-- The lines as one text. -/
def text : Text := joinLines m.lines

/-- The text as it is stored: nothing at all when there are no lines. -/
def stored : Option Text := if m.entries.isEmpty then none else some m.text

def find (key : Text) : Option Text := m.entries.lookup key

variable {m} {key value : Text}

theorem find_eq_some_iff : m.find key = some value ↔ (key, value) ∈ m.entries :=
  Dict.lookup_eq_some_iff m.nodup

theorem isLine_lines : ∀ line ∈ m.lines, IsLine line := by
  intro line hline
  obtain ⟨e, he, rfl⟩ := List.mem_map.mp hline
  exact isLine_keyValueLine (m.isLine e he).1 (m.isLine e he).2

theorem not_isBlank_lines : ∀ line ∈ m.lines, isBlank line = false := by
  intro line hline
  obtain ⟨e, -, rfl⟩ := List.mem_map.mp hline
  exact not_isBlank_keyValueLine e.1 e.2

theorem splitlines_text : splitlines m.text = m.lines :=
  splitlines_joinLines isLine_lines fun line hline => ne_nil_of_not_isBlank (not_isBlank_lines line hline)

theorem secureLines_stored : secureLines m.stored = m.lines := by
  unfold stored
  split
  · next hempty =>
    rw [lines, List.isEmpty_iff.mp hempty]
    rfl
  · exact splitlines_text

theorem mem_lines_iff {line : Text} :
    line ∈ m.lines ↔ ∃ key value, (key, value) ∈ m.entries ∧ keyValueLine key value = line := by
  simp [lines]

theorem partition_of_mem (h : (key, value) ∈ m.entries) :
    partition '=' (keyValueLine key value) = (key, value) :=
  partition_keyValueLine (m.noEquals _ h) value

/-- The dictionary that the merge builds from a stored text is the map of its lines. -/
theorem lookup_existingSecrets : (existingSecrets m.stored).lookup key = m.find key := by
  have hmem : ∀ {v}, (existingSecrets m.stored).lookup key = some v → m.find key = some v := by
    intro v hv
    obtain ⟨line, hline, -, hpart⟩ := mem_existingSecrets hv
    rw [secureLines_stored] at hline
    obtain ⟨k, w, hentry, rfl⟩ := mem_lines_iff.mp hline
    rw [partition_of_mem hentry] at hpart
    obtain ⟨rfl, rfl⟩ := Prod.mk.inj hpart
    exact find_eq_some_iff.mpr hentry
  cases hfound : (existingSecrets m.stored).lookup key with
  | some v => exact (hmem hfound).symm
  | none =>
      cases hfind : m.find key with
      | none => rfl
      | some v =>
          have hentry := find_eq_some_iff.mp hfind
          have hline : keyValueLine key v ∈ secureLines m.stored :=
            secureLines_stored ▸ mem_lines_iff.mpr ⟨key, v, hentry, rfl⟩
          have hsome := isSome_existingSecrets hline (mem_keyValueLine key v)
          rw [partition_of_mem hentry, hfound] at hsome
          cases hsome

variable (m) in
/-- Every key that keeps its value has a stored one. -/
def KeepsKnown (current : Option Text) : Prop :=
  ∀ key, m.find key = some maskedValue → ((existingSecrets current).lookup key).isSome = true

/-- The value that the merge writes for an entry. -/
def merged (current : Option Text) (e : Text × Text) : Text :=
  if e.2 = maskedValue then ((existingSecrets current).lookup e.1).getD [] else e.2

theorem isLine_existingSecrets {current : Option Text}
    (h : (existingSecrets current).lookup key = some value) : IsLine value := by
  obtain ⟨line, hline, -, hpart⟩ := mem_existingSecrets h
  have hvalue := (IsLine.partition (isLine_of_mem_splitlines hline) '=').2
  rwa [hpart] at hvalue

variable (m) in
/-- The submitted entries with the kept values filled in. -/
def resolve (current : Option Text) : SecretEntries where
  entries := m.entries.map fun e => (e.1, merged current e)
  nodup := by
    rw [List.map_map]
    exact m.nodup
  noEquals e he := by
    obtain ⟨source, hsource, rfl⟩ := List.mem_map.mp he
    exact m.noEquals source hsource
  isLine e he := by
    obtain ⟨source, hsource, rfl⟩ := List.mem_map.mp he
    refine ⟨(m.isLine source hsource).1, ?_⟩
    dsimp only [merged]
    split
    · cases hkept : (existingSecrets current).lookup source.1 with
      | none => exact fun c hc => absurd hc List.not_mem_nil
      | some value => exact isLine_existingSecrets hkept
    · exact (m.isLine source hsource).2

theorem mergeLine_known {current : Option Text} (h : (key, value) ∈ m.entries)
    (hknown : value = maskedValue → ((existingSecrets current).lookup key).isSome = true) :
    mergeLine (existingSecrets current) (keyValueLine key value) =
      .ok (keyValueLine key (merged current (key, value))) := by
  rw [mergeLine, if_pos (mem_keyValueLine key value), partition_of_mem h]
  dsimp only [merged]
  split
  · next hmasked =>
    obtain ⟨kept, hkept⟩ := Option.isSome_iff_exists.mp (hknown hmasked)
    rw [hkept]
    rfl
  · rfl

theorem mergeLine_unknown {current : Option Text} (h : (key, maskedValue) ∈ m.entries)
    (hunknown : (existingSecrets current).lookup key = none) :
    mergeLine (existingSecrets current) (keyValueLine key maskedValue) =
      .error (.unknownSecureKey key) := by
  rw [mergeLine, if_pos (mem_keyValueLine key maskedValue), partition_of_mem h, if_pos rfl, hunknown]

/-- The lines of a submission all go through the merge. -/
theorem filter_splitlines_text : (splitlines m.text).filter (fun line => !isBlank line) = m.lines := by
  rw [splitlines_text, List.filter_eq_self]
  intro line hline
  rw [not_isBlank_lines line hline]
  rfl

theorem isBlank_text : isBlank m.text = m.entries.isEmpty := by
  cases hentries : m.entries with
  | nil =>
      rw [text, lines, hentries]
      rfl
  | cons e entries =>
      have hne : m.lines ≠ [] := by
        rw [lines, hentries]
        exact List.cons_ne_nil _ _
      exact not_isBlank_joinLines hne not_isBlank_lines

/-- The merge succeeds when every kept key is known, and yields the resolved entries. -/
theorem mergeMaskedSecure_known {current : Option Text} (h : m.KeepsKnown current) :
    mergeMaskedSecure (some m.text) current = .ok (m.resolve current).stored := by
  have hmerge : ∀ line ∈ m.entries.map (fun e => keyValueLine e.1 e.2),
      mergeLine (existingSecrets current) line =
        .ok (keyValueLine (partition '=' line).1 (merged current (partition '=' line))) := by
    intro line hline
    obtain ⟨⟨key, value⟩, he, rfl⟩ := List.mem_map.mp hline
    dsimp only
    rw [partition_of_mem he]
    exact mergeLine_known he fun hmasked => h key (find_eq_some_iff.mpr (hmasked ▸ he))
  have hmapM := mapM_ok_of_forall hmerge
  have hlines : (m.entries.map fun e => keyValueLine e.1 e.2).map (fun line =>
      keyValueLine (partition '=' line).1 (merged current (partition '=' line))) =
        (m.resolve current).lines := by
    rw [lines, resolve, List.map_map, List.map_map]
    apply List.map_congr_left
    intro e he
    rw [Function.comp_apply, Function.comp_apply, partition_of_mem he]
  rw [hlines] at hmapM
  rw [mergeMaskedSecure, isBlank_text]
  cases hempty : m.entries.isEmpty with
  | true =>
      have hnone : (m.resolve current).entries.isEmpty = true := by
        rw [resolve, List.isEmpty_map, hempty]
      rw [if_pos rfl, stored, if_pos hnone]
  | false =>
      have hsome : (m.resolve current).entries.isEmpty = false := by
        rw [resolve, List.isEmpty_map, hempty]
      have hmerged : (m.resolve current).lines.isEmpty = false := by
        rw [lines, List.isEmpty_map, hsome]
      rw [if_neg Bool.false_ne_true, filter_splitlines_text]
      have hmapM' : m.lines.mapM (mergeLine (existingSecrets current)) =
          .ok (m.resolve current).lines := hmapM
      rw [hmapM', stored, hsome]
      show Except.ok (if (m.resolve current).lines.isEmpty = true then none
        else some (joinLines (m.resolve current).lines)) = _
      rw [hmerged]
      rfl

/-- Otherwise it raises: what an accepted merge keeps is known. -/
theorem keepsKnown_of_mergeMaskedSecure {current merged : Option Text}
    (h : mergeMaskedSecure (some m.text) current = .ok merged) : m.KeepsKnown current := by
  intro key hmasked
  have hentry := find_eq_some_iff.mp hmasked
  rw [mergeMaskedSecure, isBlank_text] at h
  cases hempty : m.entries.isEmpty with
  | true =>
      rw [List.isEmpty_iff.mp hempty] at hentry
      exact absurd hentry List.not_mem_nil
  | false =>
      rw [hempty, if_neg Bool.false_ne_true, filter_splitlines_text] at h
      obtain ⟨lines, hlines, -⟩ := bind_eq_ok.mp h
      obtain ⟨line, -, hline⟩ := exists_of_mapM_ok hlines
        (mem_lines_iff.mpr ⟨key, maskedValue, hentry, rfl⟩)
      cases hkept : (existingSecrets current).lookup key with
      | some value => rfl
      | none =>
          rw [mergeLine_unknown hentry hkept] at hline
          cases hline

/-- What the resolved entries hold: kept values for the placeholders and submitted ones otherwise. -/
theorem find_resolve {current : Option Text} :
    (m.resolve current).find key = (m.find key).map fun value => merged current (key, value) := by
  have hentry : ∀ {value}, (key, value) ∈ (m.resolve current).entries ↔
      ∃ source, (key, source) ∈ m.entries ∧ merged current (key, source) = value := by
    intro value
    rw [resolve, List.mem_map]
    constructor
    · rintro ⟨⟨k, source⟩, hsource, heq⟩
      obtain ⟨rfl, rfl⟩ := Prod.mk.inj heq
      exact ⟨source, hsource, rfl⟩
    · rintro ⟨source, hsource, rfl⟩
      exact ⟨(key, source), hsource, rfl⟩
  ext value
  rw [find_eq_some_iff, hentry, Option.map_eq_some_iff]
  simp only [find_eq_some_iff]

end SecretEntries
end PdeOperator.InputCrypto
