import PdeOperator.DeclarativeDecode
import PdeOperator.EditForm

/-! The `KEY=VALUE` texts of the edit forms: which variables come back from `kvPairsToText` as they went
into `parseKvPairs`. -/

namespace PdeOperator.EditForm
open Base Js Declarative

/-- The `KEY=VALUE` lines of a text, each cut at its first `=`. -/
def textVars (text : Option Text) : List (Text × Text) :=
  (List.splitOn '\n' (text.getD [])).filterMap fun line => (decodeLine line).toOption

/-- The map that a text denotes; the last line of a key counts. -/
def varMap (text : Option Text) (key : Text) : Option Text :=
  (Dict.ofPairs (textVars text)).lookup key

theorem toOption_decodeLine {line : Text} : (decodeLine line).toOption =
    if '=' ∈ line then some (Text.partition '=' line) else none := by
  unfold decodeLine
  split
  · rfl
  · rfl

/-- A text that the decoder accepts has exactly the variables that it decodes to. -/
theorem textVars_of_decodeVars {text : Option Text} {vars : List (Text × Text)}
    (h : decodeVars text = .ok vars) : textVars text = vars := by
  cases text with
  | none =>
      obtain rfl := Except.ok.inj h
      rfl
  | some text =>
      rw [decodeVars, mapM_eq_ok_iff] at h
      rw [textVars, Option.getD_some]
      generalize List.splitOn '\n' text = lines at h
      induction h with
      | nil => rfl
      | cons hline _ ih => rw [List.filterMap_cons, hline, ← ih]; rfl

/-- A variable that the form shows as it is. -/
structure VarSurvives (key value : Text) : Prop where
  key_ne : key ≠ []
  key_trimmed : trim key = key
  noComment : key.head? ≠ some '#'
  value_trimmed : trimEnd value = value
  /-- No character at which the form starts a new entry. -/
  noEnd : ∀ c ∈ key ++ value, c ≠ '\r' ∧ c ≠ ';'

instance (key value : Text) : Decidable (VarSurvives key value) :=
  decidable_of_iff (key ≠ [] ∧ trim key = key ∧ key.head? ≠ some '#' ∧ trimEnd value = value ∧
      ∀ c ∈ key ++ value, c ≠ '\r' ∧ c ≠ ';')
    ⟨fun ⟨h₁, h₂, h₃, h₄, h₅⟩ => ⟨h₁, h₂, h₃, h₄, h₅⟩,
      fun h => ⟨h.key_ne, h.key_trimmed, h.noComment, h.value_trimmed, h.noEnd⟩⟩

/-- The characters beside the newline that end an entry. -/
def isExtraEnd (c : Char) : Bool := c = '\r' || c = ';'

theorem splitOnP_isEntryEnd (text : Text) :
    text.splitOnP isEntryEnd = (List.splitOn '\n' text).flatMap (List.splitOnP isExtraEnd) :=
  Text.splitOnP_or text

theorem parseKvLine_eq_some_iff {line : Text} {p : KeyValuePair} : parseKvLine line = some p ↔
    line.head? ≠ some '#' ∧ '=' ∈ line ∧ trim (Text.partition '=' line).1 = p.key ∧ p.key ≠ [] ∧
      (Text.partition '=' line).2 = p.value := by
  obtain ⟨key, value⟩ := p
  unfold parseKvLine
  split
  · next hskip =>
    refine iff_of_false nofun ?_
    rintro ⟨hhead, hequals, -⟩
    exact hskip.elim hhead fun habsent => habsent hequals
  · next hline =>
    rw [not_or, not_not] at hline
    dsimp only
    split
    · next hempty =>
      refine iff_of_false nofun ?_
      rintro ⟨-, -, rfl, hne, -⟩
      exact hne (List.isEmpty_iff.mp hempty)
    · next hne =>
      rw [List.isEmpty_iff] at hne
      rw [Option.some.injEq, KeyValuePair.mk.injEq]
      constructor
      · rintro ⟨rfl, rfl⟩
        exact ⟨hline.1, hline.2, rfl, hne, rfl⟩
      · rintro ⟨-, -, hkey, -, hvalue⟩
        exact ⟨hkey, hvalue⟩

theorem parseKvLine_of_notMem {line : Text} (h : '=' ∉ line) : parseKvLine line = none :=
  if_pos (Or.inr h)

/-- The loop over the entries, blank ones included. -/
theorem filterMap_splitMultilineEntries (text : Text) :
    (splitMultilineEntries text).filterMap parseKvLine =
      (text.splitOnP isEntryEnd).filterMap fun piece => parseKvLine (trim piece) := by
  rw [splitMultilineEntries, List.filterMap_filter, List.filterMap_map]
  refine List.filterMap_congr fun piece _ => ?_
  rw [Function.comp_apply]
  split
  · rfl
  · next hempty =>
    have hnil : trim piece = [] := by simpa using hempty
    rw [hnil, parseKvLine_of_notMem List.not_mem_nil]

/-- A blank text has no variables either way. -/
theorem parseKvPairs_eq (text : Option Text) : parseKvPairs text =
    ((text.getD []).splitOnP isEntryEnd).filterMap fun piece => parseKvLine (trim piece) := by
  cases text with
  | none => rfl
  | some text =>
      rw [parseKvPairs, Option.getD_some]
      split
      · next hblank =>
        have htrim : trim text = [] := by
          rcases Bool.or_eq_true_iff.mp hblank with hempty | hempty
          · rw [List.isEmpty_iff.mp hempty]
            rfl
          · exact List.isEmpty_iff.mp hempty
        symm
        rw [List.filterMap_eq_nil_iff]
        intro piece hpiece
        refine parseKvLine_of_notMem fun hmem => ?_
        have hspace := Text.trimBy_eq_nil_iff.mp htrim '='
          (Text.mem_of_mem_splitOnP hpiece _ (Text.mem_of_mem_trimBy hmem)).1
        exact absurd hspace (by decide)
      · exact filterMap_splitMultilineEntries text

theorem parseKvLine_keyValueLine {key value : Text} (hequals : '=' ∉ key)
    (h : VarSurvives key value) :
    parseKvLine (trim (InputCrypto.keyValueLine key value)) = some ⟨key, value⟩ := by
  have hkey := Text.trimBy_eq_self_iff.mp h.key_trimmed
  have htrim : trim (InputCrypto.keyValueLine key value) = InputCrypto.keyValueLine key value :=
    Text.trimBy_append_cons h.key_ne hkey.1 (by decide) h.value_trimmed
  rw [htrim, parseKvLine_eq_some_iff, InputCrypto.partition_keyValueLine hequals]
  refine ⟨?_, InputCrypto.mem_keyValueLine key value, h.key_trimmed, h.key_ne, rfl⟩
  cases key with
  | nil => exact absurd rfl h.key_ne
  | cons c key => exact h.noComment

/-- A line whose variable survives is one entry of the form. -/
theorem entries_of_survives {line : Text} (hequals : '=' ∈ line)
    (h : VarSurvives (Text.partition '=' line).1 (Text.partition '=' line).2) :
    (line.splitOnP isExtraEnd).filterMap (fun piece => parseKvLine (trim piece)) =
      [⟨(Text.partition '=' line).1, (Text.partition '=' line).2⟩] := by
  have hname := Text.partition_fst_notMem '=' line
  have hcut : InputCrypto.keyValueLine (Text.partition '=' line).1 (Text.partition '=' line).2 = line :=
    Text.partition_append hequals
  have hends : ∀ c ∈ line, isExtraEnd c = false := by
    intro c hc
    rw [← hcut, InputCrypto.keyValueLine, List.mem_append, List.mem_cons] at hc
    have hplain : c ≠ '\r' ∧ c ≠ ';' := by
      rcases hc with hc | rfl | hc
      · exact h.noEnd c (List.mem_append_left _ hc)
      · decide
      · exact h.noEnd c (List.mem_append_right _ hc)
    simp [isExtraEnd, hplain.1, hplain.2]
  rw [List.splitOnP_eq_singleton hends, List.filterMap_cons, List.filterMap_nil]
  rw [← hcut, parseKvLine_keyValueLine hname h, hcut]

/-- A line that is no variable has no entry in the form either. -/
theorem entries_of_notMem {line : Text} (hequals : '=' ∉ line) :
    (line.splitOnP isExtraEnd).filterMap (fun piece => parseKvLine (trim piece)) = [] := by
  rw [List.filterMap_eq_nil_iff]
  intro piece hpiece
  exact parseKvLine_of_notMem fun hmem =>
    hequals (Text.mem_of_mem_splitOnP hpiece _ (Text.mem_of_mem_trimBy hmem)).1

/-- If all variables survive, the form has exactly them. -/
theorem parseKvPairs_of_survive {text : Option Text}
    (h : ∀ e ∈ textVars text, VarSurvives e.1 e.2) :
    parseKvPairs text = (textVars text).map fun e => ⟨e.1, e.2⟩ := by
  rw [parseKvPairs_eq, splitOnP_isEntryEnd, List.filterMap_flatMap, textVars]
  rw [textVars] at h
  generalize List.splitOn '\n' (text.getD []) = lines at h
  induction lines with
  | nil => rfl
  | cons line lines ih =>
      rw [List.filterMap_cons, toOption_decodeLine] at h ⊢
      rw [List.flatMap_cons]
      by_cases hequals : '=' ∈ line
      · rw [if_pos hequals] at h ⊢
        rw [entries_of_survives hequals (h _ List.mem_cons_self),
          ih fun e he => h e (List.mem_cons_of_mem _ he)]
        rfl
      · rw [if_neg hequals] at h ⊢
        rw [entries_of_notMem hequals, ih h]
        rfl

/-- What the form has survives. -/
theorem survives_of_mem_parseKvPairs {text : Option Text} {p : KeyValuePair}
    (h : p ∈ parseKvPairs text) : IsDecodable p.key p.value ∧ VarSurvives p.key p.value := by
  rw [parseKvPairs_eq] at h
  obtain ⟨piece, hpiece, hparse⟩ := List.mem_filterMap.mp h
  obtain ⟨hhead, hequals, hkey, hne, hvalue⟩ := parseKvLine_eq_some_iff.mp hparse
  have hcut := Text.partition_append hequals
  have hname := Text.partition_fst_notMem '=' (trim piece)
  rw [hvalue] at hcut
  -- the key is what is left of the line's beginning, the value its end
  have hleft : (Text.partition '=' (trim piece)).1.dropWhile isSpace =
      (Text.partition '=' (trim piece)).1 :=
    Text.dropWhile_eq_self_of_prefix ⟨_, hcut⟩ Text.dropWhile_trimBy
  have hright : p.value.rdropWhile isSpace = p.value :=
    Text.rdropWhile_eq_self_of_suffix ((List.suffix_cons '=' _).trans ⟨_, hcut⟩)
      Text.rdropWhile_trimBy
  have hstart : p.key <+: (Text.partition '=' (trim piece)).1 := by
    rw [← hkey, trim, Text.trimBy, hleft]
    exact List.rdropWhile_prefix _ _
  have hmem : ∀ c ∈ p.key ++ p.value, c ∈ piece := by
    intro c hc
    refine Text.mem_of_mem_trimBy (p := isSpace) ?_
    change c ∈ trim piece
    rw [← hcut]
    rcases List.mem_append.mp hc with hc | hc
    · exact List.mem_append_left _ (hstart.mem hc)
    · exact List.mem_append_right _ (List.mem_cons_of_mem _ hc)
  have hends : ∀ c ∈ p.key ++ p.value, c ≠ '\n' ∧ c ≠ '\r' ∧ c ≠ ';' := by
    intro c hc
    simpa [isEntryEnd] using (Text.mem_of_mem_splitOnP hpiece c (hmem c hc)).2
  refine ⟨⟨fun hc => hname (hstart.mem hc), fun hc => ?_, fun hc => ?_⟩,
    ⟨hne, ?_, ?_, hright, fun c hc => (hends c hc).2⟩⟩
  · exact (hends _ (List.mem_append_left _ hc)).1 rfl
  · exact (hends _ (List.mem_append_right _ hc)).1 rfl
  · rw [← hkey]
    exact Text.trimBy_trimBy
  · have hline : p.key <+: trim piece := hstart.trans ⟨_, hcut⟩
    obtain ⟨rest, hrest⟩ := hline
    rw [← hrest, List.head?_append_of_ne_nil _ hne] at hhead
    exact hhead

theorem kvPairsToText_of_survive {pairs : List KeyValuePair}
    (h : ∀ p ∈ pairs, VarSurvives p.key p.value) : kvPairsToText pairs =
      if pairs.isEmpty then none
      else some (Text.joinLines (pairs.map fun p => InputCrypto.keyValueLine p.key p.value)) := by
  have hlines : (pairs.filterMap fun p => if (trim p.key).isEmpty then none
      else some (InputCrypto.keyValueLine (trim p.key) p.value)) =
        pairs.map fun p => InputCrypto.keyValueLine p.key p.value := by
    rw [← List.filterMap_eq_map]
    refine List.filterMap_congr fun p hp => ?_
    have hkey := (h p hp).key_trimmed
    rw [hkey, if_neg (fun hempty => (h p hp).key_ne (List.isEmpty_iff.mp hempty))]
    rfl
  rw [kvPairsToText, hlines, List.isEmpty_map]

/-- The request has the variables of the form. -/
theorem textVars_kvPairsToText {pairs : List KeyValuePair}
    (h : ∀ p ∈ pairs, IsDecodable p.key p.value ∧ VarSurvives p.key p.value) :
    textVars (kvPairsToText (ensureKvPairs pairs)) = pairs.map fun p => (p.key, p.value) := by
  cases pairs with
  | nil => rfl
  | cons first rest =>
      have hdecode : ∀ p ∈ first :: rest,
          decodeLine (InputCrypto.keyValueLine p.key p.value) = .ok (p.key, p.value) := fun p hp =>
        decodeLine_keyValueLine (h p hp).1
      have hnewline : ∀ line ∈ (first :: rest).map fun p => InputCrypto.keyValueLine p.key p.value,
          '\n' ∉ line := by
        intro line hline
        obtain ⟨p, hp, rfl⟩ := List.mem_map.mp hline
        exact newline_notMem_keyValueLine (h p hp).1
      have hlines := List.splitOn_intercalate '\n' hnewline (by simp)
      rw [ensureKvPairs, if_neg (by simp), kvPairsToText_of_survive fun p hp => (h p hp).2,
        if_neg (by simp), textVars, Option.getD_some, Text.joinLines, hlines, List.filterMap_map,
        ← List.filterMap_eq_map]
      refine List.filterMap_congr fun p hp => ?_
      rw [Function.comp_apply, hdecode p hp]
      rfl

/-- The text that an untouched form sends for a stored one. -/
def resubmit (text : Option Text) : Option Text := kvPairsToText (ensureKvPairs (parseKvPairs text))

theorem textVars_resubmit (text : Option Text) :
    textVars (resubmit text) = (parseKvPairs text).map fun p => (p.key, p.value) :=
  textVars_kvPairsToText fun _ hp => survives_of_mem_parseKvPairs hp

/-- An untouched form keeps the map of a text exactly if each of its variables survives. -/
theorem varMap_resubmit_iff {text : Option Text} (hnodup : ((textVars text).map Prod.fst).Nodup) :
    varMap (resubmit text) = varMap text ↔ ∀ e ∈ textVars text, VarSurvives e.1 e.2 := by
  constructor
  · rintro hsame ⟨key, value⟩ he
    have hstored : varMap text key = some value := by
      rw [varMap, Dict.ofPairs_of_nodup hnodup, Dict.lookup_eq_some_iff hnodup]
      exact he
    rw [← hsame, varMap, Dict.lookup_eq_some_iff (Dict.nodup_ofPairs _)] at hstored
    have hsent := Dict.mem_of_mem_ofPairs hstored
    rw [textVars_resubmit] at hsent
    obtain ⟨p, hp, heq⟩ := List.mem_map.mp hsent
    obtain ⟨rfl, rfl⟩ := Prod.mk.inj heq
    exact (survives_of_mem_parseKvPairs hp).2
  · intro h
    have hvars : textVars (resubmit text) = textVars text := by
      rw [textVars_resubmit, parseKvPairs_of_survive h, List.map_map]
      exact List.map_id _
    funext key
    rw [varMap, hvars, varMap]

end PdeOperator.EditForm
