import PdeOperator.DeclarativeEngine
import PdeOperator.InputCryptoRoundTrip

/-! Reading the assembled texts of pipeline variables back: each line is a variable, and the first `=` of
the line ends its name. -/

namespace PdeOperator
open Base

namespace Declarative

/-- A line, cut at its first `=`; a line without one is no variable. -/
def decodeLine (line : Text) : Except Text (Text × Text) :=
  if '=' ∈ line then .ok (Text.partition '=' line) else .error line

def decodeVars : Option Text → Except Text (List (Text × Text))
  | none => .ok []
  | some text => (List.splitOn '\n' text).mapM decodeLine

/-- The text decodes to exactly the given map of variables. -/
def DecodesTo (text : Option Text) (vars : Text → Text → Prop) : Prop :=
  ∃ decoded, decodeVars text = .ok decoded ∧ (decoded.map Prod.fst).Nodup ∧
    ∀ name value, (name, value) ∈ decoded ↔ vars name value

/-- A name and a value that a line can hold. -/
def IsDecodable (name value : Text) : Prop := '=' ∉ name ∧ '\n' ∉ name ∧ '\n' ∉ value

theorem DecodesTo.congr {text : Option Text} {vars vars' : Text → Text → Prop}
    (h : ∀ name value, vars name value ↔ vars' name value) :
    DecodesTo text vars ↔ DecodesTo text vars' := by
  simp only [DecodesTo, h]

theorem newline_notMem_of_mem_splitOn {text line : Text} (h : line ∈ List.splitOn '\n' text) :
    '\n' ∉ line := by
  intro hmem
  rw [List.splitOn_eq_splitOnP] at h
  exact absurd (Text.mem_of_mem_splitOnP h _ hmem).2 (by decide)

/-- What comes out of the decoder can be held by a line. -/
theorem isDecodable_of_mem {text : Option Text} {decoded : List (Text × Text)}
    (h : decodeVars text = .ok decoded) {name value : Text} (hmem : (name, value) ∈ decoded) :
    IsDecodable name value := by
  cases text with
  | none =>
      obtain rfl := Except.ok.inj h
      exact absurd hmem List.not_mem_nil
  | some text =>
      obtain ⟨line, hline, hdecode⟩ := mem_of_mapM_ok h hmem
      have hnewline := newline_notMem_of_mem_splitOn hline
      unfold decodeLine at hdecode
      split at hdecode
      · next hequals =>
        have hparts := Except.ok.inj hdecode
        have hcut := Text.partition_append hequals
        have hname := Text.partition_fst_notMem '=' line
        rw [hparts] at hcut hname
        rw [← hcut, List.mem_append, List.mem_cons, not_or, not_or] at hnewline
        exact ⟨hname, hnewline.1, hnewline.2.2⟩
      · cases hdecode

theorem decodeLine_keyValueLine {name value : Text} (h : IsDecodable name value) :
    decodeLine (InputCrypto.keyValueLine name value) = .ok (name, value) := by
  rw [decodeLine, if_pos (InputCrypto.mem_keyValueLine name value),
    InputCrypto.partition_keyValueLine h.1]

theorem newline_notMem_keyValueLine {name value : Text} (h : IsDecodable name value) :
    '\n' ∉ InputCrypto.keyValueLine name value := by
  rw [InputCrypto.keyValueLine, List.mem_append, List.mem_cons, not_or, not_or]
  exact ⟨h.2.1, by decide, h.2.2⟩

namespace Engine

theorem mem_sortVars {vars : List (Text × Text)} {entry : Text × Text} :
    entry ∈ sortVars vars ↔ entry ∈ vars := List.mem_mergeSort

theorem nodup_sortVars {vars : List (Text × Text)} (h : (vars.map Prod.fst).Nodup) :
    ((sortVars vars).map Prod.fst).Nodup :=
  (((List.mergeSort_perm _ _).map Prod.fst).nodup_iff).mpr h

/-- Variables that lines can hold are read back as they were. -/
theorem decodeVars_pipelineText {vars : List (Text × Text)}
    (h : ∀ entry ∈ vars, IsDecodable entry.1 entry.2) :
    decodeVars (pipelineText vars) = .ok (sortVars vars) := by
  rw [pipelineText]
  split
  · next hempty =>
    rw [List.isEmpty_iff.mp hempty, sortVars, List.mergeSort_nil]
    rfl
  · next hempty =>
    have hsorted : ∀ entry ∈ sortVars vars, IsDecodable entry.1 entry.2 := fun entry hentry =>
      h entry (mem_sortVars.mp hentry)
    have hlines : ∀ line ∈ (sortVars vars).map fun entry =>
        InputCrypto.keyValueLine entry.1 entry.2, '\n' ∉ line := by
      intro line hline
      obtain ⟨entry, hentry, rfl⟩ := List.mem_map.mp hline
      exact newline_notMem_keyValueLine (hsorted entry hentry)
    have hne : (sortVars vars).map (fun entry => InputCrypto.keyValueLine entry.1 entry.2) ≠ [] := by
      intro hnil
      have hlength := congrArg List.length hnil
      rw [List.length_map, sortVars, List.length_mergeSort, List.length_nil] at hlength
      exact hempty (List.isEmpty_iff.mpr (List.length_eq_zero_iff.mp hlength))
    have hdecode : ((sortVars vars).map fun entry => InputCrypto.keyValueLine entry.1 entry.2).mapM
        decodeLine = .ok (sortVars vars) := by
      rw [mapM_eq_ok_iff, List.forall₂_map_left_iff, List.forall₂_same]
      exact fun entry hentry => decodeLine_keyValueLine (hsorted entry hentry)
    rw [decodeVars, Text.joinLines, List.splitOn_intercalate '\n' hlines hne, hdecode]

/-- The text of some variables decodes to them exactly if lines can hold them all. -/
theorem decodesTo_pipelineText_iff {vars : List (Text × Text)} (hnodup : (vars.map Prod.fst).Nodup) :
    DecodesTo (pipelineText vars) (fun name value => (name, value) ∈ vars) ↔
      ∀ entry ∈ vars, IsDecodable entry.1 entry.2 := by
  constructor
  · rintro ⟨decoded, hdecoded, -, hmem⟩ ⟨name, value⟩ hentry
    exact isDecodable_of_mem hdecoded ((hmem name value).mpr hentry)
  · intro h
    exact ⟨sortVars vars, decodeVars_pipelineText h, nodup_sortVars hnodup,
      fun _ _ => mem_sortVars⟩

section Assembled

variable {lib : EngineLibrary} {contract : DeclarativeRunTemplate} {values : JsonObject}
  {effective : EffectiveFormState} {payload : AssembledRunPayload}

variable (lib contract values) in
/-- The map from name to text of the submitted fields that are bound to a pipeline variable; `secure`
tells which of the two texts they go to. -/
def SubmitsVar (secure : Bool) (name text : Text) : Prop :=
  ∃ field ∈ contract.fields, field.name = name ∧ field.bindTo = .pipelineVar ∧
    field.secure = secure ∧ isEmpty (resolveField values name field) = false ∧
    asPipelineText lib (resolveField values name field) = text

theorem nodup_pipelineVars {secure : Bool} : ((pipelineVars lib effective secure
    (submittedValues contract values)).map Prod.fst).Nodup := by
  refine nodup_submittedValues.sublist (Dict.keys_filterMap_sublist ?_ _)
  intro entry result hresult
  split at hresult
  · cases hresult
  · split at hresult
    · exact congrArg Prod.fst (Option.some.inj hresult).symm
    · cases hresult

theorem mem_pipelineVars_iff (hnodup : (contract.fields.map FieldSpec.name).Nodup)
    (heffective : effective.fields = contract.fieldsByName) {secure : Bool} {name text : Text} :
    (name, text) ∈ pipelineVars lib effective secure (submittedValues contract values) ↔
      SubmitsVar lib contract values secure name text := by
  rw [pipelineVars, List.mem_filterMap]
  constructor
  · rintro ⟨⟨n, value⟩, hsubmitted, heq⟩
    obtain ⟨field, hfield, rfl, hvalue⟩ := mem_submittedValues_iff.mp hsubmitted
    rw [lookup_fields heffective hfield] at heq
    dsimp only at heq
    split at heq
    · next hbound =>
      obtain ⟨rfl, rfl⟩ := Prod.mk.inj (Option.some.inj heq)
      obtain ⟨hmem, hname⟩ := (mem_fieldsByName_iff hnodup).mp hfield
      exact ⟨field, hmem, hname, hbound.1, hbound.2, hvalue, rfl⟩
    · cases heq
  · rintro ⟨field, hmem, hname, hbind, hsecure, hvalue, rfl⟩
    have hfield := (mem_fieldsByName_iff hnodup).mpr ⟨hmem, hname⟩
    refine ⟨(name, resolveField values name field),
      mem_submittedValues_iff.mpr ⟨field, hfield, rfl, hvalue⟩, ?_⟩
    rw [lookup_fields heffective hfield]
    exact if_pos ⟨hbind, hsecure⟩

/-- One of the two texts decodes exactly if lines can hold all of its variables. -/
theorem decodesTo_vars_iff (hnodup : (contract.fields.map FieldSpec.name).Nodup)
    (h : buildRunPayload lib contract values = .ok payload) (secure : Bool) :
    DecodesTo (if secure then payload.pipelineVarsSecure else payload.pipelineVars)
        (SubmitsVar lib contract values secure) ↔
      ∀ name text, SubmitsVar lib contract values secure name text → IsDecodable name text := by
  obtain ⟨effective, hevaluate, -, hassemble⟩ := buildRunPayload_eq_ok h
  have hmem : ∀ name text, (name, text) ∈ pipelineVars lib effective secure
      (submittedValues contract values) ↔ SubmitsVar lib contract values secure name text :=
    fun _ _ => mem_pipelineVars_iff hnodup (evaluate_fields hevaluate)
  have htext : (if secure then payload.pipelineVarsSecure else payload.pipelineVars) =
      pipelineText (pipelineVars lib effective secure (submittedValues contract values)) := by
    cases secure with
    | false => exact (assemble_texts hassemble).1
    | true => exact (assemble_texts hassemble).2
  rw [htext, ← DecodesTo.congr hmem, decodesTo_pipelineText_iff nodup_pipelineVars]
  constructor
  · exact fun hall name text hsubmits => hall (name, text) ((hmem name text).mpr hsubmits)
  · exact fun hall entry hentry => hall entry.1 entry.2 ((hmem entry.1 entry.2).mp hentry)

variable (lib contract values) in
/-- No variable that is submitted has an `=` or a newline in its name, or a newline in its text. -/
def LinesHoldVars : Prop :=
  ∀ field ∈ contract.fields, field.bindTo = .pipelineVar →
    isEmpty (resolveField values field.name field) = false →
    IsDecodable field.name (asPipelineText lib (resolveField values field.name field))

theorem linesHoldVars_iff : LinesHoldVars lib contract values ↔
    ∀ secure name text, SubmitsVar lib contract values secure name text → IsDecodable name text := by
  constructor
  · rintro h secure name text ⟨field, hfield, rfl, hbind, -, hvalue, rfl⟩
    exact h field hfield hbind hvalue
  · intro h field hfield hbind hvalue
    exact h field.secure _ _ ⟨field, hfield, rfl, hbind, rfl, hvalue, rfl⟩

/-- The two assembled texts decode to exactly the submitted variables if and only if lines can hold
all of these. -/
theorem assembled_decodes_iff (hnodup : (contract.fields.map FieldSpec.name).Nodup)
    (h : buildRunPayload lib contract values = .ok payload) :
    DecodesTo payload.pipelineVars (SubmitsVar lib contract values false) ∧
        DecodesTo payload.pipelineVarsSecure (SubmitsVar lib contract values true) ↔
      LinesHoldVars lib contract values := by
  have hplain : DecodesTo payload.pipelineVars (SubmitsVar lib contract values false) ↔ _ :=
    decodesTo_vars_iff hnodup h false
  have hsecure : DecodesTo payload.pipelineVarsSecure (SubmitsVar lib contract values true) ↔ _ :=
    decodesTo_vars_iff hnodup h true
  rw [hplain, hsecure, linesHoldVars_iff]
  constructor
  · rintro ⟨hfalse, htrue⟩ secure
    cases secure with
    | false => exact hfalse
    | true => exact htrue
  · exact fun hall => ⟨hall false, hall true⟩

end Assembled

/-- A field for a value, and a hidden one with a default. -/
def sampleContract : DeclarativeRunTemplate where
  fields :=
    [{ name := "DATA".toList, value := .str "stages: []".toList, bindTo := .pipelineData },
      { name := "BRANCH".toList },
      { name := "TARGET".toList, value := .str "staging".toList, hidden := true }]

theorem assembled_decodes_iff_branch : ∃ payload,
    buildRunPayload plainLibrary sampleContract [("BRANCH".toList, .str "main".toList)] =
      .ok payload ∧
    DecodesTo payload.pipelineVars (SubmitsVar plainLibrary sampleContract
      [("BRANCH".toList, .str "main".toList)] false) := by
  have hlines : LinesHoldVars plainLibrary sampleContract
      [("BRANCH".toList, .str "main".toList)] := by
    intro field hfield
    simp only [sampleContract, List.mem_cons, List.not_mem_nil, or_false] at hfield
    rcases hfield with rfl | rfl | rfl
    · exact fun hbind => absurd hbind (by decide)
    · exact fun _ _ => ⟨by decide, by decide, by decide⟩
    · exact fun _ _ => ⟨by decide, by decide, by decide⟩
  obtain ⟨payload, hpayload⟩ : ∃ payload, buildRunPayload plainLibrary sampleContract
      [("BRANCH".toList, .str "main".toList)] = .ok payload := ⟨_, rfl⟩
  exact ⟨payload, hpayload, ((assembled_decodes_iff (by decide) hpayload).mpr hlines).1⟩

/-- A value with a newline sets a variable of its own: here the hidden one. -/
theorem newline_overrides_hidden : ∃ payload,
    (sampleContract.fields.map FieldSpec.name).Nodup ∧
    buildRunPayload plainLibrary sampleContract
      [("BRANCH".toList, .str "main\nTARGET=production".toList)] = .ok payload ∧
    ¬(DecodesTo payload.pipelineVars (SubmitsVar plainLibrary sampleContract
        [("BRANCH".toList, .str "main\nTARGET=production".toList)] false) ∧
      DecodesTo payload.pipelineVarsSecure (SubmitsVar plainLibrary sampleContract
        [("BRANCH".toList, .str "main\nTARGET=production".toList)] true)) := by
  obtain ⟨payload, hpayload⟩ : ∃ payload, buildRunPayload plainLibrary sampleContract
      [("BRANCH".toList, .str "main\nTARGET=production".toList)] = .ok payload := ⟨_, rfl⟩
  refine ⟨payload, by decide, hpayload, fun h => ?_⟩
  have hsubmits : SubmitsVar plainLibrary sampleContract
      [("BRANCH".toList, .str "main\nTARGET=production".toList)] false "BRANCH".toList
      "main\nTARGET=production".toList :=
    ⟨{ name := "BRANCH".toList }, by simp [sampleContract], rfl, rfl, rfl, rfl, rfl⟩
  have hdecodable := (decodesTo_vars_iff (by decide) hpayload false).mp h.1 _ _ hsubmits
  exact absurd hdecodable.2.2 (by decide)

end Engine

end Declarative
end PdeOperator
