import PdeOperator.ConfigImport
import PdeOperator.EditForm
import PdeOperator.JobEnv

/-! The tags and the environment of the edit forms: which of them come back as they went in. -/

namespace PdeOperator.EditForm
open Base Js

/-- A tag that the form shows as one tag. -/
def TagSurvives (tag : Text) : Prop := trim tag = tag ∧ ∀ c ∈ tag, isTagEnd c = false

instance (tag : Text) : Decidable (TagSurvives tag) := instDecidableAnd

theorem tagSurvives_of_mem_parseTagsText {text tag : Text} (h : tag ∈ parseTagsText text) :
    TagSurvives tag := by
  rw [parseTagsText, mem_distinct, List.mem_filter, List.mem_map] at h
  obtain ⟨⟨piece, hpiece, rfl⟩, -⟩ := h
  exact ⟨Text.trimBy_trimBy, fun c hc =>
    (Text.mem_of_mem_splitOnP hpiece c (Text.mem_of_mem_trimBy hc)).2⟩

theorem tagsToText_cons_cons (tag next : Text) (tags : List Text) :
    tagsToText (tag :: next :: tags) = tag ++ ',' :: ' ' :: tagsToText (next :: tags) := by
  rw [tagsToText, List.intercalate_cons_cons, tagsToText, List.append_assoc]
  rfl

/-- A tag behind some spaces is one piece. -/
theorem piece_of_survives {tag spaces : Text} (hspaces : ∀ c ∈ spaces, c = ' ')
    (h : TagSurvives tag) : (∀ c ∈ spaces ++ tag, isTagEnd c = false) ∧ trim (spaces ++ tag) = tag := by
  constructor
  · intro c hc
    rcases List.mem_append.mp hc with hc | hc
    · rw [hspaces c hc]
      rfl
    · exact h.2 c hc
  · have hskip : trim (spaces ++ tag) = trim tag :=
      Text.trimBy_append_of_all fun c hc => by rw [hspaces c hc]; rfl
    exact hskip.trans h.1

/-- The pieces are the tags; the first of them may stand behind some spaces. -/
theorem map_trim_splitOnP_tagsToText {tag : Text} {tags : List Text} {spaces : Text}
    (hspaces : ∀ c ∈ spaces, c = ' ') (h : ∀ t ∈ tag :: tags, TagSurvives t) :
    ((spaces ++ tagsToText (tag :: tags)).splitOnP isTagEnd).map trim = tag :: tags := by
  induction tags generalizing tag spaces with
  | nil =>
      obtain ⟨hends, htrim⟩ := piece_of_survives hspaces (h tag List.mem_cons_self)
      rw [tagsToText, List.intercalate_singleton, List.splitOnP_eq_singleton hends, List.map_singleton,
        htrim]
  | cons next tags ih =>
      obtain ⟨hends, htrim⟩ := piece_of_survives hspaces (h tag List.mem_cons_self)
      have hlater : ((' ' :: tagsToText (next :: tags)).splitOnP isTagEnd).map trim = next :: tags :=
        @ih next [' '] (fun c hc => List.mem_singleton.mp hc)
          fun t ht => h t (List.mem_cons_of_mem _ ht)
      rw [tagsToText_cons_cons, ← List.append_assoc,
        List.splitOnP_append_cons_of_forall_mem hends ',' rfl, List.map_cons, htrim, hlater]

/-- An untouched form keeps the tags exactly if each of them survives. -/
theorem parseTagsText_tagsToText_iff {tags : List Text} (hne : ∀ tag ∈ tags, tag ≠ [])
    (hnodup : tags.Nodup) :
    parseTagsText (tagsToText tags) = tags ↔ ∀ tag ∈ tags, TagSurvives tag := by
  constructor
  · intro hsame tag htag
    exact @tagSurvives_of_mem_parseTagsText (tagsToText tags) tag (hsame.symm ▸ htag)
  · intro h
    cases tags with
    | nil => rfl
    | cons tag tags =>
        have hpieces := @map_trim_splitOnP_tagsToText tag tags [] (fun c hc => absurd hc List.not_mem_nil) h
        rw [List.nil_append] at hpieces
        rw [parseTagsText, hpieces, List.filter_eq_self.mpr, distinct_of_nodup hnodup]
        intro t ht
        have := hne t ht
        cases t with
        | nil => exact absurd rfl this
        | cons c t => rfl

theorem normalizeTags_eq (tags : List Text) : ConfigImport.normalizeTags tags =
    distinct ((tags.map Text.strip).filter fun tag => !tag.isEmpty) := by
  rw [ConfigImport.normalizeTags, distinct]
  congr 1
  funext out tag
  by_cases h : tag ∈ out
  · rw [if_pos h, if_pos h]
  · rw [if_neg h, if_neg h]

theorem ne_nil_of_mem_normalizeTags {tags : List Text} :
    ∀ tag ∈ ConfigImport.normalizeTags tags, tag ≠ [] := by
  rintro _ htag rfl
  rw [normalizeTags_eq, mem_distinct, List.mem_filter] at htag
  exact absurd htag.2 (by decide)

theorem nodup_normalizeTags (tags : List Text) : (ConfigImport.normalizeTags tags).Nodup := by
  rw [normalizeTags_eq]
  exact nodup_distinct _

/-- The texts that Python has for JSON values. -/
structure PythonTexts (lib : JobLibrary) : Prop where
  str_str : ∀ s, lib.str (.str s) = s
  str_null : lib.str .null = "None".toList
  str_true : lib.str (.bool true) = "True".toList
  str_false : lib.str (.bool false) = "False".toList
  jsonDumps : ∀ value, lib.jsonDumps value = Json.dumps lib.str value

/-- The strings that the values of an environment stand for. -/
def envMap (lib : JobLibrary) (env : Option JsonObject) (name : Text) : Option Text :=
  ((env.getD []).lookup name).map (EnvUtils.envValueToStr lib)

theorem lookup_foldl_mergeEntry {lib : JobLibrary} {env : JsonObject}
    (hnodup : (env.map Prod.fst).Nodup) (hnull : ∀ e ∈ env, e.2 ≠ .null) (merged : EnvUtils.Env)
    (name : Text) : (env.foldl (EnvUtils.mergeEntry lib) merged).lookup name =
      ((env.lookup name).map (EnvUtils.envValueToStr lib)).or (merged.lookup name) := by
  induction env generalizing merged with
  | nil => rfl
  | cons entry env ih =>
      rw [List.map_cons, List.nodup_cons] at hnodup
      have hentry : EnvUtils.mergeEntry lib merged entry =
          merged.insert entry.1 (EnvUtils.envValueToStr lib entry.2) :=
        if_neg (hnull entry List.mem_cons_self)
      rw [List.foldl_cons, hentry, ih hnodup.2 fun e he => hnull e (List.mem_cons_of_mem _ he)]
      by_cases hname : name = entry.1
      · have habsent : env.lookup name = none := by
          rw [List.lookup_eq_none_iff]
          intro e he
          rw [bne_iff_ne, hname]
          exact fun heq => hnodup.1 (heq ▸ List.mem_map_of_mem he)
        rw [habsent, hname, AList.lookup_insert, List.lookup_cons_self]
        rfl
      · rw [AList.lookup_insert_ne hname, List.lookup_cons, beq_false_of_ne hname]

/-- Without null among its values an environment is merged as the strings that it stands for. -/
theorem lookup_mergeEnvVars {lib : JobLibrary} {env : Option JsonObject}
    (hnodup : ((env.getD []).map Prod.fst).Nodup) (hnull : ∀ e ∈ env.getD [], e.2 ≠ .null)
    (name : Text) : (EnvUtils.mergeEnvVars lib [env]).lookup name = envMap lib env name := by
  rw [EnvUtils.mergeEnvVars, List.foldl_cons, List.foldl_nil, lookup_foldl_mergeEntry hnodup hnull,
    AList.lookup_empty, Option.or_none, envMap]

/-- A value whose text in the browser is the one that the operator takes for it. A number survives
where the two languages write it alike. -/
def ValueSurvives (lib : JobLibrary) (number : Json → Text) : Json → Prop
  | .str _ => True
  | .int n => number (.int n) = lib.str (.int n)
  | .float literal => number (.float literal) = lib.str (.float literal)
  | .null | .bool _ | .arr _ | .obj _ => False

structure EnvSurvives (lib : JobLibrary) (number : Json → Text) (name : Text) (value : Json) :
    Prop where
  name_ne : name ≠ []
  name_trimmed : trim name = name
  name_ne_proto : name ≠ proto
  value : ValueSurvives lib number value

section Env

variable {lib : JobLibrary} {number : Json → Text}

theorem itemText_eq_iff (hlib : PythonTexts lib) (hnumber : IsNumberText number) (value : Json) :
    itemText number value = EnvUtils.envValueToStr lib value ↔ ValueSurvives lib number value := by
  cases value with
  | null =>
      refine iff_of_false (fun h => ?_) id
      have htext : [] = lib.str .null := h
      rw [hlib.str_null] at htext
      cases htext
  | bool b =>
      refine iff_of_false (fun h => ?_) id
      cases b with
      | true =>
          have htext : "true".toList = lib.str (.bool true) := h
          rw [hlib.str_true] at htext
          exact absurd htext (by decide)
      | false =>
          have htext : "false".toList = lib.str (.bool false) := h
          rw [hlib.str_false] at htext
          exact absurd htext (by decide)
  | int n => exact Iff.rfl
  | float literal => exact Iff.rfl
  | str s => exact iff_of_true (hlib.str_str s).symm trivial
  | arr items =>
      refine iff_of_false (fun h => ?_) id
      rw [EnvUtils.envValueToStr, hlib.jsonDumps] at h
      exact string_arr_ne_dumps hnumber lib.str items h
  | obj fields =>
      refine iff_of_false (fun h => ?_) id
      rw [EnvUtils.envValueToStr, hlib.jsonDumps] at h
      exact string_obj_ne_dumps number lib.str fields h

/-- What a row of the form assigns to the record. -/
def assignment (p : KeyValuePair) : Option (Text × Value) :=
  if (trim p.key).isEmpty then none else some (trim p.key, .str p.value)

/-- The environment that an untouched form sends for a stored one. -/
def resubmitEnv (number : Json → Text) (env : Option JsonObject) : Option JsonObject :=
  (kvPairsToRecord (ensureKvPairs (recordToKvPairs number env))).map recordBody

/-- The record of the form of an environment. -/
def formRecord (number : Json → Text) (env : Option JsonObject) : Object :=
  Object.assign ((recordToKvPairs number env).filterMap assignment)

theorem foldl_set_eq (pairs : List KeyValuePair) :
    pairs.foldl (fun (result : Object) p =>
      if (trim p.key).isEmpty then result else result.set (trim p.key) (.str p.value)) {} =
        Object.assign (pairs.filterMap assignment) := by
  rw [Object.assign, List.foldl_filterMap]
  congr 1
  funext result p
  unfold assignment
  cases (trim p.key).isEmpty with
  | true => rfl
  | false => rfl

/-- A record without properties is sent as null. -/
theorem getD_resubmitEnv (env : Option JsonObject) :
    (resubmitEnv number env).getD [] = recordBody (formRecord number env) := by
  have hrows : (ensureKvPairs (recordToKvPairs number env)).filterMap assignment =
      (recordToKvPairs number env).filterMap assignment := by
    unfold ensureKvPairs
    split
    · next hempty =>
      rw [List.isEmpty_iff.mp hempty]
      rfl
    · rfl
  rw [resubmitEnv, kvPairsToRecord, foldl_set_eq, hrows, ← formRecord]
  split
  · next hempty =>
    rw [recordBody, List.isEmpty_iff.mp hempty]
    rfl
  · rfl

theorem mem_recordBody_iff {record : Object} {name : Text} {value : Json} :
    (name, value) ∈ recordBody record ↔ ∃ s, value = .str s ∧ (name, .str s) ∈ record.own := by
  rw [recordBody, List.mem_filterMap]
  constructor
  · rintro ⟨⟨own, held⟩, hmem, hbody⟩
    cases held with
    | str s =>
        obtain ⟨rfl, rfl⟩ := Prod.mk.inj (Option.some.inj hbody)
        exact ⟨s, rfl, hmem⟩
    | undefined => cases hbody
    | null => cases hbody
    | bool b => cases hbody
    | other text => cases hbody
  · rintro ⟨s, rfl, hmem⟩
    exact ⟨_, hmem, rfl⟩

theorem nodup_recordBody_formRecord (env : Option JsonObject) :
    ((recordBody (formRecord number env)).map Prod.fst).Nodup := by
  refine (Object.nodup_own_assign _).sublist (Dict.keys_filterMap_sublist ?_ _)
  rintro ⟨name, value⟩ result hresult
  cases value with
  | str s =>
      obtain rfl := Option.some.inj hresult
      rfl
  | undefined => cases hresult
  | null => cases hresult
  | bool b => cases hresult
  | other text => cases hresult

theorem mem_recordToKvPairs_iff {env : Option JsonObject} {p : KeyValuePair} :
    p ∈ recordToKvPairs number env ↔
      ∃ value, (p.key, value) ∈ env.getD [] ∧ itemText number value = p.value := by
  rw [recordToKvPairs, List.mem_map]
  constructor
  · rintro ⟨⟨name, value⟩, hmem, rfl⟩
    exact ⟨value, (entries_perm _).mem_iff.mp hmem, rfl⟩
  · rintro ⟨value, hmem, hvalue⟩
    refine ⟨(p.key, value), (entries_perm _).mem_iff.mpr hmem, ?_⟩
    rw [hvalue]

theorem assignment_eq_some_iff {p : KeyValuePair} {name : Text} {value : Value} :
    assignment p = some (name, value) ↔ name ≠ [] ∧ trim p.key = name ∧ value = .str p.value := by
  unfold assignment
  split
  · next hempty =>
    refine iff_of_false nofun ?_
    rintro ⟨hne, rfl, -⟩
    exact hne (List.isEmpty_iff.mp hempty)
  · next hne =>
    rw [List.isEmpty_iff] at hne
    rw [Option.some.injEq, Prod.mk.injEq]
    constructor
    · rintro ⟨rfl, rfl⟩
      exact ⟨hne, rfl, rfl⟩
    · rintro ⟨-, hkey, hvalue⟩
      exact ⟨hkey, hvalue.symm⟩

/-- A name that is sent is a trimmed one of the stored names, with the text of its value. -/
theorem stored_of_mem_recordBody {env : Option JsonObject} {name : Text} {value : Json}
    (h : (name, value) ∈ recordBody (formRecord number env)) :
    name ≠ [] ∧ name ≠ proto ∧ ∃ stored item, (stored, item) ∈ env.getD [] ∧ trim stored = name ∧
      value = .str (itemText number item) := by
  obtain ⟨s, rfl, hown⟩ := mem_recordBody_iff.mp h
  have hstrings : ∀ pair ∈ (recordToKvPairs number env).filterMap assignment, pair.2 ≠ .null := by
    intro pair hpair hnull
    obtain ⟨p, -, hassign⟩ := List.mem_filterMap.mp hpair
    have hvalue := (assignment_eq_some_iff.mp hassign).2.2
    rw [hnull] at hvalue
    cases hvalue
  obtain ⟨p, hp, hassign⟩ := List.mem_filterMap.mp (Object.mem_of_mem_own_assign hown)
  obtain ⟨hne, hkey, hvalue⟩ := assignment_eq_some_iff.mp hassign
  obtain ⟨item, hitem, htext⟩ := mem_recordToKvPairs_iff.mp hp
  refine ⟨hne, fun heq => ?_, p.key, item, hitem, hkey, ?_⟩
  · exact (Object.proto_notMem_own_assign hstrings).2 (heq ▸ List.mem_map_of_mem hown)
  · rw [htext, Value.str.inj hvalue]

/-- If all variables survive, each of them is sent with its own text. -/
theorem mem_recordBody_of_survive {env : Option JsonObject}
    (hnodup : ((env.getD []).map Prod.fst).Nodup)
    (h : ∀ e ∈ env.getD [], EnvSurvives lib number e.1 e.2) {name : Text} {value : Json}
    (hmem : (name, value) ∈ env.getD []) :
    (name, .str (itemText number value)) ∈ recordBody (formRecord number env) := by
  have hassign : (recordToKvPairs number env).filterMap assignment =
      (entries (env.getD [])).map fun e => (e.1, .str (itemText number e.2)) := by
    rw [recordToKvPairs, List.filterMap_map, ← List.filterMap_eq_map]
    refine List.filterMap_congr fun e he => ?_
    have hsurvives := h e ((entries_perm _).mem_iff.mp he)
    exact assignment_eq_some_iff.mpr ⟨hsurvives.name_ne, hsurvives.name_trimmed, rfl⟩
  have hkeys : (((entries (env.getD [])).map fun e =>
      (e.1, Value.str (itemText number e.2))).map Prod.fst).Nodup := by
    rw [List.map_map]
    exact ((entries_perm _).map Prod.fst).nodup_iff.mpr hnodup
  rw [mem_recordBody_iff]
  refine ⟨_, rfl, ?_⟩
  rw [formRecord, hassign, Object.assign_eq hkeys, List.mem_filter]
  refine ⟨List.mem_map.mpr ⟨(name, value), (entries_perm _).mem_iff.mpr hmem, rfl⟩, ?_⟩
  exact decide_eq_true (h _ hmem).name_ne_proto

/-- An untouched form keeps the strings of an environment exactly if each of its variables survives. -/
theorem envMap_resubmitEnv_iff (hlib : PythonTexts lib) (hnumber : IsNumberText number)
    {env : Option JsonObject} (hnodup : ((env.getD []).map Prod.fst).Nodup) :
    envMap lib (resubmitEnv number env) = envMap lib env ↔
      ∀ e ∈ env.getD [], EnvSurvives lib number e.1 e.2 := by
  have hsent : ∀ name, envMap lib (resubmitEnv number env) name =
      ((recordBody (formRecord number env)).lookup name).map (EnvUtils.envValueToStr lib) :=
    fun name => by rw [envMap, getD_resubmitEnv]
  constructor
  · intro hsame
    -- every stored name is sent, and so it is a trimmed name
    have hfind : ∀ name value, (name, value) ∈ env.getD [] → name ≠ [] ∧ name ≠ proto ∧
        ∃ stored item, (stored, item) ∈ env.getD [] ∧ trim stored = name ∧
          itemText number item = EnvUtils.envValueToStr lib value := by
      intro name value hmem
      have hstored := (hsent name).symm.trans (congrFun hsame name)
      rw [envMap, (Dict.lookup_eq_some_iff hnodup).mpr hmem] at hstored
      obtain ⟨body, hbody, htext⟩ := Option.map_eq_some_iff.mp hstored
      rw [Dict.lookup_eq_some_iff (nodup_recordBody_formRecord env)] at hbody
      obtain ⟨hne, hproto, stored, item, hitem, htrim, rfl⟩ := stored_of_mem_recordBody hbody
      exact ⟨hne, hproto, stored, item, hitem, htrim, (hlib.str_str _).symm.trans htext⟩
    have htrimmed : ∀ name value, (name, value) ∈ env.getD [] → trim name = name := by
      intro name value hmem
      obtain ⟨-, -, stored, item, -, rfl, -⟩ := hfind name value hmem
      exact Text.trimBy_trimBy
    rintro ⟨name, value⟩ hmem
    obtain ⟨hne, hproto, stored, item, hitem, htrim, htext⟩ := hfind name value hmem
    rw [htrimmed stored item hitem] at htrim
    subst htrim
    have hvalue : item = value := by
      have hlookup := (Dict.lookup_eq_some_iff hnodup).mpr hitem
      rw [(Dict.lookup_eq_some_iff hnodup).mpr hmem] at hlookup
      exact (Option.some.inj hlookup).symm
    subst hvalue
    exact ⟨hne, htrimmed _ _ hmem, hproto, (itemText_eq_iff hlib hnumber item).mp htext⟩
  · intro h
    funext name
    rw [hsent, envMap]
    cases hlookup : (env.getD []).lookup name with
    | some value =>
        have hmem := (Dict.lookup_eq_some_iff hnodup).mp hlookup
        rw [(Dict.lookup_eq_some_iff (nodup_recordBody_formRecord env)).mpr
          (mem_recordBody_of_survive hnodup h hmem), Option.map_some, Option.map_some]
        have htext := (itemText_eq_iff hlib hnumber value).mpr (h _ hmem).value
        rw [← htext]
        exact congrArg some (hlib.str_str _)
    | none =>
        cases hbody : (recordBody (formRecord number env)).lookup name with
        | none => rfl
        | some body =>
            rw [Dict.lookup_eq_some_iff (nodup_recordBody_formRecord env)] at hbody
            obtain ⟨-, -, stored, item, hitem, rfl, -⟩ := stored_of_mem_recordBody hbody
            have htrim : trim stored = stored := (h _ hitem).name_trimmed
            rw [htrim, (Dict.lookup_eq_some_iff hnodup).mpr hitem] at hlookup
            cases hlookup

/-- The container then gets the same environment. -/
theorem lookup_mergeEnvVars_resubmitEnv (hlib : PythonTexts lib) (hnumber : IsNumberText number)
    {env : Option JsonObject} (hnodup : ((env.getD []).map Prod.fst).Nodup)
    (h : ∀ e ∈ env.getD [], EnvSurvives lib number e.1 e.2) (name : Text) :
    (EnvUtils.mergeEnvVars lib [resubmitEnv number env]).lookup name =
      (EnvUtils.mergeEnvVars lib [env]).lookup name := by
  have hstored : ∀ e ∈ env.getD [], e.2 ≠ .null := by
    intro e he hnull
    have hvalue := (h e he).value
    rw [hnull] at hvalue
    exact hvalue
  have hsent : ∀ e ∈ (resubmitEnv number env).getD [], e.2 ≠ .null := by
    rintro ⟨sent, value⟩ he rfl
    rw [getD_resubmitEnv] at he
    obtain ⟨s, heq, -⟩ := mem_recordBody_iff.mp he
    cases heq
  have hkeys : (((resubmitEnv number env).getD []).map Prod.fst).Nodup := by
    rw [getD_resubmitEnv]
    exact nodup_recordBody_formRecord env
  rw [lookup_mergeEnvVars hkeys hsent, lookup_mergeEnvVars hnodup hstored,
    (envMap_resubmitEnv_iff hlib hnumber hnodup).mpr h]

end Env

end PdeOperator.EditForm
