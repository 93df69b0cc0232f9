import PdeOperator.DeclarativeEngine
import PdeOperator.DeclarativeFormRun

/-! What a control of the form shows, compared with what the server reads of the value of its field: one
selected option, several of them, and the defaults of the contract. -/

namespace PdeOperator
open Base Js

namespace Declarative.FormView

/-- The value of a field for the server, which has its own defaults. -/
def submitted (s : State) (field : FormField) : Json :=
  Declarative.resolveField s.values field.name field.toFieldSpec

/-- The parts between commas of a text that is not taken for empty. -/
def denotedParts (value : Json) : List Text :=
  if Engine.isEmpty value then []
  else match value with
    | .str text => (text.splitOn ',').filter fun part => part ≠ []
    | _ => []

/-- The value is the one that is selected, or neither is anything. -/
def Denotes (value : Json) (selected : Text) : Prop :=
  value = .str selected ∨ (Engine.isEmpty value = true ∧ Text.isBlank selected = true)

/-- What the control of the field shows is what the server reads of its value. -/
def ShowsSubmitted (browser : Browser) (s : State) (field : FormField) : Prop :=
  match controlOf field with
  | .text => True
  | .checkbox => isChecked (current browser s field.name) = Engine.asBool (submitted s field)
  | .select => ∀ opts, optionsOf s field = some opts →
      Denotes (submitted s field) (selectedValue opts (current browser s field.name))
  | .multiSelect => ∀ opts, optionsOf s field = some opts → ∀ option,
      option ∈ highlighted opts (current browser s field.name) ↔ option ∈ denotedParts (submitted s field)

section Views

variable {browser : Browser} {s s' : State} {field : FormField} {name : Text} {value : Json}

theorem current_of_get (h : Json.get s.values name = some value) :
    current browser s name = ofJson browser value := by
  rw [current, get_ofValues, h]

theorem submitted_of_get (h : Json.get s.values field.name = some value) : submitted s field = value := by
  rw [submitted, Declarative.resolveField, h]
  rfl

/-- A text that the form holds is a value of its own. -/
theorem get_of_current {text : Text} (h : current browser s name = .str text) :
    Json.get s.values name = some (.str text) := by
  rw [current, get_ofValues] at h
  split at h
  · next value hvalue =>
    rw [hvalue]
    cases value <;> cases h
    rfl
  · rw [inherited] at h
    split at h
    · cases h
    · split at h
      · cases h
      · cases h

/-- What is shown and submitted of a field depends on its own value and options. -/
theorem showsSubmitted_congr (hvalues : Json.get s'.values field.name = Json.get s.values field.name)
    (hoptions : s'.options.lookup field.name = s.options.lookup field.name) :
    ShowsSubmitted browser s' field ↔ ShowsSubmitted browser s field := by
  have hcurrent : current browser s' field.name = current browser s field.name := by
    rw [current, get_ofValues, hvalues, current, get_ofValues]
  have hsubmitted : submitted s' field = submitted s field := by
    rw [submitted, Declarative.resolveField, hvalues, submitted, Declarative.resolveField]
  have hopts : optionsOf s' field = optionsOf s field := by
    rw [optionsOf, hoptions, optionsOf]
  rw [ShowsSubmitted, hcurrent, hsubmitted, hopts, ShowsSubmitted]

theorem get_setFieldValue_self : Json.get (setFieldValue s name value).values name = some value := by
  rw [setFieldValue]
  split
  · next h => exact h
  · exact Dict.lookup_set_self

theorem get_setFieldValue_of_ne {other : Text} (hne : other ≠ name) :
    Json.get (setFieldValue s name value).values other = Json.get s.values other := by
  rw [setFieldValue]
  split
  · rfl
  · exact Dict.lookup_set_of_ne hne

theorem options_setFieldValue : (setFieldValue s name value).options = s.options := by
  rw [setFieldValue]
  split <;> rfl

end Views

section Select

variable {opts : List EnumOpt} {text : Text} {value : Value}

theorem selectedValue_of_mem (h : text ∈ opts.map EnumOpt.value) : selectedValue opts (.str text) = text := by
  obtain ⟨opt, hopt, rfl⟩ := List.mem_map.mp h
  exact if_pos (List.any_eq_true.mpr ⟨opt, hopt, decide_eq_true rfl⟩)

theorem isBlank_selectedValue (hblank : Text.isBlank text = true)
    (hfirst : Text.isBlank (selectedValue opts .undefined) = true) :
    Text.isBlank (selectedValue opts (.str text)) = true := by
  rw [selectedValue]
  split
  · exact hblank
  · exact hfirst

theorem selectedValue_nil : selectedValue [] value = [] := by
  cases value <;> rfl

end Select

section MultiSelect

variable {opts : List EnumOpt} {text : Text} {picks : List Text} {browser : Browser}

/-- The parts of the text are options, and are shown as they are; a text that the server takes for empty
shows none. -/
structure PartsShown (opts : List EnumOpt) (text : Text) : Prop where
  parts : ∀ part ∈ denotedParts (.str text), part ∈ opts.map EnumOpt.value ∧ trim part = part
  blank : Text.isBlank text = true → ∀ option ∈ opts.map EnumOpt.value, option ∉ selectedParts (.str text)

theorem selectedParts_of_trimmed (h : ∀ part ∈ text.splitOn ',', part ≠ [] → trim part = part) :
    selectedParts (.str text) = (text.splitOn ',').filter fun part => part ≠ [] := by
  have htrim : (text.splitOn ',').map trim = text.splitOn ',' := by
    conv_rhs => rw [← List.map_id (text.splitOn ',')]
    refine List.map_congr_left fun part hpart => ?_
    by_cases hblank : part = []
    · rw [hblank]
      rfl
    · exact h part hpart hblank
  rw [selectedParts, normalizeRsqlValue, htrim]

theorem PartsShown.mem_highlighted_iff (h : PartsShown opts text) (option : Text) :
    option ∈ highlighted opts (.str text) ↔ option ∈ denotedParts (.str text) := by
  rw [highlighted, List.mem_filter, decide_eq_true_iff]
  cases hblank : Text.isBlank text with
  | true =>
      have hnone : denotedParts (.str text) = [] := if_pos hblank
      rw [hnone]
      exact iff_of_false (fun hmem => h.blank hblank option hmem.1 hmem.2) List.not_mem_nil
  | false =>
      have hparts : denotedParts (.str text) = (text.splitOn ',').filter fun part => part ≠ [] := by
        rw [denotedParts, if_neg]
        rw [Engine.isEmpty, hblank]
        exact Bool.false_ne_true
      have hselected : selectedParts (.str text) = denotedParts (.str text) := by
        rw [hparts]
        refine selectedParts_of_trimmed fun part hpart hne => (h.parts part ?_).2
        rw [hparts]
        exact List.mem_filter.mpr ⟨hpart, decide_eq_true hne⟩
      rw [hselected]
      exact ⟨fun hmem => hmem.2, fun hmem => ⟨(h.parts option hmem).1, hmem⟩⟩

/-- An option that a list of parts can hold: without a comma, without blanks around it, and not blank
for the server unless it is empty. -/
structure IsPlain (option : Text) : Prop where
  comma : ',' ∉ option
  trimmed : trim option = option
  blank : Text.isBlank option = true → option = []

theorem mem_intercalate {c : Char} {pick : Text} (hpick : pick ∈ picks) (hc : c ∈ pick) :
    c ∈ [','].intercalate picks := by
  induction picks with
  | nil => cases hpick
  | cons first picks ih =>
      cases picks with
      | nil =>
          rw [List.mem_singleton.mp hpick] at hc
          rwa [List.intercalate_singleton]
      | cons second picks =>
          rw [List.intercalate_cons_cons, List.append_assoc, List.mem_append]
          rcases List.mem_cons.mp hpick with rfl | hpick
          · exact Or.inl hc
          · exact Or.inr (List.mem_append_right _ (ih hpick))

/-- Picks that are plain are shown as picked. -/
theorem partsShown_intercalate (hplain : ∀ pick ∈ picks, IsPlain pick)
    (hpicks : ∀ pick ∈ picks, pick ≠ [] → pick ∈ opts.map EnumOpt.value) :
    PartsShown opts ([','].intercalate picks) := by
  have hparts : ∀ part ∈ ([','].intercalate picks).splitOn ',', part ≠ [] → part ∈ picks := by
    intro part hpart hne
    by_cases hnil : picks = []
    · rw [hnil] at hpart
      exact absurd (List.mem_singleton.mp hpart) hne
    · rwa [List.splitOn_intercalate ',' (fun pick hpick => (hplain pick hpick).comma) hnil] at hpart
  constructor
  · intro part hpart
    rw [denotedParts] at hpart
    split at hpart
    · cases hpart
    · obtain ⟨hpart, hne⟩ := List.mem_filter.mp hpart
      have hpick := hparts part hpart (of_decide_eq_true hne)
      exact ⟨hpicks part hpick (of_decide_eq_true hne), (hplain part hpick).trimmed⟩
  · intro hblank option _ hoption
    rw [selectedParts_of_trimmed fun part hpart hne => (hplain part (hparts part hpart hne)).trimmed]
      at hoption
    obtain ⟨hoption, hne⟩ := List.mem_filter.mp hoption
    have hpick := hparts option hoption (of_decide_eq_true hne)
    refine of_decide_eq_true hne ((hplain option hpick).blank ?_)
    rw [Text.isBlank, List.all_eq_true] at hblank ⊢
    exact fun c hc => hblank c (mem_intercalate hpick hc)

theorem partsShown_of_plain (hplain : IsPlain text) (hmem : text ∈ opts.map EnumOpt.value) :
    PartsShown opts text := by
  have hall : ∀ pick ∈ [text], pick = text := fun pick hpick => List.mem_singleton.mp hpick
  have hjoin : [','].intercalate [text] = text := List.intercalate_singleton
  rw [← hjoin]
  exact partsShown_intercalate (fun pick hpick => hall pick hpick ▸ hplain)
    fun pick hpick _ => hall pick hpick ▸ hmem

end MultiSelect

section Defaults

variable {browser : Browser} {fields : List FormField} {s : State} {field : FormField} {name : Text}

/-- The first value of the field that is shown as the server reads it. -/
def ShownAs (browser : Browser) (field : FormField) (value : Json) : Prop :=
  match controlOf field with
  | .text => True
  | .checkbox =>
      match value with
      | .null | .bool _ | .str _ => True
      | value => (browser.text value).map Char.toLower = "true".toList ↔ Api.isTrue value = true
  | .select => ∃ text, value = .str text ∧ (text ∈ (staticOptions field).map EnumOpt.value ∨
      (Text.isBlank text = true ∧ Text.isBlank (selectedValue (staticOptions field) .undefined) = true))
  | .multiSelect =>
      match value with
      | .str text => PartsShown (staticOptions field) text
      | value => ∀ option ∈ (staticOptions field).map EnumOpt.value,
          option ∉ selectedParts (ofJson browser value)

/-- A default that the control shows; the form has no default of a field that is called `__proto__`. -/
structure DefaultShown (browser : Browser) (field : FormField) : Prop where
  name : controlOf field ≠ .text → field.name ≠ proto
  value : ∀ value, initialJson field = some value → ShownAs browser field value

theorem get_initialValues_of_notMem (h : name ∉ fields.map fun field => field.name) :
    Json.get (initialValues fields) name = none := by
  induction fields using List.reverseRecOn with
  | nil => rfl
  | append_singleton fields last ih =>
      rw [List.map_append, List.mem_append, not_or, List.map_singleton, List.mem_singleton] at h
      rw [initialValues_concat]
      split
      · split
        · exact ih h.1
        · rw [Json.get, Dict.lookup_set_of_ne h.2]
          exact ih h.1
      · exact ih h.1

theorem get_initialValues (hnodup : (fields.map fun field => field.name).Nodup) (hfield : field ∈ fields)
    (hname : field.name ≠ proto) : Json.get (initialValues fields) field.name = initialJson field := by
  induction fields using List.reverseRecOn with
  | nil => cases hfield
  | append_singleton fields last ih =>
      rw [List.map_append, List.map_singleton, List.nodup_append] at hnodup
      obtain ⟨hnodup, -, hnew⟩ := hnodup
      rw [initialValues_concat]
      rcases List.mem_append.mp hfield with hfield | hlast
      · have hne : field.name ≠ last.name := hnew _ (List.mem_map_of_mem hfield) _ (List.mem_singleton_self _)
        split
        · split
          · exact ih hnodup hfield
          · rw [Json.get, Dict.lookup_set_of_ne hne]
            exact ih hnodup hfield
        · exact ih hnodup hfield
      · obtain rfl := List.mem_singleton.mp hlast
        cases hvalue : initialJson field with
        | some value =>
            dsimp only
            rw [if_neg hname]
            exact Dict.lookup_set_self
        | none =>
            refine get_initialValues_of_notMem fun hmem => ?_
            exact hnew _ hmem _ (List.mem_singleton_self _) rfl

/-- The select controls belong to select fields. -/
theorem fieldType_of_select (h : controlOf field = .select ∨ controlOf field = .multiSelect) :
    field.fieldType = .select := by
  unfold controlOf at h
  cases htype : field.fieldType with
  | select => rfl
  | checkbox | string =>
      rw [htype] at h
      exfalso
      by_cases hunknown : usesUnknownInterface field = true
      · rw [if_pos hunknown] at h
        rcases h with h | h <;> cases h
      · rw [if_neg hunknown] at h
        rcases h with h | h <;> cases h

/-- A select field that starts with nothing has nothing to offer. -/
theorem staticOptions_of_initialJson (htype : field.fieldType = .select) (h : initialJson field = none) :
    field.value = .null ∧ staticOptions field = [] := by
  unfold initialJson at h
  split at h
  · cases h
  · next hvalue =>
    refine ⟨not_not.mp hvalue, ?_⟩
    rw [htype] at h
    rw [staticOptions]
    cases hoptions : field.options with
    | none => rfl
    | some options =>
        cases options with
        | nil => rfl
        | cons first rest =>
            rw [hoptions] at h
            cases h

theorem value_of_initialJson (h : initialJson field = none) : field.value = .null := by
  unfold initialJson at h
  split at h
  · cases h
  · next hvalue => exact not_not.mp hvalue

end Defaults

section Untouched

variable {browser : Browser} {fields : List FormField} {s : State} {field : FormField}

/-- The field still has what it started with. -/
def Untouched (fields : List FormField) (s : State) (field : FormField) : Prop :=
  Json.get s.values field.name = Json.get (initialValues fields) field.name

theorem optionsOf_static (hstatic : usesDynamicSelect field = false) :
    optionsOf s field = some (staticOptions field) := by
  rw [optionsOf, hstatic]
  rfl

/-- The initial value is shown while it stays. -/
theorem showsSubmitted_of_value {value : Json} (hstatic : usesDynamicSelect field = false)
    (hget : Json.get s.values field.name = some value) (hshown : ShownAs browser field value) :
    ShowsSubmitted browser s field := by
  unfold ShownAs at hshown
  unfold ShowsSubmitted
  rw [current_of_get hget, submitted_of_get hget, optionsOf_static hstatic]
  cases hcontrol : controlOf field with
  | text => trivial
  | checkbox =>
      rw [hcontrol] at hshown
      cases value with
      | null => rfl
      | bool value => rfl
      | str text => rfl
      | int _ | float _ | arr _ | obj _ => exact Bool.eq_iff_iff.mpr (beq_iff_eq.trans hshown)
  | select =>
      rw [hcontrol] at hshown
      intro opts hopts
      obtain rfl := Option.some.inj hopts
      obtain ⟨text, rfl, hmem | ⟨hblank, hfirst⟩⟩ := hshown
      · exact Or.inl (congrArg Json.str (selectedValue_of_mem hmem).symm)
      · exact Or.inr ⟨hblank, isBlank_selectedValue hblank hfirst⟩
  | multiSelect =>
      rw [hcontrol] at hshown
      intro opts hopts option
      obtain rfl := Option.some.inj hopts
      cases value with
      | str text => exact PartsShown.mem_highlighted_iff hshown option
      | null | bool _ | int _ | float _ | arr _ | obj _ =>
          refine iff_of_false (fun hmem => ?_) List.not_mem_nil
          obtain ⟨hoption, hselected⟩ := List.mem_filter.mp hmem
          exact hshown option hoption (of_decide_eq_true hselected)

/-- A field that starts with nothing shows nothing; no function of `Object.prototype` is printed as
`true`. -/
theorem showsSubmitted_of_absent (hnative : ∀ name, (browser.native name).map Char.toLower ≠ "true".toList)
    (hstatic : usesDynamicSelect field = false) (hget : Json.get s.values field.name = none)
    (hinitial : initialJson field = none) : ShowsSubmitted browser s field := by
  have hsubmitted : submitted s field = .null := by
    rw [submitted, Declarative.resolveField, hget]
    exact value_of_initialJson hinitial
  have hcurrent : current browser s field.name = inherited browser.native field.name := by
    rw [current, get_ofValues, hget]
  unfold ShowsSubmitted
  rw [hsubmitted, hcurrent, optionsOf_static hstatic]
  cases hcontrol : controlOf field with
  | text => trivial
  | checkbox =>
      have hunchecked : isChecked (inherited browser.native field.name) = false := by
        rw [inherited]
        split
        · rfl
        · split
          · exact beq_eq_false_iff_ne.mpr (hnative _)
          · rfl
      exact hunchecked
  | select =>
      intro opts hopts
      obtain rfl := Option.some.inj hopts
      rw [(staticOptions_of_initialJson (fieldType_of_select (Or.inl hcontrol)) hinitial).2, selectedValue_nil]
      exact Or.inr ⟨rfl, rfl⟩
  | multiSelect =>
      intro opts hopts option
      obtain rfl := Option.some.inj hopts
      rw [(staticOptions_of_initialJson (fieldType_of_select (Or.inr hcontrol)) hinitial).2]
      exact Iff.rfl

/-- An untouched default that is shown. -/
theorem showsSubmitted_of_untouched
    (hnative : ∀ name, (browser.native name).map Char.toLower ≠ "true".toList)
    (hnodup : (fields.map fun field => field.name).Nodup) (hfield : field ∈ fields)
    (hstatic : usesDynamicSelect field = false) (huntouched : Untouched fields s field)
    (hdefault : DefaultShown browser field) : ShowsSubmitted browser s field := by
  by_cases htext : controlOf field = .text
  · rw [ShowsSubmitted, htext]
    trivial
  · rw [Untouched, get_initialValues hnodup hfield (hdefault.name htext)] at huntouched
    cases hvalue : initialJson field with
    | none => exact showsSubmitted_of_absent hnative hstatic (huntouched.trans hvalue) hvalue
    | some value =>
        exact showsSubmitted_of_value hstatic (huntouched.trans hvalue) (hdefault.value value hvalue)

end Untouched

end Declarative.FormView
end PdeOperator
