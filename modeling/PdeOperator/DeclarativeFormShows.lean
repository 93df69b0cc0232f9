import PdeOperator.DeclarativeFormDisplay

/-! The form shows what it submits. The value of a field is set by its default, by the arrival of its options
or by an edit; each of these is followed until the submission. -/

namespace PdeOperator
open Base Js

namespace Declarative.FormView

section Conforms

variable (browser : Browser) (fields : List FormField)

/-- What the server reads is nothing. -/
def DenotesNothing (field : FormField) (value : Json) : Prop :=
  match controlOf field with
  | .multiSelect => denotedParts value = []
  | _ => Engine.isEmpty value = true

/-- A value that is empty for the browser is empty for the server. -/
def AgreesOnEmpty (s : State) (field : FormField) : Prop :=
  isEmptyValue (current browser s field.name) = true → Engine.isEmpty (submitted s field) = true

/-- What keeps the display and the values together: plain options in multiple selections, no arrival without
options for a value that is blank for the browser only, and at a submission no visible field with a value
whose options have not come or with a default that its control does not show. -/
def Conforms (s : State) : Act → Prop
  | .edit _ edit => ∀ values, edit = .chooseMany values → ∀ value ∈ values, IsPlain value
  | .arrive name opts => ∀ field ∈ fields, field.name = name →
      (opts = [] → AgreesOnEmpty browser s field) ∧
        (controlOf field = .multiSelect → IsPlain (selectedValue opts (current browser s name)))
  | .fail name => ∀ field ∈ fields, field.name = name → AgreesOnEmpty browser s field
  | .submit => ∀ field ∈ fields, isVisible browser fields s field = true →
      if usesDynamicSelect field then
        s.options.lookup field.name = none → DenotesNothing field (submitted s field)
      else Untouched fields s field → DefaultShown browser field

end Conforms

section Steps

variable {browser : Browser} {fields : List FormField} {s s' : State} {field : FormField} {name : Text}

/-- The select controls of fields whose options are fetched. -/
theorem controlOf_dynamic (h : usesDynamicSelect field = true) :
    controlOf field = .select ∨ controlOf field = .multiSelect := by
  rw [usesDynamicSelect, Bool.and_eq_true, Bool.and_eq_true, beq_iff_eq] at h
  obtain ⟨⟨htype, -⟩, hknown⟩ := h
  have hunknown : usesUnknownInterface field = false := by
    rw [usesUnknownInterface, hknown, Bool.not_true, Bool.and_false]
  rw [controlOf, hunknown, if_neg Bool.false_ne_true, htype]
  dsimp only
  split
  · exact Or.inr rfl
  · exact Or.inl rfl

theorem optionsOf_congr (h : s'.options = s.options) : optionsOf s' field = optionsOf s field := by
  rw [optionsOf, h, optionsOf]

/-- An edit that the control offers is shown. -/
theorem showsSubmitted_edit {edit : Edit} (hoffers : offers s field edit = true)
    (hplain : ∀ values, edit = .chooseMany values → ∀ value ∈ values, IsPlain value) :
    ShowsSubmitted browser (setFieldValue s field.name edit.value) field := by
  unfold ShowsSubmitted
  rw [current_of_get get_setFieldValue_self, submitted_of_get get_setFieldValue_self,
    optionsOf_congr options_setFieldValue]
  cases edit with
  | enter text =>
      rw [offers, beq_iff_eq] at hoffers
      rw [hoffers]
      trivial
  | toggle checked =>
      rw [offers, beq_iff_eq] at hoffers
      rw [hoffers]
      rfl
  | choose value =>
      rw [offers, Bool.and_eq_true, Bool.and_eq_true, beq_iff_eq] at hoffers
      obtain ⟨⟨hcontrol, -⟩, hany⟩ := hoffers
      rw [hcontrol]
      intro opts hopts
      rw [hopts, Option.getD_some, List.any_eq_true] at hany
      obtain ⟨opt, hopt, hvalue⟩ := hany
      have hmem : value ∈ opts.map EnumOpt.value :=
        List.mem_map.mpr ⟨opt, hopt, of_decide_eq_true hvalue⟩
      exact Or.inl (congrArg Json.str (selectedValue_of_mem hmem).symm)
  | chooseMany values =>
      rw [offers, Bool.and_eq_true, Bool.and_eq_true, beq_iff_eq, decide_eq_true_iff] at hoffers
      obtain ⟨⟨hcontrol, -⟩, hsublist⟩ := hoffers
      rw [hcontrol]
      intro opts hopts
      rw [hopts, Option.getD_some] at hsublist
      refine PartsShown.mem_highlighted_iff (partsShown_intercalate (hplain values rfl) ?_)
      intro value hvalue hne
      have hmem := hsublist.subset hvalue
      rw [elementValues] at hmem
      split at hmem
      · exact absurd (List.mem_singleton.mp hmem) hne
      · exact hmem

/-- Without options nothing is shown, and a value that denotes nothing is shown so. -/
theorem showsSubmitted_nil (hdynamic : usesDynamicSelect field = true) (hopts : optionsOf s field = some [])
    (hnothing : DenotesNothing field (submitted s field)) : ShowsSubmitted browser s field := by
  unfold DenotesNothing at hnothing
  unfold ShowsSubmitted
  rw [hopts]
  rcases controlOf_dynamic hdynamic with hcontrol | hcontrol
  · rw [hcontrol] at hnothing ⊢
    intro opts heq
    obtain rfl := Option.some.inj heq
    rw [selectedValue_nil]
    exact Or.inr ⟨hnothing, rfl⟩
  · rw [hcontrol] at hnothing ⊢
    intro opts heq option
    obtain rfl := Option.some.inj heq
    rw [hnothing]
    exact Iff.rfl

theorem denotesNothing_of_isEmpty {value : Json} (h : Engine.isEmpty value = true) :
    DenotesNothing field value := by
  unfold DenotesNothing
  split
  · exact if_pos h
  · exact h

/-- A text that is one of the options is shown. -/
theorem showsSubmitted_text {opts : List EnumOpt} {text : Text} (hdynamic : usesDynamicSelect field = true)
    (hopts : optionsOf s field = some opts) (hget : Json.get s.values field.name = some (.str text))
    (hmem : text ∈ opts.map EnumOpt.value) (hplain : controlOf field = .multiSelect → IsPlain text) :
    ShowsSubmitted browser s field := by
  unfold ShowsSubmitted
  rw [hopts, current_of_get hget, submitted_of_get hget]
  rcases controlOf_dynamic hdynamic with hcontrol | hcontrol
  · rw [hcontrol]
    intro opts heq
    obtain rfl := Option.some.inj heq
    exact Or.inl (congrArg Json.str (selectedValue_of_mem hmem).symm)
  · rw [hcontrol]
    intro opts heq option
    obtain rfl := Option.some.inj heq
    exact (partsShown_of_plain (hplain hcontrol) hmem).mem_highlighted_iff option

end Steps

section Arrivals

variable {browser : Browser} {fields : List FormField} {s : State} {field : FormField} {opts : List EnumOpt}

theorem optionsOf_setOptions (hdynamic : usesDynamicSelect field = true) :
    optionsOf (setOptions s field.name opts) field = some opts := by
  have hlookup : (setOptions s field.name opts).options.lookup field.name = some opts := Dict.lookup_set_self
  rw [optionsOf, hdynamic, if_pos rfl, hlookup]

theorem selectedValue_of_not_any {value : Value} {first : EnumOpt} {rest : List EnumOpt}
    (h : ¬((first :: rest).any fun opt => .str opt.value = value) = true) :
    selectedValue (first :: rest) value = first.value := by
  cases value with
  | str text =>
      rw [selectedValue, if_neg]
      · rfl
      · intro hany
        obtain ⟨opt, hopt, hvalue⟩ := List.any_eq_true.mp hany
        refine h (List.any_eq_true.mpr ⟨opt, hopt, decide_eq_true ?_⟩)
        exact congrArg Value.str (of_decide_eq_true hvalue)
  | _ => rfl

/-- After a failure nothing is shown and nothing is submitted. -/
theorem showsSubmitted_clear (hdynamic : usesDynamicSelect field = true)
    (hempty : AgreesOnEmpty browser s field) :
    ShowsSubmitted browser (clear browser (setOptions s field.name []) field.name) field := by
  rw [clear]
  split
  · next hvalue =>
    exact showsSubmitted_nil hdynamic (optionsOf_setOptions hdynamic) (denotesNothing_of_isEmpty (hempty hvalue))
  · refine showsSubmitted_nil hdynamic ?_ ?_
    · rw [optionsOf_congr options_setFieldValue, optionsOf_setOptions hdynamic]
    · rw [submitted_of_get get_setFieldValue_self]
      exact denotesNothing_of_isEmpty rfl

/-- After an arrival the value is one of the options, if there are any. -/
theorem showsSubmitted_settle (hdynamic : usesDynamicSelect field = true)
    (hempty : opts = [] → AgreesOnEmpty browser s field)
    (hplain : controlOf field = .multiSelect → IsPlain (selectedValue opts (current browser s field.name))) :
    ShowsSubmitted browser (settle browser (setOptions s field.name opts) field.name opts) field := by
  have hcurrent : current browser (setOptions s field.name opts) field.name = current browser s field.name := rfl
  unfold settle
  dsimp only
  split
  · next hany =>
    obtain ⟨opt, hopt, hvalue⟩ := List.any_eq_true.mp hany
    have htext : current browser s field.name = .str opt.value := (of_decide_eq_true hvalue).symm
    have hmem : opt.value ∈ opts.map EnumOpt.value := List.mem_map_of_mem hopt
    rw [htext, selectedValue_of_mem hmem] at hplain
    exact showsSubmitted_text hdynamic (optionsOf_setOptions hdynamic) (get_of_current htext) hmem hplain
  · next hany =>
    cases opts with
    | nil => exact showsSubmitted_clear hdynamic (hempty rfl)
    | cons first rest =>
        rw [hcurrent] at hany
        rw [selectedValue_of_not_any hany] at hplain
        have hmem : first.value ∈ (first :: rest).map EnumOpt.value := List.mem_map_of_mem List.mem_cons_self
        dsimp only
        refine showsSubmitted_text hdynamic ?_ get_setFieldValue_self hmem hplain
        rw [optionsOf_congr options_setFieldValue, optionsOf_setOptions hdynamic]

end Arrivals

section Runs

variable {browser : Browser} {fields : List FormField} {s s' : State} {field : FormField} {name : Text}

/-- The field shows what is submitted, or nothing has happened to it. -/
def Settled (browser : Browser) (fields : List FormField) (s : State) (field : FormField) : Prop :=
  ShowsSubmitted browser s field ∨
    if usesDynamicSelect field then s.options.lookup field.name = none else Untouched fields s field

theorem settled_congr (hvalues : Json.get s'.values field.name = Json.get s.values field.name)
    (hoptions : s'.options.lookup field.name = s.options.lookup field.name) :
    Settled browser fields s' field ↔ Settled browser fields s field := by
  rw [Settled, showsSubmitted_congr hvalues hoptions, hoptions, Untouched, hvalues, Settled, Untouched]

theorem frame_settle {opts : List EnumOpt} {other : Text} (hne : other ≠ name) :
    Json.get (settle browser (setOptions s name opts) name opts).values other = Json.get s.values other ∧
      (settle browser (setOptions s name opts) name opts).options.lookup other = s.options.lookup other := by
  have hoptions : (setOptions s name opts).options.lookup other = s.options.lookup other :=
    Dict.lookup_set_of_ne hne
  unfold settle
  dsimp only
  split
  · exact ⟨rfl, hoptions⟩
  · cases opts with
    | nil =>
        dsimp only
        split
        · exact ⟨rfl, hoptions⟩
        · exact ⟨get_setFieldValue_of_ne hne, by rw [options_setFieldValue, hoptions]⟩
    | cons first rest => exact ⟨get_setFieldValue_of_ne hne, by rw [options_setFieldValue, hoptions]⟩

theorem frame_clear {other : Text} (hne : other ≠ name) :
    Json.get (clear browser (setOptions s name []) name).values other = Json.get s.values other ∧
      (clear browser (setOptions s name []) name).options.lookup other = s.options.lookup other := by
  have hoptions : (setOptions s name []).options.lookup other = s.options.lookup other :=
    Dict.lookup_set_of_ne hne
  rw [clear]
  split
  · exact ⟨rfl, hoptions⟩
  · exact ⟨get_setFieldValue_of_ne hne, by rw [options_setFieldValue, hoptions]⟩

theorem eq_of_submit (h : step browser fields s .submit = some s') : s = s' := by
  rw [step] at h
  split at h
  · exact Option.some.inj h
  · cases h

/-- The field whose options arrive fetches them. -/
theorem usesDynamicSelect_of_loading (hnodup : (fields.map fun field => field.name).Nodup)
    (hfield : field ∈ fields)
    (hany : fields.any (fun other => other.name = field.name && isLoading s other) = true) :
    usesDynamicSelect field = true := by
  obtain ⟨other, hother, hmatch⟩ := List.any_eq_true.mp hany
  simp only [Bool.and_eq_true, decide_eq_true_iff, isLoading] at hmatch
  obtain ⟨hsame, ⟨hdynamic, -⟩, -⟩ := hmatch
  rw [List.inj_on_of_nodup_map hnodup hfield hother hsame.symm]
  exact hdynamic

/-- The field that is edited offers the edit. -/
theorem offers_of_guard (hnodup : (fields.map fun field => field.name).Nodup) (hfield : field ∈ fields)
    {edit : Edit} (hguard : (renders browser fields s && fields.any fun other =>
      other.name = field.name && isVisible browser fields s other && !other.readonly &&
        offers s other edit) = true) : offers s field edit = true := by
  obtain ⟨-, hany⟩ := Bool.and_eq_true_iff.mp hguard
  obtain ⟨other, hother, hmatch⟩ := List.any_eq_true.mp hany
  simp only [Bool.and_eq_true, decide_eq_true_iff] at hmatch
  obtain ⟨⟨⟨hsame, -⟩, -⟩, hoffers⟩ := hmatch
  rw [List.inj_on_of_nodup_map hnodup hfield hother hsame.symm]
  exact hoffers

/-- A step that conforms leaves every field settled. -/
theorem settled_step (hnodup : (fields.map fun field => field.name).Nodup) {act : Act}
    (hstep : step browser fields s act = some s') (hok : Conforms browser fields s act)
    (hfield : field ∈ fields) (hsettled : Settled browser fields s field) : Settled browser fields s' field := by
  cases act with
  | edit name edit =>
      rw [step] at hstep
      split at hstep
      · next hguard =>
        obtain rfl := Option.some.inj hstep
        by_cases hname : field.name = name
        · subst hname
          exact Or.inl (showsSubmitted_edit (offers_of_guard hnodup hfield hguard) hok)
        · rw [settled_congr (get_setFieldValue_of_ne hname) (by rw [options_setFieldValue])]
          exact hsettled
      · cases hstep
  | arrive name opts =>
      rw [step] at hstep
      split at hstep
      · next hany =>
        obtain rfl := Option.some.inj hstep
        by_cases hname : field.name = name
        · subst hname
          obtain ⟨hempty, hplain⟩ := hok field hfield rfl
          exact Or.inl (showsSubmitted_settle (usesDynamicSelect_of_loading hnodup hfield hany) hempty hplain)
        · rw [settled_congr (frame_settle hname).1 (frame_settle hname).2]
          exact hsettled
      · cases hstep
  | fail name =>
      rw [step] at hstep
      split at hstep
      · next hany =>
        obtain rfl := Option.some.inj hstep
        by_cases hname : field.name = name
        · subst hname
          have hdynamic := usesDynamicSelect_of_loading hnodup hfield hany
          exact Or.inl (showsSubmitted_clear hdynamic (hok field hfield rfl))
        · rw [settled_congr (frame_clear hname).1 (frame_clear hname).2]
          exact hsettled
      · cases hstep
  | submit =>
      obtain rfl := eq_of_submit hstep
      exact hsettled

theorem settled_initialState : ∀ field ∈ fields, Settled browser fields (initialState fields) field := by
  intro field _
  refine Or.inr ?_
  split
  · rfl
  · rfl

/-- Before the options have come there is nothing to choose from. -/
theorem optionsOf_of_loading {opts : List EnumOpt} (hdynamic : usesDynamicSelect field = true)
    (hloading : s.options.lookup field.name = none) (hopts : optionsOf s field = some opts) : opts = [] := by
  rw [optionsOf, hdynamic, if_pos rfl, hloading] at hopts
  dsimp only at hopts
  split at hopts
  · cases hopts
  · exact (Option.some.inj hopts).symm

/-- A settled field shows what is submitted, if the submission conforms. -/
theorem showsSubmitted_submit (hnative : ∀ name, (browser.native name).map Char.toLower ≠ "true".toList)
    (hnodup : (fields.map fun field => field.name).Nodup) (hok : Conforms browser fields s .submit)
    (hfield : field ∈ fields) (hvisible : isVisible browser fields s field = true)
    (hsettled : Settled browser fields s field) : ShowsSubmitted browser s field := by
  rcases hsettled with hshown | hrest
  · exact hshown
  have hcondition := hok field hfield hvisible
  cases hdynamic : usesDynamicSelect field with
  | true =>
      rw [hdynamic, if_pos rfl] at hrest hcondition
      cases hopts : optionsOf s field with
      | some opts =>
          obtain rfl := optionsOf_of_loading hdynamic hrest hopts
          exact showsSubmitted_nil hdynamic hopts (hcondition hrest)
      | none =>
          unfold ShowsSubmitted
          rw [hopts]
          rcases controlOf_dynamic hdynamic with hcontrol | hcontrol
          · rw [hcontrol]
            exact nofun
          · rw [hcontrol]
            exact nofun
  | false =>
      rw [hdynamic, if_neg Bool.false_ne_true] at hrest hcondition
      exact showsSubmitted_of_untouched hnative hnodup hfield hdynamic hrest (hcondition hrest)

/-- In every run that conforms, each visible field shows at a submission what the server reads of its value. -/
theorem showsSubmitted_of_meets (hnative : ∀ name, (browser.native name).map Char.toLower ≠ "true".toList)
    (hnodup : (fields.map fun field => field.name).Nodup) {acts : List Act} {s : State}
    (hexec : (form browser fields).exec (initialState fields) (acts ++ [.submit]) = some s)
    (hmeets : (form browser fields).Meets (Conforms browser fields) (initialState fields) (acts ++ [.submit])) :
    ∀ field ∈ fields, isVisible browser fields s field = true → ShowsSubmitted browser s field := by
  intro field hfield hvisible
  obtain ⟨before, hbefore, hsubmit⟩ := (System.exec_append_eq_some _).mp hexec
  obtain ⟨after, hstep, hafter⟩ := (System.exec_cons_eq_some _).mp hsubmit
  have hsame : before = s := (eq_of_submit hstep).trans (Option.some.inj hafter)
  rw [hsame] at hbefore
  have hsettled : ∀ field ∈ fields, Settled browser fields s field :=
    System.exec_invariant (I := fun s => ∀ field ∈ fields, Settled browser fields s field)
      (fun hall hok hstep field hfield => settled_step hnodup hstep hok hfield (hall field hfield))
      settled_initialState hmeets.append_left hbefore
  exact showsSubmitted_submit hnative hnodup (hmeets.append_right hbefore).1 hfield hvisible
    (hsettled field hfield)

end Runs

section Samples

/-- Namespaces that are fetched, with a default. -/
def namespaces : FormField where
  name := "NS".toList
  value := .str "prod".toList
  fieldType := .select
  label := "NS".toList
  interface := some "ClusterNamespaces".toList

/-- A list of options in the contract, with the first value. -/
def listed (options : List Text) (value : Json) (selectType : SelectType) : FormField where
  name := "L".toList
  value
  options := some options
  fieldType := .select
  selectType
  label := "L".toList

def option (value : Text) : EnumOpt := { value, label := value }

/-- The options arrive without the default, and another one is chosen. -/
def arrival : List Act :=
  [.arrive "NS".toList [option "test".toList, option "dev".toList],
    .edit "NS".toList (.choose "dev".toList)]

theorem showsSubmitted_of_meets_arrival :
    ∃ s, (form sampleBrowser [namespaces]).exec (initialState [namespaces]) (arrival ++ [.submit]) = some s ∧
      ShowsSubmitted sampleBrowser s namespaces := by
  have hnative : ∀ name, (sampleBrowser.native name).map Char.toLower ≠ "true".toList := by
    intro name h
    exact absurd (List.cons.inj h).1 (by decide)
  have hnodup : ([namespaces].map fun field => field.name).Nodup := List.nodup_singleton _
  have hmeets : (form sampleBrowser [namespaces]).Meets (Conforms sampleBrowser [namespaces])
      (initialState [namespaces]) (arrival ++ [.submit]) := by
    refine ⟨?_, fun s hs => ⟨nofun, fun s' hs' => ⟨?_, fun _ _ => trivial⟩⟩⟩
    · intro field hfield _
      obtain rfl := List.mem_singleton.mp hfield
      exact ⟨nofun, nofun⟩
    · intro field hfield _
      obtain rfl := List.mem_singleton.mp hfield
      obtain rfl := Option.some.inj hs
      obtain rfl := Option.some.inj hs'
      exact nofun
  exact ⟨_, rfl, showsSubmitted_of_meets hnative hnodup rfl hmeets namespaces List.mem_cons_self rfl⟩

/-- While the namespaces are loading the default is submitted and nothing is shown; a default that is not
listed is submitted and the first option is shown; an option with a comma is picked and none is shown. -/
theorem submitted_and_not_shown :
    (∃ s, (form sampleBrowser [namespaces]).exec (initialState [namespaces]) [.submit] = some s ∧
      isVisible sampleBrowser [namespaces] s namespaces = true ∧
      ¬ShowsSubmitted sampleBrowser s namespaces) ∧
    (∃ field s, field = listed ["a".toList, "b".toList] (.str "c".toList) .single ∧
      (form sampleBrowser [field]).exec (initialState [field]) [.submit] = some s ∧
      isVisible sampleBrowser [field] s field = true ∧ ¬ShowsSubmitted sampleBrowser s field) ∧
    ∃ field s, field = listed ["a,b".toList, "c".toList] (.str "c".toList) .multi ∧
      (form sampleBrowser [field]).exec (initialState [field])
        [.edit "L".toList (.chooseMany ["a,b".toList]), .submit] = some s ∧
      isVisible sampleBrowser [field] s field = true ∧ ¬ShowsSubmitted sampleBrowser s field := by
  refine ⟨⟨_, rfl, rfl, ?_⟩, ⟨_, _, rfl, rfl, rfl, ?_⟩, _, _, rfl, rfl, rfl, ?_⟩
  · intro h
    rcases h [] rfl with heq | ⟨hempty, -⟩
    · cases heq
    · cases hempty
  · intro h
    rcases h _ rfl with heq | ⟨hempty, -⟩
    · cases heq
    · cases hempty
  · intro h
    have hpart := (h _ rfl "a".toList).mpr (by decide)
    revert hpart
    decide

end Samples

end Declarative.FormView
end PdeOperator
