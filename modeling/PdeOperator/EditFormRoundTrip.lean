import PdeOperator.EditFormFields
import PdeOperator.EditFormVars

/-! Opening and saving an untouched edit form: which templates and schedules come back unchanged. -/

namespace PdeOperator.EditForm
open Base Js

def templateRun (template : RunTemplate) : CreateRunRequest where
  profileId := template.profileId
  pipelineData := template.pipelineData
  pipelineVars := template.pipelineVars
  pipelineVarsSecure := template.pipelineVarsSecure
  isDryRun := template.isDryRun
  logLevel := template.logLevel
  envVars := template.envVars
  pdeImage := template.pdeImage

def scheduleRun (schedule : ScheduledRun) : CreateRunRequest where
  profileId := schedule.profileId
  pipelineData := schedule.pipelineData
  pipelineVars := schedule.pipelineVars
  pipelineVarsSecure := schedule.pipelineVarsSecure
  isDryRun := schedule.isDryRun
  logLevel := schedule.logLevel
  envVars := schedule.envVars
  pdeImage := schedule.pdeImage

/-- A run as the backend stores it, with `KEY=VALUE` lines of distinct keys. -/
structure StoredRun (stored : CreateRunRequest) : Prop where
  /-- A template falls back to the default, and the profile of a schedule exists. -/
  profileId : stored.profileId ≠ []
  pdeImage : ∃ image, stored.pdeImage = ScheduleService.normalizeImage image
  pipelineVars : ((textVars stored.pipelineVars).map Prod.fst).Nodup
  pipelineVarsSecure : ((textVars stored.pipelineVarsSecure).map Prod.fst).Nodup
  envVars : ((stored.envVars.getD []).map Prod.fst).Nodup

structure StoredTemplate (template : RunTemplate) : Prop where
  simple : template.templateKind = "simple".toList
  name : Text.strip template.name = template.name ∧ template.name ≠ []
  tags : ∃ tags, template.tags = ConfigImport.normalizeTags tags
  run : StoredRun (templateRun template)

structure StoredSchedule (schedule : ScheduledRun) : Prop where
  name : Text.strip schedule.name = schedule.name ∧ schedule.name ≠ []
  secure : ∃ secure, schedule.pipelineVarsSecure = InputCrypto.maskSecureVars secure
  run : StoredRun (scheduleRun schedule)

/-- A validated request is stored so. -/
theorem storedTemplate_buildSimpleTemplate {lib : ConfigImport.Library} {payload : JsonObject}
    {request : ConfigImport.CreateSimpleRunTemplateRequest} (env : ConfigImport.Env)
    (h : ConfigImport.validateSimpleTemplate lib payload = some request)
    (hvars : ((textVars request.pipelineVars).map Prod.fst).Nodup)
    (hsecure : ((textVars request.pipelineVarsSecure).map Prod.fst).Nodup)
    (henv : ((request.envVars.getD []).map Prod.fst).Nodup) :
    StoredTemplate (ConfigImport.buildSimpleTemplate env request) := by
  simp only [ConfigImport.validateSimpleTemplate, Option.bind_eq_bind, Option.bind_eq_some_iff] at h
  obtain ⟨raw, -, ⟨⟩, hchecked, heq⟩ := h
  have hguard : !(Text.strip raw.name).isEmpty && !Text.isBlank raw.pipelineData := by
    by_contra hfails
    rw [guard, if_neg hfails] at hchecked
    cases hchecked
  rw [Bool.and_eq_true] at hguard
  obtain rfl := Option.some.inj heq
  refine ⟨rfl, ⟨Text.trimBy_trimBy, fun hname => ?_⟩, ⟨_, rfl⟩, ⟨?_, ⟨_, rfl⟩, hvars, hsecure, henv⟩⟩
  · change Text.strip raw.name = [] at hname
    have hfilled := hguard.1
    rw [hname] at hfilled
    cases hfilled
  · intro hprofile
    have hcases : (if raw.profileId.isEmpty then "default".toList else raw.profileId) = [] := hprofile
    split at hcases
    · cases hcases
    · next hne => exact hne (List.isEmpty_iff.mpr hcases)

theorem storedSchedule_applyRequest {request : ScheduledRunBase} {runRequest : CreateRunRequest}
    {row : ScheduledRun}
    (hname : Text.strip request.name = request.name ∧ request.name ≠ [])
    (hrun : StoredRun (scheduleRun (ScheduleService.applyRequest request runRequest row))) :
    StoredSchedule (ScheduleService.applyRequest request runRequest row) :=
  ⟨hname, ⟨_, rfl⟩, hrun⟩

section RoundTrip

variable (lib : JobLibrary) (number : Json → Text)

/-- The two requests denote the same run, up to its pipeline. -/
structure SameRun (sent stored : CreateRunRequest) : Prop where
  profileId : sent.profileId = stored.profileId
  isDryRun : sent.isDryRun = stored.isDryRun
  logLevel : sent.logLevel = stored.logLevel
  pdeImage : sent.pdeImage = stored.pdeImage
  envVars : envMap lib sent.envVars = envMap lib stored.envVars
  pipelineVars : varMap sent.pipelineVars = varMap stored.pipelineVars
  pipelineVarsSecure : varMap sent.pipelineVarsSecure = varMap stored.pipelineVarsSecure

structure TemplateUnchanged (payload : TemplatePayload) (template : RunTemplate) : Prop where
  name : payload.name = template.name
  tags : payload.tags = template.tags
  run : SameRun lib payload.run (templateRun template)

structure ScheduleUnchanged (payload : SchedulePayload) (schedule : ScheduledRun) : Prop where
  name : payload.name = schedule.name
  run : ∃ request, payload.content = .run request ∧ SameRun lib request (scheduleRun schedule)

/-- What a form keeps of a run. -/
structure RunSurvives (stored : CreateRunRequest) : Prop where
  logLevel : stored.logLevel ≠ []
  pdeImage : ∀ image, stored.pdeImage = some image → trim image = image
  envVars : ∀ e ∈ stored.envVars.getD [], EnvSurvives lib number e.1 e.2
  pipelineVars : ∀ e ∈ textVars stored.pipelineVars, VarSurvives e.1 e.2
  pipelineVarsSecure : ∀ e ∈ textVars stored.pipelineVarsSecure, VarSurvives e.1 e.2

structure TemplateSurvives (template : RunTemplate) : Prop where
  name : trim template.name = template.name
  tags : ∀ tag ∈ template.tags, TagSurvives tag
  run : RunSurvives lib number (templateRun template)

structure ScheduleSurvives (schedule : ScheduledRun) : Prop where
  name : trim schedule.name = schedule.name
  run : RunSurvives lib number (scheduleRun schedule)

/-- The form of a stored run. -/
def runForm (stored : CreateRunRequest) (pipelineData : Text) : CreateForm where
  profileId := orElse stored.profileId "default".toList
  pipelineData := pipelineData
  pipelineVars := ensureKvPairs (parseKvPairs stored.pipelineVars)
  pipelineVarsSecure := ensureKvPairs (parseKvPairs stored.pipelineVarsSecure)
  isDryRun := stored.isDryRun
  logLevel := orElse stored.logLevel "INFO".toList
  envVars := ensureKvPairs (recordToKvPairs number stored.envVars)
  pdeImage := stored.pdeImage.getD []

variable {lib number}

theorem orElse_eq_self_iff {text fallback : Text} (hfallback : fallback ≠ []) :
    orElse text fallback = text ↔ text ≠ [] := by
  unfold orElse
  split
  · next hempty =>
    rw [List.isEmpty_iff.mp hempty]
    exact iff_of_false hfallback fun hne => hne rfl
  · next hne => exact iff_of_true rfl fun hempty => hne (List.isEmpty_iff.mpr hempty)

theorem ne_nil_of_normalizeImage {image : Option Text} {stored : Text}
    (h : ScheduleService.normalizeImage image = some stored) : stored ≠ [] := by
  unfold ScheduleService.normalizeImage at h
  split at h
  · cases h
  · next hne =>
    obtain rfl := Option.some.inj h
    exact fun hempty => hne (List.isEmpty_iff.mpr hempty)

theorem orNull_trim_iff {image : Option Text} (hne : ∀ stored, image = some stored → stored ≠ []) :
    orNull (trim (image.getD [])) = image ↔ ∀ stored, image = some stored → trim stored = stored := by
  cases image with
  | none => exact iff_of_true rfl fun _ h => by cases h
  | some stored =>
      have hstored := hne stored rfl
      unfold orNull
      rw [Option.getD_some]
      constructor
      · intro h text htext
        obtain rfl := Option.some.inj htext
        split at h
        · cases h
        · exact Option.some.inj h
      · intro h
        rw [h stored rfl, if_neg fun hempty => hstored (List.isEmpty_iff.mp hempty)]

/-- An untouched form keeps a run exactly if each part of it survives. -/
theorem sameRun_iff (hlib : PythonTexts lib) (hnumber : IsNumberText number)
    {stored : CreateRunRequest} (h : StoredRun stored) (pipelineData : Text) :
    SameRun lib (createFormToPayload (runForm number stored pipelineData)) stored ↔
      RunSurvives lib number stored := by
  obtain ⟨image, himage⟩ := h.pdeImage
  have hprofile : orElse stored.profileId "default".toList = stored.profileId :=
    (orElse_eq_self_iff (by decide)).mpr h.profileId
  have hlog : orElse stored.logLevel "INFO".toList = stored.logLevel ↔ stored.logLevel ≠ [] :=
    orElse_eq_self_iff (by decide)
  have hpde := orNull_trim_iff fun text htext => ne_nil_of_normalizeImage (himage.symm.trans htext)
  have henv := envMap_resubmitEnv_iff hlib hnumber h.envVars
  have hvars := varMap_resubmit_iff h.pipelineVars
  have hsecure := varMap_resubmit_iff h.pipelineVarsSecure
  constructor
  · intro hsame
    exact ⟨hlog.mp hsame.logLevel, hpde.mp hsame.pdeImage, henv.mp hsame.envVars,
      hvars.mp hsame.pipelineVars, hsecure.mp hsame.pipelineVarsSecure⟩
  · intro hsurvives
    refine ⟨?_, rfl, hlog.mpr hsurvives.logLevel, hpde.mpr hsurvives.pdeImage,
      henv.mpr hsurvives.envVars, hvars.mpr hsurvives.pipelineVars,
      hsecure.mpr hsurvives.pipelineVarsSecure⟩
    change orElse (orElse stored.profileId "default".toList) "default".toList = stored.profileId
    rw [hprofile, hprofile]

theorem templateUnchanged_iff (hlib : PythonTexts lib) (hnumber : IsNumberText number) (id : Uuid)
    {template : RunTemplate} (h : StoredTemplate template) :
    TemplateUnchanged lib (templatePayload (templateToForm number id template)) template ↔
      TemplateSurvives lib number template := by
  obtain ⟨tags, htags⟩ := h.tags
  have htagsIff : parseTagsText (tagsToText template.tags) = template.tags ↔
      ∀ tag ∈ template.tags, TagSurvives tag := by
    rw [htags]
    exact parseTagsText_tagsToText_iff ne_nil_of_mem_normalizeTags (nodup_normalizeTags tags)
  have hrun := sameRun_iff hlib hnumber h.run template.pipelineData
  constructor
  · intro hsame
    exact ⟨hsame.name, htagsIff.mp hsame.tags, hrun.mp hsame.run⟩
  · intro hsurvives
    exact ⟨hsurvives.name, htagsIff.mpr hsurvives.tags, hrun.mpr hsurvives.run⟩

theorem scheduleUnchanged_iff (hlib : PythonTexts lib) (hnumber : IsNumberText number) (id : Uuid)
    {schedule : ScheduledRun} (h : StoredSchedule schedule) :
    ScheduleUnchanged lib (schedulePayload (scheduleToForm number id schedule) none) schedule ↔
      ScheduleSurvives lib number schedule := by
  have hrun := sameRun_iff hlib hnumber h.run (normalizePipelineData schedule.pipelineData)
  constructor
  · rintro ⟨hname, request, hcontent, hsame⟩
    obtain rfl := SchedulePayload.Content.run.inj hcontent
    exact ⟨hname, hrun.mp hsame⟩
  · intro hsurvives
    exact ⟨hsurvives.name, _, rfl, hrun.mpr hsurvives.run⟩

/-- Opening and saving an untouched form changes nothing exactly if every field of the form survives. -/
theorem editForm_unchanged_iff (hlib : PythonTexts lib) (hnumber : IsNumberText number) (id : Uuid) :
    (∀ template, StoredTemplate template →
      (TemplateUnchanged lib (templatePayload (templateToForm number id template)) template ↔
        TemplateSurvives lib number template)) ∧
    ∀ schedule, StoredSchedule schedule →
      (ScheduleUnchanged lib (schedulePayload (scheduleToForm number id schedule) none) schedule ↔
        ScheduleSurvives lib number schedule) :=
  ⟨fun _ h => templateUnchanged_iff hlib hnumber id h,
    fun _ h => scheduleUnchanged_iff hlib hnumber id h⟩

end RoundTrip

/-- The text of an integer, in either language. -/
def integerText : Json → Text
  | .int (.ofNat n) => Nat.toDigits 10 n
  | .int (.negSucc n) => '-' :: Nat.toDigits 10 (n + 1)
  | _ => []

theorem isNumberText_integerText : IsNumberText integerText := by
  have hdigits : ∀ n, '[' ∉ Nat.toDigits 10 n := fun n hmem =>
    absurd (Nat.isDigit_of_mem_toDigits (by decide) (by decide) hmem) (by decide)
  intro value
  unfold integerText
  split
  · exact hdigits _
  · next n =>
    rw [List.mem_cons, not_or]
    exact ⟨by decide, hdigits (n + 1)⟩
  · exact List.not_mem_nil

def sampleText : Json → Text
  | .null => "None".toList
  | .bool true => "True".toList
  | .bool false => "False".toList
  | .str s => s
  | value => integerText value

def sampleLibrary : JobLibrary where
  jwtEncode _ _ := []
  jwtDecode _ _ _ := none
  uuid _ := none
  str := sampleText
  jsonDumps := Json.dumps sampleText

theorem sampleLibrary_texts : PythonTexts sampleLibrary :=
  ⟨fun _ => rfl, rfl, rfl, rfl, fun _ => rfl⟩

def sampleTemplate (pipelineVars : Text) : RunTemplate where
  name := "nightly".toList
  description := none
  tags := ConfigImport.normalizeTags ["ci".toList, "nightly build".toList]
  templateKind := "simple".toList
  profileId := "default".toList
  pipelineData := "pipeline.yaml".toList
  pipelineVars := some pipelineVars
  pipelineVarsSecure := none
  isDryRun := false
  logLevel := "INFO".toList
  envVars := some [("RETRIES".toList, .int 3)]
  pdeImage := none
  declarativeSpec := none
  createdAt := 0
  updatedAt := 0

theorem stored_sampleTemplate {pipelineVars : Text}
    (h : ((textVars (some pipelineVars)).map Prod.fst).Nodup) :
    StoredTemplate (sampleTemplate pipelineVars) :=
  ⟨rfl, ⟨rfl, List.cons_ne_nil _ _⟩, ⟨_, rfl⟩,
    ⟨List.cons_ne_nil _ _, ⟨none, rfl⟩, h, List.nodup_nil, List.nodup_singleton _⟩⟩

/-- A schedule with a variable, a secret and a pipeline of one line. -/
def sampleSchedule : ScheduledRun :=
  { sampleRow OverlapPolicy.skip with
    pipelineVars := some "DATA_DIR=debug_logs".toList
    pipelineVarsSecure := InputCrypto.maskSecureVars (some "TOKEN=abc".toList) }

theorem stored_sampleSchedule : StoredSchedule sampleSchedule :=
  ⟨⟨rfl, List.cons_ne_nil _ _⟩, ⟨some "TOKEN=abc".toList, rfl⟩,
    ⟨List.cons_ne_nil _ _, ⟨none, rfl⟩, by decide, by decide, List.nodup_nil⟩⟩

/-- The form takes the semicolon for the end of the entry. -/
theorem editForm_loses_semicolon :
    StoredTemplate (sampleTemplate "DATA_DIR=debug_logs;".toList) ∧
      ¬TemplateUnchanged sampleLibrary
        (templatePayload (templateToForm integerText 1 (sampleTemplate "DATA_DIR=debug_logs;".toList)))
        (sampleTemplate "DATA_DIR=debug_logs;".toList) := by
  refine ⟨stored_sampleTemplate (by decide), fun h => ?_⟩
  have hvalue := congrFun h.run.pipelineVars "DATA_DIR".toList
  exact absurd hvalue (by decide)

/-- Without it, and for a schedule with a secret, the form changes nothing. -/
theorem editForm_unchanged_sample :
    TemplateUnchanged sampleLibrary
        (templatePayload (templateToForm integerText 1 (sampleTemplate "DATA_DIR=debug_logs".toList)))
        (sampleTemplate "DATA_DIR=debug_logs".toList) ∧
      ScheduleUnchanged sampleLibrary
        (schedulePayload (scheduleToForm integerText 1 sampleSchedule) none) sampleSchedule := by
  obtain ⟨htemplate, hschedule⟩ := editForm_unchanged_iff sampleLibrary_texts isNumberText_integerText 1
  constructor
  · refine (htemplate _ (stored_sampleTemplate (by decide))).mpr ⟨by decide, by decide, ⟨by decide,
      nofun, ?_, by decide, by decide⟩⟩
    intro e he
    obtain rfl := List.mem_singleton.mp he
    exact ⟨by decide, by decide, by decide, rfl⟩
  · refine (hschedule _ stored_sampleSchedule).mpr ⟨by decide, ⟨by decide, nofun, ?_, by decide,
      by decide⟩⟩
    exact fun e he => absurd he List.not_mem_nil

end PdeOperator.EditForm
