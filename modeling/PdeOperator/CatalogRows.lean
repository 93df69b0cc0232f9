import PdeOperator.Catalog
import PdeOperator.EditFormFields

/-! What the rows of the catalog look like in every reachable state. Updates write single columns onto
rows that may have changed since they were read, so what is said of a row must hold column by column. -/

namespace PdeOperator.Catalog
open Base
open ConfigImport (CreateProfileRequest CreateSimpleRunTemplateRequest defaultProfileId
  validProfileId)

variable {lib : Library} {w w' : World}

variable (lib) in
inductive Step (w : World) : Act → World → Prop
  | write {c : Nat} {write : Write} {changes : Changes} (hcall : w.calls c = none)
      (hfresh : ∀ templateId, write.newId = some templateId → templateId ∉ w.issued)
      (hchanges : changesOf lib w.profiles w.templates write = .ok changes) :
      Step w (.write c write)
        { w.spawn c (.writing changes) with issued := write.newId.toList ++ w.issued }
  | importParse {c : Nat} {yamlText : Text} {mode : ConfigImport.Mode} {docs : ConfigImport.Documents}
      (hcall : w.calls c = none) (hdocs : ConfigImport.parseDocuments lib.config yamlText = .ok docs) :
      Step w (.importParse c yamlText mode) (w.spawn c (.importing docs (purge w mode)))
  | importProfile {c : Nat} {env : ConfigImport.Env} {position : Nat} {docs : ConfigImport.Documents}
      {changes : Changes} {request : CreateProfileRequest} {rest : List CreateProfileRequest}
      (hcall : w.calls c = some (.importing docs changes)) (hdocs : docs.profiles = request :: rest)
      (hid : validProfileId request.id = true) :
      Step w (.importProfile c env position) (w.spawn c (.importing { docs with profiles := rest }
        { changes with profiles := changes.profiles ++
          [upsert env position request (w.profiles.seen changes.profiles request.id)] }))
  | importSimple {c : Nat} {env : ConfigImport.Env} {templateId : Uuid} {docs : ConfigImport.Documents}
      {changes : Changes} {request : CreateSimpleRunTemplateRequest}
      {rest : List CreateSimpleRunTemplateRequest}
      (hcall : w.calls c = some (.importing docs changes))
      (hdocs : docs.simpleTemplates = request :: rest) (hfresh : templateId ∉ w.issued) :
      Step w (.importSimple c env templateId)
        { w.spawn c (.importing { docs with simpleTemplates := rest }
          { changes with templates := changes.templates ++
            [.insert templateId (ConfigImport.buildSimpleTemplate env request)] }) with
          issued := templateId :: w.issued }
  | importDeclarative {c : Nat} {env : ConfigImport.Env} {templateId : Uuid}
      {docs : ConfigImport.Documents} {changes : Changes}
      {contract : ConfigImport.DeclarativeRunTemplate}
      {rest : List ConfigImport.DeclarativeRunTemplate}
      (hcall : w.calls c = some (.importing docs changes))
      (hdocs : docs.declarativeTemplates = contract :: rest) (hfresh : templateId ∉ w.issued) :
      Step w (.importDeclarative c env templateId)
        { w.spawn c (.importing { docs with declarativeTemplates := rest }
          { changes with templates := changes.templates ++
            [.insert templateId (ConfigImport.buildDeclarativeTemplate env contract)] }) with
          issued := templateId :: w.issued }
  | readTemplate {c : Nat} {templateId : Uuid} {request : Option CreateRunFromTemplateRequest}
      {template : RunTemplate} (hcall : w.calls c = none)
      (htemplate : w.templates.lookup templateId = some template) :
      Step w (.readTemplate c templateId request) (w.spawn c (.picking template (request.getD {})))
  | pickNamed {c : Nat} {template : RunTemplate} {overrides : CreateRunFromTemplateRequest}
      {profile : Profile} (hcall : w.calls c = some (.picking template overrides))
      (hprofile : w.profiles.lookup (namedProfile template overrides) = some profile) :
      Step w (.readProfile c) (w.spawn c (.picked (namedProfile template overrides) profile))
  | missDefault {c : Nat} {a : Act} (ha : a = .readProfile c ∨ a = .readDefault c)
      (hprofile : w.profiles.lookup defaultProfileId = none) :
      Step w a (w.spawn c (.profileMissing defaultProfileId))
  | fallBack {c : Nat} {template : RunTemplate} {overrides : CreateRunFromTemplateRequest}
      (hcall : w.calls c = some (.picking template overrides))
      (hprofile : w.profiles.lookup (namedProfile template overrides) = none) :
      Step w (.readProfile c) (w.spawn c .fallingBack)
  | pickDefault {c : Nat} {profile : Profile} (hcall : w.calls c = some .fallingBack)
      (hprofile : w.profiles.lookup defaultProfileId = some profile) :
      Step w (.readDefault c) (w.spawn c (.picked defaultProfileId profile))
  | commit {c : Nat} {call : Call} {profiles : Table Text Profile} {templates : Table Uuid RunTemplate}
      (hcall : w.calls c = some call)
      (hprofiles : w.profiles.applyAll call.changes.profiles = some profiles)
      (htemplates : w.templates.applyAll call.changes.templates = some templates) :
      Step w (.commit c) ({ w with profiles, templates }.finish c)
  | importCommit {c : Nat} {a : Act} {docs : ConfigImport.Documents} {changes : Changes}
      {scheduledRuns : List ImportScheduledRunRequest} {profiles : Table Text Profile}
      {templates : Table Uuid RunTemplate} (ha : a = .importPurged c ∨ a = .importSchedule c)
      (hcall : w.calls c = some (.importing docs changes))
      (hprofiles : w.profiles.applyAll changes.profiles = some profiles)
      (htemplates : w.templates.applyAll changes.templates = some templates) :
      Step w a ({ w with profiles, templates }.spawn c (.importing { docs with scheduledRuns } {}))
  | drop {c : Nat} {call : Call} (hcall : w.calls c = some call) : Step w (.drop c) (w.finish c)

section Cases

variable {c : Nat}

theorem step_write {write : Write} (h : startWrite lib w c write = some w') :
    Step lib w (.write c write) w' := by
  simp only [startWrite, Option.bind_eq_bind, Option.bind_eq_some_iff, Option.guard_eq_some',
    Option.isNone_iff_eq_none] at h
  obtain ⟨-, hcall, -, hfresh, changes, hchanges, heq⟩ := h
  cases heq
  refine .write hcall (fun templateId hnew => ?_) (toOption_eq_some.mp hchanges)
  rw [hnew, Option.all_some] at hfresh
  simpa using hfresh

theorem step_importParse {yamlText : Text} {mode : ConfigImport.Mode}
    (h : importParse lib w c yamlText mode = some w') : Step lib w (.importParse c yamlText mode) w' := by
  simp only [importParse, Option.bind_eq_bind, Option.bind_eq_some_iff, Option.guard_eq_some',
    Option.isNone_iff_eq_none] at h
  obtain ⟨-, hcall, docs, hdocs, heq⟩ := h
  cases heq
  exact .importParse hcall (toOption_eq_some.mp hdocs)

theorem step_importProfile {env : ConfigImport.Env} {position : Nat}
    (h : importProfile w c env position = some w') : Step lib w (.importProfile c env position) w' := by
  unfold importProfile at h
  split at h
  · next docs changes hcall =>
    split at h
    · cases h
    · next request rest hdocs =>
      simp only [Option.bind_eq_bind, Option.bind_eq_some_iff, Option.guard_eq_some'] at h
      obtain ⟨-, hid, heq⟩ := h
      cases heq
      exact .importProfile hcall hdocs hid
  · cases h

theorem addTemplate_eq_some {docs : ConfigImport.Documents} {changes : Changes} {templateId : Uuid}
    {template : RunTemplate} (h : addTemplate w c docs changes templateId template = some w') :
    templateId ∉ w.issued ∧ w' = { w.spawn c (.importing docs
        { changes with templates := changes.templates ++ [.insert templateId template] }) with
      issued := templateId :: w.issued } := by
  simp only [addTemplate, Option.bind_eq_bind, Option.bind_eq_some_iff, Option.guard_eq_some'] at h
  obtain ⟨-, hfresh, heq⟩ := h
  exact ⟨by simpa using hfresh, (Option.some.inj heq).symm⟩

theorem step_importSimple {env : ConfigImport.Env} {templateId : Uuid}
    (h : importSimple w c env templateId = some w') : Step lib w (.importSimple c env templateId) w' := by
  unfold importSimple at h
  split at h
  · next docs changes hcall =>
    split at h
    · next request rest _ hdocs =>
      obtain ⟨hfresh, rfl⟩ := addTemplate_eq_some h
      exact .importSimple hcall hdocs hfresh
    · cases h
  · cases h

theorem step_importDeclarative {env : ConfigImport.Env} {templateId : Uuid}
    (h : importDeclarative w c env templateId = some w') :
    Step lib w (.importDeclarative c env templateId) w' := by
  unfold importDeclarative at h
  split at h
  · next docs changes hcall =>
    split at h
    · next contract rest _ _ hdocs =>
      obtain ⟨hfresh, rfl⟩ := addTemplate_eq_some h
      exact .importDeclarative hcall hdocs hfresh
    · cases h
  · cases h

theorem step_readTemplate {templateId : Uuid} {request : Option CreateRunFromTemplateRequest}
    (h : readTemplate w c templateId request = some w') :
    Step lib w (.readTemplate c templateId request) w' := by
  simp only [readTemplate, Option.bind_eq_bind, Option.bind_eq_some_iff, Option.guard_eq_some',
    Option.isNone_iff_eq_none] at h
  obtain ⟨-, hcall, template, htemplate, -, -, heq⟩ := h
  cases heq
  exact .readTemplate hcall htemplate

theorem step_readProfile (h : readProfile w c = some w') : Step lib w (.readProfile c) w' := by
  unfold readProfile at h
  split at h
  · next template overrides hcall =>
    split at h
    · next profile hprofile =>
      cases h
      exact .pickNamed hcall hprofile
    · next hprofile =>
      split at h
      · next hdefault =>
        cases h
        exact .missDefault (Or.inl rfl) (hdefault ▸ hprofile)
      · cases h
        exact .fallBack hcall hprofile
  · cases h

theorem step_readDefault (h : readDefault w c = some w') : Step lib w (.readDefault c) w' := by
  unfold readDefault at h
  split at h
  · next hcall =>
    split at h
    · next profile hprofile =>
      cases h
      exact .pickDefault hcall hprofile
    · next hprofile =>
      cases h
      exact .missDefault (Or.inr rfl) hprofile
  · cases h

theorem commitChanges_eq_some {changes : Changes} (h : commitChanges w changes = some w') :
    ∃ profiles templates, w.profiles.applyAll changes.profiles = some profiles ∧
      w.templates.applyAll changes.templates = some templates ∧ w' = { w with profiles, templates } := by
  simp only [commitChanges, Option.bind_eq_bind, Option.bind_eq_some_iff] at h
  obtain ⟨profiles, hprofiles, templates, htemplates, heq⟩ := h
  exact ⟨profiles, templates, hprofiles, htemplates, (Option.some.inj heq).symm⟩

theorem step_commit (h : commit w c = some w') : Step lib w (.commit c) w' := by
  have hcommit : ∀ {call : Call}, w.calls c = some call →
      ((commitChanges w call.changes).bind fun v => some (v.finish c)) = some w' →
      Step lib w (.commit c) w' := by
    intro call hcall hwrite
    obtain ⟨v, hv, heq⟩ := Option.bind_eq_some_iff.mp hwrite
    obtain ⟨profiles, templates, hprofiles, htemplates, rfl⟩ := commitChanges_eq_some hv
    cases heq
    exact .commit hcall hprofiles htemplates
  unfold commit at h
  split at h
  · next changes hcall => exact hcommit hcall h
  · next docs changes hcall =>
    split at h
    · exact hcommit hcall h
    · cases h
  · cases h

theorem step_importPurged (h : importPurged w c = some w') : Step lib w (.importPurged c) w' := by
  unfold importPurged at h
  split at h
  · next docs changes hcall =>
    simp only [Option.bind_eq_bind, Option.bind_eq_some_iff, Option.guard_eq_some'] at h
    obtain ⟨-, -, v, hv, heq⟩ := h
    obtain ⟨profiles, templates, hprofiles, htemplates, rfl⟩ := commitChanges_eq_some hv
    cases heq
    exact .importCommit (Or.inl rfl) hcall hprofiles htemplates
  · cases h

theorem step_importSchedule (h : importSchedule w c = some w') : Step lib w (.importSchedule c) w' := by
  unfold importSchedule at h
  split at h
  · next docs changes hcall =>
    split at h
    · obtain ⟨v, hv, heq⟩ := Option.bind_eq_some_iff.mp h
      obtain ⟨profiles, templates, hprofiles, htemplates, rfl⟩ := commitChanges_eq_some hv
      cases heq
      exact .importCommit (Or.inr rfl) hcall hprofiles htemplates
    · cases h
  · cases h

theorem step_drop (h : drop w c = some w') : Step lib w (.drop c) w' := by
  simp only [drop, Option.bind_eq_bind, Option.bind_eq_some_iff, Option.guard_eq_some',
    Option.isSome_iff_exists] at h
  obtain ⟨-, ⟨call, hcall⟩, heq⟩ := h
  cases heq
  exact .drop hcall

theorem step_cases {a : Act} (h : step lib w a = some w') : Step lib w a w' := by
  cases a with
  | write c write => exact step_write h
  | importParse c yamlText mode => exact step_importParse h
  | importProfile c env position => exact step_importProfile h
  | importSimple c env templateId => exact step_importSimple h
  | importDeclarative c env templateId => exact step_importDeclarative h
  | importPurged c => exact step_importPurged h
  | importSchedule c => exact step_importSchedule h
  | readTemplate c templateId request => exact step_readTemplate h
  | readProfile c => exact step_readProfile h
  | readDefault c => exact step_readDefault h
  | commit c => exact step_commit h
  | drop c => exact step_drop h

theorem spawn_calls (call : Call) :
    (w.spawn c call).calls = Function.update w.calls c (some call) := rfl

theorem finish_calls : (w.finish c).calls = Function.update w.calls c none := rfl

theorem calls_spawn {call call' : Call} {c' : Nat} (h : (w.spawn c call).calls c' = some call') :
    (c' = c ∧ call' = call) ∨ w.calls c' = some call' := by
  by_cases hc : c' = c
  · subst hc
    rw [spawn_calls, Function.update_self, Option.some.injEq] at h
    exact Or.inl ⟨rfl, h.symm⟩
  · rw [spawn_calls, Function.update_of_ne hc] at h
    exact Or.inr h

theorem calls_finish {call' : Call} {c' : Nat} (h : (w.finish c).calls c' = some call') :
    w.calls c' = some call' := by
  by_cases hc : c' = c
  · subst hc
    rw [finish_calls, Function.update_self] at h
    cases h
  · rw [finish_calls, Function.update_of_ne hc] at h
    exact h

end Cases

/-! ### Rows -/

def ValidProfile (profileId : Text) (profile : Profile) : Prop :=
  validProfileId profileId = true ∧ resourcesValid profile.resources = true

/-- A template that can be run from a form of its own. -/
structure SimpleRow (template : RunTemplate) : Prop where
  kind : template.templateKind = "simple".toList
  spec : template.declarativeSpec = none
  name : Text.strip template.name = template.name ∧ template.name ≠ []
  profileId : template.profileId ≠ []
  pipelineData : Text.isBlank template.pipelineData = false

variable (lib) in
/-- A template with the contract of a document that the parser has accepted. -/
structure DeclarativeRow (template : RunTemplate) : Prop where
  kind : template.templateKind = "declarative".toList
  spec : ∃ doc parsed, fromDocument lib doc = some parsed ∧
    template.declarativeSpec = some (Declarative.Store.storedSpec lib.column parsed)

variable (lib) in
structure ValidTemplate (template : RunTemplate) : Prop where
  tags : ∃ tags, template.tags = ConfigImport.normalizeTags tags
  kinds : SimpleRow template ∨ DeclarativeRow lib template

theorem guard_ok {b : Bool} {u : Unit} (h : (guard (b = true) : Option Unit) = some u) : b = true := by
  rwa [Option.guard_eq_some'] at h

theorem validateProfile_resources {payload : JsonObject} {request : CreateProfileRequest}
    (h : ConfigImport.validateProfile lib.config payload = some request) :
    resourcesValid request.resources = true := by
  simp only [ConfigImport.validateProfile, Option.bind_eq_bind, Option.bind_eq_some_iff] at h
  obtain ⟨raw, -, _, hchecked, heq⟩ := h
  obtain rfl := Option.some.inj heq
  exact guard_ok hchecked

theorem validateProfileUpdate_resources {payload : JsonObject} {request : UpdateProfileRequest}
    (h : validateProfileUpdate lib payload = some request) : resourcesValid request.resources = true := by
  simp only [validateProfileUpdate, Option.bind_eq_bind, Option.bind_eq_some_iff] at h
  obtain ⟨raw, -, _, hchecked, heq⟩ := h
  obtain rfl := Option.some.inj heq
  exact guard_ok hchecked

/-- A request for a simple template whose validators have run. -/
structure CheckedTemplate (request : CreateSimpleRunTemplateRequest) : Prop where
  name : Text.strip request.name = request.name ∧ request.name ≠ []
  pipelineData : Text.isBlank request.pipelineData = false

theorem checkedTemplate_of_validate {config : ConfigImport.Library} {payload : JsonObject}
    {request : CreateSimpleRunTemplateRequest}
    (h : ConfigImport.validateSimpleTemplate config payload = some request) : CheckedTemplate request := by
  simp only [ConfigImport.validateSimpleTemplate, Option.bind_eq_bind, Option.bind_eq_some_iff] at h
  obtain ⟨raw, -, _, hchecked, heq⟩ := h
  obtain rfl := Option.some.inj heq
  have hboth := guard_ok hchecked
  rw [Bool.and_eq_true, Bool.not_eq_true', Bool.not_eq_true'] at hboth
  refine ⟨⟨Text.trimBy_trimBy, fun hname => ?_⟩, hboth.2⟩
  rw [show Text.strip raw.name = [] from hname] at hboth
  cases hboth.1

theorem profileOrDefault_ne_nil (profileId : Text) : profileOrDefault profileId ≠ [] := by
  unfold profileOrDefault
  split
  · decide
  · next hne => exact fun hnil => hne (List.isEmpty_iff.mpr hnil)

variable (lib) in
/-- What a session writes keeps the rows as they must be and spares the default profile. -/
structure Changes.Valid (changes : Changes) : Prop where
  profiles : ∀ change ∈ changes.profiles, change.Keeps ValidProfile ∧
    change.deletes ≠ some defaultProfileId
  templates : ∀ change ∈ changes.templates, change.Keeps fun _ => ValidTemplate lib

theorem Changes.Valid.empty : Changes.Valid lib {} where
  profiles _ hchange := absurd hchange List.not_mem_nil
  templates _ hchange := absurd hchange List.not_mem_nil

theorem Changes.Valid.addProfile {changes : Changes} (h : changes.Valid lib) {change : ProfileChange}
    (hkeeps : change.Keeps ValidProfile) (hdefault : change.deletes ≠ some defaultProfileId) :
    Changes.Valid lib { changes with profiles := changes.profiles ++ [change] } where
  profiles other hother := by
    rcases List.mem_append.mp hother with hold | hnew
    · exact h.profiles other hold
    · obtain rfl := List.mem_singleton.mp hnew
      exact ⟨hkeeps, hdefault⟩
  templates := h.templates

theorem Changes.Valid.addTemplate {changes : Changes} (h : changes.Valid lib) (templateId : Uuid)
    {template : RunTemplate} (hvalid : ValidTemplate lib template) :
    Changes.Valid lib
      { changes with templates := changes.templates ++ [.insert templateId template] } where
  profiles := h.profiles
  templates other hother := by
    rcases List.mem_append.mp hother with hold | hnew
    · exact h.templates other hold
    · obtain rfl := List.mem_singleton.mp hnew
      exact hvalid

/-- New values for the resources of a profile are valid, so a row with some of them is. -/
theorem keeps_write_profile {profileId : Text} {read work : Profile}
    (hwork : resourcesValid work.resources = true) :
    (Change.write ⟨profileId, read, work⟩ : ProfileChange).Keeps ValidProfile := by
  intro current hcurrent
  refine ⟨hcurrent.1, ?_⟩
  have hcolumn : (writeBack read work current).resources = current.resources ∨
      (writeBack read work current).resources = work.resources := column_eq_or _ _ _
  rcases hcolumn with hold | hnew
  · rw [hold]
    exact hcurrent.2
  · rw [hnew]
    exact hwork

theorem keeps_write_template {templateId : Uuid} {read work : RunTemplate}
    (htags : ∃ tags, work.tags = ConfigImport.normalizeTags tags)
    (hname : Text.strip work.name = work.name ∧ work.name ≠ []) (hprofile : work.profileId ≠ [])
    (hdata : Text.isBlank work.pipelineData = false) (hkind : work.templateKind = read.templateKind)
    (hspec : work.declarativeSpec = read.declarativeSpec) :
    (Change.write ⟨templateId, read, work⟩ : TemplateChange).Keeps (fun _ => ValidTemplate lib) := by
  intro current hcurrent
  have hcolumn : ∀ {α : Type} [DecidableEq α] {p : α → Prop} {a b c : α}, p b → p c → p (column a b c) := by
    intro α _ p a b c hb hc
    rcases column_eq_or a b c with h | h
    · rw [h]
      exact hc
    · rw [h]
      exact hb
  have hsameKind : (writeBack read work current).templateKind = current.templateKind :=
    column_kept hkind _
  have hsameSpec : (writeBack read work current).declarativeSpec = current.declarativeSpec :=
    column_kept hspec _
  refine ⟨hcolumn (p := fun tags => ∃ raw, tags = ConfigImport.normalizeTags raw) htags hcurrent.tags,
    hcurrent.kinds.imp (fun hsimple => ?_) fun hdeclarative => ?_⟩
  · exact
      { kind := hsameKind.trans hsimple.kind
        spec := hsameSpec.trans hsimple.spec
        name := hcolumn (p := fun name => Text.strip name = name ∧ name ≠ []) hname hsimple.name
        profileId := hcolumn (p := fun profileId => profileId ≠ []) hprofile hsimple.profileId
        pipelineData := hcolumn (p := fun text => Text.isBlank text = false) hdata
          hsimple.pipelineData }
  · exact ⟨hsameKind.trans hdeclarative.kind, hsameSpec ▸ hdeclarative.spec⟩

theorem validTemplate_newTemplate {request : CreateSimpleRunTemplateRequest}
    (hchecked : CheckedTemplate request) (dbNow : Instant) :
    ValidTemplate lib (newTemplate request dbNow) where
  tags := ⟨request.tags, rfl⟩
  kinds := Or.inl
    { kind := rfl
      spec := rfl
      name := hchecked.name
      profileId := profileOrDefault_ne_nil _
      pipelineData := hchecked.pipelineData }

theorem validTemplate_importedTemplate {doc : JsonObject} {parsed : Declarative.ParsedTemplate}
    (hparsed : fromDocument lib doc = some parsed) (now dbNow : Instant) :
    ValidTemplate lib (importedTemplate lib parsed now dbNow) where
  tags := ⟨[], rfl⟩
  kinds := Or.inr ⟨rfl, doc, parsed, hparsed, rfl⟩

theorem modelValidate_dumpResourceDict (values : Resources.ResourceDict) :
    Resources.ResourceDict.modelValidate (.obj (dumpResourceDict values)) = some values := by
  obtain ⟨cpu, memory⟩ := values
  cases cpu <;> cases memory <;> rfl

/-- The resources of the seed are valid: they are dumped from a model. -/
theorem resourcesValid_dumpJobResources (resources : Resources.JobResources) :
    resourcesValid (dumpJobResources resources) = true := by
  have hrequests : Resources.nestedDict (Json.get (dumpJobResources resources) "requests".toList) =
      some resources.requests := modelValidate_dumpResourceDict resources.requests
  have hlimits : Resources.nestedDict (Json.get (dumpJobResources resources) "limits".toList) =
      some resources.limits := modelValidate_dumpResourceDict resources.limits
  rw [resourcesValid, Resources.JobResources.modelValidate, hrequests, hlimits]
  rfl

theorem required_eq_ok {α : Type} {error : Error} {value : Option α} {a : α}
    (h : required error value = .ok a) : value = some a := by
  cases value with
  | none => cases h
  | some b => rw [Except.ok.inj h]

theorem parseYaml_eq_some {yamlText : Text} {parsed : Declarative.ParsedTemplate}
    (h : parseYaml lib yamlText = some parsed) : ∃ doc, fromDocument lib doc = some parsed := by
  unfold parseYaml at h
  split at h
  · next doc _ => exact ⟨doc, h⟩
  · cases h

theorem valid_single {change : ProfileChange} (hkeeps : change.Keeps ValidProfile)
    (hdefault : change.deletes ≠ some defaultProfileId) :
    Changes.Valid lib { profiles := [change] } :=
  Changes.Valid.addProfile .empty hkeeps hdefault

theorem valid_changesOf {profiles : Table Text Profile} {templates : Table Uuid RunTemplate}
    {write : Write} {changes : Changes} (h : changesOf lib profiles templates write = .ok changes) :
    changes.Valid lib := by
  cases write with
  | initDb seed dbNow =>
      cases h
      unfold initDb
      split
      · exact .empty
      · exact valid_single ⟨by decide, resourcesValid_dumpJobResources _⟩ nofun
  | createProfile payload dbNow =>
      obtain ⟨request, hrequest, h⟩ := bind_eq_ok.mp h
      obtain ⟨written, hwritten, h⟩ := bind_eq_ok.mp h
      cases h
      unfold createProfile at hwritten
      split at hwritten
      · cases hwritten
      · next hid =>
        split at hwritten
        · cases hwritten
        · cases hwritten
          have hvalid := validateProfile_resources (required_eq_ok hrequest)
          exact valid_single ⟨by simpa using hid, hvalid⟩ nofun
  | updateProfile profileId payload now =>
      obtain ⟨request, hrequest, h⟩ := bind_eq_ok.mp h
      obtain ⟨written, hwritten, h⟩ := bind_eq_ok.mp h
      cases h
      unfold updateProfile at hwritten
      split at hwritten
      · cases hwritten
      · cases hwritten
        have hvalid := validateProfileUpdate_resources (required_eq_ok hrequest)
        exact valid_single (keeps_write_profile hvalid) nofun
  | deleteProfile profileId =>
      obtain ⟨written, hwritten, h⟩ := bind_eq_ok.mp h
      cases h
      unfold deleteProfile at hwritten
      split at hwritten
      · cases hwritten
      · next hother =>
        split at hwritten
        · cases hwritten
        · cases hwritten
          exact valid_single trivial fun heq => hother (Option.some.inj heq)
  | createTemplate templateId payload dbNow =>
      obtain ⟨request, hrequest, h⟩ := bind_eq_ok.mp h
      cases h
      have hchecked := checkedTemplate_of_validate (required_eq_ok hrequest)
      exact Changes.Valid.addTemplate .empty templateId (validTemplate_newTemplate hchecked dbNow)
  | updateTemplate templateId payload now =>
      obtain ⟨request, hrequest, h⟩ := bind_eq_ok.mp h
      obtain ⟨written, hwritten, h⟩ := bind_eq_ok.mp h
      cases h
      unfold updateTemplate at hwritten
      split at hwritten
      · cases hwritten
      · next template _ =>
        split at hwritten
        · cases hwritten
        · cases hwritten
          have hchecked := checkedTemplate_of_validate (required_eq_ok hrequest)
          refine ⟨fun _ hchange => absurd hchange List.not_mem_nil, fun change hchange => ?_⟩
          obtain rfl := List.mem_singleton.mp hchange
          exact keeps_write_template ⟨_, rfl⟩ hchecked.name (profileOrDefault_ne_nil _)
            hchecked.pipelineData rfl rfl
  | deleteTemplate templateId =>
      obtain ⟨written, hwritten, h⟩ := bind_eq_ok.mp h
      cases h
      unfold deleteTemplate at hwritten
      split at hwritten
      · cases hwritten
      · cases hwritten
        refine ⟨fun _ hchange => absurd hchange List.not_mem_nil, fun change hchange => ?_⟩
        obtain rfl := List.mem_singleton.mp hchange
        trivial
  | uploadTemplate templateId yamlText now dbNow =>
      obtain ⟨parsed, hparsed, h⟩ := bind_eq_ok.mp h
      cases h
      obtain ⟨doc, hdoc⟩ := parseYaml_eq_some (required_eq_ok hparsed)
      exact Changes.Valid.addTemplate .empty templateId
        (validTemplate_importedTemplate hdoc now dbNow)

end PdeOperator.Catalog
