import PdeOperator.BaseSession
import PdeOperator.BaseSystem
import PdeOperator.DeclarativeStore
import PdeOperator.RunStore

/-! The catalog as one transition system: the committed profiles and run templates, and every call in
flight that reads or writes them, at the granularity of the database calls.

A call reads committed rows and collects what its session is going to write; the commit writes it all, or
fails when a key is taken or a changed row is gone. A call that raises, or whose process dies, ends
without writing (`drop`). The scheduled runs of an import touch neither table, but the calls for them commit
the session of the import on the way, with all that it has collected so far. -/

namespace PdeOperator
open Base

deriving instance DecidableEq for RunTemplate

instance : WriteBack Profile where
  writeBack read work current :=
    { pdeImage := column read.pdeImage work.pdeImage current.pdeImage
      envVars := column read.envVars work.envVars current.envVars
      resources := column read.resources work.resources current.resources
      createdAt := column read.createdAt work.createdAt current.createdAt
      updatedAt := column read.updatedAt work.updatedAt current.updatedAt }
  writeBack_clean read current := by simp only [column_clean]
  writeBack_fresh read work := by simp only [column_fresh]

instance : WriteBack RunTemplate where
  writeBack read work current :=
    { name := column read.name work.name current.name
      description := column read.description work.description current.description
      tags := column read.tags work.tags current.tags
      templateKind := column read.templateKind work.templateKind current.templateKind
      profileId := column read.profileId work.profileId current.profileId
      pipelineData := column read.pipelineData work.pipelineData current.pipelineData
      pipelineVars := column read.pipelineVars work.pipelineVars current.pipelineVars
      pipelineVarsSecure :=
        column read.pipelineVarsSecure work.pipelineVarsSecure current.pipelineVarsSecure
      isDryRun := column read.isDryRun work.isDryRun current.isDryRun
      logLevel := column read.logLevel work.logLevel current.logLevel
      envVars := column read.envVars work.envVars current.envVars
      pdeImage := column read.pdeImage work.pdeImage current.pdeImage
      declarativeSpec := column read.declarativeSpec work.declarativeSpec current.declarativeSpec
      createdAt := column read.createdAt work.createdAt current.createdAt
      updatedAt := column read.updatedAt work.updatedAt current.updatedAt }
  writeBack_clean read current := by simp only [column_clean]
  writeBack_fresh read work := by simp only [column_fresh]

namespace Catalog
open ConfigImport (CreateProfileRequest CreateSimpleRunTemplateRequest defaultProfileId
  validProfileId)

structure UpdateProfileRequest where
  pdeImage : Text
  envVars : JsonObject := []
  resources : JsonObject := []

/-- The YAML loaders (`gitLabCiLoad` reads one document, `none` is a `YAMLError`), the coercion of
`pydantic` before the validators run, what the parser of declarative templates needs, and the type of
their column. -/
structure Library where
  gitLabCiLoadAll : Text → Except ConfigImport.LoaderError (List Json)
  safeLoadAll : Text → Except ConfigImport.LoaderError (List Json)
  gitLabCiLoad : Text → Option Json
  coerceProfile : JsonObject → Option CreateProfileRequest
  coerceProfileUpdate : JsonObject → Option UpdateProfileRequest
  coerceSimpleTemplate : JsonObject → Option CreateSimpleRunTemplateRequest
  coerceSchedule : JsonObject → Option ImportScheduledRunRequest
  parser : Declarative.ParserLibrary
  column : Jsonb

variable (lib : Library)

def resourcesValid (resources : JsonObject) : Bool :=
  (Resources.JobResources.modelValidate resources).isSome

def fromDocument (doc : JsonObject) : Option Declarative.ParsedTemplate :=
  (Declarative.Parser.fromDocument lib.parser doc "Declarative template".toList).toOption

/-- `DeclarativeTemplateParser.parse_yaml`; `none` is a `DeclarativeContractError` or an error of the
parser. -/
def parseYaml (yamlText : Text) : Option Declarative.ParsedTemplate :=
  match lib.gitLabCiLoad yamlText with
  | some (.obj doc) => fromDocument lib doc
  | _ => none

/-- What the import uses. -/
def Library.config : ConfigImport.Library where
  gitLabCiLoad := lib.gitLabCiLoadAll
  safeLoad := lib.safeLoadAll
  coerceProfile := lib.coerceProfile
  coerceSimpleTemplate := lib.coerceSimpleTemplate
  coerceSchedule := lib.coerceSchedule
  resourcesValid := resourcesValid
  fromDocument doc := (fromDocument lib doc).map fun template =>
    { name := template.name, dump := Declarative.Store.storedSpec lib.column template }

inductive Error where
  /-- `pydantic.ValidationError` -/
  | validation
  | profileNotFound (profileId : Text)
  | profileAlreadyExists (profileId : Text)
  | profileProtected
  | profileValidation
  | templateNotFound (templateId : Uuid)
  | templateKind (templateId : Uuid) (expected actual : Text)
  /-- `DeclarativeContractError` -/
  | declarative
  deriving DecidableEq

/-- The texts of the errors that this code raises; the other two carry those of a library. -/
def Error.message : Error → Text
  | .validation => "ValidationError".toList
  | .profileNotFound profileId => "Profile '".toList ++ profileId ++ "' not found".toList
  | .profileAlreadyExists profileId => "Profile '".toList ++ profileId ++ "' already exists".toList
  | .profileProtected => "Profile 'default' cannot be deleted".toList
  | .profileValidation => ("Profile id must be 1-64 chars, start with alphanumeric, " ++
      "and use only letters, digits, '.', '_', '-'").toList
  | .templateNotFound templateId =>
      "Run template '".toList ++ Uuid.str templateId ++ "' not found".toList
  | .templateKind templateId expected actual =>
      "Run template '".toList ++ Uuid.str templateId ++ "' is kind '".toList ++ actual ++
        "', expected '".toList ++ expected ++ "' for this operation".toList
  | .declarative => "DeclarativeContractError".toList

/-! ### `ProfileService` -/

abbrev ProfileChange := Change Text Profile
abbrev TemplateChange := Change Uuid RunTemplate

def newProfile (request : CreateProfileRequest) (dbNow : Instant) : Profile where
  pdeImage := request.pdeImage
  envVars := request.envVars
  resources := request.resources
  createdAt := dbNow
  updatedAt := dbNow

def createProfile (profiles : Table Text Profile) (request : CreateProfileRequest) (dbNow : Instant) :
    Except Error (List ProfileChange) :=
  if !validProfileId request.id then .error .profileValidation
  else match profiles.lookup request.id with
    | some _ => .error (.profileAlreadyExists request.id)
    | none => .ok [.insert request.id (newProfile request dbNow)]

/-- `UpdateProfileRequest.model_validate` -/
def validateProfileUpdate (payload : JsonObject) : Option UpdateProfileRequest := do
  let request ← lib.coerceProfileUpdate payload
  guard (resourcesValid request.resources)
  some request

def updatedProfile (request : UpdateProfileRequest) (now : Instant) (profile : Profile) : Profile :=
  { profile with
    pdeImage := request.pdeImage
    envVars := request.envVars
    resources := request.resources
    updatedAt := now }

def updateProfile (profiles : Table Text Profile) (profileId : Text) (request : UpdateProfileRequest)
    (now : Instant) : Except Error (List ProfileChange) :=
  match profiles.lookup profileId with
  | none => .error (.profileNotFound profileId)
  | some profile => .ok [.write ⟨profileId, profile, updatedProfile request now profile⟩]

def deleteProfile (profiles : Table Text Profile) (profileId : Text) :
    Except Error (List ProfileChange) :=
  if profileId = defaultProfileId then .error .profileProtected
  else match profiles.lookup profileId with
    | none => .error (.profileNotFound profileId)
    | some _ => .ok [.delete profileId]

/-- The settings that the seed is made of. -/
structure Seed where
  pdeDefaultImage : Text
  k8sJobResources : Resources.JobResources

/-- `model_dump(exclude_none=True)` -/
def dumpResourceDict (values : Resources.ResourceDict) : JsonObject :=
  (values.cpu.map fun cpu => ("cpu".toList, Json.str cpu)).toList ++
    (values.memory.map fun memory => ("memory".toList, Json.str memory)).toList

def dumpJobResources (resources : Resources.JobResources) : JsonObject :=
  [("requests".toList, .obj (dumpResourceDict resources.requests)),
    ("limits".toList, .obj (dumpResourceDict resources.limits))]

def defaultProfile (seed : Seed) (dbNow : Instant) : Profile where
  pdeImage := seed.pdeDefaultImage
  envVars :=
    [("PIPELINES_DECLARATIVE_EXECUTOR_FAIL_ON_MISSING_SOPS".toList, .str "false".toList),
      ("PIPELINES_DECLARATIVE_EXECUTOR_ENCRYPT_OUTPUT_SECURE_PARAMS".toList, .str "false".toList)]
  resources := dumpJobResources seed.k8sJobResources
  createdAt := dbNow
  updatedAt := dbNow

def initDb (profiles : Table Text Profile) (seed : Seed) (dbNow : Instant) : List ProfileChange :=
  match profiles.lookup defaultProfileId with
  | some _ => []
  | none => [.insert defaultProfileId (defaultProfile seed dbNow)]

/-! ### `RunTemplateService` and `DeclarativeTemplateStore` -/

def profileOrDefault (profileId : Text) : Text :=
  if profileId.isEmpty then "default".toList else profileId

/-- `_build_template`, with the defaults of the database. -/
def newTemplate (request : CreateSimpleRunTemplateRequest) (dbNow : Instant) : RunTemplate where
  name := request.name
  description := request.description
  tags := ConfigImport.normalizeTags request.tags
  templateKind := "simple".toList
  profileId := profileOrDefault request.profileId
  pipelineData := request.pipelineData
  pipelineVars := request.pipelineVars
  pipelineVarsSecure := request.pipelineVarsSecure
  isDryRun := request.isDryRun
  logLevel := request.logLevel
  envVars := request.envVars
  pdeImage := ScheduleService.normalizeImage request.pdeImage
  declarativeSpec := none
  createdAt := dbNow
  updatedAt := dbNow

def updatedTemplate (request : CreateSimpleRunTemplateRequest) (now : Instant)
    (template : RunTemplate) : RunTemplate :=
  { template with
    name := request.name
    description := request.description
    tags := ConfigImport.normalizeTags request.tags
    profileId := profileOrDefault request.profileId
    pipelineData := request.pipelineData
    pipelineVars := request.pipelineVars
    pipelineVarsSecure := request.pipelineVarsSecure
    isDryRun := request.isDryRun
    logLevel := request.logLevel
    envVars := request.envVars
    pdeImage := ScheduleService.normalizeImage request.pdeImage
    updatedAt := now }

def updateTemplate (templates : Table Uuid RunTemplate) (templateId : Uuid)
    (request : CreateSimpleRunTemplateRequest) (now : Instant) : Except Error (List TemplateChange) :=
  match templates.lookup templateId with
  | none => .error (.templateNotFound templateId)
  | some template =>
      if template.templateKind ≠ "simple".toList then
        .error (.templateKind templateId "simple".toList template.templateKind)
      else .ok [.write ⟨templateId, template, updatedTemplate request now template⟩]

def deleteTemplate (templates : Table Uuid RunTemplate) (templateId : Uuid) :
    Except Error (List TemplateChange) :=
  match templates.lookup templateId with
  | none => .error (.templateNotFound templateId)
  | some _ => .ok [.delete templateId]

/-- The row of `DeclarativeTemplateStore.import_from_yaml`, with the defaults of the database. -/
def importedTemplate (template : Declarative.ParsedTemplate) (now dbNow : Instant) : RunTemplate where
  name := template.name
  description := none
  tags := []
  templateKind := "declarative".toList
  profileId := "default".toList
  pipelineData := []
  pipelineVars := none
  pipelineVarsSecure := none
  isDryRun := false
  logLevel := "INFO".toList
  envVars := none
  pdeImage := none
  declarativeSpec := some (Declarative.Store.storedSpec lib.column template)
  createdAt := dbNow
  updatedAt := now

/-- The profile that the call asks for first. -/
def namedProfile (template : RunTemplate) (overrides : CreateRunFromTemplateRequest) : Text :=
  let named := (overrides.profileId.filter fun id => !id.isEmpty).getD template.profileId
  Text.strip (if named.isEmpty then defaultProfileId else named)

/-- What the session of a call is going to write. -/
structure Changes where
  profiles : List ProfileChange := []
  templates : List TemplateChange := []

/-- Nothing but the deletions of an import has been collected. -/
def Changes.onlyDeletes (changes : Changes) : Bool :=
  (changes.profiles.all fun change => change.deletes.isSome) &&
    changes.templates.all fun change => change.deletes.isSome

inductive Call where
  | writing (changes : Changes)
  /-- The import, with the documents that it has still to go through. -/
  | importing (docs : ConfigImport.Documents) (changes : Changes)
  /-- `create_run_from_simple_template` has read the template. -/
  | picking (template : RunTemplate) (overrides : CreateRunFromTemplateRequest)
  /-- The named profile is missing, and it is not the default. -/
  | fallingBack
  /-- The profile has been read; the call goes on to `create_run`. -/
  | picked (profileId : Text) (profile : Profile)
  /-- `ProfileNotFoundError` -/
  | profileMissing (profileId : Text)

/-- What a call is going to write. -/
def Call.changes : Call → Changes
  | .writing changes => changes
  | .importing _ changes => changes
  | _ => {}

/-- The calls that write after they have read once. -/
inductive Write where
  | initDb (seed : Seed) (dbNow : Instant)
  | createProfile (payload : JsonObject) (dbNow : Instant)
  | updateProfile (profileId : Text) (payload : JsonObject) (now : Instant)
  | deleteProfile (profileId : Text)
  | createTemplate (templateId : Uuid) (payload : JsonObject) (dbNow : Instant)
  | updateTemplate (templateId : Uuid) (payload : JsonObject) (now : Instant)
  | deleteTemplate (templateId : Uuid)
  | uploadTemplate (templateId : Uuid) (yamlText : Text) (now dbNow : Instant)

/-- The id that the call has from `uuid4`. -/
def Write.newId : Write → Option Uuid
  | .createTemplate templateId _ _ => some templateId
  | .uploadTemplate templateId _ _ _ => some templateId
  | _ => none

def required {α : Type} (error : Error) : Option α → Except Error α
  | none => .error error
  | some a => .ok a

def changesOf (profiles : Table Text Profile) (templates : Table Uuid RunTemplate) :
    Write → Except Error Changes
  | .initDb seed dbNow => .ok { profiles := initDb profiles seed dbNow }
  | .createProfile payload dbNow => do
      let request ← required .validation (ConfigImport.validateProfile lib.config payload)
      let profiles ← createProfile profiles request dbNow
      .ok { profiles }
  | .updateProfile profileId payload now => do
      let request ← required .validation (validateProfileUpdate lib payload)
      let profiles ← updateProfile profiles profileId request now
      .ok { profiles }
  | .deleteProfile profileId => do
      let profiles ← deleteProfile profiles profileId
      .ok { profiles }
  | .createTemplate templateId payload dbNow => do
      let request ← required .validation (ConfigImport.validateSimpleTemplate lib.config payload)
      .ok { templates := [.insert templateId (newTemplate request dbNow)] }
  | .updateTemplate templateId payload now => do
      let request ← required .validation (ConfigImport.validateSimpleTemplate lib.config payload)
      let templates ← updateTemplate templates templateId request now
      .ok { templates }
  | .deleteTemplate templateId => do
      let templates ← deleteTemplate templates templateId
      .ok { templates }
  | .uploadTemplate templateId yamlText now dbNow => do
      let template ← required .declarative (parseYaml lib yamlText)
      .ok { templates := [.insert templateId (importedTemplate lib template now dbNow)] }

/-! ### The world and its labels -/

structure World where
  profiles : Table Text Profile
  templates : Table Uuid RunTemplate
  /-- The ids that `uuid4` has returned. -/
  issued : List Uuid
  calls : Nat → Option Call

def World.spawn (w : World) (c : Nat) (call : Call) : World :=
  { w with calls := Function.update w.calls c (some call) }

def World.finish (w : World) (c : Nat) : World :=
  { w with calls := Function.update w.calls c none }

inductive Act where
  | write (c : Nat) (write : Write)
  /-- The import has parsed its documents and, to replace, deleted what there is. -/
  | importParse (c : Nat) (yamlText : Text) (mode : ConfigImport.Mode)
  | importProfile (c : Nat) (env : ConfigImport.Env) (position : Nat)
  | importSimple (c : Nat) (env : ConfigImport.Env) (templateId : Uuid)
  | importDeclarative (c : Nat) (env : ConfigImport.Env) (templateId : Uuid)
  /-- `delete_all_schedules` commits what the import has deleted. -/
  | importPurged (c : Nat)
  /-- `create_schedule` or `update_schedule` commits what the import has written. -/
  | importSchedule (c : Nat)
  | readTemplate (c : Nat) (templateId : Uuid) (request : Option CreateRunFromTemplateRequest)
  | readProfile (c : Nat)
  | readDefault (c : Nat)
  | commit (c : Nat)
  /-- The call raises, returns without writing, or its process dies. -/
  | drop (c : Nat)

section Steps

variable (w : World)

def startWrite (c : Nat) (write : Write) : Option World := do
  guard (w.calls c).isNone
  guard (write.newId.all fun templateId => !w.issued.contains templateId)
  let changes ← (changesOf lib w.profiles w.templates write).toOption
  some { w.spawn c (.writing changes) with issued := write.newId.toList ++ w.issued }

/-- `DELETE FROM profiles WHERE id != 'default'` and `DELETE FROM run_templates` -/
def purge (mode : ConfigImport.Mode) : Changes :=
  match mode with
  | .merge => {}
  | .replace =>
      { profiles := (w.profiles.keys.filter fun profileId => profileId ≠ defaultProfileId).map
          Change.delete
        templates := w.templates.keys.map Change.delete }

def importParse (c : Nat) (yamlText : Text) (mode : ConfigImport.Mode) : Option World := do
  guard (w.calls c).isNone
  let docs ← (ConfigImport.parseDocuments lib.config yamlText).toOption
  some (w.spawn c (.importing docs (purge w mode)))

/-- `_upsert_profile`: the session sees what it has written before. -/
def upsert (env : ConfigImport.Env) (position : Nat) (request : CreateProfileRequest) :
    Option Profile → ProfileChange
  | some existing => .write ⟨request.id, existing,
      ConfigImport.upsertedProfile env position request (some existing)⟩
  | none => .insert request.id (ConfigImport.upsertedProfile env position request none)

def importProfile (c : Nat) (env : ConfigImport.Env) (position : Nat) : Option World :=
  match w.calls c with
  | some (.importing docs changes) =>
      match docs.profiles with
      | [] => none
      | request :: rest => do
          guard (validProfileId request.id)
          let existing := w.profiles.seen changes.profiles request.id
          some (w.spawn c (.importing { docs with profiles := rest }
            { changes with profiles := changes.profiles ++ [upsert env position request existing] }))
  | _ => none

/-- A new template of the import. -/
def addTemplate (c : Nat) (docs : ConfigImport.Documents) (changes : Changes) (templateId : Uuid)
    (template : RunTemplate) : Option World := do
  guard !w.issued.contains templateId
  some { w.spawn c (.importing docs
      { changes with templates := changes.templates ++ [.insert templateId template] }) with
    issued := templateId :: w.issued }

def importSimple (c : Nat) (env : ConfigImport.Env) (templateId : Uuid) : Option World :=
  match w.calls c with
  | some (.importing docs changes) =>
      match docs.profiles, docs.simpleTemplates with
      | [], request :: rest =>
          addTemplate w c { docs with simpleTemplates := rest } changes templateId
            (ConfigImport.buildSimpleTemplate env request)
      | _, _ => none
  | _ => none

def importDeclarative (c : Nat) (env : ConfigImport.Env) (templateId : Uuid) : Option World :=
  match w.calls c with
  | some (.importing docs changes) =>
      match docs.profiles, docs.simpleTemplates, docs.declarativeTemplates with
      | [], [], contract :: rest =>
          addTemplate w c { docs with declarativeTemplates := rest } changes templateId
            (ConfigImport.buildDeclarativeTemplate env contract)
      | _, _, _ => none
  | _ => none

def readTemplate (c : Nat) (templateId : Uuid) (request : Option CreateRunFromTemplateRequest) :
    Option World := do
  guard (w.calls c).isNone
  let template ← w.templates.lookup templateId
  guard (template.templateKind = "simple".toList)
  some (w.spawn c (.picking template (request.getD {})))

def readProfile (c : Nat) : Option World :=
  match w.calls c with
  | some (.picking template overrides) =>
      match w.profiles.lookup (namedProfile template overrides) with
      | some profile => some (w.spawn c (.picked (namedProfile template overrides) profile))
      | none =>
          if namedProfile template overrides = defaultProfileId then
            some (w.spawn c (.profileMissing defaultProfileId))
          else some (w.spawn c .fallingBack)
  | _ => none

def readDefault (c : Nat) : Option World :=
  match w.calls c with
  | some .fallingBack =>
      match w.profiles.lookup defaultProfileId with
      | some profile => some (w.spawn c (.picked defaultProfileId profile))
      | none => some (w.spawn c (.profileMissing defaultProfileId))
  | _ => none

def commitChanges (changes : Changes) : Option World := do
  let profiles ← w.profiles.applyAll changes.profiles
  let templates ← w.templates.applyAll changes.templates
  some { w with profiles, templates }

def importPurged (c : Nat) : Option World :=
  match w.calls c with
  | some (.importing docs changes) => do
      guard changes.onlyDeletes
      let w ← commitChanges w changes
      some (w.spawn c (.importing docs {}))
  | _ => none

def importSchedule (c : Nat) : Option World :=
  match w.calls c with
  | some (.importing docs changes) =>
      match docs.profiles, docs.simpleTemplates, docs.declarativeTemplates, docs.scheduledRuns with
      | [], [], [], _ :: rest => do
          let w ← commitChanges w changes
          some (w.spawn c (.importing { docs with scheduledRuns := rest } {}))
      | _, _, _, _ => none
  | _ => none

def commit (c : Nat) : Option World :=
  match w.calls c with
  | some (.writing changes) => do
      let w ← commitChanges w changes
      some (w.finish c)
  | some (.importing docs changes) =>
      match docs.profiles, docs.simpleTemplates, docs.declarativeTemplates, docs.scheduledRuns with
      | [], [], [], [] => do
          let w ← commitChanges w changes
          some (w.finish c)
      | _, _, _, _ => none
  | _ => none

def drop (c : Nat) : Option World := do
  guard (w.calls c).isSome
  some (w.finish c)

def step : Act → Option World
  | .write c write => startWrite lib w c write
  | .importParse c yamlText mode => importParse lib w c yamlText mode
  | .importProfile c env position => importProfile w c env position
  | .importSimple c env templateId => importSimple w c env templateId
  | .importDeclarative c env templateId => importDeclarative w c env templateId
  | .importPurged c => importPurged w c
  | .importSchedule c => importSchedule w c
  | .readTemplate c templateId request => readTemplate w c templateId request
  | .readProfile c => readProfile w c
  | .readDefault c => readDefault w c
  | .commit c => commit w c
  | .drop c => drop w c

end Steps

/-- The catalog with given libraries. -/
def system : System World Act where
  step := step lib

/-- An empty database. -/
def World.initial : World where
  profiles := ∅
  templates := ∅
  issued := []
  calls := fun _ => none

end Catalog
end PdeOperator
