import PdeOperator.BaseProgram
import PdeOperator.ScheduleStore

/-! `ConfigImportService.import_config_from_yaml`. The YAML loaders, the type coercion of `pydantic`
and the parser of declarative templates are a parameter; everything that reads or writes the session
and the object store is here, in the order of the source. -/

namespace PdeOperator
open Base

namespace ConfigImport

structure CreateProfileRequest where
  id : Text
  pdeImage : Text
  envVars : JsonObject := []
  resources : JsonObject := []

structure CreateSimpleRunTemplateRequest where
  name : Text
  description : Option Text := none
  tags : List Text := []
  profileId : Text := "default".toList
  pipelineData : Text
  pipelineVars : Option Text := none
  pipelineVarsSecure : Option Text := none
  isDryRun : Bool := false
  logLevel : Text := "INFO".toList
  envVars : Option JsonObject := none
  pdeImage : Option Text := none

/-- A parsed declarative template: its name and its `model_dump(mode="json")`. -/
structure DeclarativeRunTemplate where
  name : Text
  dump : JsonObject

inductive Error where
  /-- The text is not YAML, or a loader raises on it. -/
  | yaml
  /-- `pydantic.ValidationError` -/
  | validation
  /-- `DeclarativeContractError` -/
  | declarative
  | invalidProfileId (profileId : Text)
  | schedule (cause : ScheduleService.Error)
  | database
  deriving DecidableEq

/-- How a loader ends without documents. -/
inductive LoaderError where
  | yamlError | other

/-- The libraries behind the import: the two loaders, the coercion of a mapping to the fields of a
request (before its validators run), and the parsers of resources and declarative templates. -/
structure Library where
  gitLabCiLoad : Text → Except LoaderError (List Json)
  safeLoad : Text → Except LoaderError (List Json)
  coerceProfile : JsonObject → Option CreateProfileRequest
  coerceSimpleTemplate : JsonObject → Option CreateSimpleRunTemplateRequest
  coerceSchedule : JsonObject → Option ImportScheduledRunRequest
  resourcesValid : JsonObject → Bool
  fromDocument : JsonObject → Option DeclarativeRunTemplate

structure Documents where
  profiles : List CreateProfileRequest := []
  simpleTemplates : List CreateSimpleRunTemplateRequest := []
  declarativeTemplates : List DeclarativeRunTemplate := []
  scheduledRuns : List ImportScheduledRunRequest := []

/-- `normalize_tags` -/
def normalizeTags (tags : List Text) : List Text :=
  ((tags.map Text.strip).filter fun tag => !tag.isEmpty).foldl
    (fun out tag => if tag ∈ out then out else out ++ [tag]) []

variable (lib : Library)

def validateProfile (payload : JsonObject) : Option CreateProfileRequest := do
  let request ← lib.coerceProfile payload
  guard (lib.resourcesValid request.resources)
  some request

def validateSimpleTemplate (payload : JsonObject) : Option CreateSimpleRunTemplateRequest := do
  let request ← lib.coerceSimpleTemplate payload
  guard (!(Text.strip request.name).isEmpty && !Text.isBlank request.pipelineData)
  some { request with name := Text.strip request.name, tags := normalizeTags request.tags }

def validateSchedule (payload : JsonObject) : Option ImportScheduledRunRequest := do
  let request ← lib.coerceSchedule payload
  let checked ← (request.toUpdateScheduledRunRequest.validate).toOption
  some { request with toUpdateScheduledRunRequest := checked }

/-- `{k: v for k, v in doc.items() if k not in {"apiVersion", "kind"}}` -/
def payloadOf (doc : JsonObject) : JsonObject :=
  doc.filter fun field => field.1 ≠ "apiVersion".toList ∧ field.1 ≠ "kind".toList

def required {α : Type} (error : Error) : Option α → Except Error α
  | none => .error error
  | some a => .ok a

/-- One turn of the loop over the documents; other documents are skipped with a warning. -/
def addDocument (docs : Documents) : Json → Except Error Documents
  | .obj doc =>
      match Json.get doc ".ui-variables".toList, Json.get doc "kind".toList with
      | some (.obj _), _ => do
          let template ← required .declarative (lib.fromDocument doc)
          .ok { docs with declarativeTemplates := docs.declarativeTemplates ++ [template] }
      | _, some (.str kind) =>
          if Text.strip kind = "Profile".toList then do
            let request ← required .validation (validateProfile lib (payloadOf doc))
            .ok { docs with profiles := docs.profiles ++ [request] }
          else if Text.strip kind = "SimpleRunTemplate".toList then do
            let request ← required .validation (validateSimpleTemplate lib (payloadOf doc))
            .ok { docs with simpleTemplates := docs.simpleTemplates ++ [request] }
          else if Text.strip kind = "ScheduledRun".toList then do
            let request ← required .validation (validateSchedule lib (payloadOf doc))
            .ok { docs with scheduledRuns := docs.scheduledRuns ++ [request] }
          else .ok docs
      | _, _ => .ok docs
  | _ => .ok docs

def loadAll (yamlText : Text) : Except Error (List Json) :=
  match lib.gitLabCiLoad yamlText with
  | .ok docs => .ok docs
  | .error .other => .error .yaml
  | .error .yamlError =>
      match lib.safeLoad yamlText with
      | .ok docs => .ok docs
      | .error _ => .error .yaml

def parseDocuments (yamlText : Text) : Except Error Documents := do
  let docs ← loadAll lib yamlText
  docs.foldlM (addDocument lib) {}

inductive Mode where
  | merge | replace
  deriving DecidableEq

/-- The accesses of the import itself; positions count the documents of one kind. -/
inductive Access where
  | deleteProfiles | deleteTemplates | getProfile (position : Nat) | getSchedule (position : Nat)
  | commit

structure Env where
  fails : Access → Bool
  /-- The environment of `delete_all_schedules`. -/
  purge : CallEnv
  /-- The environment of the call for the scheduled run at a position. -/
  call : Nat → CallEnv
  /-- The clock at the update of a profile. -/
  profileNow : Nat → Instant
  /-- The clock before the declarative templates. -/
  now : Instant
  /-- The `now()` of the database. -/
  dbNow : Instant
  simpleId : Nat → Uuid
  declarativeId : Nat → Uuid

def defaultProfileId : Text := "default".toList

def isProfileIdStart (c : Char) : Bool := c.isAlphanum

def isProfileIdChar (c : Char) : Bool := c.isAlphanum || c == '.' || c == '_' || c == '-'

/-- `ProfileService.validate_profile_id` -/
def validProfileId : Text → Bool
  | [] => false
  | c :: rest => isProfileIdStart c && rest.all isProfileIdChar && rest.length ≤ 63

/-- The row that `_upsert_profile` leaves. -/
def upsertedProfile (env : Env) (position : Nat) (request : CreateProfileRequest) :
    Option Profile → Profile
  | some existing =>
      { existing with
        pdeImage := request.pdeImage
        envVars := request.envVars
        resources := request.resources
        updatedAt := env.profileNow position }
  | none =>
      { pdeImage := request.pdeImage
        envVars := request.envVars
        resources := request.resources
        createdAt := env.dbNow
        updatedAt := env.dbNow }

def buildSimpleTemplate (env : Env) (request : CreateSimpleRunTemplateRequest) : RunTemplate where
  name := request.name
  description := request.description
  tags := normalizeTags request.tags
  templateKind := "simple".toList
  profileId := if request.profileId.isEmpty then "default".toList else request.profileId
  pipelineData := request.pipelineData
  pipelineVars := request.pipelineVars
  pipelineVarsSecure := request.pipelineVarsSecure
  isDryRun := request.isDryRun
  logLevel := request.logLevel
  envVars := request.envVars
  pdeImage := ScheduleService.normalizeImage request.pdeImage
  declarativeSpec := none
  createdAt := env.dbNow
  updatedAt := env.dbNow

def buildDeclarativeTemplate (env : Env) (contract : DeclarativeRunTemplate) : RunTemplate where
  name := contract.name
  description := none
  tags := []
  templateKind := "declarative".toList
  profileId := "default".toList
  pipelineData := []
  pipelineVars := none
  pipelineVarsSecure := none
  isDryRun := false
  logLevel := "INFO".toList
  envVars := none
  pdeImage := none
  declarativeSpec := some contract.dump
  createdAt := env.dbNow
  updatedAt := env.now

abbrev ImportProgram := Program Error Store

/-- A change of the open transaction. -/
def inSession (f : Database → Database) : ImportProgram Unit :=
  Program.update fun s => { s with session := f s.session }

/-- `DELETE FROM profiles WHERE id != 'default'` -/
def deleteOtherProfiles (profiles : Table Text Profile) : Table Text Profile :=
  match profiles.lookup defaultProfileId with
  | some profile => AList.singleton defaultProfileId profile
  | none => ∅

def purge (env : Env) : ImportProgram Unit := do
  Program.check (env.fails .deleteProfiles) .database
  inSession fun db => { db with profiles := deleteOtherProfiles db.profiles }
  Program.check (env.fails .deleteTemplates) .database
  inSession fun db => { db with templates := ∅ }
  Program.mapError .schedule (ScheduleService.deleteAllSchedules env.purge)

def upsertProfile (env : Env) (position : Nat) (request : CreateProfileRequest) :
    ImportProgram Unit := do
  Program.check (!validProfileId request.id) (.invalidProfileId request.id)
  Program.check (env.fails (.getProfile position)) .database
  inSession fun db => { db with
    profiles := db.profiles.insert request.id
      (upsertedProfile env position request (db.profiles.lookup request.id)) }

def addSimpleTemplate (env : Env) (position : Nat) (request : CreateSimpleRunTemplateRequest) :
    ImportProgram Unit :=
  inSession fun db => { db with
    templates := db.templates.insert (env.simpleId position) (buildSimpleTemplate env request) }

def addDeclarativeTemplate (env : Env) (position : Nat) (contract : DeclarativeRunTemplate) :
    ImportProgram Unit :=
  inSession fun db => { db with
    templates := db.templates.insert (env.declarativeId position)
      (buildDeclarativeTemplate env contract) }

/-- `CreateScheduledRunRequest(**fields)` -/
def createRequest (request : ImportScheduledRunRequest) : Except Error CreateScheduledRunRequest :=
  match request.toScheduledRunBase.validate with
  | .error _ => .error .validation
  | .ok base => .ok { toScheduledRunBase := base, pipelineData := some request.pipelineData }

/-- `UpdateScheduledRunRequest(**fields)` -/
def updateRequest (request : ImportScheduledRunRequest) : Except Error UpdateScheduledRunRequest :=
  request.toUpdateScheduledRunRequest.validate.mapError fun _ => .validation

section Schedules

variable (settings : Settings) (cron : CronLibrary)
  (adapter : RunTemplate → JsonObject → Except ScheduleService.Error CreateRunRequest) (env : Env)

/-- The id of an existing schedule that the document names. -/
def existingId (s : Store) (request : ImportScheduledRunRequest) : Option Uuid :=
  request.id.filter fun id => (s.session.schedules.lookup id).isSome

def upsertSchedule (position : Nat) (request : ImportScheduledRunRequest) : ImportProgram Unit := do
  Program.check (request.id.isSome && env.fails (.getSchedule position)) .database
  let s ← Program.read
  match existingId s request with
  | some id => do
      let update ← Program.ofExcept (updateRequest request)
      Program.mapError .schedule
        (ScheduleService.updateSchedule settings cron (env.call position) id update)
  | none => do
      let create ← Program.ofExcept (createRequest request)
      Program.mapError .schedule
        (ScheduleService.createSchedule settings cron adapter (env.call position) request.id create)

def commit : ImportProgram Unit := do
  Program.check (env.fails .commit) .database
  Program.update Store.commit

/-- The part of the import that writes only to the open transaction. -/
def stageDocuments (docs : Documents) : ImportProgram Unit := do
  Program.forEach (upsertProfile env) 0 docs.profiles
  Program.forEach (addSimpleTemplate env) 0 docs.simpleTemplates
  Program.forEach (addDeclarativeTemplate env) 0 docs.declarativeTemplates

def importConfigFromYaml (yamlText : Text) (mode : Mode) : ImportProgram Unit := do
  let docs ← Program.ofExcept (parseDocuments lib yamlText)
  if mode = .replace then purge env
  stageDocuments env docs
  Program.forEach (upsertSchedule settings cron adapter env) 0 docs.scheduledRuns
  commit env

end Schedules

end ConfigImport
end PdeOperator
