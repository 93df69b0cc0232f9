import Mathlib.Data.Char
import Mathlib.Data.List.Lex
import PdeOperator.ApiRoutes
import PdeOperator.ScheduleStore

/-! The handlers of the `GET` routes: what they read of the database and of the object store, and the
response that they make of it. None of them writes. -/

namespace PdeOperator
open Base

namespace Api

inductive ArtifactKind where
  | state | log | xDebug | report
  deriving DecidableEq

namespace ArtifactKind

def value : ArtifactKind → Text
  | .state => "state".toList
  | .log => "log".toList
  | .xDebug => "x_debug".toList
  | .report => "report".toList

/-- `parse_artifact_kind`; `none` is the `ValueError`. -/
def parse (kind : Text) : Option ArtifactKind :=
  [state, log, xDebug, report].find? fun k => k.value == kind

def filename : ArtifactKind → Text
  | .state => "pipeline_dir.zip".toList
  | .log => "console.log".toList
  | .xDebug => "x_debug.zip".toList
  | .report => "pipeline_report.json".toList

end ArtifactKind

def artifactKey (runId : Uuid) (kind : ArtifactKind) : Text :=
  Uuid.str runId ++ '/' :: kind.filename

/-- `InputCryptoUtils.input_key` -/
def inputKey (entityId : Uuid) : Text := Uuid.str entityId ++ '/' :: "input.json".toList

structure StoredObject where
  body : List UInt8
  contentType : Option Text
  contentLength : Option Nat
  deriving DecidableEq

structure OperatorState where
  runs : Table Uuid Run
  db : Database
  objects : Table Text StoredObject

/-- What may fail during one request. -/
structure Outage where
  database : Bool := false
  object : Text → Bool := fun _ => false

/-- The libraries behind the handlers: Fernet under the key of the operator, the JSON reader of
payloads, the text of instants, `ILIKE`, the order of texts in the database, the text of a JSON
column, and the timezones that the host knows. -/
structure ReadLibrary where
  decrypt : List UInt8 → Option (List UInt8)
  parsePayload : List UInt8 → Option RunInputPayload
  isoFormat : Instant → Text
  ilike : Text → Text → Bool
  textLE : Text → Text → Bool
  jsonText : Json → Text
  availableTimezones : List Text

inductive Body where
  | json (value : Json)
  | text (value : Text)
  | bytes (value : List UInt8)
  deriving DecidableEq

structure Answer where
  status : Nat
  contentType : Text := "application/json".toList
  headers : List (Text × Text) := []
  body : Body
  deriving DecidableEq

def ok (value : Json) : Answer where
  status := 200
  body := .json value

/-- `HTTPException(status_code, detail)` -/
def httpException (status : Nat) (detail : Text) : Answer where
  status := status
  body := .json (.obj [("detail".toList, .str detail)])

def notFound (detail : Text) : Answer := httpException 404 detail

/-- An exception that no handler catches. -/
def internalServerError : Answer where
  status := 500
  contentType := "text/plain; charset=utf-8".toList
  body := .text "Internal Server Error".toList

def nullable {α : Type} (f : α → Json) : Option α → Json
  | none => .null
  | some a => f a

def uuidJson (id : Uuid) : Json := .str (Uuid.str id)

section Schemas

variable (lib : ReadLibrary)

def datetimeJson (instant : Instant) : Json := .str (lib.isoFormat instant)

def runSummary (id : Uuid) (run : Run) : JsonObject := [
  ("id".toList, uuidJson id),
  ("profile_id".toList, .str run.profileId),
  ("status".toList, .str run.status.value),
  ("pde_image".toList, .str run.pdeImage),
  ("pipeline_data".toList, .str run.pipelineData),
  ("is_dry_run".toList, .bool run.isDryRun),
  ("log_level".toList, .str run.logLevel),
  ("name".toList, nullable .str run.name),
  ("k8s_job_name".toList, nullable .str run.k8sJobName),
  ("execution_url".toList, nullable .str run.executionUrl),
  ("triggered_by".toList, nullable .str run.triggeredBy),
  ("created_at".toList, datetimeJson lib run.createdAt),
  ("started_at".toList, nullable (datetimeJson lib) run.startedAt),
  ("finished_at".toList, nullable (datetimeJson lib) run.finishedAt)]

def runDetail (id : Uuid) (run : Run) (templateName : Option Text) : JsonObject :=
  runSummary lib id run ++ [
    ("pipeline_vars".toList, nullable .str run.pipelineVars),
    ("pipeline_vars_secure".toList, nullable .str run.pipelineVarsSecure),
    ("retry_vars".toList, nullable .str run.retryVars),
    ("progress_json".toList, nullable .obj run.progressJson),
    ("status_updated_at".toList, nullable (datetimeJson lib) run.statusUpdatedAt),
    ("report_updated_at".toList, nullable (datetimeJson lib) run.reportUpdatedAt),
    ("log_updated_at".toList, nullable (datetimeJson lib) run.logUpdatedAt),
    ("state_location".toList, nullable .str run.stateLocation),
    ("retry_of_run_id".toList, nullable uuidJson run.retryOfRunId),
    ("cancel_requested_at".toList, nullable (datetimeJson lib) run.cancelRequestedAt),
    ("finish_code".toList, nullable .str run.finishCode),
    ("finish_message".toList, nullable .str run.finishMessage),
    ("created_from_template_id".toList, nullable uuidJson run.createdFromTemplateId),
    ("created_from_template_name".toList, nullable .str templateName)]

def runInput (payload : RunInputPayload) : JsonObject := [
  ("pipeline_data".toList, .str payload.pipelineData),
  ("pipeline_vars".toList, nullable .str payload.pipelineVars),
  ("pipeline_vars_secure".toList, nullable .str payload.pipelineVarsSecure),
  ("is_dry_run".toList, .bool payload.isDryRun),
  ("log_level".toList, .str payload.logLevel),
  ("retry_vars".toList, nullable .str payload.retryVars)]

def profileListItem (id : Text) (profile : Profile) : JsonObject := [
  ("id".toList, .str id),
  ("pde_image".toList, .str profile.pdeImage),
  ("created_at".toList, datetimeJson lib profile.createdAt),
  ("updated_at".toList, datetimeJson lib profile.updatedAt)]

def profileDetail (id : Text) (profile : Profile) : JsonObject :=
  profileListItem lib id profile ++ [
    ("env_vars".toList, .obj profile.envVars),
    ("resources".toList, .obj profile.resources)]

def runTemplateSummary (id : Uuid) (template : RunTemplate) : JsonObject := [
  ("id".toList, uuidJson id),
  ("name".toList, .str template.name),
  ("description".toList, nullable .str template.description),
  ("tags".toList, .arr (template.tags.map .str)),
  ("template_kind".toList, .str template.templateKind),
  ("profile_id".toList, .str template.profileId),
  ("is_dry_run".toList, .bool template.isDryRun),
  ("log_level".toList, .str template.logLevel),
  ("created_at".toList, datetimeJson lib template.createdAt),
  ("updated_at".toList, datetimeJson lib template.updatedAt)]

def runTemplateDetail (id : Uuid) (template : RunTemplate) : JsonObject :=
  runTemplateSummary lib id template ++ [
    ("pipeline_data".toList, .str template.pipelineData),
    ("pipeline_vars".toList, nullable .str template.pipelineVars),
    ("pipeline_vars_secure".toList, nullable .str template.pipelineVarsSecure),
    ("env_vars".toList, nullable .obj template.envVars),
    ("pde_image".toList, nullable .str template.pdeImage),
    ("declarative_spec".toList, nullable .obj template.declarativeSpec)]

def scheduledRunSummary (id : Uuid) (row : ScheduledRun) : JsonObject := [
  ("id".toList, uuidJson id),
  ("name".toList, .str row.name),
  ("description".toList, nullable .str row.description),
  ("cron_expression".toList, .str row.cronExpression),
  ("timezone".toList, .str row.timezone),
  ("enabled".toList, .bool row.enabled),
  ("overlap_policy".toList, .str row.overlapPolicy),
  ("profile_id".toList, .str row.profileId),
  ("created_from_template_id".toList, nullable uuidJson row.createdFromTemplateId),
  ("next_fire_at".toList, nullable (datetimeJson lib) row.nextFireAt),
  ("last_fire_at".toList, nullable (datetimeJson lib) row.lastFireAt),
  ("last_fire_status".toList, nullable (fun status => .str status.value) row.lastFireStatus),
  ("last_fire_error".toList, nullable .str row.lastFireError),
  ("last_run_id".toList, nullable uuidJson row.lastRunId),
  ("created_at".toList, datetimeJson lib row.createdAt),
  ("updated_at".toList, datetimeJson lib row.updatedAt)]

def scheduledRunDetail (id : Uuid) (row : ScheduledRun) : JsonObject :=
  scheduledRunSummary lib id row ++ [
    ("pipeline_data".toList, .str row.pipelineData),
    ("pipeline_vars".toList, nullable .str row.pipelineVars),
    ("pipeline_vars_secure".toList, nullable .str row.pipelineVarsSecure),
    ("is_dry_run".toList, .bool row.isDryRun),
    ("log_level".toList, .str row.logLevel),
    ("env_vars".toList, nullable .obj row.envVars),
    ("pde_image".toList, nullable .str row.pdeImage)]

end Schemas

section Lists

variable {κ ρ : Type} [DecidableEq κ]

/-- `order_by(...).offset(...).limit(...)` over the rows that a query selects; rows that the order
does not tell apart stay in the order in which the table holds them. -/
def pageOf (rows : List (κ × ρ)) (le : κ × ρ → κ × ρ → Bool) (page : Page) : List (κ × ρ) :=
  ((rows.mergeSort le).drop page.offset).take page.limit

/-- A list response: one page of the items and the number of all rows. -/
def listResponse (rows : List (κ × ρ)) (le : κ × ρ → κ × ρ → Bool) (page : Page)
    (item : κ → ρ → JsonObject) : Answer :=
  ok (.obj [
    ("items".toList, .arr ((pageOf rows le page).map fun row => .obj (item row.1 row.2))),
    ("total".toList, .int rows.length),
    ("offset".toList, .int page.offset),
    ("limit".toList, .int page.limit)])

/-- Descending by one column, then by the primary key. -/
def descending (column : ρ → Instant) (keyLE : κ → κ → Bool) (a b : κ × ρ) : Bool :=
  if column a.2 = column b.2 then keyLE b.1 a.1 else column b.2 ≤ column a.2

end Lists

/-- A filter that is left out when the query has no value for it. -/
def filtered {α : Type} (value : Option α) (p : α → Bool) : Bool :=
  match value with
  | none => true
  | some a => p a

/-- The search text of a list query, stripped; blank texts do not filter. -/
def searchText (q : Option Text) : Option Text :=
  match q with
  | none => none
  | some text => if Text.isBlank text then none else some (Text.strip text)

section Handlers

variable (lib : ReadLibrary) (outage : Outage) (s : OperatorState)

/-- `f"%{q}%"` against a column that may be null. -/
def searched (pattern : Text) (column : Option Text) : Bool :=
  match column with
  | none => false
  | some text => lib.ilike ('%' :: pattern ++ ['%']) text

/-- `RunService._build_list_query` -/
def runSelected (query : RunsQuery) (run : Run) : Bool :=
  filtered (searchText query.q) (fun text => searched lib text (some run.status.value) ||
    searched lib text (some run.profileId) || searched lib text run.name) &&
  filtered query.status (fun status => run.status.value == status) &&
  filtered query.profileId (fun id => run.profileId == id) &&
  filtered query.createdFromTemplateId (fun id => run.createdFromTemplateId == some id) &&
  filtered query.triggeredBy (fun ref => run.triggeredBy == some ref) &&
  filtered query.createdAfter (fun instant => instant ≤ run.createdAt) &&
  filtered query.createdBefore (fun instant => run.createdAt ≤ instant)

def listRuns (query : RunsQuery) : Answer :=
  listResponse (s.runs.select fun _ run => runSelected lib query run)
    (fun a b => b.2.createdAt ≤ a.2.createdAt) query.toPage (runSummary lib)

def runNotFound (runId : Uuid) : Answer :=
  notFound ("Run '".toList ++ Uuid.str runId ++ "' not found".toList)

def getRun (runId : Uuid) : Answer :=
  match s.runs.lookup runId with
  | none => runNotFound runId
  | some run =>
      let template := run.createdFromTemplateId.bind fun id => s.db.templates.lookup id
      ok (.obj (runDetail lib runId run (template.map (·.name))))

/-- How `ArtifactsService._get_object` ends without an object. -/
inductive ObjectError where
  | notFound | clientError
  deriving DecidableEq

def getObject (key : Text) : Except ObjectError StoredObject :=
  if outage.object key then .error .clientError
  else match s.objects.lookup key with
    | none => .error .notFound
    | some object => .ok object

/-- How `RunInputStorage.load` ends without a payload. -/
inductive InputError where
  | notAvailable (message : Text)
  | clientError
  | validation
  deriving DecidableEq

/-- The payload of a stored object. -/
def openInput (object : StoredObject) : Except InputError RunInputPayload :=
  match lib.decrypt object.body with
  | none => .error (.notAvailable
      "Failed to decrypt run input (invalid key or corrupted ciphertext)".toList)
  | some plaintext =>
      match lib.parsePayload plaintext with
      | none => .error .validation
      | some payload => .ok payload

/-- `RunInputStorage.load` -/
def loadInput (entityId : Uuid) : Except InputError RunInputPayload :=
  match getObject outage s (inputKey entityId) with
  | .error .clientError => .error .clientError
  | .error .notFound => .error (.notAvailable
      ("Run input not found in storage for '".toList ++ Uuid.str entityId ++ "'".toList))
  | .ok object => openInput lib object

def getRunInput (runId : Uuid) : Answer :=
  match s.runs.lookup runId with
  | none => runNotFound runId
  | some _ =>
      match loadInput lib outage s runId with
      | .error (.notAvailable message) => notFound message
      | .error _ => internalServerError
      | .ok payload => ok (.obj (runInput payload))

def downloadArtifact (runId : Uuid) (kind : Text) : Answer :=
  match ArtifactKind.parse kind with
  | none => notFound ("Unknown artifact kind '".toList ++ kind ++ "'".toList)
  | some parsed =>
      match s.runs.lookup runId with
      | none => runNotFound runId
      | some _ =>
          match getObject outage s (artifactKey runId parsed) with
          | .error .clientError => internalServerError
          | .error .notFound =>
              notFound ("Artifact '".toList ++ artifactKey runId parsed ++ "' not found".toList)
          | .ok object =>
              { status := 200
                contentType := object.contentType.getD "application/octet-stream".toList
                headers :=
                  ("Content-Disposition".toList,
                    "attachment; filename=\"".toList ++ parsed.filename ++ ['"']) ::
                  match object.contentLength with
                  | none => []
                  | some length => [("Content-Length".toList, (toString length).toList)]
                body := .bytes object.body }

def listProfiles (page : Page) : Answer :=
  listResponse (s.db.profiles.select fun _ _ => true) (descending (·.updatedAt) lib.textLE) page
    (profileListItem lib)

def getProfile (profileId : Text) : Answer :=
  match s.db.profiles.lookup profileId with
  | none => notFound ("Profile '".toList ++ profileId ++ "' not found".toList)
  | some profile => ok (.obj (profileDetail lib profileId profile))

def templateSelected (query : RunTemplatesQuery) (id : Uuid) (template : RunTemplate) : Bool :=
  filtered (searchText query.q) (fun text => searched lib text (some (Uuid.str id)) ||
    searched lib text (some template.name) || searched lib text template.description ||
    searched lib text (some (lib.jsonText (.arr (template.tags.map .str))))) &&
  filtered (searchText query.tag) (fun tag => template.tags.contains tag)

def listRunTemplates (query : RunTemplatesQuery) : Answer :=
  listResponse (s.db.templates.select fun id template => templateSelected lib query id template)
    (descending (·.updatedAt) (fun a b => a ≤ b)) query.toPage (runTemplateSummary lib)

def getRunTemplate (templateId : Uuid) : Answer :=
  match s.db.templates.lookup templateId with
  | none => notFound ("Run template '".toList ++ Uuid.str templateId ++ "' not found".toList)
  | some template => ok (.obj (runTemplateDetail lib templateId template))

/-- `CronUtils.available_timezones` before it is sorted. -/
def timezoneNames : List Text :=
  "UTC".toList :: lib.availableTimezones.filter fun name =>
    name.contains '/' && !"posix/".toList.isPrefixOf name && !"right/".toList.isPrefixOf name

def listTimezones : Answer :=
  let names := (timezoneNames lib).dedup.mergeSort fun a b => a ≤ b
  ok (.obj [("timezones".toList, .arr (names.map .str))])

/-- `ScheduleService._build_list_query` -/
def scheduleSelected (query : SchedulesQuery) (row : ScheduledRun) : Bool :=
  filtered (searchText query.q) (fun text => searched lib text (some row.name) ||
    searched lib text row.description) &&
  filtered query.enabled (fun enabled => row.enabled == enabled)

def listSchedules (query : SchedulesQuery) : Answer :=
  listResponse (s.db.schedules.select fun _ row => scheduleSelected lib query row)
    (descending (·.createdAt) (fun a b => a ≤ b)) query.toPage (scheduledRunSummary lib)

def getSchedule (scheduleId : Uuid) : Answer :=
  match s.db.schedules.lookup scheduleId with
  | none => notFound ("Schedule '".toList ++ Uuid.str scheduleId ++ "' not found".toList)
  | some row => ok (.obj (scheduledRunDetail lib scheduleId row))

/-- The handlers that open a database session; a database error is not caught. -/
def Endpoint.usesDatabase : Endpoint → Bool
  | .listTimezones => false
  | .downloadArtifact _ kind => (ArtifactKind.parse kind).isSome
  | _ => true

/-- The answer of a `GET` handler. -/
def answer (e : Endpoint) : Answer :=
  if e.usesDatabase && outage.database then internalServerError
  else match e with
    | .listRuns query => listRuns lib s query
    | .getRun runId => getRun lib s runId
    | .getRunInput runId => getRunInput lib outage s runId
    | .downloadArtifact runId kind => downloadArtifact outage s runId kind
    | .listProfiles page => listProfiles lib s page
    | .getProfile profileId => getProfile lib s profileId
    | .listRunTemplates query => listRunTemplates lib s query
    | .getRunTemplate templateId => getRunTemplate lib s templateId
    | .listTimezones => listTimezones lib
    | .listSchedules query => listSchedules lib s query
    | .getSchedule scheduleId => getSchedule lib s scheduleId

end Handlers

end Api
end PdeOperator
