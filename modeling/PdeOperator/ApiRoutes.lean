import PdeOperator.ApiAuth

/-! The routes under the API prefix, in the order in which the routers register them, and what the framework makes
of a request before any handler runs: a route, a redirect, or an error. -/

namespace PdeOperator
open Base

namespace Api

inductive Segment where
  | lit (text : Text)
  | param
  deriving DecidableEq

/-- The handlers of the `GET` routes. -/
inductive Read where
  | listRuns | getRun | getRunInput | downloadArtifact
  | listProfiles | getProfile
  | listRunTemplates | getRunTemplate
  | listTimezones | listSchedules | getSchedule
  deriving DecidableEq

/-- The handlers of all other routes write, or compute from their body. -/
inductive Target where
  | read (handler : Read)
  | write
  deriving DecidableEq

structure Route where
  method : Text
  path : List Segment
  target : Target
  deriving DecidableEq

def get (path : List Segment) (handler : Read) : Route where
  method := "GET".toList
  path := path
  target := .read handler

def write (method : String) (path : List Segment) : Route where
  method := method.toList
  path := path
  target := .write

def lit (text : String) : Segment := .lit text.toList

def runRoutes : List Route := [
  write "POST" [lit "runs"],
  get [lit "runs"] .listRuns,
  get [lit "runs", .param] .getRun,
  write "POST" [lit "runs", .param, lit "cancel"],
  write "POST" [lit "runs", .param, lit "retry"],
  get [lit "runs", .param, lit "input"] .getRunInput,
  write "POST" [lit "runs", .param, lit "deliveries", lit "status"],
  write "POST" [lit "runs", .param, lit "deliveries", lit "report"],
  write "POST" [lit "runs", .param, lit "deliveries", lit "log"],
  write "POST" [lit "runs", .param, lit "artifacts"],
  get [lit "runs", .param, lit "artifacts", .param] .downloadArtifact]

def profileRoutes : List Route := [
  get [lit "profiles"] .listProfiles,
  write "POST" [lit "profiles"],
  get [lit "profiles", .param] .getProfile,
  write "PUT" [lit "profiles", .param],
  write "DELETE" [lit "profiles", .param]]

def runTemplateRoutes : List Route := [
  get [lit "run-templates"] .listRunTemplates,
  write "POST" [lit "run-templates"],
  get [lit "run-templates", .param] .getRunTemplate,
  write "PUT" [lit "run-templates", .param],
  write "DELETE" [lit "run-templates", .param],
  write "POST" [lit "run-templates", .param, lit "runs"],
  write "POST" [lit "run-templates", lit "declarative", lit "upload"],
  write "POST" [lit "run-templates", .param, lit "declarative", lit "options"],
  write "POST" [lit "run-templates", .param, lit "declarative-runs"]]

def scheduleRoutes : List Route := [
  get [lit "schedules", lit "timezones"] .listTimezones,
  write "POST" [lit "schedules", lit "preview"],
  get [lit "schedules"] .listSchedules,
  write "POST" [lit "schedules"],
  get [lit "schedules", .param] .getSchedule,
  write "PUT" [lit "schedules", .param],
  write "DELETE" [lit "schedules", .param],
  write "POST" [lit "schedules", .param, lit "enable"],
  write "POST" [lit "schedules", .param, lit "disable"],
  write "POST" [lit "schedules", .param, lit "trigger"]]

def manageRoutes : List Route := [
  write "POST" [lit "manage", lit "cleanup"],
  write "POST" [lit "manage", lit "config", lit "import"]]

/-- `api_router` -/
def apiRoutes : List Route :=
  runRoutes ++ profileRoutes ++ runTemplateRoutes ++ scheduleRoutes ++ manageRoutes

/-- What the router decides about a request. -/
inductive Routing where
  | route (route : Route) (params : List Text)
  /-- The embedded MCP server is mounted under the prefix. -/
  | mcp (path : Text)
  | methodNotAllowed (allowed : Text)
  /-- `redirect_slashes`: the path with another end is one of a route. -/
  | redirect (path : Text)
  | notFound
  deriving DecidableEq

/-- FastAPI in front of the handlers: what `HTTPBearer(auto_error=False)` reads of an `Authorization` header, and
the router on a method and a path. -/
structure WebLibrary where
  bearer : Option Text → Option Text
  route : Text → Text → Routing

/-- A request reaches a route of its own method only. -/
def WebLibrary.MatchesMethod (web : WebLibrary) : Prop :=
  ∀ method path route params, web.route method path = .route route params →
    route ∈ apiRoutes ∧ route.method = method

structure Page where
  offset : Nat
  limit : Nat

structure RunsQuery extends Page where
  q : Option Text
  status : Option Text
  profileId : Option Text
  createdFromTemplateId : Option Uuid
  triggeredBy : Option Text
  createdAfter : Option Instant
  createdBefore : Option Instant

structure RunTemplatesQuery extends Page where
  q : Option Text
  tag : Option Text

structure SchedulesQuery extends Page where
  q : Option Text
  enabled : Option Bool

/-- The validation of path and query parameters by the framework; its errors carry the `detail` of
the `422` response. -/
structure ParameterLibrary where
  uuid : Text → Except Json Uuid
  page : Text → Except Json Page
  runsQuery : Text → Except Json RunsQuery
  runTemplatesQuery : Text → Except Json RunTemplatesQuery
  schedulesQuery : Text → Except Json SchedulesQuery

/-- A `GET` handler with its parameters. -/
inductive Endpoint where
  | listRuns (query : RunsQuery)
  | getRun (runId : Uuid)
  | getRunInput (runId : Uuid)
  | downloadArtifact (runId : Uuid) (kind : Text)
  | listProfiles (page : Page)
  | getProfile (profileId : Text)
  | listRunTemplates (query : RunTemplatesQuery)
  | getRunTemplate (templateId : Uuid)
  | listTimezones
  | listSchedules (query : SchedulesQuery)
  | getSchedule (scheduleId : Uuid)

/-- The parameters of the path of a route: none, the first, or the first two. -/
def param (params : List Text) (i : Nat) : Text := params.getD i []

def endpoint (lib : ParameterLibrary) (handler : Read) (params : List Text) (query : Text) :
    Except Json Endpoint :=
  match handler with
  | .listRuns => (lib.runsQuery query).map .listRuns
  | .getRun => (lib.uuid (param params 0)).map .getRun
  | .getRunInput => (lib.uuid (param params 0)).map .getRunInput
  | .downloadArtifact => (lib.uuid (param params 0)).map fun id => .downloadArtifact id (param params 1)
  | .listProfiles => (lib.page query).map .listProfiles
  | .getProfile => .ok (.getProfile (param params 0))
  | .listRunTemplates => (lib.runTemplatesQuery query).map .listRunTemplates
  | .getRunTemplate => (lib.uuid (param params 0)).map .getRunTemplate
  | .listTimezones => .ok .listTimezones
  | .listSchedules => (lib.schedulesQuery query).map .listSchedules
  | .getSchedule => (lib.uuid (param params 0)).map .getSchedule

end Api
end PdeOperator
