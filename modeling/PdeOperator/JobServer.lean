import PdeOperator.ApiReads
import PdeOperator.JobEntrypoint
import PdeOperator.JobTokens

/-! The operator as a Job meets it: a request of the wrapper is routed, its token is checked, and it
reads the input of the run or the state of the parent, or it uploads what the Job has left. -/

namespace PdeOperator
open Base Multipart

def ArtifactKind.contentType : ArtifactKind → Text
  | .state => "application/zip".toList
  | .log => "text/plain".toList
  | .xDebug => "application/zip".toList
  | .report => "application/json".toList

namespace JobServer
open Api (OperatorState Outage Answer StoredObject)

/-- Settings and libraries of the operator: the parser of forms by their content type, the bytes of a
response, and the other writing routes and the MCP server, of which nothing is assumed. -/
structure Operator where
  settings : Settings
  web : Api.WebLibrary
  jobs : JobLibrary
  parameters : Api.ParameterLibrary
  reads : Api.ReadLibrary
  parsers : Parsers
  readForm : Text → Octets → Option (List FormFile)
  render : Api.Body → Octets
  otherWrites : JobEntrypoint.Request → OperatorState → Answer × OperatorState
  mcp : JobEntrypoint.Request → OperatorState → Answer × OperatorState

/-- What one request meets: the time by the clock, as `int(time.time())` and as `datetime.now`, and what
fails. -/
structure Moment where
  time : Int
  now : Instant
  outage : Outage := {}
  commitFails : Bool := false

/-- The content of the file of a field, when there is one and it is not empty. -/
def field (form : List FormFile) (name : Text) : Option Octets :=
  ((form.filter fun file => file.name = utf8 name).getLast?.map FormFile.content).filter
    fun content => !content.isEmpty

def uploadsOf (form : List FormFile) : Uploads where
  state := field form "state".toList
  log := field form "log".toList
  xDebug := field form "x_debug".toList
  report := field form "report".toList

def part (uploads : Uploads) : ArtifactKind → Option Octets
  | .state => uploads.state
  | .log => uploads.log
  | .xDebug => uploads.xDebug
  | .report => uploads.report

def storedArtifact (kind : ArtifactKind) (data : Octets) : StoredObject where
  body := data
  contentType := some kind.contentType
  contentLength := some data.length

/-- `put_artifact` -/
def putArtifact (runId : Uuid) (kind : ArtifactKind) (data : Octets) (s : OperatorState) : OperatorState :=
  { s with objects := s.objects.insert (artifactKey runId kind) (storedArtifact kind data) }

/-- The parts are stored one after the other, up to the first call that fails. -/
def putParts (outage : Outage) (runId : Uuid) (uploads : Uploads) :
    List ArtifactKind → OperatorState → Bool × OperatorState
  | [], s => (true, s)
  | kind :: kinds, s =>
      match part uploads kind with
      | none => putParts outage runId uploads kinds s
      | some data =>
          if outage.object (artifactKey runId kind) then (false, s)
          else putParts outage runId uploads kinds (putArtifact runId kind data s)

def allKinds : List ArtifactKind := [.state, .log, .xDebug, .report]

def uploadResponse (runId : Uuid) (run : Run) : Answer :=
  Api.ok (.obj [("id".toList, Api.uuidJson runId),
    ("state_location".toList, Api.nullable .str run.stateLocation)])

section Handlers

variable (operator : Operator) (moment : Moment)

/-- The handler of `POST /runs/{run_id}/artifacts`. -/
def uploadArtifacts (runId : Uuid) (form : List FormFile) (s : OperatorState) : Answer × OperatorState :=
  let uploads := uploadsOf form
  if (allKinds.filterMap (part uploads)).isEmpty then
    (Api.httpException 400 "at least one non-empty artifact is required".toList, s)
  else if moment.outage.database then (Api.internalServerError, s)
  else match s.runs.lookup runId with
    | none => (Api.runNotFound runId, s)
    | some run =>
        match putParts moment.outage runId uploads allKinds s with
        | (false, s') => (Api.internalServerError, s')
        | (true, s') =>
            if moment.commitFails then (Api.internalServerError, s')
            else
              let uploaded := RunService.uploadArtifacts operator.parsers moment.now runId uploads run
              (uploadResponse runId uploaded, { s' with runs := s'.runs.insert runId uploaded })

/-- The body of an upload; a form that cannot be read is refused. -/
def receiveUpload (request : JobEntrypoint.Request) (runId : Uuid) (s : OperatorState) :
    Answer × OperatorState :=
  match operator.readForm (request.contentType.getD []) (request.data.getD []) with
  | none => (Api.httpException 400 "There was an error parsing the body".toList, s)
  | some form => uploadArtifacts operator moment runId form s

/-- The framework refuses a parameter. -/
def unprocessable (errors : Json) : Answer where
  status := 422
  body := .json (.obj [("detail".toList, errors)])

/-- The route of an upload. -/
def uploadRoute : Api.Route := Api.write "POST" [Api.lit "runs", .param, Api.lit "artifacts"]

/-- A route of the operator after the check of the token. -/
def handle (request : JobEntrypoint.Request) (route : Api.Route) (params : List Text)
    (s : OperatorState) : Answer × OperatorState :=
  match route.target with
  | .read handler =>
      match Api.endpoint operator.parameters handler params [] with
      | .error errors => (unprocessable errors, s)
      | .ok endpoint => (Api.answer operator.reads moment.outage s endpoint, s)
  | .write =>
      if route = uploadRoute then
        match operator.parameters.uuid (Api.param params 0) with
        | .error errors => (unprocessable errors, s)
        | .ok runId => receiveUpload operator moment request runId s
      else operator.otherWrites request s

/-- One request of a Job. -/
def serve (request : JobEntrypoint.Request) (s : OperatorState) : Answer × OperatorState :=
  let path := Api.urlPath request.url
  match operator.web.route request.method path with
  | .notFound => (Api.notFound "Not Found".toList, s)
  | .methodNotAllowed _ => (Api.httpException 405 "Method Not Allowed".toList, s)
  | .redirect _ => ({ status := 307, contentType := [], body := .text [] }, s)
  | .mcp _ => operator.mcp request s
  | .route route params =>
      match Api.requireApiToken (operator.jobs.tokens operator.settings moment.time) operator.settings
          (operator.web.bearer (some request.authorization)) request.method path with
      | .error .invalidToken => (Api.httpException 401 "Invalid or missing Bearer token".toList, s)
      | .error .notAllowed => (Api.httpException 403 "Token is not allowed for this operation".toList, s)
      | .ok () => handle operator moment request route params s

end Handlers

end JobServer
end PdeOperator
