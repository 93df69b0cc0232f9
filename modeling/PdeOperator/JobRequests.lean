import PdeOperator.JobServer

/-! The requests of a Job. With the token and the URLs of its environment the wrapper reaches exactly the
handlers that are meant for it, and the secrets that are mounted into its environment leave these
variables alone. -/

namespace PdeOperator
open Base Multipart

namespace JobServer
open Api (OperatorState Answer)

/-- What a Job asks of a run. -/
inductive Ask where
  | input | parentState | upload

namespace Ask

def method : Ask → Text
  | .upload => "POST".toList
  | _ => "GET".toList

def tail : Ask → Text
  | .input => "input".toList
  | .parentState => "artifacts/state".toList
  | .upload => "artifacts".toList

def route : Ask → Api.Route
  | .input => Api.get [Api.lit "runs", .param, Api.lit "input"] .getRunInput
  | .parentState => Api.get [Api.lit "runs", .param, Api.lit "artifacts", .param] .downloadArtifact
  | .upload => uploadRoute

def params (idText : Text) : Ask → List Text
  | .parentState => [idText, "state".toList]
  | _ => [idText]

/-- The run that the request is about. -/
def run (id : Uuid) (parent : Option Uuid) : Ask → Option Uuid
  | .parentState => parent
  | _ => some id

end Ask

variable {operator : Operator} {id : Uuid} {run : Run} {minted : Int} {moment : Moment}
  {s : OperatorState}

/-- What the operator relies on for the Job of a run: PyJWT and `UUID`, an admin token that is no token of
a Job, a base URL and a prefix that the framework accepts, and the framework itself, which reads the bearer token
and finds the routes of the paths that the Job asks for. -/
structure Deployed (operator : Operator) (id : Uuid) (run : Run) (minted : Int) : Prop where
  verifies : Api.VerifiesRun operator.jobs operator.settings.jobTokenSigningKey id run.retryOfRunId
    operator.settings.jobTokenTtlSeconds minted
  token_ne_nil : JobService.jobToken operator.jobs operator.settings id run minted ≠ []
  token_ne_admin : JobService.jobToken operator.jobs operator.settings id run minted ≠
    operator.settings.apiAdminToken
  origin : Api.IsOrigin operator.settings.operatorBaseUrl
  plain : Api.IsPlainPath operator.settings.apiPrefix
  bearer : operator.web.bearer
      (some ("Bearer ".toList ++ JobService.jobToken operator.jobs operator.settings id run minted)) =
    some (JobService.jobToken operator.jobs operator.settings id run minted)
  routes : ∀ (about : Uuid) (ask : Ask), ask.run id run.retryOfRunId = some about →
    operator.web.route ask.method (Api.runPath operator.settings.apiPrefix (Uuid.str about) ask.tail) =
      .route ask.route (ask.params (Uuid.str about))
  uuid : ∀ id, operator.parameters.uuid (Uuid.str id) = .ok id

/-- The token is valid from its `iat` until its `exp`. -/
def InTime (operator : Operator) (minted : Int) (moment : Moment) : Prop :=
  minted ≤ moment.time ∧ moment.time < minted + max operator.settings.jobTokenTtlSeconds 60

/-- The URL of something below a run. -/
def runUrl (settings : Settings) (id : Uuid) (ask : Ask) : Text :=
  EnvUtils.operatorRoot settings ++ "/runs/".toList ++ Uuid.str id ++ '/' :: ask.tail

/-- A request with the token of the Job. -/
structure FromJob (operator : Operator) (id : Uuid) (run : Run) (minted : Int) (about : Uuid) (ask : Ask)
    (request : JobEntrypoint.Request) : Prop where
  url : request.url = runUrl operator.settings about ask
  method : request.method = ask.method
  authorization : request.authorization =
    "Bearer ".toList ++ JobService.jobToken operator.jobs operator.settings id run minted

/-- A Job's request passes the router and the check of its token, and its handler gets the run that it is
about. -/
theorem serve_ask (hdeployed : Deployed operator id run minted) (hintime : InTime operator minted moment)
    {about : Uuid} {ask : Ask} (habout : ask.run id run.retryOfRunId = some about)
    {request : JobEntrypoint.Request} (hrequest : FromJob operator id run minted about ask request) :
    serve operator moment request s =
      handle operator moment request ask.route (ask.params (Uuid.str about)) s := by
  have htail : ∀ c ∈ ask.tail, c ≠ '?' ∧ c ≠ '#' := by
    cases ask <;> decide
  have hpath : Api.urlPath request.url =
      Api.runPath operator.settings.apiPrefix (Uuid.str about) ask.tail := by
    rw [hrequest.url]
    exact Api.urlPath_runUrl hdeployed.origin hdeployed.plain htail
  have hmay : Api.JobMay id run.retryOfRunId (Api.upper ask.method) about ask.tail := by
    cases ask with
    | input =>
        cases habout
        exact Or.inl ⟨rfl, Or.inr ⟨rfl, rfl⟩⟩
    | parentState => exact Or.inr ⟨habout, rfl, rfl⟩
    | upload =>
        cases habout
        exact Or.inl ⟨rfl, Or.inl ⟨rfl, Or.inr rfl⟩⟩
  have hverify := Api.verifyRunToken_mintRunToken hdeployed.verifies hintime.1 hintime.2
  have hallows : Api.runTokenAllows (operator.jobs.tokens operator.settings moment.time)
      (.run id run.retryOfRunId) ask.method (Api.urlPath (runUrl operator.settings about ask))
      operator.settings.apiPrefix = true :=
    Api.runTokenAllows_urlPath hdeployed.origin hdeployed.plain (hdeployed.verifies.uuid_str about) htail hmay
  have htoken : Api.requireApiToken (operator.jobs.tokens operator.settings moment.time) operator.settings
      (operator.web.bearer (some request.authorization)) ask.method (Api.urlPath request.url) = .ok () := by
    rw [hrequest.authorization, hrequest.url, hdeployed.bearer]
    exact (Api.requireApiToken_run hdeployed.token_ne_nil hdeployed.token_ne_admin hverify).mpr hallows
  unfold serve
  rw [hrequest.method]
  dsimp only
  rw [htoken, hpath, hdeployed.routes about ask habout]

theorem serve_input (hdeployed : Deployed operator id run minted) (hintime : InTime operator minted moment)
    {request : JobEntrypoint.Request} (hrequest : FromJob operator id run minted id .input request) :
    serve operator moment request s =
      (Api.answer operator.reads moment.outage s (.getRunInput id), s) := by
  have huuid : operator.parameters.uuid (Api.param [Uuid.str id] 0) = .ok id := hdeployed.uuid id
  rw [serve_ask hdeployed hintime rfl hrequest]
  simp only [handle, Ask.route, Api.get, Ask.params, Api.endpoint, huuid, Except.map]

theorem serve_parentState (hdeployed : Deployed operator id run minted)
    (hintime : InTime operator minted moment) {parent : Uuid} (hparent : run.retryOfRunId = some parent)
    {request : JobEntrypoint.Request} (hrequest : FromJob operator id run minted parent .parentState request) :
    serve operator moment request s =
      (Api.answer operator.reads moment.outage s (.downloadArtifact parent "state".toList), s) := by
  have huuid : operator.parameters.uuid (Api.param [Uuid.str parent, "state".toList] 0) = .ok parent :=
    hdeployed.uuid parent
  have habout : Ask.parentState.run id run.retryOfRunId = some parent := hparent
  rw [serve_ask hdeployed hintime habout hrequest]
  simp only [handle, Ask.route, Api.get, Ask.params, Api.endpoint, huuid, Except.map]
  rfl

theorem serve_upload (hdeployed : Deployed operator id run minted) (hintime : InTime operator minted moment)
    {request : JobEntrypoint.Request} (hrequest : FromJob operator id run minted id .upload request) :
    serve operator moment request s = receiveUpload operator moment request id s := by
  have huuid : operator.parameters.uuid (Api.param [Uuid.str id] 0) = .ok id := hdeployed.uuid id
  rw [serve_ask hdeployed hintime rfl hrequest, handle, Ask.route]
  simp only [uploadRoute, Api.write, Ask.params, huuid, if_true]

end JobServer
end PdeOperator
