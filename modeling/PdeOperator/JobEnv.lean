import Mathlib.Data.Char
import Mathlib.Data.List.Lex
import PdeOperator.ApiAuth
import PdeOperator.BaseUuid
import PdeOperator.RunService

/-! `EnvUtils`, `AuthUtils.mint_run_token` and `JobService._build_env`: the environment of the
container that runs a Job. -/

namespace PdeOperator
open Base

/-- What the environment needs of Python and of PyJWT: `jwt.encode` and `jwt.decode` (HS256; the
latter at a time, and `none` is a `PyJWTError`), `UUID(...)`, `str(...)` and `json.dumps`. -/
structure JobLibrary where
  jwtEncode : (key : Text) → JsonObject → Text
  jwtDecode : (key : Text) → (now : Int) → Text → Option JsonObject
  uuid : Text → Option Uuid
  str : Json → Text
  jsonDumps : Json → Text

/-- The library as the operator verifies a token at a time. -/
def JobLibrary.tokens (lib : JobLibrary) (settings : Settings) (now : Int) : Api.TokenLibrary where
  jwtDecode := lib.jwtDecode settings.jobTokenSigningKey now
  uuid := lib.uuid
  str := lib.str

/-- The payload of the token of a run; `now` is `int(time.time())`. -/
def runClaims (runId : Uuid) (parentRunId : Option Uuid) (ttlSeconds now : Int) : JsonObject :=
  [("role".toList, .str "run".toList), ("run_id".toList, .str (Uuid.str runId)),
    ("iat".toList, .int now), ("exp".toList, .int (now + max ttlSeconds 60))] ++
  match parentRunId with
  | none => []
  | some parent => [("parent_run_id".toList, .str (Uuid.str parent))]

def mintRunToken (lib : JobLibrary) (signingKey : Text) (runId : Uuid) (parentRunId : Option Uuid)
    (ttlSeconds now : Int) : Text :=
  lib.jwtEncode signingKey (runClaims runId parentRunId ttlSeconds now)

namespace EnvUtils

/-- The `dict` that a merge fills. -/
abbrev Env := AList fun _ : Text => Text

section Merge

variable (lib : JobLibrary)

def envValueToStr : Json → Text
  | .obj fields => lib.jsonDumps (.obj fields)
  | .arr items => lib.jsonDumps (.arr items)
  | value => lib.str value

def mergeEntry (merged : Env) (entry : Text × Json) : Env :=
  if entry.2 = .null then merged else merged.insert entry.1 (envValueToStr lib entry.2)

def mergeEnvVars (layers : List (Option JsonObject)) : Env :=
  layers.foldl (fun merged layer => (layer.getD []).foldl (mergeEntry lib) merged) ∅

end Merge

/-- An HTTP endpoint of a remote delivery. -/
structure Endpoint where
  endpoint : Text
  contentType : Text
  useCompression : Bool

def httpEndpoint (baseUrl : Text) (runId : Uuid) (suffix contentType : Text)
    (useCompression : Bool) : Endpoint where
  endpoint := baseUrl ++ "/runs/".toList ++ Uuid.str runId ++ "/deliveries/".toList ++ suffix
  contentType := contentType
  useCompression := useCompression

def Endpoint.toJson (endpoint : Endpoint) : Json :=
  .obj [("type".toList, .str "http".toList), ("endpoint".toList, .str endpoint.endpoint),
    ("headers".toList, .obj [("Authorization".toList, .str "Bearer \x7btoken\x7d".toList),
      ("Content-Type".toList, .str endpoint.contentType)]),
    ("token_env_var".toList, .str "PDE_OPERATOR_TOKEN".toList),
    ("use_compression".toList, .bool endpoint.useCompression)]

structure RemoteDelivery where
  payload : Text
  intervalSeconds : Int
  endpoints : List Endpoint

def RemoteDelivery.toJson (delivery : RemoteDelivery) : Json :=
  .obj [("payload".toList, .str delivery.payload), ("mode".toList, .str "periodic".toList),
    ("interval_seconds".toList, .int delivery.intervalSeconds),
    ("endpoints".toList, .arr (delivery.endpoints.map Endpoint.toJson))]

/-- `operator_base_url` and `api_prefix` without their trailing slashes. -/
def operatorRoot (settings : Settings) : Text :=
  RunService.rstripSlash settings.operatorBaseUrl ++ RunService.rstripSlash settings.apiPrefix

def remoteDeliveries (settings : Settings) (runId : Uuid) : List RemoteDelivery :=
  let base := operatorRoot settings
  [{ payload := "status".toList
     intervalSeconds := settings.pdeDeliveryStatusInterval
     endpoints := [httpEndpoint base runId "status".toList "application/json".toList false] },
   { payload := "report".toList
     intervalSeconds := settings.pdeDeliveryReportInterval
     endpoints := [httpEndpoint base runId "report".toList "application/json".toList true] },
   { payload := "log".toList
     intervalSeconds := settings.pdeDeliveryLogInterval
     endpoints := [httpEndpoint base runId "log".toList "text/plain".toList true] }]

def operatorDefaultEnv (lib : JobLibrary) (settings : Settings) (runId : Uuid) (executionUrl : Text) :
    JsonObject :=
  [("PIPELINES_DECLARATIVE_EXECUTOR_REMOTE_DELIVERIES".toList,
      .str (lib.jsonDumps (.arr ((remoteDeliveries settings runId).map RemoteDelivery.toJson)))),
    ("PIPELINES_DECLARATIVE_EXECUTOR_EXECUTION_URL".toList, .str executionUrl)]

end EnvUtils

/-! ### `JobService._build_env` -/

namespace JobService
open EnvUtils

section Urls

variable (settings : Settings) (runId : Uuid)

def executionUrl : Text := operatorRoot settings ++ "/runs/".toList ++ Uuid.str runId

def artifactsUrl : Text :=
  operatorRoot settings ++ "/runs/".toList ++ Uuid.str runId ++ "/artifacts".toList

def inputUrl : Text :=
  operatorRoot settings ++ "/runs/".toList ++ Uuid.str runId ++ "/input".toList

def parentStateUrl : Text :=
  operatorRoot settings ++ "/runs/".toList ++ Uuid.str runId ++ "/artifacts/state".toList

end Urls

def inputUrlVar : Text := "PDE_OPERATOR_INPUT_URL".toList
def artifactsUrlVar : Text := "PDE_OPERATOR_ARTIFACTS_URL".toList
def secretsPathVar : Text := "PDE_OPERATOR_EXTERNAL_SECRETS_MOUNT_PATH".toList
def parentStateUrlVar : Text := "PDE_OPERATOR_PARENT_STATE_URL".toList
def tokenVar : Text := "PDE_OPERATOR_TOKEN".toList

section Build

variable (lib : JobLibrary) (settings : Settings) (id : Uuid) (run : Run) (profile : Profile)
  (now : Int)

/-- The token of the Job of a run. -/
def jobToken : Text :=
  mintRunToken lib settings.jobTokenSigningKey id run.retryOfRunId settings.jobTokenTtlSeconds now

/-- The environment as a `dict`. -/
def mergedEnv : Env :=
  let merged := mergeEnvVars lib
    [some (operatorDefaultEnv lib settings id (executionUrl settings id)), some profile.envVars,
      run.envVars]
  let merged := merged.insert inputUrlVar (inputUrl settings id)
  let merged := merged.insert artifactsUrlVar (artifactsUrl settings id)
  let merged := merged.insert secretsPathVar settings.externalSecretsMountPath
  let merged :=
    match run.retryOfRunId with
    | none => merged
    | some parent => merged.insert parentStateUrlVar (parentStateUrl settings parent)
  merged.insert tokenVar (jobToken lib settings id run now)

/-- `sorted(merged.items())`: the names are distinct, so the pairs are ordered by name. -/
def buildEnv : List (Text × Text) :=
  ((mergedEnv lib settings id run profile now).entries.map fun entry => (entry.1, entry.2)).mergeSort
    fun a b => decide (a.1 ≤ b.1)

end Build

section Entries

variable {lib : JobLibrary} {settings : Settings} {id : Uuid} {run : Run} {profile : Profile}
  {now : Int}

/-- The container sees the value of the `dict` under each name, and no other. -/
theorem mem_buildEnv_iff {name value : Text} :
    (name, value) ∈ buildEnv lib settings id run profile now ↔
      (mergedEnv lib settings id run profile now).lookup name = some value := by
  rw [buildEnv, List.mem_mergeSort, List.mem_map, ← Option.mem_def, AList.mem_lookup_iff]
  constructor
  · rintro ⟨entry, hentry, heq⟩
    obtain ⟨rfl, rfl⟩ := Prod.mk.inj heq
    exact hentry
  · exact fun hentry => ⟨_, hentry, rfl⟩

theorem nodup_buildEnv : ((buildEnv lib settings id run profile now).map Prod.fst).Nodup := by
  rw [buildEnv, ((List.mergeSort_perm _ _).map Prod.fst).nodup_iff, List.map_map]
  exact (mergedEnv lib settings id run profile now).nodupKeys

theorem lookup_tokenVar : (mergedEnv lib settings id run profile now).lookup tokenVar =
    some (jobToken lib settings id run now) := AList.lookup_insert _

theorem lookup_inputUrlVar : (mergedEnv lib settings id run profile now).lookup inputUrlVar =
    some (inputUrl settings id) := by
  unfold mergedEnv
  dsimp only
  rw [AList.lookup_insert_ne (by decide)]
  split
  · rw [AList.lookup_insert_ne (by decide), AList.lookup_insert_ne (by decide), AList.lookup_insert]
  · rw [AList.lookup_insert_ne (by decide), AList.lookup_insert_ne (by decide),
      AList.lookup_insert_ne (by decide), AList.lookup_insert]

theorem lookup_artifactsUrlVar : (mergedEnv lib settings id run profile now).lookup artifactsUrlVar =
    some (artifactsUrl settings id) := by
  unfold mergedEnv
  dsimp only
  rw [AList.lookup_insert_ne (by decide)]
  split
  · rw [AList.lookup_insert_ne (by decide), AList.lookup_insert]
  · rw [AList.lookup_insert_ne (by decide), AList.lookup_insert_ne (by decide), AList.lookup_insert]

theorem lookup_parentStateUrlVar {parent : Uuid} (h : run.retryOfRunId = some parent) :
    (mergedEnv lib settings id run profile now).lookup parentStateUrlVar =
      some (parentStateUrl settings parent) := by
  unfold mergedEnv
  dsimp only
  rw [AList.lookup_insert_ne (by decide), h]
  exact AList.lookup_insert _

end Entries

end JobService
end PdeOperator
