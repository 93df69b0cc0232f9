import PdeOperator.RunRow
import PdeOperator.Settings

/-! `AuthUtils` and `DependUtils.require_api_token`: who a bearer token stands for and what the
token of a Job may do. -/

namespace PdeOperator
open Base

namespace Api

inductive Principal where
  | admin
  | run (runId : Uuid) (parentRunId : Option Uuid)
  deriving DecidableEq

/-- `jwt.decode` with the signing key of the operator (`none` is a `PyJWTError`), and `UUID(...)` and
`str(...)` of Python. -/
structure TokenLibrary where
  jwtDecode : Text → Option JsonObject
  uuid : Text → Option Uuid
  str : Json → Text

section Tokens

variable (lib : TokenLibrary)

/-- `bool(value)` of a decoded value. -/
def isTrue : Json → Bool
  | .null => false
  | .bool value => value
  | .int value => value ≠ 0
  | .float literal =>
      (literal.takeWhile fun c => c != 'e' && c != 'E').any fun c => c ∉ "0.-+".toList
  | .str value => !value.isEmpty
  | .arr items => !items.isEmpty
  | .obj fields => !fields.isEmpty

def verifyRunToken (token : Text) : Option Principal := do
  let payload ← lib.jwtDecode token
  guard (Json.get payload "role".toList = some (.str "run".toList))
  let runId ← (Json.get payload "run_id".toList).bind fun value => lib.uuid (lib.str value)
  match Json.get payload "parent_run_id".toList with
  | none => some (.run runId none)
  | some value =>
      if isTrue value then (lib.uuid (lib.str value)).map fun parent => .run runId (some parent)
      else some (.run runId none)

def tokensEqual (provided expected : Text) : Bool :=
  provided.length == expected.length && provided == expected

def resolvePrincipal (apiAdminToken : Text) : Option Text → Option Principal
  | none => none
  | some provided =>
      if provided.isEmpty then none
      else if tokensEqual provided apiAdminToken then some .admin
      else verifyRunToken lib provided

/-- `method.upper()`; the names of methods are ASCII. -/
def upper (method : Text) : Text := method.map Char.toUpper

def runTokenAllows (principal : Principal) (method path apiPrefix : Text) : Bool :=
  match principal with
  | .admin => false
  | .run runId parentRunId =>
      let runsRoot := apiPrefix.rdropWhile (· == '/') ++ "/runs/".toList
      if !runsRoot.isPrefixOf path then false
      else
        let (runIdText, tail) := Text.partition '/' (path.drop runsRoot.length)
        match lib.uuid runIdText with
        | none => false
        | some pathRunId =>
            if upper method = "POST".toList ∧ pathRunId = runId ∧
                "deliveries/".toList.isPrefixOf tail then
              let kind := (Text.partition '/' (tail.drop "deliveries/".length)).1
              kind = "status".toList ∨ kind = "report".toList ∨ kind = "log".toList
            else
              (upper method = "POST".toList ∧ pathRunId = runId ∧ tail = "artifacts".toList) ∨
              (upper method = "GET".toList ∧ pathRunId = runId ∧ tail = "input".toList) ∨
              (upper method = "GET".toList ∧ parentRunId = some pathRunId ∧
                tail = "artifacts/state".toList)

/-- How `require_api_token` refuses a request. -/
inductive AuthError where
  | invalidToken | notAllowed
  deriving DecidableEq

/-- The credentials are what `HTTPBearer` has read of the header. -/
def requireApiToken (settings : Settings) (credentials : Option Text) (method path : Text) :
    Except AuthError Unit :=
  match resolvePrincipal lib settings.apiAdminToken credentials with
  | none => .error .invalidToken
  | some .admin => .ok ()
  | some principal =>
      if runTokenAllows lib principal method path settings.apiPrefix then .ok ()
      else .error .notAllowed

/-- The token that `_admin_only_wrapper` of the embedded MCP server reads of an `Authorization` header. -/
def mcpToken (authorization : Option Text) : Option Text :=
  let auth := authorization.getD []
  if "bearer ".toList.isPrefixOf (auth.map Char.toLower) then some (Text.strip (auth.drop 7)) else none

/-- The check of `_admin_only_wrapper`. -/
def requireAdmin (settings : Settings) (authorization : Option Text) : Except AuthError Unit :=
  match resolvePrincipal lib settings.apiAdminToken (mcpToken authorization) with
  | none => .error .invalidToken
  | some .admin => .ok ()
  | some _ => .error .notAllowed

variable {lib}

/-- The admin token opens every route. -/
theorem requireApiToken_admin {settings : Settings} (h : settings.apiAdminToken ≠ [])
    (method path : Text) :
    requireApiToken lib settings (some settings.apiAdminToken) method path = .ok () := by
  simp [requireApiToken, resolvePrincipal, h, tokensEqual]

end Tokens

end Api
end PdeOperator
