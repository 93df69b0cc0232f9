import PdeOperator.ApiReads

/-! The backend of the Argo CD extension (`main.go`): the gate in front of the operator, the request
that it passes on with the token of the operator, and the responses that come back. -/

namespace PdeOperator
open Base Api

namespace ArgoBackend

/-- `unicode.IsSpace` -/
def isSpace (c : Char) : Bool :=
  Text.isSpace c && !(28 ≤ c.toNat && c.toNat ≤ 31)

/-- `strings.TrimSpace` -/
def trimSpace (s : Text) : Text := (s.dropWhile isSpace).rdropWhile isSpace

structure RbacConfig where
  writeUsers : List Text
  writeGroups : List Text

def parseCSVSet (raw : Text) : List Text :=
  ((raw.splitOn ',').map trimSpace).filter fun part => !part.isEmpty

def loadRBAC (writeUsers writeGroups : Text) : RbacConfig where
  writeUsers := parseCSVSet writeUsers
  writeGroups := parseCSVSet writeGroups

structure Request where
  method : Text
  /-- `r.URL.EscapedPath()` -/
  escapedPath : Text
  /-- `r.URL.Path` -/
  path : Text
  rawQuery : Text
  /-- The header fields with canonical names. -/
  header : List (Text × Text)
  hasBody : Bool

/-- `r.Header.Get` -/
def Request.headerGet (r : Request) (name : Text) : Text := (r.header.lookup name).getD []

def headerArgoUsername : Text := "Argocd-Username".toList
def headerArgoGroups : Text := "Argocd-User-Groups".toList

def RbacConfig.isWriter (c : RbacConfig) (r : Request) : Bool :=
  let username := trimSpace (r.headerGet headerArgoUsername)
  (!username.isEmpty && c.writeUsers.contains username) ||
    (((r.headerGet headerArgoGroups).splitOn ',').map trimSpace).any fun group =>
      !group.isEmpty && c.writeGroups.contains group

def isSafeMethod (method : Text) : Bool :=
  method = "GET".toList ∨ method = "HEAD".toList ∨ method = "OPTIONS".toList

/-- `path.Clean` of a rooted path, segment by segment. -/
def cleanSegments (segments : List Text) : List Text :=
  segments.foldl (fun stack segment =>
    if segment.isEmpty || segment = ".".toList then stack
    else if segment = "..".toList then stack.dropLast
    else stack ++ [segment]) []

/-- `cleanPath` of `net/http` -/
def cleanPath (path : Text) : Text :=
  let clean := '/' :: ['/'].intercalate (cleanSegments (path.splitOn '/'))
  if path.getLast? = some '/' ∧ clean ≠ "/".toList then clean ++ "/".toList else clean

def isControl (c : Char) : Bool := c.toNat < 32 || c.toNat = 127

def isHex (c : Char) : Bool := c.isDigit || ('a' ≤ c && c ≤ 'f') || ('A' ≤ c && c ≤ 'F')

/-- Every `%` is followed by two hexadecimal digits. -/
def validEscapes : Text → Bool
  | '%' :: a :: b :: rest => isHex a && isHex b && validEscapes rest
  | '%' :: _ => false
  | _ :: rest => validEscapes rest
  | [] => true

/-- The path that the operator receives for a target under `/api/v1`, and the query; `none` when
`url.Parse` refuses the target. The fragment is not sent, and `unquote` is what the server of the
operator makes of the path. -/
def receive (unquote : Text → Text) (target : Text) : Option (Text × Text) :=
  let (rest, fragment) := Text.partition '#' target
  let (path, query) := Text.partition '?' rest
  if validEscapes path && validEscapes fragment then
    some ("/api/v1".toList ++ unquote path, query)
  else none

inductive Reply where
  /-- The redirect of the multiplexer to the cleaned path. -/
  | moved (path rawQuery : Text)
  /-- Written by the backend itself. -/
  | written (status : Nat) (contentType : Text) (body : Body)
  /-- Copied from the operator. -/
  | copied (answer : Answer)
  deriving DecidableEq

def plain : Text := "text/plain; charset=utf-8".toList
def json : Text := "application/json".toList

def writeForbidden : Reply := .written 403 json (.text "\x7b\"detail\":\"write_forbidden\"\x7d".toList)

/-- `http.Error` -/
def httpError (status : Nat) (message : String) : Reply :=
  .written status plain (.text (message.toList ++ ['\n']))

def operatorUnreachable : Reply := httpError 502 "\x7b\"detail\":\"operator_unreachable\"\x7d"

def failedToBuild : Reply := httpError 500 "\x7b\"detail\":\"failed to build request\"\x7d"

def capabilities (c : RbacConfig) (r : Request) : Reply :=
  if r.method ≠ "GET".toList ∧ r.method ≠ "HEAD".toList then
    httpError 405 "\x7b\"detail\":\"method_not_allowed\"\x7d"
  else if r.method = "HEAD".toList then .written 200 json (.text [])
  else .written 200 json (.json (.obj [("canWrite".toList, .bool (c.isWriter r)),
    ("username".toList, .str (trimSpace (r.headerGet headerArgoUsername)))]))

/-! ### The operator behind the backend -/

/-- What the MCP library makes of a request: an answer of its transport, or the call of a tool, a resource or a
prompt. -/
inductive McpTurn where
  | transport (a : Answer)
  | call

/-- The operator: its settings and libraries, and its writing routes and the calls of its MCP server, of which
nothing is assumed. -/
structure Operator where
  settings : Settings
  unquote : Text → Text
  web : WebLibrary
  tokens : TokenLibrary
  parameters : ParameterLibrary
  reads : ReadLibrary
  writes : Request → Text → List Text → Text → OperatorState → Answer × OperatorState
  mcp : Request → Text → McpTurn
  mcpCalls : Request → OperatorState → Answer × OperatorState

/-- What is called over MCP is called by a method that is not safe (`POST`). -/
def Operator.CallsUnsafely (operator : Operator) : Prop :=
  ∀ r path, isSafeMethod r.method = true → operator.mcp r path ≠ .call

structure Config where
  rbac : RbacConfig
  operatorToken : Text

/-- What becomes of a request before any handler of the operator runs. -/
inductive Routed where
  | reply (r : Reply)
  /-- The router of the operator answers. -/
  | answered (a : Answer)
  | mcp (path : Text)
  | route (route : Route) (params : List Text) (path query : Text)

def detail (message : Text) : Json := .obj [("detail".toList, .str message)]

def methodNotAllowed (allowed : Text) : Answer where
  status := 405
  headers := [("Allow".toList, allowed)]
  body := .json (detail "Method Not Allowed".toList)

/-- `RedirectResponse`, with the location below the host. -/
def temporaryRedirect (location : Text) : Answer where
  status := 307
  contentType := []
  headers := [("Location".toList, location)]
  body := .text []

def query (rawQuery : Text) : Text := if rawQuery.isEmpty then [] else '?' :: rawQuery

section Serving

variable (operator : Operator)

/-- `client.Do`: redirects are followed for requests without a body, up to ten requests in all. -/
def follow (method : Text) (hasBody : Bool) : Nat → Text × Text → Routed
  | 0, _ => .reply operatorUnreachable
  | requests + 1, (path, rawQuery) =>
      match operator.web.route method path with
      | .route route params => .route route params path rawQuery
      | .mcp path => .mcp path
      | .methodNotAllowed allowed => .answered (methodNotAllowed allowed)
      | .notFound => .answered (Api.notFound "Not Found".toList)
      | .redirect stripped =>
          if hasBody then .answered (temporaryRedirect (stripped ++ query rawQuery))
          else
            match receive operator.unquote
              (stripped.drop "/api/v1".length ++ query rawQuery) with
            | none => .reply operatorUnreachable
            | some received => follow method hasBody requests received

/-- The pass-through handler up to the route of the operator. -/
def passThrough (r : Request) : Routed :=
  let target := (if r.path.isEmpty then "/".toList else r.path) ++ query r.rawQuery
  if target.any isControl then .reply failedToBuild
  else
    match receive operator.unquote target with
    | none => .reply failedToBuild
    | some received => follow operator r.method r.hasBody 10 received

/-- The multiplexer of the backend with its three handlers. -/
def routed (config : Config) (r : Request) : Routed :=
  if r.escapedPath = "*".toList then .reply (.written 400 [] (.text []))
  else if r.method ≠ "CONNECT".toList ∧ cleanPath r.escapedPath ≠ r.escapedPath then
    .reply (.moved (cleanPath r.escapedPath) r.rawQuery)
  else if r.path = "/healthz".toList then
    .reply (.written 200 json (.text "\x7b\"status\":\"ok\"\x7d".toList))
  else if r.path = "/capabilities".toList then .reply (capabilities config.rbac r)
  else if !isSafeMethod r.method && !config.rbac.isWriter r then .reply writeForbidden
  else passThrough operator r

/-- The `Authorization` header of the request to the operator. -/
def Config.authorization (config : Config) : Option Text :=
  if config.operatorToken.isEmpty then none
  else some ("Bearer ".toList ++ config.operatorToken)

/-- One request, and what fails while it is served. -/
structure Exchange where
  request : Request
  unreachable : Bool := false
  outage : Outage := {}

def unauthorized : Answer where
  status := 401
  headers := [("WWW-Authenticate".toList, "Bearer".toList)]
  body := .json (detail "Invalid or missing Bearer token".toList)

def unprocessable (errors : Json) : Answer where
  status := 422
  body := .json (.obj [("detail".toList, errors)])

/-- A reading route, once the token has been checked. -/
def readRoute (x : Exchange) (handler : Read) (params : List Text) (rawQuery : Text)
    (s : OperatorState) : Answer :=
  match endpoint operator.parameters handler params rawQuery with
  | .error errors => unprocessable errors
  | .ok e => answer operator.reads x.outage s e

/-- The route of the operator: the token is checked first, then the parameters. -/
def serveRoute (config : Config) (x : Exchange) (route : Route) (params : List Text)
    (path rawQuery : Text) (s : OperatorState) : Answer × OperatorState :=
  match requireApiToken operator.tokens operator.settings (operator.web.bearer config.authorization)
    x.request.method path with
  | .error .invalidToken => (unauthorized, s)
  | .error .notAllowed => (httpException 403 "Token is not allowed for this operation".toList, s)
  | .ok () =>
      match route.target with
      | .write => operator.writes x.request path params rawQuery s
      | .read handler => (readRoute operator x handler params rawQuery s, s)

/-- The embedded MCP server behind its own check of the token. -/
def serveMcp (config : Config) (x : Exchange) (path : Text) (s : OperatorState) : Answer × OperatorState :=
  match requireAdmin operator.tokens operator.settings config.authorization with
  | .error .invalidToken => (unauthorized, s)
  | .error .notAllowed => (httpException 403 "Token is not allowed for this operation".toList, s)
  | .ok () =>
      match operator.mcp x.request path with
      | .transport a => (a, s)
      | .call => operator.mcpCalls x.request s

/-- One request through the backend. -/
def serve (config : Config) (x : Exchange) (s : OperatorState) : Reply × OperatorState :=
  match routed operator config x.request with
  | .reply r => (r, s)
  | .answered a => (if x.unreachable then operatorUnreachable else .copied a, s)
  | .mcp path =>
      if x.unreachable then (operatorUnreachable, s)
      else
        let (a, s') := serveMcp operator config x path s
        (.copied a, s')
  | .route route params path rawQuery =>
      if x.unreachable then (operatorUnreachable, s)
      else
        let (a, s') := serveRoute operator config x route params path rawQuery s
        (.copied a, s')

end Serving

end ArgoBackend
end PdeOperator
