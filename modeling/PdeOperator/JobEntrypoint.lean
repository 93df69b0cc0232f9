import PdeOperator.BaseDict
import PdeOperator.BaseFiles
import PdeOperator.BaseMultipart
import PdeOperator.BaseProgram
import PdeOperator.JobEnv

/-! The wrapper that runs in the container of a Job (`job-entrypoint.py`): it reads the input of its run,
runs or retries PDE, and hands over what PDE has left in the workspace. -/

namespace PdeOperator
open Base Multipart

namespace JobEntrypoint

def pipelineDir : List Text := ["PIPELINE_DIR".toList]
def pipelineDirZip : List Text := ["PIPELINE_DIR.zip".toList]
def consoleLog : List Text := ["console.log".toList]
def xDebugName : List Text := ["x_debug".toList]
def xDebugDir : List Text := pipelineDir ++ xDebugName
def xDebugZip : List Text := ["x_debug.zip".toList]
def xDebugStaging : List Text := ["x_debug".toList]
def reportName : List Text := ["pipeline_state".toList, "pipeline_report.json".toList]
def reportJson : List Text := pipelineDir ++ reportName
def reportJsonStaging : List Text := ["pipeline_report.json".toList]

def artifactCandidates : List (Text × List Text) :=
  [("state".toList, pipelineDirZip), ("log".toList, consoleLog), ("x_debug".toList, xDebugZip),
    ("report".toList, reportJsonStaging)]

/-- `path.name` -/
def fileName (path : List Text) : Text := path.getLast?.getD []

/-- `str(path)` -/
def pathText (path : List Text) : Text := "/workspace".toList ++ path.flatMap fun name => '/' :: name

/-- A request to the operator. -/
structure Request where
  url : Text
  method : Text
  authorization : Text
  contentType : Option Text := none
  data : Option Octets := none
  deriving DecidableEq

/-- How `urlopen` raises. -/
inductive RequestError where
  | httpError | urlError | other
  deriving DecidableEq

/-- What the wrapper meets: the command line of PDE with what it leaves in the workspace, the zip of a
directory, the answer to the n-th request, whether a signal comes while its handlers are installed,
`json.loads` and `str` of a value that is neither a text nor a Boolean, the files of a directory of
secrets with `read_text`, `yaml.safe_dump`, what `sops` prints (`none`: it is missing or fails), and
`uuid4().hex`. -/
structure Host where
  executable : Text
  pde : List Text → FileTree → FileTree × Int
  archive : FileTree → FileTree
  unarchive : FileTree → Option FileTree
  makeArchive : FileTree → Octets
  answer : Nat → Request → Except RequestError Octets
  interrupted : Bool
  jsonLoads : Octets → Option Json
  str : Json → Text
  mounted : Text → List (Text × Octets)
  readText : Octets → Option Text
  safeDump : List (Text × Text) → Text
  sops : EnvUtils.Env → Text → Option Text
  boundary : Text

inductive Error where
  | runtimeError (message : Text)
  | request (cause : RequestError)
  /-- `CalledProcessError` -/
  | calledProcess
  | osError
  /-- `UnicodeDecodeError`, `JSONDecodeError` or an embedded null byte -/
  | valueError
  deriving DecidableEq

structure State where
  environ : EnvUtils.Env
  files : FileTree
  /-- `_run_input` -/
  runInput : Option JsonObject := none
  /-- What has been sent to the operator. -/
  requests : List Request := []

variable (host : Host)

def pdeCli (args : List Text) : List Text :=
  [host.executable, "-m".toList, "pipelines_declarative_executor".toList] ++ args

def requestOf (environ : EnvUtils.Env) (url method : Text) (data : Option Octets)
    (contentType : Option Text) : Request where
  url := url
  method := method
  authorization := "Bearer ".toList ++ (environ.lookup JobService.tokenVar).getD []
  contentType := contentType
  data := data

def operatorRequest (url method : Text) (data : Option Octets) (contentType : Option Text) :
    Program Error State Octets := fun s =>
  let request := requestOf s.environ url method data contentType
  ((host.answer s.requests.length request).mapError Error.request,
    { s with requests := s.requests ++ [request] })

def externalSecretsMount (environ : EnvUtils.Env) : Text :=
  (environ.lookup JobService.secretsPathVar).getD "/var/run/secrets/pde-external".toList

/-- `none` when a file is not a text. -/
def readMountedSecrets (mount : Text) : Option (List (Text × Text)) :=
  (((host.mounted mount).mergeSort fun a b => decide (a.1 ≤ b.1)).filter fun file =>
    !"..".toList.isPrefixOf file.1).mapM fun file =>
      (host.readText file.2).map fun text => (file.1, text)

def mountedSecrets : Program Error State (List (Text × Text)) := do
  let s ← Program.read
  match readMountedSecrets host (externalSecretsMount s.environ) with
  | none => Program.raise .valueError
  | some secrets => pure secrets

/-- `os.environ[key] = value` -/
def setEnv (name value : Text) : Program Error State Unit := do
  Program.check (value.contains '\x00') .valueError
  Program.update fun s => { s with environ := s.environ.insert name value }

def exportMountedSecretEnv : Program Error State Unit := do
  let secrets ← mountedSecrets host
  Program.forEach (fun _ secret => setEnv secret.1 secret.2) 0 secrets

def atlasConfigVar : Text := "CUSTOM_GLOBAL_CONFIG_MOUNTED_SECRETS".toList
def ageKeyVar : Text := "SOPS_AGE_KEY".toList
def ageRecipientsVar : Text := "SOPS_AGE_RECIPIENTS".toList

/-- `secrets.get(name, "").strip() or None` -/
def stripped (secrets : List (Text × Text)) (name : Text) : Option Text :=
  let value := Text.strip ((secrets.lookup name).getD [])
  if value.isEmpty then none else some value

/-- `{"kind": ..., "apiVersion": ..., **secrets}` -/
def atlasConfig (secrets : List (Text × Text)) : List (Text × Text) :=
  Dict.ofPairs ([("kind".toList, "AtlasConfig".toList), ("apiVersion".toList, "v1".toList)] ++ secrets)

/-- `_sops_encrypt_yaml`; `none` is the `RuntimeError` that is printed as a warning. -/
def sopsEncryptYaml (environ : EnvUtils.Env) (plainYaml ageKey ageRecipients : Text) : Option Text := do
  let stdout ← host.sops ((environ.insert ageKeyVar ageKey).insert ageRecipientsVar ageRecipients) plainYaml
  let encrypted := Text.strip stdout
  guard !encrypted.isEmpty
  some encrypted

def exportMountedSecretsAtlasConfig : Program Error State Unit := do
  let secrets ← mountedSecrets host
  let s ← Program.read
  match stripped secrets ageKeyVar, stripped secrets ageRecipientsVar with
  | some ageKey, some ageRecipients =>
      match sopsEncryptYaml host s.environ (host.safeDump (atlasConfig secrets)) ageKey ageRecipients with
      | none => pure ()
      | some encrypted => setEnv atlasConfigVar encrypted
  | _, _ => pure ()

/-- A URL of the environment; an empty one counts as missing. -/
def urlOf (environ : EnvUtils.Env) (name : Text) : Option Text :=
  (environ.lookup name).filter fun url => !url.isEmpty

def fetchParentState : Program Error State Unit := do
  let s ← Program.read
  match urlOf s.environ JobService.parentStateUrlVar with
  | none => Program.raise (.runtimeError "PDE_OPERATOR_PARENT_STATE_URL is not set".toList)
  | some url =>
      let body ← operatorRequest host url "GET".toList none none
      Program.update fun s => { s with files := s.files.write pipelineDirZip body }

def fetchRunInput : Program Error State JsonObject := do
  let s ← Program.read
  match s.runInput with
  | some payload => pure payload
  | none =>
      match urlOf s.environ JobService.inputUrlVar with
      | none => Program.raise (.runtimeError "PDE_OPERATOR_INPUT_URL is not set".toList)
      | some url =>
          let body ← operatorRequest host url "GET".toList none none
          match host.jsonLoads body with
          | none => Program.raise .valueError
          | some (.obj payload) =>
              Program.update fun s => { s with runInput := some payload }
              pure payload
          | some _ => Program.raise (.runtimeError
              "PDE_OPERATOR_INPUT_URL returned invalid JSON object".toList)

def inputValue (name : Text) (required : Bool) : Program Error State (Option Json) := do
  let payload ← fetchRunInput host
  match (Json.get payload name).getD .null with
  | .null =>
      if required then
        Program.raise (.runtimeError ("run input field '".toList ++ name ++ "' is not set".toList))
      else pure none
  | value => pure (some value)

/-- `f"{value}"` -/
def formatValue : Option Json → Text
  | none => "None".toList
  | some (.str text) => text
  | some (.bool value) => if value then "True".toList else "False".toList
  | some value => host.str value

/-- `f"--{name}={value}"` -/
def option (name : Text) (value : Text) : Text := "--".toList ++ name ++ '=' :: value

/-- An option that is left out when its value is empty. -/
def optional (name : Text) (value : Option Json) : List Text :=
  match value with
  | none => []
  | some json => if Api.isTrue json then [option name (formatValue host value)] else []

def unarchiveOnce : Program Error State Unit := do
  let s ← Program.read
  match host.unarchive s.files with
  | none => Program.raise .calledProcess
  | some files => Program.update fun s => { s with files }

def pdeRunArgs : Program Error State (List Text) := do
  let pipelineData ← inputValue host "pipeline_data".toList true
  let isDryRun ← inputValue host "is_dry_run".toList true
  let logLevel ← inputValue host "log_level".toList true
  let pipelineVars ← inputValue host "pipeline_vars".toList false
  let pipelineVarsSecure ← inputValue host "pipeline_vars_secure".toList false
  pure (pdeCli host ["run".toList, option "pipeline_data".toList (formatValue host pipelineData),
    option "pipeline_dir".toList (pathText pipelineDir),
    option "is_dry_run".toList (formatValue host isDryRun),
    option "log_level".toList (formatValue host logLevel)] ++
      optional host "pipeline_vars".toList pipelineVars ++
      optional host "pipeline_vars_secure".toList pipelineVarsSecure)

def pdeRetryArgs : Program Error State (List Text) := do
  let logLevel ← inputValue host "log_level".toList true
  let retryVars ← inputValue host "retry_vars".toList false
  pure (pdeCli host ["retry".toList, option "pipeline_dir".toList (pathText pipelineDir),
    option "log_level".toList (formatValue host logLevel)] ++ optional host "retry_vars".toList retryVars)

/-! ### Handing over -/

def stageXDebug : Program Error State Unit := do
  let s ← Program.read
  if s.files.isDir xDebugDir then
    -- `shutil.rmtree` of something that is not a directory
    Program.check ((s.files xDebugStaging).isSome && !s.files.isDir xDebugStaging) .osError
    Program.update fun s =>
      { s with files := (s.files.remove xDebugStaging).rename xDebugDir xDebugStaging }
  else pure ()

def stagePipelineReports : Program Error State Unit := do
  let s ← Program.read
  if s.files.isFile reportJson then
    Program.check (s.files.isDir reportJsonStaging) .osError
    Program.update fun s => { s with files := s.files.rename reportJson reportJsonStaging }
  else pure ()

def archiveOnce : Program Error State Unit :=
  Program.update fun s => { s with files := host.archive s.files }

def zipXDebug : Program Error State Unit := do
  let s ← Program.read
  if s.files.isDir xDebugStaging then
    Program.check (s.files.isDir xDebugZip) .osError
    Program.update fun s =>
      { s with files := s.files.write xDebugZip (host.makeArchive (s.files.below xDebugStaging)) }
  else pure ()

/-- A file of the upload: the field, the name of the file and its content. -/
abbrev Part := Text × Text × Octets

def disposition (name filename : Text) : Text :=
  "Content-Disposition: form-data; name=\"".toList ++ (name ++ ("\"; filename=\"".toList ++
    (filename ++ "\"".toList)))

def multipartBody (boundary : Text) (files : List Part) : Octets :=
  (files.flatMap fun file =>
    utf8 ("--".toList ++ boundary ++ "\x0d\x0a".toList) ++
      (utf8 (disposition file.1 file.2.1 ++ "\x0d\x0a\x0d\x0a".toList) ++
        (file.2.2 ++ utf8 "\x0d\x0a".toList))) ++
    utf8 ("--".toList ++ boundary ++ "--\x0d\x0a".toList)

def multipartType (boundary : Text) : Text := "multipart/form-data; boundary=".toList ++ boundary

/-- The candidates that are files. -/
def uploadParts (files : FileTree) : List Part :=
  artifactCandidates.filterMap fun candidate =>
    (files.content candidate.2).map fun content => (candidate.1, fileName candidate.2, content)

def uploadArtifacts : Program Error State Int := fun s =>
  match urlOf s.environ JobService.artifactsUrlVar with
  | none => (.ok 1, s)
  | some url =>
      let files := uploadParts s.files
      if files.isEmpty then (.ok 0, s)
      else
        match operatorRequest host url "POST".toList (some (multipartBody host.boundary files))
            (some (multipartType host.boundary)) s with
        | (.ok _, s') => (.ok 0, s')
        | (.error (.request .other), s') => (.error (.request .other), s')
        | (.error _, s') => (.ok 1, s')

def finish : Program Error State Unit := do
  stageXDebug
  stagePipelineReports
  archiveOnce host
  zipXDebug host
  let _ ← uploadArtifacts host
  pure ()

/-- `status in {130, -2, -signal.SIGINT}` -/
def isInterrupt (status : Int) : Bool := status = 130 || status = -2

def runPde (args : List Text) : Program Error State Int := do
  let s ← Program.read
  Program.check (s.files.isDir consoleLog) .osError
  let ran := host.pde args (s.files.write consoleLog [])
  Program.update fun s => { s with files := ran.1 }
  finish host
  pure (if host.interrupted || isInterrupt ran.2 then 143 else ran.2)

/-- What comes before PDE is started: the arguments that it is started with. -/
def prepare (command : Text) : Program Error State (List Text) := do
  exportMountedSecretEnv host
  exportMountedSecretsAtlasConfig host
  let _ ← fetchRunInput host
  if command = "retry".toList then do
    fetchParentState host
    unarchiveOnce host
    pdeRetryArgs host
  else pdeRunArgs host

def main (argv : List Text) : Program Error State Int :=
  match argv with
  | [_, command] =>
      if command = "run".toList ∨ command = "retry".toList then do
        let args ← prepare host command
        runPde host args
      else pure 2
  | _ => pure 2

end JobEntrypoint

/-! ### `JobRuntimeUtils` -/

def entrypointPath (mountPath : Text) : Text :=
  RunService.rstripSlash mountPath ++ "/job-entrypoint.py".toList

def buildContainerCommand (mountPath : Text) (run : Run) : List Text :=
  ["python".toList, entrypointPath mountPath,
    if run.retryOfRunId.isSome then "retry".toList else "run".toList]

end PdeOperator
