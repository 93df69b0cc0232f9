import PdeOperator.JobPrepare
import PdeOperator.RunInputs

/-! From a request to the command line of PDE. The payload that a call stores for its run stays what it
is, whatever other calls come, and the Job of the run starts PDE with what the payload holds. -/

namespace PdeOperator
open Base Multipart

namespace RunStore

variable {settings : Settings} {lib : CallLibrary} {w w' : RunStore}

/-- Every run keeps its payload and the run it is a retry of. -/
def KeepsRuns (w w' : RunStore) : Prop :=
  ∀ id run, w.runs.lookup id = some run →
    (∃ run', w'.runs.lookup id = some run' ∧ run'.retryOfRunId = run.retryOfRunId) ∧
      w'.store.inputs.lookup id = w.store.inputs.lookup id

theorem keepsRuns_insertRun {env : RunEnv} {payload : RunInputPayload} {run : Run}
    (hfresh : Fresh w env.newId) : KeepsRuns w (insertRun settings env payload run w) := by
  intro id found hfound
  have hid : id ≠ env.newId := by
    rintro rfl
    exact absurd (hfresh.1.symm.trans hfound) nofun
  exact ⟨⟨found, (AList.lookup_insert_ne hid).trans hfound, rfl⟩, AList.lookup_insert_ne hid⟩

theorem keepsRuns_saveSchedule {id : Uuid} {payload : RunInputPayload} {row : ScheduledRun}
    (hrun : w.runs.lookup id = none) :
    KeepsRuns w { w with store := ((w.store.storeInput id payload).putSchedule id row).commit } := by
  intro other found hfound
  have hother : other ≠ id := by
    rintro rfl
    exact absurd (hrun.symm.trans hfound) nofun
  exact ⟨⟨found, hfound, rfl⟩, AList.lookup_insert_ne hother⟩

theorem keepsRuns_createRun {env : RunEnv} {request : CreateRunRequest} {triggeredBy : Option Text}
    (hfresh : Fresh w env.newId) (h : createRun settings env request triggeredBy w = .ok w') :
    KeepsRuns w w' := by
  obtain ⟨profile, -, rfl⟩ := createRun_eq_ok h
  exact keepsRuns_insertRun hfresh

/-- A retry inserts its row with the payload of the parent and its own variables. -/
theorem retryRun_eq_ok {env : RunEnv} {runId : Uuid} {request : Option RetryRunRequest}
    (h : retryRun settings env runId request w = .ok w') : ∃ parent profile parentInput,
      w.runs.lookup runId = some parent ∧ w.store.inputs.lookup runId = some parentInput ∧
      w' = insertRun settings env { parentInput with retryVars := retryVars parent request }
        (RunService.retryRun settings env.newId runId parent profile request env.createdAt) w := by
  unfold retryRun at h
  split at h
  · cases h
  · next parent hparent =>
    obtain ⟨_, -, h⟩ := bind_eq_ok.mp h
    split at h
    · cases h
    · split at h
      · cases h
      · next profile _ =>
        split at h
        · cases h
        · next parentInput hinput =>
          split at h
          · cases h
          · exact ⟨parent, profile, parentInput, hparent, hinput, (Except.ok.inj h).symm⟩

theorem keepsRuns_createSchedule {env : CallEnv} {scheduleId : Option Uuid}
    {request : CreateScheduledRunRequest} (hrun : w.runs.lookup (scheduleId.getD env.newId) = none)
    (h : onStore (ScheduleService.createSchedule settings lib.cron lib.adapter env scheduleId request
      w.store) w = .ok w') : KeepsRuns w w' := by
  obtain ⟨store, hcall, rfl⟩ := onStore_eq_ok h
  unfold ScheduleService.createSchedule at hcall
  split at hcall
  · cases hcall
  · obtain ⟨-, -, -, saved, -, rfl⟩ := ScheduleService.storeThenSave_eq_ok.mp hcall
    exact keepsRuns_saveSchedule hrun

theorem keepsRuns_updateSchedule (hagrees : Agrees w) {env : CallEnv} {scheduleId : Uuid}
    {request : UpdateScheduledRunRequest} (h : updateSchedule settings lib env scheduleId request w = .ok w') :
    KeepsRuns w w' := by
  obtain ⟨store, hcall, rfl⟩ := onStore_eq_ok h
  unfold ScheduleService.updateSchedule at hcall
  split at hcall
  · cases hcall
  · next row runRequest hprepared =>
    obtain ⟨-, hrow, -⟩ := ScheduleService.prepareUpdate_eq_ok.mp hprepared
    obtain ⟨-, -, -, saved, -, rfl⟩ := ScheduleService.storeThenSave_eq_ok.mp hcall
    exact keepsRuns_saveSchedule (hagrees.not_run hrow)

theorem keepsRuns_trackRun {runId : Uuid} {run : Run} (h : trackRun runId run w = some w') :
    KeepsRuns w w' := by
  obtain ⟨current, hcurrent, h⟩ := Option.bind_eq_some_iff.mp h
  obtain ⟨_, hsame, h⟩ := Option.bind_eq_some_iff.mp h
  obtain ⟨-, -, hof⟩ := (Option.guard_eq_some' _).mp hsame
  obtain rfl := Option.some.inj h
  intro id found hfound
  refine ⟨?_, rfl⟩
  by_cases hid : id = runId
  · subst hid
    obtain rfl := Option.some.inj (hcurrent.symm.trans hfound)
    exact ⟨run, AList.lookup_insert _, hof⟩
  · exact ⟨found, (AList.lookup_insert_ne hid).trans hfound, rfl⟩

theorem keepsRuns_trackSchedule {scheduleId : Uuid} {row : ScheduledRun}
    (h : trackSchedule scheduleId row w = some w') : KeepsRuns w w' := by
  obtain ⟨current, -, h⟩ := Option.bind_eq_some_iff.mp h
  obtain ⟨_, -, h⟩ := Option.bind_eq_some_iff.mp h
  obtain rfl := Option.some.inj h
  exact fun id found hfound => ⟨⟨found, hfound, rfl⟩, rfl⟩

/-- What one call keeps of the runs that are there. -/
theorem keepsRuns_serve (hagrees : Agrees w) {call : Call} (hfresh : NewIdFresh w call)
    (hspares : SparesRuns w call) (h : serve settings lib w call = some w') : KeepsRuns w w' := by
  cases call with
  | createRun env request => exact keepsRuns_createRun (hfresh _ rfl) (toOption_eq_some.mp h)
  | retryRun env runId request =>
      obtain ⟨_, _, _, -, -, rfl⟩ := retryRun_eq_ok (toOption_eq_some.mp h)
      exact keepsRuns_insertRun (hfresh _ rfl)
  | createRunFromSimpleTemplate env templateId request =>
      have hcall := toOption_eq_some.mp h
      unfold createRunFromSimpleTemplate at hcall
      split at hcall
      · cases hcall
      · split at hcall
        · cases hcall
        · exact keepsRuns_createRun (hfresh _ rfl) hcall
  | createRunFromDeclarativeTemplate env templateId values =>
      have hcall := toOption_eq_some.mp h
      unfold createRunFromDeclarativeTemplate at hcall
      split at hcall
      · cases hcall
      · split at hcall
        · cases hcall
        · obtain ⟨request, -, hcall⟩ := bind_eq_ok.mp hcall
          exact keepsRuns_createRun (hfresh _ rfl) hcall
  | createSchedule env request =>
      have hrun : w.runs.lookup ((none : Option Uuid).getD env.newId) = none := (hfresh _ rfl).1
      exact keepsRuns_createSchedule hrun (toOption_eq_some.mp h)
  | updateSchedule env scheduleId request =>
      exact keepsRuns_updateSchedule hagrees (toOption_eq_some.mp h)
  | fire env scheduleId =>
      have hcall := toOption_eq_some.mp h
      unfold fire at hcall
      split at hcall
      · cases hcall
      · split at hcall
        · cases hcall
        · obtain ⟨fired, hfired, hcall⟩ := bind_eq_ok.mp hcall
          obtain rfl := Except.ok.inj hcall
          have hkeeps : KeepsRuns w fired := keepsRuns_createRun (hfresh _ rfl) hfired
          exact hkeeps
  | upsertSchedule env request =>
      have hcall := toOption_eq_some.mp h
      unfold upsertSchedule at hcall
      split at hcall
      · split at hcall
        · cases hcall
        · exact keepsRuns_updateSchedule hagrees hcall
      · split at hcall
        · cases hcall
        · refine keepsRuns_createSchedule ?_ hcall
          cases hid : request.id with
          | none => exact (hfresh env.newId (by simp [newId, hid])).1
          | some id => exact hspares id hid
  | upsertOthers profiles templates =>
      obtain rfl := Option.some.inj h
      exact fun id found hfound => ⟨⟨found, hfound, rfl⟩, rfl⟩
  | trackRun runId run => exact keepsRuns_trackRun h
  | trackSchedule scheduleId row => exact keepsRuns_trackSchedule h

/-- A run, what it is a retry of, and what is stored for it. -/
structure Holds (w : RunStore) (id : Uuid) (payload : RunInputPayload) (parent : Option Uuid) : Prop where
  row : ∃ run, w.runs.lookup id = some run ∧ run.retryOfRunId = parent
  payload : w.store.inputs.lookup id = some payload

theorem Holds.keep {id : Uuid} {payload : RunInputPayload} {parent : Option Uuid}
    (h : Holds w id payload parent) (hkeeps : KeepsRuns w w') : Holds w' id payload parent := by
  obtain ⟨run, hrun, hparent⟩ := h.row
  obtain ⟨⟨run', hrun', hparent'⟩, hinput⟩ := hkeeps id run hrun
  exact ⟨⟨run', hrun', hparent'.trans hparent⟩, hinput.trans h.payload⟩

/-- The calls that the server promises: new ids are new, and no schedule is imported under the id of a
run. -/
def Served (w : RunStore) (call : Call) : Prop := NewIdFresh w call ∧ SparesRuns w call

instance decidableServed (w : RunStore) (call : Call) : Decidable (Served w call) :=
  inferInstanceAs (Decidable (_ ∧ _))

theorem holds_exec {w : RunStore} {calls : List Call} (hagrees : Agrees w)
    (hcalls : (system settings lib).Meets Served w calls) (hexec : (system settings lib).exec w calls = some w')
    {id : Uuid} {payload : RunInputPayload} {parent : Option Uuid} (h : Holds w id payload parent) :
    Holds w' id payload parent := by
  have hinv := System.exec_invariant (I := fun w => Agrees w ∧ Holds w id payload parent)
    (fun hi hok hstep => ⟨hi.1.serve hok.1 hok.2 hstep, hi.2.keep (keepsRuns_serve hi.1 hok.1 hok.2 hstep)⟩)
    ⟨hagrees, h⟩ hcalls hexec
  exact hinv.2

/-- A run keeps the payload of the call that has created it. -/
theorem holds_created {start : RunStore} {before after : List Call} (hstart : Start start) {env : RunEnv}
    {request : CreateRunRequest}
    (hcalls : (system settings lib).Meets Served start (before ++ .createRun env request :: after))
    (hexec : (system settings lib).exec start (before ++ .createRun env request :: after) = some w) :
    Holds w env.newId (RunInputPayload.fromCreateRequest request) none := by
  obtain ⟨u, hbefore, hrest⟩ := ((system settings lib).exec_append_eq_some).mp hexec
  obtain ⟨v, hcall, hafter⟩ := ((system settings lib).exec_cons_eq_some).mp hrest
  obtain ⟨⟨hfresh, hspares⟩, hmeets⟩ := hcalls.append_right hbefore
  have hu : Agrees u := System.exec_invariant
    (fun hagrees hok hstep => hagrees.serve hok.1 hok.2 hstep) hstart.agrees hcalls.append_left hbefore
  have hv : Agrees v := @Agrees.serve settings lib u v hu _ hfresh hspares hcall
  obtain ⟨profile, -, rfl⟩ := createRun_eq_ok (toOption_eq_some.mp hcall)
  refine holds_exec hv (hmeets _ hcall) hafter ⟨⟨_, AList.lookup_insert _, ?_⟩, AList.lookup_insert _⟩
  unfold started
  split <;> rfl

end RunStore

/-! ### A Job and its operator -/

namespace JobEntrypoint
open JobServer
open Api (OperatorState)

/-- The wrapper reaches the operator: each request is answered by the operator as it is at that moment, and
a `200` gives its body to the wrapper. -/
structure Connected (host : Host) (operator : Operator) (states : Nat → OperatorState)
    (moments : Nat → Moment) : Prop where
  answer : ∀ n request, (serve operator (moments n) request (states n)).1.status = 200 →
    host.answer n request = .ok (operator.render (serve operator (moments n) request (states n)).1.body)
  bytes : ∀ content, operator.render (.bytes content) = content

/-- The container of the Job of a run, before the wrapper starts. -/
structure Container (operator : Operator) (id : Uuid) (run : Run) (profile : Profile) (minted : Int)
    (s : State) : Prop where
  environ : ∀ name value, (name, value) ∈ JobService.buildEnv operator.jobs operator.settings id run profile
    minted → s.environ.lookup name = some value
  runInput : s.runInput = none
  requests : s.requests = []

variable {host : Host} {operator : Operator} {states : Nat → OperatorState} {moments : Nat → Moment}
  {id : Uuid} {run : Run} {profile : Profile} {minted : Int} {s : State} {payload : RunInputPayload}

theorem Container.lookup (h : Container operator id run profile minted s) {name value : Text}
    (hvalue : (JobService.mergedEnv operator.jobs operator.settings id run profile minted).lookup name =
      some value) : s.environ.lookup name = some value :=
  h.environ name value (JobService.mem_buildEnv_iff.mpr hvalue)

theorem runUrl_ne_nil (settings : Settings) (id : Uuid) (ask : Ask) : runUrl settings id ask ≠ [] := by
  simp [runUrl]

/-- A request that is made with the environment of the Job carries its token. -/
theorem fromJob_requestOf {environ : EnvUtils.Env} {about : Uuid} {ask : Ask} {data : Option Octets}
    {contentType : Option Text} (htoken : environ.lookup JobService.tokenVar =
      some (JobService.jobToken operator.jobs operator.settings id run minted)) :
    FromJob operator id run minted about ask
      (requestOf environ (runUrl operator.settings about ask) ask.method data contentType) where
  url := rfl
  method := rfl
  authorization := by rw [requestOf, htoken, Option.getD_some]

/-- The row of the run is there, and so is its payload, which the wrapper reads from the response. -/
structure Reads (host : Host) (operator : Operator) (moment : Moment) (s : OperatorState) (id : Uuid)
    (payload : RunInputPayload) : Prop where
  row : ∃ run, s.runs.lookup id = some run
  object : ∃ object, s.objects.lookup (Api.inputKey id) = some object ∧
    Api.openInput operator.reads object = .ok payload
  database : moment.outage.database = false
  storage : moment.outage.object (Api.inputKey id) = false
  json : host.jsonLoads (operator.render (.json (.obj (Api.runInput payload)))) =
    some (.obj (Api.runInput payload))

theorem answer_input {moment : Moment} {s : OperatorState} (h : Reads host operator moment s id payload) :
    Api.answer operator.reads moment.outage s (.getRunInput id) = Api.ok (.obj (Api.runInput payload)) := by
  obtain ⟨row, hrow⟩ := h.row
  obtain ⟨object, hobject, hopen⟩ := h.object
  have hload : Api.loadInput operator.reads moment.outage s id = .ok payload := by
    rw [Api.loadInput, Api.getObject, h.storage, if_neg Bool.false_ne_true, hobject]
    exact hopen
  simp only [Api.answer, Api.Endpoint.usesDatabase, h.database, Bool.and_false, Api.getRunInput, hrow, hload]
  rfl

/-- After the secrets the wrapper reads the input of its run. -/
theorem prepare_input (hapart : SecretsApart host) (hconnected : Connected host operator states moments)
    (hdeployed : Deployed operator id run minted) (hintime : InTime operator minted (moments 0))
    (hcontainer : Container operator id run profile minted s)
    (hreads : Reads host operator (moments 0) (states 0) id payload) :
    ∃ s', s'.runInput = some (Api.runInput payload) ∧ s'.files = s.files ∧ s'.requests.length = 1 ∧
      (∀ name ∈ operatorVars, s'.environ.lookup name = s.environ.lookup name) ∧
      ∀ {β : Type} (f : JsonObject → Program Error State β),
        (do exportMountedSecretEnv host; exportMountedSecretsAtlasConfig host
            let payload ← fetchRunInput host; f payload) s = f (Api.runInput payload) s' := by
  obtain ⟨s₁, hfirst, hexported⟩ := exportMountedSecretEnv_ok hapart s
  obtain ⟨s₂, hsecond, hexported'⟩ := exportMountedSecretsAtlasConfig_ok hapart s₁
  have hall := hexported.trans hexported'
  have htoken : s₂.environ.lookup JobService.tokenVar =
      some (JobService.jobToken operator.jobs operator.settings id run minted) := by
    rw [hall.environ _ (by decide), hcontainer.lookup JobService.lookup_tokenVar]
  have hurl : urlOf s₂.environ JobService.inputUrlVar = some (runUrl operator.settings id .input) := by
    refine urlOf_eq ?_ (runUrl_ne_nil _ _ _)
    rw [hall.environ _ (by decide), hcontainer.lookup JobService.lookup_inputUrlVar]
    rfl
  have hnone : s₂.requests.length = 0 := by rw [hall.requests, hcontainer.requests]; rfl
  let request := requestOf s₂.environ (runUrl operator.settings id .input) "GET".toList none none
  have hrequest : FromJob operator id run minted id .input request := fromJob_requestOf htoken
  have hserve : serve operator (moments 0) request (states 0) =
      (Api.ok (.obj (Api.runInput payload)), states 0) := by
    rw [serve_input hdeployed hintime hrequest, answer_input hreads]
  have hanswer := hconnected.answer 0 request (by rw [hserve]; rfl)
  rw [hserve, ← hnone] at hanswer
  have hfetch := fetchRunInput_ok (hall.runInput.trans hcontainer.runInput) hurl hanswer
    hreads.json
  refine ⟨{ s₂ with runInput := some (Api.runInput payload), requests := s₂.requests ++ [request] },
    rfl, hall.files, ?_, hall.environ, fun f => ?_⟩
  · show (s₂.requests ++ [request]).length = 1
    rw [List.length_append, hnone]
    rfl
  · rw [Program.bind_ok hfirst, Program.bind_ok hsecond, Program.bind_ok hfetch]

/-- The Job of a run starts PDE with what is stored for the run. -/
theorem prepare_run (hapart : SecretsApart host) (hconnected : Connected host operator states moments)
    (hdeployed : Deployed operator id run minted) (hintime : InTime operator minted (moments 0))
    (hcontainer : Container operator id run profile minted s)
    (hreads : Reads host operator (moments 0) (states 0) id payload) :
    ∃ s', prepare host "run".toList s = (.ok (runCommand host payload), s') ∧ s'.files = s.files ∧
      s'.requests.length = 1 ∧
      ∀ name ∈ operatorVars, s'.environ.lookup name = s.environ.lookup name := by
  obtain ⟨s', hinput, hfiles, hrequests, henviron, hprepare⟩ :=
    prepare_input hapart hconnected hdeployed hintime hcontainer hreads
  have hmode : "run".toList ≠ "retry".toList := by decide
  refine ⟨s', (hprepare _).trans ?_, hfiles, hrequests, henviron⟩
  rw [if_neg hmode, pdeRunArgs_eq hinput]

/-- PyJWT on the token of one run, valid from 0 to 60. -/
def sampleJobs (id : Uuid) (parent : Option Uuid) : JobLibrary where
  jwtEncode _ _ := "header.claims.signature".toList
  jwtDecode key now token :=
    if key = "key".toList ∧ token = "header.claims.signature".toList ∧ 0 ≤ now ∧ now < 60 then
      some (runClaims id parent 60 0)
    else none
  uuid := Uuid.ofText
  str
    | .str text => text
    | _ => []
  jsonDumps _ := "[]".toList

def sampleSettings : Settings where
  jobTokenSigningKey := "key".toList
  jobTokenTtlSeconds := 60

theorem isPlainPath_sampleSettings : Api.IsPlainPath sampleSettings.apiPrefix :=
  ⟨⟨"api/v1".toList, rfl⟩, by decide⟩

/-- The framework as it treats the header and the paths of a Job. -/
def sampleWeb : Api.WebLibrary where
  bearer := Option.map fun header => header.drop "Bearer ".length
  route method path :=
    let below := path.drop (Api.runPath sampleSettings.apiPrefix [] []).dropLast.length
    match [Ask.input, .parentState, .upload].find? fun ask =>
        ask.method = method ∧ below.drop 36 = '/' :: ask.tail with
    | some ask => .route ask.route (ask.params (below.take 36))
    | none => .notFound

theorem route_sampleWeb (about : Uuid) (ask : Ask) :
    sampleWeb.route ask.method (Api.runPath sampleSettings.apiPrefix (Uuid.str about) ask.tail) =
      .route ask.route (ask.params (Uuid.str about)) := by
  have hbelow : (Api.runPath sampleSettings.apiPrefix (Uuid.str about) ask.tail).drop
      (Api.runPath sampleSettings.apiPrefix [] []).dropLast.length = Uuid.str about ++ '/' :: ask.tail := rfl
  have htake : (Uuid.str about ++ '/' :: ask.tail).take 36 = Uuid.str about :=
    List.take_left' (Uuid.length_str about)
  have hdrop : (Uuid.str about ++ '/' :: ask.tail).drop 36 = '/' :: ask.tail :=
    List.drop_left' (Uuid.length_str about)
  simp only [sampleWeb, hbelow, htake, hdrop]
  cases ask <;> rfl

/-- An operator whose storage holds one payload; it reads forms as they are framed. -/
def sampleOperator (id : Uuid) (parent : Option Uuid) (payload : RunInputPayload) : Operator where
  settings := sampleSettings
  web := sampleWeb
  jobs := sampleJobs id parent
  parameters :=
    { uuid := fun text => (Uuid.ofText text).elim (.error .null) .ok
      page := fun _ => .error .null
      runsQuery := fun _ => .error .null
      runTemplatesQuery := fun _ => .error .null
      schedulesQuery := fun _ => .error .null }
  reads :=
    { decrypt := some
      parsePayload := fun _ => some payload
      isoFormat := fun _ => []
      ilike := fun _ _ => false
      textLE := fun a b => decide (a ≤ b)
      jsonText := fun _ => []
      availableTimezones := [] }
  parsers := { fromIsoFormat := fun _ => none, jsonLoads := fun _ => none }
  readForm contentType body := Multipart.readForm (utf8 (contentType.drop (multipartType []).length)) body
  render
    | .bytes content => content
    | _ => []
  otherWrites _ s := (Api.internalServerError, s)
  mcp _ s := (Api.internalServerError, s)

theorem deployed_sampleOperator {id : Uuid} {payload : RunInputPayload} {run : Run} :
    Deployed (sampleOperator id run.retryOfRunId payload) id run 0 where
  verifies :=
    { uuid_str := Uuid.ofText_str
      str_str := fun _ => rfl
      decode_encode := fun now hminted hexpires => if_pos ⟨rfl, rfl, hminted, hexpires⟩ }
  token_ne_nil := List.cons_ne_nil _ _
  token_ne_admin := List.cons_ne_nil _ _
  origin := ⟨"http".toList, "host.minikube.internal:8000".toList, 0, rfl, by decide, by decide, by decide⟩
  plain := isPlainPath_sampleSettings
  bearer := rfl
  routes about ask _ := route_sampleWeb about ask
  uuid about := by
    simp only [sampleOperator, Uuid.ofText_str]
    rfl

theorem inTime_sampleOperator {id : Uuid} {parent : Option Uuid} {payload : RunInputPayload} :
    InTime (sampleOperator id parent payload) 0 { time := 0, now := 0 } := by
  have hvalid : (0 : Int) < 0 + max 60 60 := by decide
  exact ⟨le_refl _, hvalid⟩

/-- A host without secrets, whose requests the operator answers in the same state at each moment; PDE
changes nothing and the archive is what `archive` makes of the workspace. -/
def sampleHost (operator : Operator) (state : OperatorState) (payload : RunInputPayload) : Host where
  executable := "/usr/bin/python".toList
  pde _ files := (files, 0)
  archive files := files.write pipelineDirZip [1]
  unarchive files := some files
  makeArchive _ := [2]
  answer _ request :=
    let answer := (serve operator { time := 0, now := 0 } request state).1
    if answer.status = 200 then .ok (operator.render answer.body) else .error .httpError
  interrupted := false
  jsonLoads _ := some (.obj (Api.runInput payload))
  str _ := []
  mounted _ := []
  readText _ := none
  safeDump _ := []
  sops _ _ := none
  boundary := "0a1b".toList

theorem secretsApart_sampleHost {state : OperatorState} : SecretsApart (sampleHost operator state payload) where
  name _ _ hfile := absurd hfile List.not_mem_nil
  text _ _ hfile := absurd hfile List.not_mem_nil
  sops _ _ _ h := by cases h

theorem connected_sampleHost {state : OperatorState}
    (hbytes : ∀ content, operator.render (.bytes content) = content) :
    Connected (sampleHost operator state payload) operator (fun _ => state)
      fun _ => { time := 0, now := 0 } where
  answer _ _ hstatus := if_pos hstatus
  bytes := hbytes

/-- The container of a Job, with nothing in its workspace. -/
def sampleContainer (operator : Operator) (id : Uuid) (run : Run) (profile : Profile) : State where
  environ := JobService.mergedEnv operator.jobs operator.settings id run profile 0
  files := fun _ => none

theorem container_sampleContainer :
    Container operator id run profile 0 (sampleContainer operator id run profile) where
  environ _ _ h := JobService.mem_buildEnv_iff.mp h
  runInput := rfl
  requests := rfl

/-- The storage of the operator: the row of a run, and an object for its payload. -/
def sampleState (id : Uuid) (run : Run) : OperatorState where
  runs := AList.insert id run ∅
  db := { profiles := ∅, templates := ∅, schedules := ∅ }
  objects := AList.insert (Api.inputKey id) { body := [], contentType := none, contentLength := none } ∅

end JobEntrypoint
end PdeOperator
