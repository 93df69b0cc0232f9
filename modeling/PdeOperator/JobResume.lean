import PdeOperator.JobHandover

/-! The whole of a Job, and the Job of a retry after it. What the Job of a run has handed over is stored by
the operator, and the Job of a retry of that run starts PDE on the very pipeline directory that PDE has
left. -/

namespace PdeOperator
open Base Multipart

namespace JobEntrypoint
open JobServer
open Api (OperatorState)

variable {host : Host} {operator : Operator} {states : Nat → OperatorState} {moments : Nat → Moment}
  {id : Uuid} {run row : Run} {profile : Profile} {minted : Int} {s s₁ : State} {command : Text}
  {args : List Text} {pack : FileTree → Octets}

section Environ

variable {environ : EnvUtils.Env}

/-- A program that leaves the environment as it is. -/
def KeepsEnviron {α : Type} (program : Program Error State α) : Prop :=
  ∀ environ, program.Keeps fun s => s.environ = environ

theorem keepsEnviron_raise {α : Type} (e : Error) : KeepsEnviron (Program.raise e : Program Error State α) :=
  fun _ _ h => h

theorem keepsEnviron_pure {α : Type} (a : α) : KeepsEnviron (pure a : Program Error State α) := fun _ _ h => h

theorem keepsEnviron_read : KeepsEnviron Program.read := fun _ _ h => h

theorem keepsEnviron_update {f : State → State} (hf : ∀ s, (f s).environ = s.environ) :
    KeepsEnviron (Program.update f) :=
  fun _ => Program.keeps_update fun s h => (hf s).trans h

theorem KeepsEnviron.bind {α β : Type} {program : Program Error State α} {f : α → Program Error State β}
    (hprogram : KeepsEnviron program) (hf : ∀ a, KeepsEnviron (f a)) : KeepsEnviron (program >>= f) :=
  fun environ => (hprogram environ).bind fun a => hf a environ

variable (host)

theorem keepsEnviron_operatorRequest (url method : Text) (data : Option Octets) (contentType : Option Text) :
    KeepsEnviron (operatorRequest host url method data contentType) := fun _ _ h => h

theorem keepsEnviron_fetchRunInput : KeepsEnviron (fetchRunInput host) := by
  refine keepsEnviron_read.bind fun s => ?_
  split
  · exact keepsEnviron_pure _
  · split
    · exact keepsEnviron_raise _
    · refine (keepsEnviron_operatorRequest host _ _ _ _).bind fun body => ?_
      split
      · exact keepsEnviron_raise _
      · refine KeepsEnviron.bind ?_ fun _ => keepsEnviron_pure _
        exact keepsEnviron_update fun _ => rfl
      · exact keepsEnviron_raise _

theorem keepsEnviron_inputValue (name : Text) (required : Bool) :
    KeepsEnviron (inputValue host name required) := by
  refine (keepsEnviron_fetchRunInput host).bind fun payload => ?_
  split
  · split
    · exact keepsEnviron_raise _
    · exact keepsEnviron_pure _
  · exact keepsEnviron_pure _

theorem keepsEnviron_fetchParentState : KeepsEnviron (fetchParentState host) := by
  refine keepsEnviron_read.bind fun s => ?_
  split
  · exact keepsEnviron_raise _
  · exact (keepsEnviron_operatorRequest host _ _ _ _).bind fun _ => keepsEnviron_update fun _ => rfl

theorem keepsEnviron_unarchiveOnce : KeepsEnviron (unarchiveOnce host) := by
  refine keepsEnviron_read.bind fun s => ?_
  split
  · exact keepsEnviron_raise _
  · exact keepsEnviron_update fun _ => rfl

theorem keepsEnviron_pdeRunArgs : KeepsEnviron (pdeRunArgs host) :=
  (keepsEnviron_inputValue host _ _).bind fun _ => (keepsEnviron_inputValue host _ _).bind fun _ =>
    (keepsEnviron_inputValue host _ _).bind fun _ => (keepsEnviron_inputValue host _ _).bind fun _ =>
      (keepsEnviron_inputValue host _ _).bind fun _ => keepsEnviron_pure _

theorem keepsEnviron_pdeRetryArgs : KeepsEnviron (pdeRetryArgs host) :=
  (keepsEnviron_inputValue host _ _).bind fun _ => (keepsEnviron_inputValue host _ _).bind fun _ =>
    keepsEnviron_pure _

variable {host}

/-- Whatever the mode, the variables of the operator are there when PDE is started. -/
theorem prepare_environ (hapart : SecretsApart host) (h : prepare host command s = (.ok args, s₁)) :
    ∀ name ∈ operatorVars, s₁.environ.lookup name = s.environ.lookup name := by
  obtain ⟨s', hfirst, hexported⟩ := exportMountedSecretEnv_ok hapart s
  obtain ⟨s'', hsecond, hexported'⟩ := exportMountedSecretsAtlasConfig_ok hapart s'
  have hrest : KeepsEnviron (fetchRunInput host >>= fun _ =>
      if command = "retry".toList then do
        fetchParentState host
        unarchiveOnce host
        pdeRetryArgs host
      else pdeRunArgs host) := by
    refine (keepsEnviron_fetchRunInput host).bind fun _ => ?_
    split
    · exact (keepsEnviron_fetchParentState host).bind fun _ =>
        (keepsEnviron_unarchiveOnce host).bind fun _ => keepsEnviron_pdeRetryArgs host
    · exact keepsEnviron_pdeRunArgs host
  have hkept := hrest s''.environ s'' rfl
  rw [prepare, Program.bind_ok hfirst, Program.bind_ok hsecond] at h
  rw [h] at hkept
  intro name hname
  rw [hkept]
  exact (hexported.trans hexported').environ name hname

end Environ

/-- A Job of a run that is able to do its work: it reaches its operator while its token is valid, its
secrets leave its environment alone, and its container is as the operator has set it up. -/
structure Works (host : Host) (operator : Operator) (states : Nat → OperatorState) (moments : Nat → Moment)
    (id : Uuid) (run : Run) (profile : Profile) (minted : Int) (s : State) : Prop where
  apart : SecretsApart host
  connected : Connected host operator states moments
  deployed : Deployed operator id run minted
  inTime : ∀ n, InTime operator minted (moments n)
  container : Container operator id run profile minted s

/-- PDE is started with an empty log. -/
def ran (host : Host) (args : List Text) (files : FileTree) : FileTree × Int :=
  host.pde args (files.write consoleLog [])

/-- The exit code of the wrapper for the status of PDE. -/
def exitCode (host : Host) (status : Int) : Int :=
  if host.interrupted || isInterrupt status then 143 else status

/-- What the wrapper does once it is prepared, in both modes. -/
theorem main_delivers (hworks : Works host operator states moments id run profile minted s)
    (hforms : ReadsForms operator) (hmode : command = "run".toList ∨ command = "retry".toList)
    (hprepare : prepare host command s = (.ok args, s₁)) (hlog : s₁.files.isDir consoleLog = false)
    (hhands : HandsOver host pack (ran host args s₁.files).1)
    (htakes : Takes (moments s₁.requests.length) (states s₁.requests.length) id row) (script : Text) :
    ∃ request s', main host [script, command] s = (.ok (exitCode host (ran host args s₁.files).2), s') ∧
      s'.requests = s₁.requests ++ [request] ∧
      Stored operator (moments s₁.requests.length) id row
        (nonEmpty (handedOver host pack (ran host args s₁.files).1)) (states s₁.requests.length)
        (serve operator (moments s₁.requests.length) request (states s₁.requests.length)).2 := by
  have henviron := prepare_environ hworks.apart hprepare
  have hurl : s₁.environ.lookup JobService.artifactsUrlVar =
      some (JobService.artifactsUrl operator.settings id) := by
    rw [henviron _ (by decide), hworks.container.lookup JobService.lookup_artifactsUrlVar]
  have htoken : s₁.environ.lookup JobService.tokenVar =
      some (JobService.jobToken operator.jobs operator.settings id run minted) := by
    rw [henviron _ (by decide), hworks.container.lookup JobService.lookup_tokenVar]
  let left : State := { s₁ with files := (ran host args s₁.files).1 }
  obtain ⟨request, s', hfinish, hrequests, hstored⟩ :=
    @finish_delivers host operator states moments id run minted left pack hhands hforms hworks.connected
      hworks.deployed (hworks.inTime _) hurl htoken row htakes
  refine ⟨request, s', ?_, hrequests, hstored⟩
  have hrun : runPde host args s₁ = (.ok (exitCode host (ran host args s₁.files).2), s') := by
    rw [runPde, Program.read_bind, Program.check_bind, hlog, if_neg Bool.false_ne_true, Program.update_bind]
    exact Program.bind_ok hfinish
  rw [main, if_pos hmode, Program.bind_ok hprepare, hrun]

/-- The kind as the API reads it. -/
def apiKind : ArtifactKind → Api.ArtifactKind
  | .state => .state
  | .log => .log
  | .xDebug => .xDebug
  | .report => .report

theorem artifactKey_apiKind (id : Uuid) (kind : ArtifactKind) :
    Api.artifactKey id (apiKind kind) = artifactKey id kind := by
  cases kind <;> rfl

theorem parse_value (kind : Api.ArtifactKind) : Api.ArtifactKind.parse kind.value = some kind := by
  cases kind <;> rfl

/-- An artifact can be read: the row of its run is there, and so is its object. -/
structure Readable (outage : Api.Outage) (s : OperatorState) (id : Uuid) (kind : ArtifactKind)
    (data : Octets) : Prop where
  row : ∃ row, s.runs.lookup id = some row
  object : s.objects.lookup (artifactKey id kind) = some (storedArtifact kind data)
  database : outage.database = false
  storage : outage.object (artifactKey id kind) = false

/-- A download answers with the bytes of the object. -/
structure Downloads (answer : Api.Answer) (data : Octets) : Prop where
  status : answer.status = 200
  body : answer.body = .bytes data

theorem downloads_of_readable {lib : Api.ReadLibrary} {outage : Api.Outage} {s : OperatorState}
    {kind : ArtifactKind} {data : Octets} (h : Readable outage s id kind data) :
    Downloads (Api.answer lib outage s (.downloadArtifact id (apiKind kind).value)) data := by
  obtain ⟨row, hrow⟩ := h.row
  have hget : Api.getObject outage s (Api.artifactKey id (apiKind kind)) = .ok (storedArtifact kind data) := by
    rw [artifactKey_apiKind, Api.getObject, h.storage, if_neg Bool.false_ne_true, h.object]
  have hanswer : Api.answer lib outage s (.downloadArtifact id (apiKind kind).value) =
      Api.downloadArtifact outage s id (apiKind kind).value := by
    rw [Api.answer, h.database, Bool.and_false, if_neg Bool.false_ne_true]
  rw [hanswer]
  unfold Api.downloadArtifact
  rw [parse_value]
  dsimp only
  rw [hrow]
  dsimp only
  rw [hget]
  exact ⟨rfl, rfl⟩

/-- In both modes, once PDE has been started the wrapper uploads what PDE leaves in the workspace, whatever
the status of PDE, and exits with that status, or with 143 for one of a signal. Right after the upload the
operator answers the download of an artifact that is not empty with the very bytes that the Job has handed
over, its run is as the upload leaves it, and nothing of another run has changed. -/
theorem job_delivers (hworks : Works host operator states moments id run profile minted s)
    (hforms : ReadsForms operator) (hmode : command = "run".toList ∨ command = "retry".toList)
    (hprepare : prepare host command s = (.ok args, s₁)) (hlog : s₁.files.isDir consoleLog = false)
    (hhands : HandsOver host pack (ran host args s₁.files).1)
    (htakes : Takes (moments s₁.requests.length) (states s₁.requests.length) id row) (script : Text) :
    ∃ request s', main host [script, command] s = (.ok (exitCode host (ran host args s₁.files).2), s') ∧
      s'.requests = s₁.requests ++ [request] ∧
      let after := (serve operator (moments s₁.requests.length) request (states s₁.requests.length)).2
      after.runs.lookup id = some (RunService.uploadArtifacts operator.parsers
        (moments s₁.requests.length).now id (nonEmpty (handedOver host pack (ran host args s₁.files).1)) row) ∧
      (∀ other, other ≠ id →
        after.runs.lookup other = (states s₁.requests.length).runs.lookup other) ∧
      (∀ key, (∀ kind, key ≠ artifactKey id kind) →
        after.objects.lookup key = (states s₁.requests.length).objects.lookup key) ∧
      ∀ kind data, part (handedOver host pack (ran host args s₁.files).1) kind = some data → data ≠ [] →
        Downloads (Api.answer operator.reads {} after (.downloadArtifact id (apiKind kind).value)) data := by
  obtain ⟨request, s', hmain, hrequests, hstored⟩ :=
    main_delivers hworks hforms hmode hprepare hlog hhands htakes script
  refine ⟨request, s', hmain, hrequests, hstored.row, hstored.runs,
    fun key hkey => hstored.objects.others key fun kind _ _ => hkey kind, fun kind data hdata hne => ?_⟩
  have hpart : part (nonEmpty (handedOver host pack (ran host args s₁.files).1)) kind = some data := by
    have hfull : (!data.isEmpty) = true := by simpa using hne
    rw [part_nonEmpty]
    exact Option.filter_eq_some_iff.mpr ⟨hdata, hfull⟩
  exact downloads_of_readable
    ⟨⟨_, hstored.row⟩, hstored.objects.stored kind (by cases kind <;> decide) data hpart, rfl, rfl⟩

/-! ### The Job of a retry -/

variable {parent : Uuid} {payload : RunInputPayload}

/-- `pde unarchive` finds in the archive the tree that was packed into it. -/
def Unpacks (host : Host) (archive : Octets) (tree : FileTree) : Prop :=
  ∀ files : FileTree, files.content pipelineDirZip = some archive →
    ∃ files', host.unarchive files = some files' ∧ files'.below pipelineDir = tree

theorem prepare_retry (hworks : Works host operator states moments id run profile minted s)
    (hreads : Reads host operator (moments 0) (states 0) id payload)
    (hparent : run.retryOfRunId = some parent) {data : Octets}
    (hkept : Readable (moments 1).outage (states 1) parent .state data) {tree : FileTree}
    (hunpacks : Unpacks host data tree) :
    ∃ s', prepare host "retry".toList s = (.ok (retryCommand host payload), s') ∧
      s'.files.below pipelineDir = tree := by
  obtain ⟨s', hinput, -, hlength, henviron, hprepare⟩ := prepare_input hworks.apart hworks.connected
    hworks.deployed (hworks.inTime 0) hworks.container hreads
  have htoken : s'.environ.lookup JobService.tokenVar =
      some (JobService.jobToken operator.jobs operator.settings id run minted) := by
    rw [henviron _ (by decide), hworks.container.lookup JobService.lookup_tokenVar]
  have hurl : urlOf s'.environ JobService.parentStateUrlVar =
      some (runUrl operator.settings parent .parentState) := by
    refine urlOf_eq ?_ (runUrl_ne_nil _ _ _)
    rw [henviron _ (by decide), hworks.container.lookup (JobService.lookup_parentStateUrlVar hparent)]
    rfl
  let request := requestOf s'.environ (runUrl operator.settings parent .parentState) "GET".toList none none
  have hrequest : FromJob operator id run minted parent .parentState request := fromJob_requestOf htoken
  have hdownloads : Downloads (Api.answer operator.reads (moments 1).outage (states 1)
    (.downloadArtifact parent "state".toList)) data := downloads_of_readable hkept
  have hserve := @serve_parentState operator id run minted (moments 1) (states 1) hworks.deployed
    (hworks.inTime 1) parent hparent request hrequest
  have hanswer := hworks.connected.answer 1 request (by rw [hserve]; exact hdownloads.status)
  rw [hserve, hdownloads.body, hworks.connected.bytes, ← hlength] at hanswer
  let fetched : State :=
    { s' with files := s'.files.write pipelineDirZip data, requests := s'.requests ++ [request] }
  have hfetch : fetchParentState host s' = (.ok (), fetched) := by
    rw [fetchParentState, Program.read_bind, hurl]
    dsimp only
    rw [Program.bind_ok (operatorRequest_ok hanswer)]
    rfl
  obtain ⟨files, hunarchive, hbelow⟩ := hunpacks fetched.files FileTree.content_write_self
  have hopened : unarchiveOnce host fetched = (.ok (), { fetched with files }) := by
    rw [unarchiveOnce, Program.read_bind, hunarchive]
    rfl
  have hargs : pdeRetryArgs host { fetched with files } =
      (.ok (retryCommand host payload), { fetched with files }) := pdeRetryArgs_eq hinput
  refine ⟨{ fetched with files }, ?_, hbelow⟩
  have hmode := hprepare fun _ => if "retry".toList = "retry".toList then do
      fetchParentState host
      unarchiveOnce host
      pdeRetryArgs host
    else pdeRunArgs host
  rw [prepare, hmode, if_pos rfl, Program.bind_ok hfetch, Program.bind_ok hopened, hargs]

section Sample

variable {state : OperatorState} {parent : Option Uuid}

theorem readsForms_sampleOperator : ReadsForms (sampleOperator id parent payload) := by
  intro boundary files hboundary hplain hapart
  have hdrop : (multipartType boundary).drop (multipartType []).length = boundary := List.drop_left
  show readForm (utf8 ((multipartType boundary).drop (multipartType []).length)) _ = some files
  rw [hdrop]
  exact readForm_encapsulate hboundary hplain hapart

/-- PDE fails with status 3 in an empty pipeline directory, and `unarchive` finds an empty directory. -/
def failingHost (operator : Operator) (state : OperatorState) (payload : RunInputPayload) : Host :=
  { sampleHost operator state payload with
    pde := fun _ files => (files.graft pipelineDir fun p => if p = [] then some .dir else none, 3)
    unarchive := fun files => some (files.graft pipelineDir fun p => if p = [] then some .dir else none) }

/-- What PDE has left on that host. -/
def failedFiles : FileTree :=
  FileTree.graft (FileTree.write (fun _ => none) consoleLog []) pipelineDir fun p =>
    if p = [] then some .dir else none

theorem handsOver_failingHost : HandsOver (failingHost operator state payload) (fun _ => [1]) failedFiles where
  packs _ _ := rfl
  dir := by decide
  clear := by constructor <;> decide
  zip := List.cons_ne_nil _ _
  boundary := (by decide : 13 ∉ utf8 "0a1b".toList)
  apart := by
    have hparts : ∀ part ∈ partsOf { state := some [1], log := some [] },
        ¬utf8 "0a1b".toList <:+: part.2.2 := by decide
    exact hparts

theorem leftTree_failedFiles : leftTree failedFiles = fun p => if p = [] then some .dir else none := by
  have hdebug : failedFiles.isDir xDebugDir = false := by decide
  have hreport : failedFiles.isFile reportJson = false := by decide
  rw [leftTree, hdebug, hreport, if_neg Bool.false_ne_true, if_neg Bool.false_ne_true]
  exact FileTree.below_graft

theorem works_failingHost (hparent : run.retryOfRunId = parent) : Works
    (failingHost (sampleOperator id parent payload) state payload) (sampleOperator id parent payload)
    (fun _ => state) (fun _ => { time := 0, now := 0 }) id run profile 0
    (sampleContainer (sampleOperator id parent payload) id run profile) where
  apart := { name := fun _ _ hfile => absurd hfile List.not_mem_nil
             text := fun _ _ hfile => absurd hfile List.not_mem_nil
             sops := fun _ _ _ h => by cases h }
  connected := { answer := fun _ _ hstatus => if_pos hstatus, bytes := fun _ => rfl }
  deployed := hparent ▸ deployed_sampleOperator
  inTime _ := inTime_sampleOperator
  container := container_sampleContainer

theorem reads_failingHost (hrow : ∃ row, state.runs.lookup id = some row)
    (hobject : ∃ object, state.objects.lookup (Api.inputKey id) = some object) :
    Reads (failingHost (sampleOperator id parent payload) state payload) (sampleOperator id parent payload)
      { time := 0, now := 0 } state id payload where
  row := hrow
  object := by
    obtain ⟨object, hobject⟩ := hobject
    exact ⟨object, hobject, rfl⟩
  database := rfl
  storage := rfl
  json := rfl

/-- The Job of run 1 gets as far as PDE. -/
theorem prepare_failingHost (hparent : run.retryOfRunId = parent) : ∃ s₁,
    prepare (failingHost (sampleOperator id parent payload) (sampleState id run) payload) "run".toList
        (sampleContainer (sampleOperator id parent payload) id run profile) =
      (.ok (runCommand (failingHost (sampleOperator id parent payload) (sampleState id run) payload) payload),
        s₁) ∧ s₁.files = fun _ => none := by
  have hworks := @works_failingHost id run profile payload (sampleState id run) parent hparent
  obtain ⟨s₁, hprepare, hfiles, -, -⟩ := prepare_run hworks.apart hworks.connected hworks.deployed
    (hworks.inTime 0) hworks.container
    (reads_failingHost ⟨run, AList.lookup_insert _⟩ ⟨_, AList.lookup_insert _⟩)
  exact ⟨s₁, hprepare, hfiles⟩

theorem ran_failingHost {files : FileTree} (h : files = fun _ => none) :
    ran (failingHost operator state payload) args files = (failedFiles, 3) := by
  rw [h]
  rfl

theorem takes_sampleState : Takes { time := 0, now := 0 } (sampleState id run) id run :=
  ⟨AList.lookup_insert _, rfl, fun _ => rfl, rfl⟩

end Sample

/-- PDE fails in the Job of run 1: the Job exits with 3, and what it has handed over can be downloaded. -/
theorem job_delivers_failed : ∃ request s',
    let payload := RunInputPayload.fromCreateRequest RunStore.secretRequest
    let operator := sampleOperator 1 none payload
    let host := failingHost operator (sampleState 1 RunStore.failedRun) payload
    main host ["job-entrypoint.py".toList, "run".toList]
        (sampleContainer operator 1 RunStore.failedRun Api.sampleProfile) = (.ok 3, s') ∧
      Downloads (Api.answer operator.reads {}
        (serve operator { time := 0, now := 0 } request (sampleState 1 RunStore.failedRun)).2
        (.downloadArtifact 1 "state".toList)) [1] := by
  have hparent : RunStore.failedRun.retryOfRunId = none := rfl
  generalize RunInputPayload.fromCreateRequest RunStore.secretRequest = payload
  generalize RunStore.failedRun = row at hparent ⊢
  obtain ⟨s₁, hprepare, hfiles⟩ := @prepare_failingHost 1 row Api.sampleProfile payload none hparent
  have hlog : s₁.files.isDir consoleLog = false := by rw [hfiles]; rfl
  obtain ⟨request, s', hmain, -, -, -, -, hdownloads⟩ := job_delivers (works_failingHost hparent)
    readsForms_sampleOperator (Or.inl rfl) hprepare hlog
    (by rw [ran_failingHost hfiles]; exact handsOver_failingHost) takes_sampleState
    "job-entrypoint.py".toList
  rw [ran_failingHost hfiles] at hmain hdownloads
  exact ⟨request, s', hmain, hdownloads .state [1] rfl (List.cons_ne_nil _ _)⟩

/-- The operator when the Job of run 2 starts, a retry of run 1. -/
def resumedState (s : OperatorState) (retry : Run) : OperatorState :=
  { s with
    runs := s.runs.insert 2 retry
    objects :=
      s.objects.insert (Api.inputKey 2) { body := [], contentType := none, contentLength := none } }

end JobEntrypoint
end PdeOperator
