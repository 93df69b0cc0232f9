import PdeOperator.JobRequests

/-! What the wrapper does before it starts PDE. The mounted secrets become variables of the environment,
the input of the run is read once, and the arguments of PDE are made of it. -/

namespace PdeOperator
open Base Multipart

namespace JobEntrypoint

variable {host : Host} {s : State}

/-- The variables that lead the wrapper to the operator. -/
def operatorVars : List Text :=
  [JobService.tokenVar, JobService.inputUrlVar, JobService.artifactsUrlVar, JobService.parentStateUrlVar]

/-- Every mounted secret is a text, and none is named like a variable of the operator. -/
structure SecretsApart (host : Host) : Prop where
  name : ∀ mount, ∀ file ∈ host.mounted mount, file.1 ∉ operatorVars
  text : ∀ mount, ∀ file ∈ host.mounted mount, ∃ text, host.readText file.2 = some text ∧ '\x00' ∉ text
  sops : ∀ environ plain text, host.sops environ plain = some text → '\x00' ∉ text

/-- Nothing but the environment has changed, and in it none of the operator's variables. -/
structure Exported (s s' : State) : Prop where
  files : s'.files = s.files
  runInput : s'.runInput = s.runInput
  requests : s'.requests = s.requests
  environ : ∀ name ∈ operatorVars, s'.environ.lookup name = s.environ.lookup name

theorem Exported.refl (s : State) : Exported s s := ⟨rfl, rfl, rfl, fun _ _ => rfl⟩

theorem Exported.trans {s' s'' : State} (h : Exported s s') (h' : Exported s' s'') : Exported s s'' where
  files := h'.files.trans h.files
  runInput := h'.runInput.trans h.runInput
  requests := h'.requests.trans h.requests
  environ name hname := (h'.environ name hname).trans (h.environ name hname)

theorem mapM_some_of_forall {α β : Type} {f : α → Option β} {p : β → Prop} {xs : List α}
    (h : ∀ x ∈ xs, ∃ y, f x = some y ∧ p y) : ∃ ys, xs.mapM f = some ys ∧ ∀ y ∈ ys, p y := by
  induction xs with
  | nil => exact ⟨[], rfl, fun y hy => absurd hy List.not_mem_nil⟩
  | cons x xs ih =>
      obtain ⟨⟨y, hy, hp⟩, hxs⟩ := List.forall_mem_cons.mp h
      obtain ⟨ys, hys, hall⟩ := ih hxs
      refine ⟨y :: ys, ?_, List.forall_mem_cons.mpr ⟨hp, hall⟩⟩
      rw [List.mapM_cons, hy, hys]
      rfl

theorem mountedSecrets_ok (hapart : SecretsApart host) (s : State) :
    ∃ secrets, mountedSecrets host s = (.ok secrets, s) ∧
      ∀ secret ∈ secrets, secret.1 ∉ operatorVars ∧ '\x00' ∉ secret.2 := by
  have hread : ∃ secrets, readMountedSecrets host (externalSecretsMount s.environ) = some secrets ∧
      ∀ secret ∈ secrets, secret.1 ∉ operatorVars ∧ '\x00' ∉ secret.2 := by
    refine mapM_some_of_forall fun file hfile => ?_
    have hmounted := List.mem_mergeSort.mp (List.mem_of_mem_filter hfile)
    obtain ⟨text, htext, hnull⟩ := hapart.text _ file hmounted
    exact ⟨(file.1, text), by rw [htext, Option.map_some], hapart.name _ file hmounted, hnull⟩
  obtain ⟨secrets, hsecrets, hall⟩ := hread
  refine ⟨secrets, ?_, hall⟩
  rw [mountedSecrets, Program.read_bind, hsecrets]
  rfl

theorem setEnv_ok {name value : Text} (hname : name ∉ operatorVars) (hnull : '\x00' ∉ value) (s : State) :
    ∃ s', setEnv name value s = (.ok (), s') ∧ Exported s s' := by
  have hcontains : value.contains '\x00' = false := by simpa using hnull
  refine ⟨{ s with environ := s.environ.insert name value }, ?_, rfl, rfl, rfl, fun other hother => ?_⟩
  · rw [setEnv, Program.check_bind, hcontains]
    rfl
  · refine AList.lookup_insert_ne ?_
    rintro rfl
    exact hname hother

theorem exportMountedSecretEnv_ok (hapart : SecretsApart host) (s : State) :
    ∃ s', exportMountedSecretEnv host s = (.ok (), s') ∧ Exported s s' := by
  obtain ⟨secrets, hsecrets, hall⟩ := mountedSecrets_ok hapart s
  rw [exportMountedSecretEnv, Program.bind_ok hsecrets]
  refine Program.forEach_of_invariant (fun k secret u hsecret hu => ?_) (Exported.refl s)
  obtain ⟨hname, hnull⟩ := hall secret (List.mem_of_getElem? hsecret)
  obtain ⟨u', hset, hu'⟩ := setEnv_ok hname hnull u
  exact ⟨u', hset, hu.trans hu'⟩

/-- What is encrypted by `sops` is stripped, so it has no null byte either. -/
theorem sopsEncryptYaml_plain (hapart : SecretsApart host) {environ : EnvUtils.Env}
    {plain ageKey ageRecipients encrypted : Text}
    (h : sopsEncryptYaml host environ plain ageKey ageRecipients = some encrypted) : '\x00' ∉ encrypted := by
  obtain ⟨stdout, hstdout, h⟩ := Option.bind_eq_some_iff.mp h
  obtain ⟨_, -, h⟩ := Option.bind_eq_some_iff.mp h
  obtain rfl := Option.some.inj h
  exact fun hmem => hapart.sops _ _ _ hstdout (Text.mem_of_mem_trimBy hmem)

theorem exportMountedSecretsAtlasConfig_ok (hapart : SecretsApart host) (s : State) :
    ∃ s', exportMountedSecretsAtlasConfig host s = (.ok (), s') ∧ Exported s s' := by
  obtain ⟨secrets, hsecrets, -⟩ := mountedSecrets_ok hapart s
  rw [exportMountedSecretsAtlasConfig, Program.bind_ok hsecrets, Program.read_bind]
  cases stripped secrets ageKeyVar with
  | none => exact ⟨s, rfl, Exported.refl s⟩
  | some ageKey =>
      cases stripped secrets ageRecipientsVar with
      | none => exact ⟨s, rfl, Exported.refl s⟩
      | some ageRecipients =>
          dsimp only
          cases hencrypted : sopsEncryptYaml host s.environ (host.safeDump (atlasConfig secrets)) ageKey
              ageRecipients with
          | none => exact ⟨s, rfl, Exported.refl s⟩
          | some encrypted =>
              exact setEnv_ok (by decide) (sopsEncryptYaml_plain hapart hencrypted) s

/-- A variable of the operator with a value that is not empty. -/
theorem urlOf_eq {environ : EnvUtils.Env} {name url : Text} (h : environ.lookup name = some url)
    (hne : url ≠ []) : urlOf environ name = some url := by
  rw [urlOf, h]
  cases url with
  | nil => exact absurd rfl hne
  | cons c rest => rfl

theorem operatorRequest_ok {url method : Text} {data : Option Octets} {contentType : Option Text}
    {body : Octets}
    (h : host.answer s.requests.length (requestOf s.environ url method data contentType) = .ok body) :
    operatorRequest host url method data contentType s =
      (.ok body, { s with requests := s.requests ++ [requestOf s.environ url method data contentType] }) := by
  rw [operatorRequest, h]
  rfl

theorem fetchRunInput_ok {url : Text} {body : Octets} {payload : JsonObject} (hfirst : s.runInput = none)
    (hurl : urlOf s.environ JobService.inputUrlVar = some url)
    (hanswer : host.answer s.requests.length (requestOf s.environ url "GET".toList none none) = .ok body)
    (hjson : host.jsonLoads body = some (.obj payload)) :
    fetchRunInput host s = (.ok payload,
      { s with
        runInput := some payload
        requests := s.requests ++ [requestOf s.environ url "GET".toList none none] }) := by
  rw [fetchRunInput, Program.read_bind, hfirst]
  dsimp only
  rw [hurl]
  dsimp only
  rw [Program.bind_ok (operatorRequest_ok hanswer), hjson]
  rfl

/-- The input is read once. -/
theorem fetchRunInput_again {payload : JsonObject} (h : s.runInput = some payload) :
    fetchRunInput host s = (.ok payload, s) := by
  rw [fetchRunInput, Program.read_bind, h]
  rfl

variable (host) in
theorem inputValue_given {payload : JsonObject} {name : Text} (value : Json) (required : Bool)
    (h : s.runInput = some payload) (hvalue : Json.get payload name = some value) (hne : value ≠ .null) :
    inputValue host name required s = (.ok (some value), s) := by
  rw [inputValue, Program.bind_ok (fetchRunInput_again h), hvalue, Option.getD_some]
  cases value with
  | null => exact absurd rfl hne
  | _ => rfl

theorem inputValue_missing {payload : JsonObject} {name : Text} (h : s.runInput = some payload)
    (hvalue : (Json.get payload name).getD .null = .null) :
    inputValue host name false s = (.ok none, s) := by
  rw [inputValue, Program.bind_ok (fetchRunInput_again h), hvalue]
  rfl

/-- An option for a text that is not empty. -/
def given (name : Text) : Option Text → List Text
  | none => []
  | some text => if text.isEmpty then [] else [option name text]

variable (host) in
/-- A text of the payload becomes an option, unless it is missing or empty. -/
theorem inputValue_nullable {payload : JsonObject} (name : Text) (value : Option Text)
    (h : s.runInput = some payload) (hvalue : Json.get payload name = some (Api.nullable .str value)) :
    ∃ json, inputValue host name false s = (.ok json, s) ∧ optional host name json = given name value := by
  cases value with
  | none => exact ⟨none, inputValue_missing h (by rw [hvalue]; rfl), rfl⟩
  | some text =>
      refine ⟨some (.str text), inputValue_given host (.str text) false h hvalue nofun, ?_⟩
      cases text with
      | nil => rfl
      | cons c rest => rfl

def boolText (value : Bool) : Text := if value then "True".toList else "False".toList

/-- What `run` is started with for a payload. -/
def runCommand (host : Host) (payload : RunInputPayload) : List Text :=
  pdeCli host (["run".toList, option "pipeline_data".toList payload.pipelineData,
    option "pipeline_dir".toList "/workspace/PIPELINE_DIR".toList,
    option "is_dry_run".toList (boolText payload.isDryRun),
    option "log_level".toList payload.logLevel] ++
      given "pipeline_vars".toList payload.pipelineVars ++
      given "pipeline_vars_secure".toList payload.pipelineVarsSecure)

/-- What `retry` is started with for a payload. -/
def retryCommand (host : Host) (payload : RunInputPayload) : List Text :=
  pdeCli host (["retry".toList, option "pipeline_dir".toList "/workspace/PIPELINE_DIR".toList,
    option "log_level".toList payload.logLevel] ++ given "retry_vars".toList payload.retryVars)

theorem pdeRunArgs_eq {payload : RunInputPayload} (h : s.runInput = some (Api.runInput payload)) :
    pdeRunArgs host s = (.ok (runCommand host payload), s) := by
  obtain ⟨vars, hvars, hvarsText⟩ := inputValue_nullable host "pipeline_vars".toList
    payload.pipelineVars h rfl
  obtain ⟨secure, hsecure, hsecureText⟩ := inputValue_nullable host "pipeline_vars_secure".toList
    payload.pipelineVarsSecure h rfl
  rw [pdeRunArgs,
    Program.bind_ok (inputValue_given host (.str payload.pipelineData) true h rfl nofun),
    Program.bind_ok (inputValue_given host (.bool payload.isDryRun) true h rfl nofun),
    Program.bind_ok (inputValue_given host (.str payload.logLevel) true h rfl nofun),
    Program.bind_ok hvars, Program.bind_ok hsecure, hvarsText, hsecureText]
  rfl

theorem pdeRetryArgs_eq {payload : RunInputPayload} (h : s.runInput = some (Api.runInput payload)) :
    pdeRetryArgs host s = (.ok (retryCommand host payload), s) := by
  obtain ⟨vars, hvars, hvarsText⟩ := inputValue_nullable host "retry_vars".toList payload.retryVars h rfl
  rw [pdeRetryArgs,
    Program.bind_ok (inputValue_given host (.str payload.logLevel) true h rfl nofun),
    Program.bind_ok hvars, hvarsText]
  rfl

end JobEntrypoint
end PdeOperator
