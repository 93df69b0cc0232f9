import PdeOperator.JobEnv

/-! What the token of a Job opens, and that it opens exactly the routes that the environment of the
Job names. -/

namespace PdeOperator
open Base

namespace Api

def deliveryKinds : List Text := ["status".toList, "report".toList, "log".toList]

/-- The delivery of a known kind, or something below it. -/
def IsDelivery (tail : Text) : Prop :=
  ∃ kind ∈ deliveryKinds, tail = "deliveries/".toList ++ kind ∨
    ∃ below, tail = "deliveries/".toList ++ kind ++ '/' :: below

/-- What a Job does to the run `pathId`: it delivers and uploads for its own run, reads the input of
its own run, and reads the state of the parent. -/
def JobMay (runId : Uuid) (parentRunId : Option Uuid) (method : Text) (pathId : Uuid) (tail : Text) :
    Prop :=
  (pathId = runId ∧ (method = "POST".toList ∧ (IsDelivery tail ∨ tail = "artifacts".toList) ∨
    method = "GET".toList ∧ tail = "input".toList)) ∨
  (parentRunId = some pathId ∧ method = "GET".toList ∧ tail = "artifacts/state".toList)

/-- The path of something below a run. -/
def runPath (apiPrefix idText tail : Text) : Text :=
  RunService.rstripSlash apiPrefix ++ "/runs/".toList ++ (idText ++ '/' :: tail)

theorem isDelivery_iff {more : Text} : IsDelivery ("deliveries/".toList ++ more) ↔
    (Text.partition '/' more).1 ∈ deliveryKinds := by
  have hslash : ∀ kind ∈ deliveryKinds, '/' ∉ kind := by decide
  constructor
  · rintro ⟨kind, hkind, heq⟩
    have hmore : more = kind ∨ ∃ below, more = kind ++ '/' :: below := by
      simpa only [List.append_assoc, List.append_cancel_left_eq] using heq
    rw [(Text.partition_fst_eq_iff (hslash kind hkind)).mpr hmore]
    exact hkind
  · intro hkind
    refine ⟨_, hkind, ?_⟩
    simpa only [List.append_assoc, List.append_cancel_left_eq] using
      (Text.partition_fst_eq_iff (hslash _ hkind)).mp rfl

theorem IsDelivery.exists_more {tail : Text} (h : IsDelivery tail) :
    ∃ more, tail = "deliveries/".toList ++ more := by
  obtain ⟨kind, -, rfl | ⟨below, rfl⟩⟩ := h
  · exact ⟨kind, rfl⟩
  · exact ⟨kind ++ '/' :: below, List.append_assoc ..⟩

section Allows

variable {lib : TokenLibrary} {runId : Uuid} {parentRunId : Option Uuid} {method path apiPrefix : Text}

theorem jobMay_deliveries {pathId : Uuid} {more : Text} (hmethod : method = "POST".toList)
    (hid : pathId = runId) :
    JobMay runId parentRunId method pathId ("deliveries/".toList ++ more) ↔
      (Text.partition '/' more).1 ∈ deliveryKinds := by
  rw [← isDelivery_iff]
  constructor
  · rintro (⟨-, ⟨-, hdelivery | htail⟩ | ⟨hget, -⟩⟩ | ⟨-, hget, -⟩)
    · exact hdelivery
    · exact absurd htail (by simp)
    · exact absurd (hmethod.symm.trans hget) (by decide)
    · exact absurd (hmethod.symm.trans hget) (by decide)
  · exact fun hdelivery => Or.inl ⟨hid, Or.inl ⟨hmethod, Or.inl hdelivery⟩⟩

theorem jobMay_of_not_delivery {pathId : Uuid} {tail : Text} (h : ¬(method = "POST".toList ∧
    pathId = runId ∧ "deliveries/".toList.isPrefixOf tail = true)) :
    JobMay runId parentRunId method pathId tail ↔
      (method = "POST".toList ∧ pathId = runId ∧ tail = "artifacts".toList) ∨
      (method = "GET".toList ∧ pathId = runId ∧ tail = "input".toList) ∨
      (method = "GET".toList ∧ parentRunId = some pathId ∧ tail = "artifacts/state".toList) := by
  have hdelivery : method = "POST".toList → pathId = runId → ¬IsDelivery tail := by
    intro hmethod hid hdelivery
    obtain ⟨more, rfl⟩ := hdelivery.exists_more
    exact h ⟨hmethod, hid, List.isPrefixOf_iff_prefix.mpr (List.prefix_append _ _)⟩
  constructor
  · rintro (⟨hid, ⟨hpost, hroute | htail⟩ | ⟨hget, htail⟩⟩ | ⟨hparent, hget, htail⟩)
    · exact absurd hroute (hdelivery hpost hid)
    · exact Or.inl ⟨hpost, hid, htail⟩
    · exact Or.inr (Or.inl ⟨hget, hid, htail⟩)
    · exact Or.inr (Or.inr ⟨hget, hparent, htail⟩)
  · rintro (⟨hpost, hid, htail⟩ | ⟨hget, hid, htail⟩ | ⟨hget, hparent, htail⟩)
    · exact Or.inl ⟨hid, Or.inl ⟨hpost, Or.inr htail⟩⟩
    · exact Or.inl ⟨hid, Or.inr ⟨hget, htail⟩⟩
    · exact Or.inr ⟨hparent, hget, htail⟩

theorem runTokenAllows_runPath {idText tail : Text} (hid : '/' ∉ idText) :
    runTokenAllows lib (.run runId parentRunId) method (runPath apiPrefix idText tail) apiPrefix = true ↔
      ∃ pathId, lib.uuid idText = some pathId ∧ JobMay runId parentRunId (upper method) pathId tail := by
  unfold runTokenAllows runPath RunService.rstripSlash
  dsimp only
  rw [List.isPrefixOf_iff_prefix.mpr (List.prefix_append _ _), List.drop_left,
    Text.partition_of_notMem hid, Bool.not_true, if_neg Bool.false_ne_true]
  dsimp only
  cases lib.uuid idText with
  | none => simp
  | some pathId =>
      simp only [Option.some.injEq, exists_eq_left']
      split
      · next hpost =>
        obtain ⟨hmethod, hrun, hleads⟩ := hpost
        obtain ⟨more, rfl⟩ := List.isPrefixOf_iff_prefix.mp hleads
        rw [jobMay_deliveries hmethod hrun]
        have hdrop : ("deliveries/".toList ++ more).drop "deliveries/".length = more := List.drop_left
        rw [hdrop, decide_eq_true_iff]
        simp [deliveryKinds]
      · next hother =>
        rw [jobMay_of_not_delivery hother, decide_eq_true_iff]

/-- A path that is opened names a run and something below it. -/
theorem exists_runPath (h : runTokenAllows lib (.run runId parentRunId) method path apiPrefix = true) :
    ∃ idText tail, path = runPath apiPrefix idText tail ∧ '/' ∉ idText := by
  by_cases hleads : apiPrefix.rdropWhile (· == '/') ++ "/runs/".toList <+: path
  · obtain ⟨rest, rfl⟩ := hleads
    by_cases hslash : '/' ∈ rest
    · refine ⟨(Text.partition '/' rest).1, (Text.partition '/' rest).2, ?_,
        Text.partition_fst_notMem '/' rest⟩
      rw [runPath, Text.partition_append hslash]
      rfl
    · -- without a tail no route fits
      unfold runTokenAllows at h
      dsimp only at h
      rw [List.isPrefixOf_iff_prefix.mpr (List.prefix_append _ _), List.drop_left,
        Text.partition_of_absent hslash, Bool.not_true, if_neg Bool.false_ne_true] at h
      dsimp only at h
      split at h
      · cases h
      · simp at h
  · unfold runTokenAllows at h
    dsimp only at h
    rw [Bool.eq_false_iff.mpr fun htrue => hleads (List.isPrefixOf_iff_prefix.mp htrue)] at h
    cases h

/-- The token opens the routes of the Job, and nothing else. -/
theorem runTokenAllows_iff :
    runTokenAllows lib (.run runId parentRunId) method path apiPrefix = true ↔
      ∃ idText pathId tail, path = runPath apiPrefix idText tail ∧ '/' ∉ idText ∧
        lib.uuid idText = some pathId ∧ JobMay runId parentRunId (upper method) pathId tail := by
  constructor
  · intro h
    obtain ⟨idText, tail, rfl, hid⟩ := exists_runPath h
    obtain ⟨pathId, huuid, hmay⟩ := (runTokenAllows_runPath hid).mp h
    exact ⟨idText, pathId, tail, rfl, hid, huuid, hmay⟩
  · rintro ⟨idText, pathId, tail, rfl, hid, huuid, hmay⟩
    exact (runTokenAllows_runPath hid).mpr ⟨pathId, huuid, hmay⟩

end Allows

/-! ### The principal of a Job -/

/-- What the operator relies on for the token of a run: `UUID(...)` reads the text of a UUID, `str` of
a text is that text, and a token decodes to its payload from its `iat` until its `exp`. -/
structure VerifiesRun (lib : JobLibrary) (key : Text) (runId : Uuid) (parentRunId : Option Uuid)
    (ttlSeconds minted : Int) : Prop where
  uuid_str : ∀ id, lib.uuid (Uuid.str id) = some id
  str_str : ∀ text, lib.str (.str text) = text
  decode_encode : ∀ now, minted ≤ now → now < minted + max ttlSeconds 60 →
    lib.jwtDecode key now (lib.jwtEncode key (runClaims runId parentRunId ttlSeconds minted)) =
      some (runClaims runId parentRunId ttlSeconds minted)

/-- A minted token stands for its run and the parent of it, as long as it is valid. -/
theorem verifyRunToken_mintRunToken {lib : JobLibrary} {settings : Settings} {runId : Uuid}
    {parentRunId : Option Uuid} {ttlSeconds minted now : Int}
    (hlib : VerifiesRun lib settings.jobTokenSigningKey runId parentRunId ttlSeconds minted)
    (hminted : minted ≤ now) (hexpires : now < minted + max ttlSeconds 60) :
    verifyRunToken (lib.tokens settings now) (mintRunToken lib settings.jobTokenSigningKey runId
      parentRunId ttlSeconds minted) = some (.run runId parentRunId) := by
  have hdecode : (lib.tokens settings now).jwtDecode (mintRunToken lib settings.jobTokenSigningKey
      runId parentRunId ttlSeconds minted) = some (runClaims runId parentRunId ttlSeconds minted) :=
    hlib.decode_encode now hminted hexpires
  have hid : ∀ id, (lib.tokens settings now).uuid ((lib.tokens settings now).str
      (.str (Uuid.str id))) = some id := by
    intro id
    show lib.uuid (lib.str _) = some id
    rw [hlib.str_str, hlib.uuid_str]
  have hrole : Json.get (runClaims runId parentRunId ttlSeconds minted) "role".toList =
      some (.str "run".toList) := rfl
  have hrun : Json.get (runClaims runId parentRunId ttlSeconds minted) "run_id".toList =
      some (.str (Uuid.str runId)) := rfl
  unfold verifyRunToken
  rw [hdecode]
  dsimp only [Option.bind_eq_bind, Option.bind_some]
  rw [hrole, hrun, Option.bind_some, hid, guard, if_pos rfl]
  dsimp only [pure, Option.bind_some]
  cases parentRunId with
  | none => rfl
  | some parent =>
      have hparent : Json.get (runClaims runId (some parent) ttlSeconds minted)
          "parent_run_id".toList = some (.str (Uuid.str parent)) := rfl
      have htrue : isTrue (.str (Uuid.str parent)) = true := by
        have hlength := Uuid.length_str parent
        cases htext : Uuid.str parent with
        | nil =>
            rw [htext] at hlength
            cases hlength
        | cons c rest => rfl
      rw [hparent]
      dsimp only
      rw [if_pos htrue, hid]
      rfl

/-- `urlsplit(url).path` -/
def urlPath (url : Text) : Text :=
  let rest := (Text.partition ':' url).2
  let rest :=
    if "//".toList.isPrefixOf rest then
      (rest.drop 2).dropWhile fun c => c != '/' && c != '?' && c != '#'
    else rest
  rest.takeWhile fun c => c != '?' && c != '#'

/-- A scheme and a host without a path; slashes may follow. -/
def IsOrigin (url : Text) : Prop :=
  ∃ scheme host slashes, url = scheme ++ "://".toList ++ host ++ List.replicate slashes '/' ∧
    ':' ∉ scheme ∧ host ≠ [] ∧ ∀ c ∈ host, (c != '/' && c != '?' && c != '#') = true

/-- A path that starts with a slash and stands for itself in a URL. -/
def IsPlainPath (path : Text) : Prop :=
  (∃ rest, path = '/' :: rest) ∧ ∀ c ∈ path, c ≠ '?' ∧ c ≠ '#' ∧ c ≠ '%'

theorem rdropWhile_append_replicate {text : Text} {slashes : Nat}
    (h : ∀ hne : text ≠ [], text.getLast hne ≠ '/') :
    RunService.rstripSlash (text ++ List.replicate slashes '/') = text := by
  unfold RunService.rstripSlash
  induction slashes with
  | zero =>
      rw [List.replicate_zero, List.append_nil, List.rdropWhile_eq_self_iff]
      intro hne hslash
      exact h hne (by simpa using hslash)
  | succ slashes ih =>
      rw [List.replicate_succ', ← List.append_assoc, List.rdropWhile_concat_pos _ _ _ (by simp)]
      exact ih

/-- A rooted path after an origin is the path of the URL. -/
theorem urlPath_origin {base rest : Text} (hbase : IsOrigin base)
    (hplain : ∀ c ∈ '/' :: rest, c ≠ '?' ∧ c ≠ '#') :
    urlPath (RunService.rstripSlash base ++ '/' :: rest) = '/' :: rest := by
  obtain ⟨scheme, host, slashes, rfl, hscheme, hne, hhost⟩ := hbase
  have hlast : ∀ hne' : scheme ++ "://".toList ++ host ≠ [],
      (scheme ++ "://".toList ++ host).getLast hne' ≠ '/' := by
    intro hne'
    rw [List.getLast_append_of_ne_nil _ hne]
    have hend := hhost _ (List.getLast_mem hne)
    simp only [Bool.and_eq_true, bne_iff_ne] at hend
    exact hend.1.1
  rw [rdropWhile_append_replicate hlast]
  have hsplit : Text.partition ':' (scheme ++ "://".toList ++ host ++ '/' :: rest) =
      (scheme, "//".toList ++ (host ++ '/' :: rest)) := by
    have hcolon : scheme ++ "://".toList ++ host ++ '/' :: rest =
        scheme ++ ':' :: ("//".toList ++ (host ++ '/' :: rest)) := by
      simp
    rw [hcolon, Text.partition_of_notMem hscheme]
  unfold urlPath
  rw [hsplit]
  dsimp only
  rw [if_pos (List.isPrefixOf_iff_prefix.mpr (List.prefix_append _ _)),
    show ("//".toList ++ (host ++ '/' :: rest)).drop 2 = host ++ '/' :: rest from rfl,
    List.dropWhile_append_of_pos hhost, List.dropWhile_cons_of_neg (by simp),
    List.takeWhile_eq_self_iff]
  intro c hc
  simpa using hplain c hc

theorem exists_rooted_rstripSlash {path : Text} (h : IsPlainPath path) (rest : Text) :
    ∃ more, RunService.rstripSlash path ++ '/' :: rest = '/' :: more := by
  obtain ⟨⟨tail, rfl⟩, -⟩ := h
  have hleads : RunService.rstripSlash ('/' :: tail) <+: '/' :: tail := List.rdropWhile_prefix _ _
  cases hroot : RunService.rstripSlash ('/' :: tail) with
  | nil => exact ⟨rest, rfl⟩
  | cons c more =>
      rw [hroot, List.cons_prefix_cons] at hleads
      exact ⟨more ++ '/' :: rest, by rw [hleads.1, List.cons_append]⟩

/-- The path of a URL below a run is the path that the token is checked against. -/
theorem urlPath_runUrl {settings : Settings} {id : Uuid} {tail : Text}
    (hbase : IsOrigin settings.operatorBaseUrl) (hleads : IsPlainPath settings.apiPrefix)
    (htail : ∀ c ∈ tail, c ≠ '?' ∧ c ≠ '#') :
    urlPath (EnvUtils.operatorRoot settings ++ "/runs/".toList ++ Uuid.str id ++ '/' :: tail) =
      runPath settings.apiPrefix (Uuid.str id) tail := by
  have hsplit : EnvUtils.operatorRoot settings ++ "/runs/".toList ++ Uuid.str id ++ '/' :: tail =
      RunService.rstripSlash settings.operatorBaseUrl ++
        runPath settings.apiPrefix (Uuid.str id) tail := by
    simp [EnvUtils.operatorRoot, runPath]
  have hplain : ∀ c ∈ runPath settings.apiPrefix (Uuid.str id) tail, c ≠ '?' ∧ c ≠ '#' := by
    intro c hc
    simp only [runPath, List.mem_append, List.mem_cons] at hc
    rcases hc with (hroot | hruns) | hid | rfl | htailmem
    · have hmem := (List.rdropWhile_prefix (· == '/') settings.apiPrefix).subset hroot
      exact ⟨(hleads.2 c hmem).1, (hleads.2 c hmem).2.1⟩
    · revert c
      decide
    · have hdigits := Uuid.all_str (p := fun c => c != '?' && c != '#') (by decide) rfl id c hid
      simpa using hdigits
    · decide
    · exact htail c htailmem
  obtain ⟨more, hmore⟩ : ∃ more, runPath settings.apiPrefix (Uuid.str id) tail = '/' :: more := by
    obtain ⟨more, hrooted⟩ := exists_rooted_rstripSlash hleads ("runs/".toList ++
      (Uuid.str id ++ '/' :: tail))
    exact ⟨more, by rw [← hrooted]; simp [runPath]⟩
  rw [hsplit]
  rw [hmore] at hplain ⊢
  exact urlPath_origin hbase hplain

/-- The Job may use the URL of everything that it may do. -/
theorem runTokenAllows_urlPath {lib : JobLibrary} {settings : Settings} {runId id : Uuid}
    {parentRunId : Option Uuid} {now : Int} {method tail : Text}
    (hbase : IsOrigin settings.operatorBaseUrl) (hleads : IsPlainPath settings.apiPrefix)
    (huuid : lib.uuid (Uuid.str id) = some id) (htail : ∀ c ∈ tail, c ≠ '?' ∧ c ≠ '#')
    (hmay : JobMay runId parentRunId (upper method) id tail) :
    runTokenAllows (lib.tokens settings now) (.run runId parentRunId) method
      (urlPath (EnvUtils.operatorRoot settings ++ "/runs/".toList ++ Uuid.str id ++ '/' :: tail))
      settings.apiPrefix = true := by
  have hslash : '/' ∉ Uuid.str id := by
    intro hmem
    have hdigits := Uuid.all_str (p := fun c => c != '/') (by decide) rfl id '/' hmem
    exact absurd hdigits (by decide)
  rw [urlPath_runUrl hbase hleads htail]
  exact (runTokenAllows_runPath hslash).mpr ⟨id, huuid, hmay⟩

/-- `require_api_token` lets a run token through exactly where `run_token_allows` does. -/
theorem requireApiToken_run {lib : TokenLibrary} {settings : Settings} {token method path : Text}
    {runId : Uuid} {parentRunId : Option Uuid} (hne : token ≠ []) (hadmin : token ≠ settings.apiAdminToken)
    (hverify : verifyRunToken lib token = some (.run runId parentRunId)) :
    requireApiToken lib settings (some token) method path = .ok () ↔
      runTokenAllows lib (.run runId parentRunId) method path settings.apiPrefix = true := by
  have hprincipal : resolvePrincipal lib settings.apiAdminToken (some token) =
      some (.run runId parentRunId) := by
    simp [resolvePrincipal, hne, tokensEqual, hadmin, hverify]
  rw [requireApiToken, hprincipal]
  dsimp only
  split
  · next hallowed => exact iff_of_true rfl hallowed
  · next hrefused => exact iff_of_false (fun hok => by cases hok) hrefused

section Exact

open JobService EnvUtils

variable {lib : JobLibrary} {settings : Settings} {id : Uuid} {run : Run} {profile : Profile}
  {minted now : Int}

/-- A variable of the operator has its value, whatever else the environment is merged from. -/
theorem mem_buildEnv_iff_of_lookup {name value operatorValue : Text}
    (h : (mergedEnv lib settings id run profile minted).lookup name = some operatorValue) :
    (name, value) ∈ buildEnv lib settings id run profile minted ↔ value = operatorValue := by
  rw [mem_buildEnv_iff, h, Option.some.injEq, eq_comm]

/-- The token of a Job opens exactly the routes of the Job, and the environment of the Job holds that
token and URLs that it opens. -/
theorem jobToken_exact (settings : Settings) (run : Run) (profile : Profile)
    (hlib : VerifiesRun lib settings.jobTokenSigningKey id run.retryOfRunId
      settings.jobTokenTtlSeconds minted)
    (hminted : minted ≤ now) (hexpires : now < minted + max settings.jobTokenTtlSeconds 60)
    (hbase : IsOrigin settings.operatorBaseUrl) (hleads : IsPlainPath settings.apiPrefix) :
    ∃ principal, verifyRunToken (lib.tokens settings now) (jobToken lib settings id run minted) =
        some principal ∧
      let allows := fun method path =>
        runTokenAllows (lib.tokens settings now) principal method path settings.apiPrefix
      let env := buildEnv lib settings id run profile minted
      (∀ method path, allows method path = true ↔
        ∃ idText pathId tail, path = runPath settings.apiPrefix idText tail ∧ '/' ∉ idText ∧
          lib.uuid idText = some pathId ∧
          JobMay id run.retryOfRunId (upper method) pathId tail) ∧
      (env.map Prod.fst).Nodup ∧
      (∀ value, (tokenVar, value) ∈ env ↔ value = jobToken lib settings id run minted) ∧
      (∀ value, (inputUrlVar, value) ∈ env ↔ value = inputUrl settings id) ∧
      (∀ value, (artifactsUrlVar, value) ∈ env ↔ value = artifactsUrl settings id) ∧
      allows "GET".toList (urlPath (inputUrl settings id)) = true ∧
      allows "POST".toList (urlPath (artifactsUrl settings id)) = true ∧
      (∀ parent, run.retryOfRunId = some parent →
        (∀ value, (parentStateUrlVar, value) ∈ env ↔ value = parentStateUrl settings parent) ∧
        allows "GET".toList (urlPath (parentStateUrl settings parent)) = true) ∧
      ∀ delivery ∈ remoteDeliveries settings id, ∀ endpoint ∈ delivery.endpoints,
        allows "POST".toList (urlPath endpoint.endpoint) = true := by
  have htoken : ∀ value, (tokenVar, value) ∈ buildEnv lib settings id run profile minted ↔
      value = jobToken lib settings id run minted := fun _ => mem_buildEnv_iff_of_lookup lookup_tokenVar
  have hinput : ∀ value, (inputUrlVar, value) ∈ buildEnv lib settings id run profile minted ↔
      value = inputUrl settings id := fun _ => mem_buildEnv_iff_of_lookup lookup_inputUrlVar
  have hartifacts : ∀ value, (artifactsUrlVar, value) ∈ buildEnv lib settings id run profile minted ↔
      value = artifactsUrl settings id := fun _ => mem_buildEnv_iff_of_lookup lookup_artifactsUrlVar
  have hverify : verifyRunToken (lib.tokens settings now) (jobToken lib settings id run minted) =
      some (.run id run.retryOfRunId) := verifyRunToken_mintRunToken hlib hminted hexpires
  refine ⟨.run id run.retryOfRunId, hverify,
    fun _ _ => runTokenAllows_iff, nodup_buildEnv, htoken, hinput, hartifacts, ?_, ?_, ?_, ?_⟩
  · refine runTokenAllows_urlPath hbase hleads (hlib.uuid_str id) (by decide) ?_
    exact Or.inl ⟨rfl, Or.inr ⟨rfl, rfl⟩⟩
  · refine runTokenAllows_urlPath hbase hleads (hlib.uuid_str id) (by decide) ?_
    exact Or.inl ⟨rfl, Or.inl ⟨rfl, Or.inr rfl⟩⟩
  · intro parent hparent
    refine ⟨fun _ => mem_buildEnv_iff_of_lookup (lookup_parentStateUrlVar hparent), ?_⟩
    refine runTokenAllows_urlPath hbase hleads (hlib.uuid_str parent) (by decide) ?_
    exact Or.inr ⟨hparent, rfl, rfl⟩
  · have hdelivery : ∀ kind ∈ deliveryKinds, ∀ contentType compress,
        runTokenAllows (lib.tokens settings now) (.run id run.retryOfRunId) "POST".toList
          (urlPath (httpEndpoint (operatorRoot settings) id kind contentType compress).endpoint)
          settings.apiPrefix = true := by
      intro kind hkind contentType compress
      have hplain : ∀ kind ∈ deliveryKinds, ∀ c ∈ "deliveries/".toList ++ kind, c ≠ '?' ∧ c ≠ '#' := by
        decide
      have hmay : JobMay id run.retryOfRunId (upper "POST".toList) id ("deliveries/".toList ++ kind) :=
        Or.inl ⟨rfl, Or.inl ⟨rfl, Or.inl ⟨kind, hkind, Or.inl rfl⟩⟩⟩
      have hurl : (httpEndpoint (operatorRoot settings) id kind contentType compress).endpoint =
          operatorRoot settings ++ "/runs/".toList ++ Uuid.str id ++
            '/' :: ("deliveries/".toList ++ kind) := by
        simp [httpEndpoint]
      rw [hurl]
      exact runTokenAllows_urlPath hbase hleads (hlib.uuid_str id) (hplain kind hkind) hmay
    intro delivery hmem endpoint hendpoint
    simp only [remoteDeliveries, List.mem_cons, List.not_mem_nil, or_false] at hmem
    rcases hmem with rfl | rfl | rfl <;> rw [List.mem_singleton.mp hendpoint] <;>
      exact hdelivery _ (by decide) _ _

end Exact

/-- PyJWT on the token of run 1 with the parent 2, valid from 0 to 60. -/
def sampleJobLibrary : JobLibrary where
  jwtEncode _ _ := "header.claims.signature".toList
  jwtDecode key now token :=
    if key = "key".toList ∧ token = "header.claims.signature".toList ∧ 0 ≤ now ∧ now < 60 then
      some (runClaims 1 (some 2) 60 0)
    else none
  uuid := Uuid.ofText
  str
    | .str text => text
    | _ => []
  jsonDumps _ := "[]".toList

def sampleProfile : Profile where
  pdeImage := "pde:1".toList
  envVars := [("PDE_OPERATOR_TOKEN".toList, .str "mine".toList)]
  resources := []
  createdAt := 0
  updatedAt := 0

/-- A retry of run 2. -/
def sampleRetry : Run :=
  { RunService.createRun {} 1 { pipelineData := "stages: []".toList } sampleProfile none 0 with
    retryOfRunId := some 2 }

theorem uuid_sampleJobLibrary : sampleJobLibrary.uuid = Uuid.ofText := rfl

theorem jobToken_exact_retry :
    let settings : Settings := { jobTokenSigningKey := "key".toList, jobTokenTtlSeconds := 60 }
    ∃ principal, verifyRunToken (sampleJobLibrary.tokens settings 30)
        (JobService.jobToken sampleJobLibrary settings 1 sampleRetry 0) = some principal ∧
      runTokenAllows (sampleJobLibrary.tokens settings 30) principal "GET".toList
        (urlPath (JobService.parentStateUrl settings 2)) settings.apiPrefix = true ∧
      (JobService.tokenVar, "header.claims.signature".toList) ∈
        JobService.buildEnv sampleJobLibrary settings 1 sampleRetry sampleProfile 0 := by
  intro settings
  have hlib : VerifiesRun sampleJobLibrary settings.jobTokenSigningKey 1
      sampleRetry.retryOfRunId settings.jobTokenTtlSeconds 0 :=
    { uuid_str := fun id => (congrFun uuid_sampleJobLibrary _).trans (Uuid.ofText_str id)
      str_str := fun _ => rfl
      decode_encode := fun now hminted hexpires => if_pos ⟨rfl, rfl, hminted, hexpires⟩ }
  have hbase : IsOrigin settings.operatorBaseUrl :=
    ⟨"http".toList, "host.minikube.internal:8000".toList, 0, rfl, by decide, by decide, by decide⟩
  have hleads : IsPlainPath settings.apiPrefix := ⟨⟨"api/v1".toList, rfl⟩, by decide⟩
  have hstart : (0 : Int) ≤ 30 := by decide
  have hend : (30 : Int) < 0 + max settings.jobTokenTtlSeconds 60 := by decide
  obtain ⟨principal, hverify, -, -, htoken, -, -, -, -, hparent, -⟩ :=
    jobToken_exact settings sampleRetry sampleProfile hlib hstart hend hbase hleads
  exact ⟨principal, hverify, (hparent 2 rfl).2, (htoken _).mpr rfl⟩

end Api
end PdeOperator
