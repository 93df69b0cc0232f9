import PdeOperator.ArgoBackend
import PdeOperator.BaseSystem

/-! What users without write access learn about secrets through the backend: the responses to their
requests tell two states apart exactly when one of them reads the stored input of a run. -/

namespace PdeOperator
open Base Api

def RunInputPayload.withoutSecure (payload : RunInputPayload) : RunInputPayload :=
  { payload with pipelineVarsSecure := none }

namespace Api

/-- What a stored object holds besides the secure text. -/
def publicInput (lib : ReadLibrary) (object : StoredObject) : Except InputError RunInputPayload :=
  (openInput lib object).map RunInputPayload.withoutSecure

/-- Two states that differ at most in the secure texts of the stored inputs. -/
structure SameButSecrets (lib : ReadLibrary) (s t : OperatorState) : Prop where
  runs : s.runs = t.runs
  db : s.db = t.db
  objects : ∀ key, (∀ id, key ≠ inputKey id) → s.objects.lookup key = t.objects.lookup key
  inputs : ∀ id, (s.objects.lookup (inputKey id)).map (publicInput lib) =
    (t.objects.lookup (inputKey id)).map (publicInput lib)

/-- The stored input of a run or schedule has another secure text in the two states. -/
def SecretsDiffer (lib : ReadLibrary) (s t : OperatorState) (id : Uuid) : Prop :=
  ∃ p q, loadInput lib {} s id = .ok p ∧ loadInput lib {} t id = .ok q ∧
    p.pipelineVarsSecure ≠ q.pipelineVarsSecure

/-- Artifacts and inputs have different keys, also across runs. -/
theorem artifactKey_ne_inputKey (runId : Uuid) (kind : ArtifactKind) (id : Uuid) :
    artifactKey runId kind ≠ inputKey id := by
  intro h
  have hlength : (Uuid.str runId).length = (Uuid.str id).length := by
    rw [Uuid.length_str, Uuid.length_str]
  have hname := (List.append_inj h hlength).2
  cases kind <;> exact absurd hname (by decide)

variable {lib : ReadLibrary} {outage : Outage} {s t : OperatorState}

theorem SameButSecrets.getObject (h : SameButSecrets lib s t) (runId : Uuid) (kind : ArtifactKind) :
    getObject outage s (artifactKey runId kind) = getObject outage t (artifactKey runId kind) := by
  unfold Api.getObject
  rw [h.objects _ (artifactKey_ne_inputKey runId kind)]

/-- All handlers but the one for inputs answer the same. -/
theorem SameButSecrets.answer (h : SameButSecrets lib s t) {e : Endpoint}
    (he : ∀ id, e ≠ .getRunInput id) : answer lib outage s e = answer lib outage t e := by
  unfold Api.answer
  cases e with
  | getRunInput id => exact absurd rfl (he id)
  | listRuns query => simp only [listRuns, h.runs]
  | getRun id => simp only [getRun, h.runs, h.db]
  | downloadArtifact id kind => simp only [downloadArtifact, h.runs, h.getObject]
  | listProfiles page => simp only [listProfiles, h.db]
  | getProfile id => simp only [getProfile, h.db]
  | listRunTemplates query => simp only [listRunTemplates, h.db]
  | getRunTemplate id => simp only [getRunTemplate, h.db]
  | listTimezones => rfl
  | listSchedules query => simp only [listSchedules, h.db]
  | getSchedule id => simp only [getSchedule, h.db]

theorem loadInput_outage (id : Uuid) :
    loadInput lib outage s id =
      if outage.object (inputKey id) then .error .clientError else loadInput lib {} s id := by
  unfold loadInput Api.getObject
  cases outage.object (inputKey id) with
  | true => rfl
  | false => rfl

/-- A stored input fails in both states alike, or is read in both up to the secure text. -/
theorem SameButSecrets.loadInput (h : SameButSecrets lib s t) (id : Uuid) :
    (∃ e, loadInput lib {} s id = .error e ∧ loadInput lib {} t id = .error e) ∨
      ∃ p q, loadInput lib {} s id = .ok p ∧ loadInput lib {} t id = .ok q ∧
        p.withoutSecure = q.withoutSecure := by
  have hinputs := h.inputs id
  unfold Api.loadInput Api.getObject
  cases hs : s.objects.lookup (inputKey id) with
  | none =>
      cases ht : t.objects.lookup (inputKey id) with
      | none => exact Or.inl ⟨_, rfl, rfl⟩
      | some object => simp [hs, ht] at hinputs
  | some object =>
      cases ht : t.objects.lookup (inputKey id) with
      | none => simp [hs, ht] at hinputs
      | some object' =>
          simp only [hs, ht, Option.map_some, Option.some.injEq, publicInput] at hinputs
          show (∃ e, openInput lib object = .error e ∧ openInput lib object' = .error e) ∨
            ∃ p q, openInput lib object = .ok p ∧ openInput lib object' = .ok q ∧ _
          cases hp : openInput lib object with
          | error e =>
              cases hq : openInput lib object' with
              | error e' =>
                  simp only [hp, hq, Except.map, Except.error.injEq] at hinputs
                  exact Or.inl ⟨e, rfl, by rw [hinputs]⟩
              | ok q => simp [hp, hq, Except.map] at hinputs
          | ok p =>
              cases hq : openInput lib object' with
              | error e' => simp [hp, hq, Except.map] at hinputs
              | ok q =>
                  simp only [hp, hq, Except.map, Except.ok.injEq] at hinputs
                  exact Or.inr ⟨p, q, rfl, rfl, hinputs⟩

theorem nullable_str_injective {a b : Option Text} (h : nullable Json.str a = nullable Json.str b) :
    a = b := by
  cases a with
  | none =>
      cases b with
      | none => rfl
      | some b => cases h
  | some a =>
      cases b with
      | none => cases h
      | some b =>
          rw [nullable, nullable, Json.str.injEq] at h
          rw [h]

/-- The response for an input shows its secure text. -/
theorem runInput_eq_iff {p q : RunInputPayload} (h : p.withoutSecure = q.withoutSecure) :
    runInput p = runInput q ↔ p.pipelineVarsSecure = q.pipelineVarsSecure := by
  obtain ⟨data, vars, secure, dry, level, retry⟩ := p
  obtain ⟨data', vars', secure', dry', level', retry'⟩ := q
  simp only [RunInputPayload.withoutSecure, RunInputPayload.mk.injEq] at h
  obtain ⟨rfl, rfl, -, rfl, rfl, rfl⟩ := h
  constructor
  · intro hshown
    simp only [runInput, List.cons.injEq, Prod.mk.injEq, true_and, and_true] at hshown
    exact nullable_str_injective hshown
  · intro hsecure
    have hsame : secure = secure' := hsecure
    rw [hsame]

/-- The handler of inputs tells the two states apart exactly when it shows a secure text in which
they differ. -/
theorem SameButSecrets.getRunInput_iff (h : SameButSecrets lib s t) (id : Uuid) :
    getRunInput lib outage s id = getRunInput lib outage t id ↔
      ¬((s.runs.lookup id).isSome = true ∧ outage.object (inputKey id) = false ∧
        SecretsDiffer lib s t id) := by
  unfold getRunInput
  rw [← h.runs, loadInput_outage (s := s), loadInput_outage (s := t)]
  cases hrun : s.runs.lookup id with
  | none => simp
  | some run =>
      cases hdown : outage.object (inputKey id) with
      | true => simp
      | false =>
          simp only [Bool.false_eq_true, if_false, Option.isSome_some, true_and]
          rcases h.loadInput id with ⟨e, hs, ht⟩ | ⟨p, q, hs, ht, hpublic⟩
          · rw [hs, ht]
            refine iff_of_true rfl ?_
            rintro ⟨p, q, hp, -⟩
            cases hs.symm.trans hp
          · rw [hs, ht]
            have hdiffer : SecretsDiffer lib s t id ↔
                p.pipelineVarsSecure ≠ q.pipelineVarsSecure := by
              constructor
              · rintro ⟨p', q', hp, hq, hne⟩
                cases hs.symm.trans hp
                cases ht.symm.trans hq
                exact hne
              · intro hne
                exact ⟨p, q, hs, ht, hne⟩
            rw [hdiffer, not_not, ← runInput_eq_iff hpublic]
            simp [ok]

end Api

namespace ArgoBackend

variable {operator : Operator} {config : Config}

/-- No route that writes has a safe method. -/
theorem safe_route_reads {r : Route} (hr : r ∈ apiRoutes) (hsafe : isSafeMethod r.method = true) :
    r.target ≠ .write := by
  have hall : ∀ r ∈ apiRoutes, isSafeMethod r.method = true → r.target ≠ .write := by decide
  exact hall r hr hsafe

theorem follow_eq_route (hweb : operator.web.MatchesMethod) {method : Text} {hasBody : Bool} {requests : Nat}
    {received : Text × Text} {route : Route} {params : List Text} {path rawQuery : Text}
    (h : follow operator method hasBody requests received = .route route params path rawQuery) :
    route ∈ apiRoutes ∧ route.method = method := by
  induction requests generalizing received with
  | zero => cases h
  | succ requests ih =>
      rw [follow] at h
      split at h
      · next hroute =>
        cases h
        exact hweb _ _ _ _ hroute
      · cases h
      · cases h
      · cases h
      · split at h
        · cases h
        · split at h
          · cases h
          · exact ih h

theorem passThrough_eq_route (hweb : operator.web.MatchesMethod) {r : Request} {route : Route}
    {params : List Text} {path rawQuery : Text}
    (h : passThrough operator r = .route route params path rawQuery) :
    route ∈ apiRoutes ∧ route.method = r.method := by
  obtain ⟨text, htext⟩ :
    ∃ text, (if r.path.isEmpty then "/".toList else r.path) ++ query r.rawQuery = text := ⟨_, rfl⟩
  simp only [passThrough, htext] at h
  split at h
  · cases h
  · split at h
    · cases h
    · exact follow_eq_route hweb h

variable (operator config) in
/-- A request that reaches the operator is safe or comes from a writer. -/
theorem routed_cases (r : Request) : (∃ reply, routed operator config r = .reply reply) ∨
    ((isSafeMethod r.method = true ∨ config.rbac.isWriter r = true) ∧
      routed operator config r = passThrough operator r) := by
  unfold routed
  split
  · exact Or.inl ⟨_, rfl⟩
  · split
    · exact Or.inl ⟨_, rfl⟩
    · split
      · exact Or.inl ⟨_, rfl⟩
      · split
        · exact Or.inl ⟨_, rfl⟩
        · split
          · exact Or.inl ⟨_, rfl⟩
          · next hgate =>
            refine Or.inr ⟨?_, rfl⟩
            by_contra hneither
            rw [not_or, Bool.not_eq_true, Bool.not_eq_true] at hneither
            exact hgate (by rw [hneither.1, hneither.2]; rfl)

/-- Users without write access reach reading routes only. -/
theorem routed_reads (hweb : operator.web.MatchesMethod) {r : Request} (hreader : config.rbac.isWriter r = false)
    {route : Route} {params : List Text} {path rawQuery : Text}
    (h : routed operator config r = .route route params path rawQuery) :
    ∃ handler, route.target = .read handler := by
  rcases routed_cases operator config r with ⟨reply, hreply⟩ | ⟨hgate, hpass⟩
  · cases hreply.symm.trans h
  · have hsafe : isSafeMethod r.method = true := hgate.resolve_right (by simp [hreader])
    obtain ⟨hroute, hmethod⟩ := passThrough_eq_route hweb (hpass.symm.trans h)
    have hread := safe_route_reads hroute (by rw [hmethod]; exact hsafe)
    cases htarget : route.target with
    | read handler => exact ⟨handler, rfl⟩
    | write => exact absurd htarget hread

/-- They call nothing over MCP. -/
theorem routed_mcp (hcalls : operator.CallsUnsafely) {r : Request} (hreader : config.rbac.isWriter r = false)
    {path : Text} (h : routed operator config r = .mcp path) : ∃ a, operator.mcp r path = .transport a := by
  rcases routed_cases operator config r with ⟨reply, hreply⟩ | ⟨hgate, -⟩
  · cases hreply.symm.trans h
  · have hnone := hcalls r path (hgate.resolve_right (by simp [hreader]))
    cases hturn : operator.mcp r path with
    | transport a => exact ⟨a, rfl⟩
    | call => exact absurd hturn hnone

/-! ### Responses to users without write access -/

/-- The request reads the stored input of an existing run, and the secure texts differ. -/
structure Reveals (operator : Operator) (config : Config) (s t : OperatorState) (x : Exchange)
    (id : Uuid) : Prop where
  routed : ∃ route params path rawQuery,
    routed operator config x.request = .route route params path rawQuery ∧
      route.target = .read .getRunInput ∧ operator.parameters.uuid (param params 0) = .ok id
  served : x.unreachable = false ∧ x.outage.database = false ∧
    x.outage.object (inputKey id) = false
  exists_run : (s.runs.lookup id).isSome = true
  differ : SecretsDiffer operator.reads s t id

variable {s t : OperatorState}

/-- The backend is configured with the admin token of the operator, and `HTTPBearer` reads it in the header. -/
structure Admitted (operator : Operator) (config : Config) : Prop where
  admin : config.operatorToken = operator.settings.apiAdminToken
  token : config.operatorToken ≠ []
  bearer : operator.web.bearer (some ("Bearer ".toList ++ config.operatorToken)) = some config.operatorToken

/-- With the admin token the operator serves every route. -/
theorem serveRoute_read (hadmitted : Admitted operator config) (x : Exchange) {route : Route} {handler : Read}
    (hread : route.target = .read handler) (params : List Text) (path rawQuery : Text) (s : OperatorState) :
    serveRoute operator config x route params path rawQuery s =
      (readRoute operator x handler params rawQuery s, s) := by
  have hauthorization : config.authorization = some ("Bearer ".toList ++ config.operatorToken) := by
    rw [Config.authorization, if_neg]
    rw [List.isEmpty_iff]
    exact hadmitted.token
  rw [serveRoute, hauthorization, hadmitted.bearer, hadmitted.admin,
    requireApiToken_admin (hadmitted.admin ▸ hadmitted.token), hread]

variable (config) in
/-- Over MCP users without write access get an answer that depends on no state. -/
theorem serveMcp_transport (x : Exchange) {path : Text} {a : Answer}
    (h : operator.mcp x.request path = .transport a) :
    ∃ a', ∀ s, serveMcp operator config x path s = (a', s) := by
  unfold serveMcp
  rw [h]
  split
  · exact ⟨_, fun _ => rfl⟩
  · exact ⟨_, fun _ => rfl⟩
  · exact ⟨_, fun _ => rfl⟩

/-- Users without write access change nothing. -/
theorem serve_state (hweb : operator.web.MatchesMethod) (hcalls : operator.CallsUnsafely)
    (hadmitted : Admitted operator config) {x : Exchange} (hreader : config.rbac.isWriter x.request = false)
    (s : OperatorState) : (serve operator config x s).2 = s := by
  unfold serve
  split
  · rfl
  · rfl
  · next hmcp =>
    obtain ⟨a, ha⟩ := routed_mcp hcalls hreader hmcp
    obtain ⟨a', ha'⟩ := serveMcp_transport config x ha
    split
    · rfl
    · rw [ha']
  · next hroute =>
    obtain ⟨handler, hread⟩ := routed_reads hweb hreader hroute
    split
    · rfl
    · rw [serveRoute_read hadmitted x hread]

/-- The endpoint for inputs belongs to one route. -/
theorem endpoint_eq_getRunInput {lib : ParameterLibrary} {handler : Read} {params : List Text}
    {rawQuery : Text} {id : Uuid}
    (h : endpoint lib handler params rawQuery = .ok (.getRunInput id)) :
    handler = .getRunInput ∧ lib.uuid (param params 0) = .ok id := by
  cases handler with
  | getRunInput =>
      obtain ⟨id', huuid, hid⟩ := map_eq_ok.mp h
      cases hid
      exact ⟨rfl, huuid⟩
  | getProfile => cases h
  | listTimezones => cases h
  | _ =>
      obtain ⟨_, -, hendpoint⟩ := map_eq_ok.mp h
      cases hendpoint

theorem Reveals.endpoint {x : Exchange} {id : Uuid} (h : Reveals operator config s t x id) {route : Route}
    {handler : Read} {params : List Text} {path rawQuery : Text}
    (hrouted : ArgoBackend.routed operator config x.request = .route route params path rawQuery)
    (hread : route.target = .read handler) :
    Api.endpoint operator.parameters handler params rawQuery = .ok (.getRunInput id) := by
  obtain ⟨route', params', path', rawQuery', hrouted', htarget, huuid⟩ := h.routed
  cases hrouted.symm.trans hrouted'
  cases hread.symm.trans htarget
  exact map_eq_ok.mpr ⟨id, huuid, rfl⟩

/-- The reply to a request for a reading route. -/
theorem serve_read (hadmitted : Admitted operator config) {x : Exchange} {route : Route} {handler : Read}
    {params : List Text} {path rawQuery : Text}
    (hrouted : routed operator config x.request = .route route params path rawQuery)
    (hread : route.target = .read handler) (s : OperatorState) :
    (serve operator config x s).1 =
      if x.unreachable then operatorUnreachable
      else .copied (readRoute operator x handler params rawQuery s) := by
  simp only [serve, hrouted, serveRoute_read hadmitted x hread]
  cases x.unreachable with
  | true => rfl
  | false => rfl

/-- The answers for an input differ exactly when it is revealed. -/
theorem answer_getRunInput_iff (hsame : SameButSecrets operator.reads s t) (outage : Outage)
    (id : Uuid) :
    answer operator.reads outage s (.getRunInput id) =
        answer operator.reads outage t (.getRunInput id) ↔
      ¬(outage.database = false ∧ (s.runs.lookup id).isSome = true ∧
        outage.object (inputKey id) = false ∧ SecretsDiffer operator.reads s t id) := by
  unfold answer
  cases outage.database with
  | true => simp [Endpoint.usesDatabase]
  | false =>
      simp only [Endpoint.usesDatabase, Bool.and_false, Bool.false_eq_true, if_false, true_and]
      exact hsame.getRunInput_iff id

/-- Both states answer one request the same exactly when it reveals no secret. -/
theorem serve_eq_iff (hweb : operator.web.MatchesMethod) (hcalls : operator.CallsUnsafely)
    (hadmitted : Admitted operator config) (hsame : SameButSecrets operator.reads s t) {x : Exchange}
    (hreader : config.rbac.isWriter x.request = false) :
    (serve operator config x s).1 = (serve operator config x t).1 ↔
      ∀ id, ¬Reveals operator config s t x id := by
  cases hrouted : routed operator config x.request with
  | reply r =>
      have hserve : ∀ u, (serve operator config x u).1 = r := by
        intro u
        rw [serve, hrouted]
      refine iff_of_true (by rw [hserve, hserve]) fun id hreveals => ?_
      obtain ⟨_, _, _, _, hroute, -⟩ := hreveals.routed
      cases hrouted.symm.trans hroute
  | mcp path =>
      obtain ⟨a, ha⟩ := routed_mcp hcalls hreader hrouted
      obtain ⟨a', ha'⟩ := serveMcp_transport config x ha
      have hserve : ∀ u, (serve operator config x u).1 =
          if x.unreachable then operatorUnreachable else .copied a' := by
        intro u
        simp only [serve, hrouted, ha']
        cases x.unreachable with
        | true => rfl
        | false => rfl
      refine iff_of_true (by rw [hserve, hserve]) fun id hreveals => ?_
      obtain ⟨_, _, _, _, hroute, -⟩ := hreveals.routed
      cases hrouted.symm.trans hroute
  | answered a =>
      have hserve : ∀ u, (serve operator config x u).1 =
          if x.unreachable then operatorUnreachable else .copied a := by
        intro u
        rw [serve, hrouted]
      refine iff_of_true (by rw [hserve, hserve]) fun id hreveals => ?_
      obtain ⟨_, _, _, _, hroute, -⟩ := hreveals.routed
      cases hrouted.symm.trans hroute
  | route route params path rawQuery =>
      obtain ⟨handler, hread⟩ := routed_reads hweb hreader hrouted
      rw [serve_read hadmitted hrouted hread, serve_read hadmitted hrouted hread]
      cases hdown : x.unreachable with
      | true =>
          apply iff_of_true rfl
          intro id hreveals
          cases hdown.symm.trans hreveals.served.1
      | false =>
          simp only [Bool.false_eq_true, if_false, Reply.copied.injEq, readRoute]
          cases hendpoint : endpoint operator.parameters handler params rawQuery with
          | error errors =>
              apply iff_of_true rfl
              intro id hreveals
              cases hendpoint.symm.trans (hreveals.endpoint hrouted hread)
          | ok e =>
              by_cases he : ∃ id, e = .getRunInput id
              · obtain ⟨id, rfl⟩ := he
                obtain ⟨rfl, huuid⟩ := endpoint_eq_getRunInput hendpoint
                rw [answer_getRunInput_iff hsame]
                constructor
                · intro hsilent id' hreveals
                  cases hendpoint.symm.trans (hreveals.endpoint hrouted hread)
                  exact hsilent ⟨hreveals.served.2.1, hreveals.exists_run, hreveals.served.2.2,
                    hreveals.differ⟩
                · rintro hsilent ⟨hdatabase, hrun, hobject, hdiffer⟩
                  exact hsilent id ⟨⟨route, params, path, rawQuery, hrouted, hread, huuid⟩,
                    ⟨hdown, hdatabase, hobject⟩, hrun, hdiffer⟩
              · refine iff_of_true (hsame.answer fun id hid => he ⟨id, hid⟩) fun id hreveals => ?_
                cases hendpoint.symm.trans (hreveals.endpoint hrouted hread)
                exact he ⟨id, rfl⟩

/-- **Read-only users and secrets.** For two states that differ only in the secure texts of stored
inputs, the responses to any sequence of requests of users without write access are the same exactly
when no request reads the input of a run whose secure text differs. -/
theorem readOnly_responses_eq_iff (hweb : operator.web.MatchesMethod) (hcalls : operator.CallsUnsafely)
    (hadmitted : Admitted operator config) (hsame : SameButSecrets operator.reads s t)
    {exchanges : List Exchange}
    (hreaders : ∀ x ∈ exchanges, config.rbac.isWriter x.request = false) :
    outputs (serve operator config) exchanges s = outputs (serve operator config) exchanges t ↔
      ∀ x ∈ exchanges, ∀ id, ¬Reveals operator config s t x id := by
  have hrelated : s = s ∧ t = t := ⟨rfl, rfl⟩
  refine outputs_eq_iff (R := fun u v => u = s ∧ v = t) ?_ ?_ hreaders hrelated
  · rintro x u v hreader ⟨rfl, rfl⟩
    exact ⟨serve_state hweb hcalls hadmitted hreader _, serve_state hweb hcalls hadmitted hreader _⟩
  · rintro x u v hreader ⟨rfl, rfl⟩
    exact serve_eq_iff hweb hcalls hadmitted hsame hreader

/-- A payload with one secure variable, and the JSON text under which it is encrypted. -/
def tokenPayload (value : Text) : RunInputPayload where
  pipelineData := "stages: []".toList
  pipelineVarsSecure := some ("TOKEN=".toList ++ value)
  isDryRun := false
  logLevel := "INFO".toList

def tokenPlaintext (value : Text) : List UInt8 :=
  ("\x7b\"pipeline_data\":\"stages: []\",\"pipeline_vars\":null,".toList ++
    "\"pipeline_vars_secure\":\"TOKEN=".toList ++ value ++
    "\",\"is_dry_run\":false,\"log_level\":\"INFO\",\"retry_vars\":null\x7d".toList).map
      fun c => UInt8.ofNat c.toNat

/-- The framework as it treats the admin token and the two paths of the run `1`. -/
def sampleWeb : WebLibrary where
  bearer authorization := if authorization = some "Bearer admin".toList then some "admin".toList else none
  route method path :=
    if method = "GET".toList then
      if path = "/api/v1/runs/".toList ++ Uuid.str 1 then
        .route (get [lit "runs", .param] .getRun) [Uuid.str 1]
      else if path = "/api/v1/runs/".toList ++ Uuid.str 1 ++ "/input".toList then
        .route (get [lit "runs", .param, lit "input"] .getRunInput) [Uuid.str 1]
      else .notFound
    else .notFound

theorem matchesMethod_sampleWeb : sampleWeb.MatchesMethod := by
  intro method path route params h
  simp only [sampleWeb] at h
  split at h
  · next hmethod =>
    split at h
    · cases h
      exact ⟨by decide, hmethod.symm⟩
    · split at h
      · cases h
        exact ⟨by decide, hmethod.symm⟩
      · cases h
  · cases h

/-- The libraries as they treat two ciphertexts, `[1]` and `[2]`, and the id `1`. -/
def sampleOperator : Operator where
  settings := { apiAdminToken := "admin".toList }
  unquote path := path
  web := sampleWeb
  tokens :=
    { jwtDecode := fun _ => none
      uuid := fun text => if text = Uuid.str 1 then some 1 else none
      str := fun _ => [] }
  parameters :=
    { uuid := fun text => if text = Uuid.str 1 then .ok 1 else .error .null
      page := fun _ => .ok { offset := 0, limit := 20 }
      runsQuery := fun _ => .error .null
      runTemplatesQuery := fun _ => .error .null
      schedulesQuery := fun _ => .error .null }
  reads :=
    { decrypt := fun ciphertext =>
        if ciphertext = [1] then some (tokenPlaintext "a".toList)
        else if ciphertext = [2] then some (tokenPlaintext "b".toList)
        else none
      parsePayload := fun plaintext =>
        if plaintext = tokenPlaintext "a".toList then some (tokenPayload "a".toList)
        else if plaintext = tokenPlaintext "b".toList then some (tokenPayload "b".toList)
        else none
      isoFormat := fun _ => []
      ilike := fun _ _ => false
      textLE := fun _ _ => true
      jsonText := fun _ => []
      availableTimezones := [] }
  writes _ _ _ _ s := (Api.ok .null, s)
  mcp _ _ := .transport (httpException 406 "Not Acceptable".toList)
  mcpCalls _ s := (Api.ok .null, s)

/-- One user may write; the others may not. -/
def sampleConfig : Config where
  rbac := loadRBAC "operator-admin".toList []
  operatorToken := "admin".toList

/-- The run that `create_run` makes of that payload, with a ciphertext for its input. -/
def stateWith (ciphertext : UInt8) : OperatorState where
  runs := AList.singleton 1 (RunService.createRun {} 1
    { pipelineData := "stages: []".toList, pipelineVarsSecure := some "TOKEN=a".toList }
    { pdeImage := "pde:1".toList, envVars := [], resources := [], createdAt := 0, updatedAt := 0 }
    none 0)
  db := sampleDatabase
  objects := AList.singleton (inputKey 1)
    { body := [ciphertext], contentType := some "application/octet-stream".toList
      contentLength := some 1 }

/-- A request of a user without write access. -/
def viewer (method tail : String) : Exchange where
  request :=
    { method := method.toList
      escapedPath := "/runs/".toList ++ Uuid.str 1 ++ tail.toList
      path := "/runs/".toList ++ Uuid.str 1 ++ tail.toList
      rawQuery := []
      header := [(headerArgoUsername, "viewer".toList)]
      hasBody := false }

set_option maxRecDepth 4000 in
theorem sameButSecrets_stateWith :
    SameButSecrets sampleOperator.reads (stateWith 1) (stateWith 2) where
  runs := rfl
  db := rfl
  objects key hkey := by
    have hother : ∀ c, (stateWith c).objects.lookup key = none := fun c =>
      AList.lookup_eq_none.mpr fun hmem => hkey 1 (List.mem_singleton.mp hmem)
    rw [hother, hother]
  inputs id := by
    by_cases hid : id = 1
    · subst hid
      rfl
    · have hother : ∀ c, (stateWith c).objects.lookup (inputKey id) = none := by
        intro c
        refine AList.lookup_eq_none.mpr fun hmem => hid ?_
        have hkey : inputKey id = inputKey 1 := List.mem_singleton.mp hmem
        exact Uuid.str_injective (List.append_cancel_right hkey)
      rw [hother, hother]

/-- The detail of a run and a rejected cancel show no difference. -/
theorem viewer_detail_cancel :
    outputs (serve sampleOperator sampleConfig) [viewer "GET" "", viewer "POST" "/cancel"]
        (stateWith 1) =
      outputs (serve sampleOperator sampleConfig) [viewer "GET" "", viewer "POST" "/cancel"]
        (stateWith 2) := by
  have hadmitted : Admitted sampleOperator sampleConfig := ⟨rfl, by decide, rfl⟩
  have hreaders : ∀ x ∈ [viewer "GET" "", viewer "POST" "/cancel"],
      sampleConfig.rbac.isWriter x.request = false := by
    decide
  refine (readOnly_responses_eq_iff matchesMethod_sampleWeb (fun _ _ _ h => by cases h) hadmitted
    sameButSecrets_stateWith hreaders).mpr ?_
  intro x hx id hreveals
  obtain ⟨route, params, path, rawQuery, hrouted, htarget, -⟩ := hreveals.routed
  rcases List.mem_cons.mp hx with rfl | hx
  · cases hrouted
    cases htarget
  · cases List.mem_singleton.mp hx
    cases hrouted

set_option maxRecDepth 4000 in
/-- The input of the run shows the secret. -/
theorem viewer_input :
    SameButSecrets sampleOperator.reads (stateWith 1) (stateWith 2) ∧
      sampleOperator.web.MatchesMethod ∧ sampleOperator.CallsUnsafely ∧
      Admitted sampleOperator sampleConfig ∧ sampleConfig.rbac.isWriter (viewer "GET" "/input").request = false ∧
      outputs (serve sampleOperator sampleConfig) [viewer "GET" "/input"] (stateWith 1) =
        [.copied (Api.ok (.obj (runInput (tokenPayload "a".toList))))] ∧
      outputs (serve sampleOperator sampleConfig) [viewer "GET" "/input"] (stateWith 1) ≠
        outputs (serve sampleOperator sampleConfig) [viewer "GET" "/input"] (stateWith 2) := by
  have hfirst : outputs (serve sampleOperator sampleConfig) [viewer "GET" "/input"] (stateWith 1) =
      [.copied (Api.ok (.obj (runInput (tokenPayload "a".toList))))] := rfl
  have hsecond : outputs (serve sampleOperator sampleConfig) [viewer "GET" "/input"] (stateWith 2) =
      [.copied (Api.ok (.obj (runInput (tokenPayload "b".toList))))] := rfl
  refine ⟨sameButSecrets_stateWith, matchesMethod_sampleWeb, (fun _ _ _ h => by cases h),
    ⟨rfl, by decide, rfl⟩, by decide, hfirst, ?_⟩
  rw [hfirst, hsecond]
  decide

end ArgoBackend
end PdeOperator
