import PdeOperator.BasePath
import PdeOperator.BaseUuid
import PdeOperator.ConfigImport

/-! The routes of the UI (`app/routing.ts`): a path is printed for a view and parsed back. Fixed words and
ids share the segments of a path. -/

namespace PdeOperator
open Base

namespace Routing

inductive Tab where
  | catalog | list | detail | create | profiles | schedules | settings
  deriving DecidableEq

inductive CreateMode where
  | create | retry
  deriving DecidableEq

/-- `ProfileSubview`, `CatalogSubview` and `ScheduleSubview` -/
inductive Subview where
  | list | create | edit
  deriving DecidableEq

inductive DetailSubview where
  | info | logs | viewer
  deriving DecidableEq

/-- The defaults are those of `emptyRoute`. -/
structure RouteState where
  tab : Tab := .catalog
  createMode : CreateMode := .create
  runId : Text := []
  templateId : Text := []
  profileSubview : Subview := .list
  profileId : Text := []
  catalogSubview : Subview := .list
  catalogId : Text := []
  scheduleSubview : Subview := .list
  scheduleId : Text := []
  detailSubview : DetailSubview := .info
  deriving DecidableEq

def emptyRoute : RouteState := {}

def DetailSubview.text : DetailSubview → Text
  | .info => "info".toList
  | .logs => "logs".toList
  | .viewer => "viewer".toList

/-- `DETAIL_SUBVIEWS.has(sub) ? sub : "info"` -/
def DetailSubview.ofPart (sub : Option Text) : DetailSubview :=
  if sub = some "info".toList then .info
  else if sub = some "logs".toList then .logs
  else if sub = some "viewer".toList then .viewer
  else .info

/-- The segments of a path behind the prefix. -/
def routeParts (routePrefix pathname : Text) : List Text :=
  let rest := if pathname = routePrefix ∨ (routePrefix ++ ['/']).isPrefixOf pathname = true
    then pathname.drop routePrefix.length else []
  (rest.splitOn '/').filter fun part => !part.isEmpty

/-- The id in front of `edit`. -/
def editedId : List Text → Option Text
  | id :: action :: _ => if action = "edit".toList then some id else none
  | _ => none

/-- The id behind `from`. -/
def sourceId : List Text → Option Text
  | word :: id :: _ => if word = "from".toList then some id else none
  | _ => none

def parseCatalog (parts : List Text) : RouteState :=
  if parts.head? = some "new".toList then { emptyRoute with tab := .catalog, catalogSubview := .create }
  else match editedId parts with
    | some id => { emptyRoute with tab := .catalog, catalogSubview := .edit, catalogId := id }
    | none => { emptyRoute with tab := .catalog, catalogSubview := .list }

/-- Both branches of `runs`: a run, and the list with its filters. -/
def parseRuns : List Text → RouteState
  | [] => { emptyRoute with tab := .list }
  | word :: parts =>
      if word ≠ "template".toList ∧ word ≠ "schedule".toList then
        { emptyRoute with tab := .detail, runId := word, detailSubview := .ofPart parts.head? }
      else match parts with
        | [] => { emptyRoute with tab := .list }
        | id :: _ =>
            if word = "template".toList then { emptyRoute with tab := .list, templateId := id }
            else { emptyRoute with tab := .list, scheduleId := id }

def parseCreate (parts : List Text) : RouteState :=
  match sourceId parts with
  | some id => { emptyRoute with tab := .create, createMode := .create, templateId := id }
  | none => { emptyRoute with tab := .create, createMode := .create }

def parseRetry : List Text → RouteState
  | [] => emptyRoute
  | id :: _ => { emptyRoute with tab := .create, createMode := .retry, runId := id }

def parseProfiles (parts : List Text) : RouteState :=
  if parts.head? = some "new".toList then { emptyRoute with tab := .profiles, profileSubview := .create }
  else match editedId parts with
    | some id => { emptyRoute with tab := .profiles, profileSubview := .edit, profileId := id }
    | none => { emptyRoute with tab := .profiles, profileSubview := .list }

def parseSchedules (parts : List Text) : RouteState :=
  if parts.head? = some "new".toList then
    match sourceId parts.tail with
    | some id => { emptyRoute with tab := .schedules, scheduleSubview := .create, templateId := id }
    | none => { emptyRoute with tab := .schedules, scheduleSubview := .create }
  else match editedId parts with
    | some id => { emptyRoute with tab := .schedules, scheduleSubview := .edit, scheduleId := id }
    | none => { emptyRoute with tab := .schedules, scheduleSubview := .list }

/-- The first segment decides. -/
def parseParts : List Text → RouteState
  | [] => emptyRoute
  | word :: parts =>
      if word = "catalog".toList then parseCatalog parts
      else if word = "runs".toList then parseRuns parts
      else if word = "create".toList then parseCreate parts
      else if word = "retry".toList then parseRetry parts
      else if word = "profiles".toList then parseProfiles parts
      else if word = "schedules".toList then parseSchedules parts
      else if word = "settings".toList then { emptyRoute with tab := .settings }
      else emptyRoute

def parseRoute (routePrefix pathname : Text) : RouteState := parseParts (routeParts routePrefix pathname)

/-- The segments of the path of a view. -/
def segmentsFor (state : RouteState) : List Text :=
  match state.tab with
  | .catalog =>
      if state.catalogSubview = .create then ["catalog".toList, "new".toList]
      else if state.catalogSubview = .edit ∧ state.catalogId ≠ [] then
        ["catalog".toList, state.catalogId, "edit".toList]
      else ["catalog".toList]
  | .detail =>
      if state.runId ≠ [] then ["runs".toList, state.runId, state.detailSubview.text] else ["runs".toList]
  | .create =>
      if state.createMode = .retry ∧ state.runId ≠ [] then ["retry".toList, state.runId]
      else if state.templateId ≠ [] then ["create".toList, "from".toList, state.templateId]
      else ["create".toList]
  | .profiles =>
      if state.profileSubview = .create then ["profiles".toList, "new".toList]
      else if state.profileSubview = .edit ∧ state.profileId ≠ [] then
        ["profiles".toList, state.profileId, "edit".toList]
      else ["profiles".toList]
  | .schedules =>
      if state.scheduleSubview = .create then
        if state.templateId ≠ [] then ["schedules".toList, "new".toList, "from".toList, state.templateId]
        else ["schedules".toList, "new".toList]
      else if state.scheduleSubview = .edit ∧ state.scheduleId ≠ [] then
        ["schedules".toList, state.scheduleId, "edit".toList]
      else ["schedules".toList]
  | .settings => ["settings".toList]
  | .list =>
      if state.templateId ≠ [] then ["runs".toList, "template".toList, state.templateId]
      else if state.scheduleId ≠ [] then ["runs".toList, "schedule".toList, state.scheduleId]
      else ["runs".toList]

/-- The templates of the source, such as the one of the path of a run, are these segments behind slashes. -/
def pathFor (routePrefix : Text) (state : RouteState) : Text :=
  routePrefix ++ pathOf '/' (segmentsFor state)

/-- The base of the page without its last slash. -/
def trimSlash (path : Text) : Text := if path.getLast? = some '/' then path.dropLast else path

/-- The path of the browser for a path of the application. -/
def browserPath (base appPath : Text) : Text := trimSlash base ++ appPath

/-- `text || "/"` -/
def orSlash (path : Text) : Text := if path = [] then ['/'] else path

def appPathname (base pathname : Text) : Text :=
  let path := if trimSlash base ≠ [] ∧ (trimSlash base).isPrefixOf pathname = true
    then orSlash (pathname.drop (trimSlash base).length) else pathname
  orSlash (trimSlash path)

/-- The text of a UUID, in lower or upper case. -/
def IsUuidText (text : Text) : Prop := ∃ id : Uuid, text.map Char.toLower = Uuid.str id

/-- A view with the ids that its tab uses; everything else is at its default. -/
inductive Navigable : RouteState → Prop
  | catalogList : Navigable { tab := .catalog }
  | catalogCreate : Navigable { tab := .catalog, catalogSubview := .create }
  | catalogEdit {id} (hid : IsUuidText id) :
      Navigable { tab := .catalog, catalogSubview := .edit, catalogId := id }
  | list : Navigable { tab := .list }
  | listOfTemplate {id} (hid : IsUuidText id) : Navigable { tab := .list, templateId := id }
  | listOfSchedule {id} (hid : IsUuidText id) : Navigable { tab := .list, scheduleId := id }
  | detail {id} (hid : IsUuidText id) (subview : DetailSubview) :
      Navigable { tab := .detail, runId := id, detailSubview := subview }
  | create : Navigable { tab := .create }
  | createFrom {id} (hid : IsUuidText id) : Navigable { tab := .create, templateId := id }
  | retry {id} (hid : IsUuidText id) : Navigable { tab := .create, createMode := .retry, runId := id }
  | profilesList : Navigable { tab := .profiles }
  | profilesCreate : Navigable { tab := .profiles, profileSubview := .create }
  | profilesEdit {id} (hid : ConfigImport.validProfileId id = true) :
      Navigable { tab := .profiles, profileSubview := .edit, profileId := id }
  | schedulesList : Navigable { tab := .schedules }
  | schedulesCreate : Navigable { tab := .schedules, scheduleSubview := .create }
  | schedulesCreateFrom {id} (hid : IsUuidText id) :
      Navigable { tab := .schedules, scheduleSubview := .create, templateId := id }
  | schedulesEdit {id} (hid : IsUuidText id) :
      Navigable { tab := .schedules, scheduleSubview := .edit, scheduleId := id }
  | settings : Navigable { tab := .settings }

/-- What a path keeps together. -/
structure IsSegment (text : Text) : Prop where
  ne_nil : text ≠ []
  notMem : '/' ∉ text

instance (text : Text) : Decidable (IsSegment text) :=
  decidable_of_iff (text ≠ [] ∧ '/' ∉ text) ⟨fun h => ⟨h.1, h.2⟩, fun h => ⟨h.ne_nil, h.notMem⟩⟩

theorem IsUuidText.length_eq {id : Text} (h : IsUuidText id) : id.length = 36 := by
  obtain ⟨uuid, huuid⟩ := h
  rw [← List.length_map Char.toLower, huuid, Uuid.length_str]

theorem IsUuidText.ne_of_length {id word : Text} (h : IsUuidText id) (hword : word.length ≠ 36) :
    id ≠ word := by
  rintro rfl
  exact hword h.length_eq

theorem IsUuidText.isSegment {id : Text} (h : IsUuidText id) : IsSegment id := by
  refine ⟨h.ne_of_length (by decide), fun hslash => ?_⟩
  obtain ⟨uuid, huuid⟩ := h
  have hmem : '/' ∈ Uuid.str uuid := by
    rw [← huuid]
    exact List.mem_map.mpr ⟨'/', hslash, rfl⟩
  have hother := Uuid.all_str (p := fun c => c != '/') (by decide) rfl uuid '/' hmem
  cases hother

theorem isSegment_of_validProfileId {id : Text} (h : ConfigImport.validProfileId id = true) :
    IsSegment id := by
  cases id with
  | nil => cases h
  | cons c rest =>
      simp only [ConfigImport.validProfileId, Bool.and_eq_true] at h
      obtain ⟨⟨hstart, hrest⟩, -⟩ := h
      refine ⟨List.cons_ne_nil _ _, fun hslash => ?_⟩
      rcases List.mem_cons.mp hslash with rfl | hslash
      · cases hstart
      · cases List.all_eq_true.mp hrest '/' hslash

theorem isSegment_text (subview : DetailSubview) : IsSegment subview.text := by
  cases subview <;> exact ⟨by decide, by decide⟩

/-- The segments behind the prefix are found again, whatever the prefix is. -/
theorem routeParts_append {routePrefix : Text} {segments : List Text}
    (hsegments : ∀ segment ∈ segments, IsSegment segment) :
    routeParts routePrefix (routePrefix ++ pathOf '/' segments) = segments := by
  have hbehind : routePrefix ++ pathOf '/' segments = routePrefix ∨
      (routePrefix ++ ['/']).isPrefixOf (routePrefix ++ pathOf '/' segments) = true := by
    cases segments with
    | nil => exact Or.inl (List.append_nil _)
    | cons segment segments =>
        refine Or.inr (List.isPrefixOf_iff_prefix.mpr ⟨segment ++ pathOf '/' segments, ?_⟩)
        rw [pathOf_cons, List.append_assoc]
        rfl
  have hcut : (pathOf '/' segments).splitOn '/' = [] :: segments :=
    splitOn_pathOf List.not_mem_nil fun segment hsegment => (hsegments segment hsegment).notMem
  rw [routeParts, if_pos hbehind, List.drop_left, hcut, List.filter_cons_of_neg (by decide),
    List.filter_eq_self]
  intro segment hsegment
  rw [Bool.not_eq_true', List.isEmpty_eq_false_iff]
  exact (hsegments segment hsegment).ne_nil

/-! ### The round trip -/

section RoundTrip

variable {state : RouteState} {id : Text} {parts : List Text}

theorem parseParts_catalog : parseParts ("catalog".toList :: parts) = parseCatalog parts := rfl

theorem parseParts_runs : parseParts ("runs".toList :: parts) = parseRuns parts := rfl

theorem parseParts_profiles : parseParts ("profiles".toList :: parts) = parseProfiles parts := rfl

theorem parseParts_schedules : parseParts ("schedules".toList :: parts) = parseSchedules parts := rfl

theorem editedId_edit : editedId [id, "edit".toList] = some id := rfl

theorem ofPart_text (subview : DetailSubview) : DetailSubview.ofPart (some subview.text) = subview := by
  cases subview <;> rfl

/-- The segments of an edited template, profile or schedule. -/
theorem head?_edit_ne_new (hid : id ≠ "new".toList) :
    [id, "edit".toList].head? ≠ some "new".toList :=
  fun h => hid (Option.some.inj h)

theorem segmentsFor_catalogEdit (hid : IsSegment id) :
    segmentsFor { tab := .catalog, catalogSubview := .edit, catalogId := id } =
      ["catalog".toList, id, "edit".toList] := by
  simp [segmentsFor, hid.ne_nil]

theorem segmentsFor_listOfTemplate (hid : IsSegment id) :
    segmentsFor { tab := .list, templateId := id } = ["runs".toList, "template".toList, id] := by
  simp [segmentsFor, hid.ne_nil]

theorem segmentsFor_listOfSchedule (hid : IsSegment id) :
    segmentsFor { tab := .list, scheduleId := id } = ["runs".toList, "schedule".toList, id] := by
  simp [segmentsFor, hid.ne_nil]

theorem segmentsFor_detail (hid : IsSegment id) (subview : DetailSubview) :
    segmentsFor { tab := .detail, runId := id, detailSubview := subview } =
      ["runs".toList, id, subview.text] := by
  simp [segmentsFor, hid.ne_nil]

theorem segmentsFor_createFrom (hid : IsSegment id) :
    segmentsFor { tab := .create, templateId := id } = ["create".toList, "from".toList, id] := by
  simp [segmentsFor, hid.ne_nil]

theorem segmentsFor_retry (hid : IsSegment id) :
    segmentsFor { tab := .create, createMode := .retry, runId := id } = ["retry".toList, id] := by
  simp [segmentsFor, hid.ne_nil]

theorem segmentsFor_profilesEdit (hid : IsSegment id) :
    segmentsFor { tab := .profiles, profileSubview := .edit, profileId := id } =
      ["profiles".toList, id, "edit".toList] := by
  simp [segmentsFor, hid.ne_nil]

theorem segmentsFor_schedulesCreateFrom (hid : IsSegment id) :
    segmentsFor { tab := .schedules, scheduleSubview := .create, templateId := id } =
      ["schedules".toList, "new".toList, "from".toList, id] := by
  simp [segmentsFor, hid.ne_nil]

theorem segmentsFor_schedulesEdit (hid : IsSegment id) :
    segmentsFor { tab := .schedules, scheduleSubview := .edit, scheduleId := id } =
      ["schedules".toList, id, "edit".toList] := by
  simp [segmentsFor, hid.ne_nil]

/-- Each part of the path of a view is a segment. -/
theorem isSegment_of_mem_segmentsFor (h : Navigable state) :
    ∀ segment ∈ segmentsFor state, IsSegment segment := by
  have hbetween : ∀ {first last id : Text}, IsSegment first → IsSegment id → IsSegment last →
      ∀ segment ∈ [first, id, last], IsSegment segment := by
    intro first last id hfirst hid hlast
    simp only [List.forall_mem_cons]
    exact ⟨hfirst, hid, hlast, nofun⟩
  cases h with
  | catalogList | catalogCreate | list | create | profilesList | profilesCreate | schedulesList
  | schedulesCreate | settings => decide
  | catalogEdit hid =>
      rw [segmentsFor_catalogEdit hid.isSegment]
      exact hbetween (by decide) hid.isSegment (by decide)
  | listOfTemplate hid =>
      rw [segmentsFor_listOfTemplate hid.isSegment]
      exact hbetween (by decide) (by decide) hid.isSegment
  | listOfSchedule hid =>
      rw [segmentsFor_listOfSchedule hid.isSegment]
      exact hbetween (by decide) (by decide) hid.isSegment
  | detail hid subview =>
      rw [segmentsFor_detail hid.isSegment]
      exact hbetween (by decide) hid.isSegment (isSegment_text subview)
  | createFrom hid =>
      rw [segmentsFor_createFrom hid.isSegment]
      exact hbetween (by decide) (by decide) hid.isSegment
  | retry hid =>
      rw [segmentsFor_retry hid.isSegment]
      simp only [List.forall_mem_cons]
      exact ⟨by decide, hid.isSegment, nofun⟩
  | profilesEdit hid =>
      have hsegment := isSegment_of_validProfileId hid
      rw [segmentsFor_profilesEdit hsegment]
      exact hbetween (by decide) hsegment (by decide)
  | schedulesCreateFrom hid =>
      rw [segmentsFor_schedulesCreateFrom hid.isSegment, List.forall_mem_cons]
      exact ⟨by decide, hbetween (by decide) (by decide) hid.isSegment⟩
  | schedulesEdit hid =>
      rw [segmentsFor_schedulesEdit hid.isSegment]
      exact hbetween (by decide) hid.isSegment (by decide)

/-- The edit view of a profile whose id is the word for a new one. -/
def EditsNew (state : RouteState) : Prop :=
  state.tab = .profiles ∧ state.profileSubview = .edit ∧ state.profileId = "new".toList

/-- One case for each shape of a path. -/
theorem parseParts_segmentsFor_iff (h : Navigable state) :
    parseParts (segmentsFor state) = state ↔ ¬EditsNew state := by
  have hother : ∀ {state : RouteState}, state.tab ≠ .profiles → ¬EditsNew state :=
    fun htab hnew => htab hnew.1
  have hlist : ∀ {state : RouteState}, state.profileSubview ≠ .edit → ¬EditsNew state :=
    fun hsubview hnew => hsubview hnew.2.1
  cases h with
  | catalogList => exact iff_of_true rfl (hother nofun)
  | catalogCreate => exact iff_of_true rfl (hother nofun)
  | @catalogEdit id hid =>
      refine iff_of_true ?_ (hother nofun)
      rw [segmentsFor_catalogEdit hid.isSegment, parseParts_catalog, parseCatalog,
        if_neg (head?_edit_ne_new (hid.ne_of_length (by decide))), editedId_edit]
      rfl
  | list => exact iff_of_true rfl (hother nofun)
  | @listOfTemplate id hid =>
      refine iff_of_true ?_ (hother nofun)
      rw [segmentsFor_listOfTemplate hid.isSegment]
      rfl
  | @listOfSchedule id hid =>
      refine iff_of_true ?_ (hother nofun)
      rw [segmentsFor_listOfSchedule hid.isSegment]
      rfl
  | @detail id hid subview =>
      refine iff_of_true ?_ (hother nofun)
      have hwords : id ≠ "template".toList ∧ id ≠ "schedule".toList :=
        ⟨hid.ne_of_length (by decide), hid.ne_of_length (by decide)⟩
      rw [segmentsFor_detail hid.isSegment, parseParts_runs, parseRuns, if_pos hwords, List.head?_cons, ofPart_text]
      rfl
  | create => exact iff_of_true rfl (hother nofun)
  | @createFrom id hid =>
      refine iff_of_true ?_ (hother nofun)
      rw [segmentsFor_createFrom hid.isSegment]
      rfl
  | @retry id hid =>
      refine iff_of_true ?_ (hother nofun)
      rw [segmentsFor_retry hid.isSegment]
      rfl
  | profilesList => exact iff_of_true rfl (hlist nofun)
  | profilesCreate => exact iff_of_true rfl (hlist nofun)
  | @profilesEdit id hid =>
      rw [segmentsFor_profilesEdit (isSegment_of_validProfileId hid), parseParts_profiles, parseProfiles]
      by_cases hnew : id = "new".toList
      · subst hnew
        refine iff_of_false (fun h => ?_) fun h => h ⟨rfl, rfl, rfl⟩
        cases h
      · refine iff_of_true ?_ fun h => hnew h.2.2
        rw [if_neg (head?_edit_ne_new hnew), editedId_edit]
        rfl
  | schedulesList => exact iff_of_true rfl (hother nofun)
  | schedulesCreate => exact iff_of_true rfl (hother nofun)
  | @schedulesCreateFrom id hid =>
      refine iff_of_true ?_ (hother nofun)
      rw [segmentsFor_schedulesCreateFrom hid.isSegment]
      rfl
  | @schedulesEdit id hid =>
      refine iff_of_true ?_ (hother nofun)
      rw [segmentsFor_schedulesEdit hid.isSegment, parseParts_schedules, parseSchedules,
        if_neg (head?_edit_ne_new (hid.ne_of_length (by decide))), editedId_edit]
      rfl
  | settings => exact iff_of_true rfl (hother nofun)

theorem trimSlash_of_getLast? {path : Text} (h : path.getLast? ≠ some '/') : trimSlash path = path := if_neg h

/-- A path of segments that does not end with a slash. -/
theorem getLast?_append_pathOf (routePrefix : Text) {segments : List Text} (hne : segments ≠ [])
    (hsegments : ∀ segment ∈ segments, IsSegment segment) :
    (routePrefix ++ pathOf '/' segments).getLast? ≠ some '/' := by
  have hlast := hsegments _ (List.getLast_mem hne)
  rw [← List.dropLast_append_getLast hne, List.getLast?_append_of_ne_nil _ (by simp [pathOf_append]),
    getLast?_pathOf_concat hlast.ne_nil]
  exact fun h => hlast.notMem (List.mem_of_getLast? h)

/-- What the browser is given comes back, under every base of the page. -/
theorem appPathname_browserPath (base : Text) {path : Text} (hne : path ≠ [])
    (hlast : path.getLast? ≠ some '/') : appPathname base (browserPath base path) = path := by
  have hrest : (if trimSlash base ≠ [] ∧ (trimSlash base).isPrefixOf (trimSlash base ++ path) = true
      then orSlash ((trimSlash base ++ path).drop (trimSlash base).length)
      else trimSlash base ++ path) = path := by
    by_cases hbase : trimSlash base = []
    · rw [if_neg fun h => h.1 hbase, hbase, List.nil_append]
    · rw [if_pos ⟨hbase, List.isPrefixOf_iff_prefix.mpr (List.prefix_append _ _)⟩, List.drop_left]
      exact if_neg hne
  show orSlash (trimSlash _) = path
  rw [browserPath, hrest, trimSlash_of_getLast? hlast]
  exact if_neg hne

theorem segmentsFor_ne_nil (state : RouteState) : segmentsFor state ≠ [] := by
  unfold segmentsFor
  split <;> repeat' split
  all_goals exact List.cons_ne_nil _ _

theorem pathFor_ne_nil (routePrefix : Text) (state : RouteState) : pathFor routePrefix state ≠ [] := by
  intro h
  obtain ⟨segment, segments, hsegments⟩ := List.exists_cons_of_ne_nil (segmentsFor_ne_nil state)
  rw [pathFor, hsegments, pathOf_cons] at h
  exact List.cons_ne_nil _ _ (List.append_eq_nil_iff.mp h).2

/-- Every view but the edit view of a profile called `new` comes back from its path and from the link that the
browser shows, for every prefix and every base of the page. -/
theorem parseRoute_pathFor_iff (routePrefix base : Text) (h : Navigable state) :
    (parseRoute routePrefix (pathFor routePrefix state) = state ∧
      parseRoute routePrefix (appPathname base (browserPath base (pathFor routePrefix state))) = state) ↔
      ¬(state.tab = .profiles ∧ state.profileSubview = .edit ∧ state.profileId = "new".toList) := by
  have hsegments := isSegment_of_mem_segmentsFor h
  rw [appPathname_browserPath base (pathFor_ne_nil routePrefix state)
    (getLast?_append_pathOf routePrefix (segmentsFor_ne_nil state) hsegments), and_self_iff, parseRoute,
    pathFor, routeParts_append hsegments]
  exact parseParts_segmentsFor_iff h

theorem parseRoute_pathFor_team :
    ∃ state, state = { tab := .profiles, profileSubview := .edit, profileId := "team-a".toList } ∧
      parseRoute "/ui".toList (pathFor "/ui".toList state) = state ∧
      parseRoute "/ui".toList (appPathname "/argo/".toList (browserPath "/argo/".toList
        (pathFor "/ui".toList state))) = state :=
  ⟨{ tab := .profiles, profileSubview := .edit, profileId := "team-a".toList }, rfl,
    (parseRoute_pathFor_iff "/ui".toList "/argo/".toList (.profilesEdit (by decide))).mpr fun h =>
      absurd h.2.2 (by decide)⟩

/-- The backend accepts the id `new`, and the path of its edit view is that of the form for a new profile. -/
theorem parseRoute_new_edit :
    ∃ id : Text, ConfigImport.validProfileId id = true ∧
      parseRoute "/ui".toList (pathFor "/ui".toList
          { tab := .profiles, profileSubview := .edit, profileId := id }) =
        { tab := .profiles, profileSubview := .create } ∧
      parseRoute "/ui".toList (pathFor "/ui".toList
          { tab := .profiles, profileSubview := .edit, profileId := id }) ≠
        { tab := .profiles, profileSubview := .edit, profileId := id } :=
  ⟨"new".toList, by decide, by decide, by decide⟩

end RoundTrip

end Routing
end PdeOperator
