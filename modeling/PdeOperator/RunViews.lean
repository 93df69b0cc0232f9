import PdeOperator.BaseFetch
import PdeOperator.BaseJs
import PdeOperator.BaseJson
import PdeOperator.BaseSystem
import PdeOperator.UiRouting

/-! The run views of the UI (`app/hooks/useRuns.ts` with `useAppRouting.ts`): navigations and answers change the
state of the hook, a render runs the effects whose dependencies it finds changed, and their requests are answered
in any order. Messages, forms and names of filters are left out. -/

namespace PdeOperator
open Base

namespace RunViews

open Routing (Tab CreateMode DetailSubview RouteState)

inductive LogStatus where
  | idle | loading | ready | notReady | error
  deriving DecidableEq

structure ApiError where
  status : Option Nat
  message : Text

def ApiError.IsNotFound (e : ApiError) : Prop := e.status = some 404 ∨ e.message = "not_found".toList

instance (e : ApiError) : Decidable e.IsNotFound := inferInstanceAs (Decidable (_ ∨ _))

/-- The states of the log or of the report, with their refs; nothing is shown where the source has its empty
value. A request keeps its `sourceUpdatedAt`. -/
structure Artifact (α : Type) extends Latest Text (Option Text) α where
  status : LogStatus := .idle
  lastUpdatedAt : Option Text := none

namespace Artifact

variable {α : Type}

def start : Artifact α := { Latest.start with }

/-- What `resetDetail` and the effect of `runId` do to an artifact. -/
def reset (a : Artifact α) : Artifact α where
  toLatest := a.toLatest.reset
  status := .idle
  lastUpdatedAt := none

/-- `loadLog` and `loadReport`, up to their request. -/
def load (a : Artifact α) (id : Text) (quiet : Bool) (sourceUpdatedAt : Option Text) : Artifact α where
  toLatest := a.toLatest.send id sourceUpdatedAt
  status := if quiet ∧ a.status = .notReady then a.status else .loading
  lastUpdatedAt := a.lastUpdatedAt

def replyOf : Except ApiError α → Reply α
  | .ok data => .found data
  | .error e => if e.IsNotFound then .missing else .failed

/-- `loadLog` and `loadReport`, from their answer on. -/
def answer (a : Artifact α) (i : Nat) (outcome : Except ApiError α) : Artifact α where
  toLatest := a.toLatest.answer i (replyOf outcome)
  status := if a.Counts i then
      match outcome with
      | .ok _ => .ready
      | .error e => if e.IsNotFound then .notReady else .error
    else a.status
  lastUpdatedAt := match a.requests[i]?, outcome with
    | some (_, seq, some sourceUpdatedAt), .ok _ =>
        if seq = a.seq ∧ sourceUpdatedAt ≠ [] then some sourceUpdatedAt else a.lastUpdatedAt
    | _, _ => a.lastUpdatedAt

end Artifact

def shouldReloadArtifact (status : LogStatus) (updatedAt lastLoadedAt : Option Text) : Bool :=
  if status = .loading then false
  else if status = .ready ∧ updatedAt = lastLoadedAt then false
  else true

/-- A route of the app: the detail tab has a run, without one it is disabled. -/
abbrev View := { route : RouteState // route.tab = .detail → route.runId ≠ [] }

/-- A missing time is `null`. -/
structure RunDetail where
  logUpdatedAt : Option Text
  reportUpdatedAt : Option Text
  fields : JsonObject

/-- Missing items are none, a missing total is zero. -/
structure RunsPage where
  items : List Json
  total : Nat

/-- What a render hands to its effects and to the timer; no time is one of no detail. -/
structure Render where
  view : View
  page : Nat
  searchQuery : Text
  debouncedSearchQuery : Text
  logUpdatedAt : Option (Option Text)
  reportUpdatedAt : Option (Option Text)
  logStatus : LogStatus
  reportStatus : LogStatus
  deriving DecidableEq

namespace Render

def tab (r : Render) : Tab := r.view.val.tab
def runId (r : Render) : Text := r.view.val.runId
def detailSubview (r : Render) : DetailSubview := r.view.val.detailSubview
def templateFilterId (r : Render) : Text := if r.tab = .list then r.view.val.templateId else []
def scheduleFilterId (r : Render) : Text := if r.tab = .list then r.view.val.scheduleId else []

def pageSize : Nat := 20

/-- The query that `loadRuns` sends. -/
def runsParams (r : Render) : List (Text × Text) :=
  [("offset".toList, Nat.toDigits 10 (r.page * pageSize)), ("limit".toList, Nat.toDigits 10 pageSize)] ++
    (if Js.trim r.debouncedSearchQuery ≠ [] then [("q".toList, Js.trim r.debouncedSearchQuery)] else []) ++
    (if r.templateFilterId ≠ [] then [("created_from_template_id".toList, r.templateFilterId)] else []) ++
    if r.scheduleFilterId ≠ [] then [("triggered_by".toList, "schedule:".toList ++ r.scheduleFilterId)] else []

/-- A dependency of an effect has changed since the last render. -/
def Changed {δ : Type} (r : Render) (old : Option Render) (deps : Render → δ) : Prop := old.map deps ≠ some (deps r)

instance {δ : Type} [DecidableEq δ] (r : Render) (old : Option Render) (deps : Render → δ) :
    Decidable (r.Changed old deps) := inferInstanceAs (Decidable (_ ≠ _))

end Render

/-- Who asks for a detail: the effect, a tick with what its render saw, or the form of a retry. -/
inductive DetailCall where
  | load
  | refresh (r : Render)
  | retryForm

structure State where
  view : View
  page : Nat := 0
  searchQuery : Text := []
  debouncedSearchQuery : Text := []
  lastTemplateFilterId : Text := []
  lastScheduleFilterId : Text := []
  /-- `runs` and `total`; a request keeps whether it is quiet. -/
  runs : Fetch (List (Text × Text)) Bool RunsPage := {}
  listLoading : Bool := false
  detail : Fetch Text DetailCall RunDetail := {}
  detailLoading : Bool := false
  log : Artifact Text := .start
  report : Artifact Json := .start
  rendered : Option Render := none

namespace State

def render (s : State) : Render where
  view := s.view
  page := s.page
  searchQuery := s.searchQuery
  debouncedSearchQuery := s.debouncedSearchQuery
  logUpdatedAt := s.detail.shown.map fun fetched => fetched.data.logUpdatedAt
  reportUpdatedAt := s.detail.shown.map fun fetched => fetched.data.reportUpdatedAt
  logStatus := s.log.status
  reportStatus := s.report.status

def loadRuns (r : Render) (quiet : Bool) (s : State) : State :=
  { s with runs := s.runs.send r.runsParams quiet, listLoading := if quiet then s.listLoading else true }

/-- The effect is not quiet. -/
def loadDetail (id : Text) (s : State) : State :=
  { s with detail := s.detail.send id .load, detailLoading := true }

def loadRetryForm (id : Text) (s : State) : State := { s with detail := s.detail.send id .retryForm }

def loadLog (id : Text) (quiet : Bool) (sourceUpdatedAt : Option Text) (s : State) : State :=
  { s with log := s.log.load id quiet sourceUpdatedAt }

def loadReport (id : Text) (quiet : Bool) (sourceUpdatedAt : Option Text) (s : State) : State :=
  { s with report := s.report.load id quiet sourceUpdatedAt }

def resetDetail (s : State) : State :=
  { s with detail := s.detail.clear, log := s.log.reset, report := s.report.reset }

/-- `if (tab === "list") loadRuns()`; `loadRuns` is another function when what it reads has changed. -/
def listEffect (old : Option Render) (r : Render) (s : State) : State :=
  if r.Changed old (fun r => (r.tab, r.debouncedSearchQuery, r.page, r.scheduleFilterId, r.templateFilterId)) ∧
      r.tab = .list then s.loadRuns r false
  else s

/-- Another filter starts from the first page. -/
def filterEffect (old : Option Render) (r : Render) (s : State) : State :=
  if r.Changed old (fun r => (r.tab, r.templateFilterId, r.scheduleFilterId)) ∧ r.tab = .list then
    { s with
      page := if s.lastTemplateFilterId ≠ r.templateFilterId ∨ s.lastScheduleFilterId ≠ r.scheduleFilterId then 0
        else s.page
      lastTemplateFilterId := r.templateFilterId
      lastScheduleFilterId := r.scheduleFilterId }
  else s

def detailEffect (old : Option Render) (r : Render) (s : State) : State :=
  if r.Changed old (fun r => (r.tab, r.runId)) ∧ r.tab = .detail ∧ r.runId ≠ [] then s.loadDetail r.runId else s

/-- The effect of `runId` alone: it does not run again when only the tab changes. -/
def resetEffect (old : Option Render) (r : Render) (s : State) : State :=
  if r.Changed old Render.runId ∧ r.tab = .detail ∧ r.runId ≠ [] then
    { s with log := s.log.reset, report := s.report.reset }
  else s

def logEffect (old : Option Render) (r : Render) (s : State) : State :=
  if r.Changed old (fun r => ((r.tab, r.runId, r.detailSubview), r.logUpdatedAt, r.logStatus)) ∧ r.tab = .detail ∧
      r.runId ≠ [] ∧ r.detailSubview = .logs ∧ r.logUpdatedAt.isSome ∧
      shouldReloadArtifact r.logStatus r.logUpdatedAt.join s.log.lastUpdatedAt then
    s.loadLog r.runId (decide (r.logStatus = .notReady)) r.logUpdatedAt.join
  else s

def reportEffect (old : Option Render) (r : Render) (s : State) : State :=
  if r.Changed old (fun r => ((r.tab, r.runId, r.detailSubview), r.reportUpdatedAt, r.reportStatus)) ∧
      r.tab = .detail ∧ r.runId ≠ [] ∧ r.detailSubview = .viewer ∧ r.reportUpdatedAt.isSome ∧
      shouldReloadArtifact r.reportStatus r.reportUpdatedAt.join s.report.lastUpdatedAt then
    s.loadReport r.runId (decide (r.reportStatus = .notReady)) r.reportUpdatedAt.join
  else s

/-- A render, and its effects in their order. -/
def commit (s : State) : State :=
  let old := s.rendered
  let r := s.render
  reportEffect old r (logEffect old r (resetEffect old r (detailEffect old r (filterEffect old r
    (listEffect old r { s with rendered := some r })))))

def fetchReply {α : Type} : Except ApiError α → Reply α
  | .ok data => .found data
  | .error _ => .failed

def answerRuns (i : Nat) (outcome : Except ApiError RunsPage) (s : State) : State :=
  { s with
    runs := s.runs.answer i (fetchReply outcome)
    listLoading := match s.runs.requests[i]? with
      | some (_, false) => false
      | _ => s.listLoading }

/-- A tick finds the log of its render out of date. -/
def reloadsLog (s : State) (r : Render) (data : RunDetail) : Bool :=
  decide (r.detailSubview = .logs) && shouldReloadArtifact r.logStatus data.logUpdatedAt s.log.lastUpdatedAt

def reloadsReport (s : State) (r : Render) (data : RunDetail) : Bool :=
  decide (r.detailSubview = .viewer) &&
    shouldReloadArtifact r.reportStatus data.reportUpdatedAt s.report.lastUpdatedAt

/-- What a tick does with its detail; its render may be an old one. -/
def refreshArtifacts (r : Render) (data : RunDetail) (s : State) : State :=
  if s.reloadsLog r data then s.loadLog r.runId true data.logUpdatedAt
  else if s.reloadsReport r data then s.loadReport r.runId true data.reportUpdatedAt
  else s

def storeDetail (s : State) (i : Nat) (outcome : Except ApiError RunDetail) : State :=
  { s with detail := s.detail.answer i (fetchReply outcome) }

def answerDetail (i : Nat) (outcome : Except ApiError RunDetail) (s : State) : State :=
  match s.detail.requests[i]?, outcome with
  | some (_, .load), outcome => { s.storeDetail i outcome with detailLoading := false }
  | some (_, .refresh r), .ok data => (s.storeDetail i (.ok data)).refreshArtifacts r data
  | _, outcome => s.storeDetail i outcome

def go (view : View) (s : State) : State := { s with view := view }

/-- The links to a run; its id is not empty. -/
def openDetail (id : { id : Text // id ≠ [] }) (subview : DetailSubview) (s : State) : State :=
  go ⟨{ tab := .detail, runId := id, detailSubview := subview }, fun _ => id.property⟩ s.resetDetail

def openRetry (id : Text) (s : State) : State :=
  loadRetryForm id (go ⟨{ tab := .create, createMode := .retry, runId := id }, nofun⟩ s)

/-- What a route that comes from the browser starts besides. -/
def enterRoute (view : View) (s : State) : State :=
  if view.val.tab = .create ∧ view.val.createMode = .retry ∧ view.val.runId ≠ [] then s.loadRetryForm view.val.runId
  else s

def applyBrowserRoute (view : View) (s : State) : State := enterRoute view (s.go view)

/-- `clearTemplateFilter` and `clearScheduleFilter` -/
def clearFilter (s : State) : State := go ⟨{ tab := .list }, nofun⟩ { s with page := 0 }

/-- The timer of a tick reads what the last render saw. -/
def tick (s : State) : State :=
  match s.rendered with
  | none => s
  | some r =>
      if r.tab = .list then s.loadRuns r true
      else if r.tab = .detail ∧ r.runId ≠ [] then { s with detail := s.detail.send r.runId (.refresh r) }
      else s

/-- The timer of the search reads the query of the last render. -/
def debounce (s : State) : State :=
  { s with debouncedSearchQuery := s.rendered.elim s.debouncedSearchQuery Render.searchQuery }

end State

inductive Event where
  | go (view : View)
  | applyBrowserRoute (view : View)
  | openDetail (id : { id : Text // id ≠ [] }) (subview : DetailSubview)
  | openRetry (id : Text)
  | clearFilter
  | setPage (page : Nat)
  | search (query : Text)
  | debounce
  | commit
  | tick
  | answerRuns (i : Nat) (outcome : Except ApiError RunsPage)
  | answerDetail (i : Nat) (outcome : Except ApiError RunDetail)
  | answerLog (i : Nat) (outcome : Except ApiError Text)
  | answerReport (i : Nat) (outcome : Except ApiError Json)

def State.next (s : State) : Event → State
  | .go view => s.go view
  | .applyBrowserRoute view => s.applyBrowserRoute view
  | .openDetail id subview => s.openDetail id subview
  | .openRetry id => s.openRetry id
  | .clearFilter => s.clearFilter
  | .setPage page => { s with page := page }
  | .search query => { s with page := 0, searchQuery := query }
  | .debounce => s.debounce
  | .commit => s.commit
  | .tick => s.tick
  | .answerRuns i outcome => s.answerRuns i outcome
  | .answerDetail i outcome => s.answerDetail i outcome
  | .answerLog i outcome => { s with log := s.log.answer i outcome }
  | .answerReport i outcome => { s with report := s.report.answer i outcome }

/-- An answer needs a request. -/
def Event.Enabled (s : State) : Event → Prop
  | .answerRuns i _ => i < s.runs.requests.length
  | .answerDetail i _ => i < s.detail.requests.length
  | .answerLog i _ => i < s.log.requests.length
  | .answerReport i _ => i < s.report.requests.length
  | _ => True

instance (s : State) : (e : Event) → Decidable (e.Enabled s)
  | .answerRuns _ _ => inferInstanceAs (Decidable (_ < _))
  | .answerDetail _ _ => inferInstanceAs (Decidable (_ < _))
  | .answerLog _ _ => inferInstanceAs (Decidable (_ < _))
  | .answerReport _ _ => inferInstanceAs (Decidable (_ < _))
  | .go _ | .applyBrowserRoute _ | .openDetail _ _ | .openRetry _ | .clearFilter | .setPage _ | .search _ | .debounce
  | .commit | .tick => isTrue trivial

def system : System State Event where
  step s e := if e.Enabled s then some (s.next e) else none

/-- The app is opened at a route. -/
def start (view : View) : State := .enterRoute view { view }

end RunViews
end PdeOperator
