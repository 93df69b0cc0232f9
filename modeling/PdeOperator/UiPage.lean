import PdeOperator.BaseHistory
import PdeOperator.BaseJoin
import PdeOperator.BaseSystem
import PdeOperator.UiRouting

/-! The page of the UI: `app/hooks/useAppRouting.ts` over the history of the browser, and the effects of
`app/App.tsx` that lead away from the views that are closed to the user. The query and the fragment of the
address are left out. -/

namespace PdeOperator
open Base

namespace AppRouting

open Routing

structure Host where
  routePrefix : Text
  /-- Set where the token is entered in the page. -/
  tokenField : Bool
  /-- The reference of the base element. -/
  base : Text

/-- The states of `useAppRouting`. -/
structure View where
  tab : Tab
  createMode : CreateMode
  runId : Text
  templateId : Text
  profileSubview : Subview
  catalogSubview : Subview
  scheduleSubview : Subview
  scheduleId : Text
  detailSubview : DetailSubview
  deriving DecidableEq

/-- The setters, one after the other. -/
def View.of (route : RouteState) : View where
  tab := route.tab
  createMode := route.createMode
  runId := route.runId
  templateId := route.templateId
  profileSubview := route.profileSubview
  catalogSubview := route.catalogSubview
  scheduleSubview := route.scheduleSubview
  scheduleId := route.scheduleId
  detailSubview := route.detailSubview

structure Page where
  browser : History Text
  view : View
  loaded : Bool
  canWrite : Bool
  /-- `preferences.adminMode` -/
  preferred : Bool
  deriving DecidableEq

def Page.adminMode (page : Page) : Bool := page.canWrite && page.preferred

section Address

variable (host : Host) (browser : History Text)

/-- `appPathname()` -/
def appPath : Text := appPathname host.base browser.current

/-- `parseRoute()` -/
def parsed : RouteState := parseRoute host.routePrefix (appPath host browser)

def navigate (path : Text) (replace : Bool) : History Text :=
  if replace then browser.replace (browserPath host.base path) else browser.push (browserPath host.base path)

def ensureCanonicalListPath : History Text :=
  if appPath host browser = host.routePrefix ∨ appPath host browser = host.routePrefix ++ ['/'] then
    navigate host browser (host.routePrefix ++ pathOf '/' ["catalog".toList]) true
  else browser

/-- The run of a path that names nothing else. -/
def bareRun : List Text → Option Text
  | [word, id] => if word = "runs".toList then some id else none
  | _ => none

def ensureCanonicalDetailPath : History Text :=
  (bareRun (routeParts host.routePrefix (appPath host browser))).elim browser fun id =>
    navigate host browser (host.routePrefix ++ pathOf '/' ["runs".toList, id, "info".toList]) true

/-- What `initialRoute` does to the address. -/
def initialAddress : History Text := ensureCanonicalDetailPath host (ensureCanonicalListPath host browser)

end Address

section Navigation

variable (host : Host)

def go (next : RouteState) (replace : Bool) (page : Page) : Page :=
  { page with
    browser := navigate host page.browser (pathFor host.routePrefix next) replace
    view := .of next }

/-- The calls that load the forms of a route are left to the forms. -/
def applyBrowserRoute (page : Page) : Page :=
  { page with
    browser := ensureCanonicalDetailPath host page.browser
    view := .of (parsed host (ensureCanonicalDetailPath host page.browser)) }

def catalogList : RouteState := { tab := .catalog }

def schedulesList : RouteState := { tab := .schedules }

/-- The effect of `App` for users who may not write. -/
def readOnlyGuard (page : Page) : Option RouteState :=
  if page.loaded = false ∨ page.canWrite = true then none
  else if page.view.tab = .create ∨ page.view.tab = .profiles then some catalogList
  else if page.view.tab = .catalog ∧ page.view.catalogSubview ≠ .list then some catalogList
  else none

/-- The effect of `App` outside the admin mode. -/
def adminGuard (page : Page) : Option RouteState :=
  if page.adminMode = true then none
  else if page.view.tab = .profiles then some catalogList
  else if page.view.tab = .schedules ∧ page.view.scheduleSubview ≠ .list then some schedulesList
  else if page.view.tab = .catalog ∧ page.view.catalogSubview ≠ .list then some catalogList
  else none

def readOnlyDeps (page : Page) : Bool × Bool × Tab × Subview :=
  (page.loaded, page.canWrite, page.view.tab, page.view.catalogSubview)

/-- The subview of the schedules is not among them. -/
def adminDeps (page : Page) : Bool × Tab × Subview := (page.adminMode, page.view.tab, page.view.catalogSubview)

/-- An effect runs at first, and when one of its dependencies is another one than at the last render. -/
def Changed {δ : Type} (deps : Page → δ) (before : Option Page) (page : Page) : Prop :=
  before.map deps ≠ some (deps page)

instance {δ : Type} [DecidableEq δ] (deps : Page → δ) (before : Option Page) (page : Page) :
    Decidable (Changed deps before page) := inferInstanceAs (Decidable (_ ≠ _))

def redirect (target : Option RouteState) (page : Page) : Page :=
  target.elim page fun next => go host next true page

/-- The effects of a render, in their order; both see the page that was rendered. -/
def render (before : Option Page) (page : Page) : Page :=
  redirect host (if Changed adminDeps before page then adminGuard page else none)
    (redirect host (if Changed readOnlyDeps before page then readOnlyGuard page else none) page)

/-- A page is loaded: the capabilities are asked for where no token is entered, and the preferences are those in
the store of the browser. -/
def mount (browser : History Text) (stored : Bool) : Page :=
  render host none
    { browser := initialAddress host browser
      view := .of (parsed host (initialAddress host browser))
      loaded := host.tokenField
      canWrite := host.tokenField
      preferred := stored }

inductive Act where
  | go (next : RouteState) (replace : Bool)
  /-- The tab of the run that is shown, and those of its details. -/
  | detail (subview : DetailSubview)
  /-- Back or forward to an entry of the document. -/
  | travel (j : Nat)
  /-- An entry is loaded: the current one again, or one of another document. -/
  | load (j : Nat) (stored : Bool)
  | visit (pathname : Text) (stored : Bool)
  | capabilities (canWrite : Bool)
  | setAdminMode (on : Bool)

/-- A step and the render after it. -/
def step (page : Page) : Act → Option Page
  | .go next replace => some (render host (some page) (go host next replace page))
  | .detail subview =>
      if page.view.runId = [] then none
      else some (render host (some page)
        (go host { tab := .detail, runId := page.view.runId, detailSubview := subview } false page))
  | .travel j => (page.browser.travel j).map fun browser =>
      render host (some page) (applyBrowserRoute host { page with browser })
  | .load j stored => (page.browser.travel j).map fun browser => mount host browser stored
  | .visit pathname stored => some (mount host (page.browser.push pathname) stored)
  | .capabilities canWrite =>
      if page.loaded then none else some (render host (some page) { page with loaded := true, canWrite })
  | .setAdminMode on => some (render host (some page) { page with preferred := on })

def system : System Page Act where
  step := step host

end Navigation

end AppRouting
end PdeOperator
