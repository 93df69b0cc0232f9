import PdeOperator.UiPage

/-! What the page shows is what its address says, along every run of the page. -/

namespace PdeOperator
open Base

namespace AppRouting

open Routing

variable {host : Host} {page page' : Page} {next : RouteState} {segments : List Text} {address : Text}

section Address

variable (host) in
/-- The address whose path behind the prefix is made of the segments. -/
def addressOf (segments : List Text) : Text :=
  browserPath host.base (host.routePrefix ++ pathOf '/' segments)

/-- Neither of the two corrections applies to the address. -/
structure Settled (host : Host) (address : Text) : Prop where
  notRoot : ¬(appPathname host.base address = host.routePrefix ∨
    appPathname host.base address = host.routePrefix ++ ['/'])
  notBare : bareRun (routeParts host.routePrefix (appPathname host.base address)) = none

variable (hne : segments ≠ []) (hsegments : ∀ segment ∈ segments, IsSegment segment)

variable (host) in
include hne hsegments in
theorem appPathname_addressOf :
    appPathname host.base (addressOf host segments) = host.routePrefix ++ pathOf '/' segments := by
  apply appPathname_browserPath host.base
  · obtain ⟨first, rest, rfl⟩ := List.exists_cons_of_ne_nil hne
    rw [pathOf_cons]
    exact List.append_ne_nil_of_right_ne_nil _ (List.cons_ne_nil _ _)
  · exact getLast?_append_pathOf host.routePrefix hne hsegments

include hne hsegments in
theorem parse_addressOf :
    parseRoute host.routePrefix (appPathname host.base (addressOf host segments)) = parseParts segments := by
  rw [appPathname_addressOf host hne hsegments, parseRoute, routeParts_append hsegments]

include hne hsegments in
theorem settled_addressOf (hbare : bareRun segments = none) : Settled host (addressOf host segments) := by
  have hpath := appPathname_addressOf host hne hsegments
  obtain ⟨first, rest, rfl⟩ := List.exists_cons_of_ne_nil hne
  have hfirst : first ≠ [] := (hsegments first List.mem_cons_self).ne_nil
  refine ⟨?_, ?_⟩
  · rw [hpath, pathOf_cons]
    rintro (hroot | hroot)
    · exact List.cons_ne_nil _ _ (List.append_right_eq_self.mp hroot)
    · have hslash := List.append_cancel_left hroot
      have hempty : first ++ pathOf '/' rest = [] := (List.cons.inj hslash).2
      exact hfirst (List.append_eq_nil_iff.mp hempty).1
  · rw [hpath, routeParts_append hsegments]
    exact hbare

/-- The parts of a path are segments. -/
theorem isSegment_of_mem_routeParts {routePrefix pathname part : Text}
    (hpart : part ∈ routeParts routePrefix pathname) : IsSegment part := by
  obtain ⟨hmem, hkept⟩ := List.mem_filter.mp hpart
  refine ⟨?_, notMem_of_mem_splitOn hmem⟩
  rw [Bool.not_eq_true', List.isEmpty_eq_false_iff] at hkept
  exact hkept

theorem bareRun_eq_some {parts : List Text} {id : Text} (h : bareRun parts = some id) :
    parts = ["runs".toList, id] := by
  unfold bareRun at h
  split at h
  · split at h
    · rename_i hword
      rw [hword, Option.some.inj h]
    · cases h
  · cases h

end Address

section Corrections

variable {browser : History Text}

/-- The corrections replace the current entry by a settled one. -/
theorem ensureCanonicalDetailPath_settles
    (hroot : ¬(appPath host browser = host.routePrefix ∨ appPath host browser = host.routePrefix ++ ['/'])) :
    ∃ settled, ensureCanonicalDetailPath host browser = browser.replace settled ∧ Settled host settled := by
  unfold ensureCanonicalDetailPath
  cases hbare : bareRun (routeParts host.routePrefix (appPath host browser)) with
  | none => exact ⟨browser.current, browser.replace_current.symm, hroot, hbare⟩
  | some id =>
      have hid : IsSegment id := by
        have hpart : id ∈ routeParts host.routePrefix (appPath host browser) := by
          rw [bareRun_eq_some hbare]
          exact List.mem_cons_of_mem _ List.mem_cons_self
        exact isSegment_of_mem_routeParts hpart
      have hsegments : ∀ segment ∈ ["runs".toList, id, "info".toList], IsSegment segment := by
        simp only [List.forall_mem_cons]
        exact ⟨by decide, hid, by decide, fun _ h => by cases h⟩
      exact ⟨addressOf host ["runs".toList, id, "info".toList], rfl,
        settled_addressOf (List.cons_ne_nil _ _) hsegments rfl⟩

theorem settled_catalog : Settled host (addressOf host ["catalog".toList]) :=
  settled_addressOf (List.cons_ne_nil _ _) (by decide) rfl

theorem ensureCanonicalDetailPath_of_settled (h : Settled host browser.current) :
    ensureCanonicalDetailPath host browser = browser := by
  have hbare : bareRun (routeParts host.routePrefix (appPath host browser)) = none := h.notBare
  rw [ensureCanonicalDetailPath, hbare]
  rfl

theorem initialAddress_of_settled (h : Settled host browser.current) : initialAddress host browser = browser := by
  have hlist : ensureCanonicalListPath host browser = browser := if_neg h.notRoot
  rw [initialAddress, hlist, ensureCanonicalDetailPath_of_settled h]

variable (host browser) in
theorem initialAddress_settles : ∃ settled, initialAddress host browser = browser.replace settled ∧
    Settled host settled := by
  by_cases hroot : appPath host browser = host.routePrefix ∨ appPath host browser = host.routePrefix ++ ['/']
  · have hlist : ensureCanonicalListPath host browser =
        browser.replace (addressOf host ["catalog".toList]) := if_pos hroot
    refine ⟨addressOf host ["catalog".toList], ?_, settled_catalog⟩
    rw [initialAddress, hlist]
    apply ensureCanonicalDetailPath_of_settled
    rw [History.current_replace]
    exact settled_catalog
  · have hlist : ensureCanonicalListPath host browser = browser := if_neg hroot
    rw [initialAddress, hlist]
    exact ensureCanonicalDetailPath_settles hroot

end Corrections

/-! ### Routes that come back from their path -/

/-- The parts of the path are segments, and the route is found again behind them. -/
structure ComesBack (route : RouteState) : Prop where
  isSegment : ∀ segment ∈ segmentsFor route, IsSegment segment
  parse : parseParts (segmentsFor route) = route

theorem comesBack_of_navigable (h : Navigable next) (hnew : ¬EditsNew next) : ComesBack next :=
  ⟨isSegment_of_mem_segmentsFor h, (parseParts_segmentsFor_iff h).mpr hnew⟩

theorem comesBack_catalogList : ComesBack catalogList :=
  comesBack_of_navigable .catalogList fun h => by cases h.1

theorem comesBack_schedulesList : ComesBack schedulesList :=
  comesBack_of_navigable .schedulesList fun h => by cases h.1

/-- A run whose id is none of the two words for the lists. -/
theorem comesBack_detail {id : Text} (hid : IsSegment id)
    (hwords : id ≠ "template".toList ∧ id ≠ "schedule".toList) (subview : DetailSubview) :
    ComesBack { tab := .detail, runId := id, detailSubview := subview } := by
  have hsegments := segmentsFor_detail hid subview
  refine ⟨?_, ?_⟩
  · rw [hsegments]
    simp only [List.forall_mem_cons]
    exact ⟨by decide, hid, isSegment_text subview, fun _ h => by cases h⟩
  · rw [hsegments, parseParts_runs, parseRuns, if_pos hwords, List.head?_cons, ofPart_text]
    rfl

/-- The path of a route always says more than the id of a run. -/
theorem bareRun_segmentsFor (route : RouteState) : bareRun (segmentsFor route) = none := by
  unfold segmentsFor
  split <;> repeat' split
  all_goals rfl

theorem ComesBack.settled (h : ComesBack next) :
    Settled host (browserPath host.base (pathFor host.routePrefix next)) :=
  settled_addressOf (segmentsFor_ne_nil next) h.isSegment (bareRun_segmentsFor next)

theorem ComesBack.parse_path (h : ComesBack next) :
    parseRoute host.routePrefix (appPathname host.base (browserPath host.base (pathFor host.routePrefix next))) =
      next :=
  (parse_addressOf (segmentsFor_ne_nil next) h.isSegment).trans h.parse

/-- All entries are settled, and the view is that of the current one. -/
structure Coherent (host : Host) (page : Page) : Prop where
  settled : ∀ address ∈ page.browser.entries, Settled host address
  shows : page.view = .of (parsed host page.browser)

theorem coherent_go (hsettled : ∀ address ∈ page.browser.entries, Settled host address) (hnext : ComesBack next)
    (replace : Bool) : Coherent host (go host next replace page) := by
  have hcurrent : (go host next replace page).browser.current =
      browserPath host.base (pathFor host.routePrefix next) := by
    cases replace with
    | true => exact History.current_replace
    | false => exact History.current_push
  refine ⟨?_, ?_⟩
  · cases replace with
    | true => exact History.forall_replace hsettled hnext.settled
    | false => exact History.forall_push hsettled hnext.settled
  · rw [parsed, appPath, hcurrent, hnext.parse_path]
    rfl

variable (page) in
/-- The effects lead to two views only. -/
theorem readOnlyGuard_cases : readOnlyGuard page = none ∨ readOnlyGuard page = some catalogList := by
  unfold readOnlyGuard
  repeat' split
  all_goals simp

variable (page) in
theorem adminGuard_cases : adminGuard page = none ∨ adminGuard page = some catalogList ∨
    adminGuard page = some schedulesList := by
  unfold adminGuard
  repeat' split
  all_goals simp

theorem Coherent.redirect (h : Coherent host page) {target : Option RouteState}
    (htarget : ∀ next ∈ target, ComesBack next) : Coherent host (redirect host target page) := by
  cases target with
  | none => exact h
  | some next => exact coherent_go h.settled (htarget next rfl) true

theorem Coherent.render (h : Coherent host page) (before : Option Page) :
    Coherent host (render host before page) := by
  apply Coherent.redirect
  · apply h.redirect
    intro next hnext
    split at hnext
    · rcases readOnlyGuard_cases page with hnone | hlist
      · rw [hnone] at hnext
        cases hnext
      · rw [hlist] at hnext
        cases hnext
        exact comesBack_catalogList
    · cases hnext
  · intro next hnext
    split at hnext
    · rcases adminGuard_cases page with hnone | hlist | hlist
      · rw [hnone] at hnext
        cases hnext
      · rw [hlist] at hnext
        cases hnext
        exact comesBack_catalogList
      · rw [hlist] at hnext
        cases hnext
        exact comesBack_schedulesList
    · cases hnext

theorem coherent_mount {browser : History Text}
    (hothers : ∀ settled, Settled host settled → ∀ address ∈ (browser.replace settled).entries,
      Settled host address) (stored : Bool) : Coherent host (mount host browser stored) := by
  obtain ⟨settled, haddress, hsettled⟩ := initialAddress_settles host browser
  apply Coherent.render
  refine ⟨?_, rfl⟩
  show ∀ address ∈ (initialAddress host browser).entries, Settled host address
  rw [haddress]
  exact hothers settled hsettled

/-- The page after its first load. -/
theorem coherent_start (pathname : Text) (stored : Bool) :
    Coherent host (mount host (.start pathname) stored) := by
  apply coherent_mount
  intro settled hsettled address hmem
  rw [List.mem_singleton.mp (show address ∈ [settled] from hmem)]
  exact hsettled

/-- The navigations of the app: to a view with the ids that its tab uses, but not to the edit view of a profile
called `new`, and to the details of a run that is not called like the lists. -/
def Act.Ok (page : Page) : Act → Prop
  | .go next _ => Navigable next ∧ ¬EditsNew next
  | .detail _ => page.view.runId ≠ "template".toList ∧ page.view.runId ≠ "schedule".toList
  | _ => True

theorem runId_parseRuns (parts : List Text) : (parseRuns parts).runId = [] ∨ (parseRuns parts).runId ∈ parts := by
  unfold parseRuns
  repeat' split
  all_goals first | exact Or.inl rfl | exact Or.inr List.mem_cons_self

theorem runId_parseRetry (parts : List Text) :
    (parseRetry parts).runId = [] ∨ (parseRetry parts).runId ∈ parts := by
  cases parts with
  | nil => exact Or.inl rfl
  | cons id rest => exact Or.inr List.mem_cons_self

/-- A run in a route is one of the parts of the path. -/
theorem runId_parseParts (parts : List Text) :
    (parseParts parts).runId = [] ∨ (parseParts parts).runId ∈ parts := by
  cases parts with
  | nil => exact Or.inl rfl
  | cons word rest =>
      have hbehind : ∀ {route : RouteState}, (route.runId = [] ∨ route.runId ∈ rest) →
          route.runId = [] ∨ route.runId ∈ word :: rest := fun h => h.imp_right (List.mem_cons_of_mem _)
      rw [parseParts]
      split
      · unfold parseCatalog
        repeat' split
        all_goals exact Or.inl rfl
      split
      · exact hbehind (runId_parseRuns rest)
      split
      · unfold parseCreate
        split <;> exact Or.inl rfl
      split
      · exact hbehind (runId_parseRetry rest)
      split
      · unfold parseProfiles
        repeat' split
        all_goals exact Or.inl rfl
      split
      · unfold parseSchedules
        repeat' split
        all_goals exact Or.inl rfl
      split <;> exact Or.inl rfl

theorem Coherent.isSegment_runId (h : Coherent host page) (hrun : page.view.runId ≠ []) :
    IsSegment page.view.runId := by
  have hrunId : page.view.runId = (parsed host page.browser).runId := congrArg View.runId h.shows
  rw [hrunId] at hrun ⊢
  exact isSegment_of_mem_routeParts ((runId_parseParts _).resolve_left hrun)

theorem Coherent.step {a : Act} (h : Coherent host page) (hok : a.Ok page)
    (hstep : (system host).step page a = some page') : Coherent host page' := by
  cases a with
  | go next replace =>
      rw [← Option.some.inj hstep]
      exact (coherent_go h.settled (comesBack_of_navigable hok.1 hok.2) replace).render _
  | detail subview =>
      by_cases hrun : page.view.runId = []
      · cases (if_pos hrun).symm.trans hstep
      · rw [← Option.some.inj ((if_neg hrun).symm.trans hstep)]
        exact (coherent_go h.settled (comesBack_detail (h.isSegment_runId hrun) hok subview) false).render _
  | travel j =>
      obtain ⟨browser, htravel, rfl⟩ := Option.map_eq_some_iff.mp hstep
      have hsettled := History.forall_travel h.settled htravel
      have hsame := ensureCanonicalDetailPath_of_settled (hsettled _ browser.current_mem)
      apply Coherent.render
      refine ⟨?_, rfl⟩
      rw [applyBrowserRoute, hsame]
      exact hsettled
  | load j stored =>
      obtain ⟨browser, htravel, rfl⟩ := Option.map_eq_some_iff.mp hstep
      have hsettled := History.forall_travel h.settled htravel
      exact coherent_mount (fun settled hs => History.forall_replace hsettled hs) stored
  | visit pathname stored =>
      rw [← Option.some.inj hstep]
      refine coherent_mount (fun settled hs => ?_) stored
      rw [History.replace_push]
      exact History.forall_push h.settled hs
  | capabilities canWrite =>
      by_cases hloaded : page.loaded = true
      · cases (if_pos hloaded).symm.trans hstep
      · rw [← Option.some.inj ((if_neg hloaded).symm.trans hstep)]
        apply Coherent.render
        exact ⟨h.settled, h.shows⟩
  | setAdminMode on =>
      rw [← Option.some.inj hstep]
      apply Coherent.render
      exact ⟨h.settled, h.shows⟩

/-- In the admin mode no view is closed. -/
theorem render_of_adminMode (h : page.adminMode = true) (before : Option Page) : render host before page = page := by
  have hwrite : page.canWrite = true := ((Bool.and_eq_true _ _).mp h).1
  have hadmin : adminGuard page = none := if_pos h
  have hread : readOnlyGuard page = none := if_pos (Or.inr hwrite)
  rw [render, hadmin, hread, ite_self, ite_self]
  rfl

theorem step_go_adminMode (h : page.adminMode = true) (replace : Bool) :
    (system host).step page (.go next replace) = some (go host next replace page) := by
  show some (render host (some page) (go host next replace page)) = _
  rw [render_of_adminMode]
  exact h

/-- In the admin mode an entry that one comes back to shows its own view, and stays as it is. -/
theorem step_travel_adminMode {j : Nat} {browser : History Text}
    (hsettled : ∀ address ∈ page.browser.entries, Settled host address) (h : page.adminMode = true)
    (htravel : page.browser.travel j = some browser) :
    (system host).step page (.travel j) = some { page with browser, view := .of (parsed host browser) } := by
  have hsame : ensureCanonicalDetailPath host browser = browser :=
    ensureCanonicalDetailPath_of_settled (History.forall_travel hsettled htravel _ browser.current_mem)
  have happly : applyBrowserRoute host { page with browser } =
      { page with browser, view := .of (parsed host browser) } := by
    rw [applyBrowserRoute, hsame]
  have hstep : (system host).step page (.travel j) =
      some (render host (some page) (applyBrowserRoute host { page with browser })) := by
    show (page.browser.travel j).map _ = _
    rw [htravel]
    rfl
  rw [hstep, happly, render_of_adminMode]
  exact h

theorem exec_coherent {acts : List Act} (hcoherent : Coherent host page)
    (hok : (system host).Meets (fun page a => a.Ok page) page acts)
    (hexec : (system host).exec page acts = some page') : Coherent host page' :=
  System.exec_invariant (fun hpage hok hstep => hpage.step hok hstep) hcoherent hok hexec

/-- A page that was loaded at any path, and that does not go to the edit view of a profile called `new` or to
the details of a run called like the lists, shows the view of its address. In the admin mode every entry of the
history, old or new, shows its own view when the user comes back to it, and no entry changes; and a navigation
that is taken back and repeated shows the view before it and its own again. -/
theorem view_follows_address {pathname : Text} {stored : Bool} {acts : List Act}
    (hok : (system host).Meets (fun page a => a.Ok page) (mount host (.start pathname) stored) acts)
    (hexec : (system host).exec (mount host (.start pathname) stored) acts = some page) :
    page.view = .of (parsed host page.browser) ∧
      (page.adminMode = true → ∀ j browser, page.browser.travel j = some browser →
        (system host).exec page [.travel j] =
          some { page with browser, view := .of (parsed host browser) }) ∧
      (page.adminMode = true → ∀ next, Navigable next → ¬EditsNew next → ∃ back forward,
        (system host).exec page [.go next false, .travel page.browser.here] = some back ∧
          back.view = page.view ∧
          (system host).exec back [.travel (page.browser.here + 1)] = some forward ∧
          forward.view = .of next) := by
  have hcoherent := exec_coherent (coherent_start pathname stored) hok hexec
  refine ⟨hcoherent.shows, fun hadmin j browser htravel => ?_, fun hadmin next hnext hnew => ?_⟩
  · exact (System.exec_cons_eq_some _).mpr ⟨_, step_travel_adminMode hcoherent.settled hadmin htravel, rfl⟩
  · have hcomes := comesBack_of_navigable hnext hnew
    have hpushed : Coherent host (go host next false page) := coherent_go hcoherent.settled hcomes false
    -- Back to the entry that was left.
    obtain ⟨left, hleft, hcurrent⟩ := History.back_push page.browser
      (browserPath host.base (pathFor host.routePrefix next))
    have hback := step_travel_adminMode hpushed.settled hadmin hleft
    -- Forward to the entry that was pushed.
    have hforward := History.travel_here (go host next false page).browser
    have hentries := (History.travel_eq_some.mp hleft).1
    have hagain : left.travel (page.browser.here + 1) = some (go host next false page).browser :=
      History.travel_eq_some.mpr ⟨hentries.symm, rfl⟩
    have hleftSettled := History.forall_travel hpushed.settled hleft
    have hthen : (system host).step
          { go host next false page with browser := left, view := .of (parsed host left) }
          (.travel (page.browser.here + 1)) =
        some { go host next false page with view := .of (parsed host (go host next false page).browser) } :=
      step_travel_adminMode hleftSettled hadmin hagain
    refine ⟨_, _, (System.exec_cons_eq_some _).mpr ⟨_, step_go_adminMode hadmin false,
      (System.exec_cons_eq_some _).mpr ⟨_, hback, rfl⟩⟩, ?_, (System.exec_cons_eq_some _).mpr ⟨_, hthen, rfl⟩, ?_⟩
    · show View.of (parsed host left) = page.view
      rw [hcoherent.shows, parsed, parsed, appPath, appPath, hcurrent]
    · exact hpushed.shows.symm

def standaloneHost : Host where
  routePrefix := "/ui".toList
  tokenField := true
  base := "/argo/".toList

def teamProfile : RouteState := { tab := .profiles, profileSubview := .edit, profileId := "team-a".toList }

/-- The edit view of a profile, opened from the catalog and left by going back. -/
theorem view_follows_address_back :
    ∃ page, (system standaloneHost).exec (mount standaloneHost (.start "/argo/ui".toList) true)
        [.go teamProfile false, .travel 0] = some page ∧
      page.browser.entries = ["/argo/ui/catalog".toList, "/argo/ui/profiles/team-a/edit".toList] ∧
      page.view = .of (parsed standaloneHost page.browser) := by
  obtain ⟨page, hexec, hentries⟩ : ∃ page,
      (system standaloneHost).exec (mount standaloneHost (.start "/argo/ui".toList) true)
        [.go teamProfile false, .travel 0] = some page ∧
      page.browser.entries = ["/argo/ui/catalog".toList, "/argo/ui/profiles/team-a/edit".toList] :=
    ⟨_, rfl, by decide⟩
  have hok : (system standaloneHost).Meets (fun page a => a.Ok page)
      (mount standaloneHost (.start "/argo/ui".toList) true) [.go teamProfile false, .travel 0] := by
    refine ⟨⟨.profilesEdit (by decide), fun hnew => ?_⟩, fun _ _ => ⟨trivial, fun _ _ => trivial⟩⟩
    exact absurd hnew.2.2 (by decide)
  exact ⟨page, hexec, hentries, (view_follows_address hok hexec).1⟩

end AppRouting
end PdeOperator
