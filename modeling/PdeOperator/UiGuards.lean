import PdeOperator.UiHistory

/-! The views that are closed to a user: what the effects of `app/App.tsx` keep along every run of the page, and
what a page that is loaded again shows. -/

namespace PdeOperator
open Base

namespace AppRouting

open Routing

variable {host : Host} {page page' : Page} {before : Option Page}

/-- The views for the admin mode. -/
def View.Restricted (view : View) : Prop :=
  view.tab = .profiles ∨ (view.tab = .schedules ∧ view.scheduleSubview ≠ .list) ∨
    view.tab = .catalog ∧ view.catalogSubview ≠ .list

theorem adminGuard_eq_none_iff : adminGuard page = none ↔ page.adminMode = true ∨ ¬page.view.Restricted := by
  unfold adminGuard View.Restricted
  split_ifs with hadmin hprofiles hschedules hcatalog
  · exact iff_of_true rfl (Or.inl hadmin)
  · exact iff_of_false nofun fun h => h.elim hadmin fun hopen => hopen (Or.inl hprofiles)
  · exact iff_of_false nofun fun h => h.elim hadmin fun hopen => hopen (Or.inr (Or.inl hschedules))
  · exact iff_of_false nofun fun h => h.elim hadmin fun hopen => hopen (Or.inr (Or.inr hcatalog))
  · refine iff_of_true rfl (Or.inr ?_)
    rintro (h | h | h)
    · exact hprofiles h
    · exact hschedules h
    · exact hcatalog h

theorem adminGuard_eq_schedules_iff : adminGuard page = some schedulesList ↔
    page.adminMode = false ∧ page.view.tab = .schedules ∧ page.view.scheduleSubview ≠ .list := by
  unfold adminGuard
  split_ifs with hadmin hprofiles hschedules hcatalog
  · exact iff_of_false nofun fun h => by rw [h.1] at hadmin; cases hadmin
  · exact iff_of_false (by decide) fun h => by cases hprofiles.symm.trans h.2.1
  · exact iff_of_true rfl ⟨Bool.eq_false_iff.mpr hadmin, hschedules⟩
  · exact iff_of_false (by decide) fun h => hschedules h.2
  · exact iff_of_false nofun fun h => hschedules h.2

theorem adminGuard_eq_catalog_iff : adminGuard page = some catalogList ↔
    page.adminMode = false ∧ (page.view.tab = .profiles ∨
      page.view.tab = .catalog ∧ page.view.catalogSubview ≠ .list) := by
  unfold adminGuard
  split_ifs with hadmin hprofiles hschedules hcatalog
  · exact iff_of_false nofun fun h => by rw [h.1] at hadmin; cases hadmin
  · exact iff_of_true rfl ⟨Bool.eq_false_iff.mpr hadmin, Or.inl hprofiles⟩
  · refine iff_of_false (by decide) fun h => h.2.elim hprofiles fun hform => ?_
    cases hschedules.1.symm.trans hform.1
  · exact iff_of_true rfl ⟨Bool.eq_false_iff.mpr hadmin, Or.inr hcatalog⟩
  · exact iff_of_false nofun fun h => h.2.elim hprofiles hcatalog

theorem readOnlyGuard_eq_none_iff : readOnlyGuard page = none ↔
    (page.loaded = true → page.canWrite = false → page.view.tab ≠ .create ∧ page.view.tab ≠ .profiles ∧
      (page.view.tab = .catalog → page.view.catalogSubview = .list)) := by
  unfold readOnlyGuard
  split_ifs with hopen htab hform
  · refine iff_of_true rfl fun hloaded hwrite => ?_
    rw [hloaded, hwrite] at hopen
    exact absurd hopen (by decide)
  · obtain ⟨hloaded, hwrite⟩ := not_or.mp hopen
    refine iff_of_false nofun fun h => ?_
    obtain ⟨hcreate, hprofiles, -⟩ := h (Bool.not_eq_false _ ▸ hloaded) (Bool.eq_false_iff.mpr hwrite)
    exact htab.elim hcreate hprofiles
  · obtain ⟨hloaded, hwrite⟩ := not_or.mp hopen
    refine iff_of_false nofun fun h => ?_
    obtain ⟨-, -, hlist⟩ := h (Bool.not_eq_false _ ▸ hloaded) (Bool.eq_false_iff.mpr hwrite)
    exact hform.2 (hlist hform.1)
  · obtain ⟨hcreate, hprofiles⟩ := not_or.mp htab
    have hlist : page.view.tab = .catalog → page.view.catalogSubview = .list :=
      fun hcatalog => not_not.mp fun hne => hform ⟨hcatalog, hne⟩
    exact iff_of_true rfl fun _ _ => ⟨hcreate, hprofiles, hlist⟩

theorem readOnlyGuard_congr (h : readOnlyDeps page = readOnlyDeps page') :
    readOnlyGuard page = readOnlyGuard page' := by
  simp only [readOnlyDeps, Prod.mk.injEq] at h
  obtain ⟨hloaded, hwrite, htab, hsubview⟩ := h
  rw [readOnlyGuard, readOnlyGuard, hloaded, hwrite, htab, hsubview]

theorem adminGuard_catalog_congr (h : adminDeps page = adminDeps page') :
    adminGuard page = some catalogList ↔ adminGuard page' = some catalogList := by
  simp only [adminDeps, Prod.mk.injEq] at h
  obtain ⟨hadmin, htab, hsubview⟩ := h
  rw [adminGuard_eq_catalog_iff, adminGuard_eq_catalog_iff, hadmin, htab, hsubview]

theorem exists_of_not_changed {δ : Type} {deps : Page → δ} (h : ¬Changed deps before page) :
    ∃ old, before = some old ∧ deps old = deps page :=
  Option.map_eq_some_iff.mp (not_not.mp h)

variable (host page before) in
/-- A render shows its page, the list of the catalog or that of the schedules. -/
theorem render_cases :
    (render host before page = page ∧ (Changed readOnlyDeps before page → readOnlyGuard page = none) ∧
        (Changed adminDeps before page → adminGuard page = none)) ∨
      (render host before page = go host catalogList true page ∧ adminGuard page ≠ some schedulesList) ∨
      (render host before page = go host schedulesList true page ∧ Changed adminDeps before page) := by
  have htwice : go host catalogList true (go host catalogList true page) = go host catalogList true page := by
    simp only [go, navigate, if_true, History.replace_replace]
  rw [render]
  rcases readOnlyGuard_cases page with hread | hread
  · -- The first effect does nothing.
    rw [hread, ite_self]
    by_cases hchanged : Changed adminDeps before page
    · rw [if_pos hchanged]
      rcases adminGuard_cases page with hadmin | hadmin | hadmin
      · rw [hadmin]
        exact Or.inl ⟨rfl, fun _ => rfl, fun _ => rfl⟩
      · rw [hadmin]
        exact Or.inr (Or.inl ⟨rfl, by decide⟩)
      · rw [hadmin]
        exact Or.inr (Or.inr ⟨rfl, hchanged⟩)
    · rw [if_neg hchanged]
      exact Or.inl ⟨rfl, fun _ => rfl, fun h => absurd h hchanged⟩
  · -- The view is none of the schedules.
    have hother : adminGuard page ≠ some schedulesList := by
      intro hschedules
      obtain ⟨-, htab, -⟩ := adminGuard_eq_schedules_iff.mp hschedules
      have hnone : readOnlyGuard page = none := readOnlyGuard_eq_none_iff.mpr fun _ _ => by
        rw [htab]
        exact ⟨by decide, by decide, fun h => by cases h⟩
      cases hnone.symm.trans hread
    have hadmin : adminGuard page = none ∨ adminGuard page = some catalogList := by
      rcases adminGuard_cases page with hadmin | hadmin | hadmin
      · exact Or.inl hadmin
      · exact Or.inr hadmin
      · exact absurd hadmin hother
    rw [hread]
    by_cases hread' : Changed readOnlyDeps before page <;> by_cases hadmin' : Changed adminDeps before page
    · rw [if_pos hread', if_pos hadmin']
      rcases hadmin with hadmin | hadmin
      · rw [hadmin]
        exact Or.inr (Or.inl ⟨rfl, by decide⟩)
      · rw [hadmin]
        exact Or.inr (Or.inl ⟨htwice, by decide⟩)
    · rw [if_pos hread', if_neg hadmin']
      exact Or.inr (Or.inl ⟨rfl, hother⟩)
    · rw [if_neg hread', if_pos hadmin']
      rcases hadmin with hadmin | hadmin
      · rw [hadmin]
        exact Or.inl ⟨rfl, fun h => absurd h hread', fun _ => rfl⟩
      · rw [hadmin]
        exact Or.inr (Or.inl ⟨rfl, by decide⟩)
    · rw [if_neg hread', if_neg hadmin']
      exact Or.inl ⟨rfl, fun h => absurd h hread', fun h => absurd h hadmin'⟩

/-- What holds of the page before its effects and of the lists they lead to holds of the page after them. -/
theorem render_rule {p : Page → Prop} (hsame : p page) (hcatalog : p (go host catalogList true page))
    (hschedules : p (go host schedulesList true page)) : p (render host before page) := by
  rcases render_cases host page before with ⟨h, -⟩ | ⟨h, -⟩ | ⟨h, -⟩
  · rw [h]
    exact hsame
  · rw [h]
    exact hcatalog
  · rw [h]
    exact hschedules

/-- The first effect has nothing to do, and the second one at most for the form of a schedule. -/
structure Guarded (page : Page) : Prop where
  readOnly : readOnlyGuard page = none
  admin : adminGuard page ≠ some catalogList

theorem guarded_catalogList (replace : Bool) : Guarded (go host catalogList replace page) := by
  refine ⟨readOnlyGuard_eq_none_iff.mpr fun _ _ => ⟨nofun, nofun, fun _ => rfl⟩, fun h => ?_⟩
  obtain ⟨-, hprofiles | hform⟩ := adminGuard_eq_catalog_iff.mp h
  · cases hprofiles
  · exact hform.2 rfl

theorem guarded_schedulesList (replace : Bool) : Guarded (go host schedulesList replace page) := by
  refine ⟨readOnlyGuard_eq_none_iff.mpr fun _ _ => ⟨nofun, nofun, fun h => by cases h⟩, fun h => ?_⟩
  obtain ⟨-, hprofiles | hform⟩ := adminGuard_eq_catalog_iff.mp h
  · cases hprofiles
  · cases hform.1

theorem guarded_render (hbefore : ∀ old ∈ before, Guarded old) : Guarded (render host before page) := by
  rcases render_cases host page before with
    ⟨hsame, hread, hadmin⟩ | ⟨hlist, -⟩ | ⟨hlist, -⟩
  · rw [hsame]
    refine ⟨?_, ?_⟩
    · by_cases hchanged : Changed readOnlyDeps before page
      · exact hread hchanged
      · obtain ⟨old, hold, hdeps⟩ := exists_of_not_changed hchanged
        rw [← readOnlyGuard_congr hdeps]
        exact (hbefore old hold).readOnly
    · by_cases hchanged : Changed adminDeps before page
      · rw [hadmin hchanged]
        exact nofun
      · obtain ⟨old, hold, hdeps⟩ := exists_of_not_changed hchanged
        rw [ne_eq, ← adminGuard_catalog_congr hdeps]
        exact (hbefore old hold).admin
  · rw [hlist]
    exact guarded_catalogList true
  · rw [hlist]
    exact guarded_schedulesList true

theorem guarded_render_none : Guarded (render host none page) :=
  guarded_render fun old hold => by cases hold

/-- No form of a schedule is shown outside the admin mode after a render, unless the second effect did not
run. -/
theorem render_shows_form_iff : adminGuard (render host before page) = some schedulesList ↔
    ¬Changed adminDeps before page ∧ adminGuard page = some schedulesList := by
  have hlists : ∀ {next : RouteState}, next.scheduleSubview = .list →
      adminGuard (go host next true page) ≠ some schedulesList :=
    fun hlist h => (adminGuard_eq_schedules_iff.mp h).2.2 hlist
  rcases render_cases host page before with
    ⟨hsame, -, hadmin⟩ | ⟨hlist, hother⟩ | ⟨hlist, hchanged⟩
  · rw [hsame]
    refine ⟨fun h => ⟨fun hchanged => ?_, h⟩, fun h => h.2⟩
    rw [hadmin hchanged] at h
    cases h
  · rw [hlist]
    exact iff_of_false (hlists rfl) fun h => hother h.2
  · rw [hlist]
    exact iff_of_false (hlists rfl) fun h => h.1 hchanged

/-- The route that a step leads to. -/
def target (host : Host) (page : Page) : Act → Option RouteState
  | .go next _ => some next
  | .detail subview => some { tab := .detail, runId := page.view.runId, detailSubview := subview }
  | .travel j => (page.browser.travel j).map fun browser => parsed host (ensureCanonicalDetailPath host browser)
  | _ => none

/-- What a step renders: a page that is loaded, a route, or the view as it was. -/
theorem step_cases {a : Act} (hstep : (system host).step page a = some page') :
    (∃ rendered, page' = render host none rendered ∧ target host page a = none) ∨
      (∃ rendered, page' = render host (some page) rendered ∧ ∃ route, target host page a = some route ∧
        rendered.view = .of route ∧ rendered.adminMode = page.adminMode) ∨
      ∃ rendered, page' = render host (some page) rendered ∧ target host page a = none ∧
        rendered.view = page.view := by
  cases a with
  | go next replace =>
      exact Or.inr (Or.inl ⟨_, (Option.some.inj hstep).symm, next, rfl, rfl, rfl⟩)
  | detail subview =>
      by_cases hrun : page.view.runId = []
      · cases (if_pos hrun).symm.trans hstep
      · have hsome := Option.some.inj ((if_neg hrun).symm.trans hstep)
        exact Or.inr (Or.inl ⟨_, hsome.symm, { tab := .detail, runId := page.view.runId, detailSubview := subview },
          rfl, rfl, rfl⟩)
  | travel j =>
      obtain ⟨browser, htravel, rfl⟩ := Option.map_eq_some_iff.mp hstep
      refine Or.inr (Or.inl ⟨_, rfl, parsed host (ensureCanonicalDetailPath host browser), ?_, rfl, rfl⟩)
      rw [target, htravel]
      rfl
  | load j stored =>
      obtain ⟨browser, -, rfl⟩ := Option.map_eq_some_iff.mp hstep
      exact Or.inl ⟨_, rfl, rfl⟩
  | visit pathname stored => exact Or.inl ⟨_, (Option.some.inj hstep).symm, rfl⟩
  | capabilities canWrite =>
      by_cases hloaded : page.loaded = true
      · cases (if_pos hloaded).symm.trans hstep
      · exact Or.inr (Or.inr ⟨_, (Option.some.inj ((if_neg hloaded).symm.trans hstep)).symm, rfl, rfl⟩)
  | setAdminMode on => exact Or.inr (Or.inr ⟨_, (Option.some.inj hstep).symm, rfl, rfl⟩)

theorem Guarded.step {a : Act} (h : Guarded page) (hstep : (system host).step page a = some page') :
    Guarded page' := by
  have hbefore : ∀ old ∈ some page, Guarded old := by
    intro old hold
    rw [← Option.some.inj hold]
    exact h
  rcases step_cases hstep with ⟨_, rfl, -⟩ | ⟨_, rfl, -⟩ | ⟨_, rfl, -⟩
  · exact guarded_render_none
  · exact guarded_render hbefore
  · exact guarded_render hbefore

/-- A step from one view of the schedules to a form, outside the admin mode: the second effect sees none of its
dependencies change. -/
def OpensForm (host : Host) (page : Page) (a : Act) : Prop :=
  page.adminMode = false ∧ page.view.tab = .schedules ∧
    ∃ route ∈ target host page a, route.tab = .schedules ∧ route.scheduleSubview ≠ .list ∧
      route.catalogSubview = page.view.catalogSubview

theorem adminDeps_changed_iff : Changed adminDeps (some page) page' ↔ ¬(page.adminMode = page'.adminMode ∧
    page.view.tab = page'.view.tab ∧ page.view.catalogSubview = page'.view.catalogSubview) := by
  unfold Changed
  rw [Option.map_some, ne_eq, Option.some.injEq, adminDeps, adminDeps, Prod.mk.injEq, Prod.mk.injEq]

/-- A step shows the form of a schedule outside the admin mode exactly if it opens it there. -/
theorem step_shows_form_iff {a : Act} (hopen : adminGuard page ≠ some schedulesList)
    (hstep : (system host).step page a = some page') :
    ¬OpensForm host page a ↔ adminGuard page' ≠ some schedulesList := by
  rw [ne_eq, not_iff_not]
  rcases step_cases hstep with ⟨rendered, rfl, hnone⟩ | ⟨rendered, rfl, route, htarget, hview, hadmin⟩ |
    ⟨rendered, rfl, hnone, hview⟩
  · rw [render_shows_form_iff]
    refine iff_of_false (fun hopens => ?_) fun h => h.1 nofun
    obtain ⟨-, -, route, hroute, -⟩ := hopens
    cases hnone.symm.trans hroute
  · rw [render_shows_form_iff, adminDeps_changed_iff, not_not, adminGuard_eq_schedules_iff, hview, hadmin]
    constructor
    · rintro ⟨hoff, htab, route', hroute, htab', hform, hsubview⟩
      obtain rfl := Option.some.inj (htarget.symm.trans hroute)
      exact ⟨⟨rfl, htab.trans htab'.symm, hsubview.symm⟩, hoff, htab', hform⟩
    · rintro ⟨⟨-, htab, hsubview⟩, hoff, htab', hform⟩
      exact ⟨hoff, htab.trans htab', route, htarget, htab', hform, hsubview.symm⟩
  · rw [render_shows_form_iff, adminDeps_changed_iff, not_not, adminGuard_eq_schedules_iff, hview]
    refine iff_of_false (fun hopens => ?_) fun h => ?_
    · obtain ⟨-, -, route, hroute, -⟩ := hopens
      cases hnone.symm.trans hroute
    · obtain ⟨⟨hsame, -⟩, hoff, hshown⟩ := h
      exact hopen (adminGuard_eq_schedules_iff.mpr ⟨hsame.trans hoff, hshown⟩)

theorem guarded_mount (browser : History Text) (stored : Bool) : Guarded (mount host browser stored) :=
  guarded_render_none

/-- Along every run of a page, a user who may not write is kept from the form for runs once the page knows it,
and outside the admin mode the profiles and the forms of the catalog are closed. The forms of the schedules are
closed along the run exactly if no step opens one from the schedules themselves. -/
theorem closed_views {start : Page} {browser : History Text} {stored : Bool} {acts : List Act}
    (hstart : start = mount host browser stored) (hexec : (system host).exec start acts = some page) :
    (∀ before after u, acts = before ++ after → (system host).exec start before = some u →
      (u.loaded = true → u.canWrite = false → u.view.tab ≠ .create) ∧
        (u.adminMode = false → u.view.tab ≠ .profiles ∧
          (u.view.tab = .catalog → u.view.catalogSubview = .list))) ∧
      ((∀ before after u, acts = before ++ after → (system host).exec start before = some u →
          ¬(u.adminMode = false ∧ u.view.tab = .schedules ∧ u.view.scheduleSubview ≠ .list)) ↔
        (system host).Meets (fun u a => ¬OpensForm host u a) start acts) := by
  have hguarded : Guarded start := hstart ▸ guarded_mount browser stored
  have hclosed : adminGuard start ≠ some schedulesList := by
    rw [hstart, mount, ne_eq, render_shows_form_iff]
    exact fun h => h.1 nofun
  refine ⟨fun before after u _ hbefore => ?_, ?_⟩
  · have hu : Guarded u := System.exec_invariant_of_forall (fun h hstep => h.step hstep) hguarded hbefore
    refine ⟨fun hloaded hwrite => (readOnlyGuard_eq_none_iff.mp hu.readOnly hloaded hwrite).1, fun hoff => ?_⟩
    have hnot := fun h => hu.admin (adminGuard_eq_catalog_iff.mpr ⟨hoff, h⟩)
    exact ⟨fun hprofiles => hnot (Or.inl hprofiles),
      fun hcatalog => not_not.mp fun hform => hnot (Or.inr ⟨hcatalog, hform⟩)⟩
  · simp only [← adminGuard_eq_schedules_iff]
    exact System.always_iff_meets (I := fun _ => True) (fun _ _ => trivial)
      (fun _ hopen hstep => step_shows_form_iff hopen hstep) trivial hclosed hexec

/-- The admin mode is switched off in the settings; then the user goes back to the schedules and on to the form
that was left there. -/
theorem closed_views_back :
    ∃ page, (system standaloneHost).exec (mount standaloneHost (.start "/argo/ui/schedules/new".toList) true)
        [.go schedulesList false, .go { tab := .settings } false, .setAdminMode false, .travel 1, .travel 0] =
          some page ∧
      page.adminMode = false ∧ page.view.tab = .schedules ∧ page.view.scheduleSubview = .create ∧
      ¬(system standaloneHost).Meets (fun u a => ¬OpensForm standaloneHost u a)
        (mount standaloneHost (.start "/argo/ui/schedules/new".toList) true)
        [.go schedulesList false, .go { tab := .settings } false, .setAdminMode false, .travel 1, .travel 0] := by
  have hshown : ((system standaloneHost).exec
      (mount standaloneHost (.start "/argo/ui/schedules/new".toList) true)
        [.go schedulesList false, .go { tab := .settings } false, .setAdminMode false, .travel 1, .travel 0]).map
      (fun page => (page.adminMode, page.view.tab, page.view.scheduleSubview)) =
        some (false, .schedules, .create) := by decide +kernel
  obtain ⟨page, hexec, hpage⟩ := Option.map_eq_some_iff.mp hshown
  simp only [Prod.mk.injEq] at hpage
  obtain ⟨hoff, htab, hform⟩ := hpage
  refine ⟨page, hexec, hoff, htab, hform, fun hmeets => ?_⟩
  have hclosed := (closed_views rfl hexec).2.mpr hmeets _ [] page (List.append_nil _).symm hexec
  exact hclosed ⟨hoff, htab, by rw [hform]; exact nofun⟩

/-! ### Loading the page again -/

/-- The page is loaded again, and finds the capabilities and the preferences as they were. -/
def reloading (host : Host) (page : Page) : List Act :=
  .load page.browser.here page.preferred :: if host.tokenField then [] else [.capabilities page.canWrite]

/-- Where a token is entered the page knows from the start that the user may write. -/
def TokenWrites (host : Host) (page : Page) : Prop :=
  host.tokenField = true → page.loaded = true ∧ page.canWrite = true

theorem tokenWrites_render {rendered : Page} (h : TokenWrites host rendered) :
    TokenWrites host (render host before rendered) := by
  apply render_rule (p := TokenWrites host)
  · exact h
  · exact h
  · exact h

theorem tokenWrites_mount (browser : History Text) (stored : Bool) : TokenWrites host (mount host browser stored) :=
  tokenWrites_render fun htoken => ⟨htoken, htoken⟩

theorem TokenWrites.step {a : Act} (h : TokenWrites host page) (hstep : (system host).step page a = some page') :
    TokenWrites host page' := by
  cases a with
  | go next replace =>
      rw [← Option.some.inj hstep]
      apply tokenWrites_render
      exact h
  | detail subview =>
      by_cases hrun : page.view.runId = []
      · cases (if_pos hrun).symm.trans hstep
      · rw [← Option.some.inj ((if_neg hrun).symm.trans hstep)]
        apply tokenWrites_render
        exact h
  | travel j =>
      obtain ⟨browser, -, rfl⟩ := Option.map_eq_some_iff.mp hstep
      apply tokenWrites_render
      exact h
  | load j stored =>
      obtain ⟨browser, -, rfl⟩ := Option.map_eq_some_iff.mp hstep
      exact tokenWrites_mount browser stored
  | visit pathname stored =>
      rw [← Option.some.inj hstep]
      exact tokenWrites_mount _ stored
  | capabilities canWrite =>
      by_cases hloaded : page.loaded = true
      · cases (if_pos hloaded).symm.trans hstep
      · exact fun htoken => absurd (h htoken).1 hloaded
  | setAdminMode on =>
      rw [← Option.some.inj hstep]
      apply tokenWrites_render
      exact h

theorem not_restricted_catalogList : ¬(View.of catalogList).Restricted := by
  rintro (h | h | h)
  · cases h
  · cases h.1
  · exact h.2 rfl

theorem not_restricted_schedulesList : ¬(View.of schedulesList).Restricted := by
  rintro (h | h | h)
  · cases h
  · exact h.2 rfl
  · cases h.1

/-- The effects lead to views that are open to everybody. -/
theorem not_restricted_render (h : ¬page.view.Restricted) : ¬(render host before page).view.Restricted := by
  apply render_rule (p := fun page => ¬page.view.Restricted)
  · exact h
  · exact not_restricted_catalogList
  · exact not_restricted_schedulesList

variable (host) in
/-- A page that is loaded outside the admin mode shows no view for the admin mode. -/
theorem not_restricted_render_none (h : page.adminMode = false) : ¬(render host none page).view.Restricted := by
  rcases render_cases host page none with
    ⟨hsame, -, hadmin⟩ | ⟨hlist, -⟩ | ⟨hlist, -⟩
  · rw [hsame]
    refine (adminGuard_eq_none_iff.mp (hadmin nofun)).resolve_left fun hon => ?_
    cases h.symm.trans hon
  · rw [hlist]
    exact not_restricted_catalogList
  · rw [hlist]
    exact not_restricted_schedulesList

theorem render_of_open (hread : readOnlyGuard page = none) (hadmin : adminGuard page = none) :
    render host before page = page := by
  rw [render, hread, hadmin, ite_self, ite_self]
  rfl

/-- The page as it is loaded again, before its effects. -/
theorem mount_eq_render (hcoherent : Coherent host page) (stored : Bool) :
    mount host page.browser stored = render host none
      { page with loaded := host.tokenField, canWrite := host.tokenField, preferred := stored } := by
  have hsame : initialAddress host page.browser = page.browser :=
    initialAddress_of_settled (hcoherent.settled _ page.browser.current_mem)
  rw [mount, hsame, ← hcoherent.shows]

theorem exec_reloading (hcoherent : Coherent host page) :
    (system host).exec page (reloading host page) =
      (system host).exec (render host none
        { page with loaded := host.tokenField, canWrite := host.tokenField }) (reloading host page).tail := by
  have hload : (system host).step page (.load page.browser.here page.preferred) =
      some (mount host page.browser page.preferred) := by
    show (page.browser.travel page.browser.here).map _ = _
    rw [History.travel_here]
    rfl
  rw [reloading, System.exec_cons, hload, mount_eq_render hcoherent]
  rfl

theorem loaded_render : (render host before page).loaded = page.loaded := by
  apply render_rule (p := fun rendered => rendered.loaded = page.loaded)
  · rfl
  · rfl
  · rfl

theorem step_capabilities {canWrite : Bool} (h : page.loaded = false) :
    (system host).step page (.capabilities canWrite) =
      some (render host (some page) { page with loaded := true, canWrite }) :=
  if_neg (Bool.eq_false_iff.mp h)

/-- A page that is loaded again is the same page exactly if its view is open to everybody, or the admin mode is
known from the start. -/
theorem reload_keeps_iff {pathname : Text} {stored : Bool} {acts : List Act}
    (hok : (system host).Meets (fun page a => a.Ok page) (mount host (.start pathname) stored) acts)
    (hexec : (system host).exec (mount host (.start pathname) stored) acts = some page)
    (hloaded : page.loaded = true) :
    (system host).exec page (reloading host page) = some page ↔
      ¬page.view.Restricted ∨ host.tokenField = true ∧ page.adminMode = true := by
  have hcoherent := exec_coherent (coherent_start pathname stored) hok hexec
  have hguarded : Guarded page :=
    System.exec_invariant_of_forall (fun h hstep => h.step hstep) (guarded_mount _ _) hexec
  have htoken : TokenWrites host page :=
    System.exec_invariant_of_forall (fun h hstep => h.step hstep) (tokenWrites_mount _ _) hexec
  rw [exec_reloading hcoherent]
  cases hfield : host.tokenField with
  | true =>
      obtain ⟨-, hwrite⟩ := htoken hfield
      have hsame : { page with loaded := true, canWrite := true } = page := by
        cases page
        cases hloaded
        cases hwrite
        rfl
      have htail : (reloading host page).tail = [] := if_pos hfield
      rw [hsame, htail, System.exec_nil, Option.some.injEq]
      constructor
      · intro hrender
        by_contra h
        obtain ⟨hrestricted, hadmin⟩ := not_or.mp h
        have hoff : page.adminMode = false := Bool.eq_false_iff.mpr fun hon => hadmin ⟨rfl, hon⟩
        exact not_restricted_render_none host hoff (hrender.symm ▸ not_not.mp hrestricted)
      · intro h
        exact render_of_open hguarded.readOnly (adminGuard_eq_none_iff.mpr (h.elim Or.inr fun h => Or.inl h.2))
  | false =>
      have htail : (reloading host page).tail = [.capabilities page.canWrite] :=
        if_neg (Bool.eq_false_iff.mp hfield)
      rw [htail]
      constructor
      · intro hreloaded
        refine Or.inl fun hrestricted => ?_
        obtain ⟨again, hstep, hdone⟩ := (System.exec_cons_eq_some _).mp hreloaded
        rw [step_capabilities loaded_render, Option.some.injEq] at hstep
        rw [System.exec_nil, Option.some.injEq, ← hstep] at hdone
        have hfresh : ¬(render host none { page with loaded := false, canWrite := false }).view.Restricted :=
          not_restricted_render_none host rfl
        refine (not_restricted_render ?_) (hdone.symm ▸ hrestricted)
        exact hfresh
      · intro h
        have hopen : ¬page.view.Restricted := h.resolve_right fun htoken => Bool.false_ne_true htoken.1
        have hfresh : render host none { page with loaded := false, canWrite := false } =
            { page with loaded := false, canWrite := false } :=
          render_of_open (if_pos (Or.inl rfl)) (adminGuard_eq_none_iff.mpr (Or.inr hopen))
        have hsame : { page with loaded := true } = page := by
          cases page
          cases hloaded
          rfl
        have hagain : render host (some { page with loaded := false, canWrite := false })
            { page with loaded := true } = page := by
          rw [hsame]
          exact render_of_open hguarded.readOnly (adminGuard_eq_none_iff.mpr (Or.inr hopen))
        rw [hfresh, System.exec_cons, step_capabilities rfl, Option.bind_some, System.exec_nil]
        exact congrArg some hagain

def argoHost : Host where
  routePrefix := "/pde-operator".toList
  tokenField := false
  base := "/".toList

/-- The edit view of a profile is lost where the capabilities are asked for. -/
theorem reload_keeps_iff_form :
    ∃ page, (system argoHost).exec (mount argoHost (.start "/pde-operator".toList) true)
        [.capabilities true, .go teamProfile false] = some page ∧
      page.adminMode = true ∧ page.view.tab = .profiles ∧
      (system argoHost).exec page (reloading argoHost page) ≠ some page := by
  have hshown : ((system argoHost).exec (mount argoHost (.start "/pde-operator".toList) true)
      [.capabilities true, .go teamProfile false]).map
      (fun page => (page.loaded, page.adminMode, page.view.tab)) = some (true, true, .profiles) := by
    decide +kernel
  obtain ⟨page, hexec, hpage⟩ := Option.map_eq_some_iff.mp hshown
  simp only [Prod.mk.injEq] at hpage
  obtain ⟨hloaded, hadmin, htab⟩ := hpage
  have hok : (system argoHost).Meets (fun page a => a.Ok page)
      (mount argoHost (.start "/pde-operator".toList) true) [.capabilities true, .go teamProfile false] := by
    refine ⟨trivial, fun _ _ => ⟨⟨.profilesEdit (by decide), fun hnew => ?_⟩, fun _ _ => trivial⟩⟩
    exact absurd hnew.2.2 (by decide)
  refine ⟨page, hexec, hadmin, htab, fun hsame => ?_⟩
  rcases (reload_keeps_iff hok hexec hloaded).mp hsame with hopen | ⟨htoken, -⟩
  · exact hopen (Or.inl htab)
  · cases htoken

end AppRouting
end PdeOperator
