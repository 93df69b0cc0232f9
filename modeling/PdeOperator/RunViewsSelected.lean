import PdeOperator.RunViews

/-! What the run views show belongs to what is selected, in runs without the answers that break it. -/

namespace PdeOperator
open Base

namespace RunViews

namespace State

variable (s : State)

theorem commit_rendered : s.commit.rendered = some s.render := by
  simp only [commit, reportEffect, logEffect, resetEffect, detailEffect, filterEffect, listEffect, loadReport, loadLog,
    loadDetail, loadRuns, apply_ite State.rendered, ite_self]

theorem commit_runs : s.commit.runs =
    if s.render.Changed s.rendered (fun r =>
        (r.tab, r.debouncedSearchQuery, r.page, r.scheduleFilterId, r.templateFilterId)) ∧ s.render.tab = .list then
      s.runs.send s.render.runsParams false
    else s.runs := by
  simp only [commit, reportEffect, logEffect, resetEffect, detailEffect, filterEffect, listEffect, loadReport, loadLog,
    loadDetail, loadRuns, apply_ite State.runs, ite_self]

theorem commit_detail : s.commit.detail =
    if s.render.Changed s.rendered (fun r => (r.tab, r.runId)) ∧ s.render.tab = .detail ∧ s.render.runId ≠ [] then
      s.detail.send s.render.runId .load
    else s.detail := by
  simp only [commit, reportEffect, logEffect, resetEffect, detailEffect, filterEffect, listEffect, loadReport, loadLog,
    loadDetail, loadRuns, apply_ite State.detail, ite_self]

/-- The log as the effect of `runId` leaves it. -/
def entered {α : Type} (a : Artifact α) : Artifact α :=
  if s.render.Changed s.rendered Render.runId ∧ s.render.tab = .detail ∧ s.render.runId ≠ [] then a.reset else a

theorem logEffect_log (old : Option Render) (r : Render) (s : State) : (logEffect old r s).log = s.log ∨
    ∃ quiet updatedAt, (logEffect old r s).log = s.log.load r.runId quiet updatedAt := by
  rw [logEffect]
  split
  · exact Or.inr ⟨_, _, rfl⟩
  · exact Or.inl rfl

theorem reportEffect_report (old : Option Render) (r : Render) (s : State) :
    (reportEffect old r s).report = s.report ∨
      ∃ quiet updatedAt, (reportEffect old r s).report = s.report.load r.runId quiet updatedAt := by
  rw [reportEffect]
  split
  · exact Or.inr ⟨_, _, rfl⟩
  · exact Or.inl rfl

/-- The log is reset before it is loaded. -/
theorem commit_log : s.commit.log = s.entered s.log ∨
    ∃ quiet updatedAt, s.commit.log = (s.entered s.log).load s.render.runId quiet updatedAt := by
  have hlast : ∃ t : State, t.log = s.entered s.log ∧ s.commit.log = (logEffect s.rendered s.render t).log := by
    refine ⟨resetEffect s.rendered s.render (detailEffect s.rendered s.render (filterEffect s.rendered s.render
      (listEffect s.rendered s.render { s with rendered := some s.render }))), ?_, ?_⟩
    · simp only [resetEffect, detailEffect, filterEffect, listEffect, loadDetail, loadRuns, entered,
        apply_ite State.log, ite_self]
    · simp only [commit, reportEffect, loadReport, apply_ite State.log, ite_self]
  obtain ⟨t, hbefore, hlog⟩ := hlast
  rw [hlog, ← hbefore]
  exact logEffect_log _ _ t

theorem commit_report : s.commit.report = s.entered s.report ∨
    ∃ quiet updatedAt, s.commit.report = (s.entered s.report).load s.render.runId quiet updatedAt := by
  have hlast : ∃ t : State, t.report = s.entered s.report ∧
      s.commit.report = (reportEffect s.rendered s.render t).report := by
    refine ⟨logEffect s.rendered s.render (resetEffect s.rendered s.render (detailEffect s.rendered s.render
      (filterEffect s.rendered s.render (listEffect s.rendered s.render { s with rendered := some s.render })))), ?_,
      rfl⟩
    simp only [logEffect, resetEffect, detailEffect, filterEffect, listEffect, loadLog, loadDetail, loadRuns, entered,
      apply_ite State.report, ite_self]
  obtain ⟨t, hbefore, hreport⟩ := hlast
  rw [hreport, ← hbefore]
  exact reportEffect_report _ _ t

end State

namespace State

variable {s : State} {i : Nat} {outcome : Except ApiError RunDetail}

theorem answerDetail_of_refresh {key : Text} {r : Render} (hrequest : s.detail.requests[i]? = some (key, .refresh r))
    (data : RunDetail) : s.answerDetail i (.ok data) = (s.storeDetail i (.ok data)).refreshArtifacts r data := by
  simp only [answerDetail, hrequest]

theorem answerDetail_of_not_refresh
    (h : ∀ key r data, s.detail.requests[i]? = some (key, .refresh r) → outcome ≠ .ok data) :
    ∃ loading, s.answerDetail i outcome = { s.storeDetail i outcome with detailLoading := loading } := by
  cases hrequest : s.detail.requests[i]? with
  | none => exact ⟨s.detailLoading, by simp only [answerDetail, hrequest]; rfl⟩
  | some request =>
      obtain ⟨key, call⟩ := request
      cases call with
      | load => exact ⟨false, by simp only [answerDetail, hrequest]⟩
      | retryForm => exact ⟨s.detailLoading, by simp only [answerDetail, hrequest]; rfl⟩
      | refresh r =>
          cases outcome with
          | error e => exact ⟨s.detailLoading, by simp only [answerDetail, hrequest]; rfl⟩
          | ok data => exact absurd rfl (h key r data hrequest)

end State

/-- On the screen, or on its way there, is what was selected at the last render. -/
structure Settled (s : State) : Prop where
  runs : ∀ r ∈ s.rendered, r.tab = .list → s.runs.Settles r.runsParams
  detail : ∀ r ∈ s.rendered, r.tab = .detail → s.detail.Settles r.runId
  log : ∀ r ∈ s.rendered, r.tab = .detail → s.log.Follows r.runId
  report : ∀ r ∈ s.rendered, r.tab = .detail → s.report.Follows r.runId

/-- The page of a run is entered with its data or with none: where the effect of `runId` does not run, since the
run was selected on another tab, nothing of another run is left. -/
def CommitOk (s : State) : Prop := s.view.val.tab = .detail → ∀ r ∈ s.rendered, r.tab ≠ .detail →
  r.runId = s.view.val.runId → s.log.Follows r.runId ∧ s.report.Follows r.runId

/-- The tick of another run does not load its log or report. -/
def RefreshOk (s : State) (runId : Text) (i : Nat) (outcome : Except ApiError RunDetail) : Prop :=
  ∀ request ∈ s.detail.requests[i]?, ∀ r data, request.2 = .refresh r → outcome = .ok data →
    s.reloadsLog r data ∨ s.reloadsReport r data → r.runId = runId

/-- No answer comes too late for what is selected, and the last one for it does not fail while something else is
shown. -/
def EventOk (s : State) : Event → Prop
  | .commit => CommitOk s
  | .answerRuns i outcome => ∀ r ∈ s.rendered, r.tab = .list →
      s.runs.AnswerOk r.runsParams i (State.fetchReply outcome)
  | .answerDetail i outcome => ∀ r ∈ s.rendered, r.tab = .detail →
      s.detail.AnswerOk r.runId i (State.fetchReply outcome) ∧ RefreshOk s r.runId i outcome
  | _ => True

theorem settled_start (view : View) : Settled (start view) := by
  have hnone : (start view).rendered = none := by
    rw [start, State.enterRoute]
    split <;> rfl
  constructor <;> rw [hnone] <;> exact fun _ h => absurd h (Option.not_mem_none _)

theorem not_changed_iff {δ : Type} {r : Render} {old : Option Render} {deps : Render → δ} :
    ¬r.Changed old deps ↔ ∃ before ∈ old, deps before = deps r := by
  rw [Render.Changed, not_not]
  exact Option.map_eq_some_iff

theorem runsParams_congr {r r' : Render} (hdebounced : r.debouncedSearchQuery = r'.debouncedSearchQuery)
    (hpage : r.page = r'.page) (hschedule : r.scheduleFilterId = r'.scheduleFilterId)
    (htemplate : r.templateFilterId = r'.templateFilterId) : r.runsParams = r'.runsParams := by
  rw [Render.runsParams, Render.runsParams, hdebounced, hpage, hschedule, htemplate]

section Steps

variable {s : State}

theorem Follows.entered {α : Type} {a : Artifact α}
    (hok : ∀ r ∈ s.rendered, r.runId = s.render.runId → a.Follows r.runId) (hdetail : s.render.tab = .detail) :
    (s.entered a).Follows s.render.runId := by
  rw [State.entered]
  split
  · exact Latest.follows_reset _ _
  · next hsame =>
    have hrun : s.render.runId ≠ [] := s.view.property hdetail
    obtain ⟨r, hr, hrunId⟩ := not_changed_iff.mp fun hchanged => hsame ⟨hchanged, hdetail, hrun⟩
    rw [← hrunId]
    exact hok r hr hrunId

theorem Settled.commit (h : Settled s) (hok : CommitOk s) : Settled s.commit := by
  have hfollows : s.render.tab = .detail → ∀ r ∈ s.rendered, r.runId = s.render.runId →
      s.log.Follows r.runId ∧ s.report.Follows r.runId := by
    intro hdetail r hr hrunId
    by_cases htab : r.tab = .detail
    · exact ⟨h.log r hr htab, h.report r hr htab⟩
    · exact hok hdetail r hr htab hrunId
  refine ⟨?_, ?_, ?_, ?_⟩
  all_goals
    rw [State.commit_rendered]
    intro r hr
    obtain rfl : s.render = r := Option.some.inj hr
    intro htab
  · rw [State.commit_runs]
    split
    · exact Or.inr (Fetch.awaits_send _ _ _)
    · next hsame =>
      obtain ⟨r, hr, hdeps⟩ := not_changed_iff.mp fun hchanged => hsame ⟨hchanged, htab⟩
      simp only [Prod.mk.injEq] at hdeps
      obtain ⟨hsameTab, hdebounced, hpage, hschedule, htemplate⟩ := hdeps
      rw [← runsParams_congr hdebounced hpage hschedule htemplate]
      exact h.runs r hr (hsameTab.trans htab)
  · rw [State.commit_detail]
    split
    · exact Or.inr (Fetch.awaits_send _ _ _)
    · next hsame =>
      have hrun : s.render.runId ≠ [] := s.view.property htab
      obtain ⟨r, hr, hdeps⟩ := not_changed_iff.mp fun hchanged => hsame ⟨hchanged, htab, hrun⟩
      obtain ⟨hsameTab, hrunId⟩ := Prod.mk.inj hdeps
      rw [← hrunId]
      exact h.detail r hr (hsameTab.trans htab)
  · have hentered := Follows.entered (fun r hr hrunId => (hfollows htab r hr hrunId).1) htab
    rcases s.commit_log with hlog | ⟨quiet, updatedAt, hlog⟩
    · rw [hlog]
      exact hentered
    · rw [hlog]
      exact (hentered.send_iff _ _).mpr rfl
  · have hentered := Follows.entered (fun r hr hrunId => (hfollows htab r hr hrunId).2) htab
    rcases s.commit_report with hreport | ⟨quiet, updatedAt, hreport⟩
    · rw [hreport]
      exact hentered
    · rw [hreport]
      exact (hentered.send_iff _ _).mpr rfl

theorem Settled.resetDetail (h : Settled s) : Settled s.resetDetail where
  runs := h.runs
  detail := fun r _ _ => Or.inl (Fetch.shows_clear _ r.runId)
  log := fun r _ _ => Latest.follows_reset _ r.runId
  report := fun r _ _ => Latest.follows_reset _ r.runId

theorem Settled.sendDetail (h : Settled s) (id : Text) (call : DetailCall) :
    Settled { s with detail := s.detail.send id call } where
  runs := h.runs
  detail := fun r hr htab => (h.detail r hr htab).send id call
  log := h.log
  report := h.report

theorem Settled.go (h : Settled s) (view : View) : Settled (s.go view) := ⟨h.runs, h.detail, h.log, h.report⟩

theorem Settled.enterRoute (h : Settled s) (view : View) : Settled (.enterRoute view s) := by
  rw [State.enterRoute]
  split
  · exact h.sendDetail _ _
  · exact h

theorem Settled.tick (h : Settled s) : Settled s.tick := by
  rw [State.tick]
  split
  · exact h
  · next r _ =>
    split
    · exact ⟨fun r' hr' htab => (h.runs r' hr' htab).send r.runsParams true, h.detail, h.log, h.report⟩
    · split
      · exact h.sendDetail _ _
      · exact h

theorem settled_answerRuns_iff (h : Settled s) (i : Nat) (outcome : Except ApiError RunsPage) :
    Settled (s.answerRuns i outcome) ↔ EventOk s (.answerRuns i outcome) := by
  constructor
  · intro hsettled r hr htab
    exact (Fetch.settles_answer_iff (h.runs r hr htab) _ _).mp (hsettled.runs r hr htab)
  · intro hok
    exact ⟨fun r hr htab => (Fetch.settles_answer_iff (h.runs r hr htab) _ _).mpr (hok r hr htab), h.detail, h.log,
      h.report⟩

/-- A tick keeps the log and the report of the run exactly if it does not load those of another. -/
theorem settled_refreshArtifacts_iff (r : Render) (data : RunDetail)
    (hlog : ∀ r' ∈ s.rendered, r'.tab = .detail → s.log.Follows r'.runId)
    (hreport : ∀ r' ∈ s.rendered, r'.tab = .detail → s.report.Follows r'.runId) :
    Settled (s.refreshArtifacts r data) ↔ Settled s ∧ ∀ r' ∈ s.rendered, r'.tab = .detail →
      s.reloadsLog r data ∨ s.reloadsReport r data → r.runId = r'.runId := by
  rw [State.refreshArtifacts]
  split
  · next hloads =>
    constructor
    · intro hsettled
      exact ⟨⟨hsettled.runs, hsettled.detail, hlog, hsettled.report⟩, fun r' hr' htab _ =>
        ((hlog r' hr' htab).send_iff _ _).mp (hsettled.log r' hr' htab)⟩
    · rintro ⟨hsettled, hsame⟩
      exact ⟨hsettled.runs, hsettled.detail, fun r' hr' htab =>
        ((hlog r' hr' htab).send_iff _ _).mpr (hsame r' hr' htab (Or.inl hloads)), hsettled.report⟩
  · next hkeeps =>
    split
    · next hloads =>
      constructor
      · intro hsettled
        exact ⟨⟨hsettled.runs, hsettled.detail, hsettled.log, hreport⟩, fun r' hr' htab _ =>
          ((hreport r' hr' htab).send_iff _ _).mp (hsettled.report r' hr' htab)⟩
      · rintro ⟨hsettled, hsame⟩
        exact ⟨hsettled.runs, hsettled.detail, hsettled.log, fun r' hr' htab =>
          ((hreport r' hr' htab).send_iff _ _).mpr (hsame r' hr' htab (Or.inr hloads))⟩
    · next hkeeps' =>
      exact ⟨fun hsettled => ⟨hsettled, fun _ _ _ hloads => absurd hloads (not_or.mpr ⟨hkeeps, hkeeps'⟩)⟩, And.left⟩

theorem settled_storeDetail_iff (h : Settled s) (i : Nat) (outcome : Except ApiError RunDetail) :
    Settled (s.storeDetail i outcome) ↔ ∀ r ∈ s.rendered, r.tab = .detail →
      s.detail.AnswerOk r.runId i (State.fetchReply outcome) := by
  constructor
  · intro hsettled r hr htab
    exact (Fetch.settles_answer_iff (h.detail r hr htab) _ _).mp (hsettled.detail r hr htab)
  · intro hok
    exact ⟨h.runs, fun r hr htab => (Fetch.settles_answer_iff (h.detail r hr htab) _ _).mpr (hok r hr htab), h.log,
      h.report⟩

theorem settled_answerDetail_iff (h : Settled s) (i : Nat) (outcome : Except ApiError RunDetail) :
    Settled (s.answerDetail i outcome) ↔ EventOk s (.answerDetail i outcome) := by
  by_cases hrefresh : ∃ key r data, s.detail.requests[i]? = some (key, .refresh r) ∧ outcome = .ok data
  · obtain ⟨key, r, data, hrequest, rfl⟩ := hrefresh
    have hticks : ∀ runId, RefreshOk s runId i (.ok data) ↔
        (s.reloadsLog r data ∨ s.reloadsReport r data → r.runId = runId) := by
      intro runId
      constructor
      · intro hok
        exact hok _ hrequest r data rfl rfl
      · rintro hsame request hmem r' data' hcall hdata
        obtain rfl : (key, .refresh r) = request := Option.some.inj (hrequest.symm.trans hmem)
        obtain rfl := DetailCall.refresh.inj hcall
        obtain rfl := Except.ok.inj hdata
        exact hsame
    rw [State.answerDetail_of_refresh hrequest,
      settled_refreshArtifacts_iff (s := s.storeDetail i (.ok data)) r data h.log h.report, settled_storeDetail_iff h]
    constructor
    · rintro ⟨hstored, hsame⟩ r' hr' htab
      exact ⟨hstored r' hr' htab, (hticks r'.runId).mpr (hsame r' hr' htab)⟩
    · intro hok
      exact ⟨fun r' hr' htab => (hok r' hr' htab).1, fun r' hr' htab => (hticks r'.runId).mp (hok r' hr' htab).2⟩
  · have hother : ∀ key r data, s.detail.requests[i]? = some (key, .refresh r) → outcome ≠ .ok data :=
      fun key r data hrequest hdata => hrefresh ⟨key, r, data, hrequest, hdata⟩
    have hticks : ∀ runId, RefreshOk s runId i outcome := by
      intro runId request hmem r data hcall hdata
      obtain ⟨key, call⟩ := request
      obtain rfl : call = .refresh r := hcall
      exact absurd hdata (hother key r data hmem)
    obtain ⟨loading, heq⟩ := State.answerDetail_of_not_refresh hother
    have hsame : Settled (s.answerDetail i outcome) ↔ Settled (s.storeDetail i outcome) := by
      rw [heq]
      exact ⟨fun hs => ⟨hs.runs, hs.detail, hs.log, hs.report⟩, fun hs => ⟨hs.runs, hs.detail, hs.log, hs.report⟩⟩
    rw [hsame, settled_storeDetail_iff h]
    exact ⟨fun hok r hr htab => ⟨hok r hr htab, hticks r.runId⟩, fun hok r hr htab => (hok r hr htab).1⟩

/-- The step lemma. -/
theorem Settled.next {e : Event} (h : Settled s) (hok : EventOk s e) : Settled (s.next e) := by
  cases e with
  | go view => exact h.go view
  | applyBrowserRoute view => exact (h.go view).enterRoute view
  | openDetail id subview => exact h.resetDetail.go _
  | openRetry id => exact (h.go _).sendDetail id .retryForm
  | clearFilter => exact ⟨h.runs, h.detail, h.log, h.report⟩
  | setPage page => exact ⟨h.runs, h.detail, h.log, h.report⟩
  | search query => exact ⟨h.runs, h.detail, h.log, h.report⟩
  | debounce => exact ⟨h.runs, h.detail, h.log, h.report⟩
  | commit => exact h.commit hok
  | tick => exact h.tick
  | answerRuns i outcome => exact (settled_answerRuns_iff h i outcome).mpr hok
  | answerDetail i outcome => exact (settled_answerDetail_iff h i outcome).mpr hok
  | answerLog i outcome =>
      exact ⟨h.runs, h.detail, fun r hr htab => (h.log r hr htab).answer i _, h.report⟩
  | answerReport i outcome =>
      exact ⟨h.runs, h.detail, h.log, fun r hr htab => (h.report r hr htab).answer i _⟩

end Steps

/-- No request is outstanding, and the last change is rendered with its effects. -/
structure State.Quiet (s : State) : Prop where
  rendered : s.rendered = some s.render
  runs : s.runs.requests = []
  detail : s.detail.requests = []
  log : s.log.requests = []
  report : s.report.requests = []

/-- What the views of the current tab are given belongs to what is selected. -/
structure State.ShowsSelected (s : State) : Prop where
  run : s.view.val.tab = .detail →
    s.detail.Shows s.view.val.runId ∧ s.log.Shows s.view.val.runId ∧ s.report.Shows s.view.val.runId
  list : s.view.val.tab = .list → s.runs.Shows s.render.runsParams

theorem Settled.showsSelected {s : State} (h : Settled s) (hquiet : s.Quiet) : s.ShowsSelected where
  run := fun htab => ⟨(h.detail _ hquiet.rendered htab).shows hquiet.detail, (h.log _ hquiet.rendered htab).1,
    (h.report _ hquiet.rendered htab).1⟩
  list := fun htab => (h.runs _ hquiet.rendered htab).shows hquiet.runs

theorem system_step_eq_some {s s' : State} {e : Event} (h : system.step s e = some s') : s.next e = s' := by
  have hstep : (if e.Enabled s then some (s.next e) else none) = some s' := h
  exact Option.some.inj ((Option.ite_none_right_eq_some.mp hstep).2)

theorem showsSelected_of_meets (view : View) (events : List Event) (s : State)
    (hok : system.Meets EventOk (start view) events) (hexec : system.exec (start view) events = some s)
    (hquiet : s.Quiet) : s.ShowsSelected := by
  have hsettled : Settled s := by
    refine System.exec_invariant (fun hinv hmeets hstep => ?_) (settled_start view) hok hexec
    rw [← system_step_eq_some hstep]
    exact hinv.next hmeets
  exact hsettled.showsSelected hquiet

/-- The page of the run `letter`. -/
def pageOf (letter : Char) : View := ⟨{ tab := .detail, runId := [letter] }, fun _ => List.cons_ne_nil _ _⟩

/-- The user goes back from one run to another; `first` answers first. -/
def backEvents (first : Nat) : List Event :=
  let detail : RunDetail := { logUpdatedAt := none, reportUpdatedAt := none, fields := [] }
  [.commit, .applyBrowserRoute (pageOf 'b'), .commit, .answerDetail first (.ok detail), .commit,
    .answerDetail 0 (.ok detail), .commit]

theorem meets_cons {s : State} {e : Event} {events : List Event} (hok : EventOk s e)
    (h : system.Meets EventOk (s.next e) events) : system.Meets EventOk s (e :: events) :=
  ⟨hok, fun _ hstep => system_step_eq_some hstep ▸ h⟩

theorem eventOk_commit_of_detail {s : State} (h : ∀ r ∈ s.rendered, r.tab = .detail) : EventOk s .commit :=
  fun _ r hr htab _ => absurd (h r hr) htab

/-- The answers come in the order of their requests. -/
theorem showsSelected_inOrder : ∃ s, system.exec (start (pageOf 'a')) (backEvents 0) = some s ∧ s.ShowsSelected := by
  have hcommit : ∀ {s : State} {r : Render}, s.rendered = some r → r.tab = .detail → EventOk s .commit := by
    intro s r hrendered htab
    refine eventOk_commit_of_detail fun r' hr' => ?_
    rw [hrendered] at hr'
    exact Option.some.inj hr' ▸ htab
  refine ⟨_, rfl, showsSelected_of_meets (pageOf 'a') (backEvents 0) _ ?_ rfl ⟨by decide +kernel, rfl, rfl, rfl, rfl⟩⟩
  refine meets_cons (eventOk_commit_of_detail fun _ h => absurd h (Option.not_mem_none _)) (meets_cons trivial
    (meets_cons (hcommit rfl rfl) (meets_cons ?_ (meets_cons (hcommit rfl rfl) (meets_cons ?_
      (meets_cons (hcommit rfl rfl) trivial))))))
  · intro r hr _
    obtain rfl := Option.some.inj hr
    refine ⟨fun _ _ => Or.inl ⟨(['b'], .load), List.mem_singleton_self _, rfl⟩, ?_⟩
    intro request hrequest r data hcall
    obtain rfl := Option.some.inj hrequest
    cases hcall
  · intro r hr _
    obtain rfl := Option.some.inj hr
    refine ⟨fun request hrequest => Or.inr ?_, ?_⟩
    · obtain rfl := Option.some.inj hrequest
      rfl
    · intro request hrequest r data hcall
      obtain rfl := Option.some.inj hrequest
      cases hcall

/-- The page of the second run shows the first, whose answer came last. -/
theorem shows_left_run :
    ∃ s, system.exec (start (pageOf 'a')) (backEvents 1) = some s ∧ s.Quiet ∧ ¬s.ShowsSelected := by
  refine ⟨_, rfl, ⟨by decide +kernel, rfl, rfl, rfl, rfl⟩, fun h => ?_⟩
  exact absurd ((h.run rfl).1 _ rfl) (by decide)

end RunViews
end PdeOperator
