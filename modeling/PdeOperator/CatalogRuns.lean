import PdeOperator.CatalogRows

/-! Runs of the catalog: the default profile is there to stay, every row can be used for what it is there
for, and an uploaded contract is read back as it was parsed. -/

namespace PdeOperator.Catalog
open Base
open ConfigImport (CreateProfileRequest CreateSimpleRunTemplateRequest defaultProfileId
  validProfileId)

variable {lib : Library} {w w' : World}

variable (lib) in
/-- What is left of the documents of an import has passed their validators. -/
structure DocsValid (docs : ConfigImport.Documents) : Prop where
  profiles : ∀ request ∈ docs.profiles, resourcesValid request.resources = true
  simpleTemplates : ∀ request ∈ docs.simpleTemplates, CheckedTemplate request
  declarativeTemplates : ∀ contract ∈ docs.declarativeTemplates, ∃ doc parsed,
    fromDocument lib doc = some parsed ∧
      contract.dump = Declarative.Store.storedSpec lib.column parsed

theorem foldlM_ok_invariant {ε α β : Type} {f : β → α → Except ε β} {p : β → Prop}
    (hstep : ∀ {b a b'}, p b → f b a = .ok b' → p b') {xs : List α} {b b' : β} (hb : p b)
    (h : xs.foldlM f b = .ok b') : p b' := by
  induction xs generalizing b with
  | nil =>
      cases h
      exact hb
  | cons x xs ih =>
      rw [List.foldlM_cons] at h
      obtain ⟨mid, hmid, hrest⟩ := bind_eq_ok.mp h
      exact ih (hstep hb hmid) hrest

theorem configRequired_eq_ok {α : Type} {error : ConfigImport.Error} {value : Option α} {a : α}
    (h : ConfigImport.required error value = .ok a) : value = some a := by
  cases value with
  | none => cases h
  | some b => rw [Except.ok.inj h]

theorem forall_mem_concat {α : Type} {p : α → Prop} {xs : List α} {x : α} (hxs : ∀ y ∈ xs, p y)
    (hx : p x) : ∀ y ∈ xs ++ [x], p y := by
  intro y hy
  rcases List.mem_append.mp hy with hy | hy
  · exact hxs y hy
  · exact List.mem_singleton.mp hy ▸ hx

theorem docsValid_addDocument {docs docs' : ConfigImport.Documents} {doc : Json}
    (hdocs : DocsValid lib docs) (h : ConfigImport.addDocument lib.config docs doc = .ok docs') :
    DocsValid lib docs' := by
  unfold ConfigImport.addDocument at h
  split at h
  · next fields =>
    split at h
    · obtain ⟨contract, hcontract, h⟩ := bind_eq_ok.mp h
      cases h
      obtain ⟨parsed, hparsed, rfl⟩ := Option.map_eq_some_iff.mp (configRequired_eq_ok hcontract)
      exact ⟨hdocs.profiles, hdocs.simpleTemplates,
        forall_mem_concat hdocs.declarativeTemplates ⟨fields, parsed, hparsed, rfl⟩⟩
    · split at h
      · obtain ⟨request, hrequest, h⟩ := bind_eq_ok.mp h
        cases h
        have hresources := validateProfile_resources (configRequired_eq_ok hrequest)
        exact ⟨forall_mem_concat hdocs.profiles hresources, hdocs.simpleTemplates,
          hdocs.declarativeTemplates⟩
      · split at h
        · obtain ⟨request, hrequest, h⟩ := bind_eq_ok.mp h
          cases h
          have hchecked := checkedTemplate_of_validate (configRequired_eq_ok hrequest)
          exact ⟨hdocs.profiles, forall_mem_concat hdocs.simpleTemplates hchecked,
            hdocs.declarativeTemplates⟩
        · split at h
          · obtain ⟨request, -, h⟩ := bind_eq_ok.mp h
            cases h
            exact { hdocs with }
          · cases h
            exact hdocs
    · cases h
      exact hdocs
  · cases h
    exact hdocs

theorem docsValid_parseDocuments {yamlText : Text} {docs : ConfigImport.Documents}
    (h : ConfigImport.parseDocuments lib.config yamlText = .ok docs) : DocsValid lib docs := by
  obtain ⟨loaded, -, h⟩ := bind_eq_ok.mp h
  refine foldlM_ok_invariant docsValid_addDocument ⟨?_, ?_, ?_⟩ h
  · exact fun _ hmem => absurd hmem List.not_mem_nil
  · exact fun _ hmem => absurd hmem List.not_mem_nil
  · exact fun _ hmem => absurd hmem List.not_mem_nil

theorem valid_purge (mode : ConfigImport.Mode) : (purge w mode).Valid lib := by
  cases mode with
  | merge => exact .empty
  | replace =>
      refine ⟨fun change hchange => ?_, fun change hchange => ?_⟩
      · obtain ⟨profileId, hmem, rfl⟩ := List.mem_map.mp hchange
        refine ⟨trivial, fun heq => ?_⟩
        have hother := of_decide_eq_true (List.mem_filter.mp hmem).2
        exact hother (Option.some.inj heq)
      · obtain ⟨templateId, -, rfl⟩ := List.mem_map.mp hchange
        trivial

theorem valid_upsert {changes : Changes} (h : changes.Valid lib) (env : ConfigImport.Env)
    (position : Nat) {request : CreateProfileRequest} (hid : validProfileId request.id = true)
    (hresources : resourcesValid request.resources = true) (existing : Option Profile) :
    Changes.Valid lib
      { changes with profiles := changes.profiles ++ [upsert env position request existing] } := by
  cases existing with
  | none => exact h.addProfile ⟨hid, hresources⟩ nofun
  | some profile => exact h.addProfile (keeps_write_profile hresources) nofun

theorem validTemplate_buildSimpleTemplate {request : CreateSimpleRunTemplateRequest}
    (hchecked : CheckedTemplate request) (env : ConfigImport.Env) :
    ValidTemplate lib (ConfigImport.buildSimpleTemplate env request) :=
  validTemplate_newTemplate hchecked env.dbNow

theorem validTemplate_buildDeclarativeTemplate {contract : ConfigImport.DeclarativeRunTemplate}
    (hcontract : ∃ doc parsed, fromDocument lib doc = some parsed ∧
      contract.dump = Declarative.Store.storedSpec lib.column parsed) (env : ConfigImport.Env) :
    ValidTemplate lib (ConfigImport.buildDeclarativeTemplate env contract) := by
  obtain ⟨doc, parsed, hparsed, hdump⟩ := hcontract
  exact ⟨⟨[], rfl⟩, Or.inr ⟨rfl, doc, parsed, hparsed, congrArg some hdump⟩⟩

variable (lib) in
def Call.Valid : Call → Prop
  | .importing docs changes => DocsValid lib docs ∧ changes.Valid lib
  | call => call.changes.Valid lib

variable (lib) in
structure Sound (w : World) : Prop where
  profiles : ∀ profileId profile, w.profiles.lookup profileId = some profile →
    ValidProfile profileId profile
  templates : ∀ templateId template, w.templates.lookup templateId = some template →
    ValidTemplate lib template
  calls : ∀ c call, w.calls c = some call → call.Valid lib

theorem Call.Valid.changes {call : Call} (h : call.Valid lib) : call.changes.Valid lib := by
  cases call with
  | importing docs changes => exact h.2
  | _ => exact h

theorem Sound.spawn (h : Sound lib w) {c : Nat} (call : Call) (hcall : call.Valid lib)
    (issued : List Uuid) : Sound lib { w.spawn c call with issued } where
  profiles := h.profiles
  templates := h.templates
  calls c' call' hcall' := by
    rcases calls_spawn hcall' with ⟨-, rfl⟩ | hold
    · exact hcall
    · exact h.calls c' call' hold

theorem Sound.goOn (h : Sound lib w) {c : Nat} {docs : ConfigImport.Documents} {changes : Changes}
    (hdocs : DocsValid lib docs) (hchanges : changes.Valid lib) (issued : List Uuid) :
    Sound lib { w.spawn c (.importing docs changes) with issued } :=
  h.spawn (.importing docs changes) ⟨hdocs, hchanges⟩ issued

theorem Sound.finish (h : Sound lib w) (c : Nat) : Sound lib (w.finish c) where
  profiles := h.profiles
  templates := h.templates
  calls c' call hcall := h.calls c' call (calls_finish hcall)

/-- What a call commits is valid row by row. -/
theorem Sound.commit (h : Sound lib w) {c : Nat} {call : Call} {profiles : Table Text Profile}
    {templates : Table Uuid RunTemplate} (hcall : w.calls c = some call)
    (hprofiles : w.profiles.applyAll call.changes.profiles = some profiles)
    (htemplates : w.templates.applyAll call.changes.templates = some templates) :
    Sound lib { w with profiles, templates } := by
  have hchanges := (h.calls _ _ hcall).changes
  refine ⟨?_, ?_, h.calls⟩
  · exact Table.applyAll_forall hprofiles (fun change hmem => (hchanges.profiles change hmem).1)
      h.profiles
  · exact Table.applyAll_forall htemplates hchanges.templates h.templates

theorem sound_step {a : Act} (hinv : Sound lib w) (h : step lib w a = some w') : Sound lib w' := by
  cases step_cases h with
  | write hcall hfresh hchanges => exact hinv.spawn (.writing _) (valid_changesOf hchanges) _
  | importParse hcall hdocs =>
      exact hinv.goOn (docsValid_parseDocuments hdocs) (valid_purge _) _
  | importProfile hcall hdocs hid =>
      obtain ⟨hleft, hchanges⟩ := hinv.calls _ _ hcall
      obtain ⟨hhead, htail⟩ := List.forall_mem_cons.mp (hdocs ▸ hleft.profiles)
      refine hinv.goOn ?_ (valid_upsert hchanges _ _ hid hhead _) _
      exact ⟨htail, hleft.simpleTemplates, hleft.declarativeTemplates⟩
  | importSimple hcall hdocs hfresh =>
      obtain ⟨hleft, hchanges⟩ := hinv.calls _ _ hcall
      obtain ⟨hhead, htail⟩ := List.forall_mem_cons.mp (hdocs ▸ hleft.simpleTemplates)
      refine hinv.goOn ?_ (hchanges.addTemplate _ (validTemplate_buildSimpleTemplate hhead _)) _
      exact ⟨hleft.profiles, htail, hleft.declarativeTemplates⟩
  | importDeclarative hcall hdocs hfresh =>
      obtain ⟨hleft, hchanges⟩ := hinv.calls _ _ hcall
      obtain ⟨hhead, htail⟩ := List.forall_mem_cons.mp (hdocs ▸ hleft.declarativeTemplates)
      refine hinv.goOn ?_ (hchanges.addTemplate _ (validTemplate_buildDeclarativeTemplate hhead _)) _
      exact ⟨hleft.profiles, hleft.simpleTemplates, htail⟩
  | readTemplate => exact hinv.spawn (.picking _ _) .empty _
  | pickNamed | pickDefault => exact Sound.spawn hinv (.picked _ _) .empty _
  | missDefault => exact hinv.spawn (.profileMissing _) .empty _
  | fallBack => exact hinv.spawn .fallingBack .empty _
  | commit hcall hprofiles htemplates => exact (hinv.commit hcall hprofiles htemplates).finish _
  | importCommit ha hcall hprofiles htemplates =>
      obtain ⟨hdocs, -⟩ := hinv.calls _ _ hcall
      refine (hinv.commit hcall hprofiles htemplates).goOn ?_ .empty _
      exact ⟨hdocs.profiles, hdocs.simpleTemplates, hdocs.declarativeTemplates⟩
  | drop hcall => exact hinv.finish _

theorem sound_initial : Sound lib World.initial where
  profiles _ _ hrow := by cases hrow
  templates _ _ hrow := by cases hrow
  calls _ _ hcall := by cases hcall

theorem sound_exec {acts : List Act} (h : (system lib).exec World.initial acts = some w) :
    Sound lib w := System.exec_invariant_of_forall sound_step sound_initial h

theorem containerResources_of_valid {resources : JsonObject} (h : resourcesValid resources = true)
    (setting : Resources.JobResources) :
    (Resources.containerResources setting resources).isSome = true := by
  obtain ⟨overlay, hoverlay⟩ := Option.isSome_iff_exists.mp h
  have hbase : Resources.fillJobResources setting =
      some (Resources.mergeOverlay .labDefaults setting) := rfl
  simp only [Resources.containerResources, hbase, Resources.merge_dict, hoverlay, Option.map_some,
    Option.bind_eq_bind, Option.bind_some, Option.isSome_some]

/-- Whatever the calls do side by side, a stored profile has a valid id, and the resources of a Job can
be made from it under all settings. -/
theorem profile_makes_job {acts : List Act} (hexec : (system lib).exec World.initial acts = some w)
    {profileId : Text} {profile : Profile} (hrow : w.profiles.lookup profileId = some profile) :
    validProfileId profileId = true ∧ ∀ setting : Resources.JobResources,
      (Resources.containerResources setting profile.resources).isSome = true := by
  obtain ⟨hid, hresources⟩ := (sound_exec hexec).profiles profileId profile hrow
  exact ⟨hid, containerResources_of_valid hresources⟩

/-! ### The default profile -/

/-- The default profile is there, and no call has missed a profile since `u`. -/
structure HasDefault (u w : World) : Prop where
  row : (w.profiles.lookup defaultProfileId).isSome = true
  found : ∀ c profileId, w.calls c = some (.profileMissing profileId) →
    u.calls c = some (.profileMissing profileId)

theorem HasDefault.spawn {u : World} (h : HasDefault u w) (c : Nat) {call : Call}
    (hcall : ∀ profileId, call ≠ .profileMissing profileId) (issued : List Uuid) :
    HasDefault u { w.spawn c call with issued } where
  row := h.row
  found c' profileId hcall' := by
    rcases calls_spawn hcall' with ⟨-, heq⟩ | hold
    · exact absurd heq.symm (hcall profileId)
    · exact h.found c' profileId hold

theorem HasDefault.finish {u : World} (h : HasDefault u w) (c : Nat) : HasDefault u (w.finish c) where
  row := h.row
  found c' profileId hcall := h.found c' profileId (calls_finish hcall)

/-- A commit does not delete the default profile. -/
theorem HasDefault.commit {u : World} (h : HasDefault u w) (hsound : Sound lib w) {c : Nat} {call : Call}
    {profiles : Table Text Profile} {templates : Table Uuid RunTemplate} (hcall : w.calls c = some call)
    (hprofiles : w.profiles.applyAll call.changes.profiles = some profiles) :
    HasDefault u { w with profiles, templates } := by
  have hchanges := (hsound.calls _ _ hcall).changes
  refine ⟨?_, h.found⟩
  exact Table.applyAll_isSome hprofiles (fun change hmem => (hchanges.profiles change hmem).2) h.row

theorem hasDefault_step {a : Act} {u : World} (hsound : Sound lib w) (hinv : HasDefault u w)
    (h : step lib w a = some w') : HasDefault u w' := by
  cases step_cases h with
  | write | importParse | importProfile | importSimple | importDeclarative | readTemplate | pickNamed
  | fallBack | pickDefault =>
      refine HasDefault.spawn hinv _ (fun profileId heq => ?_) _
      cases heq
  | missDefault ha hprofile =>
      have hrow := hinv.row
      rw [hprofile] at hrow
      cases hrow
  | commit hcall hprofiles htemplates => exact (hinv.commit hsound hcall hprofiles).finish _
  | importCommit ha hcall hprofiles htemplates =>
      refine (hinv.commit hsound hcall hprofiles).spawn _ (fun profileId heq => ?_) _
      cases heq
  | drop => exact hinv.finish _

/-- The id belongs to one version of a template: its row, if it is there, and every row that a call is
going to add are that version, and no call is going to update it. -/
structure Belongs (w : World) (templateId : Uuid) (template : RunTemplate) : Prop where
  issued : templateId ∈ w.issued
  row : ∀ row, w.templates.lookup templateId = some row → row = template
  insert : ∀ c call row, w.calls c = some call →
    Change.insert templateId row ∈ call.changes.templates → row = template
  write : ∀ c call (row : Tracked Uuid RunTemplate), w.calls c = some call →
    Change.write row ∈ call.changes.templates → row.key ≠ templateId

theorem Belongs.spawn {templateId : Uuid} {template : RunTemplate} (h : Belongs w templateId template)
    (c : Nat) {call : Call} {issued : List Uuid} (hissued : ∀ id ∈ w.issued, id ∈ issued)
    (hinsert : ∀ row, Change.insert templateId row ∈ call.changes.templates → row = template)
    (hwrite : ∀ row : Tracked Uuid RunTemplate, Change.write row ∈ call.changes.templates →
      row.key ≠ templateId) :
    Belongs { w.spawn c call with issued } templateId template where
  issued := hissued _ h.issued
  row := h.row
  insert c' call' row hcall' hmem := by
    rcases calls_spawn hcall' with ⟨-, rfl⟩ | hold
    · exact hinsert row hmem
    · exact h.insert c' call' row hold hmem
  write c' call' row hcall' hmem := by
    rcases calls_spawn hcall' with ⟨-, rfl⟩ | hold
    · exact hwrite row hmem
    · exact h.write c' call' row hold hmem

/-- A call that only reads, or that goes on without a further write of a template. -/
theorem Belongs.read {templateId : Uuid} {template : RunTemplate} (h : Belongs w templateId template)
    (c : Nat) {call : Call} (hsame : call.changes.templates = [] ∨
      ∃ old, w.calls c = some old ∧ call.changes.templates = old.changes.templates) :
    Belongs (w.spawn c call) templateId template := by
  refine h.spawn c (fun _ hid => hid) (fun row hmem => ?_) fun row hmem => ?_
  · rcases hsame with hnone | ⟨old, hold, hsame⟩
    · rw [hnone] at hmem
      exact absurd hmem List.not_mem_nil
    · exact h.insert c old row hold (hsame ▸ hmem)
  · rcases hsame with hnone | ⟨old, hold, hsame⟩
    · rw [hnone] at hmem
      exact absurd hmem List.not_mem_nil
    · exact h.write c old row hold (hsame ▸ hmem)

theorem Belongs.finish {templateId : Uuid} {template : RunTemplate} (h : Belongs w templateId template)
    (c : Nat) : Belongs (w.finish c) templateId template where
  issued := h.issued
  row := h.row
  insert c' call row hcall := h.insert c' call row (calls_finish hcall)
  write c' call row hcall := h.write c' call row (calls_finish hcall)

/-- A commit leaves the version alone, adds it or deletes it. -/
theorem Belongs.commit {templateId : Uuid} {template : RunTemplate} (h : Belongs w templateId template)
    {c : Nat} {call : Call} {profiles : Table Text Profile} {templates : Table Uuid RunTemplate}
    (hcall : w.calls c = some call)
    (htemplates : w.templates.applyAll call.changes.templates = some templates) :
    Belongs { w with profiles, templates } templateId template := by
  refine ⟨h.issued, fun row hrow => ?_, h.insert, h.write⟩
  refine Table.applyAll_forall (p := fun id row => id = templateId → row = template) htemplates
    (fun change hmem => ?_) (fun id row hold heq => h.row row (heq ▸ hold)) templateId row hrow rfl
  cases change with
  | insert id row =>
      rintro rfl
      exact h.insert _ _ row hcall hmem
  | write row => exact fun current _ heq => absurd heq (h.write _ _ row hcall hmem)
  | delete id => trivial

/-- Another new template gets an id of its own. -/
theorem Belongs.add {templateId other : Uuid} {template row : RunTemplate}
    (h : Belongs w templateId template) {c : Nat} {docs docs' : ConfigImport.Documents}
    {changes : Changes} (hcall : w.calls c = some (.importing docs changes)) (hfresh : other ∉ w.issued) :
    Belongs { w.spawn c (.importing docs'
      { changes with templates := changes.templates ++ [.insert other row] }) with
        issued := other :: w.issued } templateId template := by
  refine h.spawn c (fun _ hid => List.mem_cons_of_mem _ hid) (fun row' hmem => ?_) fun row' hmem => ?_
  · rcases List.mem_append.mp hmem with hmem | hmem
    · exact h.insert c _ row' hcall hmem
    · cases List.mem_singleton.mp hmem
      exact absurd h.issued hfresh
  · rcases List.mem_append.mp hmem with hmem | hmem
    · exact h.write c _ row' hcall hmem
    · cases List.mem_singleton.mp hmem

/-- What the single calls write to the templates. -/
theorem templates_changesOf {profiles : Table Text Profile} {templates : Table Uuid RunTemplate}
    {write : Write} {changes : Changes} (h : changesOf lib profiles templates write = .ok changes)
    {change : TemplateChange} (hmem : change ∈ changes.templates) :
    (∃ templateId row, write.newId = some templateId ∧ change = .insert templateId row) ∨
      (∃ row, change = .write row ∧ templates.lookup row.key = some row.read ∧
        row.read.templateKind = "simple".toList) ∨
      ∃ templateId row, change = .delete templateId ∧ templates.lookup templateId = some row := by
  cases write with
  | initDb seed dbNow =>
      cases h
      exact absurd hmem List.not_mem_nil
  | createProfile | updateProfile =>
      obtain ⟨request, -, h⟩ := bind_eq_ok.mp h
      obtain ⟨written, -, h⟩ := bind_eq_ok.mp h
      cases h
      exact absurd hmem List.not_mem_nil
  | deleteProfile profileId =>
      obtain ⟨written, -, h⟩ := bind_eq_ok.mp h
      cases h
      exact absurd hmem List.not_mem_nil
  | createTemplate templateId payload dbNow =>
      obtain ⟨request, -, h⟩ := bind_eq_ok.mp h
      cases h
      exact Or.inl ⟨templateId, _, rfl, List.mem_singleton.mp hmem⟩
  | updateTemplate templateId payload now =>
      obtain ⟨request, -, h⟩ := bind_eq_ok.mp h
      obtain ⟨written, hwritten, h⟩ := bind_eq_ok.mp h
      cases h
      unfold updateTemplate at hwritten
      split at hwritten
      · cases hwritten
      · next template htemplate =>
        split at hwritten
        · cases hwritten
        · next hkind =>
          cases hwritten
          exact Or.inr (Or.inl ⟨_, List.mem_singleton.mp hmem, htemplate, not_not.mp hkind⟩)
  | deleteTemplate templateId =>
      obtain ⟨written, hwritten, h⟩ := bind_eq_ok.mp h
      cases h
      unfold deleteTemplate at hwritten
      split at hwritten
      · cases hwritten
      · next template htemplate =>
        cases hwritten
        exact Or.inr (Or.inr ⟨templateId, template, List.mem_singleton.mp hmem, htemplate⟩)
  | uploadTemplate templateId yamlText now dbNow =>
      obtain ⟨parsed, -, h⟩ := bind_eq_ok.mp h
      cases h
      exact Or.inl ⟨templateId, _, rfl, List.mem_singleton.mp hmem⟩

theorem belongs_step {a : Act} {templateId : Uuid} {template : RunTemplate}
    (hkind : template.templateKind ≠ "simple".toList) (hinv : Belongs w templateId template)
    (h : step lib w a = some w') : Belongs w' templateId template := by
  cases step_cases h with
  | write hcall hfresh hchanges =>
      refine hinv.spawn _ (fun _ hid => List.mem_append_right _ hid) (fun row hmem => ?_) fun row hmem => ?_
      · rcases templates_changesOf hchanges hmem with ⟨_, _, hnew, heq⟩ | ⟨_, heq, -⟩ |
          ⟨_, _, heq, -⟩
        · cases heq
          exact absurd hinv.issued (hfresh _ hnew)
        · cases heq
        · cases heq
      · rcases templates_changesOf hchanges hmem with ⟨_, _, -, heq⟩ | ⟨_, heq, hread, hsimple⟩ |
          ⟨_, _, heq, -⟩
        · cases heq
        · cases heq
          rintro rfl
          exact hkind (hinv.row _ hread ▸ hsimple)
        · cases heq
  | @importParse c yamlText mode docs hcall hdocs =>
      have hpurge : ∀ change ∈ (purge w mode).templates, ∃ id, change = .delete id := by
        intro change hmem
        cases mode with
        | merge => exact absurd hmem List.not_mem_nil
        | replace =>
            obtain ⟨id, -, rfl⟩ := List.mem_map.mp hmem
            exact ⟨id, rfl⟩
      refine hinv.spawn _ (fun _ hid => hid) (fun row hmem => ?_) fun row hmem => ?_
      · obtain ⟨id, heq⟩ := hpurge _ hmem
        cases heq
      · obtain ⟨id, heq⟩ := hpurge _ hmem
        cases heq
  | importProfile hcall => exact hinv.read _ (Or.inr ⟨_, hcall, rfl⟩)
  | importSimple hcall hdocs hfresh | importDeclarative hcall hdocs hfresh => exact hinv.add hcall hfresh
  | readTemplate | pickNamed | missDefault | fallBack | pickDefault =>
      exact Belongs.read hinv _ (Or.inl rfl)
  | commit hcall hprofiles htemplates => exact (hinv.commit hcall htemplates).finish _
  | importCommit ha hcall hprofiles htemplates =>
      exact (hinv.commit hcall htemplates).read _ (Or.inl rfl)
  | drop => exact hinv.finish _

/-- The ids of all templates, those that a call is about to write included, have been issued. -/
structure Issued (w : World) : Prop where
  row : ∀ templateId template, w.templates.lookup templateId = some template → templateId ∈ w.issued
  change : ∀ c call (change : TemplateChange), w.calls c = some call →
    change ∈ call.changes.templates → change.key ∈ w.issued

theorem Issued.spawn (h : Issued w) (c : Nat) {call : Call} {issued : List Uuid}
    (hissued : ∀ id ∈ w.issued, id ∈ issued)
    (hchange : ∀ change ∈ call.changes.templates, change.key ∈ issued) :
    Issued { w.spawn c call with issued } where
  row templateId template hrow := hissued _ (h.row templateId template hrow)
  change c' call' change hcall' hmem := by
    rcases calls_spawn hcall' with ⟨-, rfl⟩ | hold
    · exact hchange change hmem
    · exact hissued _ (h.change c' call' change hold hmem)

theorem Issued.finish (h : Issued w) (c : Nat) : Issued (w.finish c) where
  row := h.row
  change c' call change hcall := h.change c' call change (calls_finish hcall)

theorem Issued.commit (h : Issued w) {c : Nat} {call : Call} {profiles : Table Text Profile}
    {templates : Table Uuid RunTemplate} (hcall : w.calls c = some call)
    (htemplates : w.templates.applyAll call.changes.templates = some templates) :
    Issued { w with profiles, templates } := by
  refine ⟨fun id row hrow => ?_, h.change⟩
  refine Table.applyAll_forall (p := fun id _ => id ∈ w.issued) htemplates (fun change hmem => ?_)
    (fun id row hold => h.row id row hold) id row hrow
  cases change with
  | insert id row => exact h.change _ _ _ hcall hmem
  | write row => exact fun _ hold => hold
  | delete id => trivial

theorem issued_step {a : Act} (hinv : Issued w) (h : step lib w a = some w') : Issued w' := by
  have hadd : ∀ {c other row docs docs'} {changes : Changes}, w.calls c = some (.importing docs changes) →
      Issued { w.spawn c (.importing docs'
        { changes with templates := changes.templates ++ [.insert other row] }) with
          issued := other :: w.issued } := by
    intro c other row docs docs' changes hcall
    refine hinv.spawn c (fun _ hid => List.mem_cons_of_mem _ hid) fun change hmem => ?_
    rcases List.mem_append.mp hmem with hmem | hmem
    · exact List.mem_cons_of_mem _ (hinv.change c _ change hcall hmem)
    · obtain rfl := List.mem_singleton.mp hmem
      exact List.mem_cons_self
  have hread : ∀ {c : Nat} {call : Call}, call.changes.templates = [] → Issued (w.spawn c call) := by
    intro c call hnone
    refine hinv.spawn c (fun _ hid => hid) fun change hmem => ?_
    rw [hnone] at hmem
    exact absurd hmem List.not_mem_nil
  cases step_cases h with
  | write hcall hfresh hchanges =>
      refine hinv.spawn _ (fun _ hid => List.mem_append_right _ hid) fun change hmem => ?_
      rcases templates_changesOf hchanges hmem with ⟨id, row, hnew, rfl⟩ | ⟨row, rfl, hold, -⟩ |
        ⟨id, row, rfl, hold⟩
      · exact List.mem_append_left _ (Option.mem_toList.mpr hnew)
      · exact List.mem_append_right _ (hinv.row _ _ hold)
      · exact List.mem_append_right _ (hinv.row _ _ hold)
  | @importParse c yamlText mode docs hcall hdocs =>
      refine hinv.spawn _ (fun _ hid => hid) fun change hmem => ?_
      cases mode with
      | merge => exact absurd hmem List.not_mem_nil
      | replace =>
          obtain ⟨id, hkey, rfl⟩ := List.mem_map.mp hmem
          obtain ⟨row, hrow⟩ := Option.isSome_iff_exists.mp (AList.lookup_isSome.mpr hkey)
          exact hinv.row id row hrow
  | importProfile hcall =>
      exact hinv.spawn _ (fun _ hid => hid) fun change hmem => hinv.change _ _ change hcall hmem
  | importSimple hcall | importDeclarative hcall => exact hadd hcall
  | readTemplate | pickNamed | missDefault | fallBack | pickDefault => exact hread rfl
  | commit hcall hprofiles htemplates => exact (hinv.commit hcall htemplates).finish _
  | importCommit ha hcall hprofiles htemplates =>
      refine (hinv.commit hcall htemplates).spawn _ (fun _ hid => hid) fun change hmem => ?_
      exact absurd hmem List.not_mem_nil
  | drop => exact hinv.finish _

theorem issued_exec {acts : List Act} (h : (system lib).exec World.initial acts = some w) : Issued w := by
  refine System.exec_invariant_of_forall issued_step ⟨?_, ?_⟩ h
  · intro _ _ hrow
    cases hrow
  · intro _ _ _ hcall
    cases hcall

/-- With its first step an upload takes an id for the contract that it has parsed. -/
theorem belongs_upload {c : Nat} {templateId : Uuid} {yamlText : Text} {now dbNow : Instant}
    (hinv : Issued w)
    (h : step lib w (.write c (.uploadTemplate templateId yamlText now dbNow)) = some w') :
    ∃ parsed, parseYaml lib yamlText = some parsed ∧
      Belongs w' templateId (importedTemplate lib parsed now dbNow) := by
  cases step_cases h with
  | write hcall hfresh hchanges =>
      obtain ⟨parsed, hparsed, hchanges⟩ := bind_eq_ok.mp hchanges
      cases hchanges
      have hnew : templateId ∉ w.issued := hfresh templateId rfl
      refine ⟨parsed, required_eq_ok hparsed, List.mem_cons_self, ?_, ?_, ?_⟩
      · exact fun row hrow => absurd (hinv.row _ _ hrow) hnew
      · intro c' call row hcall' hmem
        rcases calls_spawn hcall' with ⟨-, rfl⟩ | hold
        · cases List.mem_singleton.mp hmem
          rfl
        · exact absurd (hinv.change c' call _ hold hmem) hnew
      · rintro c' call row hcall' hmem rfl
        rcases calls_spawn hcall' with ⟨-, rfl⟩ | hold
        · cases List.mem_singleton.mp hmem
        · exact absurd (hinv.change c' call _ hold hmem) hnew
  | missDefault ha | importCommit ha =>
      rcases ha with ha | ha
      · cases ha
      · cases ha

/-- What `create_run_from_declarative_template` uses. -/
def runLibrary (lib : Library) (cron : CronLibrary)
    (adapter : RunTemplate → JsonObject → Except ScheduleService.Error CreateRunRequest) : CallLibrary where
  cron := cron
  engine := lib.parser.toEngineLibrary
  loadContract spec := (Declarative.Store.modelValidate spec).map Declarative.ParsedTemplate.contract
  adapter := adapter

/-- However long after its upload a declarative template is used, and whatever other calls have done in
between, its row is the uploaded one, its contract loads, and a run from it is what the engine makes of
the parsed document, unless a default holds an object or a number with a point. The parsed document is one
of JSON values. -/
theorem uploaded_template_runs {before between : List Act} {c : Nat} {templateId : Uuid}
    {yamlText : Text} {now dbNow : Instant} {u v : World} {row : RunTemplate}
    (hupload : (system lib).exec World.initial
      (before ++ [.write c (.uploadTemplate templateId yamlText now dbNow)]) = some u)
    (hbetween : (system lib).exec u between = some v)
    (hrow : v.templates.lookup templateId = some row) :
    ∃ parsed, parseYaml lib yamlText = some parsed ∧ row = importedTemplate lib parsed now dbNow ∧
      row.declarativeSpec.bind Declarative.Store.modelValidate =
        some (Declarative.Store.readTemplate lib.column parsed) ∧
      ((∀ field ∈ parsed.fields, Jsonb.IsPlain field.value) → ∀ cron adapter values,
        RunStore.toCreateRunRequestFromTemplate (runLibrary lib cron adapter) templateId row values =
          ((Declarative.Engine.buildRunPayload lib.parser.toEngineLibrary parsed.contract
            values).mapError CallError.contract).map
              fun payload => Declarative.toCreateRunRequest payload templateId) := by
  obtain ⟨w, hbefore, hlast⟩ := ((system lib).exec_append_eq_some).mp hupload
  obtain ⟨u', hstep, hnil⟩ := ((system lib).exec_cons_eq_some).mp hlast
  obtain rfl : u' = u := Option.some.inj hnil
  obtain ⟨parsed, hparsed, hbelongs⟩ := belongs_upload (issued_exec hbefore) hstep
  have hkind : (importedTemplate lib parsed now dbNow).templateKind ≠ "simple".toList := by
    have hne : "declarative".toList ≠ "simple".toList := by decide
    exact hne
  have hlater := System.exec_invariant_of_forall
    (I := fun u => Belongs u templateId (importedTemplate lib parsed now dbNow))
    (fun hi hs => belongs_step hkind hi hs) hbelongs hbetween
  obtain rfl := hlater.row row hrow
  have hload : (importedTemplate lib parsed now dbNow).declarativeSpec.bind
      Declarative.Store.modelValidate = some (Declarative.Store.readTemplate lib.column parsed) :=
    Declarative.Store.modelValidate_storedSpec parsed
  refine ⟨parsed, hparsed, rfl, hload, fun hplain cron adapter values => ?_⟩
  have hcontract : (importedTemplate lib parsed now dbNow).declarativeSpec.bind
      (runLibrary lib cron adapter).loadContract = some parsed.contract := by
    rw [← @Declarative.Store.contract_readTemplate lib.column parsed hplain]
    exact congrArg (Option.map Declarative.ParsedTemplate.contract) hload
  have hengine : (runLibrary lib cron adapter).engine = lib.parser.toEngineLibrary := rfl
  rw [RunStore.toCreateRunRequestFromTemplate, hcontract]
  dsimp only
  rw [hengine]
  cases Declarative.Engine.buildRunPayload lib.parser.toEngineLibrary parsed.contract values with
  | error cause => rfl
  | ok payload => rfl

/-- A document with one variable, the pipeline, as the loaders would give it. -/
def sampleDocument : JsonObject :=
  [(".ui-variables".toList, .obj
    [("variables".toList, .obj [("PIPELINE".toList, .str "stages: []".toList)]),
     (Declarative.Parser.customizationKey, .obj [("PIPELINE".toList, .obj
        [("settings".toList, .obj [("bind_to".toList, .str "pipeline_data".toList)])])])])]

/-- Loaders that know one text, and requests that have a profile id at most. -/
def sampleLibrary : Library where
  gitLabCiLoadAll _ := .ok []
  safeLoadAll _ := .ok []
  gitLabCiLoad _ := some (.obj sampleDocument)
  coerceProfile _ := some { id := "small".toList, pdeImage := "pde:1".toList }
  coerceProfileUpdate _ := some { pdeImage := "pde:2".toList }
  coerceSimpleTemplate _ := some
    { name := "nightly".toList, profileId := "small".toList, pipelineData := "stages: []".toList }
  coerceSchedule _ := none
  parser := { repr := fun _ => [], reMatch := fun _ _ => none, validationError := fun _ => [] }
  column := .sorted

def sampleSeed : Seed where
  pdeDefaultImage := "pde:1".toList
  k8sJobResources := .labDefaults

/-- The database is seeded and a profile is added. -/
def seeded : List Act :=
  [.write 0 (.initDb sampleSeed 0), .commit 0, .write 0 (.createProfile [] 1), .commit 0]

/-- A template that names the profile is read, and then the profile is deleted. -/
def profileVanishes : List Act :=
  [.write 0 (.createTemplate 7 [] 2), .commit 0, .readTemplate 1 7 none,
    .write 2 (.deleteProfile "small".toList), .commit 2, .readProfile 1, .readDefault 1]

def profileAfter (acts : List Act) (profileId : Text) : Option Profile :=
  ((system sampleLibrary).exec World.initial acts).bind fun w => w.profiles.lookup profileId

def uploaded : List Act :=
  [.write 5 (.uploadTemplate 9 [] 3 3)]

/-- While the upload commits, an import in merge mode and a deletion of another template go on. -/
def usedLater : List Act :=
  [.write 2 (.deleteTemplate 7), .commit 5, .importParse 3 [] .merge, .commit 2, .commit 3]

def templateAfter (acts : List Act) (templateId : Uuid) : Option RunTemplate :=
  ((system sampleLibrary).exec World.initial acts).bind fun w => w.templates.lookup templateId

/-- The profile that a request adds makes a Job. -/
theorem profile_makes_job_seeded : ∃ profile, profileAfter seeded "small".toList = some profile ∧
    validProfileId "small".toList = true ∧ ∀ setting : Resources.JobResources,
      (Resources.containerResources setting profile.resources).isSome = true := by
  have hadded : (profileAfter seeded "small".toList).isSome = true := by decide +kernel
  obtain ⟨profile, hprofile⟩ := Option.isSome_iff_exists.mp hadded
  obtain ⟨w, hexec, hrow⟩ := Option.bind_eq_some_iff.mp hprofile
  exact ⟨profile, hprofile, profile_makes_job hexec hrow⟩

/-- The uploaded template is there after the other calls, and can be run. -/
theorem uploaded_template_runs_usedLater : ∃ row parsed,
    templateAfter (seeded ++ profileVanishes ++ uploaded ++ usedLater) 9 = some row ∧
      parseYaml sampleLibrary [] = some parsed ∧
      row = importedTemplate sampleLibrary parsed 3 3 ∧
      row.declarativeSpec.bind Declarative.Store.modelValidate =
        some (Declarative.Store.readTemplate sampleLibrary.column parsed) ∧
      ((∀ field ∈ parsed.fields, Jsonb.IsPlain field.value) → ∀ cron adapter values,
        RunStore.toCreateRunRequestFromTemplate (runLibrary sampleLibrary cron adapter) 9 row values =
          ((Declarative.Engine.buildRunPayload sampleLibrary.parser.toEngineLibrary parsed.contract
            values).mapError CallError.contract).map
              fun payload => Declarative.toCreateRunRequest payload 9) := by
  have hused : (templateAfter (seeded ++ profileVanishes ++ uploaded ++ usedLater) 9).isSome = true := by
    decide +kernel
  obtain ⟨row, hrow⟩ := Option.isSome_iff_exists.mp hused
  obtain ⟨v, hv, htemplate⟩ := Option.bind_eq_some_iff.mp hrow
  obtain ⟨u, hupload, hbetween⟩ := ((system sampleLibrary).exec_append_eq_some).mp hv
  obtain ⟨parsed, hparsed⟩ := uploaded_template_runs hupload hbetween htemplate
  exact ⟨row, parsed, hrow, hparsed⟩

end PdeOperator.Catalog
