import PdeOperator.JobInputs

/-! What a Job hands over. When PDE has ended, the wrapper takes the debug files and the report out of the
pipeline directory, packs the rest and uploads the four files as a form; the operator reads the form and
stores what is not empty. -/

namespace PdeOperator
open Base Multipart

namespace JobEntrypoint

theorem utf8_append (a b : Text) : utf8 (a ++ b) = utf8 a ++ utf8 b := List.flatMap_append

def formFile (part : Part) : FormFile where
  name := utf8 part.1
  filename := utf8 part.2.1
  content := part.2.2

theorem utf8_disposition (part : Part) : utf8 (disposition part.1 part.2.1) = (formFile part).header := by
  have hlead : utf8 "Content-Disposition: form-data; name=\"".toList = lead := rfl
  have hmiddle : utf8 "\"; filename=\"".toList = 34 :: middle := by decide
  have hquote : utf8 "\"".toList = [34] := by decide
  unfold disposition
  -- the texts are closed, and rewriting would compute them
  generalize "Content-Disposition: form-data; name=\"".toList = before at hlead ⊢
  generalize "\"; filename=\"".toList = between at hmiddle ⊢
  generalize "\"".toList = quote at hquote ⊢
  rw [utf8_append, utf8_append, utf8_append, utf8_append, hlead, hmiddle, hquote]
  rfl

/-- The wrapper frames its files as a form. -/
theorem multipartBody_eq (boundary : Text) (files : List Part) : multipartBody boundary files =
    encapsulate (utf8 boundary) (files.map fun file => (formFile file).part) := by
  have hdashes : utf8 "--".toList = dashes := by decide
  have hcrlf : utf8 "\x0d\x0a".toList = crlf := by decide
  have hblank : utf8 "\x0d\x0a\x0d\x0a".toList = crlf ++ crlf := by decide
  have hclose : utf8 "--\x0d\x0a".toList = dashes ++ crlf := by decide
  unfold multipartBody
  generalize "--\x0d\x0a".toList = closing at hclose ⊢
  generalize "--".toList = opening at hdashes ⊢
  generalize "\x0d\x0a\x0d\x0a".toList = blank at hblank ⊢
  generalize "\x0d\x0a".toList = newline at hcrlf ⊢
  have hloop : ∀ rest : Octets, (files.flatMap fun file =>
      utf8 (opening ++ boundary ++ newline) ++
        (utf8 (disposition file.1 file.2.1 ++ blank) ++ (file.2.2 ++ utf8 newline))) ++
          (dashes ++ utf8 boundary ++ rest) =
      dashes ++ utf8 boundary ++ ((files.map fun file => (formFile file).part).flatMap fun part =>
        crlf ++ (part ++ delimiter (utf8 boundary))) ++ rest := by
    intro rest
    induction files with
    | nil => simp
    | cons file files ih =>
        rw [List.flatMap_cons, List.append_assoc, ih, List.map_cons, List.flatMap_cons]
        simp only [utf8_append, utf8_disposition, hdashes, hcrlf, hblank, FormFile.part, delimiter,
          List.append_assoc]
        rfl
  have htail : utf8 (opening ++ boundary ++ closing) =
      dashes ++ utf8 boundary ++ (dashes ++ crlf) := by
    rw [utf8_append, utf8_append, hdashes, hclose]
  rw [htail, hloop, encapsulate, List.append_assoc _ dashes]

section Staging

variable (files : FileTree)

/-- `stage_x_debug` -/
def debugStaged : FileTree :=
  if files.isDir xDebugDir then (files.remove xDebugStaging).rename xDebugDir xDebugStaging else files

/-- `stage_pipeline_reports` -/
def reportStaged : FileTree :=
  if files.isFile reportJson then files.rename reportJson reportJsonStaging else files

/-- What is packed: the pipeline directory without the debug files and without the report. -/
def leftTree : FileTree :=
  let tree := files.below pipelineDir
  let tree := if files.isDir xDebugDir then tree.remove xDebugName else tree
  if files.isFile reportJson then tree.remove reportName else tree

/-- What the wrapper moves away in the workspace is not in its way. -/
structure Clear : Prop where
  staging : files.isDir xDebugDir = true → (files xDebugStaging).isSome = true →
    files.isDir xDebugStaging = true
  report : files.isFile reportJson = true → files.isDir reportJsonStaging = false
  zip : files.isDir xDebugZip = false
  log : files.isDir consoleLog = false

variable {files} {p : List Text}

theorem debugStaged_of_apart (h : ¬xDebugStaging <+: p) (h' : ¬xDebugDir <+: p) : debugStaged files p = files p := by
  unfold debugStaged
  split
  · rw [FileTree.rename_of_not_prefix h h', FileTree.remove_of_not_prefix h]
  · rfl

theorem reportStaged_of_apart (h : ¬reportJsonStaging <+: p) (h' : ¬reportJson <+: p) :
    reportStaged files p = files p := by
  unfold reportStaged
  split
  · exact FileTree.rename_of_not_prefix h h'
  · rfl

theorem isFile_reportJson_debugStaged : (debugStaged files).isFile reportJson = files.isFile reportJson :=
  FileTree.isFile_congr (debugStaged_of_apart (by decide) (by decide))

/-- The debug files leave the pipeline directory. -/
theorem below_debugStaged : (debugStaged files).below pipelineDir =
    if files.isDir xDebugDir then (files.below pipelineDir).remove xDebugName else files.below pipelineDir := by
  have hold : (files.remove xDebugStaging).below pipelineDir = files.below pipelineDir :=
    FileTree.below_remove_of_apart (by decide) (by decide)
  unfold debugStaged
  split
  · exact (FileTree.below_rename_out (by decide) (by decide)).trans (by rw [hold])
  · rfl

theorem below_staged : (reportStaged (debugStaged files)).below pipelineDir = leftTree files := by
  rw [reportStaged, isFile_reportJson_debugStaged, leftTree, ← below_debugStaged]
  split
  · exact FileTree.below_rename_out (by decide) (by decide)
  · rfl

/-- The debug files are where they are zipped. -/
theorem below_xDebugStaging : (debugStaged files).below xDebugStaging =
    if files.isDir xDebugDir then files.below xDebugDir else files.below xDebugStaging := by
  unfold debugStaged
  split
  · rw [FileTree.below_rename]
    exact FileTree.below_remove_of_apart (by decide) (by decide)
  · rfl

theorem xDebugStaging_debugStaged (h : files.isDir xDebugDir = true) :
    debugStaged files xDebugStaging = files xDebugDir := by
  rw [debugStaged, if_pos h, FileTree.rename_target, FileTree.remove_of_not_prefix (by decide)]

theorem isDir_xDebugStaging : (debugStaged files).isDir xDebugStaging =
    (files.isDir xDebugDir || files.isDir xDebugStaging) := by
  cases h : files.isDir xDebugDir with
  | true => rw [FileTree.isDir_congr (xDebugStaging_debugStaged h), h, Bool.true_or]
  | false => rw [debugStaged, h, if_neg Bool.false_ne_true, Bool.false_or]

theorem report_staged :
    (reportStaged (debugStaged files)).content reportJsonStaging =
      (files.content reportJson).or (files.content reportJsonStaging) := by
  have hreport : debugStaged files reportJson = files reportJson :=
    debugStaged_of_apart (by decide) (by decide)
  have hstaging : debugStaged files reportJsonStaging = files reportJsonStaging :=
    debugStaged_of_apart (by decide) (by decide)
  rw [reportStaged, isFile_reportJson_debugStaged]
  cases h : files.content reportJson with
  | none =>
      rw [FileTree.isFile, h, Option.isSome_none, if_neg Bool.false_ne_true, Option.none_or]
      exact FileTree.content_congr hstaging
  | some content =>
      rw [FileTree.isFile, h, Option.isSome_some, if_pos rfl, Option.some_or, ← h]
      exact FileTree.content_congr (FileTree.rename_target.trans hreport)

end Staging

section Finish

variable {host : Host} {files : FileTree} {s : State}

/-- `pde archive` packs the pipeline directory, and changes nothing else in the workspace. -/
def Packs (host : Host) (pack : FileTree → Octets) : Prop :=
  ∀ files, files.isDir pipelineDir = true →
    host.archive files = files.write pipelineDirZip (pack (files.below pipelineDir))

variable (host) in
/-- `zip_x_debug` -/
def debugZipped (files : FileTree) : FileTree :=
  if files.isDir xDebugStaging then files.write xDebugZip (host.makeArchive (files.below xDebugStaging))
  else files

variable (host) in
/-- The workspace before the upload. -/
def finishedFiles (files : FileTree) : FileTree :=
  debugZipped host (host.archive (reportStaged (debugStaged files)))

variable (host) in
/-- What a Job hands over of the workspace that PDE has left. -/
def handedOver (pack : FileTree → Octets) (files : FileTree) : Uploads where
  state := some (pack (leftTree files))
  log := files.content consoleLog
  xDebug :=
    if files.isDir xDebugDir then some (host.makeArchive (files.below xDebugDir))
    else if files.isDir xDebugStaging then some (host.makeArchive (files.below xDebugStaging))
    else files.content xDebugZip
  report := (files.content reportJson).or (files.content reportJsonStaging)

/-- The files of a form for the parts that are there. -/
def partsOf (uploads : Uploads) : List Part :=
  [("state".toList, "PIPELINE_DIR.zip".toList, uploads.state), ("log".toList, "console.log".toList, uploads.log),
    ("x_debug".toList, "x_debug.zip".toList, uploads.xDebug),
    ("report".toList, "pipeline_report.json".toList, uploads.report)].filterMap fun part =>
      part.2.2.map fun content => (part.1, part.2.1, content)

theorem archive_staged {pack : FileTree → Octets} (hpacks : Packs host pack)
    (hdir : files.isDir pipelineDir = true) : host.archive (reportStaged (debugStaged files)) =
      (reportStaged (debugStaged files)).write pipelineDirZip (pack (leftTree files)) := by
  have hstaged : reportStaged (debugStaged files) pipelineDir = files pipelineDir :=
    (reportStaged_of_apart (by decide) (by decide)).trans (debugStaged_of_apart (by decide) (by decide))
  rw [hpacks _ ((FileTree.isDir_congr hstaged).trans hdir), below_staged]

/-- What is neither moved nor packed is as PDE has left it. -/
theorem archived_of_apart {pack : FileTree → Octets} (hpacks : Packs host pack)
    (hdir : files.isDir pipelineDir = true) {p : List Text} (hzip : p ≠ pipelineDirZip)
    (hreport : ¬reportJsonStaging <+: p) (hreport' : ¬reportJson <+: p) :
    host.archive (reportStaged (debugStaged files)) p = debugStaged files p := by
  rw [archive_staged hpacks hdir, FileTree.write_of_ne hzip, reportStaged_of_apart hreport hreport']

theorem below_archived {pack : FileTree → Octets} (hpacks : Packs host pack)
    (hdir : files.isDir pipelineDir = true) :
    (host.archive (reportStaged (debugStaged files))).below xDebugStaging =
      (debugStaged files).below xDebugStaging := by
  funext p
  have hzip : xDebugStaging ++ p ≠ pipelineDirZip := by
    intro h
    cases h
  refine archived_of_apart hpacks hdir hzip (fun hin => ?_) fun hin => ?_
  · exact absurd (List.cons_prefix_cons.mp hin).1 (by decide)
  · exact absurd (List.cons_prefix_cons.mp hin).1 (by decide)

/-- The files of the upload. -/
theorem uploadParts_finishedFiles {pack : FileTree → Octets} (hpacks : Packs host pack)
    (hdir : files.isDir pipelineDir = true) :
    uploadParts (finishedFiles host files) = partsOf (handedOver host pack files) := by
  have hkept : ∀ p, p ≠ xDebugZip → finishedFiles host files p =
      host.archive (reportStaged (debugStaged files)) p := by
    intro p hp
    rw [finishedFiles, debugZipped]
    split
    · exact FileTree.write_of_ne hp
    · rfl
  have hstate : (finishedFiles host files).content pipelineDirZip = some (pack (leftTree files)) := by
    rw [FileTree.content_congr (hkept _ (by decide)), archive_staged hpacks hdir]
    exact FileTree.content_write_self
  have hlog : (finishedFiles host files).content consoleLog = files.content consoleLog := by
    refine FileTree.content_congr ((hkept _ (by decide)).trans ?_)
    rw [archived_of_apart hpacks hdir (by decide) (by decide) (by decide)]
    exact debugStaged_of_apart (by decide) (by decide)
  have hreport : (finishedFiles host files).content reportJsonStaging =
      (files.content reportJson).or (files.content reportJsonStaging) := by
    rw [FileTree.content_congr (hkept _ (by decide)), archive_staged hpacks hdir,
      FileTree.content_write_of_ne (by decide), report_staged]
  have hdebug : (finishedFiles host files).content xDebugZip = (handedOver host pack files).xDebug := by
    have hstaging : (host.archive (reportStaged (debugStaged files))).isDir xDebugStaging =
        (files.isDir xDebugDir || files.isDir xDebugStaging) := by
      rw [← isDir_xDebugStaging]
      exact FileTree.isDir_congr (archived_of_apart hpacks hdir (by decide) (by decide) (by decide))
    have hzip : (host.archive (reportStaged (debugStaged files))).content xDebugZip =
        files.content xDebugZip := by
      refine FileTree.content_congr ?_
      rw [archived_of_apart hpacks hdir (by decide) (by decide) (by decide)]
      exact debugStaged_of_apart (by decide) (by decide)
    rw [finishedFiles, debugZipped, hstaging, below_archived hpacks hdir, below_xDebugStaging, handedOver]
    cases files.isDir xDebugDir with
    | true => exact FileTree.content_write_self
    | false =>
        cases files.isDir xDebugStaging with
        | true => exact FileTree.content_write_self
        | false => exact hzip
  simp only [uploadParts, artifactCandidates, partsOf, List.filterMap_cons, List.filterMap_nil, hstate, hlog,
    hreport, hdebug]
  rfl

theorem finish_eq {pack : FileTree → Octets} (hpacks : Packs host pack)
    (hdir : s.files.isDir pipelineDir = true) (hclear : Clear s.files) :
    finish host s = (uploadArtifacts host >>= fun _ => pure ()) { s with files := finishedFiles host s.files } := by
  have hdebug : stageXDebug s = (.ok (), { s with files := debugStaged s.files }) := by
    rw [stageXDebug, Program.read_bind]
    cases h : s.files.isDir xDebugDir with
    | false =>
        rw [debugStaged, h]
        rfl
    | true =>
        have hfree : ((s.files xDebugStaging).isSome && !s.files.isDir xDebugStaging) = false := by
          cases hsome : (s.files xDebugStaging).isSome with
          | false => rfl
          | true => rw [hclear.staging h hsome]; rfl
        rw [if_pos rfl, Program.check_bind, hfree, debugStaged, h]
        rfl
  have hreport : stagePipelineReports { s with files := debugStaged s.files } =
      (.ok (), { s with files := reportStaged (debugStaged s.files) }) := by
    have hfree : (debugStaged s.files).isFile reportJson = true →
        (debugStaged s.files).isDir reportJsonStaging = false := by
      intro h
      rw [isFile_reportJson_debugStaged] at h
      rw [FileTree.isDir_congr (debugStaged_of_apart (by decide) (by decide))]
      exact hclear.report h
    rw [stagePipelineReports, Program.read_bind]
    dsimp only
    cases h : (debugStaged s.files).isFile reportJson with
    | false =>
        rw [reportStaged, h]
        rfl
    | true =>
        rw [if_pos rfl, Program.check_bind, hfree h, reportStaged, h]
        rfl
  have hzip : zipXDebug host { s with files := host.archive (reportStaged (debugStaged s.files)) } =
      (.ok (), { s with files := finishedFiles host s.files }) := by
    have hfree : (host.archive (reportStaged (debugStaged s.files))).isDir xDebugZip = false := by
      rw [FileTree.isDir_congr (archived_of_apart hpacks hdir (by decide) (by decide) (by decide)),
        FileTree.isDir_congr (debugStaged_of_apart (by decide) (by decide))]
      exact hclear.zip
    rw [zipXDebug, Program.read_bind]
    dsimp only
    cases h : (host.archive (reportStaged (debugStaged s.files))).isDir xDebugStaging with
    | false =>
        rw [finishedFiles, debugZipped, h]
        rfl
    | true =>
        rw [if_pos rfl, Program.check_bind, hfree, finishedFiles, debugZipped, h]
        rfl
  rw [finish, Program.bind_ok hdebug, Program.bind_ok hreport, archiveOnce, Program.update_bind,
    Program.bind_ok hzip]

end Finish

end JobEntrypoint

/-! ### What the operator stores -/

namespace JobServer
open Api (OperatorState StoredObject)
open JobEntrypoint (partsOf formFile)

/-- The parts that are not empty. -/
def nonEmpty (uploads : Uploads) : Uploads where
  state := uploads.state.filter fun content => !content.isEmpty
  log := uploads.log.filter fun content => !content.isEmpty
  xDebug := uploads.xDebug.filter fun content => !content.isEmpty
  report := uploads.report.filter fun content => !content.isEmpty

theorem part_nonEmpty (uploads : Uploads) (kind : ArtifactKind) :
    part (nonEmpty uploads) kind = (part uploads kind).filter fun content => !content.isEmpty := by
  cases kind <;> rfl

/-- The fields of the form are told apart by their names. -/
theorem uploadsOf_partsOf (uploads : Uploads) :
    uploadsOf ((partsOf uploads).map formFile) = nonEmpty uploads := by
  obtain ⟨state, log, xDebug, report⟩ := uploads
  cases state <;> cases log <;> cases xDebug <;> cases report <;> rfl

theorem plain_partsOf (uploads : Uploads) : ∀ part ∈ partsOf uploads, (formFile part).Plain := by
  intro part hpart
  simp only [partsOf, List.mem_filterMap, List.mem_cons, List.not_mem_nil, or_false, Option.map_eq_some_iff]
    at hpart
  obtain ⟨entry, hentry, content, -, rfl⟩ := hpart
  rcases hentry with rfl | rfl | rfl | rfl <;> constructor <;> simp only [formFile] <;> decide

variable {runId : Uuid} {uploads : Uploads} {outage : Api.Outage}

theorem artifactKey_injective {kind kind' : ArtifactKind}
    (h : artifactKey runId kind = artifactKey runId kind') : kind = kind' := by
  rw [artifactKey, artifactKey, List.append_cancel_left_eq, List.cons_inj_right] at h
  cases kind <;> cases kind' <;> first | rfl | exact absurd h (by decide)

/-- The objects of a run after its parts have been put. -/
structure Put (runId : Uuid) (uploads : Uploads) (kinds : List ArtifactKind)
    (before after : Table Text StoredObject) : Prop where
  stored : ∀ kind ∈ kinds, ∀ data, part uploads kind = some data →
    after.lookup (artifactKey runId kind) = some (storedArtifact kind data)
  others : ∀ key, (∀ kind ∈ kinds, part uploads kind ≠ none → key ≠ artifactKey runId kind) →
    after.lookup key = before.lookup key

theorem putParts_spec (houtage : ∀ kind, outage.object (artifactKey runId kind) = false)
    (kinds : List ArtifactKind) (s : OperatorState) :
    ∃ objects, putParts outage runId uploads kinds s = (true, { s with objects }) ∧
      Put runId uploads kinds s.objects objects := by
  induction kinds generalizing s with
  | nil => exact ⟨s.objects, rfl, fun _ hkind => absurd hkind List.not_mem_nil, fun _ _ => rfl⟩
  | cons first kinds ih =>
      cases hpart : part uploads first with
      | none =>
          obtain ⟨objects, hput, hparts, hother⟩ := ih s
          refine ⟨objects, by rw [putParts, hpart]; exact hput, fun kind hkind data hdata => ?_, ?_⟩
          · rcases List.mem_cons.mp hkind with rfl | hkind
            · exact absurd (hpart.symm.trans hdata) nofun
            · exact hparts kind hkind data hdata
          · exact fun key hkey => hother key fun kind hkind => hkey kind (List.mem_cons_of_mem _ hkind)
      | some content =>
          obtain ⟨objects, hput, hparts, hother⟩ := ih (putArtifact runId first content s)
          refine ⟨objects, ?_, fun kind hkind data hdata => ?_, fun key hkey => ?_⟩
          · rw [putParts, hpart]
            dsimp only
            rw [houtage, if_neg Bool.false_ne_true]
            exact hput
          · by_cases hlater : kind ∈ kinds
            · exact hparts kind hlater data hdata
            · obtain rfl : kind = first := (List.mem_cons.mp hkind).resolve_right hlater
              obtain rfl := Option.some.inj (hpart.symm.trans hdata)
              rw [hother _ fun later hmem _ heq => hlater (by rw [artifactKey_injective heq]; exact hmem)]
              exact AList.lookup_insert _
          · rw [hother key fun kind hkind => hkey kind (List.mem_cons_of_mem _ hkind)]
            refine AList.lookup_insert_ne (hkey first List.mem_cons_self ?_)
            rw [hpart]
            exact nofun

/-- The parser of forms reads a form whose boundary occurs in none of its files. -/
def ReadsForms (operator : Operator) : Prop :=
  ∀ (boundary : Text) (files : List FormFile), 13 ∉ utf8 boundary → (∀ file ∈ files, file.Plain) →
    (∀ file ∈ files, ¬utf8 boundary <:+: file.content) →
      operator.readForm (JobEntrypoint.multipartType boundary)
        (encapsulate (utf8 boundary) (files.map FormFile.part)) = some files

/-- The operator can take the upload of a run: its row is there, and neither the database nor the storage
fails. -/
structure Takes (moment : Moment) (s : OperatorState) (runId : Uuid) (row : Run) : Prop where
  row : s.runs.lookup runId = some row
  database : moment.outage.database = false
  storage : ∀ kind, moment.outage.object (artifactKey runId kind) = false
  commit : moment.commitFails = false

/-- What an upload leaves in the database and in the storage. -/
structure Stored (operator : Operator) (moment : Moment) (runId : Uuid) (row : Run) (uploads : Uploads)
    (before after : OperatorState) : Prop where
  row : after.runs.lookup runId =
    some (RunService.uploadArtifacts operator.parsers moment.now runId uploads row)
  runs : ∀ other, other ≠ runId → after.runs.lookup other = before.runs.lookup other
  objects : Put runId uploads allKinds before.objects after.objects

theorem uploadArtifacts_ok {operator : Operator} {moment : Moment} {s : OperatorState} {row : Run}
    (htakes : Takes moment s runId row) {form : List FormFile}
    (hsome : (allKinds.filterMap (part (uploadsOf form))).isEmpty = false) :
    ∃ s', uploadArtifacts operator moment runId form s =
        (uploadResponse runId (RunService.uploadArtifacts operator.parsers moment.now runId (uploadsOf form) row),
          s') ∧
      Stored operator moment runId row (uploadsOf form) s s' := by
  obtain ⟨objects, hput, hobjects⟩ := @putParts_spec runId (uploadsOf form) _ htakes.storage allKinds s
  let uploaded := RunService.uploadArtifacts operator.parsers moment.now runId (uploadsOf form) row
  refine ⟨{ s with objects, runs := s.runs.insert runId uploaded }, ?_, AList.lookup_insert _,
    fun other hother => AList.lookup_insert_ne hother, hobjects⟩
  unfold uploadArtifacts
  dsimp only
  rw [hsome, if_neg Bool.false_ne_true, htakes.database, if_neg Bool.false_ne_true, htakes.row]
  dsimp only
  rw [hput]
  dsimp only
  rw [htakes.commit, if_neg Bool.false_ne_true]

theorem receiveUpload_of_form {operator : Operator} {moment : Moment} {s : OperatorState}
    {request : JobEntrypoint.Request} {form : List FormFile}
    (h : operator.readForm (request.contentType.getD []) (request.data.getD []) = some form) :
    receiveUpload operator moment request runId s = uploadArtifacts operator moment runId form s := by
  rw [receiveUpload, h]

end JobServer

namespace JobEntrypoint
open JobServer
open Api (OperatorState)

variable {host : Host} {operator : Operator} {states : Nat → OperatorState} {moments : Nat → Moment}
  {id : Uuid} {run : Run} {profile : Profile} {minted : Int} {s : State} {payload : RunInputPayload}
  {pack : FileTree → Octets} {files : FileTree}

/-- What PDE has left can be handed over: the pipeline directory is there, nothing is in the way, its zip
is not empty, and the boundary of the form occurs in none of the files. -/
structure HandsOver (host : Host) (pack : FileTree → Octets) (files : FileTree) : Prop where
  packs : Packs host pack
  dir : files.isDir pipelineDir = true
  clear : Clear files
  zip : pack (leftTree files) ≠ []
  boundary : 13 ∉ utf8 host.boundary
  apart : ∀ part ∈ partsOf (handedOver host pack files), ¬utf8 host.boundary <:+: part.2.2

/-- The state is always among what is handed over. -/
theorem part_handedOver (hhands : HandsOver host pack files) :
    part (nonEmpty (handedOver host pack files)) .state = some (pack (leftTree files)) := by
  have hfull : (!(pack (leftTree files)).isEmpty) = true := by simpa using hhands.zip
  rw [part_nonEmpty]
  exact Option.filter_eq_some_iff.mpr ⟨rfl, hfull⟩

/-- Once PDE has ended, the upload reaches the operator, which stores what the Job hands over. -/
theorem finish_delivers (hhands : HandsOver host pack s.files) (hforms : ReadsForms operator)
    (hconnected : Connected host operator states moments) (hdeployed : Deployed operator id run minted)
    (hintime : InTime operator minted (moments s.requests.length))
    (hurl : s.environ.lookup JobService.artifactsUrlVar = some (JobService.artifactsUrl operator.settings id))
    (htoken : s.environ.lookup JobService.tokenVar =
      some (JobService.jobToken operator.jobs operator.settings id run minted)) {row : Run}
    (htakes : Takes (moments s.requests.length) (states s.requests.length) id row) :
    ∃ request s', finish host s = (.ok (), s') ∧ s'.requests = s.requests ++ [request] ∧
      Stored operator (moments s.requests.length) id row (nonEmpty (handedOver host pack s.files))
        (states s.requests.length)
        (serve operator (moments s.requests.length) request (states s.requests.length)).2 := by
  let n := s.requests.length
  let uploads := handedOver host pack s.files
  let request := requestOf s.environ (runUrl operator.settings id .upload) "POST".toList
    (some (multipartBody host.boundary (partsOf uploads))) (some (multipartType host.boundary))
  have hrequest : FromJob operator id run minted id .upload request := fromJob_requestOf htoken
  have hform : operator.readForm (multipartType host.boundary)
      (multipartBody host.boundary (partsOf uploads)) = some ((partsOf uploads).map formFile) := by
    have hplain : ∀ file ∈ (partsOf uploads).map formFile, file.Plain := by
      intro file hfile
      obtain ⟨part, hpart, rfl⟩ := List.mem_map.mp hfile
      exact plain_partsOf uploads part hpart
    have hapart : ∀ file ∈ (partsOf uploads).map formFile, ¬utf8 host.boundary <:+: file.content := by
      intro file hfile
      obtain ⟨part, hpart, rfl⟩ := List.mem_map.mp hfile
      exact hhands.apart part hpart
    have hread := hforms host.boundary _ hhands.boundary hplain hapart
    rw [List.map_map] at hread
    rw [multipartBody_eq]
    exact hread
  have hsome : (allKinds.filterMap (part (uploadsOf ((partsOf uploads).map formFile)))).isEmpty = false := by
    have hstate : part (nonEmpty uploads) .state = some (pack (leftTree s.files)) := part_handedOver hhands
    rw [uploadsOf_partsOf, allKinds, List.filterMap_cons, hstate]
    rfl
  obtain ⟨after, hupload, hstored⟩ := @uploadArtifacts_ok id operator (moments n) (states n) row htakes _ hsome
  rw [uploadsOf_partsOf] at hupload hstored
  let answer := uploadResponse id
    (RunService.uploadArtifacts operator.parsers (moments n).now id (nonEmpty uploads) row)
  have hserve : serve operator (moments n) request (states n) = (answer, after) := by
    rw [serve_upload hdeployed hintime hrequest, receiveUpload_of_form hform]
    exact hupload
  have hanswer := hconnected.answer n request (by rw [hserve]; rfl)
  have hparts : uploadParts (finishedFiles host s.files) = partsOf uploads :=
    uploadParts_finishedFiles hhands.packs hhands.dir
  refine ⟨request, { s with files := finishedFiles host s.files, requests := s.requests ++ [request] },
    ?_, rfl, hserve ▸ hstored⟩
  rw [finish_eq hhands.packs hhands.dir hhands.clear]
  have hurlOf : urlOf s.environ JobService.artifactsUrlVar = some (runUrl operator.settings id .upload) :=
    urlOf_eq hurl (runUrl_ne_nil _ _ _)
  have hne : (partsOf uploads).isEmpty = false := rfl
  have hsent : operatorRequest host (runUrl operator.settings id .upload) "POST".toList
      (some (multipartBody host.boundary (partsOf uploads))) (some (multipartType host.boundary))
      { s with files := finishedFiles host s.files } =
      (.ok (operator.render answer.body),
        { s with files := finishedFiles host s.files, requests := s.requests ++ [request] }) := by
    rw [hserve] at hanswer
    exact operatorRequest_ok hanswer
  have hdone : JobEntrypoint.uploadArtifacts host { s with files := finishedFiles host s.files } =
      (.ok 0, { s with files := finishedFiles host s.files, requests := s.requests ++ [request] }) := by
    unfold JobEntrypoint.uploadArtifacts
    dsimp only
    rw [hurlOf]
    dsimp only
    rw [hparts, hne, if_neg Bool.false_ne_true, hsent]
  rw [Program.bind_ok hdone]
  rfl

end JobEntrypoint
end PdeOperator
