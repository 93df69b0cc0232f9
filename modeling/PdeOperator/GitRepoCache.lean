import PdeOperator.BaseMarked
import PdeOperator.BaseText

/-! `GitRepoCache.ensure_checkout` (`providers/git_provider.py`): a shallow clone for each url and ref, taken
anew when the sha that the remote lists for the ref has changed. -/

namespace PdeOperator
open Base Text

namespace GitCache

def isHexDigit (c : Char) : Bool := c.isDigit || ('a' ≤ c && c ≤ 'f')

/-- The id of an object. -/
structure Sha where
  text : Text
  ne_nil : text ≠ []
  hex : text.all isHexDigit = true
  deriving DecidableEq

theorem Sha.ext {sha sha' : Sha} (h : sha.text = sha'.text) : sha = sha' := by
  obtain ⟨text, _, _⟩ := sha
  obtain ⟨text', _, _⟩ := sha'
  cases h
  rfl

/-- The refs of a remote by their full paths, in the order of their names. -/
structure Remote where
  refs : List (Text × Sha)
  sorted : refs.Pairwise fun ref ref' => ref.1 < ref'.1

/-- Paths and contents of the files below a directory, without `.git`. -/
abbrev Files := List (Text × Text)

def isDirectory (files : Files) (name : Text) : Bool := files.any fun file => (name ++ ['/']).isPrefixOf file.1

def isFile (files : Files) (name : Text) : Bool := (files.lookup name).isSome && !isDirectory files name

def writeText (files : Files) (name content : Text) : Files :=
  (name, content) :: files.filter fun file => file.1 ≠ name

/-- A path that ends with the pattern at a slash. -/
def endsAt (pattern path : Text) : Bool := path = pattern || ('/' :: pattern).isSuffixOf path

/-- The line of a ref in the output of `git ls-remote`. -/
def refLine (ref : Text × Sha) : Text := ref.2.text ++ '\t' :: ref.1

/-- The output of `git ls-remote` with a pattern. -/
def Remote.lsRemote (remote : Remote) (pattern : Text) : Text :=
  joinLines ((remote.refs.filter fun ref => endsAt pattern ref.1).map refLine)

def branchPath (ref : Text) : Text := "refs/heads/".toList ++ ref

def tagPath (ref : Text) : Text := "refs/tags/".toList ++ ref

/-- The commit that `git clone --branch` takes: the branch of that name, then the tag. -/
def Remote.branchOrTag (remote : Remote) (ref : Text) : Option Sha :=
  (remote.refs.lookup (branchPath ref)).or (remote.refs.lookup (tagPath ref))

/-- What goes wrong between the operator and the remote during a call. -/
structure Network where
  lsRemoteFails : Text → Bool := fun _ => false
  cloneFails : Bool := false

/-- The first column of the first line. -/
def firstColumn (output : Text) : Text := strip (partition '\t' ((splitlines output).headD [])).1

/-- `none` is an error. -/
def shaOfCandidates (remote : Remote) (network : Network) : List Text → Option Text
  | [] => none
  | candidate :: candidates =>
      if network.lsRemoteFails candidate then none
      else
        let output := strip (remote.lsRemote candidate)
        if output = [] then shaOfCandidates remote network candidates
        else if firstColumn output ≠ [] then some (firstColumn output)
        else shaOfCandidates remote network candidates

def remoteSha (remote : Remote) (network : Network) (ref : Text) : Option Text :=
  shaOfCandidates remote network [ref, branchPath ref, tagPath ref]

/-! ### `ensure_checkout` -/

def marker : Text := ".pde-operator-commit".toList

/-- The stripped content of the marker. -/
def markerText (dir : Files) : Option Text :=
  if isFile dir marker then (dir.lookup marker).map strip else none

section Model

variable (sha256 : Text → Text) (treeOf : Sha → Files)

/-- The key of the lock and the name of the directory. -/
def cacheKey (url ref : Text) : Text := (sha256 (url ++ Char.ofNat 0 :: ref)).take 24

/-- The files of a fresh clone. -/
def freshClone (remote : Remote) (ref : Text) : Option Files := (remote.branchOrTag ref).map treeOf

/-- The clone into an empty place: the directory after it, and the directory that is returned. -/
def cloneAnew (remote : Remote) (network : Network) (ref sha : Text) : Option Files × Option Files :=
  match if network.cloneFails then none else freshClone treeOf remote ref with
  | none => (none, none)
  | some files =>
      -- writing the marker over a directory of the clone raises
      if isDirectory files marker then (some files, none)
      else (some (writeText files marker sha), some (writeText files marker sha))

/-- The directory after the call, and the directory that it returns. -/
def ensureCheckout (remote : Remote) (network : Network) (ref : Text) (dir : Option Files) :
    Option Files × Option Files :=
  match remoteSha remote network ref with
  | none => (dir, none)
  | some sha => if dir.bind markerText = some sha then (dir, dir) else cloneAnew treeOf remote network ref sha

inductive Event where
  | update (url : Text) (remote : Remote)
  | call (url ref : Text) (network : Network)

structure Call where
  url : Text
  ref : Text
  remote : Remote
  result : Option Files

/-- The calls of a run, each with the remote that it sees. -/
def calls : (Text → Remote) → (Text → Option Files) → List Event → List Call
  | _, _, [] => []
  | remotes, cache, .update url remote :: events =>
      calls (Function.update remotes url remote) cache events
  | remotes, cache, .call url ref network :: events =>
      let key := cacheKey sha256 url ref
      let after := ensureCheckout treeOf (remotes url) network ref (cache key)
      { url, ref, remote := remotes url, result := after.2 } ::
        calls remotes (Function.update cache key after.1) events

end Model

/-- The directory has the files of the clone. The marker is the only file that may be added. -/
def Holds (dir files : Files) : Prop :=
  ∀ path, path ≠ marker ∨ files.lookup path ≠ none → dir.lookup path = files.lookup path

/-- The first ref, in the order of the names, whose path ends with the ref at a slash. -/
def Remote.firstListed (remote : Remote) (ref : Text) : Option Sha :=
  (remote.refs.find? fun listed => endsAt ref listed.1).map Prod.snd

theorem isSpace_of_isHexDigit {c : Char} (h : isHexDigit c = true) : isSpace c = false := by
  have hrange : 48 ≤ c.toNat ∧ c.toNat ≤ 102 := by
    simp only [isHexDigit, Char.isDigit, Bool.or_eq_true, Bool.and_eq_true, decide_eq_true_eq] at h
    rcases h with h | h
    · exact ⟨h.1, Nat.le_trans h.2 (by decide)⟩
    · exact ⟨Nat.le_trans (by decide) h.1, h.2⟩
  simp only [isSpace, Bool.or_eq_false_iff, Bool.and_eq_false_iff, decide_eq_false_iff_not,
    beq_eq_false_iff_ne]
  omega

theorem isLineBreak_of_isSpace {c : Char} (h : isSpace c = false) : isLineBreak c = false := by
  simp only [isSpace, isLineBreak, Bool.or_eq_false_iff, Bool.and_eq_false_iff, decide_eq_false_iff_not,
    beq_eq_false_iff_ne] at h ⊢
  omega

theorem Sha.isSpace_of_mem (sha : Sha) : ∀ c ∈ sha.text, isSpace c = false := fun c hc =>
  isSpace_of_isHexDigit (List.all_eq_true.mp sha.hex c hc)

theorem Sha.isLine (sha : Sha) : IsLine sha.text := fun c hc => isLineBreak_of_isSpace (sha.isSpace_of_mem c hc)

theorem Sha.tab_notMem (sha : Sha) : '\t' ∉ sha.text := fun htab =>
  absurd (sha.isSpace_of_mem '\t' htab) (by decide)

theorem Sha.strip_append (sha : Sha) (rest : Text) :
    strip (sha.text ++ rest) = sha.text ++ rest.rdropWhile isSpace :=
  trimBy_append_of_forall_not sha.ne_nil sha.isSpace_of_mem rest

theorem Sha.strip_text (sha : Sha) : strip sha.text = sha.text := by
  have h := sha.strip_append []
  rwa [List.append_nil, List.rdropWhile_nil, List.append_nil] at h

/-- A line goes on until the first boundary behind it. -/
theorem headD_splitlines_append {line : Text} (hline : IsLine line) (rest : Text) :
    (splitlines (line ++ rest)).headD [] = line ++ (splitlines rest).headD [] := by
  rw [splitlines, splitlines, hline.joinCrLf_append]
  induction line with
  | nil => rfl
  | cons c line ih =>
      have hc : isLineBreak c = false := hline c List.mem_cons_self
      rw [List.cons_append, List.cons_append, ← ih fun d hd => hline d (List.mem_cons_of_mem _ hd), breakLines,
        if_neg (by simp [hc])]
      cases breakLines (line ++ joinCrLf rest) <;> rfl

theorem Sha.firstColumn_append_tab (sha : Sha) (rest : Text) :
    firstColumn (strip (sha.text ++ '\t' :: rest)) = sha.text := by
  rw [sha.strip_append, firstColumn]
  have hprefix := List.rdropWhile_prefix isSpace ('\t' :: rest)
  cases htail : ('\t' :: rest).rdropWhile isSpace with
  | nil =>
      rw [headD_splitlines_append sha.isLine]
      show strip (partition '\t' (sha.text ++ [])).1 = sha.text
      rw [List.append_nil, partition_of_absent sha.tab_notMem, sha.strip_text]
  | cons c tail =>
      rw [htail, List.cons_prefix_cons] at hprefix
      obtain ⟨rfl, -⟩ := hprefix
      have htab : IsLine (sha.text ++ ['\t']) := isLine_append.mpr ⟨sha.isLine, by decide⟩
      rw [List.append_cons, headD_splitlines_append htab, List.append_assoc, List.singleton_append,
        partition_of_notMem sha.tab_notMem, sha.strip_text]

section Listed

variable {remote : Remote} {network : Network} {ref pattern path : Text}

theorem endsAt_iff : endsAt pattern path = true ↔ path = pattern ∨ '/' :: pattern <:+ path := by
  rw [endsAt, Bool.or_eq_true, decide_eq_true_eq, List.isSuffixOf_iff_suffix]

/-- A longer pattern lists no more. -/
theorem endsAt_of_append {front : Text} (h : endsAt (front ++ '/' :: ref) path = true) :
    endsAt ref path = true := by
  have hsuffix : '/' :: ref <:+ front ++ '/' :: ref := List.suffix_append _ _
  rw [endsAt_iff] at h ⊢
  rcases h with rfl | h
  · exact Or.inr hsuffix
  · exact Or.inr ((hsuffix.trans (List.suffix_cons _ _)).trans h)

theorem firstListed_eq_none_of_append (front : Text) (h : remote.firstListed ref = none) :
    remote.firstListed (front ++ '/' :: ref) = none := by
  rw [Remote.firstListed, Option.map_eq_none_iff, List.find?_eq_none] at h ⊢
  exact fun listed hlisted hends => h listed hlisted (endsAt_of_append hends)

/-- The output begins with the sha of the first ref. -/
theorem exists_joinLines_refLine (listed : Text × Sha) (lines : List Text) :
    ∃ rest, joinLines (refLine listed :: lines) = listed.2.text ++ '\t' :: rest := by
  cases lines with
  | nil => exact ⟨listed.1, joinLines_singleton _⟩
  | cons line lines =>
      refine ⟨listed.1 ++ '\n' :: joinLines (line :: lines), ?_⟩
      rw [joinLines_cons_cons, refLine, List.append_assoc, List.cons_append]

theorem shaOfCandidates_cons (candidate : Text) (candidates : List Text) :
    shaOfCandidates remote network (candidate :: candidates) =
      if network.lsRemoteFails candidate then none
      else match remote.firstListed candidate with
        | some sha => some sha.text
        | none => shaOfCandidates remote network candidates := by
  rw [shaOfCandidates, Remote.firstListed, ← List.head?_filter, Remote.lsRemote]
  split
  · rfl
  · cases remote.refs.filter fun ref => endsAt candidate ref.1 with
    | nil => rfl
    | cons listed refs =>
        obtain ⟨rest, hrest⟩ := exists_joinLines_refLine listed (refs.map refLine)
        have hcolumn : firstColumn (strip (joinLines (refLine listed :: refs.map refLine))) =
            listed.2.text := by
          rw [hrest]
          exact listed.2.firstColumn_append_tab rest
        have hne : strip (joinLines (refLine listed :: refs.map refLine)) ≠ [] := by
          rw [hrest, listed.2.strip_append]
          exact List.append_ne_nil_of_left_ne_nil listed.2.ne_nil _
        show (if strip (joinLines (refLine listed :: refs.map refLine)) = [] then _
          else if firstColumn (strip (joinLines (refLine listed :: refs.map refLine))) ≠ [] then
            some (firstColumn (strip (joinLines (refLine listed :: refs.map refLine)))) else _) = _
        rw [if_neg hne, hcolumn, if_pos listed.2.ne_nil]
        rfl

theorem shaOfCandidates_eq_none {candidates : List Text}
    (h : ∀ candidate ∈ candidates, remote.firstListed candidate = none) :
    shaOfCandidates remote network candidates = none := by
  induction candidates with
  | nil => rfl
  | cons candidate candidates ih =>
      obtain ⟨hnone, hrest⟩ := List.forall_mem_cons.mp h
      rw [shaOfCandidates_cons, hnone]
      show (if network.lsRemoteFails candidate then none else shaOfCandidates remote network candidates) = none
      rw [ih hrest, ite_self]

/-- The candidates behind the bare ref find nothing that it does not. -/
theorem remoteSha_eq (remote : Remote) (network : Network) (ref : Text) :
    remoteSha remote network ref =
      if network.lsRemoteFails ref then none else (remote.firstListed ref).map Sha.text := by
  rw [remoteSha, shaOfCandidates_cons]
  cases hfirst : remote.firstListed ref with
  | some sha => rfl
  | none =>
      have hbranch : remote.firstListed (branchPath ref) = none :=
        firstListed_eq_none_of_append "refs/heads".toList hfirst
      have htag : remote.firstListed (tagPath ref) = none :=
        firstListed_eq_none_of_append "refs/tags".toList hfirst
      show (if network.lsRemoteFails ref then none
        else shaOfCandidates remote network [branchPath ref, tagPath ref]) = _
      rw [shaOfCandidates_eq_none (List.forall_mem_cons.mpr ⟨hbranch, List.forall_mem_singleton.mpr htag⟩)]
      rfl

theorem remoteSha_eq_some_iff {sha : Text} : remoteSha remote network ref = some sha ↔
    network.lsRemoteFails ref = false ∧ ∃ listed, remote.firstListed ref = some listed ∧ listed.text = sha := by
  rw [remoteSha_eq]
  cases network.lsRemoteFails ref <;> simp [Option.map_eq_some_iff]

theorem strip_of_remoteSha {sha : Text} (h : remoteSha remote network ref = some sha) : strip sha = sha := by
  obtain ⟨-, listed, -, rfl⟩ := remoteSha_eq_some_iff.mp h
  exact listed.strip_text

end Listed

section FileLemmas

variable {files files' : Files} {name content : Text}

theorem lookup_writeText_self (files : Files) (name content : Text) :
    (writeText files name content).lookup name = some content := List.lookup_cons_self

theorem lookup_writeText_of_ne {path : Text} (h : path ≠ name) :
    (writeText files name content).lookup path = files.lookup path := by
  rw [writeText, List.lookup_cons, beq_eq_false_iff_ne.mpr h]
  show (files.filter _).lookup path = _
  induction files with
  | nil => rfl
  | cons file files ih =>
      by_cases hfile : file.1 = name
      · rw [List.filter_cons_of_neg (by simpa using hfile), ih, List.lookup_cons,
          beq_eq_false_iff_ne.mpr (by rw [hfile]; exact h)]
      · rw [List.filter_cons_of_pos (by simpa using hfile), List.lookup_cons, List.lookup_cons, ih]

theorem isDirectory_writeText (h : isDirectory files name = false) :
    isDirectory (writeText files name content) name = false := by
  rw [isDirectory, List.any_eq_false] at h ⊢
  intro file hfile
  rcases List.mem_cons.mp hfile with rfl | hfile
  · intro hprefix
    have hlength := (List.isPrefixOf_iff_prefix.mp hprefix).length_le
    rw [List.length_append] at hlength
    exact absurd hlength (by simp)
  · exact h file (List.mem_of_mem_filter hfile)

theorem markerText_of_isDirectory (h : isDirectory files marker = true) : markerText files = none := by
  have hfile : isFile files marker = false := by simp [isFile, h]
  rw [markerText, hfile]
  rfl

theorem markerText_writeText (h : isDirectory files marker = false) (hstrip : strip content = content) :
    markerText (writeText files marker content) = some content := by
  have hfile : isFile (writeText files marker content) marker = true := by
    simp [isFile, lookup_writeText_self, isDirectory_writeText h]
  rw [markerText, if_pos hfile, lookup_writeText_self, Option.map_some, hstrip]

/-- A clone with the marker in it holds other files where they agree off the marker, and where a marker of
theirs has the same content. -/
theorem holds_writeText_iff : Holds (writeText files' marker content) files ↔
    (∀ path, path ≠ marker → files.lookup path = files'.lookup path) ∧
      ∀ tracked, files.lookup marker = some tracked → tracked = content := by
  constructor
  · intro h
    refine ⟨fun path hpath => ?_, fun tracked htracked => ?_⟩
    · rw [← h path (Or.inl hpath), lookup_writeText_of_ne hpath]
    · have hsame := h marker (Or.inr (by rw [htracked]; nofun))
      rw [lookup_writeText_self, htracked] at hsame
      exact (Option.some.inj hsame).symm
  · intro h path hpath
    obtain ⟨hfiles, htracked⟩ := h
    by_cases hmarker : path = marker
    · subst hmarker
      obtain ⟨tracked, hlookup⟩ := Option.ne_none_iff_exists'.mp (hpath.resolve_left fun h => h rfl)
      rw [lookup_writeText_self, hlookup, htracked tracked hlookup]
    · rw [lookup_writeText_of_ne hmarker, hfiles path hmarker]

end FileLemmas

/-! ### The cache as one of marked entries -/

section Refinement

variable (sha256 : Text → Text) (treeOf : Sha → Files)

/-- The entry of a url and a ref. The remote shows its sha as the mark, and a clone with the marker is what is
fetched. -/
def cloneCache : Marked Text (Text × Text) (Remote × Network) Text Files where
  key query := cacheKey sha256 query.1 query.2
  mark query seen := remoteSha seen.1 seen.2 query.2
  fetch query seen :=
    match if seen.2.cloneFails then none else freshClone treeOf seen.1 query.2 with
    | none => none
    | some files =>
        if isDirectory files marker then none
        else (remoteSha seen.1 seen.2 query.2).map (writeText files marker)

theorem fetch_cloneCache_eq_some_iff {remote : Remote} {network : Network} {url ref : Text} {dir : Files} :
    (cloneCache sha256 treeOf).fetch (url, ref) (remote, network) = some dir ↔
      network.cloneFails = false ∧ ∃ files sha, freshClone treeOf remote ref = some files ∧
        isDirectory files marker = false ∧ remoteSha remote network ref = some sha ∧
        writeText files marker sha = dir := by
  simp only [cloneCache]
  cases network.cloneFails with
  | true => simp
  | false =>
      cases freshClone treeOf remote ref with
      | none => simp
      | some files => cases hmarker : isDirectory files marker <;> simp [hmarker]

/-- A directory counts by its marker. -/
def entryOf (dir : Option Files) : Option (Text × Files) :=
  dir.bind fun files => (markerText files).map fun sha => (sha, files)

/-- What the calls of a run ask and see. -/
def reads : (Text → Remote) → List Event → List ((Text × Text) × (Remote × Network))
  | _, [] => []
  | remotes, .update url remote :: events => reads (Function.update remotes url remote) events
  | remotes, .call url ref network :: events => ((url, ref), (remotes url, network)) :: reads remotes events

variable {sha256 treeOf}

theorem entryOf_of_markerText {files : Files} {sha : Text} (h : markerText files = some sha) :
    entryOf (some files) = some (sha, files) := by
  show (markerText files).map _ = _
  rw [h, Option.map_some]

variable {remote : Remote} {network : Network} {ref sha : Text}

/-- What a clone returns is what a fetch gives. -/
theorem cloneAnew_snd (url : Text) (hsha : remoteSha remote network ref = some sha) :
    (cloneAnew treeOf remote network ref sha).2 =
      (cloneCache sha256 treeOf).fetch (url, ref) (remote, network) := by
  simp only [cloneAnew, cloneCache, hsha, Option.map_some]
  split
  · rfl
  · split <;> rfl

/-- The directory counts after a clone exactly if it is returned. -/
theorem entryOf_cloneAnew (hsha : remoteSha remote network ref = some sha) :
    entryOf (cloneAnew treeOf remote network ref sha).1 =
      (cloneAnew treeOf remote network ref sha).2.map fun files => (sha, files) := by
  rw [cloneAnew]
  split
  · rfl
  · next files _ =>
    split
    · next hmarker =>
      show (markerText files).map _ = none
      rw [markerText_of_isDirectory hmarker, Option.map_none]
    · next hmarker =>
      exact entryOf_of_markerText (markerText_writeText (Bool.eq_false_iff.mpr hmarker) (strip_of_remoteSha hsha))

/-- The step of a read whose entry does not carry the sha. -/
theorem refetch_cloneCache (cache : Text → Option Files) (url : Text)
    (hsha : remoteSha remote network ref = some sha) :
    (cloneCache sha256 treeOf).refetch (fun key => entryOf (cache key)) (url, ref) (remote, network) sha =
      (fun key => entryOf (Function.update cache (cacheKey sha256 url ref)
          (cloneAnew treeOf remote network ref sha).1 key), (cloneAnew treeOf remote network ref sha).2) := by
  have hupdate : ∀ dir, (fun key => entryOf (Function.update cache (cacheKey sha256 url ref) dir key)) =
      Function.update (fun key => entryOf (cache key)) (cacheKey sha256 url ref) (entryOf dir) :=
    fun dir => Function.comp_update entryOf cache _ dir
  rw [Marked.refetch, hupdate, entryOf_cloneAnew hsha, ← cloneAnew_snd url hsha]
  cases (cloneAnew treeOf remote network ref sha).2 <;> rfl

/-- A call is a read of the entry. -/
theorem read_cloneCache (cache : Text → Option Files) (url : Text) :
    (cloneCache sha256 treeOf).read (fun key => entryOf (cache key)) (url, ref) (remote, network) =
      (fun key => entryOf (Function.update cache (cacheKey sha256 url ref)
          (ensureCheckout treeOf remote network ref (cache (cacheKey sha256 url ref))).1 key),
        (ensureCheckout treeOf remote network ref (cache (cacheKey sha256 url ref))).2) := by
  cases hsha : remoteSha remote network ref with
  | none =>
      rw [Marked.read_of_none hsha, ensureCheckout, hsha, Function.update_eq_self]
  | some sha =>
      by_cases hmarker : (cache (cacheKey sha256 url ref)).bind markerText = some sha
      · obtain ⟨files, hfiles, htext⟩ := Option.bind_eq_some_iff.mp hmarker
        have hentry : entryOf (cache (cacheKey sha256 url ref)) = some (sha, files) := by
          rw [hfiles, entryOf_of_markerText htext]
        have hcall : ensureCheckout treeOf remote network ref (cache (cacheKey sha256 url ref)) =
            (cache (cacheKey sha256 url ref), some files) := by
          rw [ensureCheckout, hsha, ← hfiles]
          exact if_pos hmarker
        rw [Marked.read_of_marked hsha hentry, hcall, Function.update_eq_self]
      · have hentry : ∀ files, entryOf (cache (cacheKey sha256 url ref)) ≠ some (sha, files) := by
          intro files hfiles
          obtain ⟨dir, hdir, htext⟩ := Option.bind_eq_some_iff.mp hfiles
          obtain ⟨found, hfound, heq⟩ := Option.map_eq_some_iff.mp htext
          obtain ⟨rfl, -⟩ := Prod.mk.inj heq
          exact hmarker (Option.bind_eq_some_iff.mpr ⟨dir, hdir, hfound⟩)
        have hcall : ensureCheckout treeOf remote network ref (cache (cacheKey sha256 url ref)) =
            cloneAnew treeOf remote network ref sha := by
          rw [ensureCheckout, hsha]
          exact if_neg hmarker
        rw [Marked.read_of_forall_ne hsha hentry, hcall, refetch_cloneCache cache url hsha]

/-- A call with what it has seen and returned. -/
def callOf : (Text × Text) × (Remote × Network) × Option Files → Call
  | ((url, ref), (remote, _), result) => { url, ref, remote, result }

/-- The calls of a run are the reads of the entries. -/
theorem calls_eq (remotes : Text → Remote) (cache : Text → Option Files) (events : List Event) :
    calls sha256 treeOf remotes cache events =
      ((cloneCache sha256 treeOf).served (fun key => entryOf (cache key)) (reads remotes events)).map callOf := by
  induction events generalizing remotes cache with
  | nil => rfl
  | cons event events ih =>
      cases event with
      | update url remote => exact ih (Function.update remotes url remote) cache
      | call url ref network =>
          rw [calls, reads, Marked.served, read_cloneCache, List.map_cons, ih]
          rfl

/-- Every sequence of reads comes from a run that updates the remote before each call. -/
theorem exists_events (asked : List ((Text × Text) × (Remote × Network))) (remotes : Text → Remote) :
    ∃ events, reads remotes events = asked := by
  induction asked generalizing remotes with
  | nil => exact ⟨[], rfl⟩
  | cons read asked ih =>
      obtain ⟨⟨url, ref⟩, remote, network⟩ := read
      obtain ⟨events, hevents⟩ := ih (Function.update remotes url remote)
      refine ⟨.update url remote :: .call url ref network :: events, ?_⟩
      rw [reads, reads, hevents, Function.update_self]

end Refinement

section Fresh

variable (sha256 : Text → Text) (treeOf : Sha → Files)

/-- The directory holds what a fresh clone would give. -/
def Fresh (remote : Remote) (ref : Text) (dir : Files) : Prop :=
  ∃ files, freshClone treeOf remote ref = some files ∧ Holds dir files

/-- Different urls and refs of a run have different directories. -/
def KeysApart (calls : List Call) : Prop :=
  ∀ call ∈ calls, ∀ call' ∈ calls, cacheKey sha256 call.url call.ref = cacheKey sha256 call'.url call'.ref →
    call.url = call'.url ∧ call.ref = call'.ref

/-- Two remotes that list the same sha for a ref give the same clone: if the one can be cloned, so can the other,
with the same files but a marker, and with no marker in them but the one for that sha. -/
def SameClones (ref : Text) (remote remote' : Remote) : Prop :=
  ∀ sha, remote.firstListed ref = some sha → remote'.firstListed ref = some sha →
    ∀ files', freshClone treeOf remote' ref = some files' → isDirectory files' marker = false →
      ∃ files, freshClone treeOf remote ref = some files ∧
        (∀ path, path ≠ marker → files.lookup path = files'.lookup path) ∧
        ∀ tracked, files.lookup marker = some tracked → tracked = sha.text

variable {sha256 treeOf} {seen : Text → Set Remote}

/-- Remotes that list the branch or the tag itself first, with trees without a marker. -/
theorem sameClones_of_exact {ref : Text} {remote remote' : Remote}
    (hexact : remote.firstListed ref = remote.branchOrTag ref)
    (hexact' : remote'.firstListed ref = remote'.branchOrTag ref)
    (hmarker : ∀ sha, (treeOf sha).lookup marker = none) : SameClones treeOf ref remote remote' := by
  intro sha hsha hsha' files' hfiles' _
  have hclone : freshClone treeOf remote ref = some (treeOf sha) := by
    rw [freshClone, ← hexact, hsha, Option.map_some]
  have hsame : treeOf sha = files' := by
    rw [freshClone, ← hexact', hsha', Option.map_some] at hfiles'
    exact Option.some.inj hfiles'
  refine ⟨treeOf sha, hclone, fun path _ => by rw [hsame], fun tracked htracked => ?_⟩
  rw [hmarker sha] at htracked
  cases htracked

theorem steady_cloneCache_iff :
    (cloneCache sha256 treeOf).Steady (fun query => {r | r.1 ∈ seen query.1})
        (fun query r dir => Fresh treeOf r.1 query.2 dir) ↔
      ∀ url ref, ∀ remote ∈ seen url, ∀ remote' ∈ seen url, SameClones treeOf ref remote remote' := by
  constructor
  · intro h url ref remote hremote remote' hremote' sha hsha hsha' files' hfiles' hmarker
    have hmark : ∀ {remote : Remote}, remote.firstListed ref = some sha → remoteSha remote {} ref = some sha.text :=
      fun hlisted => remoteSha_eq_some_iff.mpr ⟨rfl, sha, hlisted, rfl⟩
    obtain ⟨files, hfiles, hholds⟩ := h (url, ref) (remote, {}) hremote (remote', {}) hremote' sha.text
      (hmark hsha) (hmark hsha') (writeText files' marker sha.text)
      ((fetch_cloneCache_eq_some_iff sha256 treeOf).mpr
        ⟨rfl, files', sha.text, hfiles', hmarker, hmark hsha', rfl⟩)
    exact ⟨files, hfiles, holds_writeText_iff.mp hholds⟩
  · rintro h ⟨url, ref⟩ ⟨remote, network⟩ hremote ⟨remote', network'⟩ hremote' text hmark hmark' dir hfetch
    obtain ⟨-, sha, hsha, rfl⟩ := remoteSha_eq_some_iff.mp hmark
    obtain ⟨-, sha', hsha', htext⟩ := remoteSha_eq_some_iff.mp hmark'
    obtain rfl : sha' = sha := Sha.ext htext
    obtain ⟨-, files', written, hfiles', hmarker, hwritten, rfl⟩ :=
      (fetch_cloneCache_eq_some_iff sha256 treeOf).mp hfetch
    obtain rfl : sha'.text = written := Option.some.inj (hmark'.symm.trans hwritten)
    obtain ⟨files, hfiles, hsame⟩ :=
      h url ref remote hremote remote' hremote' sha' hsha hsha' files' hfiles' hmarker
    exact ⟨files, hfiles, holds_writeText_iff.mpr hsame⟩

/-- The calls of all runs are right exactly if the reads of all runs are. -/
theorem forall_calls_iff_forall_served (right : Text → Text → Remote → Files → Prop) :
    (∀ remotes events, (∀ call ∈ calls sha256 treeOf remotes (fun _ => none) events, call.remote ∈ seen call.url) →
      KeysApart sha256 (calls sha256 treeOf remotes (fun _ => none) events) →
      ∀ call ∈ calls sha256 treeOf remotes (fun _ => none) events, ∀ dir, call.result = some dir →
        right call.url call.ref call.remote dir) ↔
      ∀ asked : List ((Text × Text) × (Remote × Network)), (∀ read ∈ asked, read.2.1 ∈ seen read.1.1) →
        (cloneCache sha256 treeOf).KeysApart asked → ∀ query r dir,
          (query, r, some dir) ∈ (cloneCache sha256 treeOf).served (fun _ => none) asked →
          right query.1 query.2 r.1 dir := by
  constructor
  · intro h asked hseen hapart query r dir hserved
    obtain ⟨events, rfl⟩ := exists_events asked fun _ => r.1
    have hcalls : calls sha256 treeOf (fun _ => r.1) (fun _ => none) events = _ := calls_eq _ _ events
    have hmem : ∀ call ∈ calls sha256 treeOf (fun _ => r.1) (fun _ => none) events,
        ∃ network, ((call.url, call.ref), (call.remote, network)) ∈ reads (fun _ => r.1) events := by
      intro call hcall
      rw [hcalls, List.mem_map] at hcall
      obtain ⟨⟨query, ⟨remote, network⟩, result⟩, hserved, rfl⟩ := hcall
      exact ⟨network, Marked.mem_of_mem_served _ hserved⟩
    refine h (fun _ => r.1) events (fun call hcall => ?_) (fun call hcall call' hcall' hkey => ?_)
      (callOf (query, r, some dir)) ?_ dir rfl
    · obtain ⟨network, hread⟩ := hmem call hcall
      exact hseen _ hread
    · obtain ⟨network, hread⟩ := hmem call hcall
      obtain ⟨network', hread'⟩ := hmem call' hcall'
      exact Prod.mk.inj (hapart _ hread _ hread' hkey)
    · rw [hcalls]
      exact List.mem_map_of_mem hserved
  · intro h remotes events hseen hapart call hcall dir hdir
    have hcalls : calls sha256 treeOf remotes (fun _ => none) events = _ := calls_eq _ _ events
    have hmem : ∀ {query r}, (query, r) ∈ reads remotes events →
        ∃ result, callOf (query, r, result) ∈ calls sha256 treeOf remotes (fun _ => none) events := by
      intro query r hread
      obtain ⟨result, hserved⟩ : ∃ result, (query, r, result) ∈ (cloneCache sha256 treeOf).served (fun _ => none) _ :=
        Marked.mem_served_of_mem _ hread
      rw [hcalls]
      exact ⟨result, List.mem_map_of_mem hserved⟩
    rw [hcalls, List.mem_map] at hcall
    obtain ⟨⟨query, r, result⟩, hserved, rfl⟩ := hcall
    obtain rfl : result = some dir := hdir
    refine h (reads remotes events) (fun read hread => ?_) (fun read hread read' hread' hkey => ?_)
      query r dir hserved
    · obtain ⟨result, hcall⟩ := hmem hread
      exact hseen _ hcall
    · obtain ⟨result, hcall⟩ := hmem hread
      obtain ⟨result', hcall'⟩ := hmem hread'
      obtain ⟨hurl, href⟩ := hapart _ hcall _ hcall' hkey
      exact Prod.ext hurl href

/-- The remotes that calls for a url may see: every successful call of every run returns what a fresh clone
would give, exactly if those that list the same sha for a ref give the same clone. -/
theorem ensureCheckout_fresh_iff (sha256 : Text → Text) (treeOf : Sha → Files) (seen : Text → Set Remote) :
    (∀ remotes events, (∀ call ∈ calls sha256 treeOf remotes (fun _ => none) events, call.remote ∈ seen call.url) →
      KeysApart sha256 (calls sha256 treeOf remotes (fun _ => none) events) →
      ∀ call ∈ calls sha256 treeOf remotes (fun _ => none) events, ∀ dir, call.result = some dir →
        Fresh treeOf call.remote call.ref dir) ↔
      ∀ url ref, ∀ remote ∈ seen url, ∀ remote' ∈ seen url, SameClones treeOf ref remote remote' := by
  rw [forall_calls_iff_forall_served fun _ ref remote dir => Fresh treeOf remote ref dir,
    ← steady_cloneCache_iff, ← Marked.served_right_iff]
  rfl

/-- A remote with a branch of the same last name as another, which is listed first. -/
def nestedRemote (tip : Sha) : Remote where
  refs := [("refs/heads/feature/main".toList, ⟨List.replicate 40 'a', by decide, by decide⟩),
    ("refs/heads/main".toList, tip)]
  sorted := List.pairwise_pair.mpr
    (by decide : "refs/heads/feature/main".toList < "refs/heads/main".toList)

/-- The branch `main` moves on, and the second call returns the files of its old tip. -/
theorem ensureCheckout_stale :
    ∃ sha256 treeOf old new call dir,
      sha256 ("https://git/options.git".toList ++ Char.ofNat 0 :: "main".toList) =
        "8f81d9eaf62d4eece842292997fb72711b73cdddf0cb84cc77ec0c4aaba6c005".toList ∧
      KeysApart sha256 (calls sha256 treeOf (fun _ => nestedRemote old) (fun _ => none)
        [.call "https://git/options.git".toList "main".toList {},
          .update "https://git/options.git".toList (nestedRemote new),
          .call "https://git/options.git".toList "main".toList {}]) ∧
      call ∈ calls sha256 treeOf (fun _ => nestedRemote old) (fun _ => none)
        [.call "https://git/options.git".toList "main".toList {},
          .update "https://git/options.git".toList (nestedRemote new),
          .call "https://git/options.git".toList "main".toList {}] ∧
      call.result = some dir ∧ ¬Fresh treeOf call.remote call.ref dir := by
  refine ⟨fun _ => _, fun sha => [("options.txt".toList, sha.text)],
    ⟨List.replicate 40 'b', by decide, by decide⟩, ⟨List.replicate 40 'c', by decide, by decide⟩, _,
    [(marker, List.replicate 40 'a'), ("options.txt".toList, List.replicate 40 'b')], rfl,
    ?_, List.mem_cons_of_mem _ List.mem_cons_self, by decide +kernel, ?_⟩
  · refine List.forall_mem_cons.mpr ⟨?_, List.forall_mem_singleton.mpr ?_⟩
    · exact List.forall_mem_cons.mpr ⟨fun _ => ⟨rfl, rfl⟩, List.forall_mem_singleton.mpr fun _ => ⟨rfl, rfl⟩⟩
    · exact List.forall_mem_cons.mpr ⟨fun _ => ⟨rfl, rfl⟩, List.forall_mem_singleton.mpr fun _ => ⟨rfl, rfl⟩⟩
  · intro h
    obtain ⟨files, hfiles, hholds⟩ := h
    obtain rfl := Option.some.inj hfiles
    have hsame := hholds "options.txt".toList (Or.inl (by decide))
    exact absurd hsame (by decide)

end Fresh

end GitCache
end PdeOperator
