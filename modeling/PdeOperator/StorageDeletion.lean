import Mathlib.Data.Char
import Mathlib.Data.List.Lex
import PdeOperator.BasePaging
import PdeOperator.BaseProgram
import PdeOperator.StorageOrphans

/-! The deletion of all objects under an id, page by page, against a storage whose calls raise or report
single keys that they could not delete, and the calls that delete a row after it. -/

namespace PdeOperator.Storage
open Base

/-- The storage during one deletion, with the n-th call of each kind. A call of `delete_objects` leaves
the keys that it `keeps`; when it returns, these are the `Errors` of its response. -/
structure Client where
  maxKeys : Nat
  maxKeys_pos : 0 < maxKeys
  listRaises : Nat → Bool
  deleteRaises : Nat → Bool
  keeps : Nat → Text → Bool

inductive ClientError where
  | listObjects | deleteObjects
  deriving DecidableEq

structure ListResponse where
  contents : List Text
  isTruncated : Bool
  nextContinuationToken : Option Text

instance (id : Uuid) : DecidablePred (Owns id) := fun _ => inferInstanceAs (Decidable (_ = true))

namespace Client

variable (client : Client) (id : Uuid)

/-- The keys under the id behind the token. -/
def found (continuation : Option Text) (bucket : Finset Text) : List Text :=
  Paging.listing (Owns id) continuation bucket

/-- `list_objects_v2`; the token of a truncated listing is its last key. -/
def listObjects (continuation : Option Text) (bucket : Finset Text) : ListResponse :=
  let found := found id continuation bucket
  let contents := found.take client.maxKeys
  if client.maxKeys < found.length then
    { contents, isTruncated := true, nextContinuationToken := contents.getLast? }
  else { contents, isTruncated := false, nextContinuationToken := none }

/-- What `delete_objects` leaves. -/
def deleteObjects (call : Nat) (keys : List Text) (bucket : Finset Text) : Finset Text :=
  bucket.filter fun key => key ∈ keys → client.keeps call key = true

variable {client id} {call : Nat} {keys : List Text} {bucket : Finset Text} {key : Text}
  {continuation : Option Text}

theorem mem_deleteObjects : key ∈ client.deleteObjects call keys bucket ↔
    key ∈ bucket ∧ (key ∈ keys → client.keeps call key = true) := by
  rw [deleteObjects, Finset.mem_filter]

theorem mem_deleteObjects_of_notMem (h : key ∉ keys) :
    key ∈ client.deleteObjects call keys bucket ↔ key ∈ bucket := by
  rw [mem_deleteObjects]
  exact and_iff_left fun hkey => absurd hkey h

@[simp] theorem contents_listObjects : (client.listObjects id continuation bucket).contents =
    (found id continuation bucket).take client.maxKeys := by
  unfold listObjects
  dsimp only
  split <;> rfl

theorem isTruncated_iff : (client.listObjects id continuation bucket).isTruncated = true ↔
    client.maxKeys < (found id continuation bucket).length := by
  unfold listObjects
  dsimp only
  split
  · next h => exact iff_of_true rfl h
  · next h => exact iff_of_false Bool.false_ne_true h

variable (call) in
/-- The next page starts where a truncated one ends, whatever has been deleted of it. -/
theorem found_next (h : (client.listObjects id continuation bucket).isTruncated = true) :
    found id (client.listObjects id continuation bucket).nextContinuationToken
        (client.deleteObjects call (client.listObjects id continuation bucket).contents bucket) =
      (found id continuation bucket).drop client.maxKeys := by
  have hlong := isTruncated_iff.mp h
  have hpage : (found id continuation bucket).take client.maxKeys ≠ [] := by
    rw [← List.length_pos_iff, List.length_take]
    have hpos := client.maxKeys_pos
    omega
  have htoken : (client.listObjects id continuation bucket).nextContinuationToken =
      some (((found id continuation bucket).take client.maxKeys).getLast hpage) := by
    rw [← List.getLast?_eq_some_getLast, listObjects]
    simp only [if_pos hlong]
  rw [htoken, contents_listObjects]
  exact Paging.listing_behind (List.getLast?_eq_some_getLast hpage) fun key hkey =>
    mem_deleteObjects_of_notMem hkey

end Client

/-! ### `ArtifactsService.delete_run_artifacts` -/

section Loop

variable (client : Client) (id : Uuid)

/-- The loop over the pages from the token on. -/
def deletePages (call : Nat) (continuation : Option Text) (deleted : Nat) (bucket : Finset Text) :
    Except ClientError Nat × Finset Text :=
  let response := client.listObjects id continuation bucket
  let bucket' := client.deleteObjects call response.contents bucket
  if client.listRaises call then (.error .listObjects, bucket)
  else if response.contents ≠ [] ∧ client.deleteRaises call then (.error .deleteObjects, bucket')
  else if _h : response.isTruncated = true then
    deletePages (call + 1) response.nextContinuationToken (deleted + response.contents.length) bucket'
  else (.ok (deleted + response.contents.length), bucket')
termination_by (Client.found id continuation bucket).length
decreasing_by
  rw [Client.found_next _ _h, List.length_drop]
  have hlong := Client.isTruncated_iff.mp _h
  have hpos := client.maxKeys_pos
  omega

def deleteRunArtifacts (bucket : Finset Text) : Except ClientError Nat × Finset Text :=
  deletePages client id 0 none 0 bucket

/-- The pages of the keys that were under the id before. -/
def listedPages (bucket : Finset Text) : List (List Text) :=
  Paging.pages client.maxKeys client.maxKeys_pos (Client.found id none bucket)

/-- The deletion of given pages. -/
def deleteListed : Nat → List (List Text) → Nat → Finset Text → Except ClientError Nat × Finset Text
  | _, [], deleted, bucket => (.ok deleted, bucket)
  | call, page :: rest, deleted, bucket =>
      if client.listRaises call then (.error .listObjects, bucket)
      else if page ≠ [] ∧ client.deleteRaises call then
        (.error .deleteObjects, client.deleteObjects call page bucket)
      else deleteListed (call + 1) rest (deleted + page.length) (client.deleteObjects call page bucket)

variable {client id} {call deleted : Nat} {continuation : Option Text} {bucket : Finset Text}

/-- Each page is what the first listing would have had in its place. -/
theorem deletePages_eq : deletePages client id call continuation deleted bucket =
    deleteListed client call
      (Paging.pages client.maxKeys client.maxKeys_pos (Client.found id continuation bucket))
      deleted bucket := by
  induction hlength : (Client.found id continuation bucket).length using Nat.strong_induction_on
    generalizing call continuation deleted bucket with
  | _ length ih =>
      subst hlength
      rw [deletePages, Client.contents_listObjects]
      by_cases hlong : client.maxKeys < (Client.found id continuation bucket).length
      · have htruncated := Client.isTruncated_iff.mpr hlong
        have hnext := Client.found_next call htruncated
        rw [Client.contents_listObjects] at hnext
        rw [Paging.pages_of_lt hlong, deleteListed, dif_pos htruncated, ih _ _ rfl, hnext]
        rw [hnext, List.length_drop]
        have hpos := client.maxKeys_pos
        omega
      · have htruncated := mt Client.isTruncated_iff.mp hlong
        have hshort := Nat.not_lt.mp hlong
        rw [Paging.pages_of_le hshort, deleteListed, dif_neg htruncated, List.take_of_length_le hshort]
        rfl

/-- A call for the page raises. -/
def Client.Raises (client : Client) (call : Nat) (page : List Text) : Prop :=
  client.listRaises call = true ∨ (page ≠ [] ∧ client.deleteRaises call = true)

variable {listed : List (List Text)} {page : List Text} {key : Text} {n i : Nat}

variable (client call deleted bucket listed page) in
/-- The call for the next page raises, or the loop goes on behind it. -/
theorem deleteListed_cons : (client.Raises call page ∧
      (∃ cause, (deleteListed client call (page :: listed) deleted bucket).1 = .error cause) ∧
      ∀ key, key ∉ page →
        (key ∈ (deleteListed client call (page :: listed) deleted bucket).2 ↔ key ∈ bucket)) ∨
    (¬client.Raises call page ∧ deleteListed client call (page :: listed) deleted bucket =
      deleteListed client (call + 1) listed (deleted + page.length)
        (client.deleteObjects call page bucket)) := by
  rw [deleteListed]
  split
  · next hlist => exact Or.inl ⟨Or.inl hlist, ⟨_, rfl⟩, fun _ _ => Iff.rfl⟩
  · next hlist =>
    split
    · next hdelete =>
      exact Or.inl ⟨Or.inr hdelete, ⟨_, rfl⟩, fun _ hkey => Client.mem_deleteObjects_of_notMem hkey⟩
    · next hdelete => exact Or.inr ⟨fun hraises => hraises.elim hlist hdelete, rfl⟩

theorem mem_deleteListed_of_notMem (hkey : ∀ page ∈ listed, key ∉ page) :
    key ∈ (deleteListed client call listed deleted bucket).2 ↔ key ∈ bucket := by
  induction listed generalizing call deleted bucket with
  | nil => rfl
  | cons page listed ih =>
      obtain ⟨hpage, hlisted⟩ := List.forall_mem_cons.mp hkey
      rcases deleteListed_cons client call deleted bucket listed page with ⟨-, -, hmem⟩ | ⟨-, heq⟩
      · exact hmem key hpage
      · rw [heq, ih hlisted, Client.mem_deleteObjects_of_notMem hpage]

variable (client call deleted bucket listed) in
theorem deleteListed_subset : (deleteListed client call listed deleted bucket).2 ⊆ bucket := by
  induction listed generalizing call deleted bucket with
  | nil => exact Finset.Subset.refl bucket
  | cons page listed ih =>
      rw [deleteListed]
      split
      · exact Finset.Subset.refl bucket
      · split
        · exact Finset.filter_subset _ _
        · exact (ih _ _ _).trans (Finset.filter_subset _ _)

variable (client call deleted bucket listed) in
/-- The loop ends normally if no call raises. -/
theorem deleteListed_ok_iff :
    (∃ total, (deleteListed client call listed deleted bucket).1 = .ok total) ↔
      ∀ (i : Nat) (page : List Text), listed[i]? = some page → ¬client.Raises (call + i) page := by
  induction listed generalizing call deleted bucket with
  | nil => exact iff_of_true ⟨deleted, rfl⟩ nofun
  | cons page listed ih =>
      rcases deleteListed_cons client call deleted bucket listed page with ⟨hraises, ⟨cause, herror⟩, -⟩ | ⟨hraises, heq⟩
      · refine iff_of_false ?_ fun hall => hall 0 page rfl hraises
        rintro ⟨total, htotal⟩
        cases herror.symm.trans htotal
      · rw [heq, ih]
        constructor
        · intro hall i other hother
          cases i with
          | zero =>
              obtain rfl := Option.some.inj hother
              exact hraises
          | succ i =>
              rw [show call + (i + 1) = call + 1 + i by omega]
              exact hall i other hother
        · intro hall i other hother
          rw [show call + 1 + i = call + (i + 1) by omega]
          exact hall (i + 1) other hother

/-- After a normal end, a listed key is left if and only if the call for its page has kept it. -/
theorem mem_deleteListed (hok : (deleteListed client call listed deleted bucket).1 = .ok n)
    (hnodup : listed.flatten.Nodup) (hpage : listed[i]? = some page) (hkey : key ∈ page) :
    key ∈ (deleteListed client call listed deleted bucket).2 ↔
      key ∈ bucket ∧ client.keeps (call + i) key = true := by
  induction listed generalizing call deleted bucket i with
  | nil => cases hpage
  | cons first listed ih =>
      rw [List.flatten_cons, List.nodup_append] at hnodup
      obtain ⟨-, hnodup, hapart⟩ := hnodup
      rcases deleteListed_cons client call deleted bucket listed first with ⟨-, ⟨cause, herror⟩, -⟩ | ⟨-, heq⟩
      · cases herror.symm.trans hok
      · rw [heq] at hok ⊢
        cases i with
        | zero =>
            obtain rfl := Option.some.inj hpage
            have hlater : ∀ later ∈ listed, key ∉ later := fun later hlater hmem =>
              hapart key hkey key (List.mem_flatten.mpr ⟨later, hlater, hmem⟩) rfl
            rw [mem_deleteListed_of_notMem hlater, Client.mem_deleteObjects]
            exact and_congr_right' ⟨fun h => h hkey, fun h _ => h⟩
        | succ i =>
            have hfirst : key ∉ first := fun hmem => hapart key hmem key
              (List.mem_flatten.mpr ⟨page, List.mem_of_getElem? hpage, hkey⟩) rfl
            rw [ih hok hnodup hpage, Client.mem_deleteObjects_of_notMem hfirst]
            rw [show call + 1 + i = call + (i + 1) by omega]

theorem deleteRunArtifacts_eq :
    deleteRunArtifacts client id bucket = deleteListed client 0 (listedPages client id bucket) 0 bucket :=
  deletePages_eq

variable (client id bucket) in
theorem flatten_listedPages :
    (listedPages client id bucket).flatten = Client.found id none bucket := Paging.flatten_pages

variable (client id bucket) in
theorem nodup_listedPages : (listedPages client id bucket).flatten.Nodup := by
  rw [flatten_listedPages]
  exact Paging.pairwise_listing.imp ne_of_lt

variable (client) in
/-- The listed keys are those under the id. -/
theorem mem_listedPages :
    (∃ (n : Nat) (page : List Text), (listedPages client id bucket)[n]? = some page ∧ key ∈ page) ↔
      key ∈ bucket ∧ Owns id key := by
  have hfound : key ∈ Client.found id none bucket ↔ key ∈ bucket ∧ Owns id key := by
    rw [Client.found, Paging.mem_listing]
    simp
  rw [← hfound, ← flatten_listedPages client, List.mem_flatten]
  constructor
  · rintro ⟨n, page, hpage, hkey⟩
    exact ⟨page, List.mem_of_getElem? hpage, hkey⟩
  · rintro ⟨page, hpage, hkey⟩
    obtain ⟨n, hn⟩ := List.getElem?_of_mem hpage
    exact ⟨n, page, hn, hkey⟩

/-- No object that was under the id is left, and no object of another id is touched. -/
structure DeletesAll (id : Uuid) (bucket after : Finset Text) : Prop where
  gone : ∀ key ∈ bucket, Owns id key → key ∉ after
  spared : ∀ other, other ≠ id → ∀ key, Owns other key → (key ∈ after ↔ key ∈ bucket)

/-- A call for one of the pages raises. -/
def SomeCallRaises (client : Client) (id : Uuid) (bucket : Finset Text) : Prop :=
  ∃ n page, (listedPages client id bucket)[n]? = some page ∧ client.Raises n page

/-- No call for a page reports one of its keys. -/
def DeletesEachKey (client : Client) (id : Uuid) (bucket : Finset Text) : Prop :=
  ∀ n page, (listedPages client id bucket)[n]? = some page → ∀ key ∈ page, client.keeps n key = false

theorem returns_iff : (∃ total after, deleteRunArtifacts client id bucket = (.ok total, after)) ↔
    ¬SomeCallRaises client id bucket := by
  have hok := deleteListed_ok_iff client 0 0 bucket (listedPages client id bucket)
  rw [deleteRunArtifacts_eq]
  constructor
  · rintro ⟨total, after, heq⟩ ⟨n, page, hpage, hraises⟩
    refine hok.mp ⟨total, congrArg Prod.fst heq⟩ n page hpage ?_
    rwa [Nat.zero_add]
  · intro hnone
    obtain ⟨total, htotal⟩ := hok.mpr fun n page hpage hraises =>
      hnone ⟨n, page, hpage, Nat.zero_add n ▸ hraises⟩
    exact ⟨total, _, Prod.ext htotal rfl⟩

theorem owns_unique {other : Uuid} (h : Owns id key) (h' : Owns other key) : id = other := by
  obtain ⟨tail, rfl⟩ := List.isPrefixOf_iff_prefix.mp h
  rw [Lifecycle.objectPrefix, List.append_assoc] at h'
  exact (owns_ownKey.mp h').symm

variable (client bucket) in
/-- Whatever the end, other objects stay. -/
theorem mem_deleteRunArtifacts_of_not_owns (hkey : ¬Owns id key) :
    key ∈ (deleteRunArtifacts client id bucket).2 ↔ key ∈ bucket := by
  rw [deleteRunArtifacts_eq]
  refine mem_deleteListed_of_notMem fun page hpage hmem => hkey ?_
  obtain ⟨n, hn⟩ := List.getElem?_of_mem hpage
  exact ((mem_listedPages client).mp ⟨n, page, hn, hmem⟩).2

/-- A deletion that returns is complete if no call has reported a key. -/
theorem deletesAll_iff {total : Nat} {after : Finset Text}
    (h : deleteRunArtifacts client id bucket = (.ok total, after)) :
    DeletesAll id bucket after ↔ DeletesEachKey client id bucket := by
  have hspared : ∀ key, ¬Owns id key → (key ∈ after ↔ key ∈ bucket) := fun key hkey => by
    have hmem := mem_deleteRunArtifacts_of_not_owns client bucket hkey
    rwa [h] at hmem
  rw [deleteRunArtifacts_eq] at h
  have hmem : ∀ n page, (listedPages client id bucket)[n]? = some page → ∀ key ∈ page,
      (key ∈ after ↔ key ∈ bucket ∧ client.keeps n key = true) := by
    intro n page hpage key hkey
    have hleft := mem_deleteListed (congrArg Prod.fst h) (nodup_listedPages client id bucket) hpage hkey
    rwa [h, Nat.zero_add] at hleft
  constructor
  · intro hall n page hpage key hkey
    obtain ⟨hin, howns⟩ := (mem_listedPages client).mp ⟨n, page, hpage, hkey⟩
    have hgone := hall.gone key hin howns
    rw [hmem n page hpage key hkey, not_and] at hgone
    exact Bool.eq_false_iff.mpr (hgone hin)
  · intro hall
    constructor
    · intro key hin howns hleft
      obtain ⟨n, page, hpage, hkey⟩ := (mem_listedPages client).mpr ⟨hin, howns⟩
      have hkept := ((hmem n page hpage key hkey).mp hleft).2
      rw [hall n page hpage key hkey] at hkept
      cases hkept
    · exact fun other hother key howns => hspared key fun hid => hother (owns_unique howns hid)

theorem mem_deleteUnder {kept objects : List Text} :
    key ∈ Lifecycle.deleteUnder id kept objects ↔ key ∈ objects ∧ (key ∈ kept ∨ ¬Owns id key) := by
  rw [Lifecycle.deleteUnder, List.mem_filter, Bool.or_eq_true, List.contains_iff_mem, Bool.not_eq_true',
    Owns, Bool.not_eq_true]

variable (client id) in
/-- The keys under the id that a deletion leaves. -/
def keptKeys (objects : List Text) : List Text :=
  objects.filter fun key => key ∈ (deleteRunArtifacts client id objects.toFinset).2 ∧ Owns id key

theorem mem_keptKeys {objects : List Text} : key ∈ keptKeys client id objects ↔
    key ∈ objects ∧ key ∈ (deleteRunArtifacts client id objects.toFinset).2 ∧ Owns id key := by
  rw [keptKeys, List.mem_filter, decide_eq_true_iff]

/-- However its calls end, a deletion is the single step that the calls on the whole storage make of it,
with the keys that it leaves. -/
theorem deleteRunArtifacts_eq_deleteObjects {w : World} :
    (deleteRunArtifacts client id w.life.objects.toFinset).2 =
      (w.deleteObjects id (keptKeys client id w.life.objects)).life.objects.toFinset := by
  ext key
  rw [List.mem_toFinset, World.deleteObjects, mem_deleteUnder, mem_keptKeys]
  by_cases howns : Owns id key
  · have hsubset : key ∈ (deleteRunArtifacts client id w.life.objects.toFinset).2 →
        key ∈ w.life.objects := by
      intro hleft
      rw [deleteRunArtifacts_eq] at hleft
      exact List.mem_toFinset.mp (deleteListed_subset _ _ _ _ _ hleft)
    constructor
    · intro hleft
      exact ⟨hsubset hleft, Or.inl ⟨hsubset hleft, hleft, howns⟩⟩
    · rintro ⟨-, ⟨-, hleft, -⟩ | hother⟩
      · exact hleft
      · exact absurd howns hother
  · rw [mem_deleteRunArtifacts_of_not_owns client _ howns, List.mem_toFinset]
    exact (and_iff_left (Or.inr howns)).symm

/-- A deletion that returns leaves no key exactly if no call has reported one. -/
theorem keptKeys_eq_nil_iff {objects : List Text}
    (hreturns : ¬SomeCallRaises client id objects.toFinset) :
    keptKeys client id objects = [] ↔ DeletesEachKey client id objects.toFinset := by
  obtain ⟨total, after, heq⟩ := returns_iff.mpr hreturns
  rw [← deletesAll_iff heq, List.eq_nil_iff_forall_not_mem]
  simp only [mem_keptKeys, heq]
  constructor
  · intro hnone
    refine ⟨fun key hkey howns hleft => ?_, fun other hother key howns => ?_⟩
    · exact hnone key ⟨List.mem_toFinset.mp hkey, hleft, howns⟩
    · have hspared := mem_deleteRunArtifacts_of_not_owns client objects.toFinset
        fun hid : Owns id key => hother (owns_unique howns hid)
      rwa [heq] at hspared
  · rintro hall key ⟨hkey, hleft, howns⟩
    exact hall.gone key (List.mem_toFinset.mpr hkey) howns hleft

end Loop

/-! ### `RunService.delete_run` and `ScheduleService.delete_schedule` -/

namespace Deletion

structure World where
  runs : Table Uuid Run
  schedules : Table Uuid ScheduledRun
  objects : Finset Text

/-- How the calls of one request go. -/
structure Env where
  client : Client
  getFails : Bool := false
  commitFails : Bool := false

inductive Error where
  | notFound
  | cleanup (cause : ClientError)
  | database
  deriving DecidableEq

section Requests

variable (env : Env) (id : Uuid)

def deleteArtifacts : Program Error World Nat := fun w =>
  ((deleteRunArtifacts env.client id w.objects).1.mapError .cleanup,
    { w with objects := (deleteRunArtifacts env.client id w.objects).2 })

/-- The row is deleted after its objects. -/
def deleteWithObjects {ρ : Type} (rows : World → Table Uuid ρ) (erase : World → World) :
    Program Error World Unit := do
  Program.check env.getFails .database
  let w ← Program.read
  Program.check ((rows w).lookup id).isNone .notFound
  let _ ← deleteArtifacts env id
  Program.check env.commitFails .database
  Program.update erase

def deleteRun : Program Error World Unit :=
  deleteWithObjects env id World.runs fun w => { w with runs := w.runs.erase id }

def deleteSchedule : Program Error World Unit :=
  deleteWithObjects env id World.schedules fun w => { w with schedules := w.schedules.erase id }

variable {env id} {w : World}

variable (env id w) in
/-- The row goes only after a deletion of its objects that has returned. -/
theorem deleteWithObjects_cases {ρ : Type} (rows : World → Table Uuid ρ) (erase : World → World) :
    (∃ cause objects, deleteWithObjects env id rows erase w = (.error cause, { w with objects })) ∨
      ∃ total objects, deleteRunArtifacts env.client id w.objects = (.ok total, objects) ∧
        deleteWithObjects env id rows erase w = (.ok (), erase { w with objects }) := by
  rw [deleteWithObjects, Program.check_bind]
  split
  · exact Or.inl ⟨_, w.objects, rfl⟩
  · rw [Program.read_bind, Program.check_bind]
    split
    · exact Or.inl ⟨_, w.objects, rfl⟩
    · cases hresult : deleteRunArtifacts env.client id w.objects with
      | mk result objects =>
          cases result with
          | error cause =>
              have hdelete : deleteArtifacts env id w = (.error (.cleanup cause), { w with objects }) := by
                rw [deleteArtifacts, hresult]
                rfl
              exact Or.inl ⟨_, objects, Program.bind_error hdelete⟩
          | ok total =>
              have hdelete : deleteArtifacts env id w = (.ok total, { w with objects }) := by
                rw [deleteArtifacts, hresult]
                rfl
              rw [Program.bind_ok hdelete, Program.check_bind]
              split
              · exact Or.inl ⟨_, objects, rfl⟩
              · exact Or.inr ⟨total, objects, rfl, rfl⟩

/-- If every deletion that returns is complete, a request that has removed a row has left none of its
objects. -/
theorem deletesAll_of_row_gone {ρ : Type} {rows : World → Table Uuid ρ} {erase : World → World}
    (hrows : ∀ objects, rows { w with objects } = rows w)
    (hobjects : ∀ w', (erase w').objects = w'.objects)
    (hcomplete : ∀ total after, deleteRunArtifacts env.client id w.objects = (.ok total, after) →
      DeletesAll id w.objects after)
    (hrow : (rows w).lookup id ≠ none)
    (hgone : (rows (deleteWithObjects env id rows erase w).2).lookup id = none) :
    DeletesAll id w.objects (deleteWithObjects env id rows erase w).2.objects := by
  rcases deleteWithObjects_cases env id w rows erase with
    ⟨cause, objects, heq⟩ | ⟨total, objects, hdelete, heq⟩
  · rw [heq, hrows] at hgone
    exact absurd hgone hrow
  · rw [heq, hobjects]
    exact hcomplete total objects hdelete

end Requests
end Deletion

/-- The deletion under an id, of a run or of a schedule, only ends well when it is complete. -/
structure CompleteOrRefused (client : Client) (id : Uuid) (bucket : Finset Text) : Prop where
  objects : ∀ total after, deleteRunArtifacts client id bucket = (.ok total, after) →
    DeletesAll id bucket after
  run : ∀ (env : Deletion.Env) (w : Deletion.World), env.client = client → w.objects = bucket →
    w.runs.lookup id ≠ none → (Deletion.deleteRun env id w).2.runs.lookup id = none →
    DeletesAll id bucket (Deletion.deleteRun env id w).2.objects
  schedule : ∀ (env : Deletion.Env) (w : Deletion.World), env.client = client → w.objects = bucket →
    w.schedules.lookup id ≠ none → (Deletion.deleteSchedule env id w).2.schedules.lookup id = none →
    DeletesAll id bucket (Deletion.deleteSchedule env id w).2.objects

/-- This holds if and only if one of the calls for the pages raises or none of them reports a key. -/
theorem completeOrRefused_iff {client : Client} {id : Uuid} {bucket : Finset Text} :
    CompleteOrRefused client id bucket ↔
      SomeCallRaises client id bucket ∨ DeletesEachKey client id bucket := by
  constructor
  · intro h
    by_cases hraises : SomeCallRaises client id bucket
    · exact Or.inl hraises
    · obtain ⟨total, after, heq⟩ := returns_iff.mpr hraises
      exact Or.inr ((deletesAll_iff heq).mp (h.objects total after heq))
  · intro h
    have hcomplete : ∀ total after, deleteRunArtifacts client id bucket = (.ok total, after) →
        DeletesAll id bucket after := by
      intro total after heq
      have hreturns : ¬SomeCallRaises client id bucket := returns_iff.mp ⟨total, after, heq⟩
      exact (deletesAll_iff heq).mpr (h.resolve_left hreturns)
    constructor
    · exact hcomplete
    · rintro env w rfl rfl hrow hgone
      exact Deletion.deletesAll_of_row_gone (fun _ => rfl) (fun _ => rfl) hcomplete hrow hgone
    · rintro env w rfl rfl hrow hgone
      exact Deletion.deletesAll_of_row_gone (fun _ => rfl) (fun _ => rfl) hcomplete hrow hgone

/-- A storage that reports every key and raises nothing. -/
def refusingClient : Client where
  maxKeys := 1000
  maxKeys_pos := by decide
  listRaises _ := false
  deleteRaises _ := false
  keeps _ _ := true

/-- The input of a run is reported and stays, and the call returns. -/
theorem deleteRunArtifacts_leaves_input :
    ¬CompleteOrRefused refusingClient 1 {Lifecycle.inputKey 1} := by
  intro h
  have hreturns : ¬SomeCallRaises refusingClient 1 {Lifecycle.inputKey 1} := by
    rintro ⟨n, page, -, hlist | hdelete⟩
    · cases hlist
    · cases hdelete.2
  obtain ⟨total, after, heq⟩ := returns_iff.mpr hreturns
  have hall := (deletesAll_iff heq).mp (h.objects total after heq)
  have hkey : Lifecycle.inputKey 1 ∈ ({Lifecycle.inputKey 1} : Finset Text) ∧
      Owns 1 (Lifecycle.inputKey 1) := ⟨Finset.mem_singleton_self _, owns_ownKey.mpr rfl⟩
  obtain ⟨n, page, hpage, hmem⟩ := (mem_listedPages refusingClient).mpr hkey
  cases hall n page hpage _ hmem

end PdeOperator.Storage
