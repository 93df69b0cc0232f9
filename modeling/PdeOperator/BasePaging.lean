import Mathlib.Data.Finset.Sort
import Mathlib.Data.List.Infix

/-! Listings that are read page by page, each page from the last key of the one before it, while the
keys that have been listed are being removed. -/

namespace PdeOperator.Base.Paging

variable {α : Type} {size : Nat}

/-- The pages of a listing: at least one, and none but the last shorter than the others. -/
def pages (size : Nat) (hsize : 0 < size) (keys : List α) : List (List α) :=
  if keys.length ≤ size then [keys] else keys.take size :: pages size hsize (keys.drop size)
termination_by keys.length
decreasing_by rw [List.length_drop]; omega

variable {hsize : 0 < size} {keys : List α}

theorem pages_of_le (h : keys.length ≤ size) : pages size hsize keys = [keys] := by
  rw [pages, if_pos h]

theorem pages_of_lt (h : size < keys.length) :
    pages size hsize keys = keys.take size :: pages size hsize (keys.drop size) := by
  rw [pages, if_neg (Nat.not_le.mpr h)]

theorem flatten_pages : (pages size hsize keys).flatten = keys := by
  induction keys using pages.induct size hsize with
  | case1 keys hle => rw [pages_of_le hle, List.flatten_singleton]
  | case2 keys hlt ih =>
      rw [pages_of_lt (Nat.not_le.mp hlt), List.flatten_cons, ih, List.take_append_drop]

section Listing

variable [LinearOrder α] (owned : α → Prop) [DecidablePred owned]

/-- The owned keys of a store behind a token, in order. -/
def listing (token : Option α) (store : Finset α) : List α :=
  (store.filter fun key => owned key ∧ ∀ last ∈ token, last < key).sort

variable {owned} {token : Option α} {store store' : Finset α} {key last : α}

theorem mem_listing : key ∈ listing owned token store ↔
    key ∈ store ∧ owned key ∧ ∀ last ∈ token, last < key := by
  rw [listing, Finset.mem_sort, Finset.mem_filter]

theorem pairwise_listing : (listing owned token store).Pairwise (· < ·) :=
  (Finset.sortedLT_sort _).pairwise

/-- No key of a page comes behind its last. -/
theorem not_lt_of_mem_take {keys : List α} (hsorted : keys.Pairwise (· < ·))
    (hlast : (keys.take size).getLast? = some last) (hkey : key ∈ keys.take size) : ¬last < key := by
  intro hlt
  have hpage : (keys.take size).Pairwise (· < ·) := hsorted.sublist (List.take_sublist size keys)
  obtain ⟨front, hfront⟩ := List.getLast?_eq_some_iff.mp hlast
  rw [hfront, List.mem_append, List.mem_singleton] at hkey
  rcases hkey with hkey | rfl
  · rw [hfront, List.pairwise_append] at hpage
    exact lt_asymm hlt (hpage.2.2 key hkey last (List.mem_singleton_self last))
  · exact lt_irrefl _ hlt

/-- All that follows the page does. -/
theorem lt_of_mem_drop {keys : List α} (hsorted : keys.Pairwise (· < ·))
    (hlast : (keys.take size).getLast? = some last) (hkey : key ∈ keys.drop size) : last < key := by
  rw [← List.take_append_drop size keys, List.pairwise_append] at hsorted
  exact hsorted.2.2 last (List.mem_of_getLast? hlast) key hkey

/-- Whatever has been removed of a page, the listing behind its last key is what followed the page. -/
theorem listing_behind (hlast : ((listing owned token store).take size).getLast? = some last)
    (hstore : ∀ key, key ∉ (listing owned token store).take size → (key ∈ store' ↔ key ∈ store)) :
    listing owned (some last) store' = (listing owned token store).drop size := by
  have hsorted : (listing owned token store).Pairwise (· < ·) := pairwise_listing
  have hbehind := (mem_listing.mp (List.mem_of_mem_take (List.mem_of_getLast? hlast))).2.2
  have hrest := hsorted.sublist (List.drop_sublist size _)
  have hkeys : store'.filter (fun key => owned key ∧ ∀ l ∈ some last, l < key) =
      ((listing owned token store).drop size).toFinset := by
    ext key
    rw [Finset.mem_filter, List.mem_toFinset]
    constructor
    · rintro ⟨hkey, howned, hlt⟩
      have hlt : last < key := hlt last rfl
      have hpage : key ∉ (listing owned token store).take size := fun hpage =>
        not_lt_of_mem_take hsorted hlast hpage hlt
      have hlisted : key ∈ listing owned token store := mem_listing.mpr
        ⟨(hstore key hpage).mp hkey, howned, fun first hfirst => lt_trans (hbehind first hfirst) hlt⟩
      rw [← List.take_append_drop size (listing owned token store), List.mem_append] at hlisted
      exact hlisted.resolve_left hpage
    · intro hkey
      have hlt := lt_of_mem_drop hsorted hlast hkey
      have hpage : key ∉ (listing owned token store).take size := fun hpage =>
        not_lt_of_mem_take hsorted hlast hpage hlt
      obtain ⟨hin, howned, -⟩ := mem_listing.mp (List.mem_of_mem_drop hkey)
      exact ⟨(hstore key hpage).mpr hin, howned, fun l hl => Option.some.inj hl ▸ hlt⟩
  rw [listing, hkeys]
  exact (List.toFinset_sort _ (hrest.imp ne_of_lt)).mpr (hrest.imp le_of_lt)

end Listing

end PdeOperator.Base.Paging
