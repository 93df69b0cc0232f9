import Mathlib.Data.List.Basic

/-! Data that is fetched for a key while the key that is wanted changes: requests overlap, and their answers come
in any order. -/

namespace PdeOperator.Base

/-- Data with the key that it was requested for. -/
structure Fetched (κ α : Type) where
  key : κ
  data : α

/-- An answer; `missing` empties what is shown, `failed` leaves it. -/
inductive Reply (α : Type) where
  | found (data : α)
  | missing
  | failed

/-- What is shown, and the requests without an answer: their keys, and what is kept for their answers. -/
structure Fetch (κ ο α : Type) where
  shown : Option (Fetched κ α) := none
  requests : List (κ × ο) := []

namespace Fetch

variable {κ ο α : Type}

def send (f : Fetch κ ο α) (key : κ) (kept : ο) : Fetch κ ο α := { f with requests := f.requests ++ [(key, kept)] }

def clear (f : Fetch κ ο α) : Fetch κ ο α := { f with shown := none }

def store (f : Fetch κ ο α) (key : κ) : Reply α → Option (Fetched κ α)
  | .found data => some ⟨key, data⟩
  | .missing => none
  | .failed => f.shown

/-- The answer to the request `i` is stored, whatever was requested after it. -/
def answer (f : Fetch κ ο α) (i : Nat) (reply : Reply α) : Fetch κ ο α :=
  match f.requests[i]? with
  | none => f
  | some (key, _) => { shown := f.store key reply, requests := f.requests.eraseIdx i }

def Shows (f : Fetch κ ο α) (key : κ) : Prop := ∀ fetched ∈ f.shown, fetched.key = key

def Awaits (f : Fetch κ ο α) (key : κ) : Prop := ∃ request ∈ f.requests, request.1 = key

/-- What is shown is of the key, or an answer for the key is still to come. -/
def Settles (f : Fetch κ ο α) (key : κ) : Prop := f.Shows key ∨ f.Awaits key

/-- An answer that does not leave something else on the screen with no answer for the key to come. -/
def AnswerOk (f : Fetch κ ο α) (key : κ) (i : Nat) (reply : Reply α) : Prop :=
  ∀ request ∈ f.requests[i]?, (∃ other ∈ f.requests.eraseIdx i, other.1 = key) ∨
    match reply with
    | .found _ => request.1 = key
    | .missing => True
    | .failed => f.Shows key

variable {f : Fetch κ ο α} {key : κ}

theorem awaits_send (f : Fetch κ ο α) (key : κ) (kept : ο) : (f.send key kept).Awaits key :=
  ⟨(key, kept), List.mem_append_right _ (List.mem_singleton_self _), rfl⟩

theorem Settles.send (h : f.Settles key) (other : κ) (kept : ο) : (f.send other kept).Settles key := by
  rcases h with hshows | ⟨request, hrequest, hkey⟩
  · exact Or.inl hshows
  · exact Or.inr ⟨request, List.mem_append_left _ hrequest, hkey⟩

theorem shows_clear (f : Fetch κ ο α) (key : κ) : f.clear.Shows key := fun _ h => absurd h (Option.not_mem_none _)

theorem Settles.shows (h : f.Settles key) (hnone : f.requests = []) : f.Shows key := by
  rcases h with hshows | ⟨request, hrequest, -⟩
  · exact hshows
  · rw [hnone] at hrequest
    exact absurd hrequest List.not_mem_nil

theorem answer_of_getElem? {i : Nat} {request : κ × ο} (h : f.requests[i]? = some request) (reply : Reply α) :
    f.answer i reply = { shown := f.store request.1 reply, requests := f.requests.eraseIdx i } := by
  rw [answer, h]

theorem answer_of_none {i : Nat} (h : f.requests[i]? = none) (reply : Reply α) : f.answer i reply = f := by
  rw [answer, h]

/-- An answer leaves the key settled exactly if it is allowed. -/
theorem settles_answer_iff (h : f.Settles key) (i : Nat) (reply : Reply α) :
    (f.answer i reply).Settles key ↔ f.AnswerOk key i reply := by
  cases hrequest : f.requests[i]? with
  | none =>
      rw [answer_of_none hrequest, AnswerOk, hrequest]
      exact ⟨fun _ _ hmem => absurd hmem (Option.not_mem_none _), fun _ => h⟩
  | some request =>
      have hshows : (f.answer i reply).Shows key ↔
          match reply with
          | .found _ => request.1 = key
          | .missing => True
          | .failed => f.Shows key := by
        rw [answer_of_getElem? hrequest]
        cases reply with
        | found data => exact ⟨fun hall => hall _ rfl, fun hkey fetched hmem => Option.some.inj hmem ▸ hkey⟩
        | missing => exact ⟨fun _ => trivial, fun _ _ hmem => absurd hmem (Option.not_mem_none _)⟩
        | failed => exact Iff.rfl
      have hawaits : (f.answer i reply).Awaits key ↔ ∃ other ∈ f.requests.eraseIdx i, other.1 = key := by
        rw [answer_of_getElem? hrequest]
        exact Iff.rfl
      rw [Settles, hshows, hawaits, AnswerOk, hrequest, or_comm]
      exact ⟨fun hok _ hmem => Option.some.inj hmem ▸ hok, fun hok => hok request rfl⟩

end Fetch

/-- A fetch whose requests are numbered: only the answer to the last one counts. -/
structure Latest (κ ο α : Type) extends Fetch κ (Nat × ο) α where
  seq : Nat := 0
  seq_le : ∀ request ∈ requests, request.2.1 ≤ seq

namespace Latest

variable {κ ο α : Type}

def start : Latest κ ο α where
  seq_le := fun _ h => absurd h List.not_mem_nil

def send (l : Latest κ ο α) (key : κ) (kept : ο) : Latest κ ο α where
  toFetch := l.toFetch.send key (l.seq + 1, kept)
  seq := l.seq + 1
  seq_le := by
    intro request hrequest
    rcases List.mem_append.mp hrequest with hold | hnew
    · exact Nat.le_succ_of_le (l.seq_le request hold)
    · obtain rfl := List.mem_singleton.mp hnew
      exact Nat.le_refl _

/-- Nothing is shown, and no request counts any more. -/
def reset (l : Latest κ ο α) : Latest κ ο α where
  toFetch := l.toFetch.clear
  seq := l.seq + 1
  seq_le := fun request hrequest => Nat.le_succ_of_le (l.seq_le request hrequest)

/-- The number of the request `i` is the last one. -/
def Counts (l : Latest κ ο α) (i : Nat) : Prop := ∃ request ∈ l.requests[i]?, request.2.1 = l.seq

instance (l : Latest κ ο α) (i : Nat) : Decidable (l.Counts i) :=
  match h : l.requests[i]? with
  | none => isFalse fun ⟨_, hmem, _⟩ => Option.not_mem_none _ (h ▸ hmem)
  | some request => decidable_of_iff (request.2.1 = l.seq)
      ⟨fun heq => ⟨request, h, heq⟩, fun ⟨_, hmem, heq⟩ => Option.some.inj (h.symm.trans hmem) ▸ heq⟩

def answer (l : Latest κ ο α) (i : Nat) (reply : Reply α) : Latest κ ο α where
  toFetch := l.toFetch.answer i (if l.Counts i then reply else .failed)
  seq := l.seq
  seq_le := by
    intro request hrequest
    cases hfound : l.requests[i]? with
    | none =>
        rw [Fetch.answer_of_none hfound] at hrequest
        exact l.seq_le request hrequest
    | some found =>
        rw [Fetch.answer_of_getElem? hfound] at hrequest
        exact l.seq_le request (List.mem_of_mem_eraseIdx hrequest)

/-- What is shown is of the key, and so is the request that counts. -/
def Follows (l : Latest κ ο α) (key : κ) : Prop :=
  l.Shows key ∧ ∀ request ∈ l.requests, request.2.1 = l.seq → request.1 = key

variable {l : Latest κ ο α} {key : κ}

theorem follows_reset (l : Latest κ ο α) (key : κ) : l.reset.Follows key := by
  refine ⟨l.toFetch.shows_clear key, fun request hrequest hseq => ?_⟩
  have hle := l.seq_le request hrequest
  have hseq : request.2.1 = l.seq + 1 := hseq
  omega

theorem Follows.send_iff (h : l.Follows key) (other : κ) (kept : ο) :
    (l.send other kept).Follows key ↔ other = key := by
  constructor
  · intro hsend
    exact hsend.2 (other, l.seq + 1, kept) (List.mem_append_right _ (List.mem_singleton_self _)) rfl
  · intro hkey
    refine ⟨h.1, fun request hrequest hseq => ?_⟩
    rcases List.mem_append.mp hrequest with hold | hnew
    · have hle := l.seq_le request hold
      have hseq : request.2.1 = l.seq + 1 := hseq
      omega
    · rw [List.mem_singleton.mp hnew]
      exact hkey

theorem Follows.answer (h : l.Follows key) (i : Nat) (reply : Reply α) : (l.answer i reply).Follows key := by
  cases hfound : l.requests[i]? with
  | none =>
      have hsame : (l.answer i reply).toFetch = l.toFetch := Fetch.answer_of_none hfound _
      refine ⟨?_, ?_⟩
      · rw [hsame]
        exact h.1
      · rw [hsame]
        exact h.2
  | some found =>
      have hfetch : (l.answer i reply).toFetch = { shown := _, requests := _ } := Fetch.answer_of_getElem? hfound _
      refine ⟨?_, ?_⟩
      · rw [hfetch]
        intro fetched hfetched
        by_cases hcounts : l.Counts i
        · rw [if_pos hcounts] at hfetched
          cases reply with
          | found data =>
              obtain ⟨request, hrequest, hseq⟩ := hcounts
              obtain rfl : found = request := Option.some.inj (hfound.symm.trans hrequest)
              rw [← Option.some.inj hfetched]
              exact h.2 found (List.mem_of_getElem? hfound) hseq
          | missing => exact absurd hfetched (Option.not_mem_none _)
          | failed => exact h.1 fetched hfetched
        · rw [if_neg hcounts] at hfetched
          exact h.1 fetched hfetched
      · rw [hfetch]
        intro request hrequest
        exact h.2 request (List.mem_of_mem_eraseIdx hrequest)

end Latest

end PdeOperator.Base
