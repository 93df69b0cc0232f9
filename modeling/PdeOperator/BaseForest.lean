import Mathlib.Data.List.Nodup
import Mathlib.Order.Basic

/-! Boxes that are placed in each other: items with a parent, each in the coordinates of its parent. -/

namespace PdeOperator.Base

structure Box (α : Type) where
  left : α
  top : α
  right : α
  bottom : α

namespace Box

variable {α : Type}

def Inside [LE α] (a b : Box α) : Prop := b.left ≤ a.left ∧ b.top ≤ a.top ∧ a.right ≤ b.right ∧ a.bottom ≤ b.bottom

/-- A box that is not empty. -/
def Proper [LT α] (a : Box α) : Prop := a.left < a.right ∧ a.top < a.bottom

/-- One lies beside the other, or above it. -/
def Apart [LT α] (a b : Box α) : Prop :=
  a.right < b.left ∨ b.right < a.left ∨ a.bottom < b.top ∨ b.bottom < a.top

variable [Preorder α] {a b c d : Box α}

theorem Inside.refl (a : Box α) : Inside a a := ⟨le_rfl, le_rfl, le_rfl, le_rfl⟩

theorem Inside.trans (h : Inside a b) (h' : Inside b c) : Inside a c :=
  ⟨h'.1.trans h.1, h'.2.1.trans h.2.1, h.2.2.1.trans h'.2.2.1, h.2.2.2.trans h'.2.2.2⟩

theorem Apart.of_inside (h : Apart c d) (ha : Inside a c) (hb : Inside b d) : Apart a b := by
  obtain ⟨hleft, htop, hright, hbottom⟩ := ha
  obtain ⟨hleft', htop', hright', hbottom'⟩ := hb
  rcases h with h | h | h | h
  · exact Or.inl (hright.trans_lt (h.trans_le hleft'))
  · exact Or.inr (Or.inl (hright'.trans_lt (h.trans_le hleft)))
  · exact Or.inr (Or.inr (Or.inl (hbottom.trans_lt (h.trans_le htop'))))
  · exact Or.inr (Or.inr (Or.inr (hbottom'.trans_lt (h.trans_le htop))))

end Box

/-- What is placed: its box in the coordinates of the parent, and the box for what is placed in it. -/
structure Item (ι α : Type) where
  id : ι
  parent : Option ι
  box : Box α
  inner : Box α

variable {ι α : Type}

/-- Items that can stand below a parent: ids are unique, an item is placed in a parent in front of it or in the
common parent, and those with one parent are apart. -/
structure Placed [LE α] [LT α] (parent : Option ι) (items : List (Item ι α)) : Prop where
  nodup : (items.map Item.id).Nodup
  proper : ∀ item ∈ items, item.box.Proper
  rooted : ∀ before item after, items = before ++ item :: after →
    item.parent = parent ∨ ∃ above ∈ before, item.parent = some above.id ∧ item.box.Inside above.inner
  apart : items.Pairwise fun a b => a.parent = b.parent → a.box.Apart b.box

/-- The items of the common parent lie in an area. -/
def Within [LE α] (parent : Option ι) (area : Box α) (items : List (Item ι α)) : Prop :=
  ∀ item ∈ items, item.parent = parent → item.box.Inside area

variable [Preorder α] {parent : Option ι} {items items' : List (Item ι α)} {area area' : Box α}

theorem placed_nil : Placed parent ([] : List (Item ι α)) where
  nodup := List.nodup_nil
  proper := nofun
  rooted := by
    intro before item after h
    simp at h
  apart := List.Pairwise.nil

theorem Within.mono (h : Within parent area items) (harea : area.Inside area') : Within parent area' items :=
  fun item hitem hparent => (h item hitem hparent).trans harea

theorem Within.append (h : Within parent area items) (h' : Within parent area items') :
    Within parent area (items ++ items') := fun item hitem =>
  (List.mem_append.mp hitem).elim (h item) (h' item)

/-- The parent of an item is the common one or an item. -/
theorem Placed.parent_cases (h : Placed parent items) {item : Item ι α} (hitem : item ∈ items) :
    item.parent = parent ∨ ∃ above ∈ items, item.parent = some above.id := by
  obtain ⟨before, after, rfl⟩ := List.append_of_mem hitem
  rcases h.rooted before item after rfl with hparent | ⟨above, habove, hparent, -⟩
  · exact Or.inl hparent
  · exact Or.inr ⟨above, List.mem_append_left _ habove, hparent⟩

/-- Two groups of items in areas that are apart. -/
theorem Placed.append (h : Placed parent items) (h' : Placed parent items')
    (hids : ∀ item ∈ items, ∀ item' ∈ items', item.id ≠ item'.id)
    (hparent : ∀ item ∈ items ++ items', parent ≠ some item.id) (hwithin : Within parent area items)
    (hwithin' : Within parent area' items') (hareas : area.Apart area') : Placed parent (items ++ items') where
  nodup := by
    rw [List.map_append, List.nodup_append]
    refine ⟨h.nodup, h'.nodup, ?_⟩
    intro id hid id' hid'
    obtain ⟨item, hitem, rfl⟩ := List.mem_map.mp hid
    obtain ⟨item', hitem', rfl⟩ := List.mem_map.mp hid'
    exact hids item hitem item' hitem'
  proper := List.forall_mem_append.mpr ⟨h.proper, h'.proper⟩
  rooted := by
    intro before item after heq
    rcases List.append_eq_append_iff.mp heq with ⟨front, rfl, hrest⟩ | ⟨rest, hitems, hrest⟩
    · rcases h'.rooted front item after hrest with hitem | ⟨above, habove, hitem, hinside⟩
      · exact Or.inl hitem
      · exact Or.inr ⟨above, List.mem_append_right _ habove, hitem, hinside⟩
    · cases rest with
      | nil =>
          rw [List.append_nil] at hitems
          rw [List.nil_append] at hrest
          rcases h'.rooted [] item after hrest.symm with hitem | ⟨above, habove, -⟩
          · exact Or.inl hitem
          · exact absurd habove List.not_mem_nil
      | cons first rest =>
          obtain ⟨rfl, -⟩ := List.cons.inj hrest
          exact h.rooted before item rest hitems
  apart := by
    rw [List.pairwise_append]
    refine ⟨h.apart, h'.apart, fun item hitem item' hitem' hsame => ?_⟩
    rcases h.parent_cases hitem with hcommon | ⟨above, habove, heq⟩
    · exact hareas.of_inside (hwithin item hitem hcommon) (hwithin' item' hitem' (hsame.symm.trans hcommon))
    · rcases h'.parent_cases hitem' with hcommon | ⟨above', habove', heq'⟩
      · exact absurd ((hcommon.symm.trans hsame.symm).trans heq)
          (hparent above (List.mem_append_left _ habove))
      · have hid : above.id = above'.id := Option.some.inj ((heq.symm.trans hsame).trans heq')
        exact absurd hid (hids above habove above' habove')

/-- An item around others. -/
theorem Placed.cons (item : Item ι α) (h : Placed (some item.id) items) (hitem : item.parent = parent)
    (hproper : item.box.Proper)
    (hids : ∀ inner ∈ items, inner.id ≠ item.id) (hparent : ∀ inner ∈ items, parent ≠ some inner.id)
    (hself : parent ≠ some item.id) (hwithin : Within (some item.id) item.inner items) :
    Placed parent (item :: items) where
  nodup := by
    rw [List.map_cons, List.nodup_cons]
    refine ⟨fun hmem => ?_, h.nodup⟩
    obtain ⟨inner, hinner, hid⟩ := List.mem_map.mp hmem
    exact hids inner hinner hid
  proper := List.forall_mem_cons.mpr ⟨hproper, h.proper⟩
  rooted := by
    intro before inner after heq
    cases before with
    | nil =>
        obtain ⟨rfl, -⟩ := List.cons.inj heq
        exact Or.inl hitem
    | cons first before =>
        obtain ⟨rfl, hrest⟩ := List.cons.inj heq
        refine Or.inr ?_
        rcases h.rooted before inner after hrest with hcommon | ⟨above, habove, hparent, hinside⟩
        · have hinner : inner ∈ items := by
            rw [hrest]
            exact List.mem_append_right _ List.mem_cons_self
          exact ⟨item, List.mem_cons_self, hcommon, hwithin inner hinner hcommon⟩
        · exact ⟨above, List.mem_cons_of_mem _ habove, hparent, hinside⟩
  apart := by
    rw [List.pairwise_cons]
    refine ⟨fun inner hinner hsame => ?_, h.apart⟩
    rw [hitem] at hsame
    rcases h.parent_cases hinner with hcommon | ⟨above, habove, heq⟩
    · exact absurd (hsame.trans hcommon) hself
    · exact absurd (hsame.trans heq) (hparent above habove)

end PdeOperator.Base
