import Mathlib.Data.List.Nodup
import Mathlib.Logic.Relation
import Mathlib.Order.Basic
import Mathlib.Tactic.Common

/-!
# Forests of items with lists of children

Items have a parent or none, and a list of children.  In a `Forest` the two agree, no child
is listed twice, and parents are older than their children, so that there are no cycles.
It is kept when a leaf is added, when one item is removed and its children are left without
a parent, and when whole trees are removed.
-/

namespace Verse.Lib

variable {α : Type*}

structure Forest [Preorder α] (parent : α → Option α) (children : α → List α) : Prop where
  parent_of_mem : ∀ {p c}, c ∈ children p → parent c = some p
  mem_children : ∀ {p c}, parent c = some p → c ∈ children p
  nodup : ∀ p, (children p).Nodup
  older : ∀ {p c}, parent c = some p → p < c

namespace Forest

section Preorder

variable [Preorder α] {parent : α → Option α} {children : α → List α}

theorem empty : Forest (fun _ : α => none) fun _ => [] where
  parent_of_mem h := by cases h
  mem_children h := by cases h
  nodup _ := List.nodup_nil
  older h := by cases h

theorem older_of_transGen (h : Forest parent children) {c p : α}
    (hcp : Relation.TransGen (fun c p => parent c = some p) c p) : p < c := by
  induction hcp with
  | single hp => exact h.older hp
  | tail _ hp ih => exact (h.older hp).trans ih

/-- There are no cycles. -/
theorem acyclic (h : Forest parent children) (c : α) :
    ¬ Relation.TransGen (fun c p => parent c = some p) c c :=
  fun hcycle => lt_irrefl c (h.older_of_transGen hcycle)

/-- Whole trees are removed. -/
theorem removeTrees (h : Forest parent children) {S : α → Prop} [DecidablePred S]
    (hclosed : ∀ {c p}, parent c = some p → (S c ↔ S p)) :
    Forest (fun c => if S c then none else parent c) fun p => if S p then [] else children p := by
  refine ⟨fun {p c} hc => ?_, fun {p c} hp => ?_, fun p => ?_, fun {p c} hp => ?_⟩
  · split at hc
    · cases hc
    · rename_i hS
      have hp := h.parent_of_mem hc
      rw [if_neg ((hclosed hp).not.mpr hS)]
      exact hp
  · split at hp
    · cases hp
    · rename_i hS
      rw [if_neg ((hclosed hp).not.mp hS)]
      exact h.mem_children hp
  · split
    · exact List.nodup_nil
    · exact h.nodup p
  · split at hp
    · cases hp
    · exact h.older hp

end Preorder

variable [PartialOrder α] [DecidableEq α] {parent parent' : α → Option α}
  {children children' : α → List α}

theorem count_eq_one (h : Forest parent children) {p c : α} (hp : parent c = some p) :
    (children p).count c = 1 :=
  List.count_eq_one_of_mem (h.nodup p) (h.mem_children hp)

/-- A new leaf. -/
theorem addLeaf (h : Forest parent children) {p a : α} (ha : parent a = none)
    (hempty : children a = []) (hpa : p < a) :
    Forest (Function.update parent a (some p)) (Function.update children p (children p ++ [a])) := by
  have hne : p ≠ a := ne_of_lt hpa
  have hnot : ∀ q, a ∉ children q := by
    intro q hq
    rw [h.parent_of_mem hq] at ha
    cases ha
  refine ⟨fun {q c} hc => ?_, fun {q c} hq => ?_, fun q => ?_, fun {q c} hq => ?_⟩
  · by_cases hqp : q = p
    · subst hqp
      rw [Function.update_self] at hc
      rcases List.mem_append.mp hc with hold | hnew
      · have hca : c ≠ a := by
          rintro rfl
          exact hnot q hold
        rw [Function.update_of_ne hca]
        exact h.parent_of_mem hold
      · rw [List.mem_singleton.mp hnew, Function.update_self]
    · rw [Function.update_of_ne hqp] at hc
      have hca : c ≠ a := by
        rintro rfl
        exact hnot q hc
      rw [Function.update_of_ne hca]
      exact h.parent_of_mem hc
  · by_cases hca : c = a
    · subst hca
      rw [Function.update_self] at hq
      rw [← Option.some.inj hq, Function.update_self]
      exact List.mem_append_right _ (List.mem_singleton_self _)
    · rw [Function.update_of_ne hca] at hq
      have hmem := h.mem_children hq
      by_cases hqp : q = p
      · subst hqp
        rw [Function.update_self]
        exact List.mem_append_left _ hmem
      · rwa [Function.update_of_ne hqp]
  · by_cases hqp : q = p
    · subst hqp
      rw [Function.update_self, List.nodup_append]
      refine ⟨h.nodup q, List.nodup_singleton a, fun x hx y hy hxy => ?_⟩
      rw [List.mem_singleton.mp hy] at hxy
      exact hnot q (hxy ▸ hx)
    · rw [Function.update_of_ne hqp]
      exact h.nodup q
  · by_cases hca : c = a
    · subst hca
      rw [Function.update_self] at hq
      rw [← Option.some.inj hq]
      exact hpa
    · rw [Function.update_of_ne hca] at hq
      exact h.older hq

/-- One item is removed; its children are left without a parent. -/
theorem removeItem (h : Forest parent children) {a : α} (hself : parent' a = none)
    (hnone : children' a = [])
    (hparent : ∀ c, c ≠ a → parent' c = if c ∈ children a then none else parent c)
    (hchildren : ∀ p, p ≠ a →
      children' p = if parent a = some p then (children p).erase a else children p) :
    Forest parent' children' := by
  -- the parent of an item that still has one is not the item that was removed
  have hold : ∀ {c p}, parent' c = some p → c ≠ a ∧ p ≠ a ∧ parent c = some p := by
    intro c p hp
    have hca : c ≠ a := by
      rintro rfl
      rw [hself] at hp
      cases hp
    rw [hparent c hca] at hp
    split at hp
    · cases hp
    · rename_i hnot
      refine ⟨hca, ?_, hp⟩
      rintro rfl
      exact hnot (h.mem_children hp)
  have hmem : ∀ {p c}, p ≠ a → (c ∈ children' p ↔ c ≠ a ∧ c ∈ children p) := by
    intro p c hpa
    rw [hchildren p hpa]
    split
    · exact (h.nodup p).mem_erase_iff
    · rename_i hnot
      refine ⟨fun hc => ⟨?_, hc⟩, And.right⟩
      rintro rfl
      exact hnot (h.parent_of_mem hc)
  refine ⟨fun {p c} hc => ?_, fun hp => ?_, fun p => ?_, fun hp => h.older (hold hp).2.2⟩
  · have hpa : p ≠ a := by
      rintro rfl
      rw [hnone] at hc
      cases hc
    obtain ⟨hca, hc⟩ := (hmem hpa).mp hc
    have hp := h.parent_of_mem hc
    rw [hparent c hca, if_neg]
    · exact hp
    · intro hca'
      rw [h.parent_of_mem hca'] at hp
      exact hpa (Option.some.inj hp).symm
  · obtain ⟨hca, hpa, hp⟩ := hold hp
    exact (hmem hpa).mpr ⟨hca, h.mem_children hp⟩
  · by_cases hpa : p = a
    · rw [hpa, hnone]
      exact List.nodup_nil
    · rw [hchildren p hpa]
      split
      · exact (h.nodup p).erase a
      · exact h.nodup p

end Forest

end Verse.Lib
