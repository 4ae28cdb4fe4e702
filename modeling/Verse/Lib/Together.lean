import Mathlib.Data.List.Infix
import Mathlib.Tactic.Common

/-!
# Elements that stand together

The elements of a list that have a property stand together when no other element is between
them.  A list grows at both ends and loses elements anywhere: a new element with the property
has to stand next to one that has it, and all other elements may come and go.
-/

namespace Verse.Lib

variable {α : Type*} {p q : α → Bool} {l : List α} {a b : α}

/-- The elements with `p` are a piece of the list. -/
def Together (p : α → Bool) (l : List α) : Prop := l.filter p <:+: l

theorem Together.congr (h : Together p l) (hpq : ∀ a ∈ l, p a = q a) : Together q l := by
  have hfilter : l.filter q = l.filter p := List.filter_congr fun a ha => (hpq a ha).symm
  rw [Together, hfilter]
  exact h

theorem Together.reverse (h : Together p l) : Together p l.reverse := by
  rw [Together, List.filter_reverse]
  exact List.reverse_infix.mpr h

theorem together_of_filter_eq_nil (h : l.filter p = []) : Together p l := by
  rw [Together, h]
  exact List.nil_infix

/-- An element alone stands together. -/
theorem together_of_filter_eq_singleton (h : l.filter p = [a]) : Together p l := by
  have hmem : a ∈ l := List.mem_of_mem_filter (h ▸ List.mem_singleton_self a)
  obtain ⟨before, after, rfl⟩ := List.append_of_mem hmem
  rw [Together, h]
  exact ⟨before, after, by simp⟩

/-! ## Growing -/

theorem Together.cons_of_neg (h : Together p l) (ha : p a = false) : Together p (a :: l) := by
  rw [Together, List.filter_cons_of_neg (by simp [ha])]
  exact h.trans (List.suffix_cons a l).isInfix

/-- The elements with `p` are a prefix of a list that starts with one of them. -/
theorem Together.isPrefix (h : Together p l) (hhead : l.head? = some b) (hb : p b = true) :
    l.filter p <+: l := by
  obtain ⟨before, after, hsplit⟩ := h
  cases before with
  | nil => exact ⟨after, hsplit⟩
  | cons c before =>
      obtain rfl : c = b := by
        rw [← hsplit] at hhead
        exact Option.some.inj hhead
      -- the first element with `p` would be counted twice
      have hcount := congrArg (List.countP p) hsplit
      have hpos : 0 < List.countP p (c :: before) := List.countP_pos_iff.mpr ⟨c, by simp, hb⟩
      have hself : List.countP p (l.filter p) = List.countP p l := by simp [List.countP_filter]
      rw [List.countP_append, List.countP_append, hself] at hcount
      omega

theorem Together.cons_of_head (h : Together p l) (hhead : l.head? = some b) (hb : p b = true)
    (ha : p a = true) : Together p (a :: l) := by
  rw [Together, List.filter_cons_of_pos ha]
  exact (List.cons_prefix_cons.mpr ⟨rfl, h.isPrefix hhead hb⟩).isInfix

theorem Together.concat_of_neg (h : Together p l) (ha : p a = false) : Together p (l ++ [a]) := by
  have hrev := (h.reverse.cons_of_neg ha).reverse
  rwa [List.reverse_cons, List.reverse_reverse] at hrev

theorem Together.concat_of_last (h : Together p l) (hlast : l.getLast? = some b) (hb : p b = true)
    (ha : p a = true) : Together p (l ++ [a]) := by
  have hhead : l.reverse.head? = some b := by rw [List.head?_reverse, hlast]
  have hrev := (h.reverse.cons_of_head hhead hb ha).reverse
  rwa [List.reverse_cons, List.reverse_reverse] at hrev

/-! ## Losing elements -/

variable [DecidableEq α]

/-- An element without `p` is not missed. -/
theorem filter_erase_of_neg (ha : p a = false) (l : List α) : (l.erase a).filter p = l.filter p := by
  rw [← List.erase_filter]
  exact List.erase_of_not_mem fun hmem => by simp [ha] at hmem

theorem Together.erase (h : Together p l) (ha : p a = false) : Together p (l.erase a) := by
  obtain ⟨before, after, hsplit⟩ := h
  have hnot : a ∉ l.filter p := fun hmem => by simp [ha] at hmem
  rw [Together, filter_erase_of_neg ha]
  by_cases hbefore : a ∈ before
  · refine ⟨before.erase a, after, ?_⟩
    rw [List.append_assoc, ← List.erase_append_left _ hbefore, ← List.append_assoc, hsplit]
  · refine ⟨before, after.erase a, ?_⟩
    rw [List.append_assoc, ← List.erase_append_right _ hnot, ← List.erase_append_right _ hbefore,
      ← List.append_assoc, hsplit]

end Verse.Lib
