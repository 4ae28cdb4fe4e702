import Mathlib.Data.List.Basic
import Mathlib.Data.List.Nodup
import Mathlib.Logic.Function.Basic
import Mathlib.Tactic.Common

/-!
# A list that is also kept in chains

A list without duplicates is kept a second time, split into chains: the chain of
an index holds the elements with this index, in the order of the list.  Looking
for an element in the chain of its index is then the same as looking for it in
the whole list.
-/

namespace Verse.Lib

variable {α β : Type*} [DecidableEq β]

/-- `chains` is `l` split by `index`. -/
def SplitBy (index : α → β) (l : List α) (chains : β → List α) : Prop :=
  ∀ b, chains b = l.filter fun a => index a = b

variable {index : α → β} {l : List α} {chains : β → List α}

/-- An element is found in its chain as it is found in the list. -/
theorem SplitBy.find? (h : SplitBy index l chains) {b : β} {p : α → Bool}
    (hp : ∀ a ∈ l, p a = true → index a = b) : (chains b).find? p = l.find? p := by
  rw [h b, List.find?_filter]
  clear h
  induction l with
  | nil => rfl
  | cons a rest ih =>
      have hrest := ih fun c hc => hp c (by simp [hc])
      cases hpa : p a with
      | false => simpa [List.find?_cons, hpa] using hrest
      | true =>
          have hidx := hp a (by simp) hpa
          simp [hpa, hidx]

theorem SplitBy.append (h : SplitBy index l chains) (a : α) :
    SplitBy index (l ++ [a]) (Function.update chains (index a) (chains (index a) ++ [a])) := by
  intro b
  by_cases hb : b = index a
  · subst hb
    simp [h (index a)]
  · have hne : ¬ index a = b := fun h => hb h.symm
    simp [hb, hne, h b]

theorem SplitBy.erase [BEq α] [LawfulBEq α] (h : SplitBy index l chains) (hnodup : l.Nodup) (a : α) :
    SplitBy index (l.erase a) (Function.update chains (index a) ((chains (index a)).erase a)) := by
  intro b
  rw [hnodup.erase_eq_filter, List.filter_filter]
  by_cases hb : b = index a
  · subst hb
    have hchain : (l.filter fun c => decide (index c = index a)).Nodup := hnodup.filter _
    rw [Function.update_self, h (index a), hchain.erase_eq_filter, List.filter_filter]
    apply List.filter_congr
    intro c _
    exact Bool.and_comm _ _
  · rw [Function.update_of_ne hb, h b]
    apply List.filter_congr
    intro c _
    by_cases hc : c = a
    · subst hc
      simp [Ne.symm hb]
    · simp [hc]

/-- The chains depend on the indices of the elements in the list only. -/
theorem SplitBy.congr (h : SplitBy index l chains) {index' : α → β}
    (heq : ∀ a ∈ l, index' a = index a) : SplitBy index' l chains := by
  intro b
  rw [h b]
  apply List.filter_congr
  intro a ha
  rw [heq a ha]

end Verse.Lib
