import Mathlib.Data.List.Basic
import Mathlib.Data.List.Nodup
import Mathlib.Tactic.Common

/-!
# Two way linked lists

Items with a link to the next and to the previous item, and a list that is given by its first
and its last item.  `Leads` follows links of one kind, and a list is whole (`TwoWay.Holds`) if
the links forward give a sequence and the links backward give the same sequence turned round.

What an operation does to the links is described item by item (`Inserted`, `Removed`), in
whatever order it writes them.  The links backward are the links forward of the list turned
round, so each lemma on `Leads` is used for both.
-/

namespace Verse.Lib

variable {α : Type*}

/-! ## Links of one kind -/

/-- The links lead from `p` over the items of the list and end there. -/
def Leads (link : α → Option α) : Option α → List α → Prop
  | p, [] => p = none
  | p, a :: rest => p = some a ∧ Leads link (link a) rest

theorem Leads.head {link : α → Option α} {p : Option α} {l : List α} (h : Leads link p l) :
    p = l.head? := by
  cases l with
  | nil => exact h
  | cons a rest => exact h.1

theorem Leads.link_eq {link : α → Option α} {p : Option α} {xs ys : List α} {a : α}
    (h : Leads link p (xs ++ a :: ys)) : link a = ys.head? := by
  induction xs generalizing p with
  | nil => exact h.2.head
  | cons x rest ih => exact ih h.2

theorem Leads.congr {link link' : α → Option α} {p : Option α} {l : List α} (h : Leads link p l)
    (hsame : ∀ a ∈ l, link' a = link a) : Leads link' p l := by
  induction l generalizing p with
  | nil => exact h
  | cons a rest ih =>
      refine ⟨h.1, ?_⟩
      rw [hsame a (by simp)]
      exact ih h.2 fun b hb => hsame b (List.mem_cons_of_mem _ hb)

/-- The last of the first items is the one before only if nothing follows it. -/
private theorem getLast?_cons_eq_head {x : α} {xs : List α} (hx : x ∉ xs) :
    (x :: xs).getLast? = some x ↔ xs = [] := by
  cases xs with
  | nil => simp
  | cons y rest =>
      rw [List.getLast?_cons_cons]
      refine ⟨fun h => absurd (List.mem_of_getLast? h) hx, fun h => by cases h⟩

private theorem getLast?_cons_eq_some {x a : α} {xs : List α} (hne : x ≠ a) :
    (x :: xs).getLast? = some a ↔ xs.getLast? = some a := by
  cases xs with
  | nil => simp [hne]
  | cons y rest => rw [List.getLast?_cons_cons]

section Surgery

variable [DecidableEq α] {link link' : α → Option α}

/-- A new item between the first and the other items: the link that led to the others leads to
it, and its own link leads to the others. -/
theorem Leads.insert {xs ys : List α} {b : α} {p : Option α} (h : Leads link p (xs ++ ys))
    (hnodup : (xs ++ ys).Nodup) (hb : link' b = ys.head?)
    (hlink : ∀ a ∈ xs ++ ys, link' a = if xs.getLast? = some a then some b else link a) :
    Leads link' (if xs = [] then some b else p) (xs ++ b :: ys) := by
  induction xs generalizing p with
  | nil =>
      refine ⟨by simp, ?_⟩
      have hys : Leads link p ys := h
      rw [hb, ← hys.head]
      exact hys.congr fun a ha => by simpa using hlink a ha
  | cons x rest ih =>
      have hx : x ∉ rest ++ ys := (List.nodup_cons.mp hnodup).1
      have hrest := ih h.2 (List.nodup_cons.mp hnodup).2 fun a ha => by
        have hne : x ≠ a := fun heq => hx (heq ▸ ha)
        rw [hlink a (List.mem_cons_of_mem _ ha)]
        simp only [getLast?_cons_eq_some hne]
      refine ⟨by simpa using h.1, ?_⟩
      have hlast := getLast?_cons_eq_head (fun hmem => hx (List.mem_append_left ys hmem))
      rw [hlink x (by simp)]
      simp only [hlast]
      exact hrest

/-- An item is taken out: the link that led to it leads to where its own link leads. -/
theorem Leads.remove {xs ys : List α} {b : α} {p : Option α} (h : Leads link p (xs ++ b :: ys))
    (hnodup : (xs ++ b :: ys).Nodup)
    (hlink : ∀ a ∈ xs ++ ys, link' a = if xs.getLast? = some a then ys.head? else link a) :
    Leads link' (if xs = [] then ys.head? else p) (xs ++ ys) := by
  induction xs generalizing p with
  | nil =>
      have hys : Leads link (link b) ys := h.2
      rw [if_pos rfl, ← hys.head]
      exact hys.congr fun a ha => by simpa using hlink a ha
  | cons x rest ih =>
      have hx : x ∉ rest ++ b :: ys := (List.nodup_cons.mp hnodup).1
      have hrest := ih h.2 (List.nodup_cons.mp hnodup).2 fun a ha => by
        have hne : x ≠ a := by
          rintro rfl
          rcases List.mem_append.mp ha with hmem | hmem
          · exact hx (List.mem_append_left _ hmem)
          · exact hx (List.mem_append_right _ (List.mem_cons_of_mem _ hmem))
        rw [hlink a (List.mem_cons_of_mem _ ha)]
        simp only [getLast?_cons_eq_some hne]
      refine ⟨by simpa using h.1, ?_⟩
      have hlast := getLast?_cons_eq_head (fun hmem => hx (List.mem_append_left _ hmem))
      rw [hlink x (by simp)]
      simp only [hlast]
      exact hrest

end Surgery

/-! ## Lists -/

/-- One list, and the links of all items there are. -/
structure TwoWay (α : Type*) where
  next : α → Option α
  prev : α → Option α
  first : Option α
  last : Option α

/-- The links forward from the first item and backward from the last one give the sequence. -/
structure TwoWay.Holds (t : TwoWay α) (l : List α) : Prop where
  forward : Leads t.next t.first l
  backward : Leads t.prev t.last l.reverse

/-- Other items and their links do not matter. -/
theorem TwoWay.Holds.congr {t t' : TwoWay α} {l : List α} (h : t.Holds l)
    (hfirst : t'.first = t.first) (hlast : t'.last = t.last) (hnext : ∀ a ∈ l, t'.next a = t.next a)
    (hprev : ∀ a ∈ l, t'.prev a = t.prev a) : t'.Holds l where
  forward := hfirst ▸ h.forward.congr hnext
  backward := hlast ▸ h.backward.congr fun a ha => hprev a (List.mem_reverse.mp ha)

theorem TwoWay.Holds.first_eq {t : TwoWay α} {l : List α} (h : t.Holds l) : t.first = l.head? :=
  h.forward.head

theorem TwoWay.Holds.last_eq {t : TwoWay α} {l : List α} (h : t.Holds l) : t.last = l.getLast? := by
  rw [h.backward.head, List.head?_reverse]

theorem TwoWay.Holds.next_eq {t : TwoWay α} {xs ys : List α} {a : α} (h : t.Holds (xs ++ a :: ys)) :
    t.next a = ys.head? :=
  h.forward.link_eq

theorem TwoWay.Holds.prev_eq {t : TwoWay α} {xs ys : List α} {a : α} (h : t.Holds (xs ++ a :: ys)) :
    t.prev a = xs.getLast? := by
  have hback : Leads t.prev t.last (ys.reverse ++ a :: xs.reverse) := by
    simpa using h.backward
  rw [hback.link_eq, List.head?_reverse]

theorem TwoWay.Holds.first_eq_none_iff {t : TwoWay α} {l : List α} (h : t.Holds l) :
    t.first = none ↔ l = [] := by
  rw [h.first_eq, List.head?_eq_none_iff]

theorem TwoWay.Holds.last_eq_none_iff {t : TwoWay α} {l : List α} (h : t.Holds l) :
    t.last = none ↔ l = [] := by
  rw [h.last_eq, List.getLast?_eq_none_iff]

/-- An item is the first one if nothing stands before it. -/
theorem TwoWay.Holds.first_eq_some_iff {t : TwoWay α} {xs ys : List α} {a : α}
    (h : t.Holds (xs ++ a :: ys)) (ha : a ∉ xs) : t.first = some a ↔ xs = [] := by
  rw [h.first_eq]
  cases xs with
  | nil => simp
  | cons x rest =>
      have hne : x ≠ a := fun heq => ha (by simp [heq])
      simp [hne]

/-- An item is the last one if nothing follows it. -/
theorem TwoWay.Holds.last_eq_some_iff {t : TwoWay α} {xs ys : List α} {a : α}
    (h : t.Holds (xs ++ a :: ys)) (ha : a ∉ ys) : t.last = some a ↔ ys = [] := by
  rw [h.last_eq, List.getLast?_append, Option.or_of_isSome (by simp)]
  exact getLast?_cons_eq_head ha

section Operations

variable [DecidableEq α] {t t' : TwoWay α} {xs ys : List α} {b : α}

/-- `b` is put between `xs` and `ys`. -/
structure TwoWay.Inserted (t t' : TwoWay α) (xs : List α) (b : α) (ys : List α) : Prop where
  next_new : t'.next b = ys.head?
  prev_new : t'.prev b = xs.getLast?
  next_old : ∀ a, a ≠ b → t'.next a = if xs.getLast? = some a then some b else t.next a
  prev_old : ∀ a, a ≠ b → t'.prev a = if ys.head? = some a then some b else t.prev a
  first : t'.first = if xs = [] then some b else t.first
  last : t'.last = if ys = [] then some b else t.last

/-- `b` is taken from between `xs` and `ys`. -/
structure TwoWay.Removed (t t' : TwoWay α) (xs ys : List α) : Prop where
  next : ∀ a, t'.next a = if xs.getLast? = some a then ys.head? else t.next a
  prev : ∀ a, t'.prev a = if ys.head? = some a then xs.getLast? else t.prev a
  first : t'.first = if xs = [] then ys.head? else t.first
  last : t'.last = if ys = [] then xs.getLast? else t.last

theorem TwoWay.Holds.insert (h : t.Holds (xs ++ ys)) (hnodup : (xs ++ ys).Nodup)
    (hb : b ∉ xs ++ ys) (hins : t.Inserted t' xs b ys) : t'.Holds (xs ++ b :: ys) where
  forward := by
    have hnext : ∀ a ∈ xs ++ ys, t'.next a = if xs.getLast? = some a then some b else t.next a :=
      fun a ha => hins.next_old a fun heq => hb (heq ▸ ha)
    rw [hins.first]
    exact h.forward.insert hnodup hins.next_new hnext
  backward := by
    -- the same on the list turned round
    have hback : Leads t.prev t.last (ys.reverse ++ xs.reverse) := by
      simpa using h.backward
    have hturned : (ys.reverse ++ xs.reverse).Nodup := by
      rw [← List.reverse_append]
      exact List.nodup_reverse.mpr hnodup
    have hprev : ∀ a ∈ ys.reverse ++ xs.reverse,
        t'.prev a = if ys.reverse.getLast? = some a then some b else t.prev a := by
      intro a ha
      rw [List.getLast?_reverse]
      exact hins.prev_old a fun heq => hb (heq ▸ by simpa [or_comm] using ha)
    have hnew : t'.prev b = xs.reverse.head? := by
      rw [hins.prev_new, List.head?_reverse]
    have hall := hback.insert hturned hnew hprev
    rw [hins.last]
    simpa using hall

theorem TwoWay.Holds.remove (h : t.Holds (xs ++ b :: ys)) (hnodup : (xs ++ b :: ys).Nodup)
    (hrem : t.Removed t' xs ys) : t'.Holds (xs ++ ys) where
  forward := by
    rw [hrem.first]
    exact h.forward.remove hnodup fun a _ => hrem.next a
  backward := by
    have hback : Leads t.prev t.last (ys.reverse ++ b :: xs.reverse) := by
      simpa using h.backward
    have hturned : (ys.reverse ++ b :: xs.reverse).Nodup := by
      have hall := List.nodup_reverse.mpr hnodup
      simpa using hall
    have hprev : ∀ a ∈ ys.reverse ++ xs.reverse,
        t'.prev a = if ys.reverse.getLast? = some a then xs.reverse.head? else t.prev a := by
      intro a _
      rw [List.getLast?_reverse, List.head?_reverse]
      exact hrem.prev a
    have hall := hback.remove hturned hprev
    rw [hrem.last]
    simpa using hall

/-- A list that shares no item with the one that was changed keeps its links. -/
theorem TwoWay.Inserted.frame {u u' : TwoWay α} {l : List α} (hins : t.Inserted t' xs b ys)
    (hu : u.Holds l) (hends : u'.first = u.first ∧ u'.last = u.last)
    (hlinks : u.next = t.next ∧ u.prev = t.prev) (hlinks' : u'.next = t'.next ∧ u'.prev = t'.prev)
    (hb : b ∉ l) (hapart : ∀ a ∈ l, a ∉ xs ++ ys) : u'.Holds l := by
  refine hu.congr hends.1 hends.2 (fun a ha => ?_) fun a ha => ?_
  · have hne : ¬ xs.getLast? = some a := fun hlast =>
      hapart a ha (List.mem_append_left _ (List.mem_of_getLast? hlast))
    rw [hlinks'.1, hins.next_old a (fun heq => hb (heq ▸ ha)), if_neg hne, hlinks.1]
  · have hne : ¬ ys.head? = some a := fun hhead =>
      hapart a ha (List.mem_append_right _ (List.mem_of_head? hhead))
    rw [hlinks'.2, hins.prev_old a (fun heq => hb (heq ▸ ha)), if_neg hne, hlinks.2]

theorem TwoWay.Removed.frame {u u' : TwoWay α} {l : List α} (hrem : t.Removed t' xs ys)
    (hu : u.Holds l) (hends : u'.first = u.first ∧ u'.last = u.last)
    (hlinks : u.next = t.next ∧ u.prev = t.prev) (hlinks' : u'.next = t'.next ∧ u'.prev = t'.prev)
    (hapart : ∀ a ∈ l, a ∉ xs ++ ys) : u'.Holds l := by
  refine hu.congr hends.1 hends.2 (fun a ha => ?_) fun a ha => ?_
  · have hne : ¬ xs.getLast? = some a := fun hlast =>
      hapart a ha (List.mem_append_left _ (List.mem_of_getLast? hlast))
    rw [hlinks'.1, hrem.next a, if_neg hne, hlinks.1]
  · have hne : ¬ ys.head? = some a := fun hhead =>
      hapart a ha (List.mem_append_right _ (List.mem_of_head? hhead))
    rw [hlinks'.2, hrem.prev a, if_neg hne, hlinks.2]

end Operations

end Verse.Lib
