import Mathlib.Data.List.Basic
import Mathlib.Data.List.Nodup
import Mathlib.Logic.Function.Basic
import Mathlib.Tactic.Common

/-!
# Linked cells

Cells in memory that hold a value and point to the next cell.  `Linked` says that the
cells of a list, each a pointer and a value, point from one to the next and end.  The walks
along the cells are those a program makes: to the first value that passes a test, with the
cell before it, and to the last cell.
-/

namespace Verse.Lib

variable {α β : Type*}

/-- A cell: its value and a pointer to the next cell. -/
structure Cell (α β : Type*) where
  value : Option β
  next : Option α

/-- Memory for cells; `none` is what was never allocated or was freed. -/
abbrev Cells (α β : Type*) := α → Option (Cell α β)

/-- The pointer to the first cell of a list. -/
def headPtr (l : List (α × β)) : Option α := l.head?.map Prod.fst

/-- The cells of the list have its values and point from one to the next. -/
def Linked (cells : Cells α β) : List (α × β) → Prop
  | [] => True
  | (p, v) :: rest => cells p = some ⟨some v, headPtr rest⟩ ∧ Linked cells rest

/-- The value can be reached from the cell. -/
inductive Reaches (cells : Cells α β) (v : β) : α → Prop where
  | here {p : α} {next : Option α} (hcell : cells p = some ⟨some v, next⟩) : Reaches cells v p
  | next {p q : α} {w : Option β} (hcell : cells p = some ⟨w, some q⟩) (hrest : Reaches cells v q) :
      Reaches cells v p

theorem Linked.congr {cells cells' : Cells α β} {l : List (α × β)} (h : Linked cells l)
    (hsame : ∀ c ∈ l, cells' c.1 = cells c.1) : Linked cells' l := by
  induction l with
  | nil => exact trivial
  | cons c rest ih =>
      obtain ⟨p, v⟩ := c
      exact ⟨(hsame (p, v) (by simp)).trans h.1, ih h.2 fun c hc => hsame c (by simp [hc])⟩

theorem Linked.append_right {cells : Cells α β} {xs ys : List (α × β)} (h : Linked cells (xs ++ ys)) :
    Linked cells ys := by
  induction xs with
  | nil => exact h
  | cons c rest ih => exact ih h.2

/-- All values of the list are reached from its first cell. -/
theorem Linked.reaches {cells : Cells α β} {l : List (α × β)} (h : Linked cells l) {p : α}
    (hp : headPtr l = some p) {v : β} (hv : v ∈ l.map Prod.snd) : Reaches cells v p := by
  induction l generalizing p with
  | nil => cases hp
  | cons c rest ih =>
      obtain ⟨q, w⟩ := c
      obtain rfl := Option.some.inj hp
      rcases List.mem_cons.mp hv with rfl | hv
      · exact .here h.1
      · cases rest with
        | nil => cases hv
        | cons c rest => exact .next h.1 (ih h.2 rfl hv)

/-! ## Walks -/

/-- The walk to the first value that passes the test, with the cell before it.  The outer
`none` is a cell without a value, memory that is no cell, or a test that fails. -/
def walk (cells : Cells α β) (test : β → Option Bool) :
    ℕ → Option α → α → Option (Option (Option α × α × β))
  | 0, _, _ => none
  | fuel + 1, prev, p =>
      (cells p).bind fun cell =>
        cell.value.bind fun v =>
          (test v).bind fun hit =>
            if hit then some (some (prev, p, v))
            else
              match cell.next with
              | none => some none
              | some q => walk cells test fuel (some p) q

/-- The walk to the last cell. -/
def walkEnd (cells : Cells α β) : ℕ → α → Option α
  | 0, _ => none
  | fuel + 1, p =>
      (cells p).bind fun cell =>
        match cell.next with
        | none => some p
        | some q => walkEnd cells fuel q

/-- No value passes the test. -/
theorem walk_none {cells : Cells α β} {test : β → Option Bool} {p : α} {v : β} {rest : List (α × β)}
    {fuel : ℕ} (h : Linked cells ((p, v) :: rest)) (hfuel : rest.length < fuel)
    (htest : ∀ c ∈ (p, v) :: rest, test c.2 = some false) (prev : Option α) :
    walk cells test fuel prev p = some none := by
  induction rest generalizing p v fuel prev with
  | nil =>
      obtain ⟨fuel, rfl⟩ : ∃ n, fuel = n + 1 := ⟨fuel - 1, by simp only [List.length_nil] at hfuel; omega⟩
      have hv : test v = some false := htest (p, v) (by simp)
      rw [walk, h.1, Option.bind_some, Option.bind_some, hv, Option.bind_some, if_neg Bool.false_ne_true]
      rfl
  | cons c rest ih =>
      obtain ⟨q, w⟩ := c
      obtain ⟨fuel, rfl⟩ : ∃ n, fuel = n + 1 := ⟨fuel - 1, by simp only [List.length_cons] at hfuel; omega⟩
      have hv : test v = some false := htest (p, v) (by simp)
      rw [walk, h.1, Option.bind_some, Option.bind_some, hv, Option.bind_some, if_neg Bool.false_ne_true]
      exact ih h.2 (by simpa using hfuel) (fun c hc => htest c (List.mem_cons_of_mem _ hc)) (some p)

/-- The first value that passes the test. -/
theorem walk_some {cells : Cells α β} {test : β → Option Bool} {p q : α} {w : β}
    {xs ys : List (α × β)} {fuel : ℕ} (h : Linked cells (xs ++ (q, w) :: ys))
    (hfuel : xs.length < fuel) (htest : ∀ c ∈ xs, test c.2 = some false) (hhit : test w = some true)
    (hp : headPtr (xs ++ (q, w) :: ys) = some p) (prev : Option α) :
    walk cells test fuel prev p =
      some (some ((xs.getLast?.map Prod.fst).or prev, q, w)) := by
  induction xs generalizing p fuel prev with
  | nil =>
      obtain ⟨fuel, rfl⟩ : ∃ n, fuel = n + 1 := ⟨fuel - 1, by simp only [List.length_nil] at hfuel; omega⟩
      obtain rfl := Option.some.inj hp
      rw [walk, h.1, Option.bind_some, Option.bind_some, hhit, Option.bind_some, if_pos rfl]
      rfl
  | cons c rest ih =>
      obtain ⟨r, u⟩ := c
      obtain ⟨fuel, rfl⟩ : ∃ n, fuel = n + 1 := ⟨fuel - 1, by simp only [List.length_cons] at hfuel; omega⟩
      obtain rfl := Option.some.inj hp
      have hu : test u = some false := htest (r, u) (by simp)
      have hnext : ∃ q', headPtr (rest ++ (q, w) :: ys) = some q' := by
        cases rest with
        | nil => exact ⟨q, rfl⟩
        | cons c rest => exact ⟨c.1, rfl⟩
      obtain ⟨q', hq'⟩ := hnext
      have hcell : cells r = some ⟨some u, headPtr (rest ++ (q, w) :: ys)⟩ := h.1
      rw [hq'] at hcell
      rw [walk, hcell, Option.bind_some, Option.bind_some, hu, Option.bind_some,
        if_neg Bool.false_ne_true]
      simp only
      rw [ih h.2 (by simpa using hfuel) (fun c hc => htest c (by simp [hc])) hq' (some r)]
      cases rest with
      | nil => rfl
      | cons c rest =>
          rw [List.getLast?_cons_cons]
          cases hlast : (c :: rest).getLast? with
          | none => simp at hlast
          | some last => rfl

theorem walkEnd_eq {cells : Cells α β} {xs : List (α × β)} {p q : α} {w : β} {fuel : ℕ}
    (h : Linked cells (xs ++ [(q, w)])) (hfuel : xs.length < fuel)
    (hp : headPtr (xs ++ [(q, w)]) = some p) : walkEnd cells fuel p = some q := by
  induction xs generalizing p fuel with
  | nil =>
      obtain ⟨fuel, rfl⟩ : ∃ n, fuel = n + 1 := ⟨fuel - 1, by simp only [List.length_nil] at hfuel; omega⟩
      obtain rfl := Option.some.inj hp
      rw [walkEnd, h.1]
      rfl
  | cons c rest ih =>
      obtain ⟨r, u⟩ := c
      obtain ⟨fuel, rfl⟩ : ∃ n, fuel = n + 1 := ⟨fuel - 1, by simp only [List.length_cons] at hfuel; omega⟩
      obtain rfl := Option.some.inj hp
      have hnext : ∃ q', headPtr (rest ++ [(q, w)]) = some q' := by
        cases rest with
        | nil => exact ⟨q, rfl⟩
        | cons c rest => exact ⟨c.1, rfl⟩
      obtain ⟨q', hq'⟩ := hnext
      have hcell : cells r = some ⟨some u, headPtr (rest ++ [(q, w)])⟩ := h.1
      rw [hq'] at hcell
      rw [walkEnd, hcell, Option.bind_some]
      exact ih h.2 (by simpa using hfuel) hq'

/-! ## Changes -/

section Changes

variable [DecidableEq α] {cells : Cells α β}

/-- Another cell that is not in the list. -/
theorem Linked.update {l : List (α × β)} (h : Linked cells l) {p : α} (hp : p ∉ l.map Prod.fst)
    (c : Option (Cell α β)) : Linked (Function.update cells p c) l := by
  refine h.congr fun d hd => Function.update_of_ne ?_ _ _
  rintro rfl
  exact hp (List.mem_map_of_mem hd)

/-- The last cell of the first part points to another second part. -/
theorem Linked.relink {xs ys ys' : List (α × β)} {p : α} {v : β}
    (h : Linked cells (xs ++ (p, v) :: ys)) (hp : p ∉ (xs ++ ys').map Prod.fst)
    (hys : Linked cells ys') :
    Linked (Function.update cells p (some ⟨some v, headPtr ys'⟩)) (xs ++ (p, v) :: ys') := by
  induction xs with
  | nil =>
      refine ⟨Function.update_self _ _ _, hys.update ?_ _⟩
      simpa using hp
  | cons c rest ih =>
      obtain ⟨r, u⟩ := c
      have hne : r ≠ p := by
        rintro rfl
        exact hp (by simp)
      refine ⟨?_, ih h.2 fun hmem => hp (by simpa using Or.inr (by simpa using hmem))⟩
      rw [Function.update_of_ne hne, h.1]
      cases rest <;> rfl

end Changes

end Verse.Lib
