import Mathlib.Algebra.Group.Nat.Defs
import Mathlib.Data.List.Basic
import Mathlib.Data.List.Infix
import Mathlib.Tactic.Common

/-!
# Intervals written by their marks

A list of marked starting points stands for a marked interval: every point has
the mark of the last starting point at or before it.  `spans entries stop` lists
the points up to `stop` (which is left out) with their marks.
-/

namespace Verse.Lib

variable {α : Type*}

/-- The points from `start` on and before `stop`, all with the mark `a`. -/
def span (a : α) (start stop : ℕ) : List (α × ℕ) :=
  (List.range' start (stop - start)).map (Prod.mk a)

/-- The marked points of an interval that ends before `stop`. -/
def spans : List (α × ℕ) → ℕ → List (α × ℕ)
  | [], _ => []
  | [entry], stop => span entry.1 entry.2 stop
  | entry :: next :: rest, stop => span entry.1 entry.2 next.2 ++ spans (next :: rest) stop

@[simp] theorem spans_nil (stop : ℕ) : spans ([] : List (α × ℕ)) stop = [] := rfl

@[simp] theorem spans_singleton (entry : α × ℕ) (stop : ℕ) :
    spans [entry] stop = span entry.1 entry.2 stop := rfl

theorem spans_cons_cons (entry next : α × ℕ) (rest : List (α × ℕ)) (stop : ℕ) :
    spans (entry :: next :: rest) stop =
      span entry.1 entry.2 next.2 ++ spans (next :: rest) stop := rfl

/-- Cutting the list of entries cuts the interval. -/
theorem spans_append (before : List (α × ℕ)) (entry : α × ℕ) (after : List (α × ℕ)) (stop : ℕ) :
    spans (before ++ entry :: after) stop = spans before entry.2 ++ spans (entry :: after) stop := by
  induction before with
  | nil => rfl
  | cons first rest ih =>
      cases rest with
      | nil => rfl
      | cons second rest =>
          rw [List.cons_append, List.cons_append, spans_cons_cons, ← List.cons_append, ih,
            spans_cons_cons, List.append_assoc]

@[simp] theorem span_self (a : α) (n : ℕ) : span a n n = [] := by simp [span]

theorem span_succ_self (a : α) (n : ℕ) : span a n (n + 1) = [(a, n)] := by simp [span]

/-- Two adjoining intervals with the same mark are one. -/
theorem span_append_span (a : α) {start mid stop : ℕ} (h1 : start ≤ mid) (h2 : mid ≤ stop) :
    span a start mid ++ span a mid stop = span a start stop := by
  have hmid : start + (mid - start) = mid := by omega
  have hlen : mid - start + (stop - mid) = stop - start := by omega
  rw [span, span, span, ← List.map_append, ← hlen, ← List.range'_append_1, hmid]

theorem mem_span {a b : α} {start stop n : ℕ} :
    (b, n) ∈ span a start stop ↔ b = a ∧ start ≤ n ∧ n < stop := by
  simp only [span, List.mem_map, List.mem_range'_1, Prod.mk.injEq]
  constructor
  · rintro ⟨m, ⟨h1, h2⟩, rfl, rfl⟩
    exact ⟨rfl, h1, by omega⟩
  · rintro ⟨rfl, h1, h2⟩
    exact ⟨n, ⟨h1, by omega⟩, rfl, rfl⟩

/-- Starting an interval later leaves out its first points. -/
theorem span_suffix (a : α) {start mid stop : ℕ} (h1 : start ≤ mid) (h2 : mid ≤ stop) :
    span a mid stop <:+ span a start stop :=
  ⟨span a start mid, span_append_span a h1 h2⟩

end Verse.Lib
