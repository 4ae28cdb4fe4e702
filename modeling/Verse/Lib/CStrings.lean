import Mathlib.Algebra.Group.Nat.Defs
import Mathlib.Data.List.Basic
import Mathlib.Data.List.TakeWhile
import Mathlib.Tactic.Common

/-!
# Strings that end with a zero byte

A string in a buffer goes up to the first zero byte, and one stands behind the bytes of
the buffer.  `strstr` gives the first place from `p` on where a text stands, if there is no
zero byte before it.

`FirstFrom` says what a search for the first place of a property has found;
`FirstFrom.eq_some` is that it cannot have found anything else.
-/

namespace Verse.Lib

/-- The string that begins at `p`. -/
def stringFrom (mem : List UInt8) (p : ℕ) : List UInt8 := (mem.drop p).takeWhile (· ≠ 0)

/-- `strstr`; the places are counted from the begin of the buffer. -/
def strstr (mem : List UInt8) (p : ℕ) (pat : List UInt8) : Option ℕ :=
  (List.range' p ((stringFrom mem p).length + 1)).find? fun q => pat.isPrefixOf (stringFrom mem q)

/-- The text stands at `p`. -/
def StandsAt (mem pat : List UInt8) (p : ℕ) : Prop := pat <+: mem.drop p

instance (mem pat : List UInt8) (p : ℕ) : Decidable (StandsAt mem pat p) :=
  inferInstanceAs (Decidable (pat <+: mem.drop p))

/-- There is no zero byte from `p` up to `q`. -/
def Unbroken (mem : List UInt8) (p q : ℕ) : Prop := ∀ j, p ≤ j → j < q → mem.getD j 0 ≠ 0

/-- The first place from `start` on with the property, before any zero byte. -/
def FirstFrom (mem : List UInt8) (P : ℕ → Prop) (start : ℕ) : Option ℕ → Prop
  | none => ∀ q, start ≤ q → Unbroken mem start q → ¬ P q
  | some q => start ≤ q ∧ Unbroken mem start q ∧ P q ∧ ∀ j, start ≤ j → j < q → ¬ P j

section Places

variable {mem pat a b : List UInt8} {p q r : ℕ}

theorem standsAt_iff : StandsAt mem pat p ↔ ∀ i < pat.length, mem[p + i]? = pat[i]? := by
  unfold StandsAt
  rw [List.prefix_iff_getElem?]
  constructor
  · intro h i hi
    rw [← List.getElem?_drop, h i hi, List.getElem?_eq_getElem hi]
  · intro h i hi
    rw [List.getElem?_drop, h i hi, List.getElem?_eq_getElem hi]

/-- A byte of a text that stands at `p`. -/
theorem StandsAt.getD (h : StandsAt mem pat p) {i : ℕ} (hi : i < pat.length) :
    mem.getD (p + i) 0 = pat[i] := by
  rw [List.getD_eq_getElem?_getD, standsAt_iff.mp h i hi, List.getElem?_eq_getElem hi,
    Option.getD_some]

theorem StandsAt.mem_of_getD (h : StandsAt mem pat p) {j : ℕ} (hlo : p ≤ j)
    (hhi : j < p + pat.length) : mem.getD j 0 ∈ pat := by
  obtain ⟨i, rfl⟩ := Nat.exists_eq_add_of_le hlo
  have hi : i < pat.length := by omega
  rw [h.getD hi]
  exact List.getElem_mem hi

theorem standsAt_append : StandsAt mem (a ++ b) p ↔ StandsAt mem a p ∧ StandsAt mem b (p + a.length) := by
  simp only [standsAt_iff, List.length_append]
  constructor
  · refine fun h => ⟨fun i hi => ?_, fun i hi => ?_⟩
    · rw [h i (by omega), List.getElem?_append_left hi]
    · rw [Nat.add_assoc, h (a.length + i) (by omega), List.getElem?_append_right (by omega),
        Nat.add_sub_cancel_left]
  · rintro ⟨ha, hb⟩ i hi
    by_cases hia : i < a.length
    · rw [ha i hia, List.getElem?_append_left hia]
    · have := hb (i - a.length) (by omega)
      rw [List.getElem?_append_right (by omega), ← this]
      congr 1
      omega

theorem standsAt_singleton {x : UInt8} : StandsAt mem [x] p ↔ mem[p]? = some x := by
  rw [standsAt_iff]
  constructor
  · exact fun h => h 0 (by simp)
  · intro h i hi
    obtain rfl : i = 0 := by simpa using hi
    exact h

theorem unbroken_self (mem : List UInt8) (p : ℕ) : Unbroken mem p p := fun _ hlo hhi => by omega

theorem Unbroken.trans (h : Unbroken mem p q) (h' : Unbroken mem q r) : Unbroken mem p r :=
  fun j hlo hhi => if hj : j < q then h j hlo hj else h' j (by omega) hhi

theorem Unbroken.mono (h : Unbroken mem p q) {p' q' : ℕ} (hp : p ≤ p') (hq : q' ≤ q) :
    Unbroken mem p' q' := fun j hlo hhi => h j (by omega) (by omega)

/-- There is no zero byte in a text without one. -/
theorem StandsAt.unbroken (h : StandsAt mem pat p) (hpat : 0 ∉ pat) :
    Unbroken mem p (p + pat.length) :=
  fun j hlo hhi hzero => hpat (hzero ▸ h.mem_of_getD hlo hhi)

end Places

/-! ## What the searches find -/

/-- A prefix of a list that is below a property. -/
theorem le_length_takeWhile {α : Type*} {f : α → Bool} {l : List α} {n : ℕ} :
    n ≤ (l.takeWhile f).length ↔ ∀ j < n, ∃ x, l[j]? = some x ∧ f x = true := by
  induction l generalizing n with
  | nil =>
      constructor
      · intro h j hj
        simp at h
        omega
      · intro h
        by_contra hn
        obtain ⟨x, hx, -⟩ := h 0 (by omega)
        simp at hx
  | cons x l ih =>
      cases n with
      | zero => simp
      | succ n =>
          by_cases hx : f x = true
          · rw [List.takeWhile_cons_of_pos hx, List.length_cons, Nat.add_le_add_iff_right, ih]
            constructor
            · intro h j hj
              cases j with
              | zero => exact ⟨x, rfl, hx⟩
              | succ j => exact h j (by omega)
            · exact fun h j hj => h (j + 1) (by omega)
          · rw [List.takeWhile_cons_of_neg hx]
            constructor
            · intro h
              simp at h
            · intro h
              obtain ⟨y, hy, hfy⟩ := h 0 (by omega)
              obtain rfl : x = y := Option.some.inj hy
              exact absurd hfy hx

section Search

variable {mem pat : List UInt8} {P : ℕ → Prop} {p q start : ℕ}

/-- The places of the string that begins at `p`. -/
theorem le_length_stringFrom (h : p ≤ q) : q ≤ p + (stringFrom mem p).length ↔ Unbroken mem p q := by
  have hle : q ≤ p + (stringFrom mem p).length ↔ q - p ≤ (stringFrom mem p).length := by omega
  rw [hle, stringFrom, le_length_takeWhile]
  constructor
  · intro hall j hlo hhi
    obtain ⟨x, hx, hne⟩ := hall (j - p) (by omega)
    rw [List.getElem?_drop, Nat.add_sub_cancel' hlo] at hx
    rw [List.getD_eq_getElem?_getD, hx]
    simpa using hne
  · intro hall j hj
    have hne := hall (p + j) (by omega) (by omega)
    rw [List.getD_eq_getElem?_getD] at hne
    rw [List.getElem?_drop]
    cases hget : mem[p + j]? with
    | none => exact absurd (by rw [hget]; rfl) hne
    | some x =>
        rw [hget] at hne
        exact ⟨x, rfl, by simpa using hne⟩

/-- A text without a zero byte stands in the string if it stands in the buffer. -/
theorem isPrefixOf_stringFrom (hpat : 0 ∉ pat) :
    pat.isPrefixOf (stringFrom mem q) = true ↔ StandsAt mem pat q := by
  rw [List.isPrefixOf_iff_prefix]
  constructor
  · exact fun h => h.trans (List.takeWhile_prefix _)
  · rintro ⟨rest, hrest⟩
    have hall : ∀ b ∈ pat, decide (b ≠ 0) = true := fun b hb =>
      decide_eq_true fun hzero => hpat (hzero ▸ hb)
    rw [stringFrom, ← hrest, List.takeWhile_append_of_pos hall]
    exact List.prefix_append _ _

/-- **The search of a text.** -/
theorem strstr_first (hpat : 0 ∉ pat) : FirstFrom mem (StandsAt mem pat) p (strstr mem p pat) := by
  cases hfind : strstr mem p pat with
  | none =>
      intro q hq hunbroken hstands
      have hmiss := List.find?_range'_eq_none.mp hfind q hq
        (by have := (le_length_stringFrom hq).mpr hunbroken; omega)
      rw [(isPrefixOf_stringFrom hpat).mpr hstands] at hmiss
      cases hmiss
  | some q =>
      obtain ⟨hhit, hrange, hmiss⟩ := List.find?_range'_eq_some.mp hfind
      have hrange := List.mem_range'_1.mp hrange
      refine ⟨hrange.1, (le_length_stringFrom hrange.1).mp (by omega), (isPrefixOf_stringFrom hpat).mp hhit,
        fun j hlo hhi hstands => ?_⟩
      have := hmiss j hlo hhi
      rw [(isPrefixOf_stringFrom hpat).mpr hstands] at this
      cases this

theorem FirstFrom.eq_some {found : Option ℕ} (h : FirstFrom mem P start found) (hq : start ≤ q)
    (hunbroken : Unbroken mem start q) (hP : P q) (hfirst : ∀ j, start ≤ j → j < q → ¬ P j) :
    found = some q := by
  cases found with
  | none => exact absurd hP (h q hq hunbroken)
  | some r =>
      obtain ⟨hr, -, hPr, hbefore⟩ := h
      have hle : ¬ q < r := fun hlt => hbefore q hq hlt hP
      have hge : ¬ r < q := fun hlt => hfirst r hr hlt hPr
      exact congrArg some (by omega)

/-- The search goes on behind a place without the property. -/
theorem FirstFrom.skip {found : Option ℕ} (hq : start ≤ q) (hunbroken : Unbroken mem start (q + 1))
    (hbefore : ∀ j, start ≤ j → j ≤ q → ¬ P j) (h : FirstFrom mem P (q + 1) found) :
    FirstFrom mem P start found := by
  cases found with
  | none =>
      intro r hr hur
      by_cases hrq : r ≤ q
      · exact hbefore r hr hrq
      · exact h r (by omega) (hur.mono (by omega) (Nat.le_refl r))
  | some r =>
      obtain ⟨hr, hur, hP, hmiss⟩ := h
      refine ⟨by omega, hunbroken.trans hur, hP, fun j hlo hhi => ?_⟩
      by_cases hj : j ≤ q
      · exact hbefore j hlo hj
      · exact hmiss j (by omega) hhi

end Search

end Verse.Lib
