import Mathlib.Algebra.BigOperators.Group.Finset.Basic
import Mathlib.Algebra.Order.BigOperators.Group.Finset
import Mathlib.Tactic.Common

/-!
# Tallies

Something is counted in classes, and beside the number of each class a total is kept.
The numbers are kept modulo `m`, as machine words are.  `Tallies` ties what is kept to the
true numbers; adding to a class, taking from a class and moving from one class to another
keep it, and as long as the true total is below `m` what is kept is what is true.
-/

namespace Verse.Lib

/-- The numbers `kept` and their `total` are those of `real`, modulo `m`. -/
structure Tallies (m : ℕ) (classes : Finset ℕ) (kept : ℕ → ℕ) (total : ℕ) (real : ℕ → ℕ) :
    Prop where
  each : ∀ p, kept p = real p % m
  sum : total = (∑ p ∈ classes, real p) % m

variable {m : ℕ} {classes : Finset ℕ} {kept real : ℕ → ℕ} {total : ℕ}

/-- The sum after one class has changed. -/
theorem sum_update {M : Type*} [AddCommMonoid M] {p : ℕ} (hp : p ∈ classes) (f : ℕ → M) (v : M) :
    ∑ c ∈ classes, Function.update f p v c + f p = ∑ c ∈ classes, f c + v := by
  have hold := Finset.add_sum_erase classes f hp
  have hnew := Finset.add_sum_erase classes (Function.update f p v) hp
  have hrest : ∑ c ∈ classes.erase p, Function.update f p v c = ∑ c ∈ classes.erase p, f c := by
    refine Finset.sum_congr rfl fun c hc => ?_
    rw [Function.update_of_ne (Finset.ne_of_mem_erase hc)]
  rw [Function.update_self, hrest] at hnew
  rw [← hold, ← hnew]
  ac_rfl

theorem sum_add {p : ℕ} (hp : p ∈ classes) (f : ℕ → ℕ) (k : ℕ) :
    ∑ c ∈ classes, Function.update f p (f p + k) c = ∑ c ∈ classes, f c + k := by
  have hsum := sum_update hp f (f p + k)
  omega

theorem sum_sub {p n k : ℕ} (hp : p ∈ classes) {f : ℕ → ℕ} (hf : f p = n + k) :
    ∑ c ∈ classes, Function.update f p n c + k = ∑ c ∈ classes, f c := by
  have hsum := sum_update hp f n
  omega

/-- A change of one class. -/
theorem Tallies.update_each (h : Tallies m classes kept total real) {p v w : ℕ}
    (hv : w = v % m) (c : ℕ) :
    Function.update kept p w c = Function.update real p v c % m := by
  by_cases hc : c = p
  · rw [hc, Function.update_self, Function.update_self, hv]
  · rw [Function.update_of_ne hc, Function.update_of_ne hc, h.each]

theorem Tallies.add (h : Tallies m classes kept total real) {p : ℕ} (hp : p ∈ classes) (k : ℕ) :
    Tallies m classes (Function.update kept p ((kept p + k) % m)) ((total + k) % m)
      (Function.update real p (real p + k)) where
  each := h.update_each (by rw [h.each, Nat.mod_add_mod])
  sum := by rw [h.sum, Nat.mod_add_mod, sum_add hp]

theorem mod_sub_mod {n k : ℕ} (hk : k ≤ m) (hle : k ≤ n) : (n % m + m - k) % m = (n - k) % m := by
  have hsplit := Nat.div_add_mod n m
  calc (n % m + m - k) % m = (n % m + m - k + m * (n / m)) % m := (Nat.add_mul_mod_self_left _ _ _).symm
    _ = (n - k + m) % m := by congr 1; omega
    _ = (n - k) % m := Nat.add_mod_right _ _

theorem Tallies.sub (h : Tallies m classes kept total real) {p n k : ℕ} (hp : p ∈ classes)
    (hk : k ≤ m) (hreal : real p = n + k) :
    Tallies m classes (Function.update kept p ((kept p + m - k) % m)) ((total + m - k) % m)
      (Function.update real p n) where
  each := by
    refine h.update_each ?_
    rw [h.each, mod_sub_mod hk (by omega), hreal, Nat.add_sub_cancel]
  sum := by
    have hsum := sum_sub hp hreal
    rw [h.sum, mod_sub_mod hk (by omega)]
    congr 1
    omega

/-- What leaves one class enters another. -/
theorem Tallies.move (h : Tallies m classes kept total real) {p p' n k : ℕ} (hp : p ∈ classes)
    (hp' : p' ∈ classes) (hk : k ≤ m) (hreal : real p = n + k) :
    Tallies m classes
      (Function.update (Function.update kept p ((kept p + m - k) % m)) p'
        ((Function.update kept p ((kept p + m - k) % m) p' + k) % m)) total
      (Function.update (Function.update real p n) p' (Function.update real p n p' + k)) where
  each := ((h.sub hp hk hreal).add hp' k).each
  sum := by
    rw [h.sum, sum_add hp', sum_sub hp hreal]

/-- Below `m` what is kept is exact. -/
theorem Tallies.exact (h : Tallies m classes kept total real)
    (hsmall : ∑ p ∈ classes, real p < m) (houtside : ∀ p, p ∉ classes → real p = 0) :
    (∀ p, kept p = real p) ∧ total = ∑ p ∈ classes, kept p := by
  have heach : ∀ p, kept p = real p := by
    intro p
    rw [h.each]
    refine Nat.mod_eq_of_lt ?_
    by_cases hp : p ∈ classes
    · exact lt_of_le_of_lt (Finset.single_le_sum (fun _ _ => Nat.zero_le _) hp) hsmall
    · rw [houtside p hp]
      exact Nat.zero_lt_of_lt hsmall
  refine ⟨heach, ?_⟩
  rw [h.sum, Nat.mod_eq_of_lt hsmall]
  exact Finset.sum_congr rfl fun p _ => (heach p).symm

end Verse.Lib
