import Mathlib.Algebra.Group.Int.Defs
import Mathlib.Data.List.TakeWhile
import Mathlib.Tactic.Common

/-!
# Decimal numbers as text

How a number is printed and read back.  Reading stops at the first character that is no digit;
a text without a digit is no number.
-/

namespace Verse.Lib

/-- A number as it is printed. -/
def decimal (v : ℤ) : List Char :=
  if v < 0 then '-' :: Nat.toDigits 10 v.natAbs else Nat.toDigits 10 v.natAbs

/-- The number at the start of a text without a sign. -/
def scanDigits (text : List Char) : Option ℕ :=
  let digits := text.takeWhile Char.isDigit
  if digits = [] then none else some (Nat.ofDigitChars 10 digits 0)

/-- The number at the start of a text. -/
def scanDecimal (text : List Char) : Option ℤ :=
  match text with
  | '-' :: rest => (scanDigits rest).map fun n : ℕ => -(n : ℤ)
  | _ => (scanDigits text).map fun n : ℕ => (n : ℤ)

theorem takeWhile_toDigits (n : ℕ) : (Nat.toDigits 10 n).takeWhile Char.isDigit = Nat.toDigits 10 n :=
  List.takeWhile_eq_self_iff.mpr fun _ hc =>
    Nat.isDigit_of_mem_toDigits (by decide) (by decide) hc

theorem scanDigits_toDigits (n : ℕ) : scanDigits (Nat.toDigits 10 n) = some n := by
  have hne : Nat.toDigits 10 n ≠ [] := Nat.toDigits_ne_nil
  rw [scanDigits, takeWhile_toDigits]
  exact (if_neg hne).trans (congrArg some Nat.ofDigitChars_ten_toDigits)

/-- A digit is no sign. -/
theorem scanDecimal_toDigits (n : ℕ) : scanDecimal (Nat.toDigits 10 n) = some (n : ℤ) := by
  have hscan := scanDigits_toDigits n
  unfold scanDecimal
  split
  case h_1 rest hsign =>
    have hmem : '-' ∈ Nat.toDigits 10 n := by simp [hsign]
    exact absurd (Nat.isDigit_of_mem_toDigits (by decide) (by decide) hmem) (by decide)
  case h_2 => rw [hscan, Option.map_some]

/-- **A number that was printed is read back.** -/
theorem scanDecimal_decimal (v : ℤ) : scanDecimal (decimal v) = some v := by
  unfold decimal
  split
  case isTrue hneg =>
    have hscan : scanDecimal ('-' :: Nat.toDigits 10 v.natAbs) = some (-(v.natAbs : ℤ)) := by
      rw [scanDecimal, scanDigits_toDigits, Option.map_some]
    rw [hscan]
    exact congrArg some (by omega)
  case isFalse hpos =>
    rw [scanDecimal_toDigits]
    exact congrArg some (by omega)

end Verse.Lib
