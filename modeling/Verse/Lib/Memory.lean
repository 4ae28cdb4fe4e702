import Mathlib.Algebra.Group.Nat.Defs
import Mathlib.Data.List.Basic
import Mathlib.Data.List.TakeWhile
import Mathlib.Tactic.Common

/-!
# Bytes behind a pointer

A pointer into a byte buffer is modelled by the bytes that can be read through
it, `Mem`: a read past the end of a buffer is a read of whatever follows, not an
error.  `Holds m bytes` says that a given list of bytes starts at the pointer.

Numbers are stored in memory with the least significant byte first
(`leBytes`, `leVal`), and a number that is sent with the most significant byte
first is the reverse of what stands in memory.
-/

namespace Verse.Lib

/-- What can be read through a pointer. -/
abbrev Mem := ℕ → UInt8

/-- The pointer moved forward by `n` bytes. -/
def Mem.shift (m : Mem) (n : ℕ) : Mem := fun i => m (n + i)

/-- The memory starts with `bytes`. -/
def Holds (m : Mem) (bytes : List UInt8) : Prop :=
  ∀ i (h : i < bytes.length), m i = bytes[i]

@[simp] theorem shift_apply (m : Mem) (n i : ℕ) : m.shift n i = m (n + i) := rfl

@[simp] theorem shift_zero (m : Mem) : m.shift 0 = m := by
  funext i
  simp [Mem.shift]

@[simp] theorem shift_shift (m : Mem) (n k : ℕ) : (m.shift n).shift k = m.shift (n + k) := by
  funext i
  simp [Mem.shift, Nat.add_assoc]

@[simp] theorem holds_nil (m : Mem) : Holds m [] := fun _ h => absurd h (Nat.not_lt_zero _)

theorem holds_cons {m : Mem} {b : UInt8} {rest : List UInt8} :
    Holds m (b :: rest) ↔ m 0 = b ∧ Holds (m.shift 1) rest := by
  constructor
  · intro h
    refine ⟨h 0 (by simp), fun i hi => ?_⟩
    have := h (i + 1) (by simpa using hi)
    rw [shift_apply, Nat.add_comm]
    simpa using this
  · rintro ⟨hb, hrest⟩ i hi
    cases i with
    | zero => simpa using hb
    | succ i =>
        have := hrest i (by simpa using hi)
        rw [shift_apply, Nat.add_comm] at this
        simpa using this

theorem holds_append {m : Mem} {xs ys : List UInt8} :
    Holds m (xs ++ ys) ↔ Holds m xs ∧ Holds (m.shift xs.length) ys := by
  induction xs generalizing m with
  | nil => simp
  | cons b rest ih =>
      rw [List.cons_append, holds_cons, holds_cons, ih, shift_shift, List.length_cons,
        Nat.add_comm 1, and_assoc]

/-! ## Memory that is the same up to a bound -/

/-- The first `n` bytes are the same. -/
def Agree (n : ℕ) (m m' : Mem) : Prop := ∀ i < n, m i = m' i

theorem Agree.refl (n : ℕ) (m : Mem) : Agree n m m := fun _ _ => rfl

theorem Agree.shift {n : ℕ} {m m' : Mem} (h : Agree n m m') (k : ℕ) :
    Agree (n - k) (m.shift k) (m'.shift k) := by
  intro i hi
  exact h (k + i) (by omega)

/-- Another byte at one place. -/
def Mem.set (m : Mem) (k : ℕ) (b : UInt8) : Mem := fun i => if i = k then b else m i

@[simp] theorem set_self (m : Mem) (k : ℕ) (b : UInt8) : m.set k b k = b := if_pos rfl

theorem set_of_ne (m : Mem) {i k : ℕ} (h : i ≠ k) (b : UInt8) : m.set k b i = m i := if_neg h

theorem shift_set (m : Mem) (n k : ℕ) (b : UInt8) : (m.set (n + k) b).shift n = (m.shift n).set k b := by
  funext i
  simp only [shift_apply, Mem.set, Nat.add_left_cancel_iff]

theorem agree_set (m : Mem) {n k : ℕ} (h : n ≤ k) (b : UInt8) : Agree n m (m.set k b) := by
  intro i hi
  exact (set_of_ne m (by omega) b).symm

/-! ## Buffers -/

/-- A buffer that was filled with `bytes`, with zeros behind them. -/
def ofBytes (bytes : List UInt8) : Mem := fun i => bytes.getD i 0

theorem holds_ofBytes (bytes : List UInt8) : Holds (ofBytes bytes) bytes := by
  intro i hi
  simp [ofBytes, List.getD_eq_getElem?_getD, hi]

/-- Reading as many bytes as a list has gives the list. -/
theorem Holds.map_range {m : Mem} {off : ℕ} {bytes : List UInt8} (h : Holds (m.shift off) bytes) :
    ((List.range bytes.length).map fun i => m (off + i)) = bytes := by
  apply List.ext_getElem
  · simp
  · intro i _ hi
    simpa using h i hi

/-- A string without a zero is a C string as a whole. -/
theorem takeWhile_ne_zero {str : List UInt8} (h : 0 ∉ str) : str.takeWhile (· ≠ 0) = str := by
  rw [List.takeWhile_eq_self_iff]
  intro b hb
  have hne : b ≠ 0 := fun h0 => h (h0 ▸ hb)
  simpa using hne

/-! ## Numbers in memory -/

/-- The value of a little-endian number. -/
def leVal : List UInt8 → ℕ
  | [] => 0
  | b :: rest => b.toNat + 256 * leVal rest

/-- The `n` bytes in which memory holds `v`. -/
def leBytes : ℕ → ℕ → List UInt8
  | 0, _ => []
  | n + 1, v => UInt8.ofNat v :: leBytes n (v / 256)

@[simp] theorem length_leBytes (n v : ℕ) : (leBytes n v).length = n := by
  induction n generalizing v with
  | zero => rfl
  | succ n ih => simp [leBytes, ih]

theorem leVal_lt (bytes : List UInt8) : leVal bytes < 256 ^ bytes.length := by
  induction bytes with
  | nil => simp [leVal]
  | cons b rest ih =>
      have hb := b.toNat_lt
      simp only [leVal, List.length_cons, Nat.pow_succ]
      omega

/-- Storing what was read gives the same bytes back. -/
theorem leBytes_leVal (bytes : List UInt8) : leBytes bytes.length (leVal bytes) = bytes := by
  induction bytes with
  | nil => rfl
  | cons b rest ih =>
      have hb := b.toNat_lt
      have hdiv : (b.toNat + 256 * leVal rest) / 256 = leVal rest := by omega
      have hmod : UInt8.ofNat (b.toNat + 256 * leVal rest) = b := by
        apply UInt8.toNat_inj.mp
        rw [UInt8.toNat_ofNat']
        omega
      simp only [List.length_cons, leBytes, leVal, hdiv, hmod, ih]

theorem leBytes_add (n k v : ℕ) : leBytes (n + k) v = leBytes n v ++ leBytes k (v / 256 ^ n) := by
  induction n generalizing v with
  | zero => simp [leBytes]
  | succ n ih =>
      rw [Nat.succ_add, leBytes, ih, leBytes, List.cons_append, Nat.div_div_eq_div_mul,
        Nat.pow_succ']

/-- The bytes of a number depend only on its lowest digits. -/
theorem leBytes_mod (n v : ℕ) : leBytes n (v % 256 ^ n) = leBytes n v := by
  induction n generalizing v with
  | zero => rfl
  | succ n ih =>
      have hlow : UInt8.ofNat (v % 256 ^ (n + 1)) = UInt8.ofNat v := by
        apply UInt8.toNat_inj.mp
        rw [UInt8.toNat_ofNat', UInt8.toNat_ofNat', Nat.pow_succ']
        exact Nat.mod_mul_right_mod v 256 (256 ^ n)
      have hhigh : v % 256 ^ (n + 1) / 256 = v / 256 % 256 ^ n := by
        rw [Nat.pow_succ', Nat.mod_mul_right_div_self]
      rw [leBytes, hlow, hhigh, ih, leBytes]

/-! ## Blocks -/

/-- Packing a list of things none of which fails. -/
theorem mapM_eq_some_map {α β : Type*} {f : α → Option β} {g : α → β} {l : List α}
    (h : ∀ a ∈ l, f a = some (g a)) : l.mapM f = some (l.map g) := by
  induction l with
  | nil => rfl
  | cons a rest ih =>
      have hrest := ih fun b hb => h b (by simp [hb])
      simp [h a (by simp), hrest]

/-- `n` bytes of `block`, from position `off` on. -/
def slice (block : List UInt8) (off n : ℕ) : List UInt8 := (block.drop off).take n

theorem length_slice {block : List UInt8} {off n : ℕ} (h : off + n ≤ block.length) :
    (slice block off n).length = n := by
  simp only [slice, List.length_take, List.length_drop]
  omega

theorem take_append_slice (block : List UInt8) (off n : ℕ) :
    block.take off ++ slice block off n = block.take (off + n) := by
  rw [slice, List.take_add]

end Verse.Lib
