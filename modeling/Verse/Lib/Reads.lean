import Verse.Lib.Loops
import Verse.Lib.Memory

/-!
# Which bytes are read

Memory of which some bytes cannot be read.  A function that is written over it fails when it
reads such a byte, so that it reads only the bytes of a range if it goes through on memory of
which only these bytes can be read, and gives there what it gives on the whole memory.
-/

namespace Verse.Lib

/-- What can be read through a pointer; `none` is a byte that must not be read. -/
abbrev PartMem := ℕ → Option UInt8

/-- The pointer moved forward by `n` bytes. -/
def PartMem.shift (m : PartMem) (n : ℕ) : PartMem := fun i => m (n + i)

/-- All bytes can be read. -/
def Mem.whole (m : Mem) : PartMem := fun i => some (m i)

/-- Only the bytes from `lo` to `hi` can be read. -/
def Mem.only (m : Mem) (lo hi : ℕ) : PartMem := fun i => if lo ≤ i ∧ i < hi then some (m i) else none

/-- The bytes of a block. -/
def Mem.bytes (m : Mem) (off n : ℕ) : List UInt8 := (List.range n).map fun i => m (off + i)

/-- Reading a block. -/
def PartMem.read (m : PartMem) (off n : ℕ) : Option (List UInt8) :=
  (List.range n).mapM fun i => m (off + i)

theorem whole_shift (m : Mem) (n : ℕ) : m.whole.shift n = (m.shift n).whole := rfl

/-- The pointer moved to the first byte that can be read. -/
theorem only_shift (m : Mem) (n k : ℕ) : (m.only n (n + k)).shift n = (m.shift n).only 0 k := by
  funext i
  have hiff : (n ≤ n + i ∧ n + i < n + k) ↔ (0 ≤ i ∧ i < k) := by omega
  simp only [PartMem.shift, Mem.only, shift_apply, hiff]

theorem read_whole (m : Mem) (off n : ℕ) : m.whole.read off n = some (m.bytes off n) :=
  mapM_eq_some_map fun _ _ => rfl

theorem read_only {m : Mem} {lo hi off n : ℕ} (hlo : lo ≤ off) (hhi : off + n ≤ hi) :
    (m.only lo hi).read off n = some (m.bytes off n) := by
  refine mapM_eq_some_map fun i hi => ?_
  have hin := List.mem_range.mp hi
  exact if_pos ⟨by omega, by omega⟩

/-- A block that goes past the end cannot be read. -/
theorem read_only_eq_none {m : Mem} {lo hi off n : ℕ} (hn : 0 < n) (hhi : hi < off + n) :
    (m.only lo hi).read off n = none := by
  cases hread : (m.only lo hi).read off n with
  | none => rfl
  | some bytes =>
      have hmem : n - 1 ∈ List.range n := List.mem_range.mpr (by omega)
      obtain ⟨b, -, hb⟩ := mem_of_mapM_eq_some hread hmem
      have hout : ¬ (lo ≤ off + (n - 1) ∧ off + (n - 1) < hi) := by omega
      rw [Mem.only, if_neg hout] at hb
      cases hb

/-- Memory that is the same where it can be read. -/
theorem only_congr {m m' : Mem} {lo hi : ℕ} (h : ∀ i, lo ≤ i → i < hi → m i = m' i) :
    m.only lo hi = m'.only lo hi := by
  funext i
  simp only [Mem.only]
  split
  case isTrue hin => rw [h i hin.1 hin.2]
  case isFalse => rfl

end Verse.Lib
