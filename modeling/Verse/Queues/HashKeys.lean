import Verse.Lib.Reads
import Verse.Queues.HashedList

/-!
# What the hash functions read

`v_hash_func_uint16` and `v_hash_func_uint32` once more, over memory of which some bytes
cannot be read: `readHashUint16` and `readHashUint32` fail when they read such a byte, and
give what the functions of `Queues.HashedList` give when they read none.

The first function reads the key and nothing else.  The loop of the second one goes up to
`key_size - 1` for all sizes that are no multiple of four, as that of the first one does for
odd sizes, and takes one word too many or leaves too few bytes for its tail.
-/

namespace Verse.HashedList

open Lib

/-! ## Reading -/

/-- The number of `width` bytes at `off`. -/
def readNumber (data : PartMem) (off width : ℕ) : Option ℕ := (data.read off width).map leVal

/-- The sum of the first `n` numbers of `width` bytes. -/
def readWords (data : PartMem) (width n : ℕ) : Option ℕ :=
  ((List.range n).mapM fun j => readNumber data (width * j) width).map List.sum

/-- `v_hash_func_uint16`; the outer `none` is a byte that cannot be read. -/
def readHashUint16 (base : VHashArrayBase) (item : PartMem) : Option (Option ℕ) :=
  let keySize := base.keySize.toNat
  let data := item.shift base.keyOffset.toNat
  if keySize = 0 then some none
  else if keySize % 2 = 0 then
    (readWords data 2 (passes 2 keySize)).map fun tmp => some (tmp % base.length)
  else
    let n := passes 2 (keySize - 1)
    (readWords data 2 n).bind fun tmp =>
      (readNumber data (2 * n) 1).map fun last => some ((tmp + last) % base.length)

/-- `v_hash_func_uint32`. -/
def readHashUint32 (base : VHashArrayBase) (item : PartMem) : Option (Option ℕ) :=
  let keySize := base.keySize.toNat
  let data := item.shift base.keyOffset.toNat
  let n := passes 4 (keySize - 1)
  if keySize = 0 then some none
  else if keySize % 4 = 0 then
    (readWords data 4 (passes 4 keySize)).map fun tmp => some (tmp % base.length)
  else if keySize % 4 = 1 then
    (readWords data 4 n).bind fun tmp =>
      (readNumber data (4 * n) 2).bind fun half =>
        (readNumber data (4 * n + 2) 1).map fun last => some ((tmp + half + last) % base.length)
  else if keySize % 4 = 2 then
    (readWords data 4 n).bind fun tmp =>
      (readNumber data (4 * n) 2).map fun half => some ((tmp + half) % base.length)
  else
    (readWords data 4 n).bind fun tmp =>
      (readNumber data (4 * n) 1).map fun last => some ((tmp + last) % base.length)

/-- `hash_func`. -/
def VHashArrayBase.readHash (base : VHashArrayBase) (item : PartMem) : Option (Option ℕ) :=
  match base.hashMod with
  | .mod256 => readHashUint16 base item
  | .mod65536 => readHashUint32 base item

/-- The item as far as its key goes. -/
def VHashArrayBase.keyOf (base : VHashArrayBase) (item : Mem) : PartMem :=
  item.only base.keyOffset.toNat (base.keyOffset.toNat + base.keySize.toNat)

/-- **The hash depends only on the key**: items with the same key have the same hash, no byte
outside the key is read, and the hash is an index of the array of chains. -/
structure KeyOnly (base : VHashArrayBase) : Prop where
  equal : ∀ item item', base.sameKey item item' = true → base.hashFunc item = base.hashFunc item'
  reads : ∀ item, base.readHash (base.keyOf item) = some (base.hashFunc item)
  range : ∀ item, ∃ index < base.length, base.hashFunc item = some index

/-! ## The functions that read are the functions -/

theorem readNumber_whole (data : Mem) (off width : ℕ) :
    readNumber data.whole off width = some (number data off width) := by
  rw [readNumber, read_whole]
  rfl

theorem readWords_whole (data : Mem) (width n : ℕ) :
    readWords data.whole width n = some (sumWords data width n) := by
  rw [readWords, mapM_eq_some_map fun j _ => readNumber_whole data (width * j) width]
  rfl

/-- Where every byte can be read, the functions that read go through and give the hash. -/
theorem readHash_whole (base : VHashArrayBase) (item : Mem) :
    base.readHash item.whole = some (base.hashFunc item) := by
  have hwords := readWords_whole (item.shift base.keyOffset.toNat)
  have hnumber := readNumber_whole (item.shift base.keyOffset.toNat)
  unfold VHashArrayBase.readHash VHashArrayBase.hashFunc
  cases base.hashMod with
  | mod256 =>
      simp only [readHashUint16, vHashFuncUint16, whole_shift, hwords, hnumber, Option.map_some,
        Option.bind_some]
      split_ifs <;> rfl
  | mod65536 =>
      simp only [readHashUint32, vHashFuncUint32, whole_shift, hwords, hnumber, Option.map_some,
        Option.bind_some]
      split_ifs <;> rfl

/-! ## Reading the key -/

section Key

variable {data : Mem} {size off width n : ℕ}

theorem readNumber_only (h : off + width ≤ size) :
    readNumber (data.only 0 size) off width = some (number data off width) := by
  rw [readNumber, read_only (Nat.zero_le _) h]
  rfl

theorem readNumber_past (hwidth : 0 < width) (h : size < off + width) :
    readNumber (data.only 0 size) off width = none := by
  rw [readNumber, read_only_eq_none hwidth h]
  rfl

theorem readWords_only (h : width * n ≤ size) :
    readWords (data.only 0 size) width n = some (sumWords data width n) := by
  have hword : ∀ j ∈ List.range n,
      readNumber (data.only 0 size) (width * j) width = some (number data (width * j) width) := by
    intro j hj
    refine readNumber_only ?_
    calc width * j + width = width * (j + 1) := (Nat.mul_succ width j).symm
      _ ≤ width * n := Nat.mul_le_mul_left width (List.mem_range.mp hj)
      _ ≤ size := h
  rw [readWords, mapM_eq_some_map hword]
  rfl

/-- The last word goes past the end. -/
theorem readWords_past (hwidth : 0 < width) (h : size < width * (n + 1)) :
    readWords (data.only 0 size) width (n + 1) = none := by
  rw [readWords]
  cases hread : (List.range (n + 1)).mapM fun j =>
      readNumber (data.only 0 size) (width * j) width with
  | none => rfl
  | some words =>
      obtain ⟨word, -, hword⟩ := mem_of_mapM_eq_some hread (List.mem_range.mpr (Nat.lt_succ_self n))
      rw [readNumber_past hwidth (by rwa [← Nat.mul_succ])] at hword
      cases hword

end Key

/-! ## Both functions -/

section Both

variable {base : VHashArrayBase}

theorem readHashUint16_key (hkey : base.keySize.toNat ≠ 0) (item : Mem) :
    readHashUint16 base (base.keyOf item) = some (vHashFuncUint16 base item) := by
  simp only [readHashUint16, vHashFuncUint16, VHashArrayBase.keyOf, only_shift, if_neg hkey]
  by_cases heven : base.keySize.toNat % 2 = 0
  · have hwords : 2 * passes 2 base.keySize.toNat ≤ base.keySize.toNat := by
      unfold passes
      omega
    rw [if_pos heven, if_pos heven, readWords_only hwords]
    rfl
  · have hlast : 2 * passes 2 (base.keySize.toNat - 1) + 1 ≤ base.keySize.toNat := by
      unfold passes
      omega
    rw [if_neg heven, if_neg heven, readWords_only (by omega), Option.bind_some,
      readNumber_only hlast]
    rfl

theorem readHashUint32_key (hkey : base.keySize.toNat ≠ 0) (hfour : base.keySize.toNat % 4 = 0)
    (item : Mem) : readHashUint32 base (base.keyOf item) = some (vHashFuncUint32 base item) := by
  have hwords : 4 * passes 4 base.keySize.toNat ≤ base.keySize.toNat := by
    unfold passes
    omega
  simp only [readHashUint32, vHashFuncUint32, VHashArrayBase.keyOf, only_shift, if_neg hkey,
    if_pos hfour]
  rw [readWords_only hwords]
  rfl

/-- A byte behind the key is read if its size is no multiple of four. -/
theorem readHashUint32_past (hfour : base.keySize.toNat % 4 ≠ 0) (item : Mem) :
    readHashUint32 base (base.keyOf item) = none := by
  have hkey : base.keySize.toNat ≠ 0 := fun hzero => hfour (by omega)
  simp only [readHashUint32, VHashArrayBase.keyOf, only_shift, if_neg hkey, if_neg hfour]
  by_cases hone : base.keySize.toNat % 4 = 1
  · -- the two bytes behind the whole words go past the only one that is left
    have hwords : 4 * passes 4 (base.keySize.toNat - 1) + 1 = base.keySize.toNat := by
      unfold passes
      omega
    rw [if_pos hone, readWords_only (by omega), Option.bind_some,
      readNumber_past (by omega) (by omega)]
    rfl
  · -- the loop takes a word that only begins in the key
    obtain ⟨n, hn⟩ : ∃ n, passes 4 (base.keySize.toNat - 1) = n + 1 :=
      ⟨base.keySize.toNat / 4, by unfold passes; omega⟩
    have hlast : base.keySize.toNat < 4 * (n + 1) := by
      unfold passes at hn
      omega
    rw [if_neg hone, hn, readWords_past (by omega) hlast]
    split <;> rfl

/-- The key is read alone by `v_hash_func_uint16`, and by `v_hash_func_uint32` if its size is
a multiple of four. -/
theorem readHash_key_iff (hkey : base.keySize ≠ 0) (item : Mem) :
    base.readHash (base.keyOf item) = some (base.hashFunc item) ↔
      base.hashMod = .mod256 ∨ base.keySize.toNat % 4 = 0 := by
  have hsize : base.keySize.toNat ≠ 0 := fun h => hkey (keySize_toNat_eq_zero.mp h)
  unfold VHashArrayBase.readHash VHashArrayBase.hashFunc
  cases hmod : base.hashMod with
  | mod256 => exact iff_of_true (readHashUint16_key hsize item) (Or.inl rfl)
  | mod65536 =>
      by_cases hfour : base.keySize.toNat % 4 = 0
      · exact iff_of_true (readHashUint32_key hsize hfour item) (Or.inr hfour)
      · refine iff_of_false (fun hread => ?_) (by simp [hfour])
        exact absurd ((readHashUint32_past hfour item).symm.trans hread) (Option.some_ne_none _).symm

/-- Items with the same key are the same as far as the key goes. -/
theorem keyOf_eq_of_sameKey {item item' : Mem} (h : base.sameKey item item' = true) :
    base.keyOf item = base.keyOf item' := by
  refine only_congr fun i hlo hhi => ?_
  have hbyte := List.all_eq_true.mp h (i - base.keyOffset.toNat) (List.mem_range.mpr (by omega))
  have hplace : base.keyOffset.toNat + (i - base.keyOffset.toNat) = i := by omega
  rw [hplace] at hbyte
  exact eq_of_beq hbyte

/-- **When the hash depends only on the key.**  For a key that is not empty, it does so if and
only if the function is `v_hash_func_uint16` or the size of the key is a multiple of four. -/
theorem keyOnly_iff (base : VHashArrayBase) (hkey : base.keySize ≠ 0) :
    KeyOnly base ↔ base.hashMod = .mod256 ∨ base.keySize.toNat % 4 = 0 := by
  constructor
  · intro h
    exact (readHash_key_iff hkey fun _ => 0).mp (h.reads _)
  · intro hcond
    have hreads := fun item => (readHash_key_iff hkey item).mpr hcond
    refine ⟨fun item item' hsame => ?_, hreads, fun item => ?_⟩
    · have hkeys := (hreads item).symm.trans
        ((congrArg base.readHash (keyOf_eq_of_sameKey hsame)).trans (hreads item'))
      exact Option.some.inj hkeys
    · obtain ⟨index, hindex⟩ := Option.ne_none_iff_exists'.mp fun hnone =>
        hkey ((@hashFunc_eq_none_iff base item).mp hnone)
      exact ⟨index, hashFunc_lt hindex, hindex⟩

theorem keyOnly_nodes : KeyOnly ⟨.mod65536, 0, 4⟩ :=
  (keyOnly_iff ⟨.mod65536, 0, 4⟩ (by decide)).mpr (Or.inr (by decide))

/-- A key of two bytes: two items with the same key and another byte behind it. -/
theorem not_keyOnly : ¬ ∀ base : VHashArrayBase, base.keySize ≠ 0 → KeyOnly base := by
  intro hall
  have hequal := (hall ⟨.mod65536, 0, 2⟩ (by decide)).equal (ofBytes [7, 0, 0, 0, 0])
    (ofBytes [7, 0, 0, 0, 1]) (by decide)
  exact absurd hequal (by decide)

end Both

end Verse.HashedList
