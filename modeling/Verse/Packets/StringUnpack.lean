import Verse.Commands.Layout
import Verse.Lib.Reads
import Verse.Packets.SysCommands

/-!
# The two readers of strings

`vnp_raw_unpack_string8_to_string8` fills the array of a negotiate command and
`vnp_raw_unpack_string8_to_str` allocates the string of a node command.  Both are written once
more over memory of which some bytes cannot be read: `readString8` and `readStr` fail when they
read such a byte.

The first byte announces the length.  The second reader crops it to what follows in the
buffer, `buffer_size - 1`; the first one crops it to `buffer_size` and goes one byte too far.
Neither reads a buffer of one byte, which is how the empty string is packed.
-/

namespace Verse.Strings

open Lib

/-- The characters that a reader of a C string sees, up to the first zero. -/
def cString (bytes : List UInt8) : List UInt8 := bytes.takeWhile (· ≠ 0)

/-- `vnp_raw_unpack_string8_to_string8`; `none` is a byte that cannot be read. -/
def readString8 (buf : PartMem) (bufferSize : ℕ) (data : List UInt8) : Option (ℕ × List UInt8) :=
  if bufferSize < 2 then some (bufferSize, data)
  else
    (buf 0).bind fun first =>
      let length := if bufferSize < first.toNat then bufferSize else first.toNat
      (buf.read 1 length).map fun str => (1 + length, str)

/-- `vnp_raw_unpack_string8_to_str`. -/
def readStr (buf : PartMem) (bufferSize : ℕ) : Option (ℕ × Option (List UInt8)) :=
  if bufferSize < 2 then some (bufferSize, none)
  else
    (buf 0).bind fun first =>
      let length := if bufferSize < first.toNat + 1 then bufferSize - 1 else first.toNat
      (buf.read 1 length).map fun str => (1 + length, some (cString str))

/-- **Reading a string stays in the buffer**: both readers read only the first `buffer_size`
bytes and go over no more of them, they give the same C string (what the destination held where
nothing is read), and a string that was packed into the buffer comes back with its packed
length. -/
structure StaysIn (buf : Mem) (bufferSize : ℕ) : Prop where
  readsString8 : ∀ data, readString8 (buf.only 0 bufferSize) bufferSize data =
    some (vnpRawUnpackString8ToString8 buf bufferSize data)
  readsStr : readStr (buf.only 0 bufferSize) bufferSize =
    some (vnpRawUnpackString8ToStr buf bufferSize)
  consumedString8 : ∀ data, (vnpRawUnpackString8ToString8 buf bufferSize data).1 ≤ bufferSize
  consumedStr : (vnpRawUnpackString8ToStr buf bufferSize).1 ≤ bufferSize
  same : ∀ data, cString (vnpRawUnpackString8ToString8 buf bufferSize data).2 =
    (vnpRawUnpackString8ToStr buf bufferSize).2.getD (cString data)
  back : ∀ str : List UInt8, 0 ∉ str → Holds buf (vnpRawPackString8 str) →
    (vnpRawPackString8 str).length ≤ bufferSize →
      (∀ data, vnpRawUnpackString8ToString8 buf bufferSize data =
        ((vnpRawPackString8 str).length, str.take vrsString8MaxSize)) ∧
      vnpRawUnpackString8ToStr buf bufferSize =
        ((vnpRawPackString8 str).length, some (str.take vrsString8MaxSize))

/-- The announced length leaves room for itself in the buffer, or there is nothing that could
be read. -/
def Announced (buf : Mem) (bufferSize : ℕ) : Prop :=
  bufferSize = 0 ∨ (bufferSize = 1 ∧ buf 0 ≠ 0) ∨ (2 ≤ bufferSize ∧ (buf 0).toNat < bufferSize)

/-! ## The functions that read are the functions -/

section Whole

variable (buf : Mem) (bufferSize : ℕ)

theorem readString8_whole (data : List UInt8) :
    readString8 buf.whole bufferSize data =
      some (vnpRawUnpackString8ToString8 buf bufferSize data) := by
  unfold readString8 vnpRawUnpackString8ToString8
  simp only [read_whole]
  split <;> rfl

theorem readStr_whole :
    readStr buf.whole bufferSize = some (vnpRawUnpackString8ToStr buf bufferSize) := by
  unfold readStr vnpRawUnpackString8ToStr
  simp only [read_whole]
  split <;> rfl

end Whole

section Readers

variable {buf : Mem} {bufferSize : ℕ}

/-! ## A buffer of two bytes or more -/

theorem string8_of_lt (hsize : 2 ≤ bufferSize) (hfirst : (buf 0).toNat < bufferSize)
    (data : List UInt8) :
    vnpRawUnpackString8ToString8 buf bufferSize data =
      (1 + (buf 0).toNat, buf.bytes 1 (buf 0).toNat) := by
  have hcrop : (if bufferSize < vnpRawUnpackUint8 buf then bufferSize else vnpRawUnpackUint8 buf) =
      (buf 0).toNat := if_neg (Nat.not_lt.mpr hfirst.le)
  simp only [vnpRawUnpackString8ToString8, if_neg (Nat.not_lt.mpr hsize), hcrop]
  rfl

theorem str_of_lt (hsize : 2 ≤ bufferSize) (hfirst : (buf 0).toNat < bufferSize) :
    vnpRawUnpackString8ToStr buf bufferSize =
      (1 + (buf 0).toNat, some (cString (buf.bytes 1 (buf 0).toNat))) := by
  have hcrop : (if bufferSize < vnpRawUnpackUint8 buf + 1 then bufferSize - 1
      else vnpRawUnpackUint8 buf) = (buf 0).toNat := if_neg (Nat.not_lt.mpr hfirst)
  simp only [vnpRawUnpackString8ToStr, if_neg (Nat.not_lt.mpr hsize), hcrop]
  rfl

theorem only_first (hsize : 0 < bufferSize) : buf.only 0 bufferSize 0 = some (buf 0) :=
  if_pos ⟨le_rfl, hsize⟩

theorem readString8_of_lt (hsize : 2 ≤ bufferSize) (hfirst : (buf 0).toNat < bufferSize)
    (data : List UInt8) :
    readString8 (buf.only 0 bufferSize) bufferSize data =
      some (1 + (buf 0).toNat, buf.bytes 1 (buf 0).toNat) := by
  have hread : (buf.only 0 bufferSize).read 1 (buf 0).toNat = some (buf.bytes 1 (buf 0).toNat) :=
    read_only (Nat.zero_le _) (by omega)
  simp only [readString8, if_neg (Nat.not_lt.mpr hsize), only_first (by omega : 0 < bufferSize),
    Option.bind_some, if_neg (Nat.not_lt.mpr hfirst.le), hread, Option.map_some]

theorem readStr_of_lt (hsize : 2 ≤ bufferSize) (hfirst : (buf 0).toNat < bufferSize) :
    readStr (buf.only 0 bufferSize) bufferSize =
      some (1 + (buf 0).toNat, some (cString (buf.bytes 1 (buf 0).toNat))) := by
  have hread : (buf.only 0 bufferSize).read 1 (buf 0).toNat = some (buf.bytes 1 (buf 0).toNat) :=
    read_only (Nat.zero_le _) (by omega)
  simp only [readStr, if_neg (Nat.not_lt.mpr hsize), only_first (by omega : 0 < bufferSize),
    Option.bind_some, if_neg (show ¬ bufferSize < (buf 0).toNat + 1 by omega), hread,
    Option.map_some]

/-- The announced length is cropped to the whole buffer, so that the byte behind it is read. -/
theorem readString8_past (hsize : 2 ≤ bufferSize) (hfirst : bufferSize ≤ (buf 0).toNat)
    (data : List UInt8) : readString8 (buf.only 0 bufferSize) bufferSize data = none := by
  have hcrop : (if bufferSize < (buf 0).toNat then bufferSize else (buf 0).toNat) = bufferSize := by
    split <;> omega
  have hread : (buf.only 0 bufferSize).read 1 bufferSize = none :=
    read_only_eq_none (by omega) (by omega)
  simp only [readString8, if_neg (Nat.not_lt.mpr hsize), only_first (by omega : 0 < bufferSize),
    Option.bind_some, hcrop, hread, Option.map_none]

/-! ## The packed string -/

theorem length_vnpRawPackString8 (str : List UInt8) :
    (vnpRawPackString8 str).length = 1 + min str.length vrsString8MaxSize := by
  simp only [vnpRawPackString8, List.length_cons, List.length_take]
  omega

/-- What stands in a buffer that holds a packed string. -/
theorem holds_vnpRawPackString8 {str : List UInt8} (h : Holds buf (vnpRawPackString8 str)) :
    (buf 0).toNat = min str.length vrsString8MaxSize ∧
      buf.bytes 1 (buf 0).toNat = str.take vrsString8MaxSize := by
  obtain ⟨hfirst, hrest⟩ := holds_cons.mp h
  have hlen : (buf 0).toNat = min str.length vrsString8MaxSize := by
    rw [hfirst, UInt8.toNat_ofNat', vrsString8MaxSize]
    omega
  have htake : str.take (min str.length vrsString8MaxSize) = str.take vrsString8MaxSize :=
    List.take_eq_take_iff.mpr (by omega)
  have hbytes := hrest.map_range
  rw [htake, List.length_take, Nat.min_comm, ← hlen] at hbytes
  exact ⟨hlen, hbytes⟩

/-- A string of no characters is the only one that is packed into a byte. -/
theorem eq_nil_of_packed {str : List UInt8} (h : (vnpRawPackString8 str).length ≤ 1) : str = [] := by
  rw [length_vnpRawPackString8, vrsString8MaxSize] at h
  exact List.eq_nil_of_length_eq_zero (by omega)

/-! ## Both readers -/

/-- With fewer than two bytes the readers go over them and give nothing. -/
theorem staysIn_of_lt_two (hsize : bufferSize < 2)
    (hback : ∀ str, Holds buf (vnpRawPackString8 str) → ¬ (vnpRawPackString8 str).length ≤ bufferSize) :
    StaysIn buf bufferSize where
  readsString8 data := by rw [readString8, vnpRawUnpackString8ToString8, if_pos hsize, if_pos hsize]
  readsStr := by rw [readStr, vnpRawUnpackString8ToStr, if_pos hsize, if_pos hsize]
  consumedString8 data := by rw [vnpRawUnpackString8ToString8, if_pos hsize]
  consumedStr := by rw [vnpRawUnpackString8ToStr, if_pos hsize]
  same data := by
    rw [vnpRawUnpackString8ToString8, vnpRawUnpackString8ToStr, if_pos hsize, if_pos hsize]
    rfl
  back str _ hholds hfit := absurd hfit (hback str hholds)

theorem staysIn_of_two_le (hsize : 2 ≤ bufferSize) (hfirst : (buf 0).toNat < bufferSize) :
    StaysIn buf bufferSize where
  readsString8 data := by rw [readString8_of_lt hsize hfirst, string8_of_lt hsize hfirst]
  readsStr := by rw [readStr_of_lt hsize hfirst, str_of_lt hsize hfirst]
  consumedString8 data := by
    rw [string8_of_lt hsize hfirst]
    omega
  consumedStr := by
    rw [str_of_lt hsize hfirst]
    omega
  same data := by
    rw [string8_of_lt hsize hfirst, str_of_lt hsize hfirst]
    rfl
  back str hzero hholds _ := by
    obtain ⟨hlen, hbytes⟩ := holds_vnpRawPackString8 hholds
    have hcut : cString (str.take vrsString8MaxSize) = str.take vrsString8MaxSize :=
      takeWhile_ne_zero fun hmem => hzero (List.mem_of_mem_take hmem)
    constructor
    · intro data
      rw [string8_of_lt hsize hfirst, hbytes, length_vnpRawPackString8, hlen]
    · rw [str_of_lt hsize hfirst, hbytes, hcut, length_vnpRawPackString8, hlen]

/-- **When reading a string stays in the buffer.**  It does so exactly if the announced length
leaves room for itself: the buffer is empty, has one byte that announces something, or has at
least two bytes and the first of them is smaller than their number. -/
theorem staysIn_iff (buf : Mem) (bufferSize : ℕ) :
    StaysIn buf bufferSize ↔ Announced buf bufferSize := by
  constructor
  · intro h
    by_cases hsize : 2 ≤ bufferSize
    · refine Or.inr (Or.inr ⟨hsize, Nat.lt_of_not_le fun hfirst => ?_⟩)
      have hread := (readString8_past hsize hfirst []).symm.trans (h.readsString8 [])
      cases hread
    · rcases Nat.eq_zero_or_pos bufferSize with hzero | hpos
      · exact Or.inl hzero
      · have hone : bufferSize = 1 := by omega
        refine Or.inr (Or.inl ⟨hone, fun hbyte => ?_⟩)
        -- the byte is the packed empty string, and no string is made of it
        have hholds : Holds buf (vnpRawPackString8 []) := holds_cons.mpr ⟨hbyte, holds_nil _⟩
        have hback := (h.back [] (List.not_mem_nil) hholds (by rw [hone]; exact le_rfl)).2
        rw [vnpRawUnpackString8ToStr, if_pos (by omega)] at hback
        cases congrArg Prod.snd hback
  · intro h
    rcases h with hzero | ⟨hone, hbyte⟩ | ⟨hsize, hfirst⟩
    · refine staysIn_of_lt_two (by omega) fun str _ hfit => ?_
      rw [length_vnpRawPackString8] at hfit
      omega
    · refine staysIn_of_lt_two (by omega) fun str hholds hfit => hbyte ?_
      rw [hone] at hfit
      rw [eq_nil_of_packed hfit] at hholds
      exact (holds_cons.mp hholds).1
    · exact staysIn_of_two_le hsize hfirst

/-- A buffer of two bytes the first of which announces two characters. -/
theorem not_staysIn : ¬ ∀ (buf : Mem) (bufferSize : ℕ), StaysIn buf bufferSize := by
  intro hall
  have hconsumed := (hall (ofBytes [2, 97]) 2).consumedString8 []
  exact absurd hconsumed (by decide)

end Readers

end Verse.Strings
