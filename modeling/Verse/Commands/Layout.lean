import Verse.Commands.Unpack
import Mathlib.Data.List.GetD
import Mathlib.Data.List.TakeWhile

/-!
# Facts about the layouts

What the code relies on in `cmd_struct` and never checks: the items of a command
stand one after the other without holes, the sizes of the key items are those of
their types, and a command that may share its address has something behind it.
They are checked once for all entries of the table.

From them follows that the items of one command survive the trip
(`unpackItems_packItems`), which both kinds of groups build on.
-/

namespace Verse

open Lib

/-- The items stand one after the other, the first at `off`. -/
def Consecutive : ℕ → List CmdItem → Prop
  | _, [] => True
  | off, item :: rest => item.offset = off ∧ Consecutive (off + item.type.dataWidth) rest

instance decidableConsecutive : ∀ off items, Decidable (Consecutive off items)
  | _, [] => isTrue trivial
  | off, item :: rest =>
      haveI := decidableConsecutive (off + item.type.dataWidth) rest
      inferInstanceAs (Decidable (item.offset = off ∧ _))

/-- The sizes of items added up. -/
def sizeSum (items : List CmdItem) : ℕ := (items.map (·.size)).sum

/-- The bytes items take in `cmd->data`. -/
def widthSum (items : List CmdItem) : ℕ := (items.map fun item => item.type.dataWidth).sum

theorem sizeSum_take_le (items : List CmdItem) (k : ℕ) : sizeSum (items.take k) ≤ sizeSum items := by
  have hsplit : sizeSum (items.take k) + sizeSum (items.drop k) = sizeSum items := by
    rw [sizeSum, sizeSum, sizeSum, ← List.sum_append, ← List.map_append, List.take_append_drop]
  omega

/-- What every node command of the table fulfils. -/
structure CmdStruct.Sound (s : CmdStruct) : Prop where
  count : s.items.length = s.itemCount
  keys : s.keyCount ≤ s.itemCount
  consecutive : Consecutive 0 s.items
  keySizes : ∀ item ∈ s.keyItems, item.size = item.type.dataWidth ∧ 0 < item.size
  keySize : sizeSum s.keyItems = s.keySize
  keyPos : 0 < s.keySize
  shareRoom : s.sharesAddr = true → s.keySize < s.size
  small : s.size < 256
  dataPos : 0 < s.dataSize
  noString : s.varLen = false → ∀ item ∈ s.items, item.type ≠ .string8
  fixedSize : s.varLen = false → s.dataSize = s.size
  cmdSize : s.varLen = false → s.cmdSize = s.size + if s.sharesAddr then 3 else 2

instance (s : CmdStruct) : Decidable s.Sound :=
  decidable_of_iff
    (s.items.length = s.itemCount ∧ s.keyCount ≤ s.itemCount ∧ Consecutive 0 s.items ∧
      (∀ item ∈ s.keyItems, item.size = item.type.dataWidth ∧ 0 < item.size) ∧
      sizeSum s.keyItems = s.keySize ∧ 0 < s.keySize ∧
      (s.sharesAddr = true → s.keySize < s.size) ∧ s.size < 256 ∧ 0 < s.dataSize ∧
      (s.varLen = false → ∀ item ∈ s.items, item.type ≠ .string8) ∧
      (s.varLen = false → s.dataSize = s.size) ∧
      (s.varLen = false → s.cmdSize = s.size + if s.sharesAddr then 3 else 2))
    ⟨fun ⟨a, b, c, d, e, f, g, h, i, j, k, l⟩ => ⟨a, b, c, d, e, f, g, h, i, j, k, l⟩,
      fun ⟨a, b, c, d, e, f, g, h, i, j, k, l⟩ => ⟨a, b, c, d, e, f, g, h, i, j, k, l⟩⟩

/-- Every node command of the table is laid out soundly. -/
theorem cmdStructTable_sound : ∀ s ∈ cmdStructTable, s.isNodeCmd = true → s.Sound := by
  decide +kernel

theorem cmdStruct_mem (id : ℕ) : cmdStruct id ∈ cmdStructTable ∨ cmdStruct id = .reserved := by
  unfold cmdStruct
  by_cases h : id < cmdStructTable.length
  · left
    rw [List.getD_eq_getElem _ _ h]
    exact List.getElem_mem h
  · right
    exact List.getD_eq_default _ _ (Nat.le_of_not_lt h)

theorem cmdStruct_sound {id : ℕ} (h : (cmdStruct id).isNodeCmd = true) : (cmdStruct id).Sound := by
  rcases cmdStruct_mem id with hmem | hres
  · exact cmdStructTable_sound _ hmem h
  · rw [hres] at h
    exact absurd h (by decide)

/-- A shared address is part of the key. -/
theorem CmdStruct.Sound.sizeSum_take_le {s : CmdStruct} (h : s.Sound) {k : ℕ}
    (hk : k ≤ s.keyCount) : sizeSum (s.items.take k) ≤ s.keySize := by
  have hkeys : s.keyItems.take k = s.items.take k := by
    rw [CmdStruct.keyItems, List.take_take, Nat.min_eq_left hk]
  rw [← hkeys, ← h.keySize]
  exact Verse.sizeSum_take_le s.keyItems k

/-! ## Consecutive items -/

theorem Consecutive.drop {off : ℕ} {items : List CmdItem} (h : Consecutive off items) (k : ℕ) :
    Consecutive (off + widthSum (items.take k)) (items.drop k) := by
  induction items generalizing off k with
  | nil => simp [Consecutive]
  | cons item rest ih =>
      cases k with
      | zero => simpa [widthSum] using h
      | succ k =>
          have := ih h.2 k
          simpa [widthSum, Nat.add_assoc] using this

theorem Consecutive.take {off : ℕ} {items : List CmdItem} (h : Consecutive off items) (k : ℕ) :
    Consecutive off (items.take k) := by
  induction items generalizing off k with
  | nil => simp [Consecutive]
  | cons item rest ih =>
      cases k with
      | zero => exact trivial
      | succ k => exact ⟨h.1, ih h.2 k⟩

/-- Data is the same up to the end of consecutive items if it is the same in front of them and
in each of them. -/
theorem take_sizeSum_eq_iff {a b : List UInt8} {items : List CmdItem} {off : ℕ}
    (hcons : Consecutive off items) (hsize : ∀ item ∈ items, item.size = item.type.dataWidth) :
    a.take (off + sizeSum items) = b.take (off + sizeSum items) ↔
      a.take off = b.take off ∧
        ∀ item ∈ items, slice a item.offset item.size = slice b item.offset item.size := by
  induction items generalizing off with
  | nil => simp [sizeSum]
  | cons item rest ih =>
      obtain ⟨hoff, hrest⟩ := hcons
      have hsum : off + sizeSum (item :: rest) = off + item.size + sizeSum rest := by
        simp [sizeSum, Nat.add_assoc]
      have hstep : a.take (off + item.size) = b.take (off + item.size) ↔
          a.take off = b.take off ∧ slice a item.offset item.size = slice b item.offset item.size := by
        rw [hoff]
        constructor
        · intro h
          constructor
          · have htake := congrArg (List.take off) h
            simpa [List.take_take] using htake
          · have hdrop := congrArg (List.drop off) h
            simpa [List.drop_take, slice] using hdrop
        · intro h
          rw [← take_append_slice, ← take_append_slice, h.1, h.2]
      rw [← hsize item (by simp)] at hrest
      rw [hsum, ih hrest fun i hi => hsize i (by simp [hi]), hstep, List.forall_mem_cons, and_assoc]

theorem widthSum_take_add_drop (items : List CmdItem) (k : ℕ) :
    widthSum (items.take k) + widthSum (items.drop k) = widthSum items := by
  rw [widthSum, widthSum, widthSum, ← List.sum_append, ← List.map_append, List.take_append_drop]

/-- The loop that looks for a shared address finds a prefix of the key items. -/
theorem sharedItems_take {items : List CmdItem} (hpos : ∀ item ∈ items, 0 < item.size)
    {k : ℕ} (hk : k ≤ items.length) (start : ℕ) :
    sharedItems (start + sizeSum (items.take k)) items start =
      (start + sizeSum (items.take k), k) := by
  induction items generalizing k start with
  | nil =>
      obtain rfl : k = 0 := by simpa using hk
      simp [sharedItems, sizeSum]
  | cons item rest ih =>
      cases k with
      | zero => simp [sharedItems, sizeSum]
      | succ k =>
          have hitem := hpos item (by simp)
          have hrest := ih (fun i hi => hpos i (by simp [hi])) (by simpa using hk)
            (start + item.size)
          have hsum : start + sizeSum (List.take (k + 1) (item :: rest)) =
              start + item.size + sizeSum (rest.take k) := by
            simp [sizeSum, Nat.add_assoc]
          rw [hsum, sharedItems, if_pos (by omega), hrest]

/-! ## One item there and back -/

theorem holds_vnpRawPackUint8 {m : Mem} {b : UInt8} (hholds : Holds m (vnpRawPackUint8 b.toNat)) :
    m 0 = b := by
  have h : m 0 = UInt8.ofNat b.toNat := hholds 0 (by simp [vnpRawPackUint8])
  rw [h, UInt8.ofNat_toNat]

theorem leBytes_vnpRawUnpackUint8 {m : Mem} {b : List UInt8} (hlen : b.length = 1)
    (h : Holds m b.reverse) : leBytes 1 (vnpRawUnpackUint8 m) = b := by
  obtain ⟨b0, rfl⟩ := List.length_eq_one_iff.mp hlen
  have h0 : m 0 = b0 := h 0 (by simp)
  rw [← leBytes_leVal [b0], vnpRawUnpackUint8, h0]
  rfl

theorem leBytes_vnpRawUnpackUint16 {m : Mem} {b : List UInt8} (hlen : b.length = 2)
    (h : Holds m b.reverse) : leBytes 2 (vnpRawUnpackUint16 m) = b := by
  obtain ⟨b0, b1, rfl⟩ := List.length_eq_two.mp hlen
  have h0 : m 0 = b1 := h 0 (by simp)
  have h1 : m 1 = b0 := h 1 (by simp)
  have hval : vnpRawUnpackUint16 m = leVal [b0, b1] := by
    simp only [vnpRawUnpackUint16, h0, h1, leVal]
    omega
  rw [hval]
  exact leBytes_leVal [b0, b1]

theorem vnpRawUnpackUint32_eq {m : Mem} {b : List UInt8} (hlen : b.length = 4)
    (h : Holds m b.reverse) : vnpRawUnpackUint32 m = leVal b := by
  obtain ⟨b0, t, rfl⟩ := List.exists_cons_of_length_eq_add_one hlen
  obtain ⟨b1, b2, b3, rfl⟩ := List.length_eq_three.mp (by simpa using hlen)
  have h0 : m 0 = b3 := h 0 (by simp)
  have h1 : m 1 = b2 := h 1 (by simp)
  have h2 : m 2 = b1 := h 2 (by simp)
  have h3 : m 3 = b0 := h 3 (by simp)
  simp only [vnpRawUnpackUint32, h0, h1, h2, h3, leVal]
  omega

theorem leBytes_vnpRawUnpackUint32 {m : Mem} {b : List UInt8} (hlen : b.length = 4)
    (h : Holds m b.reverse) : leBytes 4 (vnpRawUnpackUint32 m) = b := by
  rw [vnpRawUnpackUint32_eq hlen h, ← hlen, leBytes_leVal]

theorem leBytes_vnpRawUnpackUint64 {m : Mem} {b : List UInt8} (hlen : b.length = 8)
    (h : Holds m b.reverse) : leBytes 8 (vnpRawUnpackUint64 m) = b := by
  -- the two words are the two halves of the bytes in memory
  have hsplit : b.reverse = (b.drop 4).reverse ++ (b.take 4).reverse := by
    rw [← List.reverse_append, List.take_append_drop]
  rw [hsplit, holds_append] at h
  obtain ⟨hhigh, hlow⟩ := h
  have hlen4 : (b.drop 4).reverse.length = 4 := by simp [hlen]
  rw [hlen4] at hlow
  have hl := vnpRawUnpackUint32_eq (by simp [hlen]) hlow
  have hlt := leVal_lt (b.take 4)
  have htake : (b.take 4).length = 4 := by simp [hlen]
  rw [htake] at hlt
  have hmod : leBytes 4 (vnpRawUnpackUint64 m) = b.take 4 := by
    rw [← leBytes_mod, vnpRawUnpackUint64, hl]
    have : (vnpRawUnpackUint32 m * 2 ^ 32 + leVal (b.take 4)) % 256 ^ 4 = leVal (b.take 4) := by
      omega
    rw [this]
    simpa [htake] using leBytes_leVal (b.take 4)
  have hdiv : vnpRawUnpackUint64 m / 256 ^ 4 = vnpRawUnpackUint32 m := by
    rw [vnpRawUnpackUint64, hl]
    omega
  rw [leBytes_add 4 4, hmod, hdiv, leBytes_vnpRawUnpackUint32 (by simp [hlen]) hhigh,
    List.take_append_drop]

/-- A packed number is its bytes in memory, turned round. -/
theorem packItem_scalar {cmd : GenericCmd} {item : CmdItem} (htype : item.type ≠ .string8)
    (hroom : item.offset + item.type.width ≤ cmd.data.length) :
    packItem cmd item = (slice cmd.data item.offset item.type.width).reverse := by
  have hlen := length_slice hroom
  have hle := leBytes_leVal (slice cmd.data item.offset item.type.width)
  rw [hlen] at hle
  obtain ⟨type, size, offset⟩ := item
  cases type <;>
    simp_all [packItem, GenericCmd.read, CmdItemType.width, vnpRawPackUint8_eq,
      vnpRawPackUint16_eq, vnpRawPackUint32_eq, vnpRawPackUint64_eq, slice]

/-- Unpacking a number writes back the bytes it had in memory. -/
theorem unpackItem_scalar {m : Mem} {bufferSize : ℕ} {item : CmdItem} {cmd : GenericCmd}
    {b : List UInt8} (htype : item.type ≠ .string8) (hlen : b.length = item.type.width)
    (h : Holds m b.reverse) :
    unpackItem m bufferSize item cmd = (item.type.width, cmd.store item.offset b) := by
  obtain ⟨type, size, offset⟩ := item
  cases type
  case reserved =>
    obtain rfl : b = [] := by simpa [CmdItemType.width] using hlen
    simp [unpackItem, CmdItemType.width, GenericCmd.store]
  case int8 | uint8 =>
    simp only [unpackItem, CmdItemType.width, leBytes_vnpRawUnpackUint8 hlen h]
  case int16 | uint16 | real16 =>
    simp only [unpackItem, CmdItemType.width, leBytes_vnpRawUnpackUint16 hlen h]
  case int32 | uint32 | real32 =>
    simp only [unpackItem, CmdItemType.width, leBytes_vnpRawUnpackUint32 hlen h]
  case int64 | uint64 | real64 =>
    simp only [unpackItem, CmdItemType.width, leBytes_vnpRawUnpackUint64 hlen h]
  case string8 => exact absurd rfl htype

/-! ## The items of one command there and back -/

/-- The string of a command can be sent: it is short enough and a C string. -/
def GenericCmd.StrOk (cmd : GenericCmd) : Prop :=
  ∃ s, cmd.str = some s ∧ s.length ≤ vrsString8MaxSize ∧ 0 ∉ s

theorem length_packItem_string {cmd : GenericCmd} {item : CmdItem} (htype : item.type = .string8)
    (hstr : cmd.StrOk) : (packItem cmd item).length = 1 + strLen cmd := by
  obtain ⟨s, hs, hlen, -⟩ := hstr
  simp only [packItem, htype, vnpRawPackString8, strLen, hs, Option.getD_some, List.length_cons,
    List.length_take]
  omega

/-- A string comes back when at least two bytes of the buffer are left. -/
theorem unpackItem_string {m : Mem} {bufferSize : ℕ} {item : CmdItem} {cmd cmd' : GenericCmd}
    (htype : item.type = .string8) (hstr : cmd.StrOk) (h : Holds m (packItem cmd item))
    (hroom : 1 + strLen cmd ≤ bufferSize) (htwo : 2 ≤ bufferSize) :
    unpackItem m bufferSize item cmd' = (1 + strLen cmd, { cmd' with str := cmd.str }) := by
  obtain ⟨s, hs, hlen, hzero⟩ := hstr
  have hmin : min s.length vrsString8MaxSize = s.length := Nat.min_eq_left hlen
  simp only [packItem, htype, vnpRawPackString8, hs, Option.getD_some, hmin, List.take_length] at h
  rw [holds_cons] at h
  obtain ⟨h0, hbody⟩ := h
  have hlen255 : s.length ≤ 255 := hlen
  have hval : vnpRawUnpackUint8 m = s.length := by
    rw [vnpRawUnpackUint8, h0, UInt8.toNat_ofNat']
    omega
  have hbytes := hbody.map_range
  have hwhile := takeWhile_ne_zero hzero
  simp only [strLen, hs, Option.getD_some] at hroom ⊢
  simp only [unpackItem, htype, vnpRawUnpackString8ToStr, if_neg (Nat.not_lt.mpr htwo), hval,
    if_neg (show ¬ bufferSize < s.length + 1 by omega), hbytes, hwhile]

theorem store_take {cmd c : GenericCmd} {off w : ℕ} (hlen : cmd.data.length = c.data.length)
    (htake : cmd.data.take off = c.data.take off) (hroom : off + w ≤ c.data.length) :
    (cmd.store off (slice c.data off w)).data.length = c.data.length ∧
      (cmd.store off (slice c.data off w)).data.take (off + w) = c.data.take (off + w) := by
  have hslice := length_slice hroom
  have hprefix : (cmd.data.take off ++ slice c.data off w).length = off + w := by
    rw [List.length_append, List.length_take, hslice]
    omega
  constructor
  · simp only [GenericCmd.store, List.length_append, List.length_take, List.length_drop, hslice]
    omega
  · rw [GenericCmd.store, List.take_append_of_le_length (Nat.le_of_eq hprefix.symm), htake,
      take_append_slice, List.take_take, Nat.min_self]

/-- What is in the packet after the items of one command were packed. -/
def wire (cmd : GenericCmd) (items : List CmdItem) : List UInt8 := items.flatMap (packItem cmd)

/-- Items that stand one after the other come back unchanged, given that what
stands before them is there already. -/
theorem unpackItems_wire {buf : Mem} {bufferLen : ℕ} (hbuf : bufferLen < 2 ^ 32) {c : GenericCmd}
    {items : List CmdItem} {off pos : ℕ} {cmd : GenericCmd}
    (hcons : Consecutive off items) (hoff : off + widthSum items = c.data.length)
    (hpos : pos + (wire c items).length ≤ bufferLen)
    (hholds : Holds (buf.shift pos) (wire c items))
    (hstr : ∀ item ∈ items, item.type = .string8 →
      c.StrOk ∧ (0 < strLen c ∨ pos + (wire c items).length < bufferLen))
    (hlen : cmd.data.length = c.data.length) (htake : cmd.data.take off = c.data.take off) :
    unpackItems buf bufferLen items pos cmd =
      (pos + (wire c items).length, ⟨cmd.id, c.data,
        if ∃ item ∈ items, item.type = .string8 then c.str else cmd.str⟩) := by
  induction items generalizing off pos cmd with
  | nil =>
      have hdata : cmd.data = c.data := by
        have hfull : off = c.data.length := by simpa [widthSum] using hoff
        rw [hfull, List.take_length, ← hlen, List.take_length] at htake
        exact htake
      obtain ⟨id, data, str⟩ := cmd
      simp only at hdata
      simp [unpackItems, wire, hdata]
  | cons item rest ih =>
      obtain ⟨hoffset, hrest⟩ := hcons
      have hwire : wire c (item :: rest) = packItem c item ++ wire c rest := by simp [wire]
      rw [hwire, List.length_append] at hpos hstr
      rw [hwire, holds_append, shift_shift] at hholds
      obtain ⟨hitem, htail⟩ := hholds
      have hsum : widthSum (item :: rest) = item.type.dataWidth + widthSum rest := by
        simp [widthSum]
      rw [hsum] at hoff
      have hsub : sub32 bufferLen pos = bufferLen - pos := by
        unfold sub32
        omega
      have hrestStr : ∀ i ∈ rest, i.type = .string8 → c.StrOk ∧
          (0 < strLen c ∨ pos + (packItem c item).length + (wire c rest).length < bufferLen) := by
        intro i hi ht
        have := hstr i (List.mem_cons_of_mem _ hi) ht
        rwa [← Nat.add_assoc] at this
      rw [unpackItems, hsub, hwire, List.length_append, ← Nat.add_assoc]
      by_cases htype : item.type = .string8
      · obtain ⟨hok, hroom⟩ := hstr item (by simp) htype
        have hplen := length_packItem_string htype hok
        rw [unpackItem_string htype hok hitem (by omega) (by omega)]
        simp only
        rw [← hplen]
        have hw : item.type.dataWidth = 0 := by rw [htype]; rfl
        rw [hw] at hoff hrest
        refine (ih hrest (by omega) (by omega) htail hrestStr ?_ ?_).trans ?_
        · exact hlen
        · exact htake
        · simp [htype]
      · have hw : item.type.dataWidth = item.type.width := by
          cases h : item.type <;> simp_all [CmdItemType.dataWidth]
        rw [hw] at hoff hrest
        have hroom : item.offset + item.type.width ≤ c.data.length := by omega
        have hpack := packItem_scalar htype hroom
        have hslice := length_slice hroom
        have hplen : (packItem c item).length = item.type.width := by simp [hpack, hslice]
        rw [hpack] at hitem
        rw [unpackItem_scalar htype hslice hitem, hoffset]
        simp only
        rw [← hplen] at hoff hrest hslice ⊢
        obtain ⟨hlen', htake'⟩ := store_take hlen htake
          (show off + (packItem c item).length ≤ c.data.length by omega)
        rw [ih hrest (by omega) (by omega) htail hrestStr hlen' htake']
        simp [htype, GenericCmd.store]

end Verse
