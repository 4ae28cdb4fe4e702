import Mathlib.Order.Bounds.Defs
import Verse.Commands.Counting
import Verse.Commands.Skipping

/-!
# The size of a shared address

`v_cmd_cmp_addr` compares the key items of two commands one after the other and adds up their
sizes; `v_cmd_pack` and `_v_cmd_unpack` add them up again to find how many items a size stands
for.  Since no key item is empty, a size stands for one number of items only.

The comparison ends at the first item that is different or when the size allowed is reached.
That size is not asked to be one of whole items: what comes out is the first size that is not
below it.  A command of variable length shares no address, whatever its bits say.
-/

namespace Verse

open Lib

/-- The size of the first `k` key items. -/
def CmdStruct.addrSize (s : CmdStruct) (k : ℕ) : ℕ := sizeSum (s.keyItems.take k)

/-- The sizes of the prefixes of the key items on which two commands agree byte for byte, for
the numbers of items that `allowed` admits. -/
def agreedSizes (cmd1 cmd2 : GenericCmd) (allowed : ℕ → Prop) : Set ℕ :=
  {size | ∃ k ≤ cmd1.layout.keyCount, size = cmd1.layout.addrSize k ∧
    cmd1.data.take size = cmd2.data.take size ∧ allowed k}

/-- The comparison gives the largest size of a prefix that is at most the size allowed. -/
def LargestShared (cmd1 cmd2 : GenericCmd) (current : ℕ) : Prop :=
  IsGreatest (agreedSizes cmd1 cmd2 fun k => cmd1.layout.addrSize k ≤ current)
    (vCmdCmpAddr cmd1 cmd2 current)

/-- Both the sender and the receiver take the size of the first `k` key items for just these
items: `v_cmd_pack` leaves them out of every command but the first one, and `_v_cmd_unpack`
fills them in. -/
structure StandsFor (id : UInt8) (k : ℕ) : Prop where
  byte : (cmdStruct id.toNat).addrSize k < 2 ^ 8
  packFirst : ∀ cmd : GenericCmd, cmd.id = id → ∀ length ≠ 0,
    vCmdPack cmd length ((cmdStruct id.toNat).addrSize k) =
      some (vnpRawPackUint8 id.toNat ++ vCmdPackLen length ++
        vnpRawPackUint8 ((cmdStruct id.toNat).addrSize k) ++ packItems cmd 0)
  packNext : ∀ cmd : GenericCmd, cmd.id = id →
    vCmdPack cmd 0 ((cmdStruct id.toNat).addrSize k) = some (packItems cmd k)
  unpack : ∀ buf bufferLen, buf 0 = id →
    (buf (headerSize buf)).toNat = (cmdStruct id.toNat).addrSize k →
      vCmdUnpackOne buf bufferLen = unpackData buf bufferLen id (announcedLen buf)
        (headerSize buf + 1 + (cmdStruct id.toNat).addrSize k)
        ((cmdStruct id.toNat).size - (cmdStruct id.toNat).addrSize k)
        ((cmdStruct id.toNat).addrSize k) k (headerSize buf + 1)

/-! ## Sizes of prefixes -/

theorem sizeSum_append (front back : List CmdItem) :
    sizeSum (front ++ back) = sizeSum front + sizeSum back := by
  rw [sizeSum, sizeSum, sizeSum, List.map_append, List.sum_append]

theorem sizeSum_take_mono (items : List CmdItem) {j k : ℕ} (h : j ≤ k) :
    sizeSum (items.take j) ≤ sizeSum (items.take k) := by
  have hprefix := sizeSum_take_le (items.take k) j
  rwa [List.take_take, Nat.min_eq_left h] at hprefix

/-- One item more, and one that is not empty. -/
theorem sizeSum_take_lt {items : List CmdItem} (hpos : ∀ item ∈ items, 0 < item.size) {j k : ℕ}
    (h : j < k) (hk : k ≤ items.length) : sizeSum (items.take j) < sizeSum (items.take k) := by
  have hj : j < items.length := lt_of_lt_of_le h hk
  have hnext : sizeSum (items.take (j + 1)) = sizeSum (items.take j) + items[j].size := by
    rw [List.take_succ_eq_append_getElem hj, sizeSum_append]
    simp [sizeSum]
  calc sizeSum (items.take j) < sizeSum (items.take j) + items[j].size :=
        Nat.lt_add_of_pos_right (hpos items[j] (List.getElem_mem hj))
    _ = sizeSum (items.take (j + 1)) := hnext.symm
    _ ≤ sizeSum (items.take k) := sizeSum_take_mono items h

/-! ## The comparison -/

section Compare

variable {cmd1 cmd2 : GenericCmd} {current : ℕ}

/-- The bytes of an item are the same in both commands. -/
def SameItem (cmd1 cmd2 : GenericCmd) (item : CmdItem) : Prop :=
  slice cmd1.data item.offset item.size = slice cmd2.data item.offset item.size

/-- Where the loop over the items ends: with all items, at the size allowed, or at an item that
is different. -/
theorem cmpItems_spec (items : List CmdItem) (start : ℕ) :
    ∃ k ≤ items.length,
      vCmdCmpAddr.cmpItems cmd1 cmd2 current items start = start + sizeSum (items.take k) ∧
      (∀ item ∈ items.take k, SameItem cmd1 cmd2 item) ∧
      (∀ j < k, start + sizeSum (items.take j) < current) ∧
      (k = items.length ∨ current ≤ start + sizeSum (items.take k) ∨
        ∃ item, items[k]? = some item ∧ ¬ SameItem cmd1 cmd2 item) := by
  induction items generalizing start with
  | nil => exact ⟨0, le_rfl, rfl, by simp, by simp, Or.inl rfl⟩
  | cons item rest ih =>
      rw [vCmdCmpAddr.cmpItems]
      split
      case isFalse hend =>
        refine ⟨0, Nat.zero_le _, rfl, by simp, by simp, Or.inr (Or.inl ?_)⟩
        exact Nat.le_of_not_lt hend
      case isTrue hlt =>
        split
        case isFalse hdiff =>
          exact ⟨0, Nat.zero_le _, rfl, by simp, by simp, Or.inr (Or.inr ⟨item, rfl, hdiff⟩)⟩
        case isTrue hsame =>
          obtain ⟨k, hk, hsum, hagree, hbelow, hstop⟩ := ih (start + item.size)
          have hcons : ∀ j, start + sizeSum ((item :: rest).take (j + 1)) =
              start + item.size + sizeSum (rest.take j) := by
            intro j
            simp [sizeSum, Nat.add_assoc]
          refine ⟨k + 1, Nat.succ_le_succ hk, hsum.trans (hcons k).symm, ?_, ?_, ?_⟩
          · exact List.forall_mem_cons.mpr ⟨hsame, hagree⟩
          · intro j hj
            cases j with
            | zero => exact hlt
            | succ j =>
                rw [hcons]
                exact hbelow j (Nat.lt_of_succ_lt_succ hj)
          · rw [hcons]
            exact hstop.imp (congrArg (· + 1)) id

/-! ## Commands of the table -/

theorem isNodeCmd_of_sharesAddr {id : ℕ} (h : (cmdStruct id).sharesAddr = true) :
    (cmdStruct id).isNodeCmd = true := by
  by_contra hnode
  rw [cmdStruct_unused (Bool.eq_false_iff.mpr hnode)] at h
  cases h

namespace CmdStruct.Sound

variable {s : CmdStruct} (h : s.Sound)

include h

theorem length_keyItems : s.keyItems.length = s.keyCount := by
  rw [CmdStruct.keyItems, List.length_take, h.count, Nat.min_eq_left h.keys]

theorem addrSize_keyCount : s.addrSize s.keyCount = s.keySize := by
  rw [CmdStruct.addrSize, ← h.length_keyItems, List.take_length, h.keySize]

theorem addrSize_lt {j k : ℕ} (hjk : j < k) (hk : k ≤ s.keyCount) : s.addrSize j < s.addrSize k :=
  sizeSum_take_lt (fun item hitem => (h.keySizes item hitem).2) hjk (h.length_keyItems ▸ hk)

theorem addrSize_le_keySize (k : ℕ) : s.addrSize k ≤ s.keySize := by
  rw [← h.keySize]
  exact Verse.sizeSum_take_le s.keyItems k

/-- A size that is the size of a prefix, or that is not below the size of the whole key, is
respected by the comparison. -/
theorem below_iff {current k : ℕ} (hk : k ≤ s.keyCount)
    (hcurrent : s.keySize ≤ current ∨ ∃ i ≤ s.keyCount, current = s.addrSize i) :
    (∀ j < k, s.addrSize j < current) ↔ s.addrSize k ≤ current := by
  constructor
  · intro hbelow
    rcases hcurrent with hall | ⟨i, -, rfl⟩
    · exact (h.addrSize_le_keySize k).trans hall
    · have hle : k ≤ i := Nat.le_of_not_lt fun hlt => Nat.lt_irrefl _ (hbelow i hlt)
      exact sizeSum_take_mono s.keyItems hle
  · intro hle j hj
    exact lt_of_lt_of_le (h.addrSize_lt hj hk) hle

/-- The number of items of a shared size is found again. -/
theorem sharedItems_addrSize {k : ℕ} (hk : k ≤ s.keyCount) :
    sharedItems (s.addrSize k) s.keyItems 0 = (s.addrSize k, k) := by
  have hfound := sharedItems_take (fun item hitem => (h.keySizes item hitem).2)
    (h.length_keyItems ▸ hk) 0
  rwa [Nat.zero_add] at hfound

theorem addrSize_eq_zero {k : ℕ} (hk : k ≤ s.keyCount) (hzero : s.addrSize k = 0) : k = 0 := by
  by_contra hne
  have hlt := h.addrSize_lt (Nat.pos_of_ne_zero hne) hk
  omega

/-- The first bytes of two commands are the same if the items in them are. -/
theorem take_addrSize_eq_iff (k : ℕ) :
    cmd1.data.take (s.addrSize k) = cmd2.data.take (s.addrSize k) ↔
      ∀ item ∈ s.keyItems.take k, SameItem cmd1 cmd2 item := by
  have hcons : Consecutive 0 (s.keyItems.take k) := (h.consecutive.take s.keyCount).take k
  have htake := @take_sizeSum_eq_iff cmd1.data cmd2.data _ _ hcons fun item hitem =>
    (h.keySizes item (List.mem_of_mem_take hitem)).1
  rw [Nat.zero_add, List.take_zero, List.take_zero] at htake
  exact htake.trans (and_iff_right rfl)

end CmdStruct.Sound

/-- The size that the comparison gives, in numbers of items. -/
theorem exists_vCmdCmpAddr (hshares : cmd1.layout.sharesAddr = true)
    (hvar : cmd1.layout.varLen = false) :
    ∃ k ≤ cmd1.layout.keyCount, vCmdCmpAddr cmd1 cmd2 current = cmd1.layout.addrSize k ∧
      (∀ item ∈ cmd1.layout.keyItems.take k, SameItem cmd1 cmd2 item) ∧
      (∀ j < k, cmd1.layout.addrSize j < current) ∧
      (k = cmd1.layout.keyCount ∨ current ≤ cmd1.layout.addrSize k ∨
        ∃ item, cmd1.layout.keyItems[k]? = some item ∧ ¬ SameItem cmd1 cmd2 item) := by
  have hlen := (cmdStruct_sound (isNodeCmd_of_sharesAddr hshares)).length_keyItems
  by_cases hpos : 0 < current
  · obtain ⟨k, hk, hsum, hagree, hbelow, hstop⟩ :=
      @cmpItems_spec cmd1 cmd2 current cmd1.layout.keyItems 0
    simp only [Nat.zero_add] at hsum hbelow hstop
    have heq : vCmdCmpAddr cmd1 cmd2 current =
        vCmdCmpAddr.cmpItems cmd1 cmd2 current cmd1.layout.keyItems 0 :=
      if_pos (by simp [hshares, hvar, hpos])
    exact ⟨k, hk.trans_eq hlen, heq.trans hsum, hagree, hbelow, hstop.imp_left fun h => h.trans hlen⟩
  · have heq : vCmdCmpAddr cmd1 cmd2 current = 0 := if_neg (by simp [hpos])
    exact ⟨0, Nat.zero_le _, heq, by simp, by simp, Or.inr (Or.inl (by omega))⟩

/-- The comparison gives the largest of the sizes that it can reach. -/
theorem isGreatest_vCmdCmpAddr (hshares : cmd1.layout.sharesAddr = true)
    (hvar : cmd1.layout.varLen = false) :
    IsGreatest (agreedSizes cmd1 cmd2 fun k => ∀ j < k, cmd1.layout.addrSize j < current)
      (vCmdCmpAddr cmd1 cmd2 current) := by
  have hsound : cmd1.layout.Sound := cmdStruct_sound (isNodeCmd_of_sharesAddr hshares)
  obtain ⟨k, hk, hsize, hagree, hbelow, hstop⟩ := @exists_vCmdCmpAddr cmd1 cmd2 current hshares hvar
  rw [hsize]
  refine ⟨⟨k, hk, rfl, (hsound.take_addrSize_eq_iff k).mpr hagree, hbelow⟩, ?_⟩
  rintro size ⟨k', hk', rfl, hsame, hallowed⟩
  -- a longer prefix would have been taken: the loop went on at item `k`
  refine sizeSum_take_mono _ (Nat.le_of_not_lt fun hlt => ?_)
  rcases hstop with hall | hfull | ⟨item, hitem, hdiff⟩
  · omega
  · exact absurd (hallowed k hlt) (Nat.not_lt.mpr hfull)
  · refine hdiff ((hsound.take_addrSize_eq_iff k').mp hsame item ?_)
    exact List.mem_of_getElem? ((List.getElem?_take_of_lt hlt).trans hitem)

/-! ## The size of a prefix in a packet -/

theorem headerSize_eq (buf : Mem) : (vCmdUnpackLen (buf.shift 1)).2.2 = headerSize buf := by
  unfold headerSize
  by_cases hlong : buf.shift 1 0 = 0xFF
  · rw [vCmdUnpackLen_long hlong]
    rfl
  · rw [vCmdUnpackLen_short hlong]
    rfl

/-- **The size of a prefix stands for the items of the prefix**, for the sender as for the
receiver. -/
theorem standsFor {id : UInt8} (hshares : (cmdStruct id.toNat).sharesAddr = true) {k : ℕ}
    (hk : k ≤ (cmdStruct id.toNat).keyCount) : StandsFor id k := by
  have hnode := isNodeCmd_of_sharesAddr hshares
  have hsound := cmdStruct_sound hnode
  have hfound := hsound.sharedItems_addrSize hk
  have hlayout : ∀ cmd : GenericCmd, cmd.id = id → cmd.layout = cmdStruct id.toNat := fun cmd hid =>
    congrArg (fun i : UInt8 => cmdStruct i.toNat) hid
  refine ⟨?_, ?_, ?_, ?_⟩
  · calc (cmdStruct id.toNat).addrSize k ≤ (cmdStruct id.toNat).keySize := hsound.addrSize_le_keySize k
      _ < (cmdStruct id.toNat).size := hsound.shareRoom hshares
      _ < 2 ^ 8 := hsound.small
  · intro cmd hid length hlength
    simp only [vCmdPack, hlayout cmd hid, if_pos hlength, hshares, if_true, hid]
  · intro cmd hid
    by_cases hzero : (cmdStruct id.toNat).addrSize k = 0
    · have hk0 := hsound.addrSize_eq_zero hk hzero
      simp [vCmdPack, hk0, CmdStruct.addrSize, sizeSum]
    · have hbit : ((cmdStruct id.toNat).sharesAddr && (cmdStruct id.toNat).addrSize k != 0) = true := by
        simp [hshares, hzero]
      simp only [vCmdPack, hlayout cmd hid, ne_eq, not_true_eq_false, if_false, hbit, if_true, hfound]
  · intro buf bufferLen hid hbyte
    rw [← hid] at hnode hshares hfound hbyte ⊢
    have haddr := headerSize_eq buf
    have hshare := hbyte
    rw [headerSize] at hshare
    by_cases hzero : (cmdStruct (buf 0).toNat).addrSize k = 0
    · have hk0 : k = 0 := by
        rw [hid] at hzero
        exact hsound.addrSize_eq_zero hk hzero
      simp only [vCmdUnpackOne, hnode, hshares, Bool.not_true, Bool.false_eq_true, if_false, if_true,
        hshare, hk0, haddr, ne_eq, announcedLen, headerSize]
      rfl
    · simp only [vCmdUnpackOne, hnode, hshares, Bool.not_true, Bool.false_eq_true, if_false, if_true,
        hshare, hfound, haddr, ne_eq, hzero, not_false_eq_true, not_true_eq_false, announcedLen,
        headerSize]

/-! ## The comparison as it is used -/

/-- **What `v_cmd_cmp_addr` gives** for a command that shares its address: nothing if it has a
variable length, and else the largest size of an agreed prefix all shorter prefixes of which
are below the size allowed.  For the size of a prefix and for a size not below that of the
whole key, it is the largest that is at most the size allowed.  Every size of a prefix stands
for its items. -/
theorem vCmdCmpAddr_shares (cmd1 cmd2 : GenericCmd) (current : ℕ)
    (hshares : cmd1.layout.sharesAddr = true) :
    (cmd1.layout.varLen = true → vCmdCmpAddr cmd1 cmd2 current = 0) ∧
      (cmd1.layout.varLen = false →
        IsGreatest (agreedSizes cmd1 cmd2 fun k => ∀ j < k, cmd1.layout.addrSize j < current)
          (vCmdCmpAddr cmd1 cmd2 current) ∧
        (cmd1.layout.keySize ≤ current ∨
          (∃ i ≤ cmd1.layout.keyCount, current = cmd1.layout.addrSize i) →
            LargestShared cmd1 cmd2 current)) ∧
      ∀ k ≤ cmd1.layout.keyCount, StandsFor cmd1.id k := by
  refine ⟨fun hvar => if_neg (by simp [hvar]), fun hvar => ?_, fun k hk => standsFor hshares hk⟩
  have hgreatest := @isGreatest_vCmdCmpAddr cmd1 cmd2 current hshares hvar
  refine ⟨hgreatest, fun hcurrent => ?_⟩
  have hsound : cmd1.layout.Sound := cmdStruct_sound (isNodeCmd_of_sharesAddr hshares)
  have hsets : (agreedSizes cmd1 cmd2 fun k => ∀ j < k, cmd1.layout.addrSize j < current) =
      agreedSizes cmd1 cmd2 fun k => cmd1.layout.addrSize k ≤ current := by
    ext size
    constructor
    · rintro ⟨k, hk, hsize, hsame, hbelow⟩
      exact ⟨k, hk, hsize, hsame, (hsound.below_iff hk hcurrent).mp hbelow⟩
    · rintro ⟨k, hk, hsize, hsame, hle⟩
      exact ⟨k, hk, hsize, hsame, (hsound.below_iff hk hcurrent).mpr hle⟩
  rw [LargestShared, ← hsets]
  exact hgreatest

/-- Two `Layer_UnSet_Value` commands for one node and two layers share four bytes. -/
theorem vCmdCmpAddr_layers :
    LargestShared ⟨132, [7, 0, 0, 0, 1, 0, 9, 0, 0, 0], none⟩
        ⟨132, [7, 0, 0, 0, 2, 0, 9, 0, 0, 0], none⟩ 0xFF ∧
      vCmdCmpAddr ⟨132, [7, 0, 0, 0, 1, 0, 9, 0, 0, 0], none⟩
        ⟨132, [7, 0, 0, 0, 2, 0, 9, 0, 0, 0], none⟩ 0xFF = 4 :=
  ⟨((vCmdCmpAddr_shares _ _ 0xFF (by decide)).2.1 (by decide)).2 (Or.inl (by decide)), by decide⟩

/-- Two equal strings share nothing, and two equal values share the whole node id although
one byte only is allowed. -/
theorem not_largestShared :
    (¬ LargestShared ⟨98, [7, 0, 0, 0, 1, 0, 2, 0], some [97]⟩
        ⟨98, [7, 0, 0, 0, 1, 0, 2, 0], some [97]⟩ 0xFF) ∧
      ¬ LargestShared ⟨132, [7, 0, 0, 0, 1, 0, 9, 0, 0, 0], none⟩
        ⟨132, [7, 0, 0, 0, 1, 0, 9, 0, 0, 0], none⟩ 1 := by
  constructor
  · intro hlargest
    exact absurd (hlargest.2 ⟨1, by decide, rfl, rfl, by decide⟩) (by decide)
  · intro hlargest
    obtain ⟨k, -, hsize, -, hle⟩ := hlargest.1
    exact absurd (hsize.trans_le hle) (by decide)

end Compare

end Verse
