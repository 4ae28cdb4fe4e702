import Verse.Commands.Layout

/-!
# Groups of commands there and back

Commands of one id that follow one another are sent as a group: one header, the
first command in full, and the others without the part of the address that all
of them share.

## Strategy

`CmdGroup` is a group whose commands agree on the shared key items.  The header
announces a length, from which the receiver computes a count.  The main lemma
`vCmdUnpackOne_group` allows the announced count to be larger than the number of
commands when the buffer ends with the group, since the receiver stops at the end
of the buffer; a group that is complete (`vCmdUnpack_packGroups`) is the case in
which both numbers are equal.
-/

namespace Verse

open Lib

/-! ## Groups -/

/-- Commands of one id that share their first `keys` key items. -/
structure CmdGroup where
  id : UInt8
  keys : ℕ
  first : GenericCmd
  others : List GenericCmd
  isNode : (cmdStruct id.toNat).isNodeCmd = true
  fixedLen : (cmdStruct id.toNat).varLen = false
  sameId : ∀ c ∈ first :: others, c.id = id
  sized : ∀ c ∈ first :: others, c.data.length = (cmdStruct id.toNat).size ∧ c.str = none
  keys_le : keys ≤ (cmdStruct id.toNat).keyCount
  noShare : (cmdStruct id.toNat).sharesAddr = false → keys = 0
  agree : ∀ c ∈ others, ∀ item ∈ (cmdStruct id.toNat).items.take keys,
    slice c.data item.offset item.size = slice first.data item.offset item.size

/-- The length of a group of `count` commands, as a number without a bound. -/
def groupLength (s : CmdStruct) (count share : ℕ) : ℕ :=
  let header := if s.sharesAddr then 3 + share else 2
  if header + count * (s.size - share) < 0xFF then header + count * (s.size - share)
  else header + 2 + count * (s.size - share)

namespace CmdGroup

variable (g : CmdGroup)

def layout : CmdStruct := cmdStruct g.id.toNat

def cmds : List GenericCmd := g.first :: g.others

/-- The size of the shared part of the address. -/
def share : ℕ := sizeSum (g.layout.items.take g.keys)

/-- The length of the group in a packet. -/
def length : ℕ := groupLength g.layout g.cmds.length g.share

/-- How a group is written: the first command with the length of the group, the
others with length 0. -/
def pack : Option (List UInt8) := do
  let first ← vCmdPack g.first (vCmdsLen g.first g.cmds.length g.share 0) g.share
  let others ← g.others.mapM fun c => vCmdPack c 0 g.share
  pure (first ++ others.flatten)

variable {g}

theorem sound : g.layout.Sound := cmdStruct_sound g.isNode

theorem layout_first : g.first.layout = g.layout := by
  rw [GenericCmd.layout, g.sameId g.first (by simp), layout]

theorem layout_other {c : GenericCmd} (hc : c ∈ g.others) : c.layout = g.layout := by
  rw [GenericCmd.layout, g.sameId c (by simp [hc]), layout]

theorem keys_le_keyCount : g.keys ≤ g.layout.keyCount := g.keys_le

theorem keyItems_take : g.layout.keyItems.take g.keys = g.layout.items.take g.keys := by
  rw [CmdStruct.keyItems, List.take_take, Nat.min_eq_left keys_le_keyCount]

/-- The shared size is the number of bytes the shared items take. -/
theorem share_eq_widthSum : g.share = widthSum (g.layout.items.take g.keys) := by
  rw [share, ← keyItems_take, sizeSum, widthSum]
  congr 1
  apply List.map_congr_left
  intro item hitem
  exact (g.sound.keySizes item (List.mem_of_mem_take hitem)).1

theorem share_le_keySize : g.share ≤ g.layout.keySize :=
  g.sound.sizeSum_take_le keys_le_keyCount

theorem share_lt_size : g.share < g.layout.size := by
  cases hshare : g.layout.sharesAddr with
  | true => exact lt_of_le_of_lt share_le_keySize (g.sound.shareRoom hshare)
  | false =>
      have hkeys := g.noShare hshare
      have hpos := g.sound.dataPos
      rw [g.sound.fixedSize g.fixedLen] at hpos
      simpa [share, hkeys, sizeSum] using hpos

theorem widthSum_items : widthSum g.layout.items = g.layout.size := g.sound.fixedSize g.fixedLen

theorem take_itemCount : g.layout.items.take g.layout.itemCount = g.layout.items := by
  rw [← g.sound.count, List.take_length]

/-- The loop over the key items finds the shared ones. -/
theorem sharedItems_share : sharedItems g.share g.layout.keyItems 0 = (g.share, g.keys) := by
  have hlen : g.keys ≤ g.layout.keyItems.length := by
    rw [CmdStruct.keyItems, List.length_take, g.sound.count]
    exact Nat.le_min.mpr ⟨keys_le_keyCount, le_trans keys_le_keyCount g.sound.keys⟩
  have := sharedItems_take (fun item h => (g.sound.keySizes item h).2) hlen 0
  rwa [keyItems_take, Nat.zero_add] at this

theorem share_ne_zero (h : g.keys ≠ 0) : g.share ≠ 0 := by
  intro hzero
  have := sharedItems_share (g := g)
  rw [hzero] at this
  cases hkey : g.layout.keyItems <;> simp_all [sharedItems]

/-! ## What is written -/

theorem length_data {c : GenericCmd} (hc : c ∈ g.cmds) : c.data.length = g.layout.size :=
  (g.sized c hc).1

/-- Number items one after the other take their width in the packet. -/
theorem length_wire {c : GenericCmd} {off : ℕ} {items : List CmdItem} (hcons : Consecutive off items)
    (hoff : off + widthSum items = c.data.length)
    (htype : ∀ item ∈ items, item.type ≠ .string8) :
    (wire c items).length = widthSum items := by
  induction items generalizing off with
  | nil => rfl
  | cons item rest ih =>
      have hw : item.type.dataWidth = item.type.width := by
        have := htype item (by simp)
        cases h : item.type <;> simp_all [CmdItemType.dataWidth]
      have hsum : widthSum (item :: rest) = item.type.dataWidth + widthSum rest := by
        simp [widthSum]
      obtain ⟨hoffset, hrest⟩ := hcons
      have hroom : item.offset + item.type.width ≤ c.data.length := by omega
      have htail := ih hrest (by omega) (fun i hi => htype i (by simp [hi]))
      have hhead : (packItem c item).length = item.type.dataWidth := by
        rw [packItem_scalar (htype item (by simp)) hroom, List.length_reverse, length_slice hroom, hw]
      have hwire : wire c (item :: rest) = packItem c item ++ wire c rest := by simp [wire]
      rw [hwire, List.length_append, hhead, htail, hsum]

/-- The bytes of one command without its first `k` items. -/
theorem length_wire_drop {c : GenericCmd} (hc : c ∈ g.cmds) :
    (wire c (g.layout.items.drop g.keys)).length = g.layout.size - g.share := by
  have hsum := widthSum_take_add_drop g.layout.items g.keys
  rw [← share_eq_widthSum, widthSum_items] at hsum
  have hcons := g.sound.consecutive.drop g.keys
  rw [Nat.zero_add, ← share_eq_widthSum] at hcons
  rw [length_wire hcons]
  · omega
  · rw [length_data hc, hsum]
  · intro item hitem
    exact g.sound.noString g.fixedLen item (List.mem_of_mem_drop hitem)

theorem length_wire_full {c : GenericCmd} (hc : c ∈ g.cmds) :
    (wire c g.layout.items).length = g.layout.size := by
  rw [length_wire g.sound.consecutive _ (g.sound.noString g.fixedLen), widthSum_items]
  rw [Nat.zero_add, widthSum_items, length_data hc]

/-- The length of the others in a packet. -/
theorem length_others (l : List GenericCmd) (hl : ∀ c ∈ l, c ∈ g.cmds) :
    (l.flatMap fun c => wire c (g.layout.items.drop g.keys)).length =
      l.length * (g.layout.size - g.share) := by
  induction l with
  | nil => simp
  | cons c rest ih =>
      rw [List.flatMap_cons, List.length_append, length_wire_drop (hl c (by simp)),
        ih fun d hd => hl d (by simp [hd]), List.length_cons, Nat.succ_mul, Nat.add_comm]

/-- The header of a group. -/
def header (g : CmdGroup) (length : ℕ) : List UInt8 :=
  vnpRawPackUint8 g.id.toNat ++ vCmdPackLen length ++
    if g.layout.sharesAddr then vnpRawPackUint8 g.share else []

/-- A group as it stands in a packet, announcing `length` bytes. -/
def bytes (g : CmdGroup) (length : ℕ) : List UInt8 :=
  g.header length ++ wire g.first g.layout.items ++
    g.others.flatMap fun c => wire c (g.layout.items.drop g.keys)

theorem vCmdPack_first {length : ℕ} (h : length ≠ 0) :
    vCmdPack g.first length g.share = some (g.header length ++ wire g.first g.layout.items) := by
  have hid : g.first.id = g.id := g.sameId g.first (by simp)
  simp only [vCmdPack, layout_first, if_pos h, hid, packItems, take_itemCount, List.drop_zero,
    header, wire]

theorem vCmdPack_other {c : GenericCmd} (hc : c ∈ g.others) :
    vCmdPack c 0 g.share = some (wire c (g.layout.items.drop g.keys)) := by
  have hlayout := layout_other hc
  by_cases hshare : (g.layout.sharesAddr && g.share != 0) = true
  · simp only [vCmdPack, hlayout, ne_eq, not_true_eq_false, if_false, hshare, if_true,
      sharedItems_share, packItems, take_itemCount, wire]
  · -- nothing is shared, so nothing is left out
    have hkeys : g.keys = 0 := by
      by_contra hne
      have hs := share_ne_zero hne
      cases hsh : g.layout.sharesAddr with
      | true => simp [hsh, hs] at hshare
      | false => exact hne (g.noShare hsh)
    simp only [vCmdPack, hlayout, ne_eq, not_true_eq_false, if_false, hshare, packItems,
      take_itemCount, wire, hkeys, Bool.false_eq_true]

/-- The length of the header in a packet. -/
theorem length_header (length : ℕ) :
    (g.header length).length =
      (if g.layout.sharesAddr then 3 else 2) + if 0xFF ≤ length then 2 else 0 := by
  unfold header vCmdPackLen vnpRawPackUint8 vnpRawPackUint16
  split <;> split <;> simp

theorem share_eq_zero_of_noShare (h : g.layout.sharesAddr = false) : g.share = 0 := by
  have hkeys := g.noShare h
  simp [share, hkeys, sizeSum]

/-- The announced length of a group that is complete is its true length. -/
theorem length_bytes : (g.bytes g.length).length = g.length := by
  have hfirst := length_wire_full (g := g) (c := g.first) (by simp [cmds])
  have hothers := length_others (g := g) g.others (fun c hc => by simp [cmds, hc])
  have hlt := share_lt_size (g := g)
  have hcount : g.cmds.length = g.others.length + 1 := by simp [cmds]
  have hmul : g.cmds.length * (g.layout.size - g.share) =
      g.others.length * (g.layout.size - g.share) + (g.layout.size - g.share) := by
    rw [hcount, Nat.succ_mul]
  rw [bytes, List.length_append, List.length_append, length_header, hfirst, hothers]
  cases hshare : g.layout.sharesAddr with
  | true =>
      simp only [length, groupLength, hshare, if_true, hmul]
      split <;> split <;> omega
  | false =>
      have hzero := share_eq_zero_of_noShare hshare
      simp only [hzero, Nat.sub_zero] at hmul
      simp only [length, groupLength, hshare, hzero, Nat.sub_zero, Bool.false_eq_true, if_false, hmul]
      split <;> split <;> omega

/-! ## What is read back -/

/-- The commands of a group agree on the shared bytes. -/
theorem take_share {c : GenericCmd} (hc : c ∈ g.others) :
    g.first.data.take g.share = c.data.take g.share := by
  have hsize : ∀ item ∈ g.layout.items.take g.keys, item.size = item.type.dataWidth := by
    intro item hitem
    rw [← keyItems_take] at hitem
    exact (g.sound.keySizes item (List.mem_of_mem_take hitem)).1
  have htake := (take_sizeSum_eq_iff (g.sound.consecutive.take g.keys) hsize).mpr
    ⟨show g.first.data.take 0 = c.data.take 0 by simp, fun item hitem => (g.agree c hc item hitem).symm⟩
  rwa [Nat.zero_add] at htake

theorem eq_of_fields {c : GenericCmd} (hc : c ∈ g.cmds) : (⟨g.id, c.data, none⟩ : GenericCmd) = c := by
  have hid := g.sameId c hc
  have hstr := (g.sized c hc).2
  obtain ⟨id, data, str⟩ := c
  simp only at hid hstr
  rw [hid, hstr]

theorem no_string {k : ℕ} : ¬ ∃ item ∈ g.layout.items.drop k, item.type = .string8 := by
  rintro ⟨item, hitem, htype⟩
  exact g.sound.noString g.fixedLen item (List.mem_of_mem_drop hitem) htype

theorem length_malloc : (GenericCmd.malloc g.id).data.length = g.layout.size := by
  rw [← g.sound.fixedSize g.fixedLen]
  exact List.length_replicate

/-- The first command of a group is read in full. -/
theorem unpackNext_first {buf : Mem} {bufferLen pos : ℕ} (share skip : ℕ)
    (hbuf : bufferLen < 2 ^ 32)
    (hpos : pos + g.layout.size ≤ bufferLen)
    (hholds : Holds (buf.shift pos) (wire g.first g.layout.items)) :
    unpackNext buf bufferLen g.id share skip none pos = (pos + g.layout.size, g.first) := by
  have hmem : g.first ∈ g.cmds := by simp [cmds]
  have hlen := length_wire_full hmem
  have hunpack := unpackItems_wire hbuf g.sound.consecutive
    (by rw [Nat.zero_add, widthSum_items, length_data hmem])
    (show pos + (wire g.first g.layout.items).length ≤ bufferLen by omega) hholds
    (fun item hitem htype => absurd htype (g.sound.noString g.fixedLen item hitem))
    (show (GenericCmd.malloc g.id).data.length = _ by rw [length_malloc, length_data hmem])
    (by simp)
  have hitems := take_itemCount (g := g)
  have hnone := no_string (g := g) (k := 0)
  rw [List.drop_zero] at hnone
  rw [hlen, if_neg hnone] at hunpack
  unfold layout at hitems hunpack ⊢
  simp only [unpackNext, hitems]
  rw [hunpack]
  exact congrArg _ (eq_of_fields hmem)

/-- A later command of a group gets its address from the first one. -/
theorem unpackNext_other {buf : Mem} {bufferLen pos : ℕ} (hbuf : bufferLen < 2 ^ 32)
    {c : GenericCmd} (hc : c ∈ g.others) (hpos : pos + (g.layout.size - g.share) ≤ bufferLen)
    (hholds : Holds (buf.shift pos) (wire c (g.layout.items.drop g.keys))) :
    unpackNext buf bufferLen g.id g.share g.keys (some g.first) pos =
      (pos + (g.layout.size - g.share), c) := by
  have hmem : c ∈ g.cmds := by simp [cmds, hc]
  have hmemFirst : g.first ∈ g.cmds := by simp [cmds]
  have hlt := share_lt_size (g := g)
  have hlen := length_wire_drop hmem
  have hcons := g.sound.consecutive.drop g.keys
  rw [Nat.zero_add, ← share_eq_widthSum] at hcons
  have hsum := widthSum_take_add_drop g.layout.items g.keys
  rw [← share_eq_widthSum, widthSum_items] at hsum
  have hfirstLen : (g.first.data.take g.share).length = g.share := by
    rw [List.length_take, length_data hmemFirst]
    omega
  have hdata : ((GenericCmd.malloc g.id).store 0 (g.first.data.take g.share)).data.length =
      c.data.length := by
    simp only [GenericCmd.store, List.take_zero, List.nil_append, List.length_append,
      List.length_drop, length_malloc, hfirstLen, length_data hmem]
    omega
  have htake : ((GenericCmd.malloc g.id).store 0 (g.first.data.take g.share)).data.take g.share =
      c.data.take g.share := by
    rw [← take_share hc, GenericCmd.store, List.take_zero, List.nil_append,
      List.take_append_of_le_length (Nat.le_of_eq hfirstLen.symm), List.take_take, Nat.min_self]
  have hunpack := unpackItems_wire hbuf hcons (by rw [length_data hmem]; omega)
    (show pos + (wire c (g.layout.items.drop g.keys)).length ≤ bufferLen by omega) hholds
    (fun item hitem htype => absurd ⟨item, hitem, htype⟩ no_string) hdata htake
  have hitems := take_itemCount (g := g)
  rw [hlen, if_neg no_string] at hunpack
  unfold layout at hitems hunpack ⊢
  simp only [unpackNext, hitems]
  rw [hunpack]
  exact congrArg _ (eq_of_fields hmem)

/-- The loop reads the other commands of the group.  It may be told to read more
when the buffer ends with the last of them. -/
theorem unpackFixed_others {buf : Mem} {bufferLen : ℕ} (hbuf : bufferLen < 2 ^ 32)
    {l : List GenericCmd} (hl : ∀ c ∈ l, c ∈ g.others) (count : ℕ) {pos : ℕ}
    (hpos : pos + l.length * (g.layout.size - g.share) ≤ bufferLen)
    (hcount : count = l.length ∨
      l.length ≤ count ∧ pos + l.length * (g.layout.size - g.share) = bufferLen)
    (hholds : Holds (buf.shift pos) (l.flatMap fun c => wire c (g.layout.items.drop g.keys))) :
    unpackFixed buf bufferLen g.id g.share g.keys count (some g.first) pos =
      (pos + l.length * (g.layout.size - g.share), l) := by
  have hlt := share_lt_size (g := g)
  induction l generalizing count pos with
  | nil =>
      simp only [List.length_nil, Nat.zero_mul, Nat.add_zero] at hcount ⊢
      cases count with
      | zero => rfl
      | succ count => rw [unpackFixed, if_neg (by omega)]
  | cons c rest ih =>
      have hmul : (c :: rest).length * (g.layout.size - g.share) =
          rest.length * (g.layout.size - g.share) + (g.layout.size - g.share) := by
        rw [List.length_cons, Nat.succ_mul]
      rw [hmul] at hpos hcount ⊢
      rw [List.flatMap_cons, holds_append, shift_shift,
        length_wire_drop (by simp [cmds, hl c (by simp)])] at hholds
      cases count with
      | zero => simp at hcount
      | succ count =>
          rw [unpackFixed, if_pos (by omega),
            unpackNext_other hbuf (hl c (by simp)) (by omega) hholds.1]
          simp only [Option.getD_some]
          rw [ih (fun d hd => hl d (by simp [hd])) count (by omega)
            (by simp only [List.length_cons] at hcount; omega) hholds.2]
          simp only [Nat.add_assoc, Nat.add_comm]

/-- The length field, in one byte or in three. -/
theorem vCmdUnpackLen_pack {m : Mem} {length : ℕ} (hlt : length < 2 ^ 16)
    (hholds : Holds m (vCmdPackLen length)) :
    vCmdUnpackLen m = ((vCmdPackLen length).length, length, 1 + (vCmdPackLen length).length) := by
  unfold vCmdPackLen at hholds ⊢
  split at hholds
  case isTrue hbig =>
    have h0 : m 0 = 255 := hholds 0 (by simp [vnpRawPackUint8])
    have h1 : m 1 = UInt8.ofNat (length >>> 8) := hholds 1 (by simp [vnpRawPackUint8, vnpRawPackUint16])
    have h2 : m 2 = UInt8.ofNat length := hholds 2 (by simp [vnpRawPackUint8, vnpRawPackUint16])
    have hval : vnpRawUnpackUint16 (m.shift 1) = length := by
      simp only [vnpRawUnpackUint16, shift_apply, Nat.add_zero, Nat.reduceAdd, h1, h2,
        UInt8.toNat_ofNat', Nat.shiftRight_eq_div_pow]
      omega
    have h255 : vnpRawUnpackUint8 m = 0xFF := by rw [vnpRawUnpackUint8, h0]; rfl
    rw [vCmdUnpackLen, h255, if_pos rfl, hval, if_pos hbig]
    rfl
  case isFalse hsmall =>
    have h0 : m 0 = UInt8.ofNat length := hholds 0 (by simp [vnpRawPackUint8])
    have hval : vnpRawUnpackUint8 m = length := by
      rw [vnpRawUnpackUint8, h0, UInt8.toNat_ofNat']
      omega
    rw [vCmdUnpackLen, hval, if_neg (by omega), if_neg hsmall]
    rfl

/-- The data of a group: the receiver computes the count from the length. -/
theorem unpackData_group {buf : Mem} {bufferLen pos addrLen length : ℕ} (count : ℕ)
    (hbuf : bufferLen < 2 ^ 32) (hlength : length = addrLen + count * (g.layout.size - g.share))
    (hpos : pos + g.layout.size + g.others.length * (g.layout.size - g.share) ≤ bufferLen)
    (hcount : count = g.cmds.length ∨ g.cmds.length ≤ count ∧
      pos + g.layout.size + g.others.length * (g.layout.size - g.share) = bufferLen)
    (hholds : Holds (buf.shift pos) (wire g.first g.layout.items ++
      g.others.flatMap fun c => wire c (g.layout.items.drop g.keys))) :
    unpackData buf bufferLen g.id length addrLen (g.layout.size - g.share) g.share g.keys pos =
      some (pos + g.layout.size + g.others.length * (g.layout.size - g.share), g.cmds) := by
  have hlt := share_lt_size (g := g)
  have hpositive : ((g.layout.size - g.share : ℕ) : ℤ) ≠ 0 := by omega
  have hrest : (length : ℤ) - addrLen = (count : ℤ) * ((g.layout.size - g.share : ℕ) : ℤ) := by
    rw [hlength]
    push_cast
    omega
  have hcmds : g.cmds.length = g.others.length + 1 := by simp [cmds]
  rw [hcmds] at hcount
  rw [holds_append, shift_shift, length_wire_full (by simp [cmds])] at hholds
  have hfirst := unpackNext_first g.share g.keys hbuf (by omega) hholds.1
  obtain ⟨n, rfl⟩ : ∃ n, count = n + 1 := ⟨count - 1, by omega⟩
  have hothers := unpackFixed_others hbuf (fun c hc => hc) n hpos (by omega) hholds.2
  have hfixed := g.fixedLen
  rw [unpackData, hfixed]
  simp only [Bool.not_false, if_true, hrest, Int.mul_tmod_left, ne_eq, not_true_eq_false, if_false,
    Int.mul_tdiv_cancel _ hpositive, Int.toNat_natCast]
  rw [unpackFixed, if_pos (by omega), hfirst]
  simp only [Option.getD_none, hothers]
  rfl

/-- The announced length of a group of `count` commands. -/
def announced (g : CmdGroup) (count : ℕ) : ℕ := groupLength g.layout count g.share

/-- **A group comes back.**  The header may announce more commands than there are
when the buffer ends with the last one. -/
theorem vCmdUnpackOne_group {buf : Mem} {bufferLen count : ℕ} (hbuf : bufferLen < 2 ^ 16)
    (hlt : g.announced count < 2 ^ 16)
    (hlen : (g.bytes (g.announced count)).length ≤ bufferLen)
    (hcount : count = g.cmds.length ∨
      g.cmds.length ≤ count ∧ (g.bytes (g.announced count)).length = bufferLen)
    (hholds : Holds buf (g.bytes (g.announced count))) :
    vCmdUnpackOne buf bufferLen = some ((g.bytes (g.announced count)).length, g.cmds) := by
  have hbuf32 : bufferLen < 2 ^ 32 := by omega
  have hfirst := length_wire_full (g := g) (c := g.first) (by simp [cmds])
  have hothers := length_others (g := g) g.others (fun c hc => by simp [cmds, hc])
  have hnode : (cmdStruct g.id.toNat).isNodeCmd = true := g.isNode
  have hsmall := g.sound.small
  have hsharelt := share_lt_size (g := g)
  -- the bytes, piece by piece
  have hidLen : (vnpRawPackUint8 g.id.toNat).length = 1 := rfl
  rw [bytes, header, List.append_assoc, List.append_assoc, List.append_assoc, holds_append,
    holds_append, hidLen, shift_shift, holds_append, shift_shift] at hholds
  obtain ⟨hid, hlenField, hshareField, hdata⟩ := hholds
  have hid0 : buf 0 = g.id := by
    have h : buf 0 = UInt8.ofNat g.id.toNat := hid 0 (by simp [vnpRawPackUint8])
    rw [h, UInt8.ofNat_toNat]
  have hread := vCmdUnpackLen_pack hlt hlenField
  have htotal : (g.bytes (g.announced count)).length =
      1 + (vCmdPackLen (g.announced count)).length +
        (if g.layout.sharesAddr then 1 else 0) + g.layout.size +
          g.others.length * (g.layout.size - g.share) := by
    rw [bytes, header]
    simp only [List.length_append, hfirst, hothers, hidLen]
    split <;> simp [vnpRawPackUint8]
  rw [htotal] at hlen hcount ⊢
  have hann : g.announced count = (1 + (vCmdPackLen (g.announced count)).length) +
      (if g.layout.sharesAddr then 1 + g.share else 0) + count * (g.layout.size - g.share) := by
    have hl : (vCmdPackLen (g.announced count)).length = if 0xFF ≤ g.announced count then 3 else 1 := by
      unfold vCmdPackLen
      split <;> rfl
    rw [hl]
    cases hshare : g.layout.sharesAddr with
    | true =>
        simp only [announced, groupLength, hshare, if_true]
        split <;> split <;> omega
    | false =>
        simp only [announced, groupLength, hshare, Bool.false_eq_true, if_false]
        split <;> split <;> omega
  unfold vCmdUnpackOne
  rw [hid0]
  simp only [hread, hnode, Bool.not_true, Bool.false_eq_true, if_false]
  have hlayout : cmdStruct g.id.toNat = g.layout := rfl
  cases hshare : g.layout.sharesAddr with
  | true =>
      simp only [hshare, if_true] at hshareField hdata hlen hcount hann
      rw [hlayout, hshare, if_pos rfl]
      have hsh : (buf (1 + (vCmdPackLen (g.announced count)).length)).toNat = g.share := by
        have h := hshareField 0 (by simp [vnpRawPackUint8])
        simp only [shift_apply, Nat.add_zero, vnpRawPackUint8, List.getElem_cons_zero] at h
        rw [h, UInt8.toNat_ofNat']
        omega
      have hshLen : (vnpRawPackUint8 g.share).length = 1 := rfl
      rw [hshLen] at hdata
      have hgroup := unpackData_group count hbuf32
        (show g.announced count = 1 + (vCmdPackLen (g.announced count)).length + 1 + g.share +
          count * (g.layout.size - g.share) by omega) (by omega) (by omega) hdata
      simp only [hsh]
      split
      case isTrue hne =>
        rw [sharedItems_share]
        simp only [ne_eq, not_true_eq_false, if_false]
        exact hgroup
      case isFalse heq =>
        have hzero : g.share = 0 := not_not.mp heq
        have hkeys : g.keys = 0 := by
          by_contra hne
          exact share_ne_zero hne hzero
        simp only [hzero, hkeys, Nat.sub_zero, Nat.add_zero] at hgroup
        simp only [hzero, Nat.sub_zero]
        exact hgroup
  | false =>
      have hzero := share_eq_zero_of_noShare hshare
      have hkeys := g.noShare hshare
      simp only [hshare, Bool.false_eq_true, if_false, List.length_nil, Nat.add_zero] at hdata hlen hcount hann
      rw [hlayout, hshare, if_neg (by decide)]
      have hgroup := unpackData_group count hbuf32 hann (by omega) (by omega) hdata
      simp only [hzero, hkeys, Nat.sub_zero] at hgroup
      simp only [hzero, Nat.sub_zero, Bool.false_eq_true, if_false, Nat.add_zero]
      exact hgroup

/-- `v_cmds_len` of a group that fits in 16 bits. -/
theorem vCmdsLen_first (hlt : g.length < 2 ^ 16) :
    vCmdsLen g.first g.cmds.length g.share 0 = g.length := by
  have hfixed : g.layout.varLen = false := g.fixedLen
  cases hshare : g.layout.sharesAddr with
  | true =>
      simp only [length, groupLength, hshare, if_true] at hlt ⊢
      have hmod : g.cmds.length * (g.layout.size - g.share) % 2 ^ 16 =
          g.cmds.length * (g.layout.size - g.share) := by
        apply Nat.mod_eq_of_lt
        split at hlt <;> omega
      simp only [vCmdsLen, layout_first, hshare, hfixed, if_true, Bool.not_false, hmod]
      split <;> split at hlt <;> omega
  | false =>
      have hzero := share_eq_zero_of_noShare hshare
      simp only [length, groupLength, hshare, Bool.false_eq_true, if_false, hzero,
        Nat.sub_zero] at hlt ⊢
      have hmod : g.cmds.length * g.layout.size % 2 ^ 16 = g.cmds.length * g.layout.size := by
        apply Nat.mod_eq_of_lt
        split at hlt <;> omega
      simp only [vCmdsLen, layout_first, hshare, Bool.false_eq_true, if_false, hmod]
      split <;> split at hlt <;> omega

/-- The group as `CmdGroup.pack` writes it. -/
theorem pack_eq (hlt : g.length < 2 ^ 16) : g.pack = some (g.bytes g.length) := by
  have hlen := vCmdsLen_first hlt
  have hne : vCmdsLen g.first g.cmds.length g.share 0 ≠ 0 := by
    rw [hlen]
    have hsize := length_bytes (g := g)
    have hheader := length_header (g := g) g.length
    rw [bytes, List.length_append, List.length_append] at hsize
    split at hheader <;> omega
  have hothers : (g.others.mapM fun c => vCmdPack c 0 g.share) =
      some (g.others.map fun c => wire c (g.layout.items.drop g.keys)) := by
    exact mapM_eq_some_map fun c hc => vCmdPack_other hc
  rw [pack, vCmdPack_first hne, hothers, hlen]
  simp [bytes, List.flatMap]

end CmdGroup

/-! ## Several pieces one after the other -/

/-- Wherever `bytes` stand in a buffer, they are read as `cmds`. -/
def Reads (bytes : List UInt8) (cmds : List GenericCmd) : Prop :=
  2 ≤ bytes.length ∧ ∀ (buf : Mem) (bufferLen : ℕ), bufferLen < 2 ^ 16 →
    bytes.length ≤ bufferLen → Holds buf bytes →
      vCmdUnpackOne buf bufferLen = some (bytes.length, cmds)

/-- At the end of a buffer `bytes` are read as `cmds`. -/
def ReadsAtEnd (bytes : List UInt8) (cmds : List GenericCmd) : Prop :=
  2 ≤ bytes.length ∧ ∀ buf : Mem, bytes.length < 2 ^ 16 → Holds buf bytes →
    vCmdUnpackOne buf bytes.length = some (bytes.length, cmds)

theorem Reads.atEnd {bytes : List UInt8} {cmds : List GenericCmd} (h : Reads bytes cmds) :
    ReadsAtEnd bytes cmds :=
  ⟨h.1, fun buf hlt hholds => h.2 buf _ hlt (Nat.le_refl _) hholds⟩

/-- Before other bytes `bytes` are read as `cmds`. -/
def ReadsInside (bytes : List UInt8) (cmds : List GenericCmd) : Prop :=
  2 ≤ bytes.length ∧ ∀ (buf : Mem) (bufferLen : ℕ), bufferLen < 2 ^ 16 →
    bytes.length < bufferLen → Holds buf bytes →
      vCmdUnpackOne buf bufferLen = some (bytes.length, cmds)

theorem Reads.inside {bytes : List UInt8} {cmds : List GenericCmd} (h : Reads bytes cmds) :
    ReadsInside bytes cmds :=
  ⟨h.1, fun buf bufferLen hbuf hlt hholds => h.2 buf bufferLen hbuf hlt.le hholds⟩

/-- Pieces that fill a buffer; the last one may rely on its end, and the others on
what follows them. -/
def ReadsAll : List (List UInt8 × List GenericCmd) → Prop
  | [] => True
  | [piece] => ReadsAtEnd piece.1 piece.2
  | piece :: rest => ReadsInside piece.1 piece.2 ∧ ReadsAll rest

theorem ReadsAll.length_pos {piece : List UInt8 × List GenericCmd}
    {rest : List (List UInt8 × List GenericCmd)} (h : ReadsAll (piece :: rest)) :
    2 ≤ piece.1.length := by
  cases rest with
  | nil => exact h.1
  | cons next rest => exact h.1.1

theorem unpackFrom_readsAll {buf : Mem} {bufferLen : ℕ} (hbuf : bufferLen < 2 ^ 16)
    {pieces : List (List UInt8 × List GenericCmd)} (hreads : ReadsAll pieces) {pos : ℕ}
    (hpos : pos + (pieces.flatMap Prod.fst).length = bufferLen)
    (hholds : Holds (buf.shift pos) (pieces.flatMap Prod.fst)) {fuel : ℕ}
    (hfuel : bufferLen ≤ pos + fuel) :
    unpackFrom buf bufferLen fuel pos = some (bufferLen, pieces.flatMap Prod.snd) := by
  induction pieces generalizing pos fuel with
  | nil =>
      have hend : pos = bufferLen := by simpa using hpos
      cases fuel <;> simp [unpackFrom, hend]
  | cons piece rest ih =>
      obtain ⟨bytes, cmds⟩ := piece
      rw [List.flatMap_cons, List.length_append] at hpos
      rw [List.flatMap_cons, holds_append, shift_shift] at hholds
      simp only at hpos hholds
      -- the piece is read, whether it is the last one or not
      have hone : 2 ≤ bytes.length ∧
          vCmdUnpackOne (buf.shift pos) (bufferLen - pos) = some (bytes.length, cmds) := by
        cases rest with
        | nil =>
            have hlen : bufferLen - pos = bytes.length := by
              simp only [List.flatMap_nil, List.length_nil] at hpos
              omega
            rw [hlen]
            exact ⟨hreads.1, hreads.2 _ (show bytes.length < 2 ^ 16 by omega) hholds.1⟩
        | cons next rest =>
            have hnext := hreads.2.length_pos
            rw [List.flatMap_cons, List.length_append] at hpos
            exact ⟨hreads.1.1, hreads.1.2 _ _ (by omega)
              (show bytes.length < bufferLen - pos by omega) hholds.1⟩
      have htail : ReadsAll rest := by
        cases rest with
        | nil => exact trivial
        | cons next rest => exact hreads.2
      cases fuel with
      | zero => omega
      | succ fuel =>
          rw [unpackFrom, if_pos (by omega), if_pos (by omega), hone.2]
          simp only
          rw [ih htail (by omega) hholds.2 (by omega)]
          rfl

/-- Pieces with something behind them are read, and the loop goes on behind them. -/
theorem unpackFrom_append {buf : Mem} {bufferLen : ℕ} (hbuf : bufferLen < 2 ^ 16)
    {pieces : List (List UInt8 × List GenericCmd)}
    (hreads : ∀ piece ∈ pieces, ReadsInside piece.1 piece.2) {pos : ℕ}
    (hpos : pos + (pieces.flatMap Prod.fst).length < bufferLen)
    (hholds : Holds (buf.shift pos) (pieces.flatMap Prod.fst)) {fuel : ℕ}
    (hfuel : bufferLen ≤ pos + fuel) :
    ∃ fuel', bufferLen ≤ pos + (pieces.flatMap Prod.fst).length + fuel' ∧
      unpackFrom buf bufferLen fuel pos =
        (unpackFrom buf bufferLen fuel' (pos + (pieces.flatMap Prod.fst).length)).map
          fun (last, rest) => (last, pieces.flatMap Prod.snd ++ rest) := by
  induction pieces generalizing pos fuel with
  | nil => exact ⟨fuel, by simpa using hfuel, by simp⟩
  | cons piece rest ih =>
      obtain ⟨bytes, cmds⟩ := piece
      obtain ⟨htwo, hread⟩ := hreads _ List.mem_cons_self
      rw [List.flatMap_cons, List.length_append] at hpos
      rw [List.flatMap_cons, holds_append, shift_shift] at hholds
      simp only at hpos hholds htwo hread
      have hone := hread (buf.shift pos) (bufferLen - pos) (by omega) (by omega) hholds.1
      cases fuel with
      | zero => omega
      | succ fuel =>
          obtain ⟨fuel', hfuel', hrest⟩ :=
            ih (fun p hp => hreads p (List.mem_cons_of_mem _ hp))
              (show pos + bytes.length + (rest.flatMap Prod.fst).length < bufferLen by omega)
              hholds.2 (show bufferLen ≤ pos + bytes.length + fuel by omega)
          refine ⟨fuel', ?_, ?_⟩
          · rw [List.flatMap_cons, List.length_append]
            simpa [Nat.add_assoc] using hfuel'
          · rw [unpackFrom, if_pos (by omega), if_pos (by omega), hone]
            simp only [hrest, List.flatMap_cons, List.length_append, Option.map_map,
              Nat.add_assoc, List.append_assoc]
            rfl

/-- A pass between two lists of pieces adds what it reads to what they are read as. -/
theorem vCmdUnpack_between {buf : Mem} {bufferLen : UInt16}
    {before after : List (List UInt8 × List GenericCmd)}
    (hbefore : ∀ piece ∈ before, ReadsInside piece.1 piece.2) (hafter : ReadsAll after)
    {start size : ℕ} {cmds : List GenericCmd} (hlen : (before.flatMap Prod.fst).length = start)
    (hstart : start + 2 ≤ bufferLen.toNat) (hsize : 0 < size)
    (hend : start + size + (after.flatMap Prod.fst).length = bufferLen.toNat)
    (hholds : Holds buf (before.flatMap Prod.fst))
    (hrest : Holds (buf.shift (start + size)) (after.flatMap Prod.fst))
    (hpass : vCmdUnpackOne (buf.shift start) (bufferLen.toNat - start) = some (size, cmds)) :
    vCmdUnpack buf bufferLen =
      some (bufferLen.toNat, before.flatMap Prod.snd ++ (cmds ++ after.flatMap Prod.snd)) := by
  obtain ⟨fuel, hfuel, hrun⟩ :=
    unpackFrom_append bufferLen.toNat_lt hbefore
      (show 0 + (before.flatMap Prod.fst).length < bufferLen.toNat by omega)
      (by simpa using hholds) (show bufferLen.toNat ≤ 0 + bufferLen.toNat by omega)
  rw [Nat.zero_add, hlen] at hfuel hrun
  obtain ⟨fuel, rfl⟩ : ∃ n, fuel = n + 1 := ⟨fuel - 1, by omega⟩
  have hafterRun : unpackFrom buf bufferLen.toNat fuel (start + size) =
      some (bufferLen.toNat, after.flatMap Prod.snd) :=
    unpackFrom_readsAll bufferLen.toNat_lt hafter hend hrest (by omega)
  rw [vCmdUnpack, hrun, unpackFrom, if_pos (by omega), if_pos (by omega), hpass]
  simp only [hafterRun, Option.map_some]

/-- A complete group is read wherever it stands. -/
theorem CmdGroup.reads {g : CmdGroup} (hlt : g.length < 2 ^ 16) :
    Reads (g.bytes g.length) g.cmds := by
  refine ⟨?_, fun buf bufferLen hbuf hle hholds =>
    vCmdUnpackOne_group hbuf hlt hle (Or.inl rfl) hholds⟩
  have hheader := g.length_header g.length
  rw [CmdGroup.bytes, List.length_append, List.length_append]
  split at hheader <;> omega

theorem readsAll_of_reads {pieces : List (List UInt8 × List GenericCmd)}
    (h : ∀ piece ∈ pieces, Reads piece.1 piece.2) : ReadsAll pieces := by
  induction pieces with
  | nil => exact trivial
  | cons piece rest ih =>
      have hhead := h piece (by simp)
      have htail := ih fun p hp => h p (by simp [hp])
      cases rest with
      | nil => exact hhead.atEnd
      | cons next rest => exact ⟨hhead.inside, htail⟩

/-- **Groups come back.**  Each group takes as many bytes as `v_cmds_len` says,
and a buffer filled with groups is read as their commands, in order and to its
last byte. -/
theorem vCmdUnpack_packGroups (groups : List CmdGroup) (hfits : ∀ g ∈ groups, g.length < 2 ^ 16) :
    (∀ g ∈ groups, ∃ bytes, g.pack = some bytes ∧
      bytes.length = vCmdsLen g.first g.cmds.length g.share 0) ∧
    ∀ packed, groups.mapM CmdGroup.pack = some packed →
      ∀ (buf : Mem) (bufferLen : UInt16), bufferLen.toNat = packed.flatten.length →
        Holds buf packed.flatten →
          vCmdUnpack buf bufferLen = some (bufferLen.toNat, groups.flatMap CmdGroup.cmds) := by
  constructor
  · intro g hg
    exact ⟨g.bytes g.length, CmdGroup.pack_eq (hfits g hg),
      by rw [CmdGroup.length_bytes, CmdGroup.vCmdsLen_first (hfits g hg)]⟩
  · intro packed hpacked buf bufferLen hlen hholds
    have hbytes : groups.mapM CmdGroup.pack = some (groups.map fun g => g.bytes g.length) := by
      exact mapM_eq_some_map fun g hg => CmdGroup.pack_eq (hfits g hg)
    obtain rfl := Option.some.inj (hbytes.symm.trans hpacked)
    have hreads : ReadsAll (groups.map fun g => (g.bytes g.length, g.cmds)) := by
      apply readsAll_of_reads
      intro piece hpiece
      obtain ⟨g, hg, rfl⟩ := List.mem_map.mp hpiece
      exact CmdGroup.reads (hfits g hg)
    have hfst : (groups.map fun g => (g.bytes g.length, g.cmds)).flatMap Prod.fst =
        (groups.map fun g => g.bytes g.length).flatten := by
      rw [List.flatMap_map]
      rfl
    have hsnd : (groups.map fun g => (g.bytes g.length, g.cmds)).flatMap Prod.snd =
        groups.flatMap CmdGroup.cmds := by
      rw [List.flatMap_map]
    rw [← hfst] at hlen hholds
    rw [vCmdUnpack, ← hsnd]
    exact unpackFrom_readsAll bufferLen.toNat_lt hreads (by omega) (by simpa using hholds) (by omega)

/-- Two `Node_Link` commands that share the parent node. -/
def linkGroup : CmdGroup where
  id := 37
  keys := 1
  first := ⟨37, [1, 0, 0, 0, 5, 1, 0, 0], none⟩
  others := [⟨37, [1, 0, 0, 0, 6, 1, 0, 0], none⟩]
  isNode := by decide
  fixedLen := by decide
  sameId := by decide
  sized := by decide
  keys_le := by decide
  noShare := by decide
  agree := by decide

/-- A group of 30 `Node_UnSubscribe` commands, whose length takes three bytes. -/
def unsubscribeGroup : CmdGroup where
  id := 35
  keys := 0
  first := ⟨35, List.replicate 12 7, none⟩
  others := List.replicate 29 ⟨35, List.replicate 12 9, none⟩
  isNode := by decide
  fixedLen := by decide
  sameId := by decide
  sized := by decide +kernel
  keys_le := by decide
  noShare := by decide
  agree := by decide

theorem vCmdUnpack_linkGroup_unsubscribeGroup :
    ∃ packed, [linkGroup, unsubscribeGroup].mapM CmdGroup.pack = some packed ∧
      vCmdUnpack (ofBytes packed.flatten) 379 =
        some (379, linkGroup.cmds ++ unsubscribeGroup.cmds) := by
  have hpack : [linkGroup, unsubscribeGroup].mapM CmdGroup.pack =
      some [linkGroup.bytes 15, unsubscribeGroup.bytes 364] := by decide +kernel
  refine ⟨_, hpack, ?_⟩
  have h := (vCmdUnpack_packGroups [linkGroup, unsubscribeGroup] (by decide +kernel)).2 _ hpack
    (ofBytes [linkGroup.bytes 15, unsubscribeGroup.bytes 364].flatten) 379 (by decide +kernel)
    (holds_ofBytes _)
  simpa using h

end Verse
