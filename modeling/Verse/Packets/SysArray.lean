import Verse.Lib.Stores
import Verse.Packets.NegotiateBounds
import Verse.Stream.Messages

/-!
# The array of received system commands

`v_unpack_packet_system_commands` and `v_unpack_message_system_commands` once more, now with
the bytes of the array `sys_cmd` that they fill.  An entry is a union of all commands; the
largest is a negotiate command with its five values.  Behind each command the next entry
becomes `CMD_RESERVED_ID`.

A negotiate command may have up to 255 values.  The sixth one begins where the id of the
next entry stands, and later ones lie in the entries behind it.

## Strategy

`loop_spec` says what the loop leaves: its stores one after the other (`loopStores`), the
byte behind the last command (`Ended`) and ids of this buffer (`SysLoop.Own`).
`sysCmds_kept_iff` reads off both conditions.
-/

namespace Verse

open Lib

/-! ## The bytes of an entry -/

/-- The size of `value` of a negotiate command: a `string8`, filled up to a multiple of
four bytes. -/
def ftrValueSize : ℕ := 260

/-- Where `value` begins in a negotiate command. -/
def ftrValueOffset : ℕ := 4

/-- The size of `VSystemCommands`. -/
def sysCmdSize : ℕ := ftrValueOffset + maxFtrValueCount * ftrValueSize

/-- Where an entry of `sys_cmd` begins; the first byte is the id. -/
def sysEntry (rank : ℕ) : ℕ := sysCmdSize * rank

/-- `CMD_RESERVED_ID`, as the byte of an id. -/
def reservedId : UInt8 := 0

/-- What a parser stores in an entry: bytes of the command at their places, and then the
bytes of each value of a negotiate command. -/
structure Stored where
  fields : List (ℕ × UInt8)
  values : List (List UInt8)
  deriving DecidableEq, Repr

/-- The stores of the values from number `k` on. -/
def valueStores : ℕ → List (List UInt8) → List (ℕ × UInt8)
  | _, [] => []
  | k, bytes :: rest => bytesAt (ftrValueOffset + ftrValueSize * k) bytes ++ valueStores (k + 1) rest

/-- All stores, at their places in the entry. -/
def Stored.bytes (s : Stored) : List (ℕ × UInt8) := s.fields ++ valueStores 0 s.values

/-! ## What the parsers store -/

/-- `vnp_raw_unpack_string8_to_string8`: the bytes gone over and those stored. -/
def string8Stored (buf : Mem) (bufferSize : ℕ) : ℕ × List UInt8 :=
  if bufferSize < 2 then (bufferSize, [])
  else
    let length := vnpRawUnpackUint8 buf
    let length := if bufferSize < length then bufferSize else length
    (1 + length, UInt8.ofNat length :: (((List.range length).map fun i => buf (1 + i)) ++ [0]))

/-- The string at a position of a buffer. -/
def string8At (buf : Mem) (bufferSize pos : ℕ) : ℕ × List UInt8 :=
  string8Stored (buf.shift pos) (sub64 bufferSize pos)

/-- The loop over the values of a negotiate command. -/
def Preference.stored (buf : Mem) (bufferSize cmdLength headerLen pos : ℕ) :
    Preference → List (List UInt8)
  | .byte _ _ =>
      unpackValues (fun pos => (1, [buf pos])) ((cmdLength - headerLen) % 2 ^ 8) pos
  | .string8 _ _ =>
      let limit := cmdLength - headerLen
      unpackValues (string8At buf bufferSize) (countStrings buf limit limit pos % 2 ^ 8) pos
  | .fps _ =>
      unpackValues (fun pos => (4, leBytes 4 (vnpRawUnpackUint32 (buf.shift pos))))
        ((cmdLength - headerLen) / 4 % 2 ^ 8) pos

/-- `v_raw_unpack_negotiate_cmd`: id, `count` and `feature` stand in the first three bytes. -/
def negotiateStored (buf : Mem) (bufferSize : ℕ) : Stored :=
  let lenSize := (vCmdUnpackLen (buf.shift 1)).1
  let cmdLength := (vCmdUnpackLen (buf.shift 1)).2.1
  let headerLen := 1 + lenSize + 1
  if bufferSize < cmdLength then ⟨[(0, buf 0), (1, 0)], []⟩
  else if cmdLength < headerLen then ⟨[(0, buf 0), (1, 0)], []⟩
  else
    let feature := buf (1 + lenSize)
    match Preference.ofByte feature with
    | none => ⟨[(0, buf 0), (2, feature), (1, 0)], []⟩
    | some preference =>
        let values := preference.stored buf bufferSize cmdLength headerLen headerLen
        ⟨[(0, buf 0), (2, feature), (1, UInt8.ofNat values.length)], values⟩

/-- `v_raw_unpack_ack_nak_cmd`. -/
def ackNakStored (buf : Mem) : Stored :=
  ⟨(0, buf 0) :: bytesAt 4 (leBytes 4 (vnpRawUnpackUint32 (buf.shift 1))), []⟩

/-- `v_raw_unpack_user_auth_request`: `username` begins behind the id, `method_type` stands
behind its 65 bytes and `data` behind that. -/
def userAuthRequestStored (buf : Mem) (bufferSize : ℕ) : Stored :=
  let refused : List (ℕ × UInt8) := [(1, 0), (66, uaMethodReserved)]
  if bufferSize < 2 then ⟨refused, []⟩
  else
    let length := vnpRawUnpackUint8 (buf.shift 1)
    if bufferSize < length ∨ length < 5 then ⟨(0, buf 0) :: refused, []⟩
    else
      let usernameLen := vnpRawUnpackUint8 (buf.shift 2)
      if usernameLen = 0 ∨ length < 3 + usernameLen + 1 ∨ vrsMaxUsernameLength < usernameLen then
        ⟨(0, buf 0) :: refused, []⟩
      else
        let username := ((List.range usernameLen).map fun i => buf (3 + i)) ++ [0]
        let methodType := buf (3 + usernameLen)
        let request := (0, buf 0) :: bytesAt 1 username ++ [(66, methodType)]
        if methodType = uaMethodPassword then
          let passwordLen := vnpRawUnpackUint8 (buf.shift (4 + usernameLen))
          if length < 3 + usernameLen + 3 ∨ passwordLen = 0 ∨
              length < 3 + usernameLen + 2 + passwordLen ∨ vrsMaxDataLength < passwordLen then
            ⟨request ++ refused, []⟩
          else
            ⟨request ++ bytesAt 67
              (((List.range passwordLen).map fun i => buf (5 + usernameLen + i)) ++ [0]), []⟩
        else ⟨request, []⟩

/-- `v_raw_unpack_user_auth_failure`: `count`, then `method`. -/
def userAuthFailureStored (buf : Mem) (bufferSize : ℕ) : Stored :=
  if bufferSize < 2 then ⟨[(1, 0)], []⟩
  else
    let length := vnpRawUnpackUint8 (buf.shift 1)
    if bufferSize < length then ⟨[(0, buf 0), (1, 0)], []⟩
    else
      let count := (length + 2 ^ 8 - 2) % 2 ^ 8
      let read := min count vrsMaxUaMethodCount
      ⟨[(0, buf 0), (1, UInt8.ofNat count)] ++ bytesAt 2 ((List.range read).map fun i => buf (2 + i)) ++
        [(1, UInt8.ofNat read)], []⟩

/-- `v_raw_unpack_user_auth_success`: `user_id` and `avatar_id`. -/
def userAuthSuccessStored (buf : Mem) (bufferSize : ℕ) : Stored :=
  let reserved := bytesAt 2 (leBytes 2 vrsReservedUserId.toNat) ++
    bytesAt 4 (leBytes 4 vrsReservedAvatarId.toNat)
  if bufferSize < 8 then ⟨reserved, []⟩
  else if vnpRawUnpackUint8 (buf.shift 1) ≠ 8 then ⟨(0, buf 0) :: reserved, []⟩
  else
    ⟨(0, buf 0) :: bytesAt 2 (leBytes 2 (vnpRawUnpackUint16 (buf.shift 2))) ++
      bytesAt 4 (leBytes 4 (vnpRawUnpackUint32 (buf.shift 4))), []⟩

/-- The switch over the ids in a packet; a command that it does not know stores nothing. -/
def packetStored (buf : Mem) (bufferSize : ℕ) : Stored :=
  if buf 0 = 1 ∨ buf 0 = 2 then ackNakStored buf
  else if (NegotiateId.ofByte (buf 0)).isSome then negotiateStored buf bufferSize
  else ⟨[], []⟩

/-- The switch over the ids in a message. -/
def messageStored (buf : Mem) (bufferSize : ℕ) : Stored :=
  if buf 0 = 7 then userAuthRequestStored buf bufferSize
  else if buf 0 = 8 then userAuthFailureStored buf bufferSize
  else if buf 0 = 9 then userAuthSuccessStored buf bufferSize
  else if (NegotiateId.ofByte (buf 0)).isSome then negotiateStored buf bufferSize
  else ⟨[], []⟩

/-! ## The loop -/

/-- The state of the loop: `buffer_pos`, `cmd_id`, the rank of the next command and the
bytes of `sys_cmd`. -/
structure SysLoop where
  bufferPos : ℕ
  cmdId : UInt8
  rank : ℕ
  sysCmd : Mem

/-- The position behind a command.  An unknown command is skipped. -/
def nextPos {α : Type} (unpackCmd : Mem → ℕ → Option (ℕ × α)) (buf : Mem) (bufferLen pos : ℕ) : ℕ :=
  match unpackCmd (buf.shift pos) (bufferLen - pos) with
  | some (size, _) => (pos + size) % 2 ^ 16
  | none =>
      let length := vnpRawUnpackUint8 (buf.shift (pos + 1))
      if length < bufferLen - pos then (pos + length) % 2 ^ 16 else bufferLen

/-- One pass of the loop; `none` when the condition of the loop fails.  A node command ends
the loop, which the condition on `cmd_id` says again. -/
def SysLoop.pass {α : Type} (unpackCmd : Mem → ℕ → Option (ℕ × α)) (stored : Mem → ℕ → Stored)
    (buf : Mem) (bufferLen : ℕ) (s : SysLoop) : Option SysLoop :=
  if s.bufferPos < bufferLen ∧ s.cmdId ≤ maxSysCmdId ∧ s.rank < maxSystemCommandCount - 1 then
    let cmdId := buf s.bufferPos
    if maxSysCmdId < cmdId then
      some { s with cmdId := cmdId, sysCmd := s.sysCmd.set (sysEntry s.rank) reservedId }
    else
      let sysCmd := (s.sysCmd.set (sysEntry s.rank) cmdId).set (sysEntry (s.rank + 1)) reservedId
      some
        { bufferPos := nextPos unpackCmd buf bufferLen s.bufferPos
          cmdId := cmdId
          rank := s.rank + 1
          sysCmd := storeAll sysCmd (sysEntry s.rank)
            (stored (buf.shift s.bufferPos) (bufferLen - s.bufferPos)).bytes }
  else none

/-- The loop, when it ends after at most so many passes. -/
def SysLoop.loop (pass : SysLoop → Option SysLoop) : ℕ → SysLoop → Option SysLoop
  | 0, s => if (pass s).isNone then some s else none
  | n + 1, s =>
      match pass s with
      | none => some s
      | some s' => loop pass n s'

/-- `v_unpack_packet_system_commands` on an array with any content, when its loop ends after
at most `MAX_SYSTEM_COMMAND_COUNT - 1` passes. -/
def packetSysCmds (buf : Mem) (bufferLen : UInt16) (sysCmd : Mem) : Option SysLoop :=
  if bufferLen.toNat ≤ versePacketHeaderSize then
    some ⟨versePacketHeaderSize, reservedId, 0, sysCmd.set (sysEntry 0) reservedId⟩
  else
    SysLoop.loop (SysLoop.pass unpackPacketCmd packetStored buf bufferLen.toNat)
      (maxSystemCommandCount - 1) ⟨versePacketHeaderSize, reservedId, 0, sysCmd⟩

/-- `v_unpack_message_system_commands`. -/
def messageSysCmds (buf : Mem) (bufferLen : UInt16) (sysCmd : Mem) : Option SysLoop :=
  if bufferLen.toNat < 1 then some ⟨0, reservedId, 0, sysCmd.set (sysEntry 0) reservedId⟩
  else
    SysLoop.loop (SysLoop.pass unpackMessageCmd messageStored buf bufferLen.toNat)
      (maxSystemCommandCount - 1) ⟨0, reservedId, 0, sysCmd⟩

/-- **Parsing ends well**: whatever the array held, the loop ends after at most
`MAX_SYSTEM_COMMAND_COUNT - 1` passes, the entry behind the last command is reserved, those
before it have ids of this buffer, and nothing behind `MAX_SYSTEM_COMMAND_COUNT` entries
changes. -/
def EndsWell (parse : Mem → Option SysLoop) (buf : Mem) (bufferLen : UInt16) : Prop :=
  ∀ sysCmd, ∃ last, parse sysCmd = some last ∧
    last.sysCmd (sysEntry last.rank) = reservedId ∧
    (∀ i < last.rank, ∃ pos < bufferLen.toNat, last.sysCmd (sysEntry i) = buf pos) ∧
    ∀ a, sysEntry maxSystemCommandCount ≤ a → last.sysCmd a = sysCmd a

/-! ## The condition -/

/-- The byte that the sixth value of a negotiate command puts where the id of the next entry
stands. -/
def sixthByte (values : List (List UInt8)) : UInt8 :=
  ((values[maxFtrValueCount]?.getD []).head?).getD reservedId

section Condition

variable {α : Type} (unpackCmd : Mem → ℕ → Option (ℕ × α)) (stored : Mem → ℕ → Stored) (buf : Mem)
  (bufferLen : ℕ)

/-- The values of the commands from a position on end before the end of the array. -/
def ValuesInside : ℕ → ℕ → ℕ → Prop
  | 0, _, _ => True
  | room + 1, rank, pos =>
      pos < bufferLen → buf pos ≤ maxSysCmdId →
        (∀ k bytes, (stored (buf.shift pos) (bufferLen - pos)).values[k]? = some bytes →
          bytes ≠ [] →
            sysEntry rank + (ftrValueOffset + ftrValueSize * k + bytes.length) ≤
              sysEntry maxSystemCommandCount) ∧
        ValuesInside room (rank + 1) (nextPos unpackCmd buf bufferLen pos)

/-- The last command, when no node command follows it, has no sixth value or one that begins
with a zero. -/
def TerminatorLeft : ℕ → ℕ → Prop
  | 0, _ => True
  | room + 1, pos =>
      pos < bufferLen → buf pos ≤ maxSysCmdId →
        (room = 0 ∨ bufferLen ≤ nextPos unpackCmd buf bufferLen pos →
          sixthByte (stored (buf.shift pos) (bufferLen - pos)).values = reservedId) ∧
        TerminatorLeft room (nextPos unpackCmd buf bufferLen pos)

/-- The stores of the loop from a position on. -/
def loopStores : ℕ → ℕ → ℕ → List (ℕ × UInt8)
  | 0, _, _ => []
  | room + 1, rank, pos =>
      if pos < bufferLen then
        if maxSysCmdId < buf pos then [(sysEntry rank, reservedId)]
        else
          (sysEntry rank, buf pos) :: (sysEntry (rank + 1), reservedId) ::
            ((stored (buf.shift pos) (bufferLen - pos)).bytes.map fun s => (sysEntry rank + s.1, s.2)) ++
              loopStores room (rank + 1) (nextPos unpackCmd buf bufferLen pos)
      else []

/-- The loop ends behind a reserved entry, when `b` is the id of the next entry now. -/
def Ended : ℕ → ℕ → UInt8 → Prop
  | 0, _, b => b = reservedId
  | room + 1, pos, b =>
      if pos < bufferLen then
        if maxSysCmdId < buf pos then True
        else
          Ended room (nextPos unpackCmd buf bufferLen pos)
            (sixthByte (stored (buf.shift pos) (bufferLen - pos)).values)
      else b = reservedId

theorem ended_iff (room pos : ℕ) (b : UInt8) :
    Ended unpackCmd stored buf bufferLen room pos b ↔
      (room = 0 ∨ bufferLen ≤ pos → b = reservedId) ∧
        TerminatorLeft unpackCmd stored buf bufferLen room pos := by
  induction room generalizing pos b with
  | zero => simp [Ended, TerminatorLeft]
  | succ room ih =>
      rw [Ended, TerminatorLeft]
      by_cases hpos : pos < bufferLen
      · rw [if_pos hpos]
        have hmore : room + 1 = 0 ∨ bufferLen ≤ pos → b = reservedId := fun h => by omega
        by_cases hnode : maxSysCmdId < buf pos
        · rw [if_pos hnode]
          refine iff_of_true trivial ⟨hmore, fun _ hid => ?_⟩
          exact absurd hnode (UInt8.not_lt.mpr hid)
        · rw [if_neg hnode, ih]
          have hid := UInt8.not_lt.mp hnode
          exact ⟨fun h => ⟨hmore, fun _ _ => h⟩, fun h => h.2 hpos hid⟩
      · rw [if_neg hpos]
        exact ⟨fun h => ⟨fun _ => h, fun h' => absurd h' hpos⟩, fun h => h.1 (.inr (by omega))⟩

end Condition

/-! ## The stores of one command -/

theorem sysEntry_succ (rank : ℕ) : sysEntry (rank + 1) = sysEntry rank + sysCmdSize := Nat.mul_succ _ _

theorem sysEntry_lt {i rank : ℕ} (h : i < rank) : sysEntry i + sysCmdSize ≤ sysEntry rank := by
  rw [← sysEntry_succ]
  exact Nat.mul_le_mul_left _ h

theorem mem_valueStores {k : ℕ} {values : List (List UInt8)} {s : ℕ × UInt8} :
    s ∈ valueStores k values ↔ ∃ j bytes, values[j]? = some bytes ∧
      ∃ i, bytes[i]? = some s.2 ∧ s.1 = ftrValueOffset + ftrValueSize * (k + j) + i := by
  induction values generalizing k with
  | nil => simp [valueStores]
  | cons bytes rest ih =>
      rw [valueStores, List.mem_append, mem_bytesAt, ih]
      constructor
      · rintro (⟨i, hi, hs⟩ | ⟨j, bytes', hj, i, hi, hs⟩)
        · exact ⟨0, bytes, rfl, i, hi, hs⟩
        · refine ⟨j + 1, bytes', by simpa using hj, i, hi, ?_⟩
          rw [hs, Nat.add_right_comm k 1 j, Nat.add_assoc k j 1]
      · rintro ⟨j, bytes', hj, i, hi, hs⟩
        cases j with
        | zero =>
            obtain rfl := Option.some.inj hj
            exact .inl ⟨i, hi, hs⟩
        | succ j =>
            refine .inr ⟨j, bytes', by simpa using hj, i, hi, ?_⟩
            rw [hs, Nat.add_right_comm k 1 j, Nat.add_assoc k j 1]

/-- What a parser stores beside the values lies in the entry and keeps the id, and a value is
no longer than a string. -/
structure WellStored (stored : Mem → ℕ → Stored) : Prop where
  fields : ∀ m n, ∀ s ∈ (stored m n).fields, s.1 < sysCmdSize ∧ (s.1 = 0 → s.2 = m 0)
  values : ∀ m n, ∀ bytes ∈ (stored m n).values, bytes.length ≤ 2 + vrsString8MaxSize

section OneCommand

variable {stored : Mem → ℕ → Stored} (hwell : WellStored stored) (m : Mem) (base n : ℕ)

include hwell

/-- Of all stores only the first byte of the sixth value is at the id of the next entry. -/
theorem WellStored.next (buf : Mem) (h : m (base + sysCmdSize) = reservedId) :
    storeAll m base (stored buf n).bytes (base + sysCmdSize) = sixthByte (stored buf n).values := by
  have hsize : sysCmdSize = 1304 := rfl
  have hlen := hwell.values buf n
  simp only [vrsString8MaxSize] at hlen
  refine storeAll_eq m ?_ ?_
  · intro s hs hat
    rcases List.mem_append.mp hs with hs | hs
    · have := (hwell.fields buf n s hs).1
      omega
    · obtain ⟨j, bytes, hj, i, hi, hplace⟩ := mem_valueStores.mp hs
      have hshort := hlen bytes (List.mem_of_getElem? hj)
      have hi' : i < bytes.length := (List.getElem?_eq_some_iff.mp hi).1
      simp only [ftrValueOffset, ftrValueSize] at hplace
      obtain ⟨rfl, rfl⟩ : j = 5 ∧ i = 0 := by omega
      have hfive : (stored buf n).values[maxFtrValueCount]? = some bytes := hj
      rw [sixthByte, hfive, Option.getD_some, List.head?_eq_getElem?, hi, Option.getD_some]
  · cases hfive : (stored buf n).values[maxFtrValueCount]? with
    | none => exact .inl (by rw [h, sixthByte, hfive]; rfl)
    | some bytes =>
        cases bytes with
        | nil => exact .inl (by rw [h, sixthByte, hfive]; rfl)
        | cons b rest =>
            refine .inr ⟨(sysCmdSize, b), List.mem_append_right _ (mem_valueStores.mpr ?_), rfl⟩
            exact ⟨maxFtrValueCount, b :: rest, hfive, 0, rfl, rfl⟩

/-- The id of the entry stays. -/
theorem WellStored.self (buf : Mem) (h : m base = buf 0) :
    storeAll m base (stored buf n).bytes base = buf 0 := by
  refine storeAll_eq m ?_ (.inl h)
  intro s hs hat
  rcases List.mem_append.mp hs with hs | hs
  · exact (hwell.fields buf n s hs).2 (by omega)
  · obtain ⟨j, bytes, hj, i, hi, hplace⟩ := mem_valueStores.mp hs
    simp only [ftrValueOffset] at hplace
    omega

omit hwell in
/-- Nothing before the entry changes. -/
theorem storeAll_before (l : List (ℕ × UInt8)) {a : ℕ} (h : a < base) :
    storeAll m base l a = m a :=
  storeAll_of_ne m fun s _ => by omega

end OneCommand

/-! ## The loop -/

/-- The entries before the next command have ids of this buffer. -/
def SysLoop.Own (buf : Mem) (bufferLen : ℕ) (s : SysLoop) : Prop :=
  ∀ i < s.rank, ∃ pos < bufferLen, s.sysCmd (sysEntry i) = buf pos

section Loop

variable {α : Type} {unpackCmd : Mem → ℕ → Option (ℕ × α)} {stored : Mem → ℕ → Stored} {buf : Mem}
  {bufferLen : ℕ}

theorem SysLoop.loop_stop {pass : SysLoop → Option SysLoop} {s : SysLoop} (h : pass s = none) (n : ℕ) :
    SysLoop.loop pass n s = some s := by
  cases n with
  | zero => rw [SysLoop.loop, h]; rfl
  | succ n => rw [SysLoop.loop, h]

theorem SysLoop.loop_next {pass : SysLoop → Option SysLoop} {s s' : SysLoop} (h : pass s = some s')
    (n : ℕ) : SysLoop.loop pass (n + 1) s = SysLoop.loop pass n s' := by
  rw [SysLoop.loop, h]

/-- The state behind a node command. -/
def SysLoop.atNode (buf : Mem) (s : SysLoop) : SysLoop :=
  { s with cmdId := buf s.bufferPos, sysCmd := s.sysCmd.set (sysEntry s.rank) reservedId }

/-- The state behind a system command. -/
def SysLoop.behind (unpackCmd : Mem → ℕ → Option (ℕ × α)) (stored : Mem → ℕ → Stored) (buf : Mem)
    (bufferLen : ℕ) (s : SysLoop) : SysLoop :=
  { bufferPos := nextPos unpackCmd buf bufferLen s.bufferPos
    cmdId := buf s.bufferPos
    rank := s.rank + 1
    sysCmd := storeAll
      ((s.sysCmd.set (sysEntry s.rank) (buf s.bufferPos)).set (sysEntry (s.rank + 1)) reservedId)
      (sysEntry s.rank) (stored (buf.shift s.bufferPos) (bufferLen - s.bufferPos)).bytes }

theorem SysLoop.pass_stop {s : SysLoop}
    (h : bufferLen ≤ s.bufferPos ∨ maxSysCmdId < s.cmdId ∨ maxSystemCommandCount - 1 ≤ s.rank) :
    s.pass unpackCmd stored buf bufferLen = none := by
  refine if_neg ?_
  rintro ⟨hpos, hid, hrank⟩
  rcases h with h | h | h
  · omega
  · exact absurd h (UInt8.not_lt.mpr hid)
  · omega

theorem SysLoop.pass_node {s : SysLoop} (hpos : s.bufferPos < bufferLen) (hid : s.cmdId ≤ maxSysCmdId)
    (hrank : s.rank < maxSystemCommandCount - 1) (hnode : maxSysCmdId < buf s.bufferPos) :
    s.pass unpackCmd stored buf bufferLen = some (s.atNode buf) := by
  rw [SysLoop.pass, if_pos ⟨hpos, hid, hrank⟩]
  exact if_pos hnode

theorem SysLoop.pass_cmd {s : SysLoop} (hpos : s.bufferPos < bufferLen) (hid : s.cmdId ≤ maxSysCmdId)
    (hrank : s.rank < maxSystemCommandCount - 1) (hcmd : buf s.bufferPos ≤ maxSysCmdId) :
    s.pass unpackCmd stored buf bufferLen = some (s.behind unpackCmd stored buf bufferLen) := by
  rw [SysLoop.pass, if_pos ⟨hpos, hid, hrank⟩]
  exact if_neg (UInt8.not_lt.mpr hcmd)

theorem SysLoop.Own.atNode {s : SysLoop} (h : s.Own buf bufferLen) : (s.atNode buf).Own buf bufferLen := by
  intro i hi
  obtain ⟨pos, hpos, hbyte⟩ := h i hi
  have hlt := sysEntry_lt (show i < s.rank from hi)
  have hsize : sysCmdSize = 1304 := rfl
  refine ⟨pos, hpos, (set_of_ne s.sysCmd ?_ _).trans hbyte⟩
  omega

theorem SysLoop.Own.behind (hwell : WellStored stored) {s : SysLoop} (h : s.Own buf bufferLen)
    (hpos : s.bufferPos < bufferLen) :
    (s.behind unpackCmd stored buf bufferLen).Own buf bufferLen := by
  have hsize : sysCmdSize = 1304 := rfl
  have hsucc := sysEntry_succ s.rank
  intro i hi
  rcases Nat.lt_succ_iff_lt_or_eq.mp hi with hlt | rfl
  · obtain ⟨pos, hlen, hbyte⟩ := h i hlt
    have hentry := sysEntry_lt hlt
    refine ⟨pos, hlen, ?_⟩
    calc (s.behind unpackCmd stored buf bufferLen).sysCmd (sysEntry i)
        = ((s.sysCmd.set (sysEntry s.rank) (buf s.bufferPos)).set (sysEntry (s.rank + 1)) reservedId)
            (sysEntry i) := storeAll_before _ _ _ (by omega)
      _ = s.sysCmd (sysEntry i) := by rw [set_of_ne _ (by omega), set_of_ne _ (by omega)]
      _ = buf pos := hbyte
  · refine ⟨s.bufferPos, hpos, hwell.self _ _ _ (buf.shift s.bufferPos) ?_⟩
    rw [set_of_ne _ (by omega), set_self]
    rfl

/-- **What the loop leaves**, from any state in which as many passes are left as the rank
allows. -/
theorem SysLoop.loop_spec (hwell : WellStored stored) {room : ℕ} {s : SysLoop}
    (hroom : s.rank + room = maxSystemCommandCount - 1) (hid : s.cmdId ≤ maxSysCmdId)
    (hown : s.Own buf bufferLen) :
    ∃ last, SysLoop.loop (SysLoop.pass unpackCmd stored buf bufferLen) room s = some last ∧
      last.sysCmd = storeAll s.sysCmd 0 (loopStores unpackCmd stored buf bufferLen room s.rank
        s.bufferPos) ∧
      last.Own buf bufferLen ∧
      (last.sysCmd (sysEntry last.rank) = reservedId ↔
        Ended unpackCmd stored buf bufferLen room s.bufferPos (s.sysCmd (sysEntry s.rank))) := by
  induction room generalizing s with
  | zero =>
      refine ⟨s, SysLoop.loop_stop (SysLoop.pass_stop (.inr (.inr ?_))) 0, rfl, hown, Iff.rfl⟩
      exact hroom.ge
  | succ room ih =>
      have hrank : s.rank < maxSystemCommandCount - 1 := by omega
      by_cases hpos : s.bufferPos < bufferLen
      case neg =>
        refine ⟨s, SysLoop.loop_stop (SysLoop.pass_stop (.inl (by omega))) _, ?_, hown, ?_⟩
        · rw [loopStores, if_neg hpos, storeAll]
        · rw [Ended, if_neg hpos]
      case pos =>
        by_cases hnode : maxSysCmdId < buf s.bufferPos
        case pos =>
          refine ⟨s.atNode buf, ?_, ?_, hown.atNode, ?_⟩
          · rw [SysLoop.loop_next (SysLoop.pass_node hpos hid hrank hnode)]
            exact SysLoop.loop_stop (SysLoop.pass_stop (.inr (.inl hnode))) _
          · rw [loopStores, if_pos hpos, if_pos hnode, storeAll, storeAll, Nat.zero_add]
            rfl
          · rw [Ended, if_pos hpos, if_pos hnode]
            exact iff_of_true (set_self _ _ _) trivial
        case neg =>
          have hcmd := UInt8.not_lt.mp hnode
          obtain ⟨last, hlast, hstores, hown', hended⟩ := @ih (s.behind unpackCmd stored buf bufferLen)
            (by show s.rank + 1 + room = _; omega) hcmd (hown.behind hwell hpos)
          refine ⟨last, ?_, ?_, hown', ?_⟩
          · rw [SysLoop.loop_next (SysLoop.pass_cmd hpos hid hrank hcmd), hlast]
          · rw [hstores, loopStores, if_pos hpos, if_neg hnode, List.cons_append, List.cons_append,
              storeAll, storeAll, storeAll_append, ← storeAll_base, Nat.zero_add, Nat.zero_add]
            rfl
          · rw [hended, Ended, if_pos hpos, if_neg hnode]
            have hreserved : (s.behind unpackCmd stored buf bufferLen).sysCmd
                (sysEntry (s.behind unpackCmd stored buf bufferLen).rank) =
                sixthByte (stored (buf.shift s.bufferPos) (bufferLen - s.bufferPos)).values := by
              show storeAll _ _ _ (sysEntry (s.rank + 1)) = _
              rw [sysEntry_succ]
              exact hwell.next _ _ _ (buf.shift s.bufferPos) (set_self _ _ _)
            rw [hreserved]
            rfl

/-- The stores of the loop lie in the array exactly if the values do. -/
theorem loopStores_inside_iff (hwell : WellStored stored) {room rank : ℕ} (pos : ℕ)
    (hroom : rank + room = maxSystemCommandCount - 1) :
    (∀ s ∈ loopStores unpackCmd stored buf bufferLen room rank pos,
        0 + s.1 < sysEntry maxSystemCommandCount) ↔
      ValuesInside unpackCmd stored buf bufferLen room rank pos := by
  have hcount : maxSystemCommandCount = 64 := rfl
  have hsize : sysCmdSize = 1304 := rfl
  induction room generalizing rank pos with
  | zero => exact iff_of_true (List.forall_mem_nil _) trivial
  | succ room ih =>
      have hnext := sysEntry_lt (show rank + 1 < maxSystemCommandCount by omega)
      have hsucc := sysEntry_succ rank
      rw [loopStores, ValuesInside]
      by_cases hpos : pos < bufferLen
      case neg =>
        rw [if_neg hpos]
        exact iff_of_true (List.forall_mem_nil _) fun h => absurd h hpos
      case pos =>
        rw [if_pos hpos]
        by_cases hnode : maxSysCmdId < buf pos
        case pos =>
          rw [if_pos hnode]
          refine iff_of_true ?_ fun _ hid => absurd hnode (UInt8.not_lt.mpr hid)
          intro s hs
          rw [List.mem_singleton.mp hs]
          show 0 + sysEntry rank < _
          omega
        case neg =>
          have hroom' : rank + 1 + room = maxSystemCommandCount - 1 := by omega
          have hih := ih (nextPos unpackCmd buf bufferLen pos) hroom'
          rw [if_neg hnode]
          constructor
          · intro hall _ _
            refine ⟨fun k bytes hk hne => ?_, hih.mp fun s hs => hall s (List.mem_append_right _ hs)⟩
            -- the last byte of the value
            have hlen := List.length_pos_iff.mpr hne
            have hlast : bytes[bytes.length - 1]? = some (bytes.getLast hne) := by
              rw [← List.getLast?_eq_getElem?, List.getLast?_eq_some_getLast hne]
            have hstore := hall (sysEntry rank + (ftrValueOffset + ftrValueSize * k +
                (bytes.length - 1)), bytes.getLast hne)
              (List.mem_append_left _ (List.mem_cons_of_mem _ (List.mem_cons_of_mem _
                (List.mem_map.mpr ⟨(ftrValueOffset + ftrValueSize * k + (bytes.length - 1),
                  bytes.getLast hne), List.mem_append_right _ (mem_valueStores.mpr
                    ⟨k, bytes, hk, bytes.length - 1, hlast, by rw [Nat.zero_add]⟩), rfl⟩))))
            simp only at hstore
            omega
          · intro h s hs
            obtain ⟨hvalues, hrest⟩ := h hpos (UInt8.not_lt.mp hnode)
            rcases List.mem_append.mp hs with hs | hs
            case inr => exact hih.mpr hrest s hs
            case inl =>
              rcases List.mem_cons.mp hs with rfl | hs
              · show 0 + sysEntry rank < _
                omega
              rcases List.mem_cons.mp hs with rfl | hs
              · show 0 + sysEntry (rank + 1) < _
                omega
              obtain ⟨t, ht, rfl⟩ := List.mem_map.mp hs
              rcases List.mem_append.mp ht with ht | ht
              · have := (hwell.fields _ _ t ht).1
                show 0 + (sysEntry rank + t.1) < _
                omega
              · obtain ⟨k, bytes, hk, i, hi, hplace⟩ := mem_valueStores.mp ht
                have hi' : i < bytes.length := (List.getElem?_eq_some_iff.mp hi).1
                have hend := hvalues k bytes hk (List.ne_nil_of_length_pos (by omega))
                show 0 + (sysEntry rank + t.1) < _
                rw [Nat.zero_add k] at hplace
                omega

/-- The loop from the first command on. -/
theorem SysLoop.endsWell_iff (hwell : WellStored stored) {pos : ℕ} {bufLen : UInt16}
    (hpos : pos < bufLen.toNat) :
    EndsWell (fun sysCmd => SysLoop.loop (SysLoop.pass unpackCmd stored buf bufLen.toNat)
        (maxSystemCommandCount - 1) ⟨pos, reservedId, 0, sysCmd⟩) buf bufLen ↔
      ValuesInside unpackCmd stored buf bufLen.toNat (maxSystemCommandCount - 1) 0 pos ∧
        TerminatorLeft unpackCmd stored buf bufLen.toNat (maxSystemCommandCount - 1) pos := by
  have hspec := fun sysCmd => @SysLoop.loop_spec α unpackCmd stored buf bufLen.toNat hwell
    (maxSystemCommandCount - 1) ⟨pos, reservedId, 0, sysCmd⟩ (Nat.zero_add _)
    (show reservedId ≤ maxSysCmdId by decide) (fun i hi => absurd hi (Nat.not_lt_zero i))
  have hended : ∀ b, Ended unpackCmd stored buf bufLen.toNat (maxSystemCommandCount - 1) pos b ↔
      TerminatorLeft unpackCmd stored buf bufLen.toNat (maxSystemCommandCount - 1) pos := by
    intro b
    rw [ended_iff]
    refine and_iff_right fun h => ?_
    rcases h with h | h
    · exact absurd h (by decide)
    · omega
  rw [← loopStores_inside_iff hwell pos (Nat.zero_add _), ← storeAll_keeps_iff]
  constructor
  · intro h
    refine ⟨fun m a ha => ?_, ?_⟩
    · obtain ⟨last, hlast, -, -, hkeeps⟩ := h m
      obtain ⟨last', hlast', hstores, -, -⟩ := hspec m
      obtain rfl := Option.some.inj (hlast.symm.trans hlast')
      rw [← hkeeps a ha, hstores]
    · obtain ⟨last, hlast, hreserved, -, -⟩ := h fun _ => 0
      obtain ⟨last', hlast', -, -, hiff⟩ := hspec fun _ => 0
      obtain rfl := Option.some.inj (hlast.symm.trans hlast')
      exact (hended _).mp (hiff.mp hreserved)
  · rintro ⟨hkeeps, hleft⟩ sysCmd
    obtain ⟨last, hlast, hstores, hown, hiff⟩ := hspec sysCmd
    refine ⟨last, hlast, hiff.mpr ((hended _).mpr hleft), hown, fun a ha => ?_⟩
    rw [hstores]
    exact hkeeps sysCmd a ha

end Loop

/-! ## What the parsers of the source store -/

section Fields

/-- Bytes of the command that stand in the entry and keep the id. -/
def FieldsIn (m : Mem) (fields : List (ℕ × UInt8)) : Prop :=
  ∀ s ∈ fields, s.1 < sysCmdSize ∧ (s.1 = 0 → s.2 = m 0)

variable {m : Mem}

theorem fieldsIn_nil : FieldsIn m [] := List.forall_mem_nil _

theorem FieldsIn.id {fields : List (ℕ × UInt8)} (h : FieldsIn m fields) : FieldsIn m ((0, m 0) :: fields) := by
  intro s hs
  rcases List.mem_cons.mp hs with rfl | hs
  · exact ⟨show 0 < sysCmdSize by decide, fun _ => rfl⟩
  · exact h s hs

theorem FieldsIn.cons {fields : List (ℕ × UInt8)} (h : FieldsIn m fields) {off : ℕ} {b : UInt8}
    (hpos : 0 < off) (hoff : off < sysCmdSize) : FieldsIn m ((off, b) :: fields) := by
  intro s hs
  rcases List.mem_cons.mp hs with rfl | hs
  · exact ⟨hoff, fun h0 => absurd h0 (Nat.ne_of_gt hpos)⟩
  · exact h s hs

theorem FieldsIn.append {xs ys : List (ℕ × UInt8)} (hx : FieldsIn m xs) (hy : FieldsIn m ys) :
    FieldsIn m (xs ++ ys) := by
  intro s hs
  rcases List.mem_append.mp hs with hs | hs
  · exact hx s hs
  · exact hy s hs

theorem fieldsIn_bytesAt {off : ℕ} {bytes : List UInt8} (hpos : 0 < off)
    (hend : off + bytes.length ≤ sysCmdSize) : FieldsIn m (bytesAt off bytes) := by
  intro s hs
  obtain ⟨i, hi, hs⟩ := mem_bytesAt.mp hs
  have hlt : i < bytes.length := (List.getElem?_eq_some_iff.mp hi).1
  exact ⟨by omega, fun h0 => by omega⟩

/-- A string of bytes with its terminator. -/
theorem fieldsIn_string {off count : ℕ} (f : ℕ → UInt8) (hpos : 0 < off)
    (hend : off + (count + 1) ≤ sysCmdSize) :
    FieldsIn m (bytesAt off (((List.range count).map f) ++ [0])) := by
  refine fieldsIn_bytesAt hpos ?_
  rwa [List.length_append, List.length_map, List.length_range, List.length_singleton]

theorem refused_fieldsIn : FieldsIn m [(1, 0), (66, uaMethodReserved)] :=
  (fieldsIn_nil.cons (by decide) (by decide)).cons (by decide) (by decide)

theorem userAuthRequestStored_fields (m : Mem) (n : ℕ) : FieldsIn m (userAuthRequestStored m n).fields := by
  have hsize : sysCmdSize = 1304 := rfl
  unfold userAuthRequestStored
  dsimp only
  generalize vnpRawUnpackUint8 (m.shift 1) = length
  generalize vnpRawUnpackUint8 (m.shift 2) = usernameLen
  generalize vnpRawUnpackUint8 (m.shift (4 + usernameLen)) = passwordLen
  generalize m (3 + usernameLen) = methodType
  by_cases htwo : n < 2
  · rw [if_pos htwo]
    exact refused_fieldsIn
  rw [if_neg htwo]
  by_cases hlength : n < length ∨ length < 5
  · rw [if_pos hlength]
    exact refused_fieldsIn.id
  rw [if_neg hlength]
  by_cases hname : usernameLen = 0 ∨ length < 3 + usernameLen + 1 ∨ vrsMaxUsernameLength < usernameLen
  · rw [if_pos hname]
    exact refused_fieldsIn.id
  rw [if_neg hname]
  simp only [not_or, vrsMaxUsernameLength] at hname
  have hrequest : FieldsIn m ((0, m 0) ::
      bytesAt 1 (((List.range usernameLen).map fun i => m (3 + i)) ++ [0]) ++ [(66, methodType)]) := by
    refine FieldsIn.append (FieldsIn.id ?_) (fieldsIn_nil.cons (by decide) (by decide))
    exact fieldsIn_string _ (by decide) (by omega)
  by_cases hmethod : methodType = uaMethodPassword
  · rw [if_pos hmethod]
    by_cases hpassword : length < 3 + usernameLen + 3 ∨ passwordLen = 0 ∨
        length < 3 + usernameLen + 2 + passwordLen ∨ vrsMaxDataLength < passwordLen
    · rw [if_pos hpassword]
      exact hrequest.append refused_fieldsIn
    · rw [if_neg hpassword]
      simp only [not_or, vrsMaxDataLength] at hpassword
      exact hrequest.append (fieldsIn_string _ (by decide) (by omega))
  · rw [if_neg hmethod]
    exact hrequest

theorem userAuthFailureStored_fields (m : Mem) (n : ℕ) : FieldsIn m (userAuthFailureStored m n).fields := by
  have hsize : sysCmdSize = 1304 := rfl
  unfold userAuthFailureStored
  dsimp only
  generalize vnpRawUnpackUint8 (m.shift 1) = length
  have hread : min ((length + 2 ^ 8 - 2) % 2 ^ 8) vrsMaxUaMethodCount ≤ 1 := Nat.min_le_right _ _
  generalize min ((length + 2 ^ 8 - 2) % 2 ^ 8) vrsMaxUaMethodCount = read at hread
  have hcount : ∀ b, FieldsIn m [(1, b)] := fun b => fieldsIn_nil.cons (by decide) (by decide)
  by_cases htwo : n < 2
  · rw [if_pos htwo]
    exact hcount 0
  rw [if_neg htwo]
  by_cases hlong : n < length
  · rw [if_pos hlong]
    exact (hcount 0).id
  rw [if_neg hlong]
  refine ((hcount _).id.append (fieldsIn_bytesAt (by decide) ?_)).append (hcount _)
  rw [List.length_map, List.length_range]
  omega

theorem userAuthSuccessStored_fields (m : Mem) (n : ℕ) : FieldsIn m (userAuthSuccessStored m n).fields := by
  have hnumbers : ∀ user avatar : ℕ, FieldsIn m (bytesAt 2 (leBytes 2 user) ++ bytesAt 4 (leBytes 4 avatar)) := by
    intro user avatar
    refine (fieldsIn_bytesAt (by decide) ?_).append (fieldsIn_bytesAt (by decide) ?_)
    · rw [length_leBytes]
      decide
    · rw [length_leBytes]
      decide
  unfold userAuthSuccessStored
  dsimp only
  by_cases height : n < 8
  · rw [if_pos height]
    exact hnumbers _ _
  rw [if_neg height]
  by_cases hlength : vnpRawUnpackUint8 (m.shift 1) ≠ 8
  · rw [if_pos hlength]
    exact (hnumbers _ _).id
  · rw [if_neg hlength]
    exact (hnumbers _ _).id

theorem ackNakStored_fields (m : Mem) : FieldsIn m (ackNakStored m).fields := by
  refine (fieldsIn_bytesAt (by decide) ?_).id
  rw [length_leBytes]
  decide

theorem negotiateStored_fields (m : Mem) (n : ℕ) : FieldsIn m (negotiateStored m n).fields := by
  have hcount : ∀ b, FieldsIn m [(1, b)] := fun b => fieldsIn_nil.cons (by decide) (by decide)
  unfold negotiateStored
  dsimp only
  by_cases hlong : n < (vCmdUnpackLen (m.shift 1)).2.1
  · rw [if_pos hlong]
    exact (hcount 0).id
  rw [if_neg hlong]
  by_cases hshort : (vCmdUnpackLen (m.shift 1)).2.1 < 1 + (vCmdUnpackLen (m.shift 1)).1 + 1
  · rw [if_pos hshort]
    exact (hcount 0).id
  rw [if_neg hshort]
  cases Preference.ofByte (m (1 + (vCmdUnpackLen (m.shift 1)).1)) with
  | none => exact ((hcount 0).cons (by decide) (by decide)).id
  | some preference => exact ((hcount _).cons (by decide) (by decide)).id

end Fields

theorem length_mem_unpackValues {read : ℕ → ℕ × List UInt8} {n : ℕ}
    (h : ∀ pos, (read pos).2.length ≤ n) (count pos : ℕ) :
    ∀ bytes ∈ unpackValues read count pos, bytes.length ≤ n := by
  induction count generalizing pos with
  | zero => exact List.forall_mem_nil _
  | succ count ih =>
      intro v hv
      rcases List.mem_cons.mp hv with rfl | hv
      · exact h pos
      · exact ih _ v hv

/-- A string takes no more bytes than its length, 255 characters and the terminator. -/
theorem length_string8Stored (buf : Mem) (bufferSize : ℕ) :
    (string8Stored buf bufferSize).2.length ≤ 2 + vrsString8MaxSize := by
  have hlt : vnpRawUnpackUint8 buf < 2 ^ 8 := (buf 0).toNat_lt
  unfold string8Stored
  dsimp only
  by_cases htwo : bufferSize < 2
  · rw [if_pos htwo]
    exact Nat.zero_le _
  · rw [if_neg htwo, List.length_cons, List.length_append, List.length_map, List.length_range,
      List.length_singleton, vrsString8MaxSize]
    split <;> omega

theorem length_string8At (buf : Mem) (bufferSize pos : ℕ) :
    (string8At buf bufferSize pos).2.length ≤ 2 + vrsString8MaxSize := length_string8Stored _ _

theorem length_mem_stored (preference : Preference) (buf : Mem) (bufferSize cmdLength headerLen pos : ℕ) :
    ∀ bytes ∈ preference.stored buf bufferSize cmdLength headerLen pos,
      bytes.length ≤ 2 + vrsString8MaxSize := by
  cases preference with
  | byte feature values =>
      unfold Preference.stored
      refine length_mem_unpackValues (fun pos => ?_) _ _
      rw [List.length_singleton]
      exact Nat.le_add_right_of_le (by decide)
  | string8 feature values =>
      unfold Preference.stored
      dsimp only
      exact length_mem_unpackValues (length_string8At buf bufferSize) _ _
  | fps values =>
      unfold Preference.stored
      refine length_mem_unpackValues (fun pos => ?_) _ _
      rw [length_leBytes]
      decide

theorem negotiateStored_values (m : Mem) (n : ℕ) :
    ∀ bytes ∈ (negotiateStored m n).values, bytes.length ≤ 2 + vrsString8MaxSize := by
  unfold negotiateStored
  dsimp only
  by_cases hlong : n < (vCmdUnpackLen (m.shift 1)).2.1
  · rw [if_pos hlong]
    exact List.forall_mem_nil _
  rw [if_neg hlong]
  by_cases hshort : (vCmdUnpackLen (m.shift 1)).2.1 < 1 + (vCmdUnpackLen (m.shift 1)).1 + 1
  · rw [if_pos hshort]
    exact List.forall_mem_nil _
  rw [if_neg hshort]
  cases Preference.ofByte (m (1 + (vCmdUnpackLen (m.shift 1)).1)) with
  | none => exact List.forall_mem_nil _
  | some preference => exact length_mem_stored preference _ _ _ _ _

theorem packetStored_well : WellStored packetStored := by
  constructor
  · intro m n
    unfold packetStored
    by_cases hack : m 0 = 1 ∨ m 0 = 2
    · rw [if_pos hack]
      exact ackNakStored_fields m
    rw [if_neg hack]
    by_cases hneg : (NegotiateId.ofByte (m 0)).isSome
    · rw [if_pos hneg]
      exact negotiateStored_fields m n
    · rw [if_neg hneg]
      exact fieldsIn_nil
  · intro m n
    unfold packetStored
    by_cases hack : m 0 = 1 ∨ m 0 = 2
    · rw [if_pos hack]
      exact List.forall_mem_nil _
    rw [if_neg hack]
    by_cases hneg : (NegotiateId.ofByte (m 0)).isSome
    · rw [if_pos hneg]
      exact negotiateStored_values m n
    · rw [if_neg hneg]
      exact List.forall_mem_nil _

/-- Only a negotiate command stores values. -/
theorem messageStored_values_of_auth {m : Mem} (h : m 0 = 7 ∨ m 0 = 8 ∨ m 0 = 9) (n : ℕ) :
    (messageStored m n).values = [] := by
  unfold messageStored
  by_cases hreq : m 0 = 7
  · rw [if_pos hreq]
    unfold userAuthRequestStored
    dsimp only
    split
    · rfl
    split
    · rfl
    split
    · rfl
    split
    · split <;> rfl
    · rfl
  rw [if_neg hreq]
  by_cases hfail : m 0 = 8
  · rw [if_pos hfail]
    unfold userAuthFailureStored
    dsimp only
    split
    · rfl
    · split <;> rfl
  rw [if_neg hfail]
  rw [if_pos (by rcases h with h | h | h <;> trivial)]
  unfold userAuthSuccessStored
  dsimp only
  split
  · rfl
  · split <;> rfl

theorem messageStored_well : WellStored messageStored := by
  constructor
  · intro m n
    unfold messageStored
    by_cases hreq : m 0 = 7
    · rw [if_pos hreq]
      exact userAuthRequestStored_fields m n
    rw [if_neg hreq]
    by_cases hfail : m 0 = 8
    · rw [if_pos hfail]
      exact userAuthFailureStored_fields m n
    rw [if_neg hfail]
    by_cases hsucc : m 0 = 9
    · rw [if_pos hsucc]
      exact userAuthSuccessStored_fields m n
    rw [if_neg hsucc]
    by_cases hneg : (NegotiateId.ofByte (m 0)).isSome
    · rw [if_pos hneg]
      exact negotiateStored_fields m n
    · rw [if_neg hneg]
      exact fieldsIn_nil
  · intro m n
    by_cases hauth : m 0 = 7 ∨ m 0 = 8 ∨ m 0 = 9
    · rw [messageStored_values_of_auth hauth]
      exact List.forall_mem_nil _
    · simp only [not_or] at hauth
      rw [messageStored, if_neg hauth.1, if_neg hauth.2.1, if_neg hauth.2.2]
      by_cases hneg : (NegotiateId.ofByte (m 0)).isSome
      · rw [if_pos hneg]
        exact negotiateStored_values m n
      · rw [if_neg hneg]
        exact List.forall_mem_nil _

/-! ## The parsers and their commands -/

/-- The loop goes over the same commands as `unpackSysCmds`. -/
theorem SysLoop.loop_unpackSysCmds {α : Type} (unpackCmd : Mem → ℕ → Option (ℕ × α))
    (unknown : UInt8 → α) (stored : Mem → ℕ → Stored) (buf : Mem) (bufferLen : ℕ) {room : ℕ}
    {s : SysLoop} (hroom : s.rank + room = maxSystemCommandCount - 1) (hid : s.cmdId ≤ maxSysCmdId) :
    ∃ last, SysLoop.loop (SysLoop.pass unpackCmd stored buf bufferLen) room s = some last ∧
      last.bufferPos = (unpackSysCmds unpackCmd unknown buf bufferLen room s.bufferPos).1 ∧
      last.rank = s.rank + (unpackSysCmds unpackCmd unknown buf bufferLen room s.bufferPos).2.length := by
  induction room generalizing s with
  | zero =>
      exact ⟨s, SysLoop.loop_stop (SysLoop.pass_stop (.inr (.inr hroom.ge))) 0, rfl, rfl⟩
  | succ room ih =>
      have hrank : s.rank < maxSystemCommandCount - 1 := by omega
      rw [unpackSysCmds]
      by_cases hpos : s.bufferPos < bufferLen
      case neg =>
        rw [if_neg hpos]
        exact ⟨s, SysLoop.loop_stop (SysLoop.pass_stop (.inl (Nat.le_of_not_lt hpos))) _, rfl, rfl⟩
      case pos =>
        rw [if_pos hpos]
        by_cases hnode : maxSysCmdId < buf s.bufferPos
        case pos =>
          rw [if_pos hnode]
          refine ⟨s.atNode buf, ?_, rfl, rfl⟩
          rw [SysLoop.loop_next (SysLoop.pass_node hpos hid hrank hnode)]
          exact SysLoop.loop_stop (SysLoop.pass_stop (.inr (.inl hnode))) _
        case neg =>
          have hcmd := UInt8.not_lt.mp hnode
          obtain ⟨last, hlast, hlastPos, hlastRank⟩ := @ih (s.behind unpackCmd stored buf bufferLen)
            (by show s.rank + 1 + room = _; omega) hcmd
          rw [if_neg hnode]
          refine ⟨last, ?_, ?_, ?_⟩
          · rw [SysLoop.loop_next (SysLoop.pass_cmd hpos hid hrank hcmd), hlast]
          · rw [hlastPos]
            show (unpackSysCmds _ _ _ _ _ (nextPos _ _ _ _)).1 = _
            unfold nextPos
            cases unpackCmd (buf.shift s.bufferPos) (bufferLen - s.bufferPos) <;> rfl
          · rw [hlastRank]
            show s.rank + 1 + (unpackSysCmds _ _ _ _ _ (nextPos _ _ _ _)).2.length = _
            unfold nextPos
            cases unpackCmd (buf.shift s.bufferPos) (bufferLen - s.bufferPos) with
            | none => simp only [List.length_cons]; omega
            | some result => simp only [List.length_cons]; omega

/-- As many values are stored as the command has. -/
theorem length_negotiateStored (id : NegotiateId) (buf : Mem) (bufferSize : ℕ) :
    (negotiateStored buf bufferSize).values.length =
      (vRawUnpackNegotiateCmd id buf bufferSize).2.count := by
  rw [vRawUnpackNegotiateCmd_eq]
  unfold negotiateStored announced lengthEnd
  dsimp only
  by_cases hlong : bufferSize < (vCmdUnpackLen (buf.shift 1)).2.1
  · rw [if_pos hlong, if_pos (Or.inl hlong)]
    rfl
  rw [if_neg hlong]
  by_cases hshort : (vCmdUnpackLen (buf.shift 1)).2.1 < 1 + (vCmdUnpackLen (buf.shift 1)).1 + 1
  · rw [if_pos hshort, if_pos (Or.inr hshort)]
    rfl
  rw [if_neg hshort, if_neg (not_or.mpr ⟨hlong, hshort⟩)]
  cases Preference.ofByte (buf (1 + (vCmdUnpackLen (buf.shift 1)).1)) with
  | none => rfl
  | some preference =>
      cases preference with
      | byte feature values =>
          exact (length_unpackValues _ _ _).trans (length_unpackValues _ _ _).symm
      | string8 feature values =>
          exact (length_unpackValues _ _ _).trans (length_unpackValues _ _ _).symm
      | fps values =>
          exact (length_unpackValues _ _ _).trans (length_unpackValues _ _ _).symm

/-- `packetSysCmds` reaches the position of `vUnpackPacketSystemCommands` and stores as many
commands. -/
theorem packetSysCmds_position {buf : Mem} {bufferLen : UInt16} {pos : ℕ} {cmds : List SysCmd}
    (h : vUnpackPacketSystemCommands buf bufferLen = some (pos, cmds)) (sysCmd : Mem) :
    ∃ last, packetSysCmds buf bufferLen sysCmd = some last ∧ last.bufferPos = pos ∧
      last.rank = cmds.length := by
  unfold vUnpackPacketSystemCommands at h
  unfold packetSysCmds
  by_cases hshort : bufferLen.toNat < versePacketHeaderSize
  · rw [if_pos hshort] at h
    cases h
  rw [if_neg hshort] at h
  by_cases hempty : bufferLen.toNat = versePacketHeaderSize
  · rw [if_pos hempty] at h
    cases h
    rw [if_pos hempty.le]
    exact ⟨_, rfl, rfl, rfl⟩
  · rw [if_neg hempty] at h
    rw [if_neg (by omega)]
    obtain ⟨last, hlast, hpos, hrank⟩ := @SysLoop.loop_unpackSysCmds SysCmd unpackPacketCmd .unknown
      packetStored buf bufferLen.toNat (maxSystemCommandCount - 1)
      ⟨versePacketHeaderSize, reservedId, 0, sysCmd⟩ (Nat.zero_add _)
      (show reservedId ≤ maxSysCmdId by decide)
    rw [Option.some.inj h] at hpos hrank
    exact ⟨last, hlast, hpos, hrank.trans (Nat.zero_add _)⟩

/-- **When parsing ends well.**  The values of all negotiate commands end in the array, and
the last command, unless a node command follows, has no sixth value or one that begins with
a zero. -/
theorem sysCmds_endWell_iff (buf : Mem) (bufferLen : UInt16) :
    (EndsWell (packetSysCmds buf bufferLen) buf bufferLen ↔
      bufferLen.toNat ≤ versePacketHeaderSize ∨
        ValuesInside unpackPacketCmd packetStored buf bufferLen.toNat (maxSystemCommandCount - 1) 0
          versePacketHeaderSize ∧
        TerminatorLeft unpackPacketCmd packetStored buf bufferLen.toNat (maxSystemCommandCount - 1)
          versePacketHeaderSize) ∧
    (EndsWell (messageSysCmds buf bufferLen) buf bufferLen ↔
      ValuesInside unpackMessageCmd messageStored buf bufferLen.toNat (maxSystemCommandCount - 1) 0 0 ∧
        TerminatorLeft unpackMessageCmd messageStored buf bufferLen.toNat
          (maxSystemCommandCount - 1) 0) := by
  -- without commands only the first entry is written
  have hnothing : ∀ (pos : ℕ) (parse : Mem → Option SysLoop),
      (∀ sysCmd, parse sysCmd = some ⟨pos, reservedId, 0, sysCmd.set (sysEntry 0) reservedId⟩) →
        EndsWell parse buf bufferLen := by
    intro pos parse hparse sysCmd
    refine ⟨_, hparse sysCmd, set_self sysCmd (sysEntry 0) reservedId,
      fun i hi => absurd hi (Nat.not_lt_zero i), ?_⟩
    intro a ha
    have hbound : 0 < sysEntry maxSystemCommandCount := by decide
    exact set_of_ne _ (show a ≠ 0 by omega) _
  constructor
  · by_cases hempty : bufferLen.toNat ≤ versePacketHeaderSize
    · exact iff_of_true (hnothing _ _ fun _ => if_pos hempty) (.inl hempty)
    · rw [or_iff_right hempty, ← SysLoop.endsWell_iff packetStored_well (Nat.lt_of_not_le hempty)]
      have hparse : packetSysCmds buf bufferLen = fun sysCmd =>
          SysLoop.loop (SysLoop.pass unpackPacketCmd packetStored buf bufferLen.toNat)
            (maxSystemCommandCount - 1) ⟨versePacketHeaderSize, reservedId, 0, sysCmd⟩ :=
        funext fun _ => if_neg hempty
      rw [hparse]
  · by_cases hempty : bufferLen.toNat < 1
    · refine iff_of_true (hnothing _ _ fun _ => if_pos hempty) ⟨?_, ?_⟩
      · exact fun hpos => absurd hpos (by omega)
      · exact fun hpos => absurd hpos (by omega)
    · rw [← SysLoop.endsWell_iff messageStored_well (show 0 < bufferLen.toNat by omega)]
      have hparse : messageSysCmds buf bufferLen = fun sysCmd =>
          SysLoop.loop (SysLoop.pass unpackMessageCmd messageStored buf bufferLen.toNat)
            (maxSystemCommandCount - 1) ⟨0, reservedId, 0, sysCmd⟩ :=
        funext fun _ => if_neg hempty
      rw [hparse]

/-- A header and one negotiate command with six methods of flow control. -/
def sixMethods : List UInt8 := List.replicate 16 0 ++ [3, 9, 1, 1, 1, 1, 1, 1, 1]

/-- The sixth method is taken for the id of the next command. -/
theorem not_sysCmds_endWell :
    ¬ ∀ (buf : Mem) (bufferLen : UInt16), versePacketHeaderSize < bufferLen.toNat →
      EndsWell (packetSysCmds buf bufferLen) buf bufferLen := by
  intro hall
  obtain ⟨last, hlast, hreserved, -, -⟩ := hall (ofBytes sixMethods) 25 (by decide) fun _ => 0
  have hid : (packetSysCmds (ofBytes sixMethods) 25 fun _ => 0).map
      (fun s => s.sysCmd (sysEntry s.rank)) = some 1 := by decide +kernel
  rw [hlast, Option.map_some, hreserved] at hid
  exact absurd hid (by decide)

end Verse
