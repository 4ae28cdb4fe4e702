import Verse.Lib.Run
import Verse.Receive.ServerConn
import Verse.Stream.Session

/-!
# The system commands of a sent packet

`send_packet_in_OPEN_CLOSEREQ_state` fills one `s_packet` again and again, and
`v_pack_dgram_system_commands` packs what stands in its array `sys_cmd` before
`CMD_RESERVED_ID`.  The terminator is written behind ACK and NAK commands and behind
a negotiate command.  A packet that has neither therefore carries what an earlier
packet left in the array.

`sentSysCmds_right_iff` says when every packet of a connection carries the commands
that it should carry.
-/

namespace Verse

open Lib

/-- The array `sys_cmd` of a packet to be sent; `none` is `CMD_RESERVED_ID`.  It has
`MAX_SYSTEM_COMMAND_COUNT + 1` entries. -/
abbrev SysCmdArray := ℕ → Option SysCmd

/-- `calloc` in `vs_main_dgram_loop` and `vc_main_dgram_loop`. -/
def SysCmdArray.zero : SysCmdArray := fun _ => none

/-- The loop of `v_pack_dgram_system_commands` over the entries from `rank` on. -/
def SysCmdArray.packedFrom (cmds : SysCmdArray) : ℕ → ℕ → List SysCmd
  | 0, _ => []
  | room + 1, rank =>
      match cmds rank with
      | none => []
      | some cmd => cmd :: packedFrom cmds room (rank + 1)

/-- The system commands that are packed. -/
def SysCmdArray.packed (cmds : SysCmdArray) : List SysCmd :=
  cmds.packedFrom maxSystemCommandCount 0

/-- An entry of the history of ACK and NAK commands as a system command. -/
def AckNakCmd.toSysCmd (cmd : AckNakCmd) : SysCmd := .ackNak cmd.1 (UInt32.ofNat cmd.2)

/-- The loop that copies the history of ACK and NAK commands, and the rank it ends
with. -/
def writeAckNak (cmds : SysCmdArray) : List AckNakCmd → ℕ → SysCmdArray × ℕ
  | [], rank => (cmds, rank)
  | cmd :: rest, rank =>
      if rank < maxSystemCommandCount then
        writeAckNak (Function.update cmds rank (some (AckNakCmd.toSysCmd cmd))) rest (rank + 1)
      else (cmds, rank)

/-- `v_add_negotiate_cmd` for FPS. -/
def writeFps (cmds : SysCmdArray) (rank : ℕ) (id : NegotiateId) (fps : UInt32) : SysCmdArray :=
  Function.update
    (Function.update cmds rank (some (.negotiate (vAddNegotiateCmd id (.fps [fps]))))) (rank + 1)
    none

/-- What decides about the system commands of the next packet.  `rPay` and `acked`
are those of the last received packet. -/
structure SendConn where
  sysCmd : SysCmdArray
  ackNak : List AckNakCmd
  rPay : Bool
  acked : Bool
  fpsHost : UInt32
  fpsPeer : UInt32
  tmpFlags : UInt8

/-- `check_ack_nak_flag`. -/
def SendConn.checkAckNakFlag (c : SendConn) (pay : Bool) : Bool :=
  decide (0 < c.ackNak.length) && (pay || c.rPay && !c.acked)

/-- The negotiate command for FPS that is to be sent. -/
def SendConn.fps (c : SendConn) : Option (NegotiateId × UInt32) :=
  if !real32Eq c.fpsHost c.fpsPeer then some (.changeL, c.fpsHost)
  else if c.tmpFlags &&& sysCmdNegotiateFps ≠ 0 then some (.confirmL, c.fpsPeer)
  else none

/-- `send_packet_in_OPEN_CLOSEREQ_state`, as far as it is about system commands:
`pay` is whether `check_pay_flag` asks for a payload packet.  The result has the
commands of the packet, unless sending is cancelled. -/
def SendConn.send (c : SendConn) (pay : Bool) : SendConn × Option (List SysCmd) :=
  let ack := c.checkAckNakFlag pay
  let (sysCmd, rank) :=
    if ack then
      let (sysCmd, rank) := writeAckNak c.sysCmd c.ackNak 0
      (Function.update sysCmd rank none, rank)
    else (c.sysCmd, 0)
  let c := { c with sysCmd := sysCmd, acked := c.acked || ack }
  if !(pay || ack) then (c, none)
  else
    let sysCmd :=
      match c.fps with
      | some (id, fps) => writeFps sysCmd rank id fps
      | none => sysCmd
    let tmpFlags :=
      if real32Eq c.fpsHost c.fpsPeer then c.tmpFlags &&& ~~~ sysCmdNegotiateFps else c.tmpFlags
    ({ c with sysCmd := sysCmd, tmpFlags := tmpFlags }, some sysCmd.packed)

inductive SendAction where
  /-- `send_packet_in_OPEN_CLOSEREQ_state` -/
  | send (pay : Bool)
  /-- packets are received and fake commands handled: `s_packet` is not touched -/
  | change (ackNak : List AckNakCmd) (rPay acked : Bool) (fpsHost fpsPeer : UInt32)
      (tmpFlags : UInt8)

def SendConn.step (c : SendConn) : SendAction → Option SendConn
  | .send pay => some (c.send pay).1
  | .change ackNak rPay acked fpsHost fpsPeer tmpFlags =>
      some ⟨c.sysCmd, ackNak, rPay, acked, fpsHost, fpsPeer, tmpFlags⟩

/-- The entries of the history that are sent. -/
def ackNakSysCmds (entries : List AckNakCmd) : List SysCmd :=
  (entries.take maxSystemCommandCount).map AckNakCmd.toSysCmd

/-- The negotiate command, if one is due. -/
def SendConn.fpsCmd (c : SendConn) : List SysCmd :=
  (c.fps.map fun fps => SysCmd.negotiate (vAddNegotiateCmd fps.1 (.fps [fps.2]))).toList

/-- The system commands the packet should have: the entries of the history if the
packet acknowledges, and a negotiate command if one is due. -/
def SendConn.due (c : SendConn) (pay : Bool) : List SysCmd :=
  (if c.checkAckNakFlag pay then ackNakSysCmds c.ackNak else []) ++ c.fpsCmd

/-- The packet, if there is one, has the commands it should have. -/
def SendConn.Right (c : SendConn) : SendAction → Prop
  | .send pay => ∀ cmds ∈ (c.send pay).2, cmds = c.due pay
  | .change .. => True

/-- A packet acknowledges, and has a place for the negotiate command if one is due;
or it does not acknowledge, and a negotiate command is due or nothing was left in the
array. -/
def SendConn.Terminated (c : SendConn) : SendAction → Prop
  | .send pay =>
      if c.checkAckNakFlag pay then c.fps = none ∨ c.ackNak.length < maxSystemCommandCount
      else pay = true → c.fps = none → c.sysCmd 0 = none
  | .change .. => True

/-! ## What is written and what is packed -/

variable {cmds : SysCmdArray}

/-- Entries below the rank are not written. -/
theorem writeAckNak_below (entries : List AckNakCmd) {rank i : ℕ} (hi : i < rank) :
    (writeAckNak cmds entries rank).1 i = cmds i := by
  induction entries generalizing cmds rank with
  | nil => rfl
  | cons cmd rest ih =>
      unfold writeAckNak
      split
      · rw [ih (Nat.lt_succ_of_lt hi), Function.update_of_ne (Nat.ne_of_lt hi)]
      · rfl

theorem writeAckNak_rank (entries : List AckNakCmd) {rank : ℕ}
    (hrank : rank ≤ maxSystemCommandCount) :
    (writeAckNak cmds entries rank).2 = rank + (entries.take (maxSystemCommandCount - rank)).length := by
  induction entries generalizing cmds rank with
  | nil => simp [writeAckNak]
  | cons cmd rest ih =>
      unfold writeAckNak
      split
      case isTrue hlt =>
        rw [ih hlt, List.length_take, List.length_take, List.length_cons]
        omega
      case isFalse hge =>
        have hzero : maxSystemCommandCount - rank = 0 := by omega
        simp [hzero]

/-- The entries that are packed: those before the first reserved one. -/
theorem packedFrom_append {entries : List SysCmd} {room rank : ℕ} (hroom : entries.length ≤ room)
    (hentries : ∀ i < entries.length, cmds (rank + i) = entries[i]?) :
    cmds.packedFrom room rank =
      entries ++ cmds.packedFrom (room - entries.length) (rank + entries.length) := by
  induction entries generalizing room rank with
  | nil => simp
  | cons cmd rest ih =>
      obtain ⟨room, rfl⟩ : ∃ n, room = n + 1 :=
        ⟨room - 1, by simp only [List.length_cons] at hroom; omega⟩
      have hfirst : cmds rank = some cmd := hentries 0 (by simp)
      have hrest := @ih room (rank + 1) (by simpa using hroom) fun i hi => by
        have hnext := hentries (i + 1) (by simpa using hi)
        rwa [show rank + (i + 1) = rank + 1 + i by omega, List.getElem?_cons_succ] at hnext
      simp only [SysCmdArray.packedFrom, hfirst, hrest, List.cons_append, List.length_cons]
      rw [Nat.add_sub_add_right, show rank + 1 + rest.length = rank + (rest.length + 1) by omega]

theorem writeAckNak_entry (entries : List AckNakCmd) {rank i : ℕ}
    (hi : i < (entries.take (maxSystemCommandCount - rank)).length) :
    (writeAckNak cmds entries rank).1 (rank + i) =
      (entries.take (maxSystemCommandCount - rank))[i]?.map AckNakCmd.toSysCmd := by
  induction entries generalizing cmds rank i with
  | nil => simp at hi
  | cons cmd rest ih =>
      have hlt : rank < maxSystemCommandCount := by
        by_contra hge
        rw [Nat.sub_eq_zero_of_le (Nat.le_of_not_lt hge)] at hi
        simp at hi
      have hsub : maxSystemCommandCount - rank = maxSystemCommandCount - (rank + 1) + 1 := by omega
      rw [hsub, List.take_succ_cons] at hi ⊢
      unfold writeAckNak
      rw [if_pos hlt]
      cases i with
      | zero =>
          have hself : rank + 0 < rank + 1 := Nat.lt_succ_self _
          rw [writeAckNak_below _ hself, Nat.add_zero, Function.update_self]
          rfl
      | succ i =>
          rw [show rank + (i + 1) = rank + 1 + i by omega, ih (by simpa using hi),
            List.getElem?_cons_succ]

theorem length_ackNakSysCmds (entries : List AckNakCmd) :
    (ackNakSysCmds entries).length = min maxSystemCommandCount entries.length := by
  simp [ackNakSysCmds]

theorem writeAckNak_zero (entries : List AckNakCmd) :
    (writeAckNak cmds entries 0).2 = (ackNakSysCmds entries).length ∧
      ∀ i < (ackNakSysCmds entries).length,
        (writeAckNak cmds entries 0).1 i = (ackNakSysCmds entries)[i]? := by
  constructor
  · rw [writeAckNak_rank entries (Nat.zero_le _)]
    simp [ackNakSysCmds]
  · intro i hi
    have hentry := @writeAckNak_entry cmds entries 0 i (by simpa [ackNakSysCmds] using hi)
    rw [Nat.zero_add, Nat.sub_zero] at hentry
    rw [hentry, ackNakSysCmds, List.getElem?_map]

/-- Entries behind which the terminator stands. -/
theorem packed_of_entries {entries : List SysCmd} (hroom : entries.length ≤ maxSystemCommandCount)
    (hentries : ∀ i < entries.length, cmds i = entries[i]?) (hend : cmds entries.length = none) :
    cmds.packed = entries := by
  have hpacked : cmds.packedFrom maxSystemCommandCount 0 = entries ++
      cmds.packedFrom (maxSystemCommandCount - entries.length) (0 + entries.length) := by
    refine packedFrom_append hroom fun i hi => ?_
    rw [Nat.zero_add]
    exact hentries i hi
  rw [SysCmdArray.packed, hpacked, Nat.zero_add]
  cases hleft : maxSystemCommandCount - entries.length with
  | zero => simp [SysCmdArray.packedFrom]
  | succ n => simp [SysCmdArray.packedFrom, hend]

/-- More entries than are packed. -/
theorem packed_of_full {entries : List SysCmd} (hfull : entries.length = maxSystemCommandCount)
    (hentries : ∀ i < entries.length, cmds i = entries[i]?) : cmds.packed = entries := by
  have hpacked : cmds.packedFrom maxSystemCommandCount 0 = entries ++
      cmds.packedFrom (maxSystemCommandCount - entries.length) (0 + entries.length) := by
    refine packedFrom_append (Nat.le_of_eq hfull) fun i hi => ?_
    rw [Nat.zero_add]
    exact hentries i hi
  rw [SysCmdArray.packed, hpacked, hfull, Nat.sub_self]
  simp [SysCmdArray.packedFrom]

theorem packed_eq_nil_iff : cmds.packed = [] ↔ cmds 0 = none := by
  have hcount : maxSystemCommandCount = 63 + 1 := rfl
  rw [SysCmdArray.packed, hcount, SysCmdArray.packedFrom]
  cases cmds 0 <;> simp

/-- A negotiate command behind entries of the history. -/
theorem packed_writeFps {entries : List SysCmd} (hroom : entries.length < maxSystemCommandCount)
    (hentries : ∀ i < entries.length, cmds i = entries[i]?) (id : NegotiateId) (fps : UInt32) :
    (writeFps cmds entries.length id fps).packed =
      entries ++ [.negotiate (vAddNegotiateCmd id (.fps [fps]))] := by
  refine packed_of_entries (by rw [List.length_append]; exact hroom) ?_ ?_
  · intro i hi
    rw [List.length_append, List.length_singleton] at hi
    rw [writeFps, Function.update_of_ne (Nat.ne_of_lt hi)]
    rcases Nat.lt_or_eq_of_le (Nat.le_of_lt_succ hi) with hlt | rfl
    · rw [Function.update_of_ne (Nat.ne_of_lt hlt), hentries i hlt, List.getElem?_append_left hlt]
    · rw [Function.update_self, List.getElem?_append_right (Nat.le_refl _)]
      simp
  · rw [List.length_append, List.length_singleton, writeFps, Function.update_self]

/-! ## One packet -/

variable {c : SendConn} {pay : Bool}

/-- The array before a negotiate command is added, and the rank of that command. -/
def SendConn.written (c : SendConn) (pay : Bool) : SysCmdArray × ℕ :=
  if c.checkAckNakFlag pay then
    let (sysCmd, rank) := writeAckNak c.sysCmd c.ackNak 0
    (Function.update sysCmd rank none, rank)
  else (c.sysCmd, 0)

theorem SendConn.send_packet (c : SendConn) (pay : Bool) :
    (c.send pay).2 =
      if !(pay || c.checkAckNakFlag pay) then none
      else
        some (match c.fps with
          | some (id, fps) => writeFps (c.written pay).1 (c.written pay).2 id fps
          | none => (c.written pay).1).packed := by
  unfold SendConn.send SendConn.written
  by_cases hack : c.checkAckNakFlag pay = true <;> cases pay <;> simp [hack, SendConn.fps]

/-- What is written for a packet that acknowledges. -/
theorem SendConn.written_ack (hack : c.checkAckNakFlag pay = true) :
    (c.written pay).2 = (ackNakSysCmds c.ackNak).length ∧
      (∀ i < (ackNakSysCmds c.ackNak).length,
        (c.written pay).1 i = (ackNakSysCmds c.ackNak)[i]?) ∧
      (c.written pay).1 (ackNakSysCmds c.ackNak).length = none := by
  obtain ⟨hrank, hentries⟩ := @writeAckNak_zero c.sysCmd c.ackNak
  simp only [SendConn.written, hack, if_true, hrank]
  refine ⟨trivial, ?_, Function.update_self _ _ _⟩
  intro i hi
  rw [Function.update_of_ne (Nat.ne_of_lt hi)]
  exact hentries i hi

/-- **A packet that acknowledges** has the first entries of the history; a negotiate
command is packed if a place is left for it. -/
theorem SendConn.send_ack (hack : c.checkAckNakFlag pay = true) :
    (c.send pay).2 = some (ackNakSysCmds c.ackNak ++
      if c.ackNak.length < maxSystemCommandCount then c.fpsCmd else []) := by
  obtain ⟨hrank, hentries, hend⟩ := c.written_ack hack
  have hlen := length_ackNakSysCmds c.ackNak
  rw [SendConn.send_packet, hack, Bool.or_true, if_neg (by simp), Option.some.injEq]
  cases hfps : c.fps with
  | none =>
      have hnil : c.fpsCmd = [] := by simp [SendConn.fpsCmd, hfps]
      rw [hnil, ite_self, List.append_nil]
      exact packed_of_entries (by omega) hentries hend
  | some fps =>
      obtain ⟨id, value⟩ := fps
      have hcmd : c.fpsCmd = [.negotiate (vAddNegotiateCmd id (.fps [value]))] := by
        simp [SendConn.fpsCmd, hfps]
      rw [hcmd, hrank]
      simp only
      split
      · exact packed_writeFps (by omega) hentries id value
      · -- the negotiate command is written behind what is packed
        rw [List.append_nil]
        refine packed_of_full (by omega) fun i hi => ?_
        rw [writeFps, Function.update_of_ne (Nat.ne_of_lt (Nat.lt_succ_of_lt hi)),
          Function.update_of_ne (Nat.ne_of_lt hi)]
        exact hentries i hi

/-- A payload packet that does not acknowledge has the negotiate command, or else what
stands in the array. -/
theorem SendConn.send_pay (hack : c.checkAckNakFlag true = false) :
    (c.send true).2 = some (if c.fps = none then c.sysCmd.packed else c.fpsCmd) := by
  have hwritten : c.written true = (c.sysCmd, 0) := by simp [SendConn.written, hack]
  rw [SendConn.send_packet, hwritten, Bool.true_or, if_neg (by simp), Option.some.injEq]
  cases hfps : c.fps with
  | none => rfl
  | some fps =>
      obtain ⟨id, value⟩ := fps
      simp only [SendConn.fpsCmd, hfps, reduceCtorEq, if_false]
      exact @packed_writeFps c.sysCmd [] (by decide) (fun i hi => absurd hi (by simp)) id value

theorem SendConn.fpsCmd_eq_nil_iff (c : SendConn) : c.fpsCmd = [] ↔ c.fps = none := by
  cases hfps : c.fps <;> simp [SendConn.fpsCmd, hfps]

/-- **One packet** has the commands it should have exactly if the array is
terminated. -/
theorem SendConn.right_iff (c : SendConn) (a : SendAction) : c.Right a ↔ c.Terminated a := by
  cases a with
  | change => exact Iff.rfl
  | send pay =>
      simp only [SendConn.Right, SendConn.Terminated, SendConn.due]
      by_cases hack : c.checkAckNakFlag pay = true
      · rw [SendConn.send_ack hack, if_pos hack]
        simp only [hack, Option.mem_def, Option.some.injEq, forall_eq', if_true,
          List.append_cancel_left_eq]
        split
        case isTrue hlt => simp [hlt]
        case isFalse hge =>
          rw [or_iff_left hge, ← c.fpsCmd_eq_nil_iff]
          exact eq_comm
      · rw [Bool.not_eq_true] at hack
        cases pay with
        | false => simp [SendConn.send_packet, hack]
        | true =>
            rw [SendConn.send_pay hack]
            by_cases hfps : c.fps = none
            · have hnil := c.fpsCmd_eq_nil_iff.mpr hfps
              simpa [hack, hfps, hnil] using packed_eq_nil_iff
            · simp [hack, hfps]

/-! ## Runs -/

/-- **No stale system commands.**  All packets of a connection have the ACK and NAK
commands and the negotiate command they should have, and no others, exactly if every
packet that acknowledges has a place for the negotiate command that is due, and a
packet that neither acknowledges nor negotiates is only sent while the array is
empty. -/
theorem sentSysCmds_right_iff (c : SendConn) (actions : List SendAction) :
    Admissible SendConn.step SendConn.Right c actions ↔
      Admissible SendConn.step SendConn.Terminated c actions :=
  admissible_congr SendConn.right_iff c actions

/-- A new connection with the default number of frames. -/
def SendConn.new : SendConn := ⟨.zero, [], false, false, 0x42700000, 0x42700000, 0⟩

/-- A packet is acknowledged, the peer confirms that, and then a payload packet is
sent: it has the old ACK command again. -/
def staleAckActions : List SendAction :=
  [.change [(.ack, 1)] true false 0x42700000 0x42700000 0, .send true,
    .change [] true true 0x42700000 0x42700000 0, .send true]

theorem sentSysCmds_stale :
    ¬ ∀ (c : SendConn) (actions : List SendAction),
      Admissible SendConn.step SendConn.Right c actions := by
  intro hall
  have hright := hall SendConn.new staleAckActions
  have hlast := (((hright.2 _ rfl).2 _ rfl).2 _ rfl).1
  have hpacket := hlast [.ackNak .ack 1] (by decide +kernel)
  exact absurd hpacket (by decide +kernel)

end Verse
