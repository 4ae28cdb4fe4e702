import Verse.Receive.FpsNegotiation
import Verse.Resend.TruncatedAcks

/-!
# Received and sent packets of a datagram connection

What client and server have in common when a datagram arrives or is sent: the
packets `r_packet` and `s_packet` of the context, which are filled again and again,
the fields of `VDgramConn`, the callbacks for system commands, and the functions of
`v_resend_mechanism.c` for the state OPEN.

A parser that refuses a datagram leaves in `r_packet` what an earlier one wrote, so
`RPacket` is the structure with everything that is still in it.  Times, addresses,
the congestion window, the queue of outgoing commands and the history of sent
packets are left out here; whether a payload packet is due is an input.
-/

namespace Verse.Dgram

open Lib

/-- `SYN_FLAG`. -/
def synFlag : UInt8 := (1 : UInt8) <<< (4 : UInt8)

/-- `RECEIVE_PACKET_*`, in the order of their numbers. -/
inductive ReceivePacket where
  | reserved
  | error
  | success
  | timeout
  | corrupted
  | faked
  | attemptsExceed
  | unordered
  deriving DecidableEq, Repr

/-! ## The received packet -/

/-- The buffer of `io_ctx`; `before` is the byte that stands in memory in front of it. -/
structure IoBuf where
  before : UInt8
  buf : Mem
  bufSize : UInt16

/-- The byte at a position that may be -1. -/
def IoBuf.byteAt (io : IoBuf) (pos : ℤ) : UInt8 := if pos < 0 then io.before else io.buf pos.toNat

/-- The `VPacket` `r_packet`, with what is left in it.  `feature` is the byte `feature`
of every entry of `sys_cmd`: a negotiate command the length of which is refused is
stored without it. -/
structure RPacket where
  header : VPacketHeader
  acked : Bool
  sysCmd : SysCmdArray
  feature : ℕ → UInt8
  data : Option (List UInt8)

/-- `calloc` in `vs_main_dgram_loop` and `vc_main_dgram_loop`. -/
def RPacket.zero : RPacket := ⟨⟨0, 0, 0, 0, 0, 0⟩, false, SysCmdArray.zero, fun _ => 0, none⟩

def RPacket.hasFlag (p : RPacket) (flag : UInt8) : Bool := p.header.flags &&& flag != 0

/-- The first system command is an ACK of this payload id. -/
def RPacket.firstAck (p : RPacket) (payId : UInt32) : Bool :=
  p.sysCmd 0 == some (.ackNak .ack payId)

/-- `v_unpack_packet_header`: a short buffer leaves the header as it was. -/
def RPacket.readHeader (p : RPacket) (io : IoBuf) : RPacket :=
  { p with header := (vUnpackPacketHeader io.buf io.bufSize.toNat).getD p.header }

/-- An entry as it stands in `sys_cmd`: the id of a skipped command may be
`CMD_RESERVED_ID`. -/
def entryOf : SysCmd → Option SysCmd
  | .unknown id => if id = 0 then none else some (.unknown id)
  | cmd => some cmd

/-- The feature that is stored with a command. -/
def storedFeature : SysCmd → Option UInt8
  | .negotiate cmd => some cmd.preference.feature
  | .noFeature _ feature => some feature
  | _ => none

/-- The commands and the terminator are written; what is behind stays. -/
def RPacket.storeSysCmds (p : RPacket) (cmds : List SysCmd) : RPacket :=
  { p with
    sysCmd := fun rank => if rank ≤ cmds.length then cmds[rank]?.bind entryOf else p.sysCmd rank
    feature := fun rank => (cmds[rank]?.bind storedFeature).getD (p.feature rank) }

/-- `v_unpack_packet_system_commands`, and what it returns. -/
def RPacket.readSysCmds (p : RPacket) (io : IoBuf) : RPacket × ℤ :=
  match vUnpackPacketSystemCommands io.buf io.bufSize with
  | none => ({ p with sysCmd := Function.update p.sysCmd 0 none }, -1)
  | some (pos, cmds) => (p.storeSysCmds cmds, pos)

/-- The node commands begin at `pos`, if the buffer is longer. -/
def RPacket.readData (p : RPacket) (io : IoBuf) (pos : ℤ) : RPacket :=
  { p with
    data :=
      if pos < io.bufSize.toNat then
        some ((List.range (io.bufSize.toNat - pos).toNat).map fun i => io.byteAt (pos + i))
      else none }

/-! ## The connection -/

/-- `VDgramConn`; `σ` are the states of the client or of the server. -/
@[ext]
structure VDgramConn (σ : Type) where
  hostState : σ
  peerId : UInt32
  hostId : UInt32
  lastRPay : UInt32
  lastRAck : UInt32
  ankId : UInt32
  countSPay : UInt32
  countSAck : UInt32
  lastAckedPay : UInt32
  fcMeth : UInt8
  ccMeth : UInt8
  rwinHost : UInt32
  rwinPeer : UInt32
  rwinHostScale : UInt8
  rwinPeerScale : UInt8
  hostCmdCmpr : UInt8
  peerCmdCmpr : UInt8
  attempts : σ → UInt16
  ackNak : AckNakHistory

/-- `v_conn_dgram_init`. -/
def vConnDgramInit {σ : Type} (hostState : σ) : VDgramConn σ where
  hostState := hostState
  peerId := 0
  hostId := 0
  lastRPay := 0
  lastRAck := 0
  ankId := 0
  countSPay := 0
  countSAck := 0
  lastAckedPay := 0
  fcMeth := 0
  ccMeth := 0
  rwinHost := 0xFFFFFFFF
  rwinPeer := 0xFFFFFFFF
  rwinHostScale := 0
  rwinPeerScale := 0
  hostCmdCmpr := 0
  peerCmdCmpr := 0
  attempts := fun _ => 0
  ackNak := vAckNakHistoryInit

section

variable {σ : Type}

/-- The window of the peer, `window << rwin_peer_scale`.  A shift is taken modulo 32,
as the processor does. -/
def VDgramConn.peerWindow (conn : VDgramConn σ) (header : VPacketHeader) : UInt32 :=
  header.window.toUInt32 <<< conn.rwinPeerScale.toUInt32

/-- The window in a packet of the handshake, `rwin_host >> rwin_host_scale`. -/
def VDgramConn.hostWindow (conn : VDgramConn σ) : UInt16 :=
  (conn.rwinHost >>> conn.rwinHostScale.toUInt32).toUInt16

end

/-! ## The context -/

/-- A sent packet: the header and the system commands that were packed. -/
structure SentPacket where
  header : VPacketHeader
  sysCmds : List SysCmd
  deriving DecidableEq

/-- `vContext`.  `sHeader` and `sSysCmd` are `s_packet`, `unpacked` are the buffers that
were given to `v_cmd_unpack`, which pushes the commands to `in_queue`, and `sent` the
packets that were given to `v_send_packet`. -/
structure VContext (σ : Type) where
  conn : VDgramConn σ
  session : VSession
  rPacket : RPacket
  sHeader : VPacketHeader
  sSysCmd : SysCmdArray
  unpacked : List (List UInt8)
  sent : List SentPacket

/-- What the system decides while a packet is handled: whether `v_send_packet` is
successful, whether `check_pay_flag` asks for a payload packet, and the window that
`set_host_rwin` computes. -/
structure SendEnv where
  sendOk : Bool
  payDue : Bool
  rwinHost : UInt32

variable {σ : Type}

/-- `state[state].attempts = count`. -/
def VContext.setAttempts [DecidableEq σ] (C : VContext σ) (state : σ) (count : UInt16) :
    VContext σ :=
  { C with conn := { C.conn with attempts := Function.update C.conn.attempts state count } }

/-- `v_send_packet` is called. -/
def VContext.putPacket (C : VContext σ) : VContext σ :=
  { C with sent := C.sent ++ [⟨C.sHeader, C.sSysCmd.packed⟩] }

/-- The information about the last received packet. -/
def VContext.noteReceived (C : VContext σ) : VContext σ :=
  let conn := C.conn
  let conn :=
    if C.rPacket.hasFlag payFlag then { conn with lastRPay := C.rPacket.header.payloadId } else conn
  let conn :=
    if C.rPacket.hasFlag ackFlag then { conn with lastRAck := C.rPacket.header.ackNakId } else conn
  { C with conn := conn }

@[simp] theorem noteReceived_hostState (C : VContext σ) :
    C.noteReceived.conn.hostState = C.conn.hostState := by
  unfold VContext.noteReceived
  cases C.rPacket.hasFlag payFlag <;> cases C.rPacket.hasFlag ackFlag <;> rfl

/-- `v_add_negotiate_cmd`, once for each command, from the entry `rank` on. -/
def addNegotiateCmds (cmds : SysCmdArray) : ℕ → List (NegotiateId × Preference) → SysCmdArray
  | _, [] => cmds
  | rank, (id, preference) :: rest =>
      addNegotiateCmds
        (Function.update
          (Function.update cmds rank (some (.negotiate (vAddNegotiateCmd id preference))))
          (rank + 1) none) (rank + 1) rest

/-! ## Callbacks -/

/-- The callbacks of a state, with `count` and `value` of the negotiate command as a
preference list; the answer 0 is `false`.  A callback that is `NULL` changes nothing. -/
abbrev Callbacks (σ : Type) := NegotiateId → Preference → VDgramConn σ → VDgramConn σ × Bool

/-- What a callback sees of an entry.  The count of a refused command is 0, and its
feature is what was left in the entry. -/
def RPacket.negotiateOf (p : RPacket) : ℕ × SysCmd → Option (NegotiateId × Preference)
  | (_, .negotiate cmd) => some (cmd.id, cmd.preference)
  | (rank, .refused id) => (Preference.ofByte (p.feature rank)).map fun preference => (id, preference)
  | _ => none

/-- One pass of the loop of `v_conn_dgram_handle_sys_cmds`. -/
def handleSysCmd (callbacks : Callbacks σ) (p : RPacket) (result : VDgramConn σ × Bool)
    (entry : ℕ × SysCmd) : VDgramConn σ × Bool :=
  match p.negotiateOf entry with
  | none => result
  | some (id, preference) =>
      let (conn, ok) := callbacks id preference result.1
      (conn, result.2 && ok)

/-- `v_conn_dgram_handle_sys_cmds`. -/
def vConnDgramHandleSysCmds (callbacks : Callbacks σ) (p : RPacket) (conn : VDgramConn σ) :
    VDgramConn σ × Bool :=
  (p.sysCmd.scanFrom maxSystemCommandCount 0).foldl (handleSysCmd callbacks p) (conn, true)

/-- What every callback preserves. -/
theorem vConnDgramHandleSysCmds_invariant {callbacks : Callbacks σ} {P : VDgramConn σ → Prop}
    (hcallback : ∀ id preference conn, P conn → P (callbacks id preference conn).1) (p : RPacket)
    {conn : VDgramConn σ} (h : P conn) : P (vConnDgramHandleSysCmds callbacks p conn).1 := by
  unfold vConnDgramHandleSysCmds
  generalize true = ok
  induction p.sysCmd.scanFrom maxSystemCommandCount 0 generalizing conn ok with
  | nil => exact h
  | cons entry rest ih =>
      have hentry : P (handleSysCmd callbacks p (conn, ok) entry).1 := by
        unfold handleSysCmd
        split
        · exact h
        · exact hcallback _ _ conn h
      rw [List.foldl_cons]
      exact ih hentry (handleSysCmd callbacks p (conn, ok) entry).2

/-- Without callbacks the connection stays as it is. -/
theorem vConnDgramHandleSysCmds_null {callbacks : Callbacks σ}
    (h : ∀ id preference conn, callbacks id preference conn = (conn, true)) (p : RPacket)
    (conn : VDgramConn σ) : vConnDgramHandleSysCmds callbacks p conn = (conn, true) := by
  unfold vConnDgramHandleSysCmds
  induction p.sysCmd.scanFrom maxSystemCommandCount 0 with
  | nil => rfl
  | cons entry rest ih =>
      have hentry : handleSysCmd callbacks p (conn, true) entry = (conn, true) := by
        unfold handleSysCmd
        split
        · rfl
        · rw [h]
          rfl
      rw [List.foldl_cons, hentry, ih]

/-- `value[0]` is the token, as `strcmp` compares them. -/
def tokenIs (token : Option (List UInt8)) (values : List (List UInt8)) : Bool :=
  token.any fun token => values.head?.any fun value => cString value == cString token

/-- The first value that is `CMPR_NONE` or `CMPR_ADDR_SHARE`. -/
def firstCmdCmpr (values : List UInt8) : Option UInt8 := values.find? fun v => v == 1 || v == 2

/-! ## The state OPEN -/

/-- `handle_node_commands`; `none` is `RECEIVE_PACKET_UNORDERED`. -/
def VContext.handleNodeCommands (C : VContext σ) : Option (VContext σ) :=
  (recordPayload C.conn.ackNak C.conn.lastRPay.toNat C.rPacket.header.payloadId.toNat).map
    fun ackNak =>
      { C with
        conn := { C.conn with ackNak := ackNak }
        unpacked := C.unpacked ++ C.rPacket.data.toList }

/-- The part of `handle_packet_in_OPEN_state` about the payload: the value of `ret`
behind it; `none` when the packet is dropped. -/
def VContext.openPayload (C : VContext σ) : Option (VContext σ × ℤ) :=
  if C.rPacket.hasFlag payFlag then
    C.handleNodeCommands.map fun C => ({ C with rPacket := { C.rPacket with acked := false } }, 2)
  else some (C, 0)

/-- The part about ACK and NAK commands. -/
def VContext.openAckNak (C : VContext σ) (ret : ℤ) : VContext σ × ℤ :=
  let conn := { C.conn with rwinPeer := C.conn.peerWindow C.rPacket.header }
  if C.rPacket.hasFlag ackFlag then
    let ankId := handledAnkId C.rPacket.sysCmd.packed conn.ankId.toNat
    ({ C with conn := { conn with ankId := UInt32.ofNat ankId } }, handleAckNakIndex C.rPacket.sysCmd)
  else ({ C with conn := conn }, ret)

/-- The other system commands, behind the index `ret`. -/
def VContext.openSysCmds (C : VContext σ) (ret : ℤ) : VContext σ :=
  let entries :=
    C.rPacket.sysCmd.scanFrom (maxSystemCommandCount - firstSysIndex ret) (firstSysIndex ret)
  { C with session := entries.foldl applyFps C.session }

/-- The ANK id and the FIN flag; `closing` is the state with the number
`UDP_CLIENT_STATE_CLOSING`. -/
def VContext.openAnkFin (C : VContext σ) (closing : σ) : VContext σ :=
  let conn := C.conn
  let conn :=
    if C.rPacket.hasFlag ankFlag then
      { conn with ackNak := vAckNakHistoryRemoveCmds conn.ackNak C.rPacket.header.ankId.toNat }
    else conn
  let conn := if C.rPacket.hasFlag finFlag then { conn with hostState := closing } else conn
  { C with conn := conn }

/-- `handle_packet_in_OPEN_state`. -/
def VContext.handlePacketInOpenState (C : VContext σ) (closing : σ) : VContext σ × ReceivePacket :=
  match C.openPayload with
  | none => (C, .unordered)
  | some (C, ret) =>
      let (C, ret) := C.openAckNak ret
      ((C.openSysCmds ret).openAnkFin closing, .success)

/-- What decides about the system commands of a packet that is sent in OPEN state. -/
def VContext.sendConn (C : VContext σ) : SendConn where
  sysCmd := C.sSysCmd
  ackNak := C.conn.ackNak.cmds
  rPay := C.rPacket.hasFlag payFlag
  acked := C.rPacket.acked
  fpsHost := C.session.fpsHost
  fpsPeer := C.session.fpsPeer
  tmpFlags := C.session.tmpFlags

/-- The header of a packet in the states OPEN and CLOSEREQ. -/
def VContext.openHeader (C : VContext σ) (env : SendEnv) (closereq ack : Bool) : VPacketHeader :=
  let rwin := env.rwinHost >>> C.conn.rwinHostScale.toUInt32
  { version := vrsVersion
    flags :=
      (if env.payDue then payFlag else 0) ||| (if closereq then finFlag else 0) |||
        (if ack then ackFlag else 0) ||| ankFlag
    window := if 0xFFFF < rwin then 0xFFFF else rwin.toUInt16
    payloadId := if env.payDue then C.conn.hostId + C.conn.countSPay else 0
    ackNakId := if ack then C.conn.countSAck else 0
    ankId := C.conn.ankId }

/-- `send_packet_in_OPEN_CLOSEREQ_state`, without the node commands.  When sending is
cancelled, nothing changes but the flags in `s_packet`, which the next packet sets. -/
def VContext.sendPacketInOpenClosereqState (C : VContext σ) (env : SendEnv) (closereq : Bool) :
    VContext σ :=
  let ack := C.sendConn.checkAckNakFlag env.payDue
  match C.sendConn.send env.payDue with
  | (_, none) => C
  | (c, some _) =>
      let conn := C.conn
      let C := { C with
        conn := { conn with
          lastAckedPay := if ack then conn.lastRPay else conn.lastAckedPay
          rwinHost := env.rwinHost
          countSPay := if env.payDue then conn.countSPay + 1 else conn.countSPay
          countSAck := if ack then conn.countSAck + 1 else conn.countSAck }
        session := { C.session with tmpFlags := c.tmpFlags }
        rPacket := { C.rPacket with acked := c.acked }
        sHeader := C.openHeader env closereq ack
        sSysCmd := c.sysCmd }
      C.putPacket

end Verse.Dgram
