import Verse.Lib.Simulation
import Verse.Packets.SysRoundTrip
import Verse.Resend.Packing
import Verse.Resend.Settling
import Verse.Stream.Framing

/-!
# The server and the client over the bytes of datagrams

As `DgramLink`, but with the code that packs a packet and with the bytes that are sent.
The loops of `pack_prio_queue` decide what goes into a packet and what is put back, other
threads push commands between two passes, and the client reads what `v_send_packet` sent.

Only two books are kept: the commands that the queue accepted, and those of packets that
could not be sent.
-/

namespace Verse

open Lib

/-- What a packet has beside payload and ids.  `sysCmds` is what stands in the array
`sys_cmd`, and `ack` whether ACK and NAK commands are among it that are sent now. -/
structure PacketFields where
  ack : Bool
  window : UInt16
  ackNakId : UInt32
  sysCmds : List SysCmd
  prioWin : UInt8 → ℕ → UInt16

/-- Both ends and the datagrams of the network.  A command gets the number of its push as
its address.  `pushed` are the commands that the queue accepted, and `lost` those of
packets that could not be sent. -/
structure WireLink where
  hostId : ℕ
  sender : PacketSender
  clock : ℕ
  pushed : List CmdPtr
  lost : List CmdPtr
  payloadId : ℕ
  ankId : ℕ
  network : List (List UInt8)
  client : VClientConn
  reports : List (List AckNakCmd)

inductive WireAction where
  /-- `v_out_queue_push_tail` at the server -/
  | push (limits : Bool) (prio : UInt8) (cmd : PushCmd)
  /-- a packet with payload is begun -/
  | openPacket (fields : PacketFields)
  /-- one pass of the loops that pack it -/
  | pass
  /-- `v_send_packet`, which may fail -/
  | closePacket (sent : Bool)
  /-- a packet without payload is sent -/
  | sendAckNak (fields : PacketFields)
  /-- the reply to the handshake is sent once more -/
  | replyAgain
  /-- a datagram arrives at the client -/
  | arrive (d : Datagram)
  /-- the client sends its ACK and NAK commands -/
  | report
  /-- ACK and NAK commands arrive at the server -/
  | handleReport (i : ℕ)

/-- As `DgramLink.init`. -/
def WireLink.init (mtu : UInt16) (shares : Bool) (hostId peerId : UInt32) : WireLink where
  hostId := hostId.toNat
  sender := ⟨mtu, shares, ⟨vOutQueueCreate, vPacketHistoryInit, 0⟩, false, none⟩
  clock := 0
  pushed := []
  lost := []
  payloadId := hostId.toNat + 2
  ankId := hostId.toNat
  network := []
  client := VClientConn.init peerId hostId
  reports := []

/-- The header of the next packet. -/
def WireLink.header (w : WireLink) (pay : Bool) (fields : PacketFields) : VPacketHeader where
  version := vrsVersion
  flags := (if pay then payFlag else 0) ||| (if w.sender.closing then finFlag else 0) |||
    (if fields.ack then ackFlag else 0) ||| ankFlag
  window := fields.window
  payloadId := if pay then UInt32.ofNat w.payloadId else 0
  ackNakId := if fields.ack then fields.ackNakId else 0
  ankId := UInt32.ofNat w.ankId

/-- The buffer before node commands are packed. -/
def WireLink.head (w : WireLink) (pay : Bool) (fields : PacketFields) : Option (List UInt8) :=
  datagram (w.header pay fields) fields.sysCmds []

/-- A keep-alive packet has no node commands. -/
def WireLink.openPacket (w : WireLink) (fields : PacketFields) (head : List UInt8) : WireLink :=
  let s := w.sender.s
  { w with
    sender :=
      { w.sender with
        s := { s with
          history := vPacketHistoryAddPacket s.history (UInt32.ofNat w.payloadId).toNat }
        packing := some
          { prioWin := fields.prioWin
            head := head
            node := []
            bufferPos := head.length
            sentSize := 0
            prios := if s.outQueue.count = 0 then [] else s.outQueue.packPrios
            current := none
            full := false } } }

/-- The end of `send_packet_in_OPEN_CLOSEREQ_state`. -/
def WireLink.closePacket (w : WireLink) (sent : Bool) (k : Packing) : Option WireLink :=
  let s := { w.sender.s with sentSize := add32 w.sender.s.sentSize k.sentSize }
  if sent then
    some
      { w with
        sender := { w.sender with s := s, packing := none }
        payloadId := w.payloadId + 1
        network := w.network ++ [k.datagram] }
  else
    (handleAck s w.payloadId).map fun (s, cmds) =>
      { w with
        sender := { w.sender with s := s, packing := none }
        lost := w.lost ++ cmds }

/-- One packet that the client acknowledged or missed. -/
def VSender.mark (s : VSender) (m : AckNakCmd) : Option VSender := (handleMark s m).map Prod.fst

/-- One action; what cannot happen while a packet is packed, or while none is, does
nothing. -/
def WireLink.step (w : WireLink) : WireAction → Option WireLink
  | .push limits prio cmd =>
      (vOutQueuePushTail w.sender.s.outQueue limits prio.toNat ⟨w.clock, cmd.1⟩).map
        fun (oq, accepted, _) =>
          { w with
            sender := { w.sender with s := { w.sender.s with outQueue := oq } }
            clock := w.clock + 1
            pushed := if accepted then w.pushed ++ [⟨w.clock, cmd.1⟩] else w.pushed }
  | .openPacket fields =>
      match w.sender.packing with
      | some _ => some w
      | none => (w.head true fields).map (w.openPacket fields)
  | .pass => w.sender.pass.map fun sender => { w with sender := sender }
  | .closePacket sent =>
      match w.sender.packing with
      | none => some w
      | some k => if k.Done then w.closePacket sent k else some w
  | .sendAckNak fields =>
      if w.sender.packing = none ∧ fields.ack = true then
        (w.head false fields).map fun head => { w with network := w.network ++ [head] }
      else some w
  | .replyAgain =>
      match w.sender.packing with
      | some _ => some w
      | none => some { w with payloadId := w.payloadId + 1, ankId := w.hostId }
  | .arrive d => (w.client.step d).map fun client => { w with client := client }
  | .report =>
      some { w with
        reports := w.reports ++ [w.client.conn.ackNak.cmds.take (maxSystemCommandCount - 1)] }
  | .handleReport i =>
      match w.sender.packing, w.reports[i]? with
      | none, some cmds =>
          (run VSender.mark w.sender.s (ackNakIds cmds 0)).map fun s =>
            { w with
              sender := { w.sender with s := s }
              ankId := ankIdAfter cmds w.ankId }
      | _, _ => some w

/-! ## What has to hold before an action -/

/-- As `SenderRun.MarkSafe`. -/
def VSender.MarkSafe (s : VSender) : AckNakCmd → Prop
  | (.ack, id) => ∀ i packet, vPacketHistoryFindPacket s.history id = some i →
      s.history.packets[i]? = some packet → s.history.Removable packet.cmds
  | (.nak, id) => ∀ i packet, vPacketHistoryFindPacket s.history id = some i →
      s.history.packets[i]? = some packet → s.history.Removable packet.cmds.reverse

/-- What the next pass asks `v_out_queue_pop` for. -/
def PacketSender.asked (q : PacketSender) : Option (PrioPacking × UInt16) :=
  q.packing.bind fun k => k.current.bind fun p =>
    if k.GoesOn q.mtu q.s.outQueue p then some (p, k.askedLen q.mtu p) else none

/-- A command that is popped finds its own bucket first, and with shared addresses the
assertion of `v_cmd_pack` holds. -/
def PacketSender.PassSafe (q : PacketSender) : Prop :=
  ∀ p len, q.asked = some (p, len) →
    q.s.outQueue.PopSafe p.prio.toNat len.toNat ∧
      (q.shares = true → ∀ oq cmd plan,
        vOutQueuePop q.s.outQueue p.prio.toNat len.toNat = some (oq, some (cmd, plan)) →
          p.bytes q.shares cmd plan ≠ none)

/-- There is a place left in the array of system commands, and they fit in the buffer. -/
structure PacketFields.Fit (fields : PacketFields) : Prop where
  count : fields.sysCmds.length < maxSystemCommandCount
  built : ∀ cmd ∈ fields.sysCmds, cmd.Built
  room : versePacketHeaderSize + (fields.sysCmds.flatMap SysCmd.bytes).length < 2 ^ 16

/-- A node command that can be sent by itself. -/
structure GenericCmd.Packable (cmd : GenericCmd) : Prop where
  built : cmd.Built
  string : ¬ cmd.EmptyString

/-- A reply of the handshake. -/
def Datagram.OfHandshake (d : Datagram) (hostId : ℕ) : Prop :=
  ∀ p ∈ d.read, (p.hasFlag payFlag = true →
      p.payloadId.toNat = hostId ∨ p.payloadId.toNat = hostId + 1) ∧
    (p.hasFlag ankFlag = true → p.ankId.toNat = hostId)

/-- As `DgramLink.Safe`.  What arrives are the bytes of the network, or a reply of the
handshake. -/
def WireLink.Safe (w : WireLink) : WireAction → Prop
  | .push _ prio cmd =>
      w.sender.s.outQueue.PushSafe prio.toNat ⟨w.clock, cmd.1⟩ ∧
        (minCmdId ≤ cmd.1.id.toNat → cmd.1.Packable)
  | .openPacket fields => fields.Fit
  | .pass => w.sender.PassSafe
  | .closePacket true => w.payloadId + 1 < 2 ^ 32
  | .closePacket false => w.sender.packing ≠ none → w.sender.s.MarkSafe (.ack, w.payloadId)
  | .sendAckNak fields => fields.Fit
  | .replyAgain => w.payloadId + 1 < 2 ^ 32
  | .arrive d =>
      (∃ bytes ∈ w.network, Holds d.buf bytes ∧ d.size.toNat = bytes.length) ∨
        d.OfHandshake w.hostId
  | .report => True
  | .handleReport i => w.sender.packing = none → ∀ cmds ∈ w.reports[i]?,
      Admissible VSender.mark VSender.MarkSafe w.sender.s (ackNakIds cmds 0)

/-! ## The bytes of a packet -/

/-- The commands of a packet, packed one by one. -/
def nodeBytes (cmds : List CmdPtr) : List UInt8 := cmds.flatMap fun c => c.cmd.alone.getD []

/-- What `v_cmd_unpack` finds in the data of a packet. -/
def readNodeCmds (data : List UInt8) : List GenericCmd :=
  ((vCmdUnpack (ofBytes data) (UInt16.ofNat data.length)).map Prod.snd).getD []

/-- The buffer begins with this header and these system commands. -/
structure Headed (header : VPacketHeader) (sysCmds : List SysCmd) (head : List UInt8) : Prop where
  eq : head = vPackPacketHeader header ++ sysCmds.flatMap SysCmd.bytes
  count : sysCmds.length < maxSystemCommandCount
  built : ∀ cmd ∈ sysCmds, cmd.Built
  room : head.length < 2 ^ 16

theorem WireLink.head_spec (w : WireLink) (pay : Bool) {fields : PacketFields} (hfit : fields.Fit) :
    ∃ head, w.head pay fields = some head ∧ Headed (w.header pay fields) fields.sysCmds head := by
  refine ⟨_, ?_, rfl, hfit.count, hfit.built, ?_⟩
  · rw [WireLink.head, datagram, vPackDgramSystemCommands_built hfit.count.le hfit.built,
      Option.map_some, List.append_nil]
  · rw [List.length_append, length_vPackPacketHeader]
    exact hfit.room

/-- **What is read of a datagram** with such a head. -/
theorem Headed.read {header : VPacketHeader} {sysCmds : List SysCmd} {head node : List UInt8}
    (h : Headed header sysCmds head) {d : Datagram} (hholds : Holds d.buf (head ++ node))
    (hsize : d.size.toNat = (head ++ node).length) {p : VPacket} (hp : p ∈ d.read) :
    p.flags = header.flags ∧ p.payloadId = header.payloadId ∧ p.ankId = header.ankId ∧
      ((∀ b ∈ node.head?, maxSysCmdId < b) →
        p.data = if node = [] then none else some node) := by
  have hlen : head.length = versePacketHeaderSize + (sysCmds.flatMap SysCmd.bytes).length := by
    rw [h.eq, List.length_append, length_vPackPacketHeader]
  rw [List.length_append] at hsize
  have hheader : vUnpackPacketHeader d.buf d.size.toNat =
      some { header with version := header.version &&& 0x0F } := by
    refine vUnpackPacketHeader_pack (by omega) ?_
    rw [h.eq, List.append_assoc, holds_append] at hholds
    exact hholds.1
  rw [Option.mem_def, Datagram.read, hheader] at hp
  cases hsys : vUnpackPacketSystemCommands d.buf d.size with
  | none =>
      rw [hsys] at hp
      cases hp
  | some t =>
      obtain ⟨pos, cmds⟩ := t
      rw [hsys] at hp
      obtain rfl := Option.some.inj hp
      refine ⟨rfl, rfl, rfl, fun hnode => ?_⟩
      have hpack := @vUnpackPacketSystemCommands_pack header sysCmds node d.buf d.size h.count
        h.built hnode (by rw [hsize, hlen]) (h.eq ▸ hholds)
      rw [hsys, Option.some.injEq, Prod.mk.injEq] at hpack
      obtain rfl := hpack.1
      by_cases hnil : node = []
      · simp [hnil]
      · have hpos := List.length_pos_of_ne_nil hnil
        have hsub : d.size.toNat - node.length = head.length := by omega
        have hleft : d.size.toNat - head.length = node.length := by omega
        simp only [hsub, hleft, if_pos (show head.length < d.size.toNat by omega), if_neg hnil]
        rw [holds_append] at hholds
        exact congrArg some hholds.2.map_range

theorem nodeBytes_append (cmds cmds' : List CmdPtr) :
    nodeBytes (cmds ++ cmds') = nodeBytes cmds ++ nodeBytes cmds' := List.flatMap_append

/-- **Node commands come back.** -/
theorem readNodeCmds_nodeBytes {cmds : List CmdPtr} (h : ∀ c ∈ cmds, c.cmd.Packable)
    (hlt : (nodeBytes cmds).length < 2 ^ 16) :
    readNodeCmds (nodeBytes cmds) = cmds.map CmdPtr.cmd ∧
      (nodeBytes cmds).head? = cmds.head?.map fun c => c.cmd.id := by
  have hbuilt : ∀ cmd ∈ cmds.map CmdPtr.cmd, cmd.Packable := by
    intro cmd hcmd
    obtain ⟨c, hc, rfl⟩ := List.mem_map.mp hcmd
    exact h c hc
  obtain ⟨pieces, hpack, hcmds, hhead, hreads⟩ := cmds_readsAll
    (fun cmd hcmd => (hbuilt cmd hcmd).built)
    fun cmd hcmd => (hbuilt cmd (List.mem_of_getLast? hcmd)).string
  have halone : ∀ cmd ∈ cmds.map CmdPtr.cmd,
      vCmdPack cmd (vCmdSize cmd) 0 = some (cmd.alone.getD []) := by
    intro cmd hcmd
    obtain ⟨bytes, hbytes, -⟩ := GenericCmd.alone_reads (hbuilt cmd hcmd).built
    rw [hbytes, Option.getD_some]
    exact hbytes
  rw [mapM_eq_some_map halone, Option.some.injEq] at hpack
  have hbytes : pieces.flatMap Prod.fst = nodeBytes cmds := by
    rw [List.flatMap_def, ← hpack, List.map_map, nodeBytes, List.flatMap_def]
    rfl
  rw [hbytes, List.head?_map, Option.map_map] at hhead
  refine ⟨?_, hhead⟩
  have hlen : (UInt16.ofNat (nodeBytes cmds).length).toNat = (nodeBytes cmds).length := by
    rw [UInt16.toNat_ofNat']
    exact Nat.mod_eq_of_lt hlt
  rw [readNodeCmds, vCmdUnpack, hlen, unpackFrom_readsAll hlt hreads (by rw [hbytes]; omega)
    (by rw [hbytes, shift_zero]; exact holds_ofBytes _) (by omega), hcmds]
  rfl

end Verse
