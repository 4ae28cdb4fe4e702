import Verse.Dgram.Answers
import Verse.Dgram.Server

/-!
# The packets of a client in PARTOPEN state

`vc_PARTOPEN_init_send_packet` takes the ANK id from the first system command of the
packet that was received last, whether that packet was accepted or not.  A server that
is in OPEN state already sends data packets, which begin with another ACK; behind such a
packet the client does not send the packet of the handshake again, but one that the
server does not recognise.

A datagram whose header is refused does not touch the system commands.
-/

namespace Verse.Dgram

open Lib

/-- The client is in PARTOPEN state with these ids, and the last packet acknowledges its
first one. -/
structure VContext.Acked (C : VCContext) (hostId peerId : UInt32) : Prop where
  host_eq : C.conn.hostId = hostId
  peer_eq : C.conn.peerId = peerId
  ack : C.rPacket.sysCmd 0 = some (.ackNak .ack hostId)

/-! ## Building the packet -/

variable {C : VCContext} {hostId peerId : UInt32}

theorem VContext.Acked.of_eq {D : VCContext} (h : C.Acked hostId peerId)
    (hhost : D.conn.hostId = C.conn.hostId) (hpeer : D.conn.peerId = C.conn.peerId)
    (hpacket : D.rPacket = C.rPacket) : D.Acked hostId peerId :=
  ⟨hhost.trans h.host_eq, hpeer.trans h.peer_eq, hpacket ▸ h.ack⟩

/-- Building and sending the packet. -/
theorem VContext.Acked.send (h : C.Acked hostId peerId) (sendOk : Bool) :
    (C.vcPartopenInitSendPacket.vcSendPacket sendOk).Acked hostId peerId := by
  have hbuilt : C.vcPartopenInitSendPacket.Acked hostId peerId := by
    unfold VContext.vcPartopenInitSendPacket
    rw [h.ack]
    exact h.of_eq rfl rfl rfl
  generalize C.vcPartopenInitSendPacket = D at hbuilt
  unfold VContext.vcSendPacket VContext.putPacket
  cases sendOk
  · exact hbuilt.of_eq rfl rfl rfl
  · refine hbuilt.of_eq ?_ ?_ rfl <;> cases hstate : D.conn.hostState <;> simp [hstate]

/-- Reading a datagram that begins with the ACK. -/
theorem VContext.Acked.read (h : C.Acked hostId peerId) {io : IoBuf}
    (hkeeps : ∀ header ∈ vUnpackPacketHeader io.buf io.bufSize.toNat, header.version = vrsVersion →
      ∃ pos cmds, vUnpackPacketSystemCommands io.buf io.bufSize =
        some (pos, .ackNak .ack hostId :: cmds)) : (C.vcReadPacket io).1.Acked hostId peerId := by
  unfold VContext.vcReadPacket
  split
  · exact h
  case h_2 header hheader =>
    dsimp only
    split
    case isTrue => exact ⟨h.host_eq, h.peer_eq, h.ack⟩
    case isFalse hversion =>
      obtain ⟨pos, cmds, hcmds⟩ := hkeeps header hheader (by simpa using hversion)
      refine ⟨h.host_eq, h.peer_eq, ?_⟩
      simp [RPacket.readSysCmds, RPacket.readData, hcmds, RPacket.storeSysCmds, entryOf]

theorem VContext.Acked.noteReceived (h : C.Acked hostId peerId) :
    C.noteReceived.Acked hostId peerId := by
  unfold VContext.noteReceived
  cases C.rPacket.hasFlag payFlag <;> cases C.rPacket.hasFlag ackFlag <;> exact h.of_eq rfl rfl rfl

theorem VContext.Acked.handle (ctx : VCCtx) (h : C.Acked hostId peerId) :
    (vcPartopenHandlePacket ctx C).1.Acked hostId peerId := by
  simp only [vcPartopenHandlePacket, vcHandleSysCmds_partopen]
  split
  · exact h.of_eq rfl rfl rfl
  · exact h

/-- A data packet of a server in OPEN state, that acknowledges the second packet. -/
def dataBytes : List UInt8 :=
  [0x10, 0xE0, 0xFF, 0xFF, 0, 0, 0, 11, 0, 0, 0, 2, 0, 0, 0, 9, 1, 0, 0, 0, 8]

end Verse.Dgram
