import Verse.Dgram.Server
import Verse.History.Cut

/-!
# Malformed datagrams on the server

`vs_handle_packet` does not look at what `v_unpack_packet_header` returns.  Behind a
datagram that is too short, `r_packet` holds the header of the datagram before it,
without system commands, and the handler of the state acts on that header.  The window
of the peer is computed before the version is checked.

## Strategy

Without system commands no callback is called and no packet of the handshake is
recognised (`vsHandleSysCmds_of_none`, `isPartOpen_of_none`), so there is one lemma per
state about what the handler does with the header that was left over.
-/

namespace Verse.Dgram

open Lib

/-- The datagram is shorter than a header, or has another protocol version. -/
def IoBuf.Malformed (io : IoBuf) : Prop :=
  ∀ header ∈ vUnpackPacketHeader io.buf io.bufSize.toNat, header.version ≠ vrsVersion

/-- The connection is as it was, no commands went to `in_queue`, and nothing was sent. -/
def Untouched (C C' : VSContext) : Prop :=
  C'.conn = C.conn ∧ C'.unpacked = C.unpacked ∧ C'.sent = C.sent

/-- The states OPEN and CLOSEREQ do nothing about the header in `r_packet`. -/
structure VContext.IgnoresInOpen (C : VSContext) (env : SendEnv) : Prop where
  fin : C.rPacket.hasFlag finFlag = true →
    C.rPacket.hasFlag payFlag = false ∧ C.conn.hostState = .closereq
  pay : C.rPacket.hasFlag payFlag = true →
    C.rPacket.header.payloadId = C.conn.lastRPay ∧ C.conn.lastRPay ≠ 0xFFFFFFFF
  ack : C.rPacket.hasFlag ackFlag = true → C.rPacket.header.ackNakId = C.conn.lastRAck
  ank : C.rPacket.hasFlag payFlag = false → C.rPacket.hasFlag ankFlag = true →
    CutsNothing C.conn.ackNak.cmds C.rPacket.header.ankId.toNat
  /-- nothing is to be sent: no payload, and no acknowledgment of the last packet -/
  quiet : env.payDue = false ∧
    (C.rPacket.hasFlag payFlag = true → C.rPacket.acked = false → C.conn.ackNak.cmds = [])

/-- The handler of the state does nothing about the header in `r_packet`, when no system
commands come with it. -/
def VContext.Ignores (C : VSContext) (ctx : VSCtx) (env : SendEnv) : Prop :=
  match C.conn.hostState with
  | .listen => C.rPacket.isRequest = false
  | .respond =>
      C.rPacket.isRequest = true → C.rPacket.header.payloadId = C.conn.peerId →
        ctx.maxConnectionAttempts ≤ C.conn.attempts .listen
  | .opened | .closereq => C.IgnoresInOpen env
  | .closed =>
      C.rPacket.hasFlag (payFlag ||| finFlag) = true →
        ctx.maxConnectionAttempts ≤ C.conn.attempts .closed

/-- A malformed datagram finds nothing to do: the window of the peer has the value that
is computed, and behind a datagram that is too short the header that was left over has
another version or is ignored. -/
def VContext.LeavesAlone (C : VSContext) (ctx : VSCtx) (env : SendEnv) (io : IoBuf) : Prop :=
  match vUnpackPacketHeader io.buf io.bufSize.toNat with
  | some header => C.conn.rwinPeer = C.conn.peerWindow header
  | none =>
      C.conn.rwinPeer = C.conn.peerWindow C.rPacket.header ∧
        (C.rPacket.header.version = vrsVersion → C.Ignores ctx env)

/-! ## Without system commands -/

variable {ctx : VSCtx} {env : SendEnv} {C : VSContext}

theorem scanFrom_of_none {cmds : SysCmdArray} (h : cmds 0 = none) (room : ℕ) :
    cmds.scanFrom room 0 = [] := by
  cases room with
  | zero => rfl
  | succ room => rw [SysCmdArray.scanFrom, h]

theorem packed_of_none {cmds : SysCmdArray} (h : cmds 0 = none) : cmds.packed = [] := by
  rw [SysCmdArray.packed, maxSystemCommandCount, SysCmdArray.packedFrom, h]

theorem handleAckNakIndex_of_none {cmds : SysCmdArray} (h : cmds 0 = none) :
    handleAckNakIndex cmds = -1 := by
  rw [handleAckNakIndex, maxSystemCommandCount, ackNakLoop, h]

theorem vsHandleSysCmds_of_none (h : C.rPacket.sysCmd 0 = none) (state : UdpServerState) :
    C.vsHandleSysCmds ctx state = (C, true) := by
  rw [VContext.vsHandleSysCmds, vConnDgramHandleSysCmds, scanFrom_of_none h]
  rfl

theorem isPartOpen_of_none (h : C.rPacket.sysCmd 0 = none) :
    C.rPacket.isPartOpen C.conn = false := by
  simp [RPacket.isPartOpen, RPacket.firstAck, h]

theorem not_untouched_of_sent {C' : VSContext} {packet : SentPacket}
    (h : C'.sent = C.sent ++ [packet]) : ¬ Untouched C C' := by
  rintro ⟨-, -, hsent⟩
  rw [h] at hsent
  simpa using congrArg List.length hsent

/-! ## The handlers -/

/-- `vs_send_packet` gives one packet to `v_send_packet`. -/
theorem vsSendPacket_sent (C : VSContext) (env : SendEnv) :
    (C.vsSendPacket env).sent = C.sent ++ [⟨C.sHeader, C.sSysCmd.packed⟩] := by
  unfold VContext.vsSendPacket VContext.putPacket
  cases env.sendOk <;> rfl

/-- The window of the peer is not changed by sending. -/
theorem vsSendPacket_rwinPeer (C : VSContext) (env : SendEnv) :
    (C.vsSendPacket env).conn.rwinPeer = C.conn.rwinPeer := by
  unfold VContext.vsSendPacket VContext.putPacket countSent
  cases env.sendOk
  · rfl
  · cases hstate : C.conn.hostState <;> simp [hstate]

/-! ## The states OPEN and CLOSEREQ -/

/-- There is something to send. -/
def VContext.sendDue (C : VSContext) (env : SendEnv) : Bool :=
  env.payDue || C.sendConn.checkAckNakFlag env.payDue

theorem send_of_not_due (h : C.sendDue env = false) : C.vsOpenClosereqSendPacket env = C := by
  have hnone : (C.sendConn.send env.payDue).2 = none := by
    simp only [VContext.sendDue] at h
    simp [SendConn.send, h]
  unfold VContext.vsOpenClosereqSendPacket VContext.sendPacketInOpenClosereqState
  split
  · rfl
  · rename_i heq
    rw [heq] at hnone
    cases hnone

theorem send_of_due (h : C.sendDue env = true) :
    ∃ packet, (C.vsOpenClosereqSendPacket env).sent = C.sent ++ [packet] := by
  have hsome : (C.sendConn.send env.payDue).2 ≠ none := by
    simp only [VContext.sendDue] at h
    simp [SendConn.send, h]
  unfold VContext.vsOpenClosereqSendPacket VContext.sendPacketInOpenClosereqState
  split
  · rename_i heq
    rw [heq] at hsome
    exact absurd rfl hsome
  · exact ⟨_, rfl⟩

/-- What is not changed by sending. -/
theorem vsOpenClosereqSendPacket_frame (C : VSContext) (env : SendEnv) :
    (C.vsOpenClosereqSendPacket env).conn.rwinPeer = C.conn.rwinPeer ∧
      (C.vsOpenClosereqSendPacket env).unpacked = C.unpacked := by
  unfold VContext.vsOpenClosereqSendPacket VContext.sendPacketInOpenClosereqState
  split
  · exact ⟨rfl, rfl⟩
  · exact ⟨rfl, rfl⟩

/-- A packet without payload: only the ANK id and the FIN flag are looked at. -/
theorem handlePacketInOpenState_of_not_pay (hnone : C.rPacket.sysCmd 0 = none)
    (hwindow : C.conn.rwinPeer = C.conn.peerWindow C.rPacket.header)
    (hpay : C.rPacket.hasFlag payFlag = false) :
    (C.handlePacketInOpenState .closereq).1 = C.openAnkFin .closereq := by
  have hack : C.openAckNak 0 = (C, if C.rPacket.hasFlag ackFlag then -1 else 0) := by
    unfold VContext.openAckNak
    rw [handleAckNakIndex_of_none hnone, packed_of_none hnone, ← hwindow]
    cases C.rPacket.hasFlag ackFlag <;> simp [handledAnkId, leadingAckNaks, ankIdAfter]
  have hsys : ∀ ret : ℤ, ret ≤ 0 → C.openSysCmds ret = C := by
    intro ret hret
    have hfirst : firstSysIndex ret = 0 := by
      unfold firstSysIndex
      split <;> omega
    simp only [VContext.openSysCmds, hfirst, scanFrom_of_none hnone, List.foldl_nil]
  simp only [VContext.handlePacketInOpenState, VContext.openPayload, hpay, hack, Bool.false_eq_true,
    if_false]
  rw [hsys _ (by split <;> decide)]

/-- A payload packet that is not newer is dropped. -/
theorem handlePacketInOpenState_of_unordered (hpay : C.rPacket.hasFlag payFlag = true)
    (hrecord : recordPayload C.conn.ackNak C.conn.lastRPay.toNat
      C.rPacket.header.payloadId.toNat = none) :
    (C.handlePacketInOpenState .closereq).1 = C := by
  simp [VContext.handlePacketInOpenState, VContext.openPayload, VContext.handleNodeCommands, hpay,
    hrecord]

/-- The node commands of a newer packet are unpacked. -/
theorem handlePacketInOpenState_of_ordered (hpay : C.rPacket.hasFlag payFlag = true)
    {ackNak : AckNakHistory}
    (hrecord : recordPayload C.conn.ackNak C.conn.lastRPay.toNat
      C.rPacket.header.payloadId.toNat = some ackNak) :
    (C.handlePacketInOpenState .closereq).1.unpacked = C.unpacked ++ C.rPacket.data.toList := by
  simp only [VContext.handlePacketInOpenState, VContext.openPayload, VContext.handleNodeCommands,
    hpay, hrecord, if_true, Option.map_some]
  unfold VContext.openAckNak VContext.openSysCmds VContext.openAnkFin
  dsimp only
  split <;> rfl

/-- The window of the peer is computed once more, from the same header. -/
theorem handlePacketInOpenState_rwinPeer
    (hwindow : C.conn.rwinPeer = C.conn.peerWindow C.rPacket.header) :
    (C.handlePacketInOpenState .closereq).1.conn.rwinPeer = C.conn.rwinPeer := by
  have hstep : ∀ (C' : VSContext) (ret : ℤ), C'.conn.peerWindow C'.rPacket.header = C.conn.rwinPeer →
      (((C'.openAckNak ret).1.openSysCmds (C'.openAckNak ret).2).openAnkFin .closereq).conn.rwinPeer =
        C.conn.rwinPeer := by
    intro C' ret h
    unfold VContext.openAckNak VContext.openSysCmds VContext.openAnkFin
    simp only [← h]
    split_ifs <;> rfl
  unfold VContext.handlePacketInOpenState VContext.openPayload VContext.handleNodeCommands
  cases hpay : C.rPacket.hasFlag payFlag with
  | false =>
      simp only [Bool.false_eq_true, if_false]
      exact hstep C 0 hwindow.symm
  | true =>
      cases recordPayload C.conn.ackNak C.conn.lastRPay.toNat C.rPacket.header.payloadId.toNat with
      | none => rfl
      | some ackNak =>
          simp only [if_true, Option.map_some]
          exact hstep _ 2 hwindow.symm

/-- What the handlers do with a header that comes without system commands. -/
theorem vsListenHandlePacket_of_none (hstate : C.conn.hostState = .listen)
    (hnone : C.rPacket.sysCmd 0 = none) :
    vsListenHandlePacket ctx env C =
      if C.rPacket.isRequest then
        ((((C.setAttempts .listen 1).vsListenInitSendPacket ctx).vsSendPacket env).vsRespondInit,
          .success)
      else (C, .corrupted) := by
  have hcmds := @vsHandleSysCmds_of_none ctx (C.setAttempts .listen 1) hnone .listen
  simp [vsListenHandlePacket, hstate, hcmds]

@[inherit_doc vsListenHandlePacket_of_none]
theorem vsRespondHandlePacket_of_none (hstate : C.conn.hostState = .respond)
    (hnone : C.rPacket.sysCmd 0 = none) :
    vsRespondHandlePacket ctx env C =
      if C.rPacket.isRequest && C.rPacket.header.payloadId == C.conn.peerId then
        if C.conn.attempts .listen < ctx.maxConnectionAttempts then
          (((C.setAttempts .listen (C.conn.attempts .listen + 1)).vsListenInitSendPacket
            ctx).vsSendPacket env, .success)
        else (C, .attemptsExceed)
      else (C, .corrupted) := by
  have hcmds := @vsHandleSysCmds_of_none ctx
    (C.setAttempts .listen (C.conn.attempts .listen + 1)) hnone .listen
  simp [vsRespondHandlePacket, hstate, hcmds, isPartOpen_of_none hnone]

@[inherit_doc vsListenHandlePacket_of_none]
theorem vsOpenClosereqHandlePacket_of_none
    (hstate : C.conn.hostState = .opened ∨ C.conn.hostState = .closereq)
    (hnone : C.rPacket.sysCmd 0 = none) :
    vsOpenClosereqHandlePacket ctx env C =
      if C.rPacket.hasFlag payFlag && C.rPacket.hasFlag finFlag then
        ((C.vsClosedInit.setAttempts .closed 1).vsClosedInitSendPacket.vsSendPacket env, .success)
      else ((C.handlePacketInOpenState .closereq).1.vsOpenClosereqSendPacket env, .success) := by
  have hcmds := @vsHandleSysCmds_of_none ctx
    (C.vsClosedInit.setAttempts .closed 1).vsClosedInitSendPacket hnone .closed
  have hbad : ¬ (C.conn.hostState ≠ .opened ∧ C.conn.hostState ≠ .closereq) := by
    rintro ⟨hopen, hclosereq⟩
    exact hstate.elim hopen hclosereq
  simp [vsOpenClosereqHandlePacket, if_neg hbad, isPartOpen_of_none hnone, hcmds,
    vsHandleSysCmds_opened]

@[inherit_doc vsListenHandlePacket_of_none]
theorem vsClosedHandlePacket_of_none (hstate : C.conn.hostState = .closed)
    (hnone : C.rPacket.sysCmd 0 = none) :
    vsClosedHandlePacket ctx env C =
      if C.rPacket.hasFlag (payFlag ||| finFlag) then
        if C.conn.attempts .closed < ctx.maxConnectionAttempts then
          ((C.setAttempts .closed (C.conn.attempts .closed + 1)).vsClosedInitSendPacket.vsSendPacket
            env, .error)
        else (C, .attemptsExceed)
      else (C, .reserved) := by
  have hcmds := @vsHandleSysCmds_of_none ctx
    (C.setAttempts .closed (C.conn.attempts .closed + 1)).vsClosedInitSendPacket hnone .closed
  simp [vsClosedHandlePacket, hstate, hcmds]

/-- The handler does not change the window of the peer. -/
theorem vsStateHandlePacket_rwinPeer (hnone : C.rPacket.sysCmd 0 = none)
    (hwindow : C.conn.rwinPeer = C.conn.peerWindow C.rPacket.header) :
    (vsStateHandlePacket ctx env C).1.conn.rwinPeer = C.conn.rwinPeer := by
  have hopen : C.conn.hostState = .opened ∨ C.conn.hostState = .closereq →
      (vsOpenClosereqHandlePacket ctx env C).1.conn.rwinPeer = C.conn.rwinPeer := by
    intro hstate
    rw [vsOpenClosereqHandlePacket_of_none hstate hnone]
    split
    · exact vsSendPacket_rwinPeer _ env
    · exact (vsOpenClosereqSendPacket_frame _ env).1.trans (handlePacketInOpenState_rwinPeer hwindow)
  unfold vsStateHandlePacket
  split
  case h_1 hstate =>
    rw [vsListenHandlePacket_of_none hstate hnone]
    split
    · exact vsSendPacket_rwinPeer _ env
    · rfl
  case h_2 hstate =>
    rw [vsRespondHandlePacket_of_none hstate hnone]
    split_ifs
    · exact vsSendPacket_rwinPeer _ env
    · rfl
    · rfl
  case h_3 hstate => exact hopen (Or.inl hstate)
  case h_4 hstate => exact hopen (Or.inr hstate)
  case h_5 hstate =>
    rw [vsClosedHandlePacket_of_none hstate hnone]
    split_ifs
    · exact vsSendPacket_rwinPeer _ env
    · rfl
    · rfl

/-! ## What is ignored -/

/-- A packet is dropped by `handle_node_commands` when its id is that of the last one,
unless the next id is 0. -/
theorem recordPayload_self_eq_none_iff {lastRPay : UInt32} (ackNak : AckNakHistory) :
    recordPayload ackNak lastRPay.toNat lastRPay.toNat = none ↔ lastRPay ≠ 0xFFFFFFFF := by
  have hlt := lastRPay.toNat_lt
  have hmax : lastRPay = 0xFFFFFFFF ↔ lastRPay.toNat = 2 ^ 32 - 1 := by
    rw [← UInt32.toNat_inj]
    exact Iff.rfl
  unfold recordPayload
  rw [Ne, hmax]
  by_cases heq : lastRPay.toNat = 2 ^ 32 - 1
  · rw [heq]
    simp
  · have hnext : (lastRPay.toNat + 1) % 2 ^ 32 = lastRPay.toNat + 1 := Nat.mod_eq_of_lt (by omega)
    simp only [hnext]
    rw [if_neg (by omega), if_pos (by omega)]
    exact iff_of_true rfl heq

theorem sendDue_eq_false_iff :
    C.sendDue env = false ↔
      env.payDue = false ∧
        (C.rPacket.hasFlag payFlag = true → C.rPacket.acked = false → C.conn.ackNak.cmds = []) := by
  simp only [VContext.sendDue, VContext.sendConn, SendConn.checkAckNakFlag, Bool.or_eq_false_iff]
  refine and_congr_right fun hpay => ?_
  rw [hpay]
  cases C.rPacket.hasFlag payFlag <;> cases C.rPacket.acked <;> simp [Nat.pos_iff_ne_zero]

theorem noteReceived_conn (C : VSContext) :
    C.noteReceived.conn =
      { C.conn with
        lastRPay := if C.rPacket.hasFlag payFlag then C.rPacket.header.payloadId else C.conn.lastRPay
        lastRAck := if C.rPacket.hasFlag ackFlag then C.rPacket.header.ackNakId else C.conn.lastRAck } := by
  unfold VContext.noteReceived
  cases C.rPacket.hasFlag payFlag <;> cases C.rPacket.hasFlag ackFlag <;> rfl

theorem openAnkFin_conn (C : VSContext) :
    (C.openAnkFin .closereq).conn =
      { C.conn with
        ackNak :=
          if C.rPacket.hasFlag ankFlag then
            vAckNakHistoryRemoveCmds C.conn.ackNak C.rPacket.header.ankId.toNat
          else C.conn.ackNak
        hostState := if C.rPacket.hasFlag finFlag then .closereq else C.conn.hostState } := by
  unfold VContext.openAnkFin
  cases C.rPacket.hasFlag ankFlag <;> cases C.rPacket.hasFlag finFlag <;> rfl

/-- The last packet that is noted is the one before. -/
theorem noteReceived_conn_iff :
    C.noteReceived.conn = C.conn ↔
      (C.rPacket.hasFlag payFlag = true → C.rPacket.header.payloadId = C.conn.lastRPay) ∧
        (C.rPacket.hasFlag ackFlag = true → C.rPacket.header.ackNakId = C.conn.lastRAck) := by
  simp [noteReceived_conn, VDgramConn.ext_iff]

/-- The cut at the ANK id and the FIN flag change nothing. -/
theorem openAnkFin_conn_iff :
    (C.openAnkFin .closereq).conn = C.conn ↔
      (C.rPacket.hasFlag ankFlag = true →
        CutsNothing C.conn.ackNak.cmds C.rPacket.header.ankId.toNat) ∧
        (C.rPacket.hasFlag finFlag = true → C.conn.hostState = .closereq) := by
  rw [← vAckNakHistoryRemoveCmds_eq_self_iff, openAnkFin_conn, VDgramConn.ext_iff]
  simp only [ite_eq_right_iff, true_and]
  constructor
  · rintro ⟨hfin, hank⟩
    exact ⟨hank, fun h => (hfin h).symm⟩
  · rintro ⟨hank, hfin⟩
    exact ⟨fun h => (hfin h).symm, hank⟩

/-- The two functions change different fields. -/
theorem openAnkFin_noteReceived_conn_iff :
    (C.openAnkFin .closereq).noteReceived.conn = C.conn ↔
      (C.openAnkFin .closereq).conn = C.conn ∧ C.noteReceived.conn = C.conn := by
  have hpacket : (C.openAnkFin .closereq).rPacket = C.rPacket := rfl
  simp only [noteReceived_conn, openAnkFin_conn, hpacket, VDgramConn.ext_iff, true_and, and_true]
  tauto

/-- The states OPEN and CLOSEREQ leave the connection as it is when they ignore the
header, and else never. -/
theorem untouched_open_iff (hstate : C.conn.hostState = .opened ∨ C.conn.hostState = .closereq)
    (hnone : C.rPacket.sysCmd 0 = none) (hdata : C.rPacket.data ≠ none)
    (hwindow : C.conn.rwinPeer = C.conn.peerWindow C.rPacket.header) :
    Untouched C (vsOpenClosereqHandlePacket ctx env C).1.noteReceived ↔ C.IgnoresInOpen env := by
  rw [vsOpenClosereqHandlePacket_of_none hstate hnone]
  cases hpay : C.rPacket.hasFlag payFlag with
  | true =>
      cases hfin : C.rPacket.hasFlag finFlag with
      | true =>
          -- the connection is closed
          refine iff_of_false ?_ fun h => ?_
          · rw [if_pos (by rfl)]
            exact not_untouched_of_sent (vsSendPacket_sent _ env)
          · rw [(h.fin hfin).1] at hpay
            cases hpay
      | false =>
          rw [if_neg (by simp)]
          cases hrecord : recordPayload C.conn.ackNak C.conn.lastRPay.toNat
              C.rPacket.header.payloadId.toNat with
          | some ackNak =>
              obtain ⟨data, hsome⟩ := Option.ne_none_iff_exists'.mp hdata
              refine iff_of_false (fun ⟨_, hunpacked, _⟩ => ?_) fun h => ?_
              · have hgrows : (C.handlePacketInOpenState .closereq).1.unpacked = C.unpacked :=
                  (vsOpenClosereqSendPacket_frame _ env).2.symm.trans hunpacked
                rw [handlePacketInOpenState_of_ordered hpay hrecord, hsome] at hgrows
                simpa using congrArg List.length hgrows
              · obtain ⟨heq, hmax⟩ := h.pay hpay
                rw [heq, (recordPayload_self_eq_none_iff _).mpr hmax] at hrecord
                cases hrecord
          | none =>
              rw [handlePacketInOpenState_of_unordered hpay hrecord]
              cases hdue : C.sendDue env with
              | true =>
                  obtain ⟨packet, hsent⟩ := send_of_due hdue
                  refine iff_of_false (not_untouched_of_sent hsent) fun h => ?_
                  rw [sendDue_eq_false_iff.mpr h.quiet] at hdue
                  cases hdue
              | false =>
                  rw [send_of_not_due hdue]
                  constructor
                  · rintro ⟨hconn, -, -⟩
                    obtain ⟨hid, hack⟩ := noteReceived_conn_iff.mp hconn
                    have hmax : C.conn.lastRPay ≠ 0xFFFFFFFF := by
                      rwa [hid hpay, recordPayload_self_eq_none_iff] at hrecord
                    exact
                      { fin := fun h => by rw [hfin] at h; cases h
                        pay := fun _ => ⟨hid hpay, hmax⟩
                        ack := hack
                        ank := fun h => by rw [hpay] at h; cases h
                        quiet := sendDue_eq_false_iff.mp hdue }
                  · intro h
                    exact ⟨noteReceived_conn_iff.mpr ⟨fun _ => (h.pay hpay).1, h.ack⟩, rfl, rfl⟩
  | false =>
      rw [if_neg (by simp), handlePacketInOpenState_of_not_pay hnone hwindow hpay]
      have hsame : (C.openAnkFin .closereq).sendDue env = true ↔ env.payDue = true := by
        rw [← Bool.not_eq_false, ← Bool.not_eq_false, sendDue_eq_false_iff]
        simp [VContext.openAnkFin, hpay]
      cases hdue : env.payDue with
      | true =>
          obtain ⟨packet, hsent⟩ := send_of_due (hsame.mpr hdue)
          refine iff_of_false (not_untouched_of_sent hsent) fun h => ?_
          rw [h.quiet.1] at hdue
          cases hdue
      | false =>
          have hnot : (C.openAnkFin .closereq).sendDue env = false := by
            rw [← Bool.not_eq_true, hsame, hdue]
            decide
          rw [send_of_not_due hnot]
          constructor
          · rintro ⟨hconn, -, -⟩
            obtain ⟨hankfin, hnoted⟩ := openAnkFin_noteReceived_conn_iff.mp hconn
            obtain ⟨hank, hfin⟩ := openAnkFin_conn_iff.mp hankfin
            exact
              { fin := fun h => ⟨hpay, hfin h⟩
                pay := fun h => by rw [hpay] at h; cases h
                ack := (noteReceived_conn_iff.mp hnoted).2
                ank := fun _ => hank
                quiet := ⟨hdue, fun h => by rw [hpay] at h; cases h⟩ }
          · intro h
            refine ⟨openAnkFin_noteReceived_conn_iff.mpr ⟨?_, ?_⟩, rfl, rfl⟩
            · exact openAnkFin_conn_iff.mpr ⟨h.ank hpay, fun hfin => (h.fin hfin).2⟩
            · exact noteReceived_conn_iff.mpr ⟨fun hflag => (h.pay hflag).1, h.ack⟩

/-- What `vs_handle_packet` makes of the answer of the handler. -/
theorem vsHandlePacket_of_version {io : IoBuf} {handler : VSContext → VSContext × ReceivePacket}
    (hversion : (C.vsReadPacket io).rPacket.header.version = vrsVersion) :
    (vsHandlePacket handler C io).1 =
      if (handler (C.vsReadPacket io)).2 = .success then
        (handler (C.vsReadPacket io)).1.noteReceived
      else (handler (C.vsReadPacket io)).1 := by
  unfold vsHandlePacket
  simp only [hversion, if_true]
  split
  case h_1 heq => simp [heq]
  case h_2 ret hret heq =>
    rw [heq]
    exact (if_neg fun h => hret h).symm

/-- The handlers leave the connection as it is when they ignore the header, and else
never. -/
theorem untouched_handler_iff (hnone : C.rPacket.sysCmd 0 = none) (hdata : C.rPacket.data ≠ none)
    (hwindow : C.conn.rwinPeer = C.conn.peerWindow C.rPacket.header) :
    Untouched C
        (if (vsStateHandlePacket ctx env C).2 = .success then
          (vsStateHandlePacket ctx env C).1.noteReceived
        else (vsStateHandlePacket ctx env C).1) ↔ C.Ignores ctx env := by
  have hself : Untouched C C := ⟨rfl, rfl, rfl⟩
  have hopen : C.conn.hostState = .opened ∨ C.conn.hostState = .closereq →
      (vsOpenClosereqHandlePacket ctx env C).2 = .success := by
    intro hstate
    rw [vsOpenClosereqHandlePacket_of_none hstate hnone]
    split <;> rfl
  unfold vsStateHandlePacket VContext.Ignores
  cases hstate : C.conn.hostState with
  | listen =>
      dsimp only
      rw [vsListenHandlePacket_of_none hstate hnone]
      cases hrequest : C.rPacket.isRequest with
      | true => exact iff_of_false (not_untouched_of_sent (vsSendPacket_sent _ env)) (by simp)
      | false => exact iff_of_true hself rfl
  | respond =>
      dsimp only
      have hresult := @vsRespondHandlePacket_of_none ctx env C hstate hnone
      by_cases hrequest : C.rPacket.isRequest = true ∧ C.rPacket.header.payloadId = C.conn.peerId
      · rw [if_pos (by simp [hrequest.1, hrequest.2])] at hresult
        by_cases hattempts : C.conn.attempts .listen < ctx.maxConnectionAttempts
        · rw [hresult, if_pos hattempts]
          refine iff_of_false (not_untouched_of_sent (vsSendPacket_sent _ env)) fun h => ?_
          exact absurd hattempts (UInt16.not_lt.mpr (h hrequest.1 hrequest.2))
        · rw [hresult, if_neg hattempts]
          exact iff_of_true hself fun _ _ => UInt16.not_lt.mp hattempts
      · rw [if_neg (by simpa using hrequest)] at hresult
        rw [hresult]
        exact iff_of_true hself fun h heq => absurd ⟨h, heq⟩ hrequest
  | opened =>
      dsimp only
      rw [if_pos (hopen (Or.inl hstate))]
      exact untouched_open_iff (Or.inl hstate) hnone hdata hwindow
  | closereq =>
      dsimp only
      rw [if_pos (hopen (Or.inr hstate))]
      exact untouched_open_iff (Or.inr hstate) hnone hdata hwindow
  | closed =>
      dsimp only
      rw [vsClosedHandlePacket_of_none hstate hnone]
      by_cases hflag : C.rPacket.hasFlag (payFlag ||| finFlag) = true
      · rw [if_pos hflag]
        by_cases hattempts : C.conn.attempts .closed < ctx.maxConnectionAttempts
        · rw [if_pos hattempts]
          refine iff_of_false (not_untouched_of_sent (vsSendPacket_sent _ env)) fun h => ?_
          exact absurd hattempts (UInt16.not_lt.mpr (h hflag))
        · rw [if_neg hattempts]
          exact iff_of_true hself fun _ => UInt16.not_lt.mp hattempts
      · rw [if_neg hflag]
        exact iff_of_true hself fun h => absurd h hflag

/-! ## Reading the datagram -/

theorem vUnpackPacketHeader_eq_none_iff {io : IoBuf} :
    vUnpackPacketHeader io.buf io.bufSize.toNat = none ↔ io.bufSize.toNat < versePacketHeaderSize := by
  unfold vUnpackPacketHeader
  split <;> simp_all

/-- A datagram that is too short leaves the header, and its data begin in front of the
buffer. -/
theorem vsReadPacket_short {io : IoBuf}
    (hshort : vUnpackPacketHeader io.buf io.bufSize.toNat = none) :
    ∃ data, C.vsReadPacket io =
      { C with
        conn := { C.conn with rwinPeer := C.conn.peerWindow C.rPacket.header }
        rPacket := { C.rPacket with
          sysCmd := Function.update C.rPacket.sysCmd 0 none
          data := some data } } := by
  have hcmds : vUnpackPacketSystemCommands io.buf io.bufSize = none := by
    unfold vUnpackPacketSystemCommands
    rw [if_pos (vUnpackPacketHeader_eq_none_iff.mp hshort)]
  have hdata : (-1 : ℤ) < io.bufSize.toNat := by omega
  refine ⟨(List.range ((io.bufSize.toNat : ℤ) - -1).toNat).map fun i => io.byteAt (-1 + i), ?_⟩
  simp only [VContext.vsReadPacket, RPacket.readHeader, RPacket.readSysCmds, RPacket.readData, hshort,
    hcmds, Option.getD_none, if_pos hdata]

/-- Reading sets the window of the peer; a connection that is left as it was has this
window already. -/
theorem untouched_read_iff {D E : VSContext} {window : UInt32}
    (hunpacked : D.unpacked = C.unpacked) (hsent : D.sent = C.sent)
    (hconn : D.conn = { C.conn with rwinPeer := window }) (hkept : E.conn.rwinPeer = window) :
    Untouched C E ↔ C.conn.rwinPeer = window ∧ Untouched D E := by
  constructor
  · rintro ⟨h, hu, hs⟩
    have hsame : C.conn.rwinPeer = window := by rw [← h, hkept]
    refine ⟨hsame, ?_, hu.trans hunpacked.symm, hs.trans hsent.symm⟩
    rw [h, hconn, ← hsame]
  · rintro ⟨hsame, h, hu, hs⟩
    refine ⟨?_, hu.trans hunpacked, hs.trans hsent⟩
    rw [h, hconn, ← hsame]

/-- What is ignored does not depend on what the short datagram changed. -/
theorem ignores_read_iff {window : UInt32} {sysCmd : SysCmdArray} {data : Option (List UInt8)} :
    VContext.Ignores
        { C with
          conn := { C.conn with rwinPeer := window }
          rPacket := { C.rPacket with sysCmd := sysCmd, data := data } } ctx env ↔
      C.Ignores ctx env := by
  have hopen : VContext.IgnoresInOpen
      { C with
        conn := { C.conn with rwinPeer := window }
        rPacket := { C.rPacket with sysCmd := sysCmd, data := data } } env ↔
      C.IgnoresInOpen env :=
    ⟨fun h => ⟨h.fin, h.pay, h.ack, h.ank, h.quiet⟩, fun h => ⟨h.fin, h.pay, h.ack, h.ank, h.quiet⟩⟩
  unfold VContext.Ignores
  dsimp only at hopen ⊢
  revert hopen
  cases C.conn.hostState with
  | listen => exact fun _ => Iff.rfl
  | respond => exact fun _ => Iff.rfl
  | opened => exact id
  | closereq => exact id
  | closed => exact fun _ => Iff.rfl

/-- A datagram that is too short. -/
theorem vsHandlePacket_short_iff {io : IoBuf}
    (hshort : vUnpackPacketHeader io.buf io.bufSize.toNat = none) :
    Untouched C (vsHandlePacket (vsStateHandlePacket ctx env) C io).1 ↔
      C.conn.rwinPeer = C.conn.peerWindow C.rPacket.header ∧
        (C.rPacket.header.version = vrsVersion → C.Ignores ctx env) := by
  obtain ⟨data, hread⟩ := @vsReadPacket_short C io hshort
  have hheader : (C.vsReadPacket io).rPacket.header = C.rPacket.header := by rw [hread]
  have hconn : (C.vsReadPacket io).conn =
      { C.conn with rwinPeer := C.conn.peerWindow C.rPacket.header } := by rw [hread]
  have huntouched : ∀ E : VSContext, E.conn.rwinPeer = C.conn.peerWindow C.rPacket.header →
      (Untouched C E ↔ C.conn.rwinPeer = C.conn.peerWindow C.rPacket.header ∧
        Untouched (C.vsReadPacket io) E) := fun E => untouched_read_iff rfl rfl hconn
  by_cases hversion : C.rPacket.header.version = vrsVersion
  · have hnone : (C.vsReadPacket io).rPacket.sysCmd 0 = none := by
      rw [hread]
      simp
    have hwindow : (C.vsReadPacket io).conn.rwinPeer =
        (C.vsReadPacket io).conn.peerWindow (C.vsReadPacket io).rPacket.header := by
      rw [hread]
      rfl
    have hkept := @vsStateHandlePacket_rwinPeer ctx env (C.vsReadPacket io) hnone hwindow
    have hignores : (C.vsReadPacket io).Ignores ctx env ↔ C.Ignores ctx env := by
      rw [hread]
      exact ignores_read_iff
    rw [vsHandlePacket_of_version (by rw [hheader, hversion]), huntouched,
      untouched_handler_iff hnone (by rw [hread]; exact Option.some_ne_none data) hwindow, hignores]
    · exact and_congr_right fun _ => ⟨fun h _ => h, fun h => h hversion⟩
    · rw [hconn] at hkept
      split
      · rw [noteReceived_conn]
        exact hkept
      · exact hkept
  · have hresult : (vsHandlePacket (vsStateHandlePacket ctx env) C io).1 = C.vsReadPacket io := by
      unfold vsHandlePacket
      simp only [hheader, if_neg hversion]
    rw [hresult, huntouched _ (by rw [hconn])]
    exact and_congr_right fun _ => ⟨fun _ h => absurd h hversion, fun _ => ⟨rfl, rfl, rfl⟩⟩

/-- **Malformed datagrams**: the connection is left as it was just when they find
nothing to do. -/
theorem vsHandlePacket_malformed_iff (ctx : VSCtx) (env : SendEnv) (C : VSContext) (io : IoBuf)
    (hmalformed : io.Malformed) :
    Untouched C (vsHandlePacket (vsStateHandlePacket ctx env) C io).1 ↔
      C.LeavesAlone ctx env io := by
  unfold VContext.LeavesAlone
  cases hheader : vUnpackPacketHeader io.buf io.bufSize.toNat with
  | some header =>
      have hread : (C.vsReadPacket io).rPacket.header = header := by
        simp only [VContext.vsReadPacket, RPacket.readHeader, RPacket.readSysCmds, RPacket.readData,
          hheader, Option.getD_some]
        split <;> rfl
      have hconn : (C.vsReadPacket io).conn =
          { C.conn with rwinPeer := C.conn.peerWindow header } := by
        simp only [VContext.vsReadPacket, RPacket.readHeader, hheader, Option.getD_some]
      have hresult : (vsHandlePacket (vsStateHandlePacket ctx env) C io).1 = C.vsReadPacket io := by
        unfold vsHandlePacket
        simp only [hread, if_neg (hmalformed header hheader)]
      rw [hresult]
      apply (@untouched_read_iff C (C.vsReadPacket io) (C.vsReadPacket io) _ rfl rfl hconn
        (by rw [hconn])).trans
      exact and_iff_left ⟨rfl, rfl, rfl⟩
  | none =>
      exact vsHandlePacket_short_iff hheader

/-! ## A short datagram that is answered -/

/-- A server that accepts every method. -/
def sampleVSCtx : VSCtx := ⟨1, 1, 0, 2, 10⟩

/-- Every packet can be sent, and no payload is due. -/
def sampleSendEnv : SendEnv := ⟨true, false, 0xFFFFFFFF⟩

/-- A connection after `vs_LISTEN_init`. -/
def listenContext (session : VSession) (hostId : UInt32) : VSContext where
  conn := { vConnDgramInit UdpServerState.listen with hostId := hostId }
  session := session
  rPacket := RPacket.zero
  sHeader := RPacket.zero.header
  sSysCmd := SysCmdArray.zero
  unpacked := []
  sent := []

/-- A datagram in the buffer. -/
def ioBufOf (bytes : List UInt8) : IoBuf := ⟨0, ofBytes bytes, UInt16.ofNat bytes.length⟩

/-- The header of a first packet of a client. -/
def requestBytes : List UInt8 := [0x10, 0x90, 0xFF, 0xFF, 0, 0, 0, 5, 0, 0, 0, 0, 0, 0, 0, 0]

/-- The server answered the first packet of a client. -/
def respondContext : VSContext :=
  (vsHandlePacket (vsStateHandlePacket sampleVSCtx sampleSendEnv) (listenContext vInitSession 7)
    (ioBufOf requestBytes)).1

theorem vsHandlePacket_malformed_iff_short :
    Untouched respondContext
        (vsHandlePacket (vsStateHandlePacket sampleVSCtx sampleSendEnv) respondContext
          (ioBufOf [0])).1 ↔
      respondContext.LeavesAlone sampleVSCtx sampleSendEnv (ioBufOf [0]) :=
  vsHandlePacket_malformed_iff _ _ _ _
    (by simp [IoBuf.Malformed, vUnpackPacketHeader, ioBufOf, versePacketHeaderSize])

/-- A datagram of one byte is answered as if the packet before had come again. -/
theorem short_datagram_answered :
    (ioBufOf [0]).Malformed ∧ respondContext.conn.hostState = .respond ∧
      ¬ Untouched respondContext
        (vsHandlePacket (vsStateHandlePacket sampleVSCtx sampleSendEnv) respondContext
          (ioBufOf [0])).1 := by
  refine ⟨by simp [IoBuf.Malformed, vUnpackPacketHeader, ioBufOf, versePacketHeaderSize],
    by decide +kernel, fun h => ?_⟩
  have hlength := congrArg List.length h.2.2
  revert hlength
  decide +kernel

end Verse.Dgram
