import Verse.Dgram.Packets

/-!
# The datagram connection of the server

`vs_udp_connect.c`: the callbacks for system commands in the states LISTEN and
RESPOND, the handlers of all states, and `vs_handle_packet`.  The state is that of one
context, which belongs to one connection.

In the states OPEN and CLOSEREQ `vs_OPEN_CLOSEREQ_send_packet` repeats a send that
failed or that filled the packet; here one packet stands for them.
-/

namespace Verse.Dgram

open Lib

/-- `UDP_SERVER_STATE_*`. -/
inductive UdpServerState where
  | listen
  | respond
  | opened
  | closereq
  | closed
  deriving DecidableEq, Repr

/-- What is used of `VS_CTX`. -/
structure VSCtx where
  ccMeth : UInt8
  fcMeth : UInt8
  rwinScale : UInt8
  cmdCmpr : UInt8
  maxConnectionAttempts : UInt16
  deriving Repr

abbrev VSConn := VDgramConn UdpServerState

abbrev VSContext := VContext UdpServerState

/-! ## Callbacks -/

/-- The loops over proposed methods: the first value that is 0 or the method of the
server decides, and it has to be the method that was agreed on before, if there is one. -/
def agreeMethod (server current : UInt8) : List UInt8 → Option UInt8
  | [] => none
  | v :: rest =>
      if v = 0 then none
      else if v = server then (if current = 0 ∨ current = v then some v else none)
      else agreeMethod server current rest

/-- The congestion control that is proposed. -/
def agreeCc (ctx : VSCtx) (values : List UInt8) (conn : VSConn) : VSConn × Bool :=
  match agreeMethod ctx.ccMeth conn.ccMeth values with
  | some v => ({ conn with ccMeth := v }, true)
  | none => (conn, false)

/-- The flow control that is confirmed. -/
def agreeFc (ctx : VSCtx) (values : List UInt8) (conn : VSConn) : VSConn × Bool :=
  match agreeMethod ctx.fcMeth conn.fcMeth values with
  | some v => ({ conn with fcMeth := v }, true)
  | none => (conn, false)

/-- `vs_LISTEN_CHANGE_L_cb`. -/
def vsListenChangeLCb (ctx : VSCtx) (session : VSession) (preference : Preference) (conn : VSConn) :
    VSConn × Bool :=
  match preference with
  | .string8 .token values => (conn, tokenIs session.peerToken values)
  | .byte .cc values => agreeCc ctx values conn
  | .byte .rwinScale values =>
      match values with
      | scale :: _ => ({ conn with rwinPeerScale := scale }, true)
      | [] => (conn, false)
  | .byte .cmdCompress values =>
      match firstCmdCmpr values with
      | some cmpr => ({ conn with peerCmdCmpr := cmpr }, true)
      | none => (conn, false)
  | _ => (conn, true)

/-- `vs_LISTEN_CHANGE_R_cb`. -/
def vsListenChangeRCb (ctx : VSCtx) (preference : Preference) (conn : VSConn) : VSConn × Bool :=
  match preference with
  | .byte .cc values => agreeCc ctx values conn
  | .byte .cmdCompress values =>
      match firstCmdCmpr values with
      | some cmpr => ({ conn with hostCmdCmpr := cmpr }, true)
      | none => (conn, false)
  | _ => (conn, true)

/-- `vs_RESPOND_CONFIRM_R_cb`. -/
def vsRespondConfirmRCb (ctx : VSCtx) (preference : Preference) (conn : VSConn) : VSConn × Bool :=
  match preference with
  | .byte .fc values => agreeFc ctx values conn
  | _ => (conn, true)

/-- `vs_RESPOND_CONFIRM_L_cb`. -/
def vsRespondConfirmLCb (ctx : VSCtx) (session : VSession) (preference : Preference)
    (conn : VSConn) : VSConn × Bool :=
  match preference with
  | .string8 .token values => (conn, tokenIs session.hostToken values)
  | .byte .fc values => agreeFc ctx values conn
  | .byte .rwinScale values =>
      if values.head? = some ctx.rwinScale then ({ conn with rwinHostScale := ctx.rwinScale }, true)
      else ({ conn with rwinHostScale := 0 }, false)
  | _ => (conn, true)

/-- The callbacks that are set in `vs_LISTEN_init` and `vs_RESPOND_init`; the other
states have none. -/
def vsCallbacks (ctx : VSCtx) (session : VSession) : UdpServerState → Callbacks UdpServerState
  | .listen, .changeL => vsListenChangeLCb ctx session
  | .listen, .changeR => vsListenChangeRCb ctx
  | .respond, .confirmR => vsRespondConfirmRCb ctx
  | .respond, .confirmL => vsRespondConfirmLCb ctx session
  | _, _ => fun _ conn => (conn, true)

/-- `v_conn_dgram_handle_sys_cmds` on the server. -/
def VContext.vsHandleSysCmds (C : VSContext) (ctx : VSCtx) (state : UdpServerState) :
    VSContext × Bool :=
  let (conn, ok) := vConnDgramHandleSysCmds (vsCallbacks ctx C.session state) C.rPacket C.conn
  ({ C with conn := conn }, ok)

/-- The states after the handshake have no callbacks. -/
theorem vsHandleSysCmds_opened (C : VSContext) (ctx : VSCtx) :
    C.vsHandleSysCmds ctx .opened = (C, true) := by
  unfold VContext.vsHandleSysCmds
  rw [vConnDgramHandleSysCmds_null fun id _ _ => by cases id <;> rfl]

/-! ## Sending -/

/-- The counters in `vs_send_packet`. -/
def countSent (conn : VSConn) : VSConn :=
  match conn.hostState with
  | .listen => { conn with countSPay := 1, countSAck := 0 }
  | .respond => { conn with countSPay := 2, countSAck := 1 }
  | .opened | .closereq =>
      { conn with countSPay := conn.countSPay + 1, countSAck := conn.countSAck + 1 }
  | .closed => conn

/-- `vs_send_packet`. -/
def VContext.vsSendPacket (C : VSContext) (env : SendEnv) : VSContext :=
  let C := C.putPacket
  if env.sendOk then { C with conn := countSent C.conn } else C

/-- The compression that the server proposes, when the client proposed none. -/
def cmprProposal (ctx : VSCtx) : List UInt8 := if ctx.cmdCmpr = 2 then [2, 1] else [1, 2]

/-- The negotiate commands in `vs_LISTEN_init_send_packet`. -/
def listenNegotiates (ctx : VSCtx) (session : VSession) (conn : VSConn) :
    List (NegotiateId × Preference) :=
  List.flatten
    [session.peerToken.toList.map fun token => (.confirmL, .string8 .token [token]),
      session.hostToken.toList.map fun token => (.changeL, .string8 .token [token]),
      if conn.ccMeth ≠ 0 then
        [(.confirmL, .byte .cc [conn.ccMeth]), (.confirmR, .byte .cc [conn.ccMeth])] else [],
      if ctx.fcMeth ≠ 0 then
        [(.changeL, .byte .fc [ctx.fcMeth]), (.changeR, .byte .fc [ctx.fcMeth])] else [],
      if ctx.rwinScale ≠ 0 then [(.changeL, .byte .rwinScale [ctx.rwinScale])] else [],
      if conn.rwinPeerScale ≠ 0 then [(.confirmL, .byte .rwinScale [conn.rwinPeerScale])] else [],
      if conn.hostCmdCmpr ≠ 0 then [(.confirmR, .byte .cmdCompress [conn.hostCmdCmpr])]
      else [(.changeL, .byte .cmdCompress (cmprProposal ctx))],
      if conn.peerCmdCmpr ≠ 0 then [(.confirmL, .byte .cmdCompress [conn.peerCmdCmpr])]
      else [(.changeR, .byte .cmdCompress (cmprProposal ctx))]]

/-- `vs_LISTEN_init_send_packet`. -/
def VContext.vsListenInitSendPacket (C : VSContext) (ctx : VSCtx) : VSContext :=
  { C with
    sHeader :=
      { version := 1
        flags := payFlag ||| synFlag ||| ackFlag
        window := C.conn.hostWindow
        payloadId := C.conn.hostId
        ackNakId := 0
        ankId := 0 }
    sSysCmd :=
      addNegotiateCmds
        (Function.update C.sSysCmd 0 (some (.ackNak .ack C.rPacket.header.payloadId))) 1
        (listenNegotiates ctx C.session C.conn) }

/-- `vs_RESPOND_init`. -/
def VContext.vsRespondInit (C : VSContext) : VSContext :=
  { C with conn := { C.conn with hostState := .respond, peerId := C.rPacket.header.payloadId } }

/-- The two entries of a packet that only acknowledges. -/
def ackOnly (cmds : SysCmdArray) (payId : UInt32) : SysCmdArray :=
  Function.update (Function.update cmds 0 (some (.ackNak .ack payId))) 1 none

/-- `vs_RESPOND_init_send_packet`. -/
def VContext.vsRespondInitSendPacket (C : VSContext) : VSContext :=
  let header : VPacketHeader :=
    { version := 1
      flags := payFlag ||| ackFlag
      window := C.conn.hostWindow
      payloadId := C.conn.hostId + 1
      ackNakId := 1
      ankId := 0 }
  let C := { C with sSysCmd := ackOnly C.sSysCmd C.rPacket.header.payloadId }
  match C.rPacket.sysCmd 0 with
  | some (.ackNak .ack payId) =>
      { C with
        sHeader := { header with flags := header.flags ||| ankFlag, ankId := payId }
        conn := { C.conn with ankId := payId } }
  | _ => { C with sHeader := header }

/-- `vs_OPEN_init`. -/
def VContext.vsOpenInit (C : VSContext) : VSContext :=
  { C with
    conn := { C.conn with
      hostState := .opened
      ackNak := vAckNakHistoryAddCmd C.conn.ackNak (.ack, C.rPacket.header.payloadId.toNat) } }

/-- `vs_CLOSED_init`. -/
def VContext.vsClosedInit (C : VSContext) : VSContext :=
  { C with conn := { C.conn with hostState := .closed } }

/-- `vs_CLOSED_init_send_packet`. -/
def VContext.vsClosedInitSendPacket (C : VSContext) : VSContext :=
  { C with
    sHeader :=
      { version := 1
        flags := payFlag ||| finFlag ||| ackFlag
        window := C.conn.hostWindow
        payloadId := C.conn.hostId + C.conn.countSPay
        ackNakId := C.conn.countSAck
        ankId := 0 }
    sSysCmd := ackOnly C.sSysCmd C.rPacket.header.payloadId }

/-- `vs_OPEN_CLOSEREQ_send_packet`. -/
def VContext.vsOpenClosereqSendPacket (C : VSContext) (env : SendEnv) : VSContext :=
  C.sendPacketInOpenClosereqState env (C.conn.hostState = .closereq)

/-! ## The handlers -/

/-- The packet is the first one of the client. -/
def RPacket.isRequest (p : RPacket) : Bool := p.header.flags == payFlag ||| synFlag

/-- The packet is the one that a client in PARTOPEN state sends to this connection. -/
def RPacket.isPartOpen (p : RPacket) (conn : VSConn) : Bool :=
  p.header.flags == payFlag ||| ackFlag ||| ankFlag && p.header.payloadId == conn.peerId + 1 &&
    p.header.ankId == conn.peerId && p.firstAck conn.hostId

/-- `vs_LISTEN_handle_packet`. -/
def vsListenHandlePacket (ctx : VSCtx) (env : SendEnv) (C : VSContext) : VSContext × ReceivePacket :=
  if C.conn.hostState ≠ .listen then (C, .error)
  else if C.rPacket.isRequest then
    let C := C.setAttempts .listen 1
    let (C, ok) := C.vsHandleSysCmds ctx .listen
    if !ok then (C, .corrupted)
    else (((C.vsListenInitSendPacket ctx).vsSendPacket env).vsRespondInit, .success)
  else (C, .corrupted)

/-- `vs_RESPOND_handle_packet`. -/
def vsRespondHandlePacket (ctx : VSCtx) (env : SendEnv) (C : VSContext) :
    VSContext × ReceivePacket :=
  if C.conn.hostState ≠ .respond then (C, .error)
  else if C.rPacket.isRequest && C.rPacket.header.payloadId == C.conn.peerId then
    if C.conn.attempts .listen < ctx.maxConnectionAttempts then
      let C := C.setAttempts .listen (C.conn.attempts .listen + 1)
      let (C, ok) := C.vsHandleSysCmds ctx .listen
      if !ok then (C, .corrupted)
      else ((C.vsListenInitSendPacket ctx).vsSendPacket env, .success)
    else (C, .attemptsExceed)
  else if C.rPacket.isPartOpen C.conn then
    let C := C.setAttempts .respond 1
    let (C, ok) := C.vsRespondInitSendPacket.vsHandleSysCmds ctx .respond
    if !ok then (C, .corrupted)
    else ((C.vsSendPacket env).vsOpenInit, .success)
  else (C, .corrupted)

/-- `vs_OPEN_CLOSEREQ_handle_packet`.  The answer of `handle_packet_in_OPEN_state` is
not looked at. -/
def vsOpenClosereqHandlePacket (ctx : VSCtx) (env : SendEnv) (C : VSContext) :
    VSContext × ReceivePacket :=
  if C.conn.hostState ≠ .opened ∧ C.conn.hostState ≠ .closereq then (C, .reserved)
  else if C.rPacket.isPartOpen C.conn then
    if C.conn.attempts .respond < ctx.maxConnectionAttempts then
      let C := C.setAttempts .respond (C.conn.attempts .respond + 1)
      let (C, ok) := C.vsRespondInitSendPacket.vsHandleSysCmds ctx .respond
      if !ok then (C, .corrupted)
      else (C.vsSendPacket env, .success)
    else (C, .attemptsExceed)
  else if C.rPacket.hasFlag payFlag && C.rPacket.hasFlag finFlag then
    let C := C.vsClosedInit
    let C := C.setAttempts .closed 1
    let (C, ok) := C.vsClosedInitSendPacket.vsHandleSysCmds ctx .closed
    if !ok then (C, .corrupted)
    else (C.vsSendPacket env, .success)
  else
    let (C, _) := C.handlePacketInOpenState .closereq
    let (C, _) := C.vsHandleSysCmds ctx .opened
    (C.vsOpenClosereqSendPacket env, .success)

/-- `vs_CLOSED_handle_packet`.  It returns 1 and 0, and not `RECEIVE_PACKET_SUCCESS`. -/
def vsClosedHandlePacket (ctx : VSCtx) (env : SendEnv) (C : VSContext) : VSContext × ReceivePacket :=
  if C.conn.hostState ≠ .closed then (C, .reserved)
  else if C.rPacket.hasFlag (payFlag ||| finFlag) then
    if C.conn.attempts .closed < ctx.maxConnectionAttempts then
      let C := C.setAttempts .closed (C.conn.attempts .closed + 1)
      let (C, _) := C.vsClosedInitSendPacket.vsHandleSysCmds ctx .closed
      (C.vsSendPacket env, .error)
    else (C, .attemptsExceed)
  else (C, .reserved)

/-- The handler that `vs_main_dgram_loop` chooses. -/
def vsStateHandlePacket (ctx : VSCtx) (env : SendEnv) (C : VSContext) : VSContext × ReceivePacket :=
  match C.conn.hostState with
  | .listen => vsListenHandlePacket ctx env C
  | .respond => vsRespondHandlePacket ctx env C
  | .opened | .closereq => vsOpenClosereqHandlePacket ctx env C
  | .closed => vsClosedHandlePacket ctx env C

/-- What `vs_handle_packet` does before it calls the handler. -/
def VContext.vsReadPacket (C : VSContext) (io : IoBuf) : VSContext :=
  let p := C.rPacket.readHeader io
  let conn := { C.conn with rwinPeer := C.conn.peerWindow p.header }
  let (p, pos) := p.readSysCmds io
  { C with conn := conn, rPacket := p.readData io pos }

/-- `vs_handle_packet`. -/
def vsHandlePacket (handler : VSContext → VSContext × ReceivePacket) (C : VSContext) (io : IoBuf) :
    VSContext × ReceivePacket :=
  let C := C.vsReadPacket io
  if C.rPacket.header.version = vrsVersion then
    match handler C with
    | (C, .success) => (C.noteReceived, .success)
    | (C, ret) => (C, ret)
  else (C, .corrupted)

end Verse.Dgram
