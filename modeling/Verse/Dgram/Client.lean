import Verse.Dgram.Packets

/-!
# The handshake of the client

`vc_udp_connect.c`: the callbacks for system commands in REQUEST state, the packets
that are built in the states REQUEST and PARTOPEN, the handlers of these states, and
their loops.

One pass of a loop sends a packet and waits for one.  What the system decides in a pass
is an `Attempt`; a loop is given a list of them, and has no result when the list ends
before it does.
-/

namespace Verse.Dgram

open Lib

/-- `UDP_CLIENT_STATE_*`. -/
inductive UdpClientState where
  | request
  | partopen
  | opened
  | closing
  | closed
  deriving DecidableEq, Repr

/-- What is used of `VC_CTX`; `max_connection_attempts` is an `int32`. -/
structure VCCtx where
  rwinScale : UInt8
  maxConnectionAttempts : ℤ
  deriving Repr

abbrev VCConn := VDgramConn UdpClientState

abbrev VCContext := VContext UdpClientState

/-- `VRS_CMD_CMPR_NONE`. -/
def vrsCmdCmprNone : UInt16 := 32

/-! ## Callbacks -/

/-- The loops over proposed methods of flow control: values that are not known, or not
the method that was agreed on before, are skipped. -/
def proposeFc (values : List UInt8) (conn : VCConn) : VCConn × Bool :=
  match values.find? fun v => (v == 1 || v == 2) && (conn.fcMeth == 0 || conn.fcMeth == v) with
  | some v => ({ conn with fcMeth := v }, true)
  | none => (conn, false)

/-- The confirmation of the congestion control `CC_NONE`. -/
def confirmCc (values : List UInt8) (conn : VCConn) : VCConn × Bool :=
  if values = [1] then ({ conn with ccMeth := 1 }, true) else (conn, false)

/-- `vc_REQUEST_CHANGE_L_cb`.  The token is not compared with the negotiated one. -/
def vcRequestChangeLCb (session : VSession) (preference : Preference) (conn : VCConn) :
    VCConn × Bool :=
  match preference with
  | .string8 .token values => (conn, session.peerToken.isSome && !values.isEmpty)
  | .byte .fc values => proposeFc values conn
  | .byte .rwinScale values =>
      match values with
      | scale :: _ => ({ conn with rwinPeerScale := scale }, true)
      | [] => (conn, false)
  | _ => (conn, true)

/-- `vc_REQUEST_CHANGE_R_cb`. -/
def vcRequestChangeRCb (preference : Preference) (conn : VCConn) : VCConn × Bool :=
  match preference with
  | .byte .fc values => proposeFc values conn
  | _ => (conn, true)

/-- `vc_REQUEST_CONFIRM_L_cb`.  A confirmation of the command compression that has not
one value is ignored. -/
def vcRequestConfirmLCb (ctx : VCCtx) (session : VSession) (preference : Preference)
    (conn : VCConn) : VCConn × Bool :=
  match preference with
  | .string8 .token values => (conn, values.length == 1 && tokenIs session.hostToken values)
  | .byte .cc values => confirmCc values conn
  | .byte .rwinScale [scale] =>
      if ctx.rwinScale = scale then ({ conn with rwinHostScale := ctx.rwinScale }, true)
      else ({ conn with rwinHostScale := 0 }, false)
  | .byte .rwinScale _ => (conn, false)
  | .byte .cmdCompress [cmpr] =>
      if cmpr = 1 ∨ cmpr = 2 then ({ conn with hostCmdCmpr := cmpr }, true) else (conn, false)
  | _ => (conn, true)

/-- `vc_REQUEST_CONFIRM_R_cb`. -/
def vcRequestConfirmRCb (preference : Preference) (conn : VCConn) : VCConn × Bool :=
  match preference with
  | .byte .cc values => confirmCc values conn
  | .byte .cmdCompress [cmpr] =>
      if cmpr = 1 ∨ cmpr = 2 then ({ conn with peerCmdCmpr := cmpr }, true) else (conn, false)
  | _ => (conn, true)

/-- The callbacks that are set in `vc_REQUEST_loop`; the state PARTOPEN has none. -/
def vcCallbacks (ctx : VCCtx) (session : VSession) : UdpClientState → Callbacks UdpClientState
  | .request, .changeL => vcRequestChangeLCb session
  | .request, .changeR => vcRequestChangeRCb
  | .request, .confirmL => vcRequestConfirmLCb ctx session
  | .request, .confirmR => vcRequestConfirmRCb
  | _, _ => fun _ conn => (conn, true)

/-- `v_conn_dgram_handle_sys_cmds` on the client. -/
def VContext.vcHandleSysCmds (C : VCContext) (ctx : VCCtx) (state : UdpClientState) :
    VCContext × Bool :=
  let (conn, ok) := vConnDgramHandleSysCmds (vcCallbacks ctx C.session state) C.rPacket C.conn
  ({ C with conn := conn }, ok)

theorem vcHandleSysCmds_partopen (C : VCContext) (ctx : VCCtx) :
    C.vcHandleSysCmds ctx .partopen = (C, true) := by
  unfold VContext.vcHandleSysCmds
  rw [vConnDgramHandleSysCmds_null fun id _ _ => by cases id <;> rfl]

/-- The state and the ids are the same. -/
structure SameIds (conn conn' : VCConn) : Prop where
  hostState : conn'.hostState = conn.hostState
  hostId : conn'.hostId = conn.hostId
  peerId : conn'.peerId = conn.peerId

theorem proposeFc_sameIds (values : List UInt8) (conn : VCConn) :
    SameIds conn (proposeFc values conn).1 := by
  unfold proposeFc
  split <;> exact ⟨rfl, rfl, rfl⟩

theorem confirmCc_sameIds (values : List UInt8) (conn : VCConn) :
    SameIds conn (confirmCc values conn).1 := by
  unfold confirmCc
  split <;> exact ⟨rfl, rfl, rfl⟩

/-- The callbacks do not change the state and the ids. -/
theorem vcCallbacks_sameIds (ctx : VCCtx) (session : VSession) (state : UdpClientState)
    (id : NegotiateId) (preference : Preference) (conn : VCConn) :
    SameIds conn (vcCallbacks ctx session state id preference conn).1 := by
  unfold vcCallbacks
  split
  · unfold vcRequestChangeLCb
    split
    · exact ⟨rfl, rfl, rfl⟩
    · exact proposeFc_sameIds _ conn
    · split <;> exact ⟨rfl, rfl, rfl⟩
    · exact ⟨rfl, rfl, rfl⟩
  · unfold vcRequestChangeRCb
    split
    · exact proposeFc_sameIds _ conn
    · exact ⟨rfl, rfl, rfl⟩
  · unfold vcRequestConfirmLCb
    split
    · exact ⟨rfl, rfl, rfl⟩
    · exact confirmCc_sameIds _ conn
    · split <;> exact ⟨rfl, rfl, rfl⟩
    · exact ⟨rfl, rfl, rfl⟩
    · split <;> exact ⟨rfl, rfl, rfl⟩
    · exact ⟨rfl, rfl, rfl⟩
  · unfold vcRequestConfirmRCb
    split
    · exact confirmCc_sameIds _ conn
    · split <;> exact ⟨rfl, rfl, rfl⟩
    · exact ⟨rfl, rfl, rfl⟩
  · exact ⟨rfl, rfl, rfl⟩

/-! ## Sending -/

/-- `vc_send_packet`. -/
def VContext.vcSendPacket (C : VCContext) (sendOk : Bool) : VCContext :=
  let C := C.putPacket
  if sendOk then
    let conn := C.conn
    { C with conn :=
      match conn.hostState with
      | .request => { conn with countSPay := 1, countSAck := 0 }
      | .partopen => { conn with countSPay := 2, countSAck := 1 }
      | .opened => { conn with countSPay := conn.countSPay + 1, countSAck := conn.countSAck + 1 }
      | .closing | .closed => conn }
  else C

/-- The negotiate commands in `vc_REQUEST_init_send_packet`. -/
def requestNegotiates (ctx : VCCtx) (session : VSession) : List (NegotiateId × Preference) :=
  let cmpr : UInt8 := if session.flags &&& vrsCmdCmprNone ≠ 0 then 1 else 2
  List.flatten
    [session.hostToken.toList.map fun token => (.changeL, .string8 .token [token]),
      [(.changeL, .byte .cc [1]), (.changeR, .byte .cc [1]),
        (.changeL, .byte .rwinScale [ctx.rwinScale]),
        (.changeL, .byte .cmdCompress [cmpr]), (.changeR, .byte .cmdCompress [cmpr])]]

/-- `vc_REQUEST_init_send_packet`. -/
def VContext.vcRequestInitSendPacket (C : VCContext) (ctx : VCCtx) : VCContext :=
  { C with
    sHeader :=
      { version := 1
        flags := payFlag ||| synFlag
        window := C.conn.hostWindow
        payloadId := C.conn.hostId
        ackNakId := 0
        ankId := 0 }
    sSysCmd := addNegotiateCmds C.sSysCmd 0 (requestNegotiates ctx C.session) }

/-- The negotiate commands in `vc_PARTOPEN_init_send_packet`. -/
def partopenNegotiates (session : VSession) (conn : VCConn) : List (NegotiateId × Preference) :=
  List.flatten
    [session.peerToken.toList.map fun token => (.confirmL, .string8 .token [token]),
      if conn.fcMeth ≠ 0 then
        [(.confirmL, .byte .fc [conn.fcMeth]), (.confirmR, .byte .fc [conn.fcMeth])] else [],
      if conn.rwinPeerScale ≠ 0 then [(.confirmL, .byte .rwinScale [conn.rwinPeerScale])] else []]

/-- `vc_PARTOPEN_init_send_packet`.  The ANK id is the payload id of the first system
command of the last received packet, if that is an ACK. -/
def VContext.vcPartopenInitSendPacket (C : VCContext) : VCContext :=
  let header : VPacketHeader :=
    { version := 1
      flags := payFlag ||| ackFlag
      window := C.conn.hostWindow
      payloadId := C.conn.hostId + 1
      ackNakId := 0
      ankId := 0 }
  let sSysCmd :=
    addNegotiateCmds (Function.update C.sSysCmd 0 (some (.ackNak .ack C.conn.peerId))) 1
      (partopenNegotiates C.session C.conn)
  match C.rPacket.sysCmd 0 with
  | some (.ackNak .ack payId) =>
      { C with
        sHeader := { header with flags := header.flags ||| ankFlag, ankId := payId }
        sSysCmd := sSysCmd
        conn := { C.conn with ankId := payId } }
  | _ => { C with sHeader := header, sSysCmd := sSysCmd }

/-! ## Receiving -/

/-- The header of the packet is that of an answer to the first packet. -/
def RPacket.isAnswer (p : RPacket) (conn : VCConn) : Bool :=
  p.header.flags == payFlag ||| ackFlag ||| synFlag && p.firstAck conn.hostId

/-- `vc_REQUEST_handle_packet`. -/
def vcRequestHandlePacket (ctx : VCCtx) (C : VCContext) : VCContext × ReceivePacket :=
  if C.rPacket.isAnswer C.conn then
    let conn := { C.conn with hostState := .partopen, peerId := C.rPacket.header.payloadId }
    let C := { C with conn := conn }
    let (C, ok) := C.vcHandleSysCmds ctx .request
    if !ok then (C, .corrupted)
    else
      let conn := { C.conn with rwinPeer := C.conn.peerWindow C.rPacket.header }
      ({ C with conn := conn }, .success)
  else (C, .corrupted)

/-- The header of the packet is that of an answer to the second packet. -/
def RPacket.isConfirmation (p : RPacket) (conn : VCConn) : Bool :=
  p.header.flags == payFlag ||| ackFlag ||| ankFlag && p.header.payloadId == conn.peerId + 1 &&
    p.header.ankId == conn.peerId && p.firstAck (conn.hostId + 1)

/-- `vc_PARTOPEN_handle_packet`. -/
def vcPartopenHandlePacket (ctx : VCCtx) (C : VCContext) : VCContext × ReceivePacket :=
  if C.rPacket.isConfirmation C.conn then
    let conn := { C.conn with hostState := .opened }
    let C := { C with conn := conn }
    let (C, ok) := C.vcHandleSysCmds ctx .partopen
    if !ok then (C, .corrupted)
    else
      let conn := { C.conn with rwinPeer := C.conn.peerWindow C.rPacket.header }
      ({ C with conn := conn }, .success)
  else (C, .corrupted)

/-- What `select` and `v_receive_packet` say. -/
inductive Received where
  /-- `select` failed, or the connection was refused -/
  | failed
  /-- nothing came, or it could not be read -/
  | nothing
  /-- the packet came from another address -/
  | faked
  | datagram (io : IoBuf)

/-- The beginning of `vc_receive_and_handle_packet`: the header is stored, and the rest
of the packet when the version is right; `none` is `RECEIVE_PACKET_CORRUPTED`. -/
def VContext.vcReadPacket (C : VCContext) (io : IoBuf) : VCContext × Bool :=
  match vUnpackPacketHeader io.buf io.bufSize.toNat with
  | none => (C, false)
  | some header =>
      let p := { C.rPacket with header := header }
      if header.version ≠ vrsVersion then ({ C with rPacket := p }, false)
      else
        let conn := { C.conn with rwinPeer := C.conn.peerWindow header }
        let (p, pos) := p.readSysCmds io
        ({ C with conn := conn, rPacket := p.readData io pos }, true)

/-- `vc_receive_and_handle_packet`. -/
def vcReceiveAndHandlePacket (handler : VCContext → VCContext × ReceivePacket) (C : VCContext) :
    Received → VCContext × ReceivePacket
  | .failed => (C, .error)
  | .nothing => (C, .timeout)
  | .faked => (C, .faked)
  | .datagram io =>
      match C.vcReadPacket io with
      | (C, false) => (C, .corrupted)
      | (C, true) =>
          match handler C with
          | (C, .success) => (C.noteReceived, .success)
          | (C, ret) => (C, ret)

/-! ## The loops -/

/-- What the system decides in one pass of a loop; `shutdown` is a closed DTLS
connection. -/
structure Attempt where
  sendOk : Bool
  received : Received
  shutdown : Bool

/-- `STATE_EXIT_*`. -/
inductive StateExit where
  | error
  | success
  deriving DecidableEq, Repr

/-- A loop that waits for the answer that ends a state. -/
structure AttemptLoop where
  state : UdpClientState
  maxConnectionAttempts : ℤ
  initSendPacket : VCContext → VCContext
  handler : VCContext → VCContext × ReceivePacket

/-- The condition of the loop. -/
def AttemptLoop.goesOn (L : AttemptLoop) (C : VCContext) : Bool :=
  (C.conn.attempts L.state).toNat < L.maxConnectionAttempts

/-- The answer behind the loop. -/
def AttemptLoop.exit (L : AttemptLoop) (C : VCContext) : StateExit :=
  if C.conn.hostState = L.state then .error else .success

/-- The end of a pass in which no answer came. -/
def AttemptLoop.countAttempt (L : AttemptLoop) (C : VCContext) (shutdown : Bool) :
    VCContext × Option StateExit :=
  (C.setAttempts L.state (C.conn.attempts L.state + 1), if shutdown then some .error else none)

/-- One pass; it ends the loop when there is an answer. -/
def AttemptLoop.pass (L : AttemptLoop) (C : VCContext) (a : Attempt) :
    VCContext × Option StateExit :=
  let C := (L.initSendPacket C).vcSendPacket a.sendOk
  if !a.sendOk then (C, some .error)
  else
    match vcReceiveAndHandlePacket L.handler C a.received with
    | (C, .success) => (C, some (L.exit C))
    | (C, .timeout) | (C, .corrupted) => L.countAttempt C a.shutdown
    | (C, .faked) => (C, none)
    | (C, .error) => (C, some .error)
    | (C, _) => (C, if a.shutdown then some .error else none)

/-- The loop; without a result the attempts have come to their end before. -/
def AttemptLoop.loop (L : AttemptLoop) : VCContext → List Attempt → VCContext × Option StateExit
  | C, [] => (C, if L.goesOn C then none else some (L.exit C))
  | C, a :: rest =>
      if L.goesOn C then
        match L.pass C a with
        | (C, some exit) => (C, some exit)
        | (C, none) => L.loop C rest
      else (C, some (L.exit C))

/-- The attempts that the loop makes, each with the context in which it begins. -/
def AttemptLoop.made (L : AttemptLoop) : VCContext → List Attempt → List (VCContext × Attempt)
  | _, [] => []
  | C, a :: rest =>
      if L.goesOn C then
        (C, a) :: (match L.pass C a with
          | (_, some _) => []
          | (C, none) => L.made C rest)
      else []

/-- The loop in `vc_REQUEST_loop`. -/
def requestLoop (ctx : VCCtx) : AttemptLoop where
  state := .request
  maxConnectionAttempts := ctx.maxConnectionAttempts
  initSendPacket C := C.vcRequestInitSendPacket ctx
  handler := vcRequestHandlePacket ctx

/-- `vc_REQUEST_loop` up to its loop. -/
def VContext.requestInit (C : VCContext) : VCContext :=
  let conn := { C.conn with hostState := .request }
  ({ C with conn := conn } : VCContext).setAttempts .request 0

/-- `vc_REQUEST_loop`. -/
def vcRequestLoop (ctx : VCCtx) (C : VCContext) (attempts : List Attempt) :
    VCContext × Option StateExit :=
  (requestLoop ctx).loop C.requestInit attempts

/-- The loop in `vc_PARTOPEN_loop`. -/
def partopenLoop (ctx : VCCtx) : AttemptLoop where
  state := .partopen
  maxConnectionAttempts := ctx.maxConnectionAttempts
  initSendPacket := VContext.vcPartopenInitSendPacket
  handler := vcPartopenHandlePacket ctx

/-- `vc_PARTOPEN_loop`. -/
def vcPartopenLoop (ctx : VCCtx) (C : VCContext) (attempts : List Attempt) :
    VCContext × Option StateExit :=
  (partopenLoop ctx).loop (C.setAttempts .partopen 0) attempts

end Verse.Dgram
