import Verse.Server.Slot

/-!
# What a step of a session slot does

`Slot.step_cases` says once what an event can do to a slot: it is accepted, a message
of the handshake is handled, the connection is torn down, or it is a `Slot.DataStep`,
which leaves the fields of the handshake alone.  What holds along the connections of
a slot is derived from these cases.
-/

namespace Verse

open Lib

variable {slot slot' : Slot} {session session' : VSession} {buf : Mem} {bufSize : ℕ}

/-! ## What is set during the handshake -/

/-- The fields that are set during the handshake. -/
structure HandshakeFields where
  identity : Identity
  peerAddress : VNetworkAddress
  ded : Option (List UInt8)
  flags : UInt16
  usrAuthAtt : ℕ
  hostUrl : Option (List UInt8)
  peerToken : Option (List UInt8)
  hostToken : Option (List UInt8)
  clientName : Option (List UInt8)
  clientVersion : Option (List UInt8)

/-- These fields of a session. -/
def VSession.handshakeFields (session : VSession) : HandshakeFields :=
  ⟨session.identity, session.peerAddress, session.ded, session.flags, session.usrAuthAtt,
    session.hostUrl, session.peerToken, session.hostToken, session.clientName,
    session.clientVersion⟩

theorem negotiateFps_foldl (cmds : List MessageCmd) (session : VSession) :
    (cmds.foldl negotiateFps session).handshakeFields = session.handshakeFields ∧
      (cmds.foldl negotiateFps session).hostState = session.hostState := by
  induction cmds generalizing session with
  | nil => exact ⟨rfl, rfl⟩
  | cons cmd rest ih =>
      obtain ⟨hfields, hstate⟩ := ih (negotiateFps session cmd)
      have hcmd : (negotiateFps session cmd).handshakeFields = session.handshakeFields ∧
          (negotiateFps session cmd).hostState = session.hostState := by
        unfold negotiateFps
        split <;> exact ⟨rfl, rfl⟩
      exact ⟨hfields.trans hcmd.1, hstate.trans hcmd.2⟩

theorem pushFakeAck_fields {cmd : CmdPtr} (h : pushFakeAck session cmd = some session') :
    session'.handshakeFields = session.handshakeFields ∧
      session'.hostState = session.hostState := by
  obtain ⟨inQueue, -, rfl⟩ := Option.map_eq_some_iff.mp h
  exact ⟨rfl, rfl⟩

/-- The fields of the handshake are as they were, and so is the state, or the
connection is being closed. -/
structure VSession.Streamed (session session' : VSession) : Prop where
  fields : session'.handshakeFields = session.handshakeFields
  state : session'.hostState = session.hostState ∨ session'.hostState = .closing

theorem VSession.Streamed.trans {session'' : VSession} (h : session.Streamed session')
    (h' : session'.Streamed session'') : session.Streamed session'' where
  fields := h'.fields.trans h.fields
  state := by
    rcases h'.state with hs | hs
    · rw [hs]
      exact h.state
    · exact Or.inr hs

theorem sendCmd_streamed {cmd : CmdPtr} (h : sendCmd session cmd = some session') :
    session.Streamed session' := by
  obtain ⟨hfields, hstate⟩ := pushFakeAck_fields h
  have hfake : session.Streamed (takeFakeCmd session cmd) := by
    unfold takeFakeCmd
    split
    · exact ⟨rfl, Or.inr rfl⟩
    · split <;> exact ⟨rfl, Or.inl rfl⟩
  exact hfake.trans ⟨hfields, Or.inl hstate⟩

theorem sendCmds_streamed {cmds : List CmdPtr} (h : cmds.foldlM sendCmd session = some session') :
    session.Streamed session' := by
  induction cmds generalizing session with
  | nil =>
      obtain rfl := Option.some.inj h
      exact ⟨rfl, Or.inl rfl⟩
  | cons cmd rest ih =>
      rw [List.foldlM_cons] at h
      obtain ⟨session₁, hsend, hrest⟩ := Option.bind_eq_some_iff.mp h
      exact (sendCmd_streamed hsend).trans (ih hrest)

theorem vStreamHandleMessages_streamed
    (h : vStreamHandleMessages session buf bufSize = some (some session')) :
    session.Streamed session' := by
  unfold vStreamHandleMessages at h
  split at h
  · cases h
  split at h
  · cases h
  case h_2 sysCmds cmds _ =>
    obtain ⟨inQueue, -, heq⟩ := Option.map_eq_some_iff.mp h
    obtain rfl := Option.some.inj heq
    obtain ⟨hfields, hstate⟩ := negotiateFps_foldl sysCmds session
    exact ⟨hfields, Or.inl hstate⟩

theorem vStreamPackMessage_streamed {takes : ℕ → ℕ} {m : Option StreamMessage}
    (h : vStreamPackMessage session takes = some (session', m)) : session.Streamed session' := by
  unfold vStreamPackMessage at h
  split at h
  · obtain ⟨rfl, -⟩ := Prod.mk.inj (Option.some.inj h)
    exact ⟨rfl, Or.inl rfl⟩
  · obtain ⟨session₁, hsend, heq⟩ := Option.map_eq_some_iff.mp h
    obtain ⟨rfl, -⟩ := Prod.mk.inj heq
    have hpop : session.Streamed { session with
        tmpFlags := (negotiateFpsCmds session).2
        outQueue := fun prio => (session.outQueue prio).drop (takes prio) } := ⟨rfl, Or.inl rfl⟩
    exact hpop.trans (sendCmds_streamed hsend)

/-! ## Steps outside of the handshake -/

/-- The queues, the history, FPS and the flags are as in a new session. -/
structure Slot.Unused (slot : Slot) : Prop where
  outQueue : ∀ prio, slot.session.outQueue prio = []
  inQueue : slot.session.inQueue = []
  fpsHost : slot.session.fpsHost = defaultFps
  fpsPeer : slot.session.fpsPeer = defaultFps
  tmpFlags : slot.session.tmpFlags = 0
  history : slot.history = []

/-- What happens to the datagram connection: nothing, it opens, or it ends. -/
inductive Slot.UdpStep (slot slot' : Slot) : Prop
  | same (hrunning : slot'.udpRunning = slot.udpRunning) (hstate : slot'.udpState = slot.udpState)
      (hopened : slot'.opened = slot.opened)
  | opens (hrunning : slot.udpRunning = true) (hrunning' : slot'.udpRunning = true)
      (hstate : slot.udpState = .handshake) (hstate' : slot'.udpState = .open)
      (hopened : slot'.opened = true)
  | ends (hrunning : slot'.udpRunning = false) (hstate : slot'.udpState = .closed)
      (hopened : slot'.opened = slot.opened)

/-- What a step does that is neither a message of the handshake nor the begin or the
end of a connection. -/
structure Slot.DataStep (slot slot' : Slot) : Prop where
  fields : slot'.session.handshakeFields = slot.session.handshakeFields
  state : slot'.session.hostState = slot.session.hostState ∨
    slot.session.hostState ≠ .listen ∧
      (slot'.session.hostState = .closing ∨ slot'.session.hostState = .closed)
  udp : slot.UdpStep slot'
  unused : slot.session.hostState = .streamOpen ∨ slot.udpState = .open ∨ slot.opened = true ∨
    (slot.Unused → slot'.Unused)
  websocket : slot'.websocket = slot.websocket
  auth : slot'.auth = slot.auth
  udpStarted : slot'.udpStarted = slot.udpStarted
  tokenLeft : slot'.tokenLeft = slot.tokenLeft

/-- A step after which only the session differs. -/
theorem Slot.DataStep.of_session
    (hfields : session'.handshakeFields = slot.session.handshakeFields)
    (hstate : session'.hostState = slot.session.hostState ∨
      slot.session.hostState ≠ .listen ∧
        (session'.hostState = .closing ∨ session'.hostState = .closed))
    (hopen : slot.session.hostState = .streamOpen ∨ slot.udpState = .open ∨ slot.opened = true) :
    slot.DataStep { slot with session := session' } where
  fields := hfields
  state := hstate
  udp := .same rfl rfl rfl
  unused := hopen.imp_right (Or.imp_right Or.inl)
  websocket := rfl
  auth := rfl
  udpStarted := rfl
  tokenLeft := rfl

/-- The connection is being closed. -/
theorem Slot.DataStep.closes {state : TcpServerState} (hlisten : slot.session.hostState ≠ .listen)
    (hstate : state = .closing ∨ state = .closed) :
    slot.DataStep { slot with session := { slot.session with hostState := state } } where
  fields := rfl
  state := Or.inr ⟨hlisten, hstate⟩
  udp := .same rfl rfl rfl
  unused := Or.inr (Or.inr (Or.inr fun h => ⟨h.1, h.2, h.3, h.4, h.5, h.6⟩))
  websocket := rfl
  auth := rfl
  udpStarted := rfl
  tokenLeft := rfl

/-- What a step does. -/
inductive Slot.Step (slot slot' : Slot) : SlotEvent → Prop
  | accept (websocket : Bool) (hlisten : slot.session.hostState = .listen)
      (hslot : slot' = slot.accepted websocket) : slot.Step slot' (.accept websocket)
  | handshake (env : ServerEnv) (buf : Mem) (bufSize : ℕ)
      (hlisten : slot.session.hostState ≠ .listen)
      (hopen : ¬ (slot.session.hostState = .streamOpen ∧ slot.served = true))
      (hslot : slot' = (slot.handshakeMessage env buf bufSize).1) :
      slot.Step slot' (.message env buf bufSize)
  | tearDown (avatarFound : Bool) (hslot : slot' = slot.tornDown avatarFound) :
      slot.Step slot' (.tearDown avatarFound)
  | data (e : SlotEvent) (hdata : slot.DataStep slot') : slot.Step slot' e

/-- A slot whose connection was torn down can be used again. -/
theorem Slot.tornDown_hostState (slot : Slot) (avatarFound : Bool) :
    (slot.tornDown avatarFound).session.hostState = .listen := by
  simp only [Slot.tornDown, Slot.cleaned]
  split <;> rfl

/-- After an error the connection is being closed. -/
theorem Slot.failState_cases (slot : Slot) : slot.failState = .closing ∨ slot.failState = .closed := by
  unfold Slot.failState
  split
  · exact Or.inl rfl
  · exact Or.inr rfl

/-- A message in the state STREAM_OPEN. -/
theorem Slot.streamMessage_dataStep {o : SlotOutput} (hopen : slot.session.hostState = .streamOpen)
    (h : slot.streamMessage buf bufSize = some (slot', o)) : slot.DataStep slot' := by
  have hlisten : slot.session.hostState ≠ .listen := by simp [hopen]
  unfold Slot.streamMessage at h
  split at h
  case h_1 => cases h
  case h_2 =>
    obtain ⟨rfl, -⟩ := Prod.mk.inj (Option.some.inj h)
    exact .closes hlisten slot.failState_cases
  case h_3 hres =>
    obtain ⟨rfl, -⟩ := Prod.mk.inj (Option.some.inj h)
    have hstreamed := vStreamHandleMessages_streamed hres
    exact .of_session hstreamed.fields
      (hstreamed.state.imp_right fun hs => ⟨hlisten, Or.inl hs⟩) (Or.inl hopen)

/-- **Inversion** of a step. -/
theorem Slot.step_cases {e : SlotEvent} {o : SlotOutput} (h : slot.step e = some (slot', o)) :
    slot.Step slot' e := by
  cases e with
  | accept websocket =>
      simp only [Slot.step] at h
      split at h
      case isFalse => cases h
      case isTrue hlisten =>
        obtain ⟨rfl, -⟩ := Prod.mk.inj (Option.some.inj h)
        exact .accept websocket hlisten rfl
  | tearDown avatarFound =>
      simp only [Slot.step] at h
      split at h
      case isFalse => cases h
      case isTrue =>
        obtain ⟨rfl, -⟩ := Prod.mk.inj (Option.some.inj h)
        exact .tearDown avatarFound rfl
  | message env buf bufSize =>
      simp only [Slot.step] at h
      split at h
      case h_1 => cases h
      case h_2 => cases h
      case h_3 hopen =>
        split at h
        case isTrue => exact .data _ (Slot.streamMessage_dataStep hopen h)
        case isFalse hserved =>
          exact .handshake env buf bufSize (by simp [hopen]) (fun hs => hserved hs.2)
            (by rw [Option.some.inj h])
      case h_4 hlisten _ hopen =>
        exact .handshake env buf bufSize hlisten (fun hs => hopen hs.1) (by rw [Option.some.inj h])
  | pack takes =>
      simp only [Slot.step] at h
      split at h
      case isFalse => cases h
      case isTrue hopen =>
        have hlisten : slot.session.hostState ≠ .listen := by simp [hopen.1]
        have hpack : ∀ session' m, vStreamPackMessage slot.session takes = some (session', m) →
            slot.DataStep { slot with session := session' } := by
          intro session' m hres
          have hstreamed := vStreamPackMessage_streamed hres
          exact .of_session hstreamed.fields
            (hstreamed.state.imp_right fun hs => ⟨hlisten, Or.inl hs⟩) (Or.inl hopen.1)
        split at h
        case h_1 => cases h
        case h_2 hres =>
          obtain ⟨rfl, -⟩ := Prod.mk.inj (Option.some.inj h)
          exact .data _ (hpack _ _ hres)
        case h_3 hres =>
          obtain ⟨rfl, -⟩ := Prod.mk.inj (Option.some.inj h)
          exact .data _ (hpack _ _ hres)
  | closeFrame =>
      simp only [Slot.step] at h
      split at h
      case h_1 => cases h
      case h_2 => cases h
      case h_3 => cases h
      case h_4 hclosing =>
        obtain ⟨rfl, -⟩ := Prod.mk.inj (Option.some.inj h)
        exact .data _ (.closes (by simp [hclosing]) (Or.inr rfl))
      case h_5 hlisten _ _ =>
        obtain ⟨rfl, -⟩ := Prod.mk.inj (Option.some.inj h)
        exact .data _ (.closes hlisten (Or.inl rfl))
  | stop =>
      simp only [Slot.step] at h
      split at h
      case h_1 => cases h
      case h_2 => cases h
      case h_3 => cases h
      case h_4 hlisten _ =>
        obtain ⟨rfl, -⟩ := Prod.mk.inj (Option.some.inj h)
        exact .data _ (.closes hlisten (Or.inl rfl))
  | hangUp =>
      simp only [Slot.step] at h
      split at h
      case isTrue => cases h
      case isFalse hlisten =>
        obtain ⟨rfl, -⟩ := Prod.mk.inj (Option.some.inj h)
        exact .data _ (.closes hlisten (Or.inr rfl))
  | udpOpen =>
      simp only [Slot.step] at h
      split at h
      case isFalse => cases h
      case isTrue hguard =>
        obtain ⟨rfl, -⟩ := Prod.mk.inj (Option.some.inj h)
        exact .data _ ⟨rfl, Or.inl rfl, .opens hguard.1 hguard.1 hguard.2 rfl rfl,
          Or.inr (Or.inr (Or.inr fun h => ⟨h.1, h.2, h.3, h.4, h.5, h.6⟩)), rfl, rfl, rfl, rfl⟩
  | udpReceive sysCmds cmds =>
      simp only [Slot.step] at h
      split at h
      case isFalse => cases h
      case isTrue hguard =>
        obtain ⟨inQueue, -, heq⟩ := Option.map_eq_some_iff.mp h
        obtain ⟨rfl, -⟩ := Prod.mk.inj heq
        obtain ⟨hfields, hstate⟩ := negotiateFps_foldl sysCmds slot.session
        exact .data _ (.of_session hfields (Or.inl hstate) (Or.inr (Or.inl hguard.2)))
  | udpSend takes =>
      simp only [Slot.step] at h
      split at h
      case isFalse => cases h
      case isTrue hguard =>
        obtain ⟨rfl, -⟩ := Prod.mk.inj (Option.some.inj h)
        exact .data _ ⟨rfl, Or.inl rfl, .same rfl rfl rfl, Or.inr (Or.inl hguard.2), rfl, rfl, rfl, rfl⟩
  | udpAck i =>
      simp only [Slot.step] at h
      split at h
      case isFalse => cases h
      case isTrue hguard =>
        split at h
        · cases h
        · obtain ⟨session', hpush, heq⟩ := Option.map_eq_some_iff.mp h
          obtain ⟨rfl, -⟩ := Prod.mk.inj heq
          obtain ⟨hfields, hstate⟩ := pushFakeAck_fields hpush
          exact .data _ ⟨hfields, Or.inl hstate, .same rfl rfl rfl, Or.inr (Or.inl hguard.2), rfl, rfl,
            rfl, rfl⟩
  | udpNak i =>
      simp only [Slot.step] at h
      split at h
      case isFalse => cases h
      case isTrue hguard =>
        split at h
        · cases h
        · obtain ⟨outQueue, -, heq⟩ := Option.map_eq_some_iff.mp h
          obtain ⟨rfl, -⟩ := Prod.mk.inj heq
          exact .data _ ⟨rfl, Or.inl rfl, .same rfl rfl rfl, Or.inr (Or.inl hguard.2), rfl, rfl, rfl, rfl⟩
  | udpEnd =>
      simp only [Slot.step] at h
      split at h
      case isFalse => cases h
      case isTrue =>
        obtain ⟨rfl, -⟩ := Prod.mk.inj (Option.some.inj h)
        exact .data _ ⟨rfl, Or.inl rfl, .ends rfl rfl rfl,
          Or.inr (Or.inr (Or.inr fun h => ⟨h.1, h.2, h.3, h.4, h.5, rfl⟩)), rfl, rfl, rfl, rfl⟩
  | push prio cmd =>
      simp only [Slot.step] at h
      split at h
      case isFalse => cases h
      case isTrue hguard =>
        obtain ⟨outQueue, -, heq⟩ := Option.map_eq_some_iff.mp h
        obtain ⟨rfl, -⟩ := Prod.mk.inj heq
        exact .data _ (.of_session rfl (Or.inl rfl) (Or.inr (Or.inr hguard.1)))
  | handle =>
      simp only [Slot.step] at h
      split at h
      case isFalse => cases h
      case isTrue hguard =>
        obtain ⟨rfl, -⟩ := Prod.mk.inj (Option.some.inj h)
        exact .data _ (.of_session rfl (Or.inl rfl) (hguard.symm.imp_right Or.inl))

end Verse
