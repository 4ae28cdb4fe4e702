import Verse.Server.AuthGate

/-!
# Reusing a session slot

What a client can see must not depend on who used its session before.  The thread
of a connection resets some of the fields of the session when it ends; other fields
are set again before they are used, and some are neither: the two queues,
`fps_host`, `fps_peer`, `tmp_flags` and `usr_auth_att`, and after a WebSocket
connection also the token, the DED and the name and version of the client.

## Strategy

`Leftover` are the fields that are set before they are used.  Two slots are
`Slot.Alike` when their sessions differ in these fields only, and they are equal
from the moment on at which they can be used.  `Slot.alike_steps` is the
simulation: the same event does the same to slots that are alike.
-/

namespace Verse

open Lib

variable {slot slot' : Slot} {session session' : VSession} {env : ServerEnv} {buf : Mem}
  {bufSize : ℕ}

/-! ## Fields that are set before they are used -/

/-- The fields of a session that no thread resets and that are set again. -/
structure Leftover where
  userId : UInt16
  user : Option ℕ
  avatarId : UInt32
  hostUrl : Option (List UInt8)
  hostToken : Option (List UInt8)
  peerAddress : VNetworkAddress

/-- The session with other values in these fields. -/
def VSession.patch (session : VSession) (p : Leftover) : VSession :=
  { session with
    userId := p.userId
    user := p.user
    avatarId := p.avatarId
    hostUrl := p.hostUrl
    hostToken := p.hostToken
    peerAddress := p.peerAddress }

theorem negotiateFps_patch (session : VSession) (p : Leftover) (cmd : MessageCmd) :
    negotiateFps (session.patch p) cmd = (negotiateFps session cmd).patch p := by
  unfold negotiateFps
  split <;> rfl

theorem negotiateFps_foldl_patch (cmds : List MessageCmd) (session : VSession) (p : Leftover) :
    cmds.foldl negotiateFps (session.patch p) = (cmds.foldl negotiateFps session).patch p := by
  induction cmds generalizing session with
  | nil => rfl
  | cons cmd rest ih => rw [List.foldl_cons, List.foldl_cons, negotiateFps_patch, ih]

theorem vStreamHandleMessages_patch (session : VSession) (p : Leftover) (buf : Mem) (bufSize : ℕ) :
    vStreamHandleMessages (session.patch p) buf bufSize =
      (vStreamHandleMessages session buf bufSize).map (Option.map (·.patch p)) := by
  unfold vStreamHandleMessages
  split
  · rfl
  split
  · rfl
  · dsimp only
    rw [negotiateFps_foldl_patch]
    generalize List.foldl negotiateFps session _ = session₁
    change (pushAll session₁.inQueue _).map _ = _
    rw [Option.map_map]
    rfl

theorem pushFakeAck_patch (session : VSession) (p : Leftover) (cmd : CmdPtr) :
    pushFakeAck (session.patch p) cmd = (pushFakeAck session cmd).map (·.patch p) := by
  unfold pushFakeAck
  rw [Option.map_map]
  rfl

theorem sendCmd_patch (session : VSession) (p : Leftover) (cmd : CmdPtr) :
    sendCmd (session.patch p) cmd = (sendCmd session cmd).map (·.patch p) := by
  have hfake : takeFakeCmd (session.patch p) cmd = (takeFakeCmd session cmd).patch p := by
    unfold takeFakeCmd
    split
    · rfl
    · split <;> rfl
  rw [sendCmd, sendCmd, hfake, pushFakeAck_patch]

theorem sendCmds_patch (cmds : List CmdPtr) (session : VSession) (p : Leftover) :
    cmds.foldlM sendCmd (session.patch p) = (cmds.foldlM sendCmd session).map (·.patch p) := by
  induction cmds generalizing session with
  | nil => rfl
  | cons cmd rest ih =>
      rw [List.foldlM_cons, List.foldlM_cons, sendCmd_patch]
      cases sendCmd session cmd with
      | none => rfl
      | some session₁ => exact ih session₁

theorem vStreamPackMessage_patch (session : VSession) (p : Leftover) (takes : ℕ → ℕ) :
    vStreamPackMessage (session.patch p) takes =
      (vStreamPackMessage session takes).map fun r => (r.1.patch p, r.2) := by
  unfold vStreamPackMessage
  by_cases h : (∀ prio < 256, session.outQueue prio = []) ∧
      session.tmpFlags &&& sysCmdNegotiateFps = 0
  · have h' : (∀ prio < 256, (session.patch p).outQueue prio = []) ∧
        (session.patch p).tmpFlags &&& sysCmdNegotiateFps = 0 := h
    rw [if_pos h, if_pos h']
    rfl
  · have h' : ¬ ((∀ prio < 256, (session.patch p).outQueue prio = []) ∧
        (session.patch p).tmpFlags &&& sysCmdNegotiateFps = 0) := h
    have hfps : negotiateFpsCmds (session.patch p) = negotiateFpsCmds session := rfl
    rw [if_neg h, if_neg h', hfps]
    obtain ⟨sysCmds, tmpFlags⟩ := negotiateFpsCmds session
    have hpop := sendCmds_patch (poppedCmds session.outQueue takes)
      { session with
        tmpFlags := tmpFlags
        outQueue := fun prio => (session.outQueue prio).drop (takes prio) } p
    dsimp only
    rw [Option.map_map]
    refine (congrArg (Option.map _) hpop).trans ?_
    rw [Option.map_map]
    rfl

/-! ## The handshake -/

/-- The fields the loops of the handshake do not touch. -/
structure SessionData where
  hostState : TcpServerState
  flags : UInt16
  usrAuthAtt : ℕ
  outQueue : ℕ → List CmdPtr
  inQueue : List CmdPtr
  fpsHost : UInt32
  fpsPeer : UInt32
  tmpFlags : UInt8

/-- These fields of a session. -/
def VSession.data (session : VSession) : SessionData :=
  ⟨session.hostState, session.flags, session.usrAuthAtt, session.outQueue, session.inQueue,
    session.fpsHost, session.fpsPeer, session.tmpFlags⟩

theorem proposeClient_data (session : VSession) (cmd : MessageCmd) :
    (proposeClient session cmd).data = session.data := by
  unfold proposeClient
  split <;> rfl

theorem proposeClient_foldl_data (cmds : List MessageCmd) (session : VSession) :
    (cmds.foldl proposeClient session).data = session.data := by
  induction cmds generalizing session with
  | nil => rfl
  | cons cmd rest ih => rw [List.foldl_cons, ih, proposeClient_data]

theorem tokenDedCmd_data (env : ServerEnv) (t : TokenDed) (cmd : MessageCmd) :
    (tokenDedCmd env t cmd).session.data = t.session.data := by
  unfold tokenDedCmd
  split
  · rfl
  · rfl
  · split <;> rfl
  · split <;> rfl
  · exact proposeClient_data _ _

theorem tokenDedCmds_data (env : ServerEnv) (session : VSession) (cmds : List MessageCmd) :
    (tokenDedCmds env session cmds).session.data = session.data := by
  have hloop : ∀ (l : List MessageCmd) (t : TokenDed),
      (l.foldl (tokenDedCmd env) t).session.data = t.session.data := by
    intro l
    induction l with
    | nil => exact fun t => rfl
    | cons cmd rest ih =>
        intro t
        rw [List.foldl_cons, ih, tokenDedCmd_data]
  exact hloop cmds _

theorem vsRespondMethodsLoop_data (session : VSession) (cmds : List MessageCmd) :
    (vsRespondMethodsLoop session cmds).session.data = session.data := by
  unfold vsRespondMethodsLoop
  dsimp only
  split <;> exact proposeClient_foldl_data cmds session

theorem vsRespondUserauthLoop_data (env : ServerEnv) (session : VSession)
    (cmds : List MessageCmd) :
    (vsRespondUserauthLoop env session cmds).session.data = session.data := by
  unfold vsRespondUserauthLoop
  split
  · rfl
  split
  · rfl
  split <;> rfl

theorem proposeClient_patch (session : VSession) (p : Leftover) (cmd : MessageCmd) :
    proposeClient (session.patch p) cmd = (proposeClient session cmd).patch p := by
  unfold proposeClient
  split <;> rfl

theorem proposeClient_foldl_patch (cmds : List MessageCmd) (session : VSession) (p : Leftover) :
    cmds.foldl proposeClient (session.patch p) = (cmds.foldl proposeClient session).patch p := by
  induction cmds generalizing session with
  | nil => rfl
  | cons cmd rest ih => rw [List.foldl_cons, List.foldl_cons, proposeClient_patch, ih]

/-- The result of a handshake with another value in the fields. -/
def HandshakeResult.patch (r : HandshakeResult) (p : Leftover) : HandshakeResult :=
  { r with session := r.session.patch p }

/-- The handshake does the same to a session and to the session with other values in
the fields; from an authentication on the user is the same, and in the state
NEGOTIATE_NEWHOST the URL is. -/
def Patched (session : VSession) (p : Leftover) (r r' : HandshakeResult) : Prop :=
  ∃ p', r' = r.patch p' ∧
    ((session.patch p).identity = session.identity ∨ r.authenticated ≠ none →
      (r.session.patch p').identity = r.session.identity) ∧
    (r.session.hostState = .negotiateNewhost → p'.hostUrl = r.session.hostUrl)

theorem vsRespondMethodsLoop_patch (session : VSession) (p : Leftover) (cmds : List MessageCmd) :
    vsRespondMethodsLoop (session.patch p) cmds = (vsRespondMethodsLoop session cmds).patch p := by
  unfold vsRespondMethodsLoop
  dsimp only
  rw [proposeClient_foldl_patch]
  split <;> rfl

theorem vsRespondUserauthLoop_patch (env : ServerEnv) (session : VSession) (p : Leftover)
    (cmds : List MessageCmd) :
    ∃ p', vsRespondUserauthLoop env (session.patch p) cmds =
        (vsRespondUserauthLoop env session cmds).patch p' ∧
      ((session.patch p).identity = session.identity ∨
          (vsRespondUserauthLoop env session cmds).authenticated ≠ none →
        ((vsRespondUserauthLoop env session cmds).session.patch p').identity =
          (vsRespondUserauthLoop env session cmds).session.identity) := by
  unfold vsRespondUserauthLoop
  split
  · exact ⟨p, rfl, by simp [HandshakeResult.refuse]⟩
  split
  · exact ⟨p, rfl, by simp⟩
  split
  · exact ⟨p, rfl, by simp [HandshakeResult.refuse]⟩
  case h_2 userId _ _ avatarId _ =>
    exact ⟨{ p with userId := userId, user := env.userFind userId, avatarId := avatarId }, rfl,
      fun _ => rfl⟩

/-- The local variables of the loop with other values in the fields. -/
def TokenDed.patch (t : TokenDed) (p : Leftover) : TokenDed :=
  { t with session := t.session.patch p }

/-- What was proposed is in the fields. -/
structure TokenDed.Kept (t : TokenDed) (p : Leftover) : Prop where
  hostUrl : t.hostUrlProposed = true → p.hostUrl = t.session.hostUrl
  hostToken : t.hostTokenProposed = true → p.hostToken = t.session.hostToken

theorem tokenDedCmd_patch (env : ServerEnv) {t : TokenDed} {p : Leftover} (h : t.Kept p)
    (cmd : MessageCmd) :
    ∃ p', tokenDedCmd env (t.patch p) cmd = (tokenDedCmd env t cmd).patch p' ∧
      (tokenDedCmd env t cmd).Kept p' ∧
      ((t.session.patch p).identity = t.session.identity →
        ((tokenDedCmd env t cmd).session.patch p').identity =
          (tokenDedCmd env t cmd).session.identity) := by
  unfold tokenDedCmd
  split
  case h_1 url _ =>
    exact ⟨{ p with hostUrl := some (cString url) }, rfl, ⟨fun _ => rfl, h.hostToken⟩, id⟩
  case h_2 token _ =>
    exact ⟨{ p with hostToken := some (cString token) }, rfl, ⟨h.hostUrl, fun _ => rfl⟩, id⟩
  case h_3 token =>
    have hpatch : (t.patch p).session.peerToken = t.session.peerToken := rfl
    rw [hpatch]
    split
    · exact ⟨p, rfl, ⟨h.hostUrl, h.hostToken⟩, id⟩
    · exact ⟨p, rfl, h, id⟩
  case h_4 ded =>
    have hpatch : (t.patch p).session.ded = t.session.ded := rfl
    rw [hpatch]
    split
    · exact ⟨p, rfl, ⟨h.hostUrl, h.hostToken⟩, id⟩
    · exact ⟨p, rfl, h, id⟩
  case h_5 =>
    have hpatch : proposeClient (t.patch p).session cmd = (proposeClient t.session cmd).patch p :=
      proposeClient_patch t.session p cmd
    have hkeeps : (proposeClient t.session cmd).hostUrl = t.session.hostUrl ∧
        (proposeClient t.session cmd).hostToken = t.session.hostToken := by
      unfold proposeClient
      split <;> exact ⟨rfl, rfl⟩
    rw [hpatch]
    refine ⟨p, rfl, ⟨fun hp => ?_, fun hp => ?_⟩, fun hid => ?_⟩
    · exact (h.hostUrl hp).trans hkeeps.1.symm
    · exact (h.hostToken hp).trans hkeeps.2.symm
    · exact hid.trans (sameUser_proposeClient t.session cmd).identity.symm

theorem tokenDedCmds_patch (env : ServerEnv) (session : VSession) (p : Leftover)
    (cmds : List MessageCmd) :
    ∃ p', tokenDedCmds env (session.patch p) cmds = (tokenDedCmds env session cmds).patch p' ∧
      (tokenDedCmds env session cmds).Kept p' ∧
      ((session.patch p).identity = session.identity →
        ((tokenDedCmds env session cmds).session.patch p').identity =
          (tokenDedCmds env session cmds).session.identity) := by
  have hloop : ∀ (l : List MessageCmd) (t : TokenDed) (p : Leftover), t.Kept p →
      ∃ p', l.foldl (tokenDedCmd env) (t.patch p) = (l.foldl (tokenDedCmd env) t).patch p' ∧
        (l.foldl (tokenDedCmd env) t).Kept p' ∧
        ((t.session.patch p).identity = t.session.identity →
          ((l.foldl (tokenDedCmd env) t).session.patch p').identity =
            (l.foldl (tokenDedCmd env) t).session.identity) := by
    intro l
    induction l with
    | nil => exact fun t p h => ⟨p, rfl, h, id⟩
    | cons cmd rest ih =>
        intro t p h
        obtain ⟨p₁, heq₁, hkept₁, hid₁⟩ := tokenDedCmd_patch env h cmd
        obtain ⟨p₂, heq₂, hkept₂, hid₂⟩ := ih (tokenDedCmd env t cmd) p₁ hkept₁
        refine ⟨p₂, ?_, hkept₂, fun hid => hid₂ (hid₁ hid)⟩
        rw [List.foldl_cons, List.foldl_cons, heq₁, heq₂]
  exact hloop cmds ⟨session, vUrlInit, false, false, false, false⟩ p ⟨nofun, nofun⟩

theorem vsNegotiateTokenDedLoop_patch (env : ServerEnv) (session : VSession) (p : Leftover)
    (cmds : List MessageCmd) (hstate : session.hostState = .negotiateTokenDed) :
    Patched session p (vsNegotiateTokenDedLoop env session cmds)
      (vsNegotiateTokenDedLoop env (session.patch p) cmds) := by
  obtain ⟨p', heq, hkept, hid⟩ := tokenDedCmds_patch env session p cmds
  have hkeeps : (tokenDedCmds env session cmds).session.hostState = session.hostState :=
    congrArg SessionData.hostState (tokenDedCmds_data env session cmds)
  unfold Patched vsNegotiateTokenDedLoop
  rw [heq]
  generalize tokenDedCmds env session cmds = t at *
  have hcomplete : (t.patch p').complete = t.complete := rfl
  have hconfirmed : (t.patch p').urlConfirmed env = t.urlConfirmed env := rfl
  have hflags : (t.patch p').newFlags = t.newFlags := rfl
  simp only [hcomplete, hconfirmed, hflags]
  split
  case isFalse =>
    refine ⟨p', rfl, fun h => hid ?_, fun h => ?_⟩
    · simpa [HandshakeResult.refuse] using h
    · simp [HandshakeResult.refuse, hkeeps, hstate] at h
  case isTrue hdone =>
    simp only [TokenDed.complete, Bool.and_eq_true] at hdone
    have hurl := hkept.hostUrl hdone.1.1.1
    have htoken := hkept.hostToken hdone.1.1.2
    obtain ⟨userId, user, avatarId, hostUrl, hostToken, peerAddress⟩ := p'
    simp only at hurl htoken
    subst hurl htoken
    split
    · refine ⟨⟨userId, user, avatarId, t.session.hostUrl, t.session.hostToken, env.peerAddr⟩, rfl,
        fun h => hid ?_, fun _ => rfl⟩
      simpa using h
    split
    · refine ⟨⟨userId, user, avatarId, t.session.hostUrl, t.session.hostToken, env.peerAddr⟩, rfl,
        fun h => hid ?_, fun _ => rfl⟩
      simpa [HandshakeResult.refuse] using h
    · refine ⟨⟨userId, user, avatarId, some (hostUrlText env t.newFlags _), t.session.hostToken,
        env.peerAddr⟩, rfl, fun h => hid ?_, fun _ => rfl⟩
      simpa using h

/-- **Handshake.**  Two sessions that differ only in the fields that are set before
they are used are handled in the same way. -/
theorem vsHandleHandshake_patch (env : ServerEnv) (session : VSession) (p : Leftover) (buf : Mem)
    (bufSize : ℕ) (hurl : session.hostState = .negotiateNewhost → p.hostUrl = session.hostUrl) :
    Patched session p (vsHandleHandshake env session buf bufSize)
      (vsHandleHandshake env (session.patch p) buf bufSize) := by
  have hstate : (session.patch p).hostState = session.hostState := rfl
  unfold vsHandleHandshake
  generalize (receivedSysCmds buf bufSize).2 = cmds
  split
  · refine ⟨p, rfl, fun h => ?_, hurl⟩
    simpa [HandshakeResult.refuse] using h
  rw [hstate]
  dsimp only
  split
  case h_1 hmethods =>
    rw [vsRespondMethodsLoop_patch]
    have hdata := vsRespondMethodsLoop_data session cmds
    obtain ⟨hsame, hauth, -⟩ := vsRespondMethodsLoop_spec session cmds
    generalize vsRespondMethodsLoop session cmds = r at hdata hsame hauth
    have hid : (session.patch p).identity = session.identity ∨ r.authenticated ≠ none →
        (r.session.patch p).identity = r.session.identity := by
      intro h
      rw [hsame.identity, ← h.resolve_right (by simp [hauth])]
      rfl
    by_cases hgoes : r.goesOn = true
    · rw [if_pos hgoes, if_pos (show (r.patch p).goesOn = true from hgoes)]
      exact ⟨p, rfl, hid, nofun⟩
    · rw [if_neg hgoes, if_neg (show ¬ (r.patch p).goesOn = true from hgoes)]
      refine ⟨p, rfl, hid, fun h => ?_⟩
      have hstate' : r.session.hostState = session.hostState := congrArg SessionData.hostState hdata
      rw [hstate', hmethods] at h
      cases h
  case h_2 hauth =>
    obtain ⟨p', heq, hid⟩ := vsRespondUserauthLoop_patch env session p cmds
    have hdata := vsRespondUserauthLoop_data env session cmds
    rw [heq]
    generalize vsRespondUserauthLoop env session cmds = r at hid hdata
    by_cases hgoes : r.goesOn = true
    · rw [if_pos hgoes, if_pos (show (r.patch p').goesOn = true from hgoes)]
      exact ⟨p', rfl, hid, nofun⟩
    · rw [if_neg hgoes, if_neg (show ¬ (r.patch p').goesOn = true from hgoes)]
      refine ⟨p', rfl, hid, fun h => ?_⟩
      have hstate' : r.session.hostState = session.hostState := congrArg SessionData.hostState hdata
      have h' : r.session.hostState = .negotiateNewhost := h
      rw [hstate', hauth] at h'
      cases h'
  case h_3 hded => exact vsNegotiateTokenDedLoop_patch env session p cmds hded
  case h_4 hnew =>
    have hloop : vsNegotiateNewhostLoop (session.patch p) cmds =
        vsNegotiateNewhostLoop session cmds := by
      unfold vsNegotiateNewhostLoop
      have hurl' : (session.patch p).hostUrl = session.hostUrl := hurl hnew
      rw [hurl']
    have hid : ∀ r : HandshakeResult, r.authenticated = none →
        (session.patch p).identity = session.identity ∨ r.authenticated ≠ none →
        (session.patch p).identity = session.identity := by
      intro r hnone h
      exact h.resolve_right (by simp [hnone])
    rw [hloop]
    split
    · split
      case isTrue hudp =>
        rw [if_pos (show hasFlag (session.patch p).flags vrsTpUdp = true from hudp)]
        exact ⟨p, rfl, hid _ rfl, hurl⟩
      case isFalse hudp =>
        rw [if_neg (show ¬ hasFlag (session.patch p).flags vrsTpUdp = true from hudp)]
        split
        case isTrue hopen =>
          rw [if_pos (show hasFlag (session.patch p).flags vrsTpTcp = true ∨
            hasFlag (session.patch p).flags vrsTpWebsocket = true from hopen)]
          exact ⟨p, rfl, hid _ rfl, nofun⟩
        case isFalse hopen =>
          rw [if_neg (show ¬ (hasFlag (session.patch p).flags vrsTpTcp = true ∨
            hasFlag (session.patch p).flags vrsTpWebsocket = true) from hopen)]
          exact ⟨p, rfl, hid _ rfl, hurl⟩
    · exact ⟨p, rfl, hid _ rfl, hurl⟩
  case h_5 =>
    refine ⟨p, rfl, fun h => ?_, hurl⟩
    simpa using h

/-! ## Slots that are alike -/

/-- What may differ between slots that are alike: the fields that are set before they
are used, the kind of the last connection, and what is remembered of it. -/
structure SlotLeftover where
  left : Leftover
  websocket : Bool
  auth : Option Identity
  udpStarted : Bool
  tokenLeft : Bool

/-- The slot with other values there. -/
def Slot.patch (slot : Slot) (p : SlotLeftover) : Slot :=
  { slot with
    session := slot.session.patch p.left
    websocket := p.websocket
    auth := p.auth
    udpStarted := p.udpStarted
    tokenLeft := p.tokenLeft }

/-- The user of the session can be used: there is a token that can be confirmed, or
the data connection is negotiated. -/
def Slot.Known (slot : Slot) : Prop :=
  slot.session.peerToken ≠ none ∨ slot.session.hostState.behindGate ∨ slot.udpState ≠ .closed

/-- The values agree where they can be used. -/
structure SlotLeftover.Fits (p : SlotLeftover) (slot : Slot) : Prop where
  websocket : slot.session.hostState ≠ .listen → p.websocket = slot.websocket
  identity : slot.Known → (slot.session.patch p.left).identity = slot.session.identity
  hostUrl : slot.session.hostState = .negotiateNewhost → p.left.hostUrl = slot.session.hostUrl

/-- The slots differ only in what cannot be used. -/
def Slot.Alike (slot slot' : Slot) : Prop := ∃ p : SlotLeftover, p.Fits slot ∧ slot' = slot.patch p

/-- The event is neither a message of the handshake nor the begin or the end of a
connection, and the user is not looked at. -/
def Slot.Calm (slot : Slot) : SlotEvent → Prop
  | .accept _ | .tearDown _ | .handle => False
  | .message _ _ _ => slot.session.hostState = .streamOpen ∧ slot.served = true
  | _ => True

theorem Slot.served_patch {p : SlotLeftover} (hws : p.websocket = slot.websocket) :
    (slot.patch p).served = slot.served := by
  have hws' : (slot.patch p).websocket = slot.websocket := hws
  rw [Slot.served, hws']
  rfl

/-- A message in the state STREAM_OPEN. -/
theorem Slot.streamMessage_patch {p : SlotLeftover} (hws : p.websocket = slot.websocket) :
    (slot.patch p).streamMessage buf bufSize =
      (slot.streamMessage buf bufSize).map fun r => (r.1.patch p, r.2) := by
  have hmsg : vStreamHandleMessages (slot.patch p).session buf bufSize =
      (vStreamHandleMessages slot.session buf bufSize).map (Option.map (·.patch p.left)) :=
    vStreamHandleMessages_patch slot.session p.left buf bufSize
  have hfail : (slot.patch p).failState = slot.failState := by
    have hws' : (slot.patch p).websocket = slot.websocket := hws
    rw [Slot.failState, hws']
    rfl
  rw [Slot.streamMessage, Slot.streamMessage, hmsg, hfail]
  rcases vStreamHandleMessages slot.session buf bufSize with _ | _ | session'
  · rfl
  · rfl
  · rfl

/-- A message that is sent in the state STREAM_OPEN. -/
theorem Slot.pack_patch {p : SlotLeftover} (hws : p.websocket = slot.websocket) (takes : ℕ → ℕ) :
    (slot.patch p).step (.pack takes) =
      (slot.step (.pack takes)).map fun r => (r.1.patch p, r.2) := by
  have hstate : (slot.patch p).session.hostState = slot.session.hostState := rfl
  have hmsg : vStreamPackMessage (slot.patch p).session takes =
      (vStreamPackMessage slot.session takes).map fun r => (r.1.patch p.left, r.2) :=
    vStreamPackMessage_patch slot.session p.left takes
  simp only [Slot.step, hstate, Slot.served_patch hws, hmsg]
  split
  case isFalse => rfl
  case isTrue =>
    rcases vStreamPackMessage slot.session takes with _ | ⟨session', _ | m⟩
    · rfl
    · rfl
    · rfl

/-- A calm step does not look at the values. -/
theorem Slot.step_patch {p : SlotLeftover} {e : SlotEvent} (hcalm : slot.Calm e)
    (hws : slot.session.hostState ≠ .listen → p.websocket = slot.websocket) :
    (slot.patch p).step e = (slot.step e).map fun r => (r.1.patch p, r.2) := by
  have hstate : (slot.patch p).session.hostState = slot.session.hostState := rfl
  have hpatch : (slot.patch p).websocket = p.websocket := rfl
  cases e with
  | accept websocket => exact hcalm.elim
  | tearDown avatarFound => exact hcalm.elim
  | handle => exact hcalm.elim
  | message env buf bufSize =>
      obtain ⟨hopen, hserved⟩ := hcalm
      have hws' := hws (by simp [hopen])
      simp only [Slot.step, hstate, hopen, Slot.served_patch hws', hserved, if_true]
      exact Slot.streamMessage_patch hws'
  | pack takes =>
      by_cases hlisten : slot.session.hostState = .listen
      · simp [Slot.step, hstate, hlisten]
      · exact Slot.pack_patch (hws hlisten) takes
  | closeFrame =>
      by_cases hlisten : slot.session.hostState = .listen
      · simp only [Slot.step, hstate, hpatch, hlisten]
        cases p.websocket <;> cases slot.websocket <;> rfl
      · obtain ⟨left, websocket, auth, udpStarted, tokenLeft⟩ := p
        obtain rfl : websocket = slot.websocket := hws hlisten
        simp only [Slot.step, hstate, hpatch]
        split <;> rfl
  | stop =>
      by_cases hlisten : slot.session.hostState = .listen
      · simp only [Slot.step, hstate, hpatch, hlisten]
        cases p.websocket <;> cases slot.websocket <;> rfl
      · obtain ⟨left, websocket, auth, udpStarted, tokenLeft⟩ := p
        obtain rfl : websocket = slot.websocket := hws hlisten
        simp only [Slot.step, hstate, hpatch]
        split <;> rfl
  | hangUp =>
      simp only [Slot.step, hstate]
      split <;> rfl
  | udpOpen =>
      have hguard : (slot.patch p).udpRunning = slot.udpRunning ∧
          (slot.patch p).udpState = slot.udpState := ⟨rfl, rfl⟩
      simp only [Slot.step, hguard]
      split <;> rfl
  | udpReceive sysCmds cmds =>
      have hguard : (slot.patch p).udpRunning = slot.udpRunning ∧
          (slot.patch p).udpState = slot.udpState := ⟨rfl, rfl⟩
      have hfps : sysCmds.foldl negotiateFps (slot.patch p).session =
          (sysCmds.foldl negotiateFps slot.session).patch p.left :=
        negotiateFps_foldl_patch sysCmds slot.session p.left
      simp only [Slot.step, hguard, hfps]
      split
      · rw [Option.map_map]
        rfl
      · rfl
  | udpSend takes =>
      have hguard : (slot.patch p).udpRunning = slot.udpRunning ∧
          (slot.patch p).udpState = slot.udpState := ⟨rfl, rfl⟩
      have hfps : negotiateFpsCmds (slot.patch p).session = negotiateFpsCmds slot.session := rfl
      simp only [Slot.step, hguard, hfps]
      split <;> rfl
  | udpAck i =>
      have hguard : (slot.patch p).udpRunning = slot.udpRunning ∧
          (slot.patch p).udpState = slot.udpState ∧ (slot.patch p).history = slot.history :=
        ⟨rfl, rfl, rfl⟩
      have hack : ∀ cmd, pushFakeAck (slot.patch p).session cmd =
          (pushFakeAck slot.session cmd).map (·.patch p.left) :=
        pushFakeAck_patch slot.session p.left
      simp only [Slot.step, hguard, hack]
      split
      · split
        · rfl
        · rw [Option.map_map, Option.map_map]
          rfl
      · rfl
  | udpNak i =>
      have hguard : (slot.patch p).udpRunning = slot.udpRunning ∧
          (slot.patch p).udpState = slot.udpState ∧ (slot.patch p).history = slot.history ∧
          (slot.patch p).session.outQueue = slot.session.outQueue := ⟨rfl, rfl, rfl, rfl⟩
      simp only [Slot.step, hguard]
      split
      · split
        · rfl
        · rw [Option.map_map]
          rfl
      · rfl
  | udpEnd =>
      have hguard : (slot.patch p).udpRunning = slot.udpRunning := rfl
      simp only [Slot.step, hguard]
      split <;> rfl
  | push prio cmd =>
      have hguard : (slot.patch p).opened = slot.opened ∧
          (slot.patch p).session.outQueue = slot.session.outQueue := ⟨rfl, rfl⟩
      simp only [Slot.step, hguard]
      split
      · rw [Option.map_map]
        rfl
      · rfl

/-- A calm step is one outside of the handshake. -/
theorem Slot.dataStep_of_calm {e : SlotEvent} {o : SlotOutput} (hcalm : slot.Calm e)
    (h : slot.step e = some (slot', o)) : slot.DataStep slot' := by
  cases Slot.step_cases h with
  | accept websocket => exact hcalm.elim
  | tearDown avatarFound => exact hcalm.elim
  | handshake env buf bufSize _ hopen => exact absurd hcalm hopen
  | data _ hdata => exact hdata

/-! ## The simulation -/

/-- After such a step the user can only be used if it could be used before. -/
theorem Slot.DataStep.known (h : slot.DataStep slot') (hknown : slot'.Known) : slot.Known := by
  rcases hknown with htoken | hgate | hudp
  · have heq : slot'.session.peerToken = slot.session.peerToken :=
      congrArg HandshakeFields.peerToken h.fields
    exact Or.inl (heq ▸ htoken)
  · refine Or.inr (Or.inl ?_)
    rcases h.state with heq | ⟨-, heq | heq⟩
    · rw [← heq]
      exact hgate
    · simp [heq, TcpServerState.behindGate] at hgate
    · simp [heq, TcpServerState.behindGate] at hgate
  · refine Or.inr (Or.inr ?_)
    cases h.udp with
    | same _ hstate => exact hstate ▸ hudp
    | opens _ _ hstate => simp [hstate]
    | ends _ hstate => exact absurd hstate hudp

/-- After such a step the values still fit. -/
theorem SlotLeftover.Fits.dataStep {p : SlotLeftover} (hfits : p.Fits slot)
    (h : slot.DataStep slot') : p.Fits slot' where
  websocket hlisten := by
    rw [h.websocket]
    apply hfits.websocket
    rcases h.state with heq | ⟨hne, -⟩
    · exact heq ▸ hlisten
    · exact hne
  identity hknown := by
    have hid : slot'.session.identity = slot.session.identity :=
      congrArg HandshakeFields.identity h.fields
    rw [hid, ← hfits.identity (h.known hknown)]
    rfl
  hostUrl hnew := by
    have hurl : slot'.session.hostUrl = slot.session.hostUrl :=
      congrArg HandshakeFields.hostUrl h.fields
    rw [hurl]
    apply hfits.hostUrl
    rcases h.state with heq | ⟨-, heq | heq⟩
    · exact heq ▸ hnew
    · simp [heq] at hnew
    · simp [heq] at hnew

/-- What both slots do in a step, as in `StepsAgree`. -/
def Slot.AgreeOn (slot slot₂ : Slot) (e : SlotEvent) : Prop :=
  (slot.step e = none ∧ slot₂.step e = none) ∨
    ∃ s s₂ o, slot.step e = some (s, o) ∧ slot₂.step e = some (s₂, o) ∧ s.Alike s₂

theorem Slot.agreeOn_calm {p : SlotLeftover} {e : SlotEvent} (hfits : p.Fits slot)
    (hcalm : slot.Calm e) : slot.AgreeOn (slot.patch p) e := by
  have hpatch := Slot.step_patch hcalm hfits.websocket
  cases hstep : slot.step e with
  | none =>
      rw [hstep] at hpatch
      exact Or.inl ⟨hstep, hpatch⟩
  | some r =>
      obtain ⟨slot', o⟩ := r
      rw [hstep] at hpatch
      exact Or.inr ⟨slot', slot'.patch p, o, hstep, hpatch, p,
        hfits.dataStep (Slot.dataStep_of_calm hcalm hstep), rfl⟩

theorem Slot.agreeOn_handle {p : SlotLeftover} (hfits : p.Fits slot) :
    slot.AgreeOn (slot.patch p) .handle := by
  by_cases hopen : slot.udpState = .open ∨ slot.session.hostState = .streamOpen
  · have hknown : slot.Known := by
      rcases hopen with hudp | hstate
      · exact Or.inr (Or.inr (by simp [hudp]))
      · exact Or.inr (Or.inl (Or.inr hstate))
    have hid : (slot.patch p).session.identity = slot.session.identity := hfits.identity hknown
    have hstep : slot.step .handle =
        some ({ slot with session := { slot.session with inQueue := [] } },
          .handled slot.session.identity slot.session.inQueue) := by
      simp only [Slot.step, if_pos hopen]
    have hstep₂ : (slot.patch p).step .handle =
        some ({ slot.patch p with session := { (slot.patch p).session with inQueue := [] } },
          .handled slot.session.identity slot.session.inQueue) := by
      have hopen' : (slot.patch p).udpState = .open ∨
          (slot.patch p).session.hostState = .streamOpen := hopen
      simp only [Slot.step, if_pos hopen', hid]
      rfl
    have hdata : slot.DataStep { slot with session := { slot.session with inQueue := [] } } :=
      .of_session rfl (Or.inl rfl) (hopen.symm.imp_right Or.inl)
    exact Or.inr ⟨_, _, _, hstep, hstep₂, p, hfits.dataStep hdata, rfl⟩
  · have hopen' : ¬ ((slot.patch p).udpState = .open ∨
        (slot.patch p).session.hostState = .streamOpen) := hopen
    exact Or.inl ⟨by simp only [Slot.step, if_neg hopen], by simp only [Slot.step, if_neg hopen']⟩

theorem Slot.agreeOn_accept {p : SlotLeftover} (hfits : p.Fits slot) (websocket : Bool) :
    slot.AgreeOn (slot.patch p) (.accept websocket) := by
  have hstate : (slot.patch p).session.hostState = slot.session.hostState := rfl
  by_cases hlisten : slot.session.hostState = .listen
  · refine Or.inr ⟨slot.accepted websocket, (slot.patch p).accepted websocket, .nothing,
      by simp only [Slot.step, if_pos hlisten], by simp only [Slot.step, hstate, if_pos hlisten],
      ⟨p.left, websocket, none, false, slot.session.peerToken.isSome⟩, ⟨fun _ => rfl, ?_, ?_⟩, rfl⟩
    · intro hknown
      refine hfits.identity ?_
      rcases hknown with htoken | hgate | hudp
      · exact Or.inl htoken
      · simp [Slot.accepted, TcpServerState.behindGate] at hgate
      · exact Or.inr (Or.inr hudp)
    · simp [Slot.accepted]
  · exact Or.inl ⟨by simp only [Slot.step, if_neg hlisten],
      by simp only [Slot.step, hstate, if_neg hlisten]⟩

/-- The end of a connection changes the avatar id at most. -/
theorem Slot.tornDown_patch {p : SlotLeftover} (hws : p.websocket = slot.websocket)
    (avatarFound : Bool) :
    (slot.patch p).tornDown avatarFound =
      (slot.tornDown avatarFound).patch
        ⟨{ p.left with avatarId := if avatarFound then p.left.avatarId else 0xFFFFFFFF },
          slot.websocket, p.auth, false, p.tokenLeft⟩ := by
  obtain ⟨left, websocket, auth, udpStarted, tokenLeft⟩ := p
  obtain rfl : websocket = slot.websocket := hws
  have hcleaned : (slot.patch ⟨left, slot.websocket, auth, udpStarted, tokenLeft⟩).cleaned
      avatarFound = (slot.cleaned avatarFound).patch
        { left with avatarId := if avatarFound then left.avatarId else 0xFFFFFFFF } := by
    unfold Slot.cleaned
    dsimp only
    change (if slot.websocket = true then _ else _) = _
    split <;> rfl
  rw [Slot.tornDown, hcleaned]
  rfl

/-- At the end of a connection the token is left or reset. -/
theorem Slot.known_of_tornDown {avatarFound : Bool} (h : (slot.tornDown avatarFound).Known) :
    slot.Known := by
  rcases h with htoken | hgate | hudp
  · left
    intro hnone
    apply htoken
    simp only [Slot.tornDown, Slot.cleaned]
    split
    · exact hnone
    · rfl
  · simp [slot.tornDown_hostState avatarFound, TcpServerState.behindGate] at hgate
  · exact Or.inr (Or.inr hudp)

theorem Slot.agreeOn_tearDown {p : SlotLeftover} (hfits : p.Fits slot) (avatarFound : Bool) :
    slot.AgreeOn (slot.patch p) (.tearDown avatarFound) := by
  have hstate : (slot.patch p).session.hostState = slot.session.hostState := rfl
  have hrunning : (slot.patch p).udpRunning = slot.udpRunning := rfl
  by_cases hclosed : slot.session.hostState = .closed
  · have hws := hfits.websocket (by simp [hclosed])
    have hws' : (slot.patch p).websocket = slot.websocket := hws
    by_cases hwait : slot.websocket = true ∨ slot.udpRunning = false
    · refine Or.inr ⟨slot.tornDown avatarFound, (slot.patch p).tornDown avatarFound, .nothing,
        by simp only [Slot.step, if_pos (And.intro hclosed hwait)],
        by simp only [Slot.step, hstate, hrunning, hws', if_pos (And.intro hclosed hwait)],
        _, ⟨fun _ => rfl, fun hknown => ?_, fun hnew => ?_⟩, Slot.tornDown_patch hws avatarFound⟩
      · have hid := hfits.identity (Slot.known_of_tornDown hknown)
        simp only [VSession.identity, VSession.patch, Prod.mk.injEq] at hid
        obtain ⟨huser, hptr, havatar⟩ := hid
        simp only [Slot.tornDown, Slot.cleaned]
        split <;> simp [VSession.identity, VSession.patch, huser, hptr, havatar]
      · simp only [Slot.tornDown, Slot.cleaned] at hnew
        split at hnew <;> cases hnew
    · exact Or.inl ⟨by simp only [Slot.step, hwait, and_false, if_false],
        by simp only [Slot.step, hrunning, hws', hwait, and_false, if_false]⟩
  · exact Or.inl ⟨by simp only [Slot.step, hclosed, false_and, if_false],
      by simp only [Slot.step, hstate, hclosed, false_and, if_false]⟩

/-- The user can be used after a message of the handshake only if it could be used
before, or was authenticated by it. -/
theorem Slot.known_of_handshake {r : HandshakeResult}
    (hr : vsHandleHandshake env slot.session buf bufSize = r)
    (hknown : slot'.Known) (htoken : slot'.session.peerToken = r.session.peerToken)
    (hgate : slot'.session.hostState.behindGate →
      r.goesOn = true ∧ r.session.hostState.behindGate)
    (hudp : slot'.udpState ≠ .closed → r.udpStarted = true ∨ slot.udpState ≠ .closed) :
    slot.Known ∨ r.authenticated ≠ none := by
  have hspec := vsHandleHandshake_spec env slot.session buf bufSize
  rw [hr] at hspec
  cases hspec with
  | authenticated who hwho => exact Or.inr (by simp [hwho])
  | confirmed _ _ _ hconf =>
      obtain ⟨cmd, -, token, -, hpeer⟩ := hconf
      exact Or.inl (Or.inl (by simp [hpeer]))
  | other _ hsame hstarted hstate =>
      left
      rcases hknown with htoken' | hgate' | hudp'
      · exact Or.inl (hsame.peerToken ▸ htoken ▸ htoken')
      · obtain ⟨hgoes, hbehind⟩ := hgate hgate'
        exact Or.inr (Or.inl (hstate hgoes hbehind))
      · rcases hudp hudp' with h | h
        · rw [hstarted] at h
          cases h
        · exact Or.inr (Or.inr h)

/-- A message of the handshake. -/
theorem Slot.handshakeMessage_alike (env : ServerEnv) (buf : Mem) (bufSize : ℕ) {p : SlotLeftover}
    (hfits : p.Fits slot) (hlisten : slot.session.hostState ≠ .listen) :
    (slot.handshakeMessage env buf bufSize).1.Alike
        ((slot.patch p).handshakeMessage env buf bufSize).1 ∧
      (slot.handshakeMessage env buf bufSize).2 =
        ((slot.patch p).handshakeMessage env buf bufSize).2 := by
  have hws := hfits.websocket hlisten
  have hfail : (slot.patch p).failState = slot.failState := by
    have hws' : (slot.patch p).websocket = slot.websocket := hws
    rw [Slot.failState, hws']
    rfl
  obtain ⟨p', heq, hid, hurl⟩ :=
    vsHandleHandshake_patch env slot.session p.left buf bufSize hfits.hostUrl
  have heq' : vsHandleHandshake env (slot.patch p).session buf bufSize = _ := heq
  generalize hr : vsHandleHandshake env slot.session buf bufSize = r at heq heq' hid hurl
  have hident : slot.Known ∨ r.authenticated ≠ none →
      (r.session.patch p').identity = r.session.identity :=
    fun h => hid (h.imp_left hfits.identity)
  unfold Slot.handshakeMessage
  rw [hr, heq']
  by_cases hgoes : r.goesOn = true
  · rw [if_pos hgoes, if_pos (show (r.patch p').goesOn = true from hgoes)]
    refine ⟨⟨⟨p', p.websocket, if r.authenticated = none then p.auth else r.authenticated,
      p.udpStarted || r.udpStarted, p.tokenLeft && decide (r.authenticated = none)⟩,
      ⟨fun _ => hws, fun hknown => hident ?_, hurl⟩, rfl⟩, rfl⟩
    refine Slot.known_of_handshake hr hknown rfl (fun h => ⟨hgoes, h⟩) fun h => ?_
    by_cases hstarted : r.udpStarted = true
    · exact Or.inl hstarted
    · exact Or.inr (by simpa [hstarted] using h)
  · rw [if_neg hgoes, if_neg (show ¬ (r.patch p').goesOn = true from hgoes), hfail]
    have hstate : (slot.patch p).session.hostState = slot.session.hostState := rfl
    have hnew : (slot.session.hostState = .negotiateNewhost ∧ verseMessageHeaderSize ≤ bufSize ∧
          ¬ vsNegotiateNewhostLoop (slot.patch p).session (receivedSysCmds buf bufSize).2) ↔
        (slot.session.hostState = .negotiateNewhost ∧ verseMessageHeaderSize ≤ bufSize ∧
          ¬ vsNegotiateNewhostLoop slot.session (receivedSysCmds buf bufSize).2) := by
      apply and_congr_right
      intro hnew
      have hurl' : (slot.patch p).session.hostUrl = slot.session.hostUrl := hfits.hostUrl hnew
      rw [vsNegotiateNewhostLoop, hurl']
      rfl
    refine ⟨⟨⟨p', p.websocket, p.auth, p.udpStarted, p.tokenLeft⟩,
      ⟨fun _ => hws, fun hknown => hident ?_, fun h => ?_⟩, ?_⟩, rfl⟩
    · refine Slot.known_of_handshake hr hknown rfl (fun h => ?_) Or.inr
      simp only [Slot.failState] at h
      split at h <;> simp [TcpServerState.behindGate] at h
    · simp only [Slot.failState] at h
      split at h <;> cases h
    · simp only [hstate, hnew]
      rfl

/-- **Simulation.**  The same event does the same to slots that are alike. -/
theorem Slot.alike_steps : StepsAgree Slot.Alike Slot.step Slot.step := by
  rintro slot _ ⟨p, hfits, rfl⟩ e
  have hstate : (slot.patch p).session.hostState = slot.session.hostState := rfl
  have hhandshake : ∀ env buf bufSize, slot.session.hostState ≠ .listen →
      slot.step (.message env buf bufSize) = some (slot.handshakeMessage env buf bufSize) →
      (slot.patch p).step (.message env buf bufSize) =
        some ((slot.patch p).handshakeMessage env buf bufSize) →
      slot.AgreeOn (slot.patch p) (.message env buf bufSize) := by
    intro env buf bufSize hlisten hstep hstep₂
    obtain ⟨halike, hout⟩ := Slot.handshakeMessage_alike env buf bufSize hfits hlisten
    refine Or.inr ⟨(slot.handshakeMessage env buf bufSize).1,
      ((slot.patch p).handshakeMessage env buf bufSize).1,
      (slot.handshakeMessage env buf bufSize).2, hstep, ?_, halike⟩
    rw [hstep₂, hout]
  cases e with
  | accept websocket => exact Slot.agreeOn_accept hfits websocket
  | tearDown avatarFound => exact Slot.agreeOn_tearDown hfits avatarFound
  | handle => exact Slot.agreeOn_handle hfits
  | message env buf bufSize =>
      cases hs : slot.session.hostState with
      | listen => exact Or.inl ⟨by simp only [Slot.step, hs], by simp only [Slot.step, hstate, hs]⟩
      | closed => exact Or.inl ⟨by simp only [Slot.step, hs], by simp only [Slot.step, hstate, hs]⟩
      | streamOpen =>
          cases hserved : slot.served with
          | true => exact Slot.agreeOn_calm hfits ⟨hs, hserved⟩
          | false =>
              have hserved' := Slot.served_patch (hfits.websocket (by simp [hs]))
              exact hhandshake env buf bufSize (by simp [hs])
                (by simp [Slot.step, hs, hserved]) (by simp [Slot.step, hstate, hs, hserved', hserved])
      | _ =>
          exact hhandshake env buf bufSize (by simp [hs]) (by simp only [Slot.step, hs])
            (by simp only [Slot.step, hstate, hs])
  | _ => exact Slot.agreeOn_calm hfits trivial

end Verse
