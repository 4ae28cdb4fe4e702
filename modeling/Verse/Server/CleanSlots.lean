import Verse.Server.SlotReuse

/-!
# Session slots that were left clean

A slot whose connections were all torn down with nothing left (`Slot.ClosesClean`) is
like a slot that was not used yet.  `Slot.CleanInv` is the invariant: as long as
nothing was opened the queues and FPS have their first values, nobody failed to
authenticate before the connection is closed, and in the state LISTEN the token and
the name of the client are unset.  The data connection is negotiated at most once in
a connection (`HandshakeMove`), so that the slot is still unused when it opens.
-/

namespace Verse

open Lib

variable {slot slot' : Slot} {session session' : VSession} {env : ServerEnv} {buf : Mem}
  {bufSize : ℕ}

/-! ## Slots that were left clean -/

/-- The states before the data connection is negotiated. -/
def TcpServerState.early (state : TcpServerState) : Prop :=
  state = .listen ∨ state = .respondMethods ∨ state = .respondUsrauth ∨ state = .negotiateTokenDed

/-- How a message of the handshake moves the state. -/
inductive HandshakeMove (session : VSession) (r : HandshakeResult) : Prop
  | early (hstate : session.hostState.early) (hstate' : r.session.hostState.early)
      (hlisten : r.session.hostState ≠ .listen) (hudp : r.udpStarted = false)
  | opens (hstate : session.hostState = .negotiateTokenDed ∨
        session.hostState = .negotiateNewhost ∧ hasFlag session.flags vrsTpUdp = false)
      (hstate' : r.session.hostState = .streamOpen) (hudp : r.udpStarted = false)
  | newHost (hstate : session.hostState = .negotiateTokenDed)
      (hstate' : r.session.hostState = .negotiateNewhost)
      (hudp : r.udpStarted = true → hasFlag r.session.flags vrsTpUdp = true)
  | stays (hsession : r.session = session) (hudp : r.udpStarted = false)

/-- What is not touched by the handshake: the queues, FPS and the flags. -/
structure VSession.SameQueues (session session' : VSession) : Prop where
  outQueue : session'.outQueue = session.outQueue
  inQueue : session'.inQueue = session.inQueue
  fpsHost : session'.fpsHost = session.fpsHost
  fpsPeer : session'.fpsPeer = session.fpsPeer
  tmpFlags : session'.tmpFlags = session.tmpFlags

theorem VSession.SameQueues.of_data (h : session'.data = session.data) :
    session.SameQueues session' :=
  ⟨congrArg SessionData.outQueue h, congrArg SessionData.inQueue h,
    congrArg SessionData.fpsHost h, congrArg SessionData.fpsPeer h,
    congrArg SessionData.tmpFlags h⟩

theorem vsNegotiateTokenDedLoop_move (env : ServerEnv) (session : VSession)
    (cmds : List MessageCmd) (hstate : session.hostState = .negotiateTokenDed) :
    session.SameQueues (vsNegotiateTokenDedLoop env session cmds).session ∧
      ((vsNegotiateTokenDedLoop env session cmds).goesOn = true →
        (vsNegotiateTokenDedLoop env session cmds).session.usrAuthAtt = session.usrAuthAtt ∧
          HandshakeMove session (vsNegotiateTokenDedLoop env session cmds)) := by
  have hdata := tokenDedCmds_data env session cmds
  unfold vsNegotiateTokenDedLoop
  generalize tokenDedCmds env session cmds = t at hdata
  obtain ⟨hout, hin, hfpsHost, hfpsPeer, htmp⟩ := VSession.SameQueues.of_data hdata
  have hatt : t.session.usrAuthAtt = session.usrAuthAtt := congrArg SessionData.usrAuthAtt hdata
  dsimp only
  split
  · split
    · exact ⟨⟨hout, hin, hfpsHost, hfpsPeer, htmp⟩,
        fun _ => ⟨hatt, .opens (Or.inl hstate) rfl rfl⟩⟩
    split
    · exact ⟨⟨hout, hin, hfpsHost, hfpsPeer, htmp⟩, nofun⟩
    · exact ⟨⟨hout, hin, hfpsHost, hfpsPeer, htmp⟩, fun _ => ⟨hatt, .newHost hstate rfl id⟩⟩
  · exact ⟨⟨hout, hin, hfpsHost, hfpsPeer, htmp⟩, nofun⟩

/-- **The handshake** leaves the queues alone, and moves the state step by step. -/
theorem vsHandleHandshake_move (env : ServerEnv) (session : VSession) (buf : Mem) (bufSize : ℕ) :
    session.SameQueues (vsHandleHandshake env session buf bufSize).session ∧
      ((vsHandleHandshake env session buf bufSize).goesOn = true →
        (vsHandleHandshake env session buf bufSize).session.usrAuthAtt = session.usrAuthAtt ∧
          HandshakeMove session (vsHandleHandshake env session buf bufSize)) := by
  have hrefl : session.SameQueues session := ⟨rfl, rfl, rfl, rfl, rfl⟩
  unfold vsHandleHandshake
  generalize (receivedSysCmds buf bufSize).2 = cmds
  split
  · exact ⟨hrefl, nofun⟩
  dsimp only
  split
  case h_1 hstate =>
    have hdata := vsRespondMethodsLoop_data session cmds
    obtain ⟨-, -, hudp⟩ := vsRespondMethodsLoop_spec session cmds
    generalize vsRespondMethodsLoop session cmds = r at hdata hudp
    obtain ⟨hout, hin, hfpsHost, hfpsPeer, htmp⟩ := VSession.SameQueues.of_data hdata
    split
    · refine ⟨⟨hout, hin, hfpsHost, hfpsPeer, htmp⟩, fun _ => ⟨?_, ?_⟩⟩
      · exact congrArg SessionData.usrAuthAtt hdata
      · exact .early (Or.inr (Or.inl hstate)) (Or.inr (Or.inr (Or.inl rfl))) nofun hudp
    case isFalse hgoes =>
      exact ⟨⟨hout, hin, hfpsHost, hfpsPeer, htmp⟩, fun h => absurd h hgoes⟩
  case h_2 hstate =>
    have hdata := vsRespondUserauthLoop_data env session cmds
    have hudp : (vsRespondUserauthLoop env session cmds).udpStarted = false := by
      rcases vsRespondUserauthLoop_cases env session cmds with ⟨_, _, _, _, h⟩ | ⟨_, _, h⟩
      · exact h
      · exact h
    generalize vsRespondUserauthLoop env session cmds = r at hdata hudp
    obtain ⟨hout, hin, hfpsHost, hfpsPeer, htmp⟩ := VSession.SameQueues.of_data hdata
    split
    · refine ⟨⟨hout, hin, hfpsHost, hfpsPeer, htmp⟩, fun _ => ⟨?_, ?_⟩⟩
      · exact congrArg SessionData.usrAuthAtt hdata
      · exact .early (Or.inr (Or.inr (Or.inl hstate))) (Or.inr (Or.inr (Or.inr rfl))) nofun hudp
    · refine ⟨⟨hout, hin, hfpsHost, hfpsPeer, htmp⟩, fun h => ?_⟩
      simp [maxUserAuthAttempts] at h
  case h_3 hstate => exact vsNegotiateTokenDedLoop_move env session cmds hstate
  case h_4 hstate =>
    split
    · split
      · exact ⟨hrefl, nofun⟩
      case isFalse hudp =>
        split
        · refine ⟨⟨rfl, rfl, rfl, rfl, rfl⟩, fun _ => ⟨rfl, .opens (Or.inr ⟨hstate, ?_⟩) rfl rfl⟩⟩
          simpa using hudp
        · exact ⟨hrefl, fun _ => ⟨rfl, .stays rfl rfl⟩⟩
    · exact ⟨hrefl, nofun⟩
  case h_5 => exact ⟨hrefl, fun _ => ⟨rfl, .stays rfl rfl⟩⟩

/-- Nothing is left when the connection is torn down: the queues are empty, FPS and
the flags have their first values, nobody failed to authenticate, no datagram
connection is left, and after a WebSocket connection there is no token. -/
def Slot.ClosesClean (slot : Slot) : SlotEvent → Prop
  | .tearDown _ =>
      slot.Unused ∧ slot.session.usrAuthAtt = 0 ∧ slot.udpRunning = false ∧
        slot.udpState = .closed ∧
        (slot.websocket = true → slot.session.peerToken = none ∧ slot.session.ded = none ∧
          slot.session.clientName = none ∧ slot.session.clientVersion = none)
  | _ => True

/-- The session of a slot whose connections were left clean. -/
structure Slot.CleanInv (slot : Slot) : Prop where
  unused : slot.opened = false → slot.Unused
  attempts : slot.session.hostState ≠ .closing → slot.session.hostState ≠ .closed →
    slot.session.usrAuthAtt = 0
  opened : slot.session.hostState = .streamOpen ∨ slot.udpState = .open → slot.opened = true
  early : slot.session.hostState.early →
    slot.opened = false ∧ slot.udpRunning = false ∧ slot.udpState = .closed
  newHost : slot.session.hostState = .negotiateNewhost →
    slot.opened = true ∨ slot.udpState ≠ .closed → hasFlag slot.session.flags vrsTpUdp = true
  handshake : slot.udpState = .handshake → slot.opened = false ∧ slot.session.usrAuthAtt = 0
  listen : slot.session.hostState = .listen → slot.session.peerToken = none ∧
    slot.session.ded = none ∧ slot.session.clientName = none ∧ slot.session.clientVersion = none ∧
    slot.session.flags = 0

theorem Slot.cleanInv_init : Slot.init.CleanInv where
  unused _ := ⟨fun _ => rfl, rfl, rfl, rfl, rfl, rfl⟩
  attempts _ _ := rfl
  opened h := by simp [Slot.init, vInitSession] at h
  early _ := ⟨rfl, rfl, rfl⟩
  newHost h := by simp [Slot.init, vInitSession] at h
  handshake h := by simp [Slot.init] at h
  listen _ := ⟨rfl, rfl, rfl, rfl, rfl⟩

/-- Where the state is not closing, it is as it was. -/
theorem Slot.DataStep.sameState (h : slot.DataStep slot')
    (hne : slot'.session.hostState ≠ .closing ∧ slot'.session.hostState ≠ .closed) :
    slot'.session.hostState = slot.session.hostState := by
  rcases h.state with heq | ⟨-, heq | heq⟩
  · exact heq
  · exact absurd heq hne.1
  · exact absurd heq hne.2

theorem TcpServerState.early.not_closing {state : TcpServerState} (h : state.early) :
    state ≠ .closing ∧ state ≠ .closed := by
  rcases h with rfl | rfl | rfl | rfl <;> exact ⟨nofun, nofun⟩

theorem Slot.CleanInv.dataStep (h : slot.CleanInv) (hstep : slot.DataStep slot') :
    slot'.CleanInv := by
  have hatt : slot'.session.usrAuthAtt = slot.session.usrAuthAtt :=
    congrArg HandshakeFields.usrAuthAtt hstep.fields
  have hflags : slot'.session.flags = slot.session.flags :=
    congrArg HandshakeFields.flags hstep.fields
  have hopened : slot.opened = true → slot'.opened = true := by
    intro hopen
    cases hstep.udp with
    | same _ _ heq => rw [heq, hopen]
    | opens _ _ _ _ heq => exact heq
    | ends _ _ heq => rw [heq, hopen]
  refine ⟨fun hopen => ?_, fun hclosing hclosed => ?_, fun hopen => ?_, fun hearly => ?_,
    fun hnew hudp => ?_, fun hudp => ?_, fun hlisten => ?_⟩
  · have hopen' : slot.opened = false := by
      rw [Bool.eq_false_iff]
      intro htrue
      simp [hopened htrue] at hopen
    rcases hstep.unused with hstate | hstate | htrue | hunused
    · simp [h.opened (Or.inl hstate)] at hopen'
    · simp [h.opened (Or.inr hstate)] at hopen'
    · simp [htrue] at hopen'
    · exact hunused (h.unused hopen')
  · have hstate := hstep.sameState ⟨hclosing, hclosed⟩
    rw [hstate] at hclosing hclosed
    rw [hatt]
    exact h.attempts hclosing hclosed
  · rcases hopen with hstate | hudp
    · rw [hstep.sameState (by simp [hstate])] at hstate
      exact hopened (h.opened (Or.inl hstate))
    · cases hstep.udp with
      | same _ heq => exact hopened (h.opened (Or.inr (heq ▸ hudp)))
      | opens _ _ _ _ heq => exact heq
      | ends _ heq => simp [heq] at hudp
  · rw [hstep.sameState hearly.not_closing] at hearly
    obtain ⟨hopen, hrunning, hstate⟩ := h.early hearly
    cases hstep.udp with
    | same hrunning' hstate' hopen' =>
        exact ⟨hopen'.trans hopen, hrunning'.trans hrunning, hstate'.trans hstate⟩
    | opens htrue => simp [hrunning] at htrue
    | ends hrunning' hstate' hopen' => exact ⟨hopen'.trans hopen, hrunning', hstate'⟩
  · rw [hstep.sameState (by simp [hnew])] at hnew
    rw [hflags]
    apply h.newHost hnew
    cases hstep.udp with
    | same _ hstate hopen =>
        rw [hstate, hopen] at hudp
        exact hudp
    | opens _ _ hstate => exact Or.inr (by simp [hstate])
    | ends _ hstate hopen =>
        rw [hopen] at hudp
        exact hudp.imp_right fun hne => absurd hstate hne
  · cases hstep.udp with
    | same _ hstate hopen =>
        obtain ⟨hclosed, hzero⟩ := h.handshake (hstate ▸ hudp)
        exact ⟨hopen.trans hclosed, hatt.trans hzero⟩
    | opens _ _ _ hstate => simp [hstate] at hudp
    | ends _ hstate => simp [hstate] at hudp
  · rw [hstep.sameState (by simp [hlisten])] at hlisten
    obtain ⟨htoken, hded, hname, hversion, hzero⟩ := h.listen hlisten
    exact ⟨(congrArg HandshakeFields.peerToken hstep.fields).trans htoken,
      (congrArg HandshakeFields.ded hstep.fields).trans hded,
      (congrArg HandshakeFields.clientName hstep.fields).trans hname,
      (congrArg HandshakeFields.clientVersion hstep.fields).trans hversion, hflags.trans hzero⟩

theorem Slot.CleanInv.accept (h : slot.CleanInv) (hlisten : slot.session.hostState = .listen)
    (websocket : Bool) : (slot.accepted websocket).CleanInv := by
  obtain ⟨hopen, hrunning, hstate⟩ := h.early (Or.inl hlisten)
  have hunused := h.unused hopen
  refine ⟨fun _ => ⟨hunused.1, hunused.2, hunused.3, hunused.4, hunused.5, hunused.6⟩,
    fun _ _ => h.attempts (by simp [hlisten]) (by simp [hlisten]), ?_,
    fun _ => ⟨hopen, hrunning, hstate⟩, nofun, ?_, nofun⟩
  · simp [Slot.accepted, hstate]
  · simp [Slot.accepted, hstate]

theorem Slot.CleanInv.tearDown {avatarFound : Bool}
    (hclean : slot.ClosesClean (.tearDown avatarFound)) :
    (slot.tornDown avatarFound).CleanInv := by
  obtain ⟨hunused, hatt, hrunning, hudp, hws⟩ := hclean
  have hlisten := slot.tornDown_hostState avatarFound
  have hdata : (slot.tornDown avatarFound).session.data =
      { slot.session.data with hostState := .listen, flags := 0 } := by
    simp only [Slot.tornDown, Slot.cleaned]
    split <;> rfl
  refine ⟨fun _ => ⟨fun prio => ?_, ?_, ?_, ?_, ?_, hunused.history⟩, fun _ _ => ?_, fun h => ?_,
    fun _ => ⟨?_, hrunning, hudp⟩, fun h => ?_, fun h => ?_, fun _ => ?_⟩
  · exact (congrFun (congrArg SessionData.outQueue hdata) prio).trans (hunused.outQueue prio)
  · exact (congrArg SessionData.inQueue hdata).trans hunused.inQueue
  · exact (congrArg SessionData.fpsHost hdata).trans hunused.fpsHost
  · exact (congrArg SessionData.fpsPeer hdata).trans hunused.fpsPeer
  · exact (congrArg SessionData.tmpFlags hdata).trans hunused.tmpFlags
  · exact (congrArg SessionData.usrAuthAtt hdata).trans hatt
  · simp [hlisten, show (slot.tornDown avatarFound).udpState = slot.udpState from rfl, hudp] at h
  · simp [Slot.tornDown, hudp]
  · simp [hlisten] at h
  · simp [show (slot.tornDown avatarFound).udpState = slot.udpState from rfl, hudp] at h
  · simp only [Slot.tornDown, Slot.cleaned]
    split
    case isTrue hwebsocket =>
      obtain ⟨htoken, hded, hname, hversion⟩ := hws hwebsocket
      exact ⟨htoken, hded, hname, hversion, rfl⟩
    case isFalse => exact ⟨rfl, rfl, rfl, rfl, rfl⟩

/-- Behind the early states a message does not count an attempt. -/
theorem vsHandleHandshake_attempts (env : ServerEnv) (session : VSession) (buf : Mem) (bufSize : ℕ)
    (hlate : ¬ session.hostState.early) :
    (vsHandleHandshake env session buf bufSize).session.usrAuthAtt = session.usrAuthAtt := by
  unfold vsHandleHandshake
  split
  · rfl
  dsimp only
  split
  case h_1 hstate => exact absurd (Or.inr (Or.inl hstate)) hlate
  case h_2 hstate => exact absurd (Or.inr (Or.inr (Or.inl hstate))) hlate
  case h_3 hstate => exact absurd (Or.inr (Or.inr (Or.inr hstate))) hlate
  case h_4 =>
    split
    · split
      · rfl
      · split <;> rfl
    · rfl
  case h_5 => rfl

/-- The queues are as they were. -/
theorem Slot.Unused.sameQueues (h : slot.Unused) (hsame : slot.session.SameQueues slot'.session)
    (hhistory : slot'.history = slot.history) : slot'.Unused where
  outQueue prio := (congrFun hsame.outQueue prio).trans (h.outQueue prio)
  inQueue := hsame.inQueue.trans h.inQueue
  fpsHost := hsame.fpsHost.trans h.fpsHost
  fpsPeer := hsame.fpsPeer.trans h.fpsPeer
  tmpFlags := hsame.tmpFlags.trans h.tmpFlags
  history := hhistory.trans h.history

/-- A message that is refused. -/
theorem Slot.CleanInv.refused (h : slot.CleanInv)
    (hgoes : (vsHandleHandshake env slot.session buf bufSize).goesOn = false) :
    (slot.handshakeMessage env buf bufSize).1.CleanInv := by
  obtain ⟨hsame, -⟩ := vsHandleHandshake_move env slot.session buf bufSize
  have hatt := vsHandleHandshake_attempts env slot.session buf bufSize
  rw [Slot.handshakeMessage]
  generalize vsHandleHandshake env slot.session buf bufSize = r at hsame hatt hgoes
  simp only [hgoes, Bool.false_eq_true, if_false]
  have hfail := slot.failState_cases
  have hnot : ∀ state : TcpServerState, state ≠ .closing → state ≠ .closed →
      slot.failState ≠ state := by
    intro state hclosing hclosed heq
    rcases hfail with hfail | hfail
    · exact hclosing (heq.symm.trans hfail)
    · exact hclosed (heq.symm.trans hfail)
  refine ⟨fun hopen => ?_, fun hclosing hclosed => ?_, fun hopen => ?_, fun hearly => ?_,
    fun hnew => ?_, fun hudp => ?_, fun hlisten => ?_⟩
  · exact (h.unused hopen).sameQueues ⟨hsame.1, hsame.2, hsame.3, hsame.4, hsame.5⟩ rfl
  · rcases hfail with hfail | hfail
    · exact absurd hfail hclosing
    · exact absurd hfail hclosed
  · rcases hopen with hopen | hopen
    · exact absurd hopen (hnot _ (by decide) (by decide))
    · exact h.opened (Or.inr hopen)
  · exact absurd rfl (hnot _ hearly.not_closing.1 hearly.not_closing.2)
  · exact absurd hnew (hnot _ (by decide) (by decide))
  · obtain ⟨hopen, hzero⟩ := h.handshake hudp
    refine ⟨hopen, (hatt fun hearly => ?_).trans hzero⟩
    exact UdpServerState.noConfusion ((h.early hearly).2.2.symm.trans hudp)
  · exact absurd hlisten (hnot _ (by decide) (by decide))

/-- A message after which the connection goes on. -/
theorem Slot.CleanInv.goesOn (h : slot.CleanInv)
    (hgoes : (vsHandleHandshake env slot.session buf bufSize).goesOn = true) :
    (slot.handshakeMessage env buf bufSize).1.CleanInv := by
  obtain ⟨hsame, hmove⟩ := vsHandleHandshake_move env slot.session buf bufSize
  obtain ⟨hatt, hmove⟩ := hmove hgoes
  rw [Slot.handshakeMessage]
  generalize vsHandleHandshake env slot.session buf bufSize = r at hsame hatt hmove hgoes
  simp only [hgoes, if_true]
  cases hmove with
  | early hstate hstate' hlisten' hudp =>
      obtain ⟨hopen, hrunning, hclosed⟩ := h.early hstate
      have hstream : r.session.hostState ≠ .streamOpen := by
        rcases hstate' with heq | heq | heq | heq <;> simp [heq]
      simp only [hudp, hopen, hrunning, hclosed, decide_eq_false hstream, Bool.or_false,
        Bool.false_eq_true, if_false]
      refine ⟨fun _ => ?_, fun _ _ => ?_, ?_, fun _ => ⟨rfl, rfl, rfl⟩, ?_, by simp, ?_⟩
      · exact (h.unused hopen).sameQueues hsame rfl
      · exact hatt.trans (h.attempts hstate.not_closing.1 hstate.not_closing.2)
      · rintro (heq | heq)
        · exact absurd heq hstream
        · cases heq
      · rintro - (heq | heq)
        · cases heq
        · exact absurd rfl heq
      · exact fun heq => absurd heq hlisten'
  | opens hstate hstate' hudp =>
      have hclosed : slot.session.usrAuthAtt = 0 ∧ slot.udpState = .closed := by
        rcases hstate with hstate | ⟨hstate, hflag⟩
        · exact ⟨h.attempts (by simp [hstate]) (by simp [hstate]),
            (h.early (Or.inr (Or.inr (Or.inr hstate)))).2.2⟩
        · refine ⟨h.attempts (by simp [hstate]) (by simp [hstate]), ?_⟩
          by_contra hne
          simp [h.newHost hstate (Or.inr hne)] at hflag
      simp only [hudp, hclosed.2, hstate', decide_true, Bool.or_true, Bool.or_false,
        Bool.false_eq_true, if_false]
      refine ⟨by simp, fun _ _ => hatt.trans hclosed.1, fun _ => rfl, ?_, ?_, by simp, ?_⟩
      · intro hearly
        simp [TcpServerState.early, hstate'] at hearly
      · simp [hstate']
      · simp [hstate']
  | newHost hstate hstate' hudp =>
      obtain ⟨hopen, hrunning, hclosed⟩ := h.early (Or.inr (Or.inr (Or.inr hstate)))
      have hzero : r.session.usrAuthAtt = 0 :=
        hatt.trans (h.attempts (by simp [hstate]) (by simp [hstate]))
      simp only [hopen, hrunning, hclosed, hstate', reduceCtorEq, decide_false, Bool.or_false,
        Bool.false_or]
      refine ⟨fun _ => ?_, fun _ _ => hzero, ?_, ?_, ?_, fun _ => ⟨rfl, hzero⟩, ?_⟩
      · exact (h.unused hopen).sameQueues hsame rfl
      · rintro (heq | heq)
        · simp [hstate'] at heq
        · split at heq <;> cases heq
      · intro hearly
        simp [TcpServerState.early, hstate'] at hearly
      · rintro - (heq | heq)
        · cases heq
        · apply hudp
          by_contra hne
          simp [hne] at heq
      · simp [hstate']
  | stays hsession hudp =>
      have hopened : slot.opened = (slot.opened || decide (slot.session.hostState = .streamOpen)) := by
        by_cases heq : slot.session.hostState = .streamOpen
        · simp [h.opened (Or.inl heq)]
        · simp [heq]
      simp only [hsession, hudp, Bool.or_false, Bool.false_eq_true, if_false, ← hopened]
      exact ⟨fun hopen => (h.unused hopen).sameQueues ⟨rfl, rfl, rfl, rfl, rfl⟩ rfl, h.attempts,
        h.opened, h.early, h.newHost, h.handshake, h.listen⟩

/-- Every step keeps the invariant, if the connections are left clean. -/
theorem Slot.CleanInv.step {e : SlotEvent} {o : SlotOutput} (h : slot.CleanInv)
    (hguard : slot.ClosesClean e) (hstep : slot.step e = some (slot', o)) : slot'.CleanInv := by
  cases Slot.step_cases hstep with
  | accept websocket hlisten hslot =>
      subst hslot
      exact h.accept hlisten websocket
  | handshake env buf bufSize hlisten _ hslot =>
      subst hslot
      cases hgoes : (vsHandleHandshake env slot.session buf bufSize).goesOn with
      | false => exact h.refused hgoes
      | true => exact h.goesOn hgoes
  | tearDown avatarFound hslot =>
      subst hslot
      exact .tearDown hguard
  | data e hdata => exact h.dataStep hdata

/-! ## The next connection -/

/-- The client reaches STREAM_OPEN, or OPEN of its datagram connection. -/
def Slot.Opens (slot slot' : Slot) : Prop :=
  slot.session.hostState ≠ .streamOpen ∧ slot'.session.hostState = .streamOpen ∨
    slot.udpState ≠ .open ∧ slot'.udpState = .open

theorem Slot.DataStep.opens (hstep : slot.DataStep slot') (hopens : slot.Opens slot') :
    slot.udpState = .handshake := by
  rcases hopens with ⟨hne, heq⟩ | ⟨hne, heq⟩
  · exact absurd ((hstep.sameState (by simp [heq])).symm.trans heq) hne
  · cases hstep.udp with
    | same _ hstate => exact absurd (hstate.symm.trans heq) hne
    | opens _ _ hstate => exact hstate
    | ends _ hstate => simp [hstate] at heq

/-- A message that opens the stream. -/
theorem Slot.CleanInv.opens_handshake (h : slot.CleanInv)
    (hopens : slot.Opens (slot.handshakeMessage env buf bufSize).1) :
    slot.opened = false ∧ slot.session.usrAuthAtt = 0 ∧
      (slot.handshakeMessage env buf bufSize).1.session.usrAuthAtt = slot.session.usrAuthAtt ∧
      slot.session.SameQueues (slot.handshakeMessage env buf bufSize).1.session ∧
      (slot.handshakeMessage env buf bufSize).1.history = slot.history := by
  obtain ⟨hsame, hmove⟩ := vsHandleHandshake_move env slot.session buf bufSize
  have hfail := slot.failState_cases
  rw [Slot.handshakeMessage] at hopens ⊢
  generalize vsHandleHandshake env slot.session buf bufSize = r at hsame hmove hopens
  by_cases hgoes : r.goesOn = true
  · obtain ⟨hatt, hmove⟩ := hmove hgoes
    simp only [hgoes, if_true] at hopens ⊢
    have hstream : slot.session.hostState ≠ .streamOpen ∧ r.session.hostState = .streamOpen := by
      rcases hopens with hopens | ⟨hne, heq⟩
      · exact hopens
      · split at heq
        · cases heq
        · exact absurd heq hne
    refine ⟨?_, ?_, hatt, hsame, trivial⟩
    all_goals cases hmove with
      | early _ hstate' => simp [TcpServerState.early, hstream.2] at hstate'
      | newHost _ hstate' => simp [hstream.2] at hstate'
      | stays hsession => exact absurd (hsession ▸ hstream.2) hstream.1
      | opens hstate => ?_
    · rcases hstate with hstate | ⟨hstate, hflag⟩
      · exact (h.early (Or.inr (Or.inr (Or.inr hstate)))).1
      · by_contra hne
        simp [h.newHost hstate (Or.inl (by simpa using hne))] at hflag
    · rcases hstate with hstate | ⟨hstate, -⟩
      · exact h.attempts (by simp [hstate]) (by simp [hstate])
      · exact h.attempts (by simp [hstate]) (by simp [hstate])
  · simp only [hgoes, Bool.false_eq_true, if_false] at hopens
    rcases hopens with ⟨-, heq⟩ | ⟨hne, heq⟩
    · rcases hfail with hfail | hfail
      · exact TcpServerState.noConfusion (hfail.symm.trans heq)
      · exact TcpServerState.noConfusion (hfail.symm.trans heq)
    · exact absurd heq hne

/-- When a client reaches OPEN or STREAM_OPEN, nothing of an earlier one is left. -/
theorem Slot.CleanInv.opens {e : SlotEvent} {o : SlotOutput} (h : slot.CleanInv)
    (hstep : slot.step e = some (slot', o)) (hopens : slot.Opens slot') :
    slot'.Unused ∧ slot'.session.usrAuthAtt = 0 := by
  cases Slot.step_cases hstep with
  | accept websocket hlisten hslot =>
      subst hslot
      rcases hopens with ⟨-, heq⟩ | ⟨hne, heq⟩
      · cases heq
      · exact absurd heq hne
  | handshake env buf bufSize hlisten _ hslot =>
      subst hslot
      obtain ⟨hopened, hzero, hatt, hsame, hhistory⟩ := h.opens_handshake hopens
      exact ⟨(h.unused hopened).sameQueues hsame hhistory, hatt.trans hzero⟩
  | tearDown avatarFound hslot =>
      subst hslot
      rcases hopens with ⟨-, heq⟩ | ⟨hne, heq⟩
      · simp [slot.tornDown_hostState avatarFound] at heq
      · exact absurd heq hne
  | data e hdata =>
      obtain ⟨hopened, hzero⟩ := h.handshake (hdata.opens hopens)
      refine ⟨?_, (congrArg HandshakeFields.usrAuthAtt hdata.fields).trans hzero⟩
      rcases hdata.unused with hstate | hstate | htrue | hunused
      · simp [h.opened (Or.inl hstate)] at hopened
      · simp [h.opened (Or.inr hstate)] at hopened
      · simp [htrue] at hopened
      · exact hunused (h.unused hopened)

/-- Clean slots in the state LISTEN differ only in what is not used. -/
theorem Slot.CleanInv.alike (h : slot.CleanInv) (h' : slot'.CleanInv)
    (hlisten : slot.session.hostState = .listen) (hlisten' : slot'.session.hostState = .listen) :
    slot.Alike slot' := by
  obtain ⟨hopened, hrunning, hudp⟩ := h.early (Or.inl hlisten)
  obtain ⟨hopened', hrunning', hudp'⟩ := h'.early (Or.inl hlisten')
  obtain ⟨htoken, hded, hname, hversion, hflags⟩ := h.listen hlisten
  obtain ⟨htoken', hded', hname', hversion', hflags'⟩ := h'.listen hlisten'
  obtain ⟨hout, hin, hfpsHost, hfpsPeer, htmp, hhistory⟩ := h.unused hopened
  obtain ⟨hout', hin', hfpsHost', hfpsPeer', htmp', hhistory'⟩ := h'.unused hopened'
  have hatt := h.attempts (by simp [hlisten]) (by simp [hlisten])
  have hatt' := h'.attempts (by simp [hlisten']) (by simp [hlisten'])
  have houts : slot'.session.outQueue = slot.session.outQueue :=
    funext fun prio => (hout' prio).trans (hout prio).symm
  obtain ⟨session, websocket, udpRunning, udpState, history, opened, auth, udpStarted,
    tokenLeft⟩ := slot
  obtain ⟨session', websocket', udpRunning', udpState', history', opened', auth', udpStarted',
    tokenLeft'⟩ := slot'
  obtain ⟨hostState, peerAddress, userId, user, avatarId, ded, flags, usrAuthAtt, hostUrl, peerToken,
    hostToken, outQueue, inQueue, fpsHost, fpsPeer, tmpFlags, clientName, clientVersion⟩ := session
  obtain ⟨hostState', peerAddress', userId', user', avatarId', ded', flags', usrAuthAtt', hostUrl',
    peerToken', hostToken', outQueue', inQueue', fpsHost', fpsPeer', tmpFlags', clientName',
    clientVersion'⟩ := session'
  simp only at *
  subst hlisten hlisten' hopened hopened' hrunning hrunning' hudp hudp' htoken htoken' hded hded'
    hname hname' hversion hversion' hflags hflags' hin hin' hfpsHost hfpsHost' hfpsPeer hfpsPeer'
    htmp htmp' hhistory hhistory' hatt hatt' houts
  refine ⟨⟨⟨userId', user', avatarId', hostUrl', hostToken', peerAddress'⟩, websocket', auth',
    udpStarted', tokenLeft'⟩, ⟨fun hne => absurd rfl hne, fun hknown => ?_, nofun⟩, rfl⟩
  simp [Slot.Known, TcpServerState.behindGate] at hknown

/-- The invariant holds after connections that were left clean. -/
theorem Slot.cleanInv_run {events : List SlotEvent}
    (hadm : Admissible Slot.next Slot.ClosesClean slot events)
    (hinv : slot.CleanInv) (hrun : run Slot.next slot events = some slot') : slot'.CleanInv := by
  refine run_invariant ?_ hinv hadm hrun
  intro s e s' hs hguard hnext
  obtain ⟨⟨s₁, o⟩, hstep, rfl⟩ := Option.map_eq_some_iff.mp hnext
  exact hs.step hguard hstep

/-- A connection that was not torn down yet. -/
theorem Slot.admissible_of_connected {events : List SlotEvent}
    (h : ∀ avatarFound, SlotEvent.tearDown avatarFound ∉ events) :
    Admissible Slot.next Slot.ClosesClean slot events := by
  induction events generalizing slot with
  | nil => trivial
  | cons e rest ih =>
      refine ⟨?_, fun slot' _ => ih fun avatarFound hmem => h avatarFound (by simp [hmem])⟩
      cases e with
      | tearDown avatarFound => exact absurd (by simp) (h avatarFound)
      | _ => trivial

/-- **Session slots do not leak.**  After any two histories of connections on a slot
that were all left clean, the same new connection gets the same replies, the same
commands are handled on behalf of its client and the same commands are sent to it;
and when the new client reaches OPEN or STREAM_OPEN, the queues are empty, and FPS,
the flags and the number of attempts have their first values. -/
theorem slots_alike_after_clean (history₁ history₂ : List SlotEvent) {s₁ s₂ : Slot}
    (hclean₁ : Admissible Slot.next Slot.ClosesClean Slot.init history₁)
    (hclean₂ : Admissible Slot.next Slot.ClosesClean Slot.init history₂)
    (hrun₁ : run Slot.next Slot.init history₁ = some s₁)
    (hrun₂ : run Slot.next Slot.init history₂ = some s₂)
    (hlisten₁ : s₁.session.hostState = .listen) (hlisten₂ : s₂.session.hostState = .listen) :
    (∀ conn, (trace Slot.step s₁ conn).map Prod.snd = (trace Slot.step s₂ conn).map Prod.snd) ∧
      ∀ conn, (∀ avatarFound, SlotEvent.tearDown avatarFound ∉ conn) → ∀ slot e slot',
        run Slot.next s₁ conn = some slot → slot.next e = some slot' → slot.Opens slot' →
          slot'.Unused ∧ slot'.session.usrAuthAtt = 0 := by
  have hinv₁ := Slot.cleanInv_run hclean₁ Slot.cleanInv_init hrun₁
  have hinv₂ := Slot.cleanInv_run hclean₂ Slot.cleanInv_init hrun₂
  refine ⟨fun conn => ?_, fun conn hconn slot e slot' hrun hnext hopens => ?_⟩
  · have halike := hinv₁.alike hinv₂ hlisten₁ hlisten₂
    rcases trace_agree Slot.alike_steps halike conn with ⟨h₁, h₂⟩ | ⟨s₁', s₂', os, h₁, h₂, -⟩
    · rw [h₁, h₂]
    · rw [h₁, h₂]
      rfl
  · obtain ⟨⟨slot₁, o⟩, hstep, rfl⟩ := Option.map_eq_some_iff.mp hnext
    exact (Slot.cleanInv_run (Slot.admissible_of_connected hconn) hinv₁ hrun).opens hstep hopens

/-- The connections of the run are torn down before anything was opened, and without
a token after a WebSocket connection. -/
def neverOpened : Slot → List SlotEvent → Bool
  | _, [] => true
  | slot, e :: rest =>
      (match e with
        | .tearDown _ => !slot.opened && slot.session.usrAuthAtt == 0 && !slot.udpRunning &&
            slot.udpState == .closed && !slot.websocket
        | _ => true) && (slot.next e).all fun slot' => neverOpened slot' rest

theorem Slot.CleanInv.admissible {events : List SlotEvent} (hinv : slot.CleanInv)
    (h : neverOpened slot events = true) :
    Admissible Slot.next Slot.ClosesClean slot events := by
  induction events generalizing slot with
  | nil => trivial
  | cons e rest ih =>
      simp only [neverOpened, Bool.and_eq_true] at h
      obtain ⟨he, hrest⟩ := h
      have hguard : slot.ClosesClean e := by
        cases e with
        | tearDown avatarFound =>
            simp only [Bool.and_eq_true, Bool.not_eq_true', beq_iff_eq] at he
            obtain ⟨⟨⟨⟨hopened, hatt⟩, hrunning⟩, hudp⟩, hws⟩ := he
            exact ⟨hinv.unused hopened, hatt, hrunning, hudp, by simp [hws]⟩
        | _ => trivial
      refine ⟨hguard, fun slot' hnext => ih ?_ ?_⟩
      · obtain ⟨⟨slot₁, o⟩, hstep, rfl⟩ := Option.map_eq_some_iff.mp hnext
        exact hinv.step hguard hstep
      · rw [hnext] at hrest
        exact hrest

/-- Joe is authenticated over TCP, and the connection ends. -/
def tcpConnection : List SlotEvent :=
  .accept false :: (handshakeMessages "secret").take 2 ++ [.hangUp, .tearDown true]

/-- The next client cannot see that Joe was there. -/
theorem slots_alike_after_joe :
    ∃ slot, run Slot.next Slot.init tcpConnection = some slot ∧
      ∀ conn, (trace Slot.step Slot.init conn).map Prod.snd =
        (trace Slot.step slot conn).map Prod.snd := by
  have hrun : ((run Slot.next Slot.init tcpConnection).map fun slot => slot.session.hostState) =
      some .listen := by
    decide +kernel
  obtain ⟨slot, hslot, hstate⟩ := Option.map_eq_some_iff.mp hrun
  have hclean : Admissible Slot.next Slot.ClosesClean Slot.init tcpConnection :=
    Slot.cleanInv_init.admissible (by decide +kernel)
  have hleak := slots_alike_after_clean [] tcpConnection trivial hclean rfl hslot rfl hstate
  exact ⟨slot, hslot, hleak.1⟩

/-- Joe's WebSocket connection ends before a command for him was sent. -/
def unsentConnection : List SlotEvent :=
  .accept true :: handshakeMessages "secret" ++
    [.push 128 ⟨33, [0, 0, 0, 1], none⟩, .hangUp, .tearDown true]

/-- A connection over WebSocket up to the first message of the server. -/
def nextConnection : List SlotEvent :=
  .accept true :: handshakeMessages "secret" ++ [.pack fun _ => 10]

/-- **Counterexample.**  The command that was for the client before is sent to the
next one. -/
theorem slots_leak_unsent :
    ∃ slot, run Slot.next Slot.init unsentConnection = some slot ∧
      slot.session.hostState = .listen ∧
      (trace Slot.step Slot.init nextConnection).map Prod.snd ≠
        (trace Slot.step slot nextConnection).map Prod.snd := by
  have hnew : (trace Slot.step Slot.init nextConnection).map
      (fun r => r.2.getLast?) = some (some .nothing) := by
    decide +kernel
  have hrun : ((run Slot.next Slot.init unsentConnection).map fun slot =>
      decide (slot.session.hostState = .listen ∧
        (trace Slot.step slot nextConnection).map (fun r => r.2.getLast?) =
          some (some (.sent [] [⟨33, [0, 0, 0, 1], none⟩])))) = some true := by
    decide +kernel
  obtain ⟨slot, hslot, hview⟩ := Option.map_eq_some_iff.mp hrun
  obtain ⟨hstate, hleak⟩ := of_decide_eq_true hview
  refine ⟨slot, hslot, hstate, fun heq => ?_⟩
  have hlast := congrArg (Option.map List.getLast?) heq
  rw [Option.map_map, Option.map_map] at hlast
  have hboth := (hnew.symm.trans hlast).trans hleak
  simp at hboth

end Verse
