import Verse.Server.SlotSteps

/-!
# The authentication gate

Only an authenticated client may get to a data connection.  The state moves on
after a failed authentication too, so all depends on the token: it is made when an
authentication is successful, and the client has to confirm it.  The TCP thread
frees it when the connection ends, but the WebSocket thread does not, and the
client of the next connection can confirm a token that it was not given.

## Strategy

`Slot.step_cases` says what a step does to the state, the user and the token.
`Slot.AuthInv` says that as long as nobody was authenticated during a connection,
the token is `NULL` or was left by an earlier one; a run in which nobody confirms
such a token keeps it.
-/

namespace Verse

open Lib

variable {slot slot' : Slot} {session session' : VSession} {env : ServerEnv} {buf : Mem}
  {bufSize : ℕ} {cmds : List MessageCmd}

/-! ## What the handshake does -/

/-- Neither the user nor the token were changed. -/
structure VSession.SameUser (session session' : VSession) : Prop where
  identity : session'.identity = session.identity
  peerToken : session'.peerToken = session.peerToken

theorem VSession.SameUser.refl (session : VSession) : session.SameUser session := ⟨rfl, rfl⟩

theorem VSession.SameUser.trans {session'' : VSession} (h : session.SameUser session')
    (h' : session'.SameUser session'') : session.SameUser session'' :=
  ⟨h'.identity.trans h.identity, h'.peerToken.trans h.peerToken⟩

/-- A function of the session that keeps the user keeps it in a loop. -/
theorem sameUser_foldl {α : Type} {f : VSession → α → VSession}
    (hf : ∀ (session : VSession) a, session.SameUser (f session a)) (l : List α) (session : VSession) :
    session.SameUser (l.foldl f session) := by
  induction l generalizing session with
  | nil => exact .refl session
  | cons a rest ih => exact (hf session a).trans (ih (f session a))

theorem sameUser_proposeClient (session : VSession) (cmd : MessageCmd) :
    session.SameUser (proposeClient session cmd) := by
  unfold proposeClient
  split <;> exact ⟨rfl, rfl⟩

/-- The command confirms the peer token of the session. -/
def ConfirmsToken (session : VSession) (cmd : MessageCmd) : Prop :=
  ∃ token, cmd = .sys (.negotiate ⟨.confirmR, .string8 .token [token]⟩) ∧
    session.peerToken = some (cString token)

theorem tokenDedCmd_spec (env : ServerEnv) (t : TokenDed) (cmd : MessageCmd) :
    t.session.SameUser (tokenDedCmd env t cmd).session ∧
      ((tokenDedCmd env t cmd).peerTokenConfirmed = true →
        t.peerTokenConfirmed = true ∨ ConfirmsToken t.session cmd) := by
  unfold tokenDedCmd
  split
  · exact ⟨⟨rfl, rfl⟩, Or.inl⟩
  · exact ⟨⟨rfl, rfl⟩, Or.inl⟩
  · case _ token =>
      split
      case isTrue heq => exact ⟨.refl _, fun _ => Or.inr ⟨token, rfl, heq⟩⟩
      case isFalse => exact ⟨.refl _, Or.inl⟩
  · split
    · exact ⟨.refl _, Or.inl⟩
    · exact ⟨.refl _, Or.inl⟩
  · exact ⟨sameUser_proposeClient _ _, Or.inl⟩

/-- The loop over the commands keeps the user, and the token is only confirmed by
one of the commands. -/
theorem tokenDedCmds_spec (env : ServerEnv) (session : VSession) (cmds : List MessageCmd) :
    session.SameUser (tokenDedCmds env session cmds).session ∧
      ((tokenDedCmds env session cmds).peerTokenConfirmed = true →
        ∃ cmd ∈ cmds, ConfirmsToken session cmd) := by
  have hloop : ∀ (l : List MessageCmd) (t : TokenDed),
      t.session.SameUser (l.foldl (tokenDedCmd env) t).session ∧
        ((l.foldl (tokenDedCmd env) t).peerTokenConfirmed = true →
          t.peerTokenConfirmed = true ∨ ∃ cmd ∈ l, ConfirmsToken t.session cmd) := by
    intro l
    induction l with
    | nil => exact fun t => ⟨.refl _, Or.inl⟩
    | cons cmd rest ih =>
        intro t
        obtain ⟨hsame, hconf⟩ := tokenDedCmd_spec env t cmd
        obtain ⟨hsame', hconf'⟩ := ih (tokenDedCmd env t cmd)
        refine ⟨hsame.trans hsame', fun h => ?_⟩
        rcases hconf' h with h₁ | ⟨c, hc, token, rfl, htoken⟩
        · rcases hconf h₁ with h₂ | h₂
          · exact Or.inl h₂
          · exact Or.inr ⟨cmd, by simp, h₂⟩
        · exact Or.inr ⟨_, by simp [hc], token, rfl, hsame.peerToken ▸ htoken⟩
  obtain ⟨hsame, hconf⟩ := hloop cmds ⟨session, vUrlInit, false, false, false, false⟩
  refine ⟨hsame, fun h => ?_⟩
  rcases hconf h with h₁ | h₁
  · cases h₁
  · exact h₁

/-- The states behind the gate. -/
def TcpServerState.behindGate (state : TcpServerState) : Prop :=
  state = .negotiateNewhost ∨ state = .streamOpen

/-- What `vs_handle_handshake` does: it authenticates a user; or it moves behind the
gate, on a message that confirms the token; or it does neither. -/
inductive Handshake (session : VSession) (cmds : List MessageCmd) (r : HandshakeResult) : Prop
  | authenticated (who : Identity) (hwho : r.authenticated = some who)
      (hid : r.session.identity = who) (hgoes : r.goesOn = true)
      (hstate : r.session.hostState = .negotiateTokenDed) (hudp : r.udpStarted = false)
  | confirmed (hnone : r.authenticated = none) (hsame : session.SameUser r.session)
      (hstate : session.hostState = .negotiateTokenDed)
      (hconf : ∃ cmd ∈ cmds, ConfirmsToken session cmd)
      (hgate : r.goesOn = true → r.session.hostState.behindGate)
  | other (hnone : r.authenticated = none) (hsame : session.SameUser r.session)
      (hudp : r.udpStarted = false)
      (hstate : r.goesOn = true → r.session.hostState.behindGate → session.hostState.behindGate)
      (hlisten : r.goesOn = true → r.session.hostState = .listen → session.hostState = .listen)

theorem vsRespondMethodsLoop_spec (session : VSession) (cmds : List MessageCmd) :
    session.SameUser (vsRespondMethodsLoop session cmds).session ∧
      (vsRespondMethodsLoop session cmds).authenticated = none ∧
      (vsRespondMethodsLoop session cmds).udpStarted = false := by
  have hsame := sameUser_foldl sameUser_proposeClient cmds session
  unfold vsRespondMethodsLoop
  dsimp only
  split
  · exact ⟨hsame, rfl, rfl⟩
  · exact ⟨hsame, rfl, rfl⟩

theorem vsRespondUserauthLoop_cases (env : ServerEnv) (session : VSession)
    (cmds : List MessageCmd) :
    (∃ who, (vsRespondUserauthLoop env session cmds).authenticated = some who ∧
      (vsRespondUserauthLoop env session cmds).session.identity = who ∧
      (vsRespondUserauthLoop env session cmds).goesOn = true ∧
      (vsRespondUserauthLoop env session cmds).udpStarted = false) ∨
    ((vsRespondUserauthLoop env session cmds).authenticated = none ∧
      (vsRespondUserauthLoop env session cmds).session = session ∧
      (vsRespondUserauthLoop env session cmds).udpStarted = false) := by
  unfold vsRespondUserauthLoop
  split
  · exact Or.inr ⟨rfl, rfl, rfl⟩
  · split
    · exact Or.inr ⟨rfl, rfl, rfl⟩
    · split
      · exact Or.inr ⟨rfl, rfl, rfl⟩
      · exact Or.inl ⟨_, rfl, rfl, rfl, rfl⟩

theorem vsNegotiateTokenDedLoop_spec (env : ServerEnv) (session : VSession)
    (cmds : List MessageCmd) (hstate : session.hostState = .negotiateTokenDed) :
    Handshake session cmds (vsNegotiateTokenDedLoop env session cmds) := by
  obtain ⟨hsame, hconf⟩ := tokenDedCmds_spec env session cmds
  unfold vsNegotiateTokenDedLoop
  generalize tokenDedCmds env session cmds = t at hsame hconf
  dsimp only
  split
  case isTrue hcomplete =>
    have hconf' : ∃ cmd ∈ cmds, ConfirmsToken session cmd := by
      simp only [TokenDed.complete, Bool.and_eq_true] at hcomplete
      exact hconf hcomplete.1.2
    split
    · exact .confirmed rfl ⟨hsame.identity, hsame.peerToken⟩ hstate hconf' fun _ => Or.inr rfl
    · split
      · exact .confirmed rfl ⟨hsame.identity, hsame.peerToken⟩ hstate hconf' nofun
      · exact .confirmed rfl ⟨hsame.identity, hsame.peerToken⟩ hstate hconf' fun _ => Or.inl rfl
  case isFalse => exact .other rfl hsame rfl nofun nofun

/-- **The handshake**, message by message. -/
theorem vsHandleHandshake_spec (env : ServerEnv) (session : VSession) (buf : Mem) (bufSize : ℕ) :
    Handshake session (receivedSysCmds buf bufSize).2
      (vsHandleHandshake env session buf bufSize) := by
  unfold vsHandleHandshake
  generalize (receivedSysCmds buf bufSize).2 = cmds
  split
  · exact .other rfl (.refl _) rfl nofun nofun
  dsimp only
  split
  case h_1 =>
    obtain ⟨hsame, hauth, hudp⟩ := vsRespondMethodsLoop_spec session cmds
    split
    · refine .other hauth ⟨hsame.identity, hsame.peerToken⟩ hudp (fun _ h => ?_) nofun
      simp [TcpServerState.behindGate] at h
    case isFalse hgoes =>
      exact .other hauth hsame hudp (fun h => absurd h hgoes) fun h => absurd h hgoes
  case h_2 =>
    rcases vsRespondUserauthLoop_cases env session cmds with
      ⟨who, hwho, hid, hgoes, hudp⟩ | ⟨hauth, hsame, hudp⟩
    · rw [if_pos hgoes]
      exact .authenticated who hwho hid hgoes rfl hudp
    · split
      · refine .other hauth ?_ hudp (fun _ h => ?_) nofun
        · rw [hsame]
          exact ⟨rfl, rfl⟩
        · simp [TcpServerState.behindGate] at h
      · refine .other hauth ?_ hudp (fun h => ?_) fun h => ?_
        · rw [hsame]
          exact ⟨rfl, rfl⟩
        · simp [maxUserAuthAttempts] at h
        · simp [maxUserAuthAttempts] at h
  case h_3 hstate => exact vsNegotiateTokenDedLoop_spec env session cmds hstate
  case h_4 hstate =>
    have hgate : session.hostState.behindGate := Or.inl hstate
    split
    · split
      · exact .other rfl (.refl _) rfl (fun _ _ => hgate) nofun
      · split
        · exact .other rfl ⟨rfl, rfl⟩ rfl (fun _ _ => hgate) nofun
        · exact .other rfl (.refl _) rfl (fun _ _ => hgate) fun _ h => h
    · exact .other rfl (.refl _) rfl (fun _ _ => hgate) nofun
  case h_5 => exact .other rfl (.refl _) rfl (fun _ h => h) fun _ h => h

/-! ## The gate -/

theorem VSession.SameUser.of_fields (h : session'.handshakeFields = session.handshakeFields) :
    session.SameUser session' :=
  ⟨congrArg HandshakeFields.identity h, congrArg HandshakeFields.peerToken h⟩

/-- A step that is no handshake: nothing happened to the user, to the token and to
what is remembered of the connection, and the state is as it was or the connection
is being closed. -/
structure Slot.Quiet (slot slot' : Slot) : Prop where
  same : slot.session.SameUser slot'.session
  state : slot'.session.hostState = slot.session.hostState ∨
    slot.session.hostState ≠ .listen ∧
      (slot'.session.hostState = .closing ∨ slot'.session.hostState = .closed)
  auth : slot'.auth = slot.auth
  udpStarted : slot'.udpStarted = slot.udpStarted
  tokenLeft : slot'.tokenLeft = slot.tokenLeft

theorem Slot.DataStep.quiet (h : slot.DataStep slot') : slot.Quiet slot' where
  same := .of_fields h.fields
  state := h.state
  auth := h.auth
  udpStarted := h.udpStarted
  tokenLeft := h.tokenLeft

theorem Slot.Quiet.listen (h : slot.Quiet slot') (hne : slot'.session.hostState ≠ .listen) :
    slot.session.hostState ≠ .listen := by
  rcases h.state with heq | ⟨hlisten, -⟩
  · rw [← heq]
    exact hne
  · exact hlisten

/-- Behind the gate, or when this connection has started its UDP thread, a user was
authenticated during this connection, and the session is the one of that user. -/
def Slot.Gate (slot : Slot) : Prop :=
  slot.session.hostState.behindGate ∨ slot.udpStarted = true →
    ∃ who, slot.auth = some who ∧ slot.session.identity = who

/-- The message confirms a token that an earlier connection has left. -/
def Slot.ConfirmsLeftToken (slot : Slot) : SlotEvent → Prop
  | .message _ buf bufSize =>
      slot.session.hostState = .negotiateTokenDed ∧ slot.tokenLeft = true ∧
        ∃ cmd ∈ (receivedSysCmds buf bufSize).2, ConfirmsToken slot.session cmd
  | _ => False

/-- The steps without what can be seen of them. -/
def Slot.next (slot : Slot) (e : SlotEvent) : Option Slot := (slot.step e).map Prod.fst

/-- As long as nobody was authenticated, the token is `NULL` or was left by an
earlier connection. -/
structure Slot.AuthInv (slot : Slot) : Prop where
  identity : slot.session.hostState ≠ .listen → ∀ who, slot.auth = some who →
    slot.session.identity = who
  gate : slot.session.hostState.behindGate ∨ slot.udpStarted = true →
    slot.session.hostState ≠ .listen ∧ slot.auth ≠ none
  token : slot.session.hostState ≠ .listen → slot.auth = none →
    slot.session.peerToken = none ∨ slot.tokenLeft = true

theorem Slot.AuthInv.toGate (h : slot.AuthInv) : slot.Gate := by
  intro hgate
  obtain ⟨hlisten, hauth⟩ := h.gate hgate
  obtain ⟨who, hwho⟩ := Option.ne_none_iff_exists'.mp hauth
  exact ⟨who, hwho, h.identity hlisten who hwho⟩

theorem Slot.authInv_init : Slot.init.AuthInv where
  identity h := absurd rfl h
  gate h := by simp [Slot.init, vInitSession, TcpServerState.behindGate] at h
  token h := absurd rfl h

/-- The invariant after a step that is no handshake. -/
theorem Slot.AuthInv.quiet (h : slot.AuthInv) (hquiet : slot.Quiet slot') : slot'.AuthInv where
  identity hne who hwho := by
    rw [hquiet.same.identity]
    exact h.identity (hquiet.listen hne) who (hquiet.auth ▸ hwho)
  gate hgate := by
    have hgate' : slot.session.hostState.behindGate ∨ slot.udpStarted = true := by
      rcases hgate with hstate | hudp
      · left
        rcases hquiet.state with heq | ⟨-, heq | heq⟩
        · rw [heq] at hstate
          exact hstate
        · simp [heq, TcpServerState.behindGate] at hstate
        · simp [heq, TcpServerState.behindGate] at hstate
      · exact Or.inr (hquiet.udpStarted ▸ hudp)
    obtain ⟨hne, hauth⟩ := h.gate hgate'
    refine ⟨?_, hquiet.auth ▸ hauth⟩
    rcases hquiet.state with heq | ⟨-, heq | heq⟩
    · rw [heq]
      exact hne
    · simp [heq]
    · simp [heq]
  token hne hauth := by
    rw [hquiet.same.peerToken, hquiet.tokenLeft]
    exact h.token (hquiet.listen hne) (hquiet.auth ▸ hauth)

/-- A message that is refused. -/
theorem Slot.AuthInv.refused (h : slot.AuthInv) (hlisten : slot.session.hostState ≠ .listen)
    (hgoes : (vsHandleHandshake env slot.session buf bufSize).goesOn = false) :
    (slot.handshakeMessage env buf bufSize).1.AuthInv := by
  have hspec := vsHandleHandshake_spec env slot.session buf bufSize
  have hsame : slot.session.SameUser (vsHandleHandshake env slot.session buf bufSize).session := by
    cases hspec with
    | authenticated who _ _ hgoes' => simp [hgoes'] at hgoes
    | confirmed _ hsame => exact hsame
    | other _ hsame => exact hsame
  rw [Slot.handshakeMessage]
  simp only [hgoes, Bool.false_eq_true, if_false]
  exact h.quiet ⟨⟨hsame.identity, hsame.peerToken⟩, Or.inr ⟨hlisten, slot.failState_cases⟩, rfl,
    rfl, rfl⟩

/-- A message after which the connection goes on. -/
theorem Slot.AuthInv.accepted (h : slot.AuthInv) (hlisten : slot.session.hostState ≠ .listen)
    (hguard : ¬ slot.ConfirmsLeftToken (.message env buf bufSize))
    (hgoes : (vsHandleHandshake env slot.session buf bufSize).goesOn = true) :
    (slot.handshakeMessage env buf bufSize).1.AuthInv := by
  have hspec := vsHandleHandshake_spec env slot.session buf bufSize
  rw [Slot.handshakeMessage]
  generalize vsHandleHandshake env slot.session buf bufSize = r at hspec hgoes
  simp only [hgoes, if_true]
  cases hspec with
  | authenticated who hwho hid _ hstate hudp =>
      refine ⟨fun _ who' hwho' => ?_, fun _ => ⟨?_, ?_⟩, fun _ hauth => ?_⟩
      · simp only [hwho, reduceCtorEq, if_false, Option.some.injEq] at hwho'
        exact hid.trans hwho'
      · simp [hstate]
      · simp [hwho]
      · simp [hwho] at hauth
  | confirmed hnone hsame hstate hconf hgate =>
      -- an unauthenticated client could only confirm a token that was left
      have hauth : slot.auth ≠ none := by
        intro hauth
        obtain ⟨cmd, hmem, token, hcmd, htoken⟩ := hconf
        rcases h.token hlisten hauth with hnull | hleft
        · simp [hnull] at htoken
        · exact hguard ⟨hstate, hleft, cmd, hmem, token, hcmd, htoken⟩
      simp only [hnone, if_true]
      refine ⟨fun _ who hwho => ?_, fun _ => ⟨?_, hauth⟩, fun _ hauth' => absurd hauth' hauth⟩
      · exact hsame.identity.trans (h.identity hlisten who hwho)
      · intro (heq : r.session.hostState = .listen)
        have hbehind := hgate hgoes
        simp [heq, TcpServerState.behindGate] at hbehind
  | other hnone hsame hudp hstate hlisten' =>
      simp only [hnone, hudp, if_true, Bool.or_false, decide_true, Bool.and_true]
      refine ⟨fun _ who hwho => ?_, fun hgate => ?_, fun _ hauth => ?_⟩
      · exact hsame.identity.trans (h.identity hlisten who hwho)
      · refine ⟨fun heq => hlisten (hlisten' hgoes heq), (h.gate ?_).2⟩
        rcases hgate with hgate | hudp'
        · exact Or.inl (hstate hgoes hgate)
        · exact Or.inr hudp'
      · rw [hsame.peerToken]
        exact h.token hlisten hauth

/-- Every step keeps the invariant, unless a token is confirmed that was left. -/
theorem Slot.AuthInv.step {e : SlotEvent} {o : SlotOutput} (h : slot.AuthInv)
    (hguard : ¬ slot.ConfirmsLeftToken e) (hstep : slot.step e = some (slot', o)) :
    slot'.AuthInv := by
  cases Slot.step_cases hstep with
  | accept websocket hlisten hslot =>
      subst hslot
      refine ⟨fun _ who hwho => ?_, fun hgate => ?_, fun _ _ => ?_⟩
      · simp [Slot.accepted] at hwho
      · simp [Slot.accepted, TcpServerState.behindGate] at hgate
      · simp only [Slot.accepted]
        cases slot.session.peerToken with
        | none => exact Or.inl rfl
        | some token => exact Or.inr rfl
  | handshake env buf bufSize hlisten _ hslot =>
      subst hslot
      cases hgoes : (vsHandleHandshake env slot.session buf bufSize).goesOn with
      | false => exact h.refused hlisten hgoes
      | true => exact h.accepted hlisten hguard hgoes
  | tearDown avatarFound hslot =>
      subst hslot
      have hstate := slot.tornDown_hostState avatarFound
      have hudp : (slot.tornDown avatarFound).udpStarted = false := rfl
      refine ⟨fun hne => absurd hstate hne, fun hgate => ?_, fun hne => absurd hstate hne⟩
      simp [hstate, hudp, TcpServerState.behindGate] at hgate
  | data e hdata => exact h.quiet hdata.quiet

/-- **The authentication gate.**  Whatever connections and messages follow each
other on a session, the server gets behind the gate and starts its UDP thread only
for a user who was authenticated during that connection, and the session is then
the one of that user; provided that nobody confirms a token an earlier connection
has left in the session. -/
theorem authentication_gate (events : List SlotEvent)
    (hadm : Admissible Slot.next (fun slot e => ¬ slot.ConfirmsLeftToken e) Slot.init events)
    (hrun : run Slot.next Slot.init events = some slot) : slot.Gate := by
  refine Slot.AuthInv.toGate (run_invariant ?_ Slot.authInv_init hadm hrun)
  intro s e s' hinv hguard hnext
  obtain ⟨⟨s₁, o⟩, hstep, rfl⟩ := Option.map_eq_some_iff.mp hnext
  exact hinv.step hguard hstep

/-! ## A token that is left -/

/-- A server with one user and the WebSocket port 23456. -/
def oneUser : ServerEnv where
  userAuth username data :=
    if username = ascii "joe" ∧ data = ascii "secret" then some 1000 else none
  createAvatarNode _ := some 65536
  userFind _ := some 1
  randomToken := ascii "0123456789abcdef"
  ded := ascii "file:///verse.ded"
  wsPort := 23456
  securityProtocol := 0
  port := 20000
  peerAddr := ⟨false, 40000, [127, 0, 0, 1]⟩
  threadCreated := true
  beyond := []

/-- A message with the given system commands. -/
def clientMessage (cmds : List MessageCmd) : SlotEvent :=
  let body := (vPackStreamSystemCommands cmds).getD []
  let bytes := vPackMessageHeader ⟨1, UInt16.ofNat (4 + body.length)⟩ ++ body
  .message oneUser (fun i => bytes.getD i 0) bytes.length

/-- The messages of a handshake with a password, up to the open stream. -/
def handshakeMessages (password : String) : List SlotEvent :=
  [clientMessage [.userAuthRequest (ascii "joe") uaMethodNone []],
    clientMessage [.userAuthRequest (ascii "joe") uaMethodPassword (ascii password)],
    clientMessage [negotiateStrings .changeR .hostUrl [ascii "ws://host:23456"],
      negotiateStrings .changeR .token [ascii "client token"],
      negotiateStrings .confirmR .token [ascii "0123456789abcdef"],
      negotiateStrings .confirmL .ded [ascii "file:///verse.ded"]]]

/-- Joe is authenticated over WebSocket, and the connection ends. -/
def webSocketConnection : List SlotEvent :=
  .accept true :: handshakeMessages "secret" ++ [.hangUp, .tearDown true]

/-- No token of an earlier connection is left during the run. -/
def tokenNeverLeft : Slot → List SlotEvent → Bool
  | _, [] => true
  | slot, e :: rest => !slot.tokenLeft && (slot.next e).all fun slot' => tokenNeverLeft slot' rest

theorem admissible_of_tokenNeverLeft {events : List SlotEvent}
    (h : tokenNeverLeft slot events = true) :
    Admissible Slot.next (fun slot e => ¬ slot.ConfirmsLeftToken e) slot events := by
  induction events generalizing slot with
  | nil => trivial
  | cons e rest ih =>
      simp only [tokenNeverLeft, Bool.and_eq_true, Bool.not_eq_true'] at h
      refine ⟨fun hconf => ?_, fun slot' hnext => ih ?_⟩
      · cases e with
        | message env buf bufSize => exact Bool.false_ne_true (h.1.symm.trans hconf.2.1)
        | _ => exact hconf
      · have hrest := h.2
        rw [hnext] at hrest
        exact hrest

/-- The gate holds for a client who is authenticated on the connection itself, also
after another TCP connection. -/
theorem authentication_gate_joe :
    ∃ slot, run Slot.next Slot.init ([.accept false, .hangUp, .tearDown false, .accept true] ++
        handshakeMessages "secret") = some slot ∧
      slot.session.hostState = .streamOpen ∧ slot.Gate := by
  have hrun : ((run Slot.next Slot.init ([.accept false, .hangUp, .tearDown false, .accept true] ++
      handshakeMessages "secret")).map fun slot => slot.session.hostState) = some .streamOpen := by
    decide +kernel
  obtain ⟨slot, hslot, hstate⟩ := Option.map_eq_some_iff.mp hrun
  exact ⟨slot, hslot, hstate,
    authentication_gate _ (admissible_of_tokenNeverLeft (by decide +kernel)) hslot⟩

/-- **Counterexample.**  After Joe's WebSocket connection somebody connects over TCP
and fails to authenticate, but confirms Joe's token: the stream is open, and the
session is still Joe's. -/
theorem authentication_gate_left_token :
    ∃ slot, run Slot.next Slot.init
        (webSocketConnection ++ .accept false :: handshakeMessages "wrong") = some slot ∧
      slot.session.hostState = .streamOpen ∧ slot.auth = none ∧
      slot.session.identity = (1000, some 1, 65536) ∧ ¬ slot.Gate := by
  have hrun : ((run Slot.next Slot.init
      (webSocketConnection ++ .accept false :: handshakeMessages "wrong")).map fun slot =>
        decide (slot.session.hostState = .streamOpen ∧ slot.auth = none ∧
          slot.session.identity = (1000, some 1, 65536))) = some true := by
    decide +kernel
  obtain ⟨slot, hslot, hview⟩ := Option.map_eq_some_iff.mp hrun
  obtain ⟨hstate, hauth, hid⟩ := of_decide_eq_true hview
  refine ⟨slot, hslot, hstate, hauth, hid, fun hgate => ?_⟩
  obtain ⟨who, hwho, -⟩ := hgate (Or.inl (Or.inr hstate))
  rw [hauth] at hwho
  cases hwho

end Verse
