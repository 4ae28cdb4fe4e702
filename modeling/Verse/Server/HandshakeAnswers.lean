import Verse.Server.AuthGate
import Verse.Stream.UserAuth

/-!
# Answers of the handshake

`vs_handle_handshake` receives a message in `io_ctx->buf`, and its callers send what is in
this buffer afterwards, whenever it returns 1.  The handlers of the first three states pack
their answer into it.  The state NEGOTIATE_NEWHOST and the states without a handler leave it
as it is.

A request with a wrong password is answered, and then the result is the one of a successful
authentication: the attempt is not counted, and the state moves on.

## Strategy

What is asked for (`AnswersOwn`) is compared with the states and messages in which the code
does it (`SoundMessage`) for one message (`answersOwn_iff`); the runs follow.
-/

namespace Verse

open Lib

/-! ## What is sent -/

/-- What is in the buffer after `vs_handle_handshake`. -/
def HandshakeResult.buffer (r : HandshakeResult) (received : List UInt8) : Option (List UInt8) :=
  match r.reply with
  | none => some received
  | some cmds => StreamMessage.pack ⟨cmds, []⟩

/-- When TCP was negotiated, `vs_handle_handshake` runs the loop of the data connection and
then returns -1. -/
def VSession.entersTcpLoop (session : VSession) : Bool :=
  session.hostState = .negotiateNewhost && !hasFlag session.flags vrsTpUdp &&
    hasFlag session.flags vrsTpTcp

/-- `vs_handle_handshake` returns 1. -/
def returnsOne (env : ServerEnv) (session : VSession) (buf : Mem) (bufSize : ℕ) : Bool :=
  (vsHandleHandshake env session buf bufSize).goesOn && !session.entersTcpLoop

/-- The buffer holds a message that was packed, and not what was received. -/
def HandshakeResult.OwnAnswer (r : HandshakeResult) (received : List UInt8) : Prop :=
  ∃ cmds bytes, r.reply = some cmds ∧ StreamMessage.pack ⟨cmds, []⟩ = some bytes ∧
    r.buffer received = some bytes

/-- In the state RESPOND_USRAUTH: the message has a request with a password that is not the
one of the user. -/
def requestRejected (env : ServerEnv) (session : VSession) (buf : Mem) (bufSize : ℕ) : Bool :=
  decide (verseMessageHeaderSize ≤ bufSize) && decide (session.hostState = .respondUsrauth) &&
    (passwordRequest (receivedSysCmds buf bufSize).2).any fun (username, data) =>
      (env.userAuth username data).isNone

/-! ## Runs -/

/-- The session, and how many requests of this connection were rejected, which the source
does not count. -/
structure Answers where
  slot : Slot
  rejected : ℕ

/-- A message is given to `vs_handle_handshake`. -/
def Slot.inHandshake (slot : Slot) : Bool :=
  slot.session.hostState ≠ .listen && slot.session.hostState ≠ .closed &&
    !(slot.session.hostState = .streamOpen && slot.served)

/-- What an event does to the count. -/
def Answers.count (a : Answers) : SlotEvent → ℕ
  | .accept _ => 0
  | .message env buf bufSize =>
      if requestRejected env a.slot.session buf bufSize then a.rejected + 1 else a.rejected
  | _ => a.rejected

def Answers.step (a : Answers) (e : SlotEvent) : Option Answers :=
  (a.slot.step e).map fun (slot, _) => ⟨slot, a.count e⟩

/-- A slot that was not used yet. -/
def Answers.init : Answers := ⟨Slot.init, 0⟩

/-- **The server answers with its own messages**: when 1 is returned, the buffer holds a
packed message; and a rejected request leaves the state as it is, until as many as are
allowed were rejected, and then the connection is closed. -/
def AnswersOwn (a : Answers) : SlotEvent → Prop
  | .message env buf bufSize =>
      a.slot.inHandshake = true →
        let r := vsHandleHandshake env a.slot.session buf bufSize
        (returnsOne env a.slot.session buf bufSize = true →
          r.OwnAnswer ((List.range bufSize).map buf)) ∧
        (requestRejected env a.slot.session buf bufSize = true →
          if a.rejected + 1 < maxUserAuthAttempts then
            r.goesOn = true ∧ r.session.hostState = .respondUsrauth
          else r.goesOn = false)
  | _ => True

/-- The handler of the state answers with its own message, and rejects nothing. -/
def soundAnswer (env : ServerEnv) (session : VSession) (buf : Mem) (bufSize : ℕ) : Bool :=
  match session.hostState with
  | .respondMethods | .negotiateTokenDed => true
  | .respondUsrauth => !requestRejected env session buf bufSize
  | .negotiateNewhost =>
      !vsNegotiateNewhostLoop session (receivedSysCmds buf bufSize).2 ||
        hasFlag session.flags vrsTpUdp || hasFlag session.flags vrsTpTcp
  | _ => false

/-- **The condition**: the message is too short; or the state is one of the first three and
the message has no password that is rejected; or the state is NEGOTIATE_NEWHOST and the
message does not confirm the URL, or the transport is UDP or TCP. -/
def SoundMessage (a : Answers) : SlotEvent → Prop
  | .message env buf bufSize =>
      a.slot.inHandshake = true → verseMessageHeaderSize ≤ bufSize →
        soundAnswer env a.slot.session buf bufSize = true
  | _ => True

instance (a : Answers) : ∀ e, Decidable (SoundMessage a e)
  | .message env buf bufSize =>
      inferInstanceAs (Decidable (a.slot.inHandshake = true → verseMessageHeaderSize ≤ bufSize →
        soundAnswer env a.slot.session buf bufSize = true))
  | .accept _ | .pack _ | .closeFrame | .stop | .hangUp | .tearDown _ | .udpOpen | .udpReceive _ _
  | .udpSend _ | .udpAck _ | .udpNak _ | .udpEnd | .push _ _ | .handle => isTrue trivial

/-! ## The answers are packed -/

section Packed

variable {env : ServerEnv} {session : VSession} {cmds : List MessageCmd}

/-- A message of commands that can be packed. -/
theorem exists_pack (hcount : cmds.length ≤ maxSystemCommandCount)
    (hbuilt : ∀ cmd ∈ cmds, cmd.Built) : ∃ bytes, StreamMessage.pack ⟨cmds, []⟩ = some bytes := by
  unfold StreamMessage.pack
  rw [vPackStreamSystemCommands_built hcount hbuilt]
  exact ⟨_, rfl⟩

theorem negotiateStrings_built (id : NegotiateId) (feature : StringFtr) {values : List (List UInt8)}
    (hcount : values.length ≤ maxFtrValueCount) : (negotiateStrings id feature values).Built := by
  refine ⟨by rwa [List.length_map], fun str hstr => ?_⟩
  obtain ⟨value, -, rfl⟩ := List.mem_map.mp hstr
  refine ⟨List.length_take_le _ _, fun hzero => ?_⟩
  have := List.mem_takeWhile_imp (List.mem_of_mem_take hzero)
  simp at this

/-- The commands of an answer: each can be packed, and there are few of them. -/
def Packable (cmds : List MessageCmd) (bound : ℕ) : Prop :=
  cmds.length ≤ bound ∧ ∀ cmd ∈ cmds, cmd.Built

theorem Packable.cons {cmd : MessageCmd} {bound : ℕ} (hcmd : cmd.Built) (h : Packable cmds bound) :
    Packable (cmd :: cmds) (bound + 1) := by
  refine ⟨Nat.succ_le_succ h.1, fun other hother => ?_⟩
  rcases List.mem_cons.mp hother with rfl | hother
  · exact hcmd
  · exact h.2 other hother

theorem Packable.append {cmds' : List MessageCmd} {bound bound' : ℕ} (h : Packable cmds bound)
    (h' : Packable cmds' bound') : Packable (cmds ++ cmds') (bound + bound') := by
  refine ⟨?_, fun cmd hcmd => ?_⟩
  · rw [List.length_append]
    exact Nat.add_le_add h.1 h'.1
  · rcases List.mem_append.mp hcmd with hcmd | hcmd
    · exact h.2 cmd hcmd
    · exact h'.2 cmd hcmd

theorem packable_nil (bound : ℕ) : Packable [] bound :=
  ⟨Nat.zero_le _, List.forall_mem_nil _⟩

theorem packable_negotiate (id : NegotiateId) (feature : StringFtr) {values : List (List UInt8)}
    (hcount : values.length ≤ 1) : Packable [negotiateStrings id feature values] 1 :=
  (packable_nil 0).cons
    (negotiateStrings_built id feature (hcount.trans (by decide : 1 ≤ maxFtrValueCount)))

theorem packable_value (id : NegotiateId) (feature : StringFtr) (value : List UInt8) :
    Packable [negotiateStrings id feature [value]] 1 := packable_negotiate id feature (Nat.le_refl 1)

theorem length_toList_le {α : Type*} (o : Option α) : o.toList.length ≤ 1 := by
  cases o with
  | none => exact Nat.zero_le _
  | some x => exact Nat.le_refl _

theorem confirmClient_packable (session : VSession) (cmds : List MessageCmd) :
    Packable (confirmClient session cmds) 2 := by
  unfold confirmClient
  refine @Packable.append _ _ 1 1 ?_ ?_
  · split
    · exact packable_negotiate _ _ (length_toList_le _)
    · exact packable_nil 1
  · split
    · split
      · exact packable_negotiate _ _ (length_toList_le _)
      · exact packable_negotiate _ _ (Nat.zero_le _)
    · exact packable_nil 1

/-- A result with commands that can be packed. -/
theorem ownAnswer_of_packable {r : HandshakeResult} {bound : ℕ} (hreply : r.reply = some cmds)
    (h : Packable cmds bound) (hbound : bound ≤ maxSystemCommandCount) (received : List UInt8) :
    r.OwnAnswer received := by
  obtain ⟨bytes, hbytes⟩ := exists_pack (h.1.trans hbound) h.2
  refine ⟨cmds, bytes, hreply, hbytes, ?_⟩
  rw [HandshakeResult.buffer, hreply]
  exact hbytes

end Packed

/-! ## One message -/

section Message

variable {env : ServerEnv} {session : VSession} {cmds : List MessageCmd}

theorem vsRespondMethodsLoop_ownAnswer (hgoes : (vsRespondMethodsLoop session cmds).goesOn = true)
    (received : List UInt8) : (vsRespondMethodsLoop session cmds).OwnAnswer received := by
  unfold vsRespondMethodsLoop at hgoes ⊢
  dsimp only at hgoes ⊢
  split at hgoes
  case isTrue hasks =>
    rw [if_pos hasks]
    have hfailure : (MessageCmd.userAuthFailure [uaMethodPassword]).Built := Nat.le_refl 1
    exact ownAnswer_of_packable rfl (.cons hfailure (confirmClient_packable _ cmds)) (by decide)
      received
  case isFalse => cases hgoes

theorem vsRespondUserauthLoop_ownAnswer
    (hgoes : (vsRespondUserauthLoop env session cmds).goesOn = true) (received : List UInt8) :
    (vsRespondUserauthLoop env session cmds).OwnAnswer received := by
  unfold vsRespondUserauthLoop at hgoes ⊢
  cases hrequest : passwordRequest cmds with
  | none =>
      rw [hrequest] at hgoes
      cases hgoes
  | some request =>
      obtain ⟨username, data⟩ := request
      simp only [hrequest] at hgoes ⊢
      cases hauth : env.userAuth username data with
      | none =>
          have hfailure : (MessageCmd.userAuthFailure []).Built := Nat.zero_le _
          exact ownAnswer_of_packable rfl (.cons hfailure (packable_nil 0)) (by decide) received
      | some userId =>
          simp only [hauth] at hgoes ⊢
          cases havatar : env.createAvatarNode userId with
          | none =>
              rw [havatar] at hgoes
              cases hgoes
          | some avatarId =>
              have hsuccess : (MessageCmd.userAuthSuccess userId avatarId).Built := trivial
              have htoken := packable_value .changeR .token (cString env.randomToken)
              have hded := packable_value .changeL .ded env.ded
              exact ownAnswer_of_packable rfl (.cons hsuccess (htoken.append hded)) (by decide)
                received

theorem vsNegotiateTokenDedLoop_ownAnswer
    (hgoes : (vsNegotiateTokenDedLoop env session cmds).goesOn = true) (received : List UInt8) :
    (vsNegotiateTokenDedLoop env session cmds).OwnAnswer received := by
  unfold vsNegotiateTokenDedLoop at hgoes ⊢
  generalize tokenDedCmds env session cmds = t at hgoes ⊢
  dsimp only at hgoes ⊢
  by_cases hcomplete : t.complete = true
  · rw [if_pos hcomplete] at hgoes ⊢
    have hconfirmed (session : VSession) : Packable
        (negotiateStrings .confirmR .token session.hostToken.toList :: confirmClient session cmds)
        3 :=
      (packable_negotiate _ _ (length_toList_le _)).append (confirmClient_packable session cmds)
    by_cases hurl : t.urlConfirmed env = true
    · rw [if_pos hurl]
      exact ownAnswer_of_packable rfl
        ((packable_negotiate _ _ (length_toList_le _)).append (hconfirmed _)) (by decide) received
    · rw [if_neg hurl] at hgoes ⊢
      by_cases hthread : (hasFlag t.newFlags vrsTpUdp && !env.threadCreated) = true
      · rw [if_pos hthread] at hgoes
        cases hgoes
      · rw [if_neg hthread]
        exact ownAnswer_of_packable rfl
          ((packable_negotiate _ _ (Nat.zero_le _)).append
            ((packable_value _ _ _).append (hconfirmed _))) (by decide) received
  · rw [if_neg hcomplete] at hgoes
    cases hgoes

variable {buf : Mem} {bufSize : ℕ}

/-- An answer is the server's own whatever is done to the session. -/
theorem HandshakeResult.OwnAnswer.of_reply {r r' : HandshakeResult} {received : List UInt8}
    (h : r.OwnAnswer received) (hreply : r'.reply = r.reply) : r'.OwnAnswer received := by
  obtain ⟨cmds, bytes, hcmds, hbytes, hbuffer⟩ := h
  refine ⟨cmds, bytes, hreply.trans hcmds, hbytes, ?_⟩
  rw [← hbuffer, HandshakeResult.buffer, HandshakeResult.buffer, hreply]

/-- Nothing was packed. -/
theorem not_ownAnswer {r : HandshakeResult} (hreply : r.reply = none) (received : List UInt8) :
    ¬ r.OwnAnswer received := by
  rintro ⟨cmds, -, hcmds, -⟩
  exact Option.some_ne_none cmds (hcmds.symm.trans hreply)

theorem requestRejected_hostState (h : requestRejected env session buf bufSize = true) :
    session.hostState = .respondUsrauth := by
  unfold requestRejected at h
  simp only [Bool.and_eq_true, decide_eq_true_eq] at h
  exact h.1.2

/-- A rejected request is answered as if it had been successful. -/
theorem vsRespondUserauthLoop_rejected (h : requestRejected env session buf bufSize = true) :
    (vsRespondUserauthLoop env session (receivedSysCmds buf bufSize).2).goesOn = true := by
  unfold requestRejected at h
  simp only [Bool.and_eq_true] at h
  obtain ⟨⟨username, data⟩, hrequest, hnone⟩ := Option.any_eq_true _ _ |>.mp h.2
  unfold vsRespondUserauthLoop
  simp only [hrequest, Option.isNone_iff_eq_none.mp hnone]

/-- What is asked for, of one message: the first part of `AnswersOwn`. -/
def Returns (env : ServerEnv) (session : VSession) (buf : Mem) (bufSize : ℕ) : Prop :=
  returnsOne env session buf bufSize = true →
    (vsHandleHandshake env session buf bufSize).OwnAnswer ((List.range bufSize).map buf)

/-- In the state NEGOTIATE_NEWHOST. -/
theorem returns_newhost_iff (hsize : verseMessageHeaderSize ≤ bufSize)
    (hstate : session.hostState = .negotiateNewhost) :
    Returns env session buf bufSize ↔ soundAnswer env session buf bufSize = true := by
  unfold Returns soundAnswer returnsOne VSession.entersTcpLoop vsHandleHandshake
  rw [if_neg (Nat.not_lt.mpr hsize)]
  simp only [hstate, decide_true, Bool.true_and]
  by_cases hconfirmed : vsNegotiateNewhostLoop session (receivedSysCmds buf bufSize).2 = true
  · rw [if_pos hconfirmed]
    by_cases hudp : hasFlag session.flags vrsTpUdp = true
    · rw [if_pos hudp]
      simp [HandshakeResult.refuse, hudp]
    · rw [if_neg hudp]
      by_cases htcp : hasFlag session.flags vrsTpTcp = true
      · simp [htcp, hudp]
      · -- the buffer is left as it is
        simp only [hconfirmed, hudp, htcp]
        constructor
        · intro hreturns
          split at hreturns
          · exact absurd (hreturns rfl) (not_ownAnswer rfl _)
          · exact absurd (hreturns rfl) (not_ownAnswer rfl _)
        · exact fun hsound => absurd hsound (by decide)
  · rw [if_neg hconfirmed]
    simp [HandshakeResult.refuse, hconfirmed]

/-- In the states before, when nothing is rejected. -/
theorem returns_of_handler (hsize : verseMessageHeaderSize ≤ bufSize)
    (hstate : session.hostState = .respondMethods ∨ session.hostState = .respondUsrauth ∨
      session.hostState = .negotiateTokenDed) : Returns env session buf bufSize := by
  intro hone
  have hgoes := (Bool.and_eq_true_iff.mp hone).1
  unfold vsHandleHandshake at hgoes ⊢
  rw [if_neg (Nat.not_lt.mpr hsize)] at hgoes ⊢
  rcases hstate with hstate | hstate | hstate
  · simp only [hstate] at hgoes ⊢
    split at hgoes
    case isTrue hloop =>
      rw [if_pos hloop]
      exact (vsRespondMethodsLoop_ownAnswer hloop _).of_reply rfl
    case isFalse hloop => exact absurd hgoes hloop
  · simp only [hstate] at hgoes ⊢
    split at hgoes
    case isTrue hloop =>
      rw [if_pos hloop]
      exact (vsRespondUserauthLoop_ownAnswer hloop _).of_reply rfl
    case isFalse hloop => simp [maxUserAuthAttempts] at hgoes
  · simp only [hstate] at hgoes ⊢
    exact vsNegotiateTokenDedLoop_ownAnswer hgoes _

/-- In the states without a handler. -/
theorem not_returns_of_default (hsize : verseMessageHeaderSize ≤ bufSize)
    (hstate : session.hostState = .listen ∨ session.hostState = .streamOpen ∨
      session.hostState = .closing ∨ session.hostState = .closed) :
    ¬ Returns env session buf bufSize := by
  intro hreturns
  unfold Returns returnsOne VSession.entersTcpLoop vsHandleHandshake at hreturns
  rw [if_neg (Nat.not_lt.mpr hsize)] at hreturns
  rcases hstate with hstate | hstate | hstate | hstate <;>
    · simp only [hstate] at hreturns
      exact absurd (hreturns rfl) (not_ownAnswer rfl _)

/-- A rejected request goes on to the next state. -/
theorem vsHandleHandshake_rejected (h : requestRejected env session buf bufSize = true) :
    (vsHandleHandshake env session buf bufSize).goesOn = true := by
  have hloop := vsRespondUserauthLoop_rejected h
  have hsize : verseMessageHeaderSize ≤ bufSize := by
    unfold requestRejected at h
    simp only [Bool.and_eq_true, decide_eq_true_eq] at h
    exact h.1.1
  unfold vsHandleHandshake
  rw [if_neg (Nat.not_lt.mpr hsize)]
  simp only [requestRejected_hostState h, hloop, if_true]

/-- The answer of a message without a rejected request. -/
theorem returns_iff (hsize : verseMessageHeaderSize ≤ bufSize)
    (haccepted : requestRejected env session buf bufSize = false) :
    Returns env session buf bufSize ↔ soundAnswer env session buf bufSize = true := by
  cases hstate : session.hostState with
  | respondMethods =>
      refine iff_of_true (returns_of_handler hsize (.inl hstate)) ?_
      simp only [soundAnswer, hstate]
  | respondUsrauth =>
      refine iff_of_true (returns_of_handler hsize (.inr (.inl hstate))) ?_
      simp only [soundAnswer, hstate, haccepted, Bool.not_false]
  | negotiateTokenDed =>
      refine iff_of_true (returns_of_handler hsize (.inr (.inr hstate))) ?_
      simp only [soundAnswer, hstate]
  | negotiateNewhost => exact returns_newhost_iff hsize hstate
  | listen =>
      refine iff_of_false (not_returns_of_default hsize (.inl hstate)) ?_
      simp [soundAnswer, hstate]
  | streamOpen =>
      refine iff_of_false (not_returns_of_default hsize (.inr (.inl hstate))) ?_
      simp [soundAnswer, hstate]
  | closing =>
      refine iff_of_false (not_returns_of_default hsize (.inr (.inr (.inl hstate)))) ?_
      simp [soundAnswer, hstate]
  | closed =>
      refine iff_of_false (not_returns_of_default hsize (.inr (.inr (.inr hstate)))) ?_
      simp [soundAnswer, hstate]

/-- **One message.** -/
theorem answersOwn_iff (a : Answers) (e : SlotEvent) : AnswersOwn a e ↔ SoundMessage a e := by
  cases e with
  | message env buf bufSize =>
      refine imp_congr_right fun _ => ?_
      by_cases hsize : verseMessageHeaderSize ≤ bufSize
      · cases hrejected : requestRejected env a.slot.session buf bufSize with
        | true =>
            -- it is answered, but it is the last one that is allowed
            refine iff_of_false (fun hown => ?_) fun hsound => ?_
            · have hclosed := hown.2 rfl
              rw [if_neg (by unfold maxUserAuthAttempts; omega),
                vsHandleHandshake_rejected hrejected] at hclosed
              exact absurd hclosed (by decide)
            · have := hsound hsize
              simp [soundAnswer, requestRejected_hostState hrejected, hrejected] at this
        | false =>
            have hiff := returns_iff hsize hrejected
            constructor
            · exact fun hown _ => hiff.mp hown.1
            · exact fun hsound => ⟨hiff.mpr (hsound hsize), fun htrue => absurd htrue (by decide)⟩
      · have hrefused : vsHandleHandshake env a.slot.session buf bufSize =
            .refuse a.slot.session := if_pos (Nat.not_le.mp hsize)
        refine iff_of_true ⟨fun hone => ?_, fun hrejected => ?_⟩ fun h => absurd h hsize
        · rw [returnsOne, hrefused] at hone
          cases hone
        · simp [requestRejected, hsize] at hrejected
  | _ => exact Iff.rfl

end Message

/-- **Answers of the handshake.** -/
theorem handshakeAnswers_iff (events : List SlotEvent) :
    Admissible Answers.step AnswersOwn .init events ↔
      Admissible Answers.step SoundMessage .init events :=
  admissible_congr answersOwn_iff _ events

/-- A client with a wrong password. -/
def wrongPassword : List SlotEvent :=
  [.accept false, clientMessage [.userAuthRequest (ascii "joe") uaMethodNone []],
    clientMessage [.userAuthRequest (ascii "joe") uaMethodPassword (ascii "guess")]]

theorem not_handshakeAnswers :
    ¬ ∀ events : List SlotEvent, Admissible Answers.step AnswersOwn .init events := by
  intro hall
  have hsound := (admissible_congr answersOwn_iff _ _).mp (hall wrongPassword)
  exact absurd hsound (by decide +kernel)

end Verse
