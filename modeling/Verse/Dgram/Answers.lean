import Verse.Dgram.Client

/-!
# The answers that end the handshake

The client changes its state before it calls the callbacks for system commands, and the
loop decides by the state.  A packet with the right header and a wrong token is counted
as an attempt that failed, but when the attempts are used up the loop ends with success.
The callbacks themselves are only called for commands that are there, and the token that
the server proposes is not compared.

## Strategy

A pass in which no packet has the right header leaves the state as it is
(`AttemptLoop.pass_of_dropped`), so a loop that ends with success was given one
(`AttemptLoop.answered`).
-/

namespace Verse.Dgram

open Lib

/-- The context in which the handler is called in an attempt, if it is called. -/
def AttemptLoop.handled (L : AttemptLoop) (x : VCContext × Attempt) : Option VCContext :=
  match x.2.sendOk, x.2.received with
  | true, .datagram io =>
      match ((L.initSendPacket x.1).vcSendPacket true).vcReadPacket io with
      | (C, true) => some C
      | (_, false) => none
  | _, _ => none

/-- The handler is called in the context `D` during the loop. -/
def AttemptLoop.Handles (L : AttemptLoop) (C : VCContext) (attempts : List Attempt)
    (D : VCContext) : Prop :=
  ∃ x ∈ L.made C attempts, D ∈ L.handled x

/-- One value of the command confirms the token of the client. -/
def RPacket.confirmsToken (p : RPacket) (token : Option (List UInt8)) : Bool :=
  p.sysCmd.packed.any fun
    | .negotiate ⟨.confirmL, .string8 .token values⟩ => values.length == 1 && tokenIs token values
    | _ => false

/-- The token is proposed. -/
def RPacket.proposesToken (p : RPacket) (token : Option (List UInt8)) : Bool :=
  p.sysCmd.packed.any fun
    | .negotiate ⟨.changeL, .string8 .token values⟩ => tokenIs token values
    | _ => false

/-- All callbacks of the state accept the system commands. -/
def VContext.callbacksAccept (C : VCContext) (ctx : VCCtx) (state : UdpClientState) : Bool :=
  (vConnDgramHandleSysCmds (vcCallbacks ctx C.session state) C.rPacket C.conn).2

/-- A valid answer in REQUEST state. -/
def VContext.validAnswer (C : VCContext) (ctx : VCCtx) : Bool :=
  C.rPacket.isAnswer C.conn && C.callbacksAccept ctx .request &&
    C.rPacket.confirmsToken C.session.hostToken && C.rPacket.proposesToken C.session.peerToken

/-- A valid answer in PARTOPEN state. -/
def VContext.validConfirmation (C : VCContext) (ctx : VCCtx) : Bool :=
  C.rPacket.isConfirmation C.conn && C.callbacksAccept ctx .partopen

/-! ## The loops -/

variable {L : AttemptLoop} {C : VCContext} {attempts : List Attempt}

theorem made_cons (a : Attempt) (hgoes : L.goesOn C = true) :
    L.made C (a :: attempts) =
      (C, a) :: (if (L.pass C a).2 = none then L.made (L.pass C a).1 attempts else []) := by
  rw [AttemptLoop.made, if_pos hgoes]
  rcases L.pass C a with ⟨C', _ | exit⟩ <;> rfl

theorem loop_cons (a : Attempt) (hgoes : L.goesOn C = true) :
    L.loop C (a :: attempts) =
      if (L.pass C a).2 = none then L.loop (L.pass C a).1 attempts else L.pass C a := by
  rw [AttemptLoop.loop, if_pos hgoes]
  rcases L.pass C a with ⟨C', _ | exit⟩ <;> rfl

theorem loop_of_not_goesOn (hgoes : L.goesOn C = false) :
    L.loop C attempts = (C, some (L.exit C)) := by
  cases attempts with
  | nil => simp [AttemptLoop.loop, hgoes]
  | cons a rest => simp [AttemptLoop.loop, hgoes]

/-- What every pass preserves holds behind the loop. -/
theorem AttemptLoop.loop_invariant {P : VCContext → Prop}
    (hpass : ∀ C a, P C → P (L.pass C a).1) (h : P C) : P (L.loop C attempts).1 := by
  induction attempts generalizing C with
  | nil => exact h
  | cons a rest ih =>
      cases hgoes : L.goesOn C with
      | false =>
          rw [loop_of_not_goesOn hgoes]
          exact h
      | true =>
          rw [loop_cons a hgoes]
          split
          · exact ih (hpass C a h)
          · exact hpass C a h

/-- A packet that is accepted is the end of the loop behind the state. -/
theorem AttemptLoop.exit_eq_success_iff : L.exit C = .success ↔ C.conn.hostState ≠ L.state := by
  unfold AttemptLoop.exit
  split <;> simp_all

theorem AttemptLoop.hostState_of_pass {a : Attempt} (h : (L.pass C a).2 = some .success) :
    (L.pass C a).1.conn.hostState ≠ L.state := by
  revert h
  unfold AttemptLoop.pass AttemptLoop.countAttempt
  cases a.sendOk with
  | false => simp
  | true =>
      dsimp only
      rw [if_neg (by simp)]
      split <;> cases a.shutdown <;> simp [AttemptLoop.exit_eq_success_iff]

/-- A loop that ends with success has left its state. -/
theorem AttemptLoop.hostState_of_success (h : (L.loop C attempts).2 = some .success) :
    (L.loop C attempts).1.conn.hostState ≠ L.state := by
  induction attempts generalizing C with
  | nil =>
      rw [AttemptLoop.loop] at h
      split at h
      · cases h
      · exact AttemptLoop.exit_eq_success_iff.mp (Option.some.inj h)
  | cons a rest ih =>
      cases hgoes : L.goesOn C with
      | false =>
          rw [loop_of_not_goesOn hgoes] at h ⊢
          exact AttemptLoop.exit_eq_success_iff.mp (Option.some.inj h)
      | true =>
          rw [loop_cons a hgoes] at h ⊢
          split at h
          case isTrue hpass =>
            rw [if_pos hpass]
            exact ih h
          case isFalse hpass =>
            rw [if_neg hpass]
            exact AttemptLoop.hostState_of_pass h

/-- **A loop that ends with success was given a packet that is `valid`**, when all other
attempts leave the state. -/
theorem AttemptLoop.answered {valid : VCContext → Prop}
    (hstate : C.conn.hostState = L.state)
    (hkeep : ∀ x ∈ L.made C attempts, x.1.conn.hostState = L.state →
      (∃ D ∈ L.handled x, valid D) ∨
        (L.pass x.1 x.2).1.conn.hostState = L.state ∧ (L.pass x.1 x.2).2 ≠ some .success)
    (hsuccess : (L.loop C attempts).2 = some .success) :
    ∃ D, L.Handles C attempts D ∧ valid D := by
  induction attempts generalizing C with
  | nil =>
      have hleft := AttemptLoop.hostState_of_success hsuccess
      exact absurd hstate hleft
  | cons a rest ih =>
      cases hgoes : L.goesOn C with
      | false =>
          have hleft := AttemptLoop.hostState_of_success hsuccess
          rw [loop_of_not_goesOn hgoes] at hleft
          exact absurd hstate hleft
      | true =>
          rw [made_cons a hgoes] at hkeep
          rw [loop_cons a hgoes] at hsuccess
          rcases hkeep (C, a) List.mem_cons_self hstate with ⟨D, hD, hvalid⟩ | ⟨hsame, hnot⟩
          · refine ⟨D, ⟨(C, a), ?_, hD⟩, hvalid⟩
            rw [made_cons a hgoes]
            exact List.mem_cons_self
          · by_cases hnext : (L.pass C a).2 = none
            · rw [if_pos hnext] at hsuccess hkeep
              obtain ⟨D, ⟨x, hx, hD⟩, hvalid⟩ :=
                ih hsame (fun x hx => hkeep x (List.mem_cons_of_mem _ hx)) hsuccess
              refine ⟨D, ⟨x, ?_, hD⟩, hvalid⟩
              rw [made_cons a hgoes, if_pos hnext]
              exact List.mem_cons_of_mem _ hx
            · rw [if_neg hnext] at hsuccess
              exact absurd hsuccess hnot

/-! ## The passes -/

@[simp] theorem vcSendPacket_hostState (C : VCContext) (sendOk : Bool) :
    (C.vcSendPacket sendOk).conn.hostState = C.conn.hostState := by
  unfold VContext.vcSendPacket VContext.putPacket
  cases sendOk
  · rfl
  · cases hstate : C.conn.hostState <;> simp [hstate]

@[simp] theorem vcReadPacket_hostState (C : VCContext) (io : IoBuf) :
    (C.vcReadPacket io).1.conn.hostState = C.conn.hostState := by
  unfold VContext.vcReadPacket
  split
  · rfl
  · dsimp only
    split <;> rfl

@[simp] theorem setAttempts_hostState (C : VCContext) (state : UdpClientState) (count : UInt16) :
    (C.setAttempts state count).conn.hostState = C.conn.hostState := rfl

/-- A pass in which the handler drops the packet, if there is one, does not change the
state. -/
theorem AttemptLoop.pass_of_dropped {a : Attempt}
    (hinit : (L.initSendPacket C).conn.hostState = C.conn.hostState)
    (hdrop : ∀ D ∈ L.handled (C, a), L.handler D = (D, .corrupted)) :
    (L.pass C a).1.conn.hostState = C.conn.hostState ∧ (L.pass C a).2 ≠ some .success := by
  unfold AttemptLoop.handled at hdrop
  unfold AttemptLoop.pass
  cases hok : a.sendOk with
  | false => simp [hinit]
  | true =>
      have hcount : ∀ C' : VCContext, C'.conn.hostState = C.conn.hostState →
          (L.countAttempt C' a.shutdown).1.conn.hostState = C.conn.hostState ∧
            (L.countAttempt C' a.shutdown).2 ≠ some .success := by
        intro C' hC'
        refine ⟨hC', ?_⟩
        unfold AttemptLoop.countAttempt
        cases a.shutdown <;> simp
      dsimp only at hdrop ⊢
      rw [if_neg (by simp)]
      cases hreceived : a.received with
      | failed => simp [vcReceiveAndHandlePacket, hinit]
      | faked => simp [vcReceiveAndHandlePacket, hinit]
      | nothing => exact hcount _ (by simp [hinit])
      | datagram io =>
          have hread := vcReadPacket_hostState ((L.initSendPacket C).vcSendPacket true) io
          rw [vcSendPacket_hostState, hinit] at hread
          rw [hok, hreceived] at hdrop
          dsimp only at hdrop
          obtain ⟨D, hD, hresult⟩ : ∃ D : VCContext, D.conn.hostState = C.conn.hostState ∧
              vcReceiveAndHandlePacket L.handler ((L.initSendPacket C).vcSendPacket true)
                (.datagram io) = (D, .corrupted) := by
            rcases hpacket : ((L.initSendPacket C).vcSendPacket true).vcReadPacket io with ⟨D, _ | _⟩
            · rw [hpacket] at hread
              exact ⟨D, hread, by simp [vcReceiveAndHandlePacket, hpacket]⟩
            · rw [hpacket] at hread hdrop
              exact ⟨D, hread, by simp [vcReceiveAndHandlePacket, hpacket, hdrop D rfl]⟩
          rw [hresult]
          exact hcount D hD

/-- The packet is dropped when its header is not that of an answer. -/
theorem vcRequestHandlePacket_of_not_answer (ctx : VCCtx)
    (h : C.rPacket.isAnswer C.conn = false) : vcRequestHandlePacket ctx C = (C, .corrupted) := by
  simp [vcRequestHandlePacket, h]

@[inherit_doc vcRequestHandlePacket_of_not_answer]
theorem vcPartopenHandlePacket_of_not_confirmation (ctx : VCCtx)
    (h : C.rPacket.isConfirmation C.conn = false) :
    vcPartopenHandlePacket ctx C = (C, .corrupted) := by
  simp [vcPartopenHandlePacket, h]

theorem vcPartopenInitSendPacket_hostState (C : VCContext) :
    C.vcPartopenInitSendPacket.conn.hostState = C.conn.hostState := by
  unfold VContext.vcPartopenInitSendPacket
  split <;> rfl

/-- What reading a packet, the handler and the note about the packet preserve. -/
theorem receive_invariant {P : VCContext → Prop}
    {handler : VCContext → VCContext × ReceivePacket} {received : Received}
    (hread : ∀ io, received = .datagram io → P (C.vcReadPacket io).1)
    (hhandler : ∀ D, P D → P (handler D).1) (hnote : ∀ D, P D → P D.noteReceived) (h : P C) :
    P (vcReceiveAndHandlePacket handler C received).1 := by
  cases received with
  | failed => exact h
  | nothing => exact h
  | faked => exact h
  | datagram io =>
      have hread := hread io rfl
      simp only [vcReceiveAndHandlePacket]
      split
      case h_1 heq =>
        rw [heq] at hread
        exact hread
      case h_2 D heq =>
        rw [heq] at hread
        have hD := hhandler D hread
        split
        case h_1 hresult =>
          rw [hresult] at hD
          exact hnote _ hD
        case h_2 hresult =>
          rw [hresult] at hD
          exact hD

/-- What sending, receiving and counting an attempt preserve. -/
theorem AttemptLoop.pass_invariant {P : VCContext → Prop} {a : Attempt}
    (hsend : P ((L.initSendPacket C).vcSendPacket a.sendOk))
    (hreceive : ∀ D, P D → P (vcReceiveAndHandlePacket L.handler D a.received).1)
    (hcount : ∀ D count, P D → P (D.setAttempts L.state count)) : P (L.pass C a).1 := by
  have hreceived := hreceive _ hsend
  unfold AttemptLoop.pass
  dsimp only
  split
  · exact hsend
  · split
    case h_1 heq =>
      rw [heq] at hreceived
      exact hreceived
    case h_2 heq =>
      rw [heq] at hreceived
      exact hcount _ _ hreceived
    case h_3 heq =>
      rw [heq] at hreceived
      exact hcount _ _ hreceived
    case h_4 heq =>
      rw [heq] at hreceived
      exact hreceived
    case h_5 heq =>
      rw [heq] at hreceived
      exact hreceived
    case h_6 heq =>
      rw [heq] at hreceived
      exact hreceived

/-- What the handler of REQUEST does to the ids, the packet and the state. -/
theorem vcRequestHandlePacket_frame (ctx : VCCtx) (D : VCContext) :
    (vcRequestHandlePacket ctx D).1.conn.hostId = D.conn.hostId ∧
      (vcRequestHandlePacket ctx D).1.rPacket = D.rPacket ∧
      ((vcRequestHandlePacket ctx D).1.conn.hostState = D.conn.hostState ∨
        (vcRequestHandlePacket ctx D).1.conn.hostState = .partopen) := by
  have hcmds : ∀ conn : VCConn, conn.hostId = D.conn.hostId → conn.hostState = .partopen →
      (vConnDgramHandleSysCmds (vcCallbacks ctx D.session .request) D.rPacket conn).1.hostId =
          D.conn.hostId ∧
        (vConnDgramHandleSysCmds (vcCallbacks ctx D.session .request) D.rPacket conn).1.hostState =
          .partopen := by
    intro conn hid hstate
    exact vConnDgramHandleSysCmds_invariant
      (P := fun conn : VCConn =>
        conn.hostId = D.conn.hostId ∧ conn.hostState = UdpClientState.partopen)
      (fun id preference conn hconn => by
        obtain ⟨hstate, hid, -⟩ := vcCallbacks_sameIds ctx D.session .request id preference conn
        exact ⟨hid.trans hconn.1, hstate.trans hconn.2⟩) D.rPacket ⟨hid, hstate⟩
  obtain ⟨hid, hstate⟩ := hcmds
    { D.conn with hostState := .partopen, peerId := D.rPacket.header.payloadId } rfl rfl
  unfold vcRequestHandlePacket VContext.vcHandleSysCmds
  split
  · dsimp only
    split
    · exact ⟨hid, rfl, Or.inr hstate⟩
    · exact ⟨hid, rfl, Or.inr hstate⟩
  · exact ⟨rfl, rfl, Or.inl rfl⟩

/-- The client is in one of its first two states. -/
def VContext.InHandshake (C : VCContext) : Prop :=
  C.conn.hostState = .request ∨ C.conn.hostState = .partopen

theorem VContext.InHandshake.of_eq {D : VCContext} (h : C.InHandshake)
    (hsame : D.conn.hostState = C.conn.hostState) : D.InHandshake :=
  h.imp hsame.trans hsame.trans

/-- The states of the loop of REQUEST. -/
theorem vcRequestLoop_hostState (ctx : VCCtx)
    (h : (vcRequestLoop ctx C attempts).2 = some .success) :
    (vcRequestLoop ctx C attempts).1.conn.hostState = .partopen := by
  have hstates : (vcRequestLoop ctx C attempts).1.InHandshake := by
    apply AttemptLoop.loop_invariant (P := VContext.InHandshake) ?_ (Or.inl rfl)
    intro C a hC
    apply AttemptLoop.pass_invariant (P := VContext.InHandshake)
    · exact hC.of_eq (vcSendPacket_hostState _ a.sendOk)
    · intro D hD
      apply receive_invariant (P := VContext.InHandshake) ?_ ?_ ?_ hD
      · exact fun io _ => hD.of_eq (vcReadPacket_hostState D io)
      · intro E hE
        rcases (vcRequestHandlePacket_frame ctx E).2.2 with hsame | hpartopen
        · exact hE.of_eq hsame
        · exact Or.inr hpartopen
      · exact fun E hE => hE.of_eq (noteReceived_hostState E)
    · exact fun D count hD => hD
  exact hstates.resolve_left (AttemptLoop.hostState_of_success h)

/-- **The client goes on only after a valid answer**, when every packet that has the
header of an answer is a valid one. -/
theorem vcHandshake_answered (ctx : VCCtx) (C : VCContext) (attempts attempts' : List Attempt)
    (hanswers : ∀ D, (requestLoop ctx).Handles C.requestInit attempts D →
      D.rPacket.isAnswer D.conn = true → D.validAnswer ctx = true)
    (hsuccess : (vcRequestLoop ctx C attempts).2 = some .success) :
    (∃ D, (requestLoop ctx).Handles C.requestInit attempts D ∧ D.validAnswer ctx = true) ∧
      ((vcPartopenLoop ctx (vcRequestLoop ctx C attempts).1 attempts').2 = some .success →
        ∃ D, (partopenLoop ctx).Handles
            ((vcRequestLoop ctx C attempts).1.setAttempts .partopen 0) attempts' D ∧
          D.validConfirmation ctx = true) := by
  constructor
  · refine @AttemptLoop.answered (requestLoop ctx) _ _ (fun D => D.validAnswer ctx = true) (by rfl)
      (fun x hx hstate => ?_) hsuccess
    by_cases hanswer : ∃ D ∈ (requestLoop ctx).handled x, D.rPacket.isAnswer D.conn = true
    · obtain ⟨D, hD, hheader⟩ := hanswer
      exact Or.inl ⟨D, hD, hanswers D ⟨x, hx, hD⟩ hheader⟩
    · obtain ⟨hsame, hnot⟩ := @AttemptLoop.pass_of_dropped (requestLoop ctx) x.1 x.2 (by rfl)
        fun D hD => vcRequestHandlePacket_of_not_answer ctx
          (Bool.eq_false_iff.mpr fun hheader => hanswer ⟨D, hD, hheader⟩)
      exact Or.inr ⟨hsame.trans hstate, hnot⟩
  · intro hconfirmed
    refine @AttemptLoop.answered (partopenLoop ctx) _ _ (fun D => D.validConfirmation ctx = true)
      (vcRequestLoop_hostState ctx hsuccess) (fun x hx hstate => ?_) hconfirmed
    by_cases hanswer : ∃ D ∈ (partopenLoop ctx).handled x, D.rPacket.isConfirmation D.conn = true
    · obtain ⟨D, hD, hheader⟩ := hanswer
      refine Or.inl ⟨D, hD, ?_⟩
      -- the state has no callbacks that could refuse the packet
      have haccept : D.callbacksAccept ctx .partopen = true :=
        congrArg Prod.snd (vcHandleSysCmds_partopen D ctx)
      simp [VContext.validConfirmation, hheader, haccept]
    · obtain ⟨hsame, hnot⟩ := @AttemptLoop.pass_of_dropped (partopenLoop ctx) x.1 x.2
        (vcPartopenInitSendPacket_hostState x.1)
        fun D hD => vcPartopenHandlePacket_of_not_confirmation ctx
          (Bool.eq_false_iff.mpr fun hheader => hanswer ⟨D, hD, hheader⟩)
      exact Or.inr ⟨hsame.trans hstate, hnot⟩

/-! ## A wrong token -/

/-- The values that the client begins with. -/
def sampleVCCtx : VCCtx := ⟨0, 10⟩

/-- A client whose tokens are `AAA` and `BBB`. -/
def clientContext : VCContext where
  conn := { vConnDgramInit UdpClientState.request with hostId := 7 }
  session := { vInitSession with hostToken := some [65, 65, 65], peerToken := some [66, 66, 66] }
  rPacket := RPacket.zero
  sHeader := RPacket.zero.header
  sSysCmd := SysCmdArray.zero
  unpacked := []
  sent := []

/-- An answer in which the token of the client is confirmed with these bytes, and `BBB`
is proposed. -/
def answerBytes (token : UInt8) : List UInt8 :=
  [0x10, 0xD0, 0xFF, 0xFF, 0, 0, 0, 9, 0, 0, 0, 0, 0, 0, 0, 0, 1, 0, 0, 0, 7] ++
    [5, 7, 4, 3, token, token, token] ++ [3, 7, 4, 3, 66, 66, 66]

/-- A pass in which the answer arrives. -/
def answerAttempt (token : UInt8) : Attempt :=
  ⟨true, .datagram ⟨0, ofBytes (answerBytes token), UInt16.ofNat (answerBytes token).length⟩, false⟩

/-- What holds of all packets that are handled, when it can be computed. -/
theorem forall_handles (test : VCContext → Bool)
    (h : ((L.made C attempts).all fun x => (L.handled x).all test) = true) {D : VCContext}
    (hD : L.Handles C attempts D) : test D = true := by
  obtain ⟨x, hx, hmem⟩ := hD
  have hx := List.all_eq_true.mp h x hx
  rw [Option.mem_def] at hmem
  simpa [hmem] using hx

theorem vcHandshake_answered_sample :
    (∃ D, (requestLoop sampleVCCtx).Handles clientContext.requestInit [answerAttempt 65] D ∧
      D.validAnswer sampleVCCtx = true) ∧
      ((vcPartopenLoop sampleVCCtx (vcRequestLoop sampleVCCtx clientContext [answerAttempt 65]).1
        []).2 = some .success →
        ∃ D, (partopenLoop sampleVCCtx).Handles
            ((vcRequestLoop sampleVCCtx clientContext [answerAttempt 65]).1.setAttempts .partopen 0)
            [] D ∧ D.validConfirmation sampleVCCtx = true) :=
  vcHandshake_answered sampleVCCtx clientContext [answerAttempt 65] []
    (fun _ hD _ => forall_handles (fun D => D.validAnswer sampleVCCtx) (by decide +kernel) hD)
    (by decide +kernel)

/-- An answer that confirms another token is refused; no other packet comes, and the loop
ends with success. -/
theorem wrong_token_goes_on :
    (vcRequestLoop sampleVCCtx clientContext
        (answerAttempt 67 :: List.replicate 9 ⟨true, .nothing, false⟩)).2 = some .success ∧
      ¬ ∃ D, (requestLoop sampleVCCtx).Handles clientContext.requestInit
          (answerAttempt 67 :: List.replicate 9 ⟨true, .nothing, false⟩) D ∧
        D.validAnswer sampleVCCtx = true := by
  refine ⟨by decide +kernel, fun ⟨D, hD, hvalid⟩ => ?_⟩
  have hnot := forall_handles (fun D => !D.validAnswer sampleVCCtx) (by decide +kernel) hD
  rw [hvalid] at hnot
  cases hnot

end Verse.Dgram
