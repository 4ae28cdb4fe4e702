import Verse.History.Compression
import Verse.Lib.Run

/-!
# What the server does with a received packet

`vs_handle_packet` and `vs_OPEN_CLOSEREQ_handle_packet` of `vs_udp_connect.c`, and
the part of `handle_packet_in_OPEN_state` that is about receiving.  ACK and NAK
commands in the packet concern what was sent, and do not touch the state here.

`handle_node_commands` drops a packet that is not newer than the last one, but its
answer is ignored on the server, and `last_r_pay` goes back to the id of the dropped
packet.  As long as no such packet arrives the node commands of a packet are
delivered at most once (`server_atMostOnce`).

## Strategy

`VServerConn.Inv` says that the history of ACK and NAK commands is the compressed
form of marks up to `last_r_pay`, and that no packet whose commands were delivered
is marked as lost.  A new packet only adds marks above `last_r_pay`.
-/

namespace Verse

open Lib

/-- The states of a connection after the handshake. -/
inductive ServerState where
  | opened
  | closereq
  | closed
  deriving DecidableEq, Repr

/-- `RECEIVE_PACKET_*`. -/
inductive ReceiveResult where
  | reserved
  | success
  | corrupted
  | attemptsExceed
  | unordered
  deriving DecidableEq, Repr

/-- `VRS_VERSION`. -/
def vrsVersion : UInt8 := 1

/-- `PAY_FLAG`, `ACK_FLAG`, `ANK_FLAG` and `FIN_FLAG`. -/
def payFlag : UInt8 := (1 : UInt8) <<< (7 : UInt8)

def ackFlag : UInt8 := (1 : UInt8) <<< (6 : UInt8)

def ankFlag : UInt8 := (1 : UInt8) <<< (5 : UInt8)

def finFlag : UInt8 := (1 : UInt8) <<< (3 : UInt8)

/-- What is read of a received `VPacket`.  `firstAck` is the payload id of the first
system command if that is an ACK, and `callbacks` is the answer of
`v_conn_dgram_handle_sys_cmds`.  `data` are the node commands. -/
structure VPacket where
  version : UInt8
  flags : UInt8
  payloadId : UInt32
  ankId : UInt32
  firstAck : Option UInt32
  callbacks : Bool
  data : Option (List UInt8)
  deriving DecidableEq, Repr

def VPacket.hasFlag (p : VPacket) (flag : UInt8) : Bool := p.flags &&& flag != 0

/-- What is used of `VDgramConn`.  `delivered` are the calls of `v_cmd_unpack`, that is
the payload ids and the node commands that went to `in_queue`. -/
structure VServerConn where
  hostState : ServerState
  hostId : UInt32
  peerId : UInt32
  attempts : ℕ
  maxAttempts : ℕ
  lastRPay : ℕ
  ackNak : AckNakHistory
  delivered : List (ℕ × List UInt8)

/-- The second packet of the handshake, whose payload id is `peer_id+1`, was received:
`vs_RESPOND_handle_packet`, `vs_OPEN_init` and `vs_handle_packet`. -/
def VServerConn.init (hostId peerId : UInt32) (maxAttempts : ℕ) : VServerConn where
  hostState := .opened
  hostId := hostId
  peerId := peerId
  attempts := 1
  maxAttempts := maxAttempts
  lastRPay := (peerId + 1).toNat
  ackNak := vAckNakHistoryAddCmd vAckNakHistoryInit (.ack, (peerId + 1).toNat)
  delivered := []

/-- `handle_node_commands`. -/
def handleNodeCommands (conn : VServerConn) (p : VPacket) : VServerConn × ReceiveResult :=
  match recordPayload conn.ackNak conn.lastRPay p.payloadId.toNat with
  | none => (conn, .unordered)
  | some ackNak =>
      ({ conn with
          ackNak := ackNak
          delivered := conn.delivered ++ (p.data.map (p.payloadId.toNat, ·)).toList }, .success)

/-- The end of `handle_packet_in_OPEN_state`.  `UDP_CLIENT_STATE_CLOSING` is the number
of `UDP_SERVER_STATE_CLOSEREQ`. -/
def handleAnkFin (conn : VServerConn) (p : VPacket) : VServerConn :=
  let conn := if p.hasFlag ankFlag then
    { conn with ackNak := vAckNakHistoryRemoveCmds conn.ackNak p.ankId.toNat } else conn
  if p.hasFlag finFlag then { conn with hostState := .closereq } else conn

/-- `handle_packet_in_OPEN_state`. -/
def handlePacketInOpenState (conn : VServerConn) (p : VPacket) : VServerConn × ReceiveResult :=
  if p.hasFlag payFlag then
    match handleNodeCommands conn p with
    | (conn, .unordered) => (conn, .unordered)
    | (conn, _) => (handleAnkFin conn p, .success)
  else (handleAnkFin conn p, .success)

/-- The packet is the one that ended the handshake. -/
def VServerConn.isHandshake (conn : VServerConn) (p : VPacket) : Bool :=
  p.flags == payFlag ||| ackFlag ||| ankFlag && p.payloadId == conn.peerId + 1 &&
    p.ankId == conn.peerId && p.firstAck == some conn.hostId

/-- `vs_OPEN_CLOSEREQ_handle_packet`. -/
def vsOpenClosereqHandlePacket (conn : VServerConn) (p : VPacket) : VServerConn × ReceiveResult :=
  if conn.hostState = .closed then (conn, .reserved)
  else if conn.isHandshake p then
    if conn.attempts < conn.maxAttempts then
      let conn := { conn with attempts := conn.attempts + 1 }
      if p.callbacks then (conn, .success) else (conn, .corrupted)
    else (conn, .attemptsExceed)
  else if p.hasFlag payFlag && p.hasFlag finFlag then
    let conn := { conn with hostState := .closed }
    if p.callbacks then (conn, .success) else (conn, .corrupted)
  else
    -- the answer of `handle_packet_in_OPEN_state` is not looked at
    ((handlePacketInOpenState conn p).1, .success)

/-- `vs_handle_packet`. -/
def vsHandlePacket (conn : VServerConn) (p : VPacket) : VServerConn × ReceiveResult :=
  if p.version = vrsVersion then
    match vsOpenClosereqHandlePacket conn p with
    | (conn, .success) =>
        (if p.hasFlag payFlag then { conn with lastRPay := p.payloadId.toNat } else conn, .success)
    | (conn, ret) => (conn, ret)
  else (conn, .corrupted)

inductive ServerEvent where
  | packet (p : VPacket)
  /-- a fake command closes the connection -/
  | terminate
  deriving DecidableEq, Repr

def VServerConn.step (conn : VServerConn) : ServerEvent → Option VServerConn
  | .packet p => some (vsHandlePacket conn p).1
  | .terminate =>
      some (if conn.hostState = .closed then conn else { conn with hostState := .closereq })

/-! ## Delivery -/

/-- No packet is delivered twice, and none that was delivered is reported as lost. -/
structure VServerConn.AtMostOnce (conn : VServerConn) : Prop where
  once : (conn.delivered.map Prod.fst).Nodup
  notLost : ∀ t ∈ conn.delivered, ∀ stale, (.nak, t.1) ∉ ackNakIds conn.ackNak.cmds stale

/-- The handler says that the packet was received. -/
def VServerConn.answers (conn : VServerConn) (p : VPacket) : Bool :=
  if conn.isHandshake p then decide (conn.attempts < conn.maxAttempts) && p.callbacks
  else if p.hasFlag payFlag && p.hasFlag finFlag then p.callbacks
  else true

/-- A payload packet that is received is not older than the last one, and the packet
with the greatest id does not come twice. -/
def VServerConn.InOrder (conn : VServerConn) : ServerEvent → Prop
  | .packet p => p.version = vrsVersion → conn.hostState ≠ .closed → p.hasFlag payFlag = true →
      conn.answers p = true →
      conn.lastRPay ≤ p.payloadId.toNat ∧
        (p.payloadId.toNat = conn.lastRPay → conn.lastRPay + 1 < 2 ^ 32)
  | .terminate => True

structure VServerConn.Inv (conn : VServerConn) : Prop where
  bound : conn.lastRPay < 2 ^ 32
  first : (conn.peerId + 1).toNat ≤ conn.lastRPay
  order : (conn.delivered.map Prod.fst).Pairwise (· < ·)
  below : ∀ t ∈ conn.delivered, t.1 ≤ conn.lastRPay
  marks : ∃ last marks, Compressed conn.ackNak.cmds last marks ∧ last < 2 ^ 32 ∧
    (conn.hostState ≠ .closed → last = conn.lastRPay) ∧ (∀ m ∈ marks, m.2 ≤ conn.lastRPay) ∧
    ∀ t ∈ conn.delivered, (.nak, t.1) ∉ marks

theorem VServerConn.inv_init (hostId peerId : UInt32) (maxAttempts : ℕ) :
    (VServerConn.init hostId peerId maxAttempts).Inv where
  bound := (peerId + 1).toNat_lt
  first := Nat.le_refl _
  order := List.Pairwise.nil
  below t ht := by cases ht
  marks := by
    refine ⟨_, [(.ack, (peerId + 1).toNat)], ⟨rfl, ?_, ?_⟩, (peerId + 1).toNat_lt, fun _ => rfl, ?_,
      fun t ht => by cases ht⟩
    · intro cmd hcmd
      simpa [VServerConn.init, vAckNakHistoryAddCmd, vAckNakHistoryInit, addCmd] using hcmd.symm
    · exact (span_succ_self _ _).symm
    · intro m hm
      obtain rfl := List.mem_singleton.mp hm
      exact Nat.le_refl _

variable {conn : VServerConn} {p : VPacket}

theorem VServerConn.Inv.atMostOnce (h : conn.Inv) : conn.AtMostOnce where
  once := h.order.imp fun hlt => Nat.ne_of_lt hlt
  notLost t ht stale := by
    obtain ⟨last, marks, hcomp, -, -, -, hnot⟩ := h.marks
    rw [hcomp.ackNakIds stale]
    exact hnot t ht

/-- The connection after a packet was recorded and delivered. -/
def VServerConn.recorded (conn : VServerConn) (p : VPacket) (ackNak : AckNakHistory) :
    VServerConn :=
  { conn with
    ackNak := ackNak
    delivered := conn.delivered ++ (p.data.map (p.payloadId.toNat, ·)).toList }

/-- **A new packet** is recorded and delivered. -/
theorem VServerConn.Inv.deliver (h : conn.Inv) (hopen : conn.hostState ≠ .closed)
    (hlt : conn.lastRPay < p.payloadId.toNat) :
    ∃ ackNak, handleNodeCommands conn p = (conn.recorded p ackNak, .success) ∧
      VServerConn.Inv { conn.recorded p ackNak with lastRPay := p.payloadId.toNat } := by
  obtain ⟨last, marks, hcomp, -, hlast, hle, hnot⟩ := h.marks
  obtain rfl := hlast hopen
  obtain ⟨ackNak, hrecord, hcomp'⟩ := hcomp.record hlt p.payloadId.toNat_lt
  have hmem : ∀ t ∈ conn.delivered ++ (p.data.map (p.payloadId.toNat, ·)).toList,
      t ∈ conn.delivered ∨ t.1 = p.payloadId.toNat := by
    intro t ht
    refine (List.mem_append.mp ht).imp_right fun ht => ?_
    obtain ⟨data, -, rfl⟩ := Option.map_eq_some_iff.mp (Option.mem_toList.mp ht)
    rfl
  refine ⟨ackNak, by simp only [handleNodeCommands, hrecord, VServerConn.recorded], ?_⟩
  refine
    { bound := p.payloadId.toNat_lt, first := Nat.le_trans h.first (Nat.le_of_lt hlt), order := ?_,
      below := ?_, marks := ⟨_, _, hcomp', p.payloadId.toNat_lt, fun _ => rfl, ?_, ?_⟩ }
  · simp only [VServerConn.recorded]
    rw [List.map_append, List.pairwise_append]
    refine ⟨h.order, ?_, ?_⟩
    · cases p.data <;> simp
    · intro a ha b hb
      obtain ⟨t, ht, rfl⟩ := List.mem_map.mp ha
      obtain ⟨u, hu, rfl⟩ := List.mem_map.mp hb
      obtain ⟨data, -, rfl⟩ := Option.map_eq_some_iff.mp (Option.mem_toList.mp hu)
      exact Nat.lt_of_le_of_lt (h.below t ht) hlt
  · intro t ht
    rcases hmem t ht with ht | heq
    · exact Nat.le_of_lt (Nat.lt_of_le_of_lt (h.below t ht) hlt)
    · exact Nat.le_of_eq heq
  · rintro ⟨kind, id⟩ hm
    rw [List.append_assoc, List.mem_append, List.mem_append, List.mem_singleton] at hm
    rcases hm with hm | hm | hm
    · exact Nat.le_of_lt (Nat.lt_of_le_of_lt (hle _ hm) hlt)
    · obtain ⟨n, hn, heq⟩ := List.mem_map.mp hm
      obtain ⟨rfl, rfl⟩ := Prod.mk.inj heq
      exact Nat.le_of_lt (Lib.mem_span.mp hm).2.2
    · obtain ⟨-, rfl⟩ := Prod.mk.inj hm
      exact Nat.le_refl _
  · -- what is newly marked as lost lies between the last packet and this one
    intro t ht hin
    rw [List.append_assoc, List.mem_append, List.mem_append, List.mem_singleton] at hin
    rcases hin with hin | hin | hin
    · rcases hmem t ht with ht | heq
      · exact hnot t ht hin
      · have := hle _ hin
        simp only at this
        omega
    · obtain ⟨-, hlow, hhigh⟩ := Lib.mem_span.mp hin
      rcases hmem t ht with ht | heq
      · have := h.below t ht
        omega
      · omega
    · cases hin

/-! ## The steps -/

/-- The invariant is about the counter, the history and what was delivered. -/
theorem VServerConn.Inv.of_eq (h : conn.Inv) {conn' : VServerConn}
    (hpeer : conn'.peerId = conn.peerId) (hlast : conn'.lastRPay = conn.lastRPay)
    (hackNak : conn'.ackNak = conn.ackNak) (hdelivered : conn'.delivered = conn.delivered)
    (hstate : conn'.hostState ≠ .closed → conn.hostState ≠ .closed) : conn'.Inv where
  bound := hlast ▸ h.bound
  first := by
    rw [hpeer, hlast]
    exact h.first
  order := hdelivered ▸ h.order
  below := by
    rw [hdelivered, hlast]
    exact h.below
  marks := by
    obtain ⟨last, marks, hcomp, hbound, heq, hle, hnot⟩ := h.marks
    rw [hdelivered, hlast, hackNak]
    exact ⟨last, marks, hcomp, hbound, fun hopen => heq (hstate hopen), hle, hnot⟩

/-- The cut at an ANK id forgets marks. -/
theorem VServerConn.Inv.handleAnkFin (h : conn.Inv) (p : VPacket)
    (hopen : conn.hostState ≠ .closed) :
    (handleAnkFin conn p).Inv ∧ (Verse.handleAnkFin conn p).lastRPay = conn.lastRPay := by
  have hcut : VServerConn.Inv
      { conn with ackNak := vAckNakHistoryRemoveCmds conn.ackNak p.ankId.toNat } := by
    obtain ⟨last, marks, hcomp, hbound, heq, hle, hnot⟩ := h.marks
    obtain ⟨marks', hcomp', hsuffix⟩ := hcomp.removeCmds hbound p.ankId.toNat
    exact
      { bound := h.bound, first := h.first, order := h.order, below := h.below,
        marks := ⟨last, marks', hcomp', hbound, heq, fun m hm => hle m (hsuffix.subset hm),
          fun t ht hm => hnot t ht (hsuffix.subset hm)⟩ }
  unfold Verse.handleAnkFin
  by_cases hank : p.hasFlag ankFlag = true <;> by_cases hfin : p.hasFlag finFlag = true
  · simp only [hank, hfin, if_true]
    exact ⟨hcut.of_eq rfl rfl rfl rfl fun _ => hopen, trivial⟩
  · simp only [hank, hfin, if_true]
    exact ⟨hcut, rfl⟩
  · simp only [hank, hfin, if_true]
    exact ⟨h.of_eq rfl rfl rfl rfl fun _ => hopen, rfl⟩
  · simp only [hank, hfin]
    exact ⟨h, rfl⟩

/-- The receive counter is set after the packet was handled; the cut does not see it. -/
theorem handleAnkFin_lastRPay (conn : VServerConn) (p : VPacket) (n : ℕ) :
    { handleAnkFin conn p with lastRPay := n } =
      handleAnkFin { conn with lastRPay := n } p := by
  unfold handleAnkFin
  by_cases hank : p.hasFlag ankFlag = true <;> by_cases hfin : p.hasFlag finFlag = true <;>
    simp [hank, hfin]

/-- **A payload packet in the OPEN state.** -/
theorem VServerConn.Inv.handlePacketInOpenState (h : conn.Inv) (hopen : conn.hostState ≠ .closed)
    (hpay : p.hasFlag payFlag = true) (hle : conn.lastRPay ≤ p.payloadId.toNat)
    (hmax : p.payloadId.toNat = conn.lastRPay → conn.lastRPay + 1 < 2 ^ 32) :
    VServerConn.Inv
      { (handlePacketInOpenState conn p).1 with lastRPay := p.payloadId.toNat } := by
  unfold Verse.handlePacketInOpenState
  rw [if_pos hpay]
  rcases Nat.lt_or_eq_of_le hle with hlt | heq
  · obtain ⟨ackNak, hnode, hinv⟩ := h.deliver hopen hlt
    rw [hnode]
    show VServerConn.Inv
      { Verse.handleAnkFin (conn.recorded p ackNak) p with lastRPay := p.payloadId.toNat }
    rw [handleAnkFin_lastRPay]
    exact (hinv.handleAnkFin p hopen).1
  · -- the last packet again: it is dropped, and the counter stays
    have hlast := hmax heq.symm
    have hexpected : (conn.lastRPay + 1) % 2 ^ 32 = conn.lastRPay + 1 := Nat.mod_eq_of_lt hlast
    have hnone : recordPayload conn.ackNak conn.lastRPay p.payloadId.toNat = none := by
      unfold recordPayload
      rw [← heq, hexpected, if_neg (by omega), if_pos (by omega)]
    have hnode : handleNodeCommands conn p = (conn, .unordered) := by
      simp only [handleNodeCommands, hnone]
    rw [hnode]
    exact h.of_eq rfl heq.symm rfl rfl id

/-- What a packet can do to a connection. -/
inductive Handled (conn : VServerConn) (p : VPacket) : VServerConn → Prop
  | ignored : Handled conn p conn
  | refused (n : ℕ) : Handled conn p { conn with attempts := n }
  | handshake (n : ℕ) (hid : p.payloadId = conn.peerId + 1) (hpay : p.hasFlag payFlag = true)
      (hanswers : conn.answers p = true) :
      Handled conn p { conn with attempts := n, lastRPay := p.payloadId.toNat }
  | finRefused : Handled conn p { conn with hostState := .closed }
  | fin (hpay : p.hasFlag payFlag = true) (hanswers : conn.answers p = true) :
      Handled conn p { conn with hostState := .closed, lastRPay := p.payloadId.toNat }
  | payload (hpay : p.hasFlag payFlag = true) (hanswers : conn.answers p = true) :
      Handled conn p { (handlePacketInOpenState conn p).1 with lastRPay := p.payloadId.toNat }
  | ackOnly : Handled conn p (handleAnkFin conn p)

theorem vsHandlePacket_cases (conn : VServerConn) (p : VPacket) :
    (vsHandlePacket conn p).1 = conn ∨
      p.version = vrsVersion ∧ conn.hostState ≠ .closed ∧ Handled conn p (vsHandlePacket conn p).1 := by
  by_cases hversion : p.version = vrsVersion
  · by_cases hclosed : conn.hostState = .closed
    · left
      simp only [vsHandlePacket, vsOpenClosereqHandlePacket, if_pos hversion, if_pos hclosed]
    · refine Or.inr ⟨hversion, hclosed, ?_⟩
      simp only [vsHandlePacket, vsOpenClosereqHandlePacket, if_pos hversion, if_neg hclosed]
      by_cases hshake : conn.isHandshake p = true
      · have hfields := hshake
        simp only [VServerConn.isHandshake, Bool.and_eq_true, beq_iff_eq] at hfields
        obtain ⟨⟨⟨hflags, hid⟩, -⟩, -⟩ := hfields
        have hpay : p.hasFlag payFlag = true := by
          rw [VPacket.hasFlag, hflags]
          decide
        by_cases hatt : conn.attempts < conn.maxAttempts
        · by_cases hcb : p.callbacks = true
          · simp only [hshake, hatt, hcb, hpay, if_true]
            exact Handled.handshake _ hid hpay (by simp [VServerConn.answers, hshake, hatt, hcb])
          · simp only [hshake, hatt, hcb, if_true]
            exact Handled.refused _
        · simp only [hshake, hatt, if_true, if_false]
          exact Handled.ignored
      · by_cases hpay : p.hasFlag payFlag = true
        · by_cases hfin : p.hasFlag finFlag = true
          · by_cases hcb : p.callbacks = true
            · have hanswers : conn.answers p = true := by
                simp [VServerConn.answers, hshake, hpay, hfin, hcb]
              simp only [hshake, hpay, hfin, hcb, Bool.and_self, Bool.false_eq_true, if_true,
                if_false]
              exact Handled.fin hpay hanswers
            · simp only [hshake, hpay, hfin, hcb, Bool.and_self, Bool.false_eq_true, if_true,
                if_false]
              exact Handled.finRefused
          · have hanswers : conn.answers p = true := by simp [VServerConn.answers, hshake, hfin]
            simp only [hshake, hpay, hfin, Bool.and_false, Bool.false_eq_true, if_true, if_false]
            exact Handled.payload hpay hanswers
        · have hopen : (handlePacketInOpenState conn p).1 = handleAnkFin conn p := by
            simp [handlePacketInOpenState, hpay]
          simp only [hshake, hpay, hopen, Bool.false_and, Bool.false_eq_true, if_false]
          exact Handled.ackOnly
  · left
    simp only [vsHandlePacket, if_neg hversion]

/-- **One event** keeps the invariant, and the counter does not go back. -/
theorem VServerConn.Inv.step (h : conn.Inv) (e : ServerEvent) (horder : conn.InOrder e) :
    ∃ conn', conn.step e = some conn' ∧ conn'.Inv ∧ conn.lastRPay ≤ conn'.lastRPay := by
  cases e with
  | terminate =>
      refine ⟨_, rfl, ?_⟩
      by_cases hclosed : conn.hostState = .closed
      · rw [if_pos hclosed]
        exact ⟨h, Nat.le_refl _⟩
      · rw [if_neg hclosed]
        exact ⟨h.of_eq rfl rfl rfl rfl fun _ => hclosed, Nat.le_refl _⟩
  | packet p =>
      refine ⟨_, rfl, ?_⟩
      rcases vsHandlePacket_cases conn p with hsame | ⟨hversion, hopen, hcases⟩
      · rw [hsame]
        exact ⟨h, Nat.le_refl _⟩
      · have hin := horder hversion hopen
        generalize (vsHandlePacket conn p).1 = conn' at hcases
        cases hcases with
        | ignored => exact ⟨h, Nat.le_refl _⟩
        | refused n => exact ⟨h.of_eq rfl rfl rfl rfl id, Nat.le_refl _⟩
        | handshake n hid hpay hanswers =>
            -- the counter is not below `peer_id+1`, so nothing newer has arrived
            have heq : p.payloadId.toNat = conn.lastRPay := by
              have hfirst := h.first
              have hle := (hin hpay hanswers).1
              rw [← hid] at hfirst
              omega
            exact ⟨h.of_eq rfl heq rfl rfl id, Nat.le_of_eq heq.symm⟩
        | finRefused => exact ⟨h.of_eq rfl rfl rfl rfl fun hne => absurd rfl hne, Nat.le_refl _⟩
        | fin hpay hanswers =>
            have hle := (hin hpay hanswers).1
            obtain ⟨last, marks, hcomp, hbound, -, hmarks, hnot⟩ := h.marks
            refine ⟨?_, hle⟩
            exact
              { bound := p.payloadId.toNat_lt, first := Nat.le_trans h.first hle, order := h.order,
                below := fun t ht => Nat.le_trans (h.below t ht) hle,
                marks := ⟨last, marks, hcomp, hbound, fun hne => absurd rfl hne, fun m hm =>
                  Nat.le_trans (hmarks m hm) hle, hnot⟩ }
        | payload hpay hanswers =>
            obtain ⟨hle, hmax⟩ := hin hpay hanswers
            exact ⟨h.handlePacketInOpenState hopen hpay hle hmax, hle⟩
        | ackOnly =>
            obtain ⟨hinv, heq⟩ := h.handleAnkFin p hopen
            exact ⟨hinv, Nat.le_of_eq heq.symm⟩

/-! ## Runs -/

/-- The counter does not go back in a run. -/
theorem VServerConn.Inv.run (h : conn.Inv) {events : List ServerEvent}
    (horder : Admissible VServerConn.step VServerConn.InOrder conn events) :
    ∃ conn', Lib.run VServerConn.step conn events = some conn' ∧ conn'.Inv ∧
      conn.lastRPay ≤ conn'.lastRPay := by
  have hstep : ∀ (c : VServerConn) (e : ServerEvent), c.Inv ∧ conn.lastRPay ≤ c.lastRPay →
      c.InOrder e → ∃ c', c.step e = some c' ∧ c'.Inv ∧ conn.lastRPay ≤ c'.lastRPay := by
    rintro c e ⟨hinv, hle⟩ hin
    obtain ⟨c', hc', hinv', hle'⟩ := hinv.step e hin
    exact ⟨c', hc', hinv', Nat.le_trans hle hle'⟩
  exact run_induction hstep ⟨h, Nat.le_refl _⟩ horder

/-- **At most once.**  When no received payload packet is older than one before it,
`last_r_pay` never decreases, no packet is delivered twice, and none that was
delivered is reported as lost. -/
theorem server_atMostOnce (hostId peerId : UInt32) (maxAttempts : ℕ)
    (first second : List ServerEvent)
    (horder : Admissible VServerConn.step VServerConn.InOrder
      (VServerConn.init hostId peerId maxAttempts) (first ++ second)) :
    ∃ conn₁ conn₂, run VServerConn.step (VServerConn.init hostId peerId maxAttempts) first =
        some conn₁ ∧ run VServerConn.step conn₁ second = some conn₂ ∧
      conn₁.lastRPay ≤ conn₂.lastRPay ∧ conn₂.AtMostOnce := by
  obtain ⟨conn₁, hrun₁, hinv₁, -⟩ :=
    (VServerConn.inv_init hostId peerId maxAttempts).run horder.append_left
  obtain ⟨conn₂, hrun₂, hinv₂, hle⟩ := hinv₁.run (horder.append_right hrun₁)
  exact ⟨conn₁, conn₂, hrun₁, hrun₂, hle, hinv₂.atMostOnce⟩

/-- A packet with node commands and nothing else. -/
def payloadPacket (id : UInt32) : VPacket := ⟨vrsVersion, payFlag, id, 0, none, true, some [32]⟩

/-- A packet is lost, and the one after it comes twice. -/
theorem server_atMostOnce_gap :
    ∃ conn₁ conn₂, run VServerConn.step (VServerConn.init 7 0 10) [.packet (payloadPacket 2)] =
        some conn₁ ∧
      run VServerConn.step conn₁ [.packet (payloadPacket 4), .packet (payloadPacket 4)] =
        some conn₂ ∧
      conn₁.lastRPay ≤ conn₂.lastRPay ∧ conn₂.AtMostOnce := by
  refine server_atMostOnce 7 0 10 _ _ ⟨fun _ _ _ _ => by decide, fun conn₁ h₁ => ?_⟩
  obtain rfl := Option.some.inj h₁
  refine ⟨fun _ _ _ _ => by decide, fun conn₂ h₂ => ?_⟩
  obtain rfl := Option.some.inj h₂
  exact ⟨fun _ _ _ _ => by decide, fun _ _ => trivial⟩

/-- Two packets come again in their old order: the second one is delivered twice. -/
theorem server_not_atMostOnce :
    ¬ ∀ (hostId peerId : UInt32) (maxAttempts : ℕ) (first second : List ServerEvent),
      ∃ conn₁ conn₂, run VServerConn.step (VServerConn.init hostId peerId maxAttempts) first =
          some conn₁ ∧ run VServerConn.step conn₁ second = some conn₂ ∧
        conn₁.lastRPay ≤ conn₂.lastRPay ∧ conn₂.AtMostOnce := by
  intro hall
  obtain ⟨conn₁, conn₂, hrun₁, hrun₂, -, honce⟩ := hall 7 0 10 []
    [.packet (payloadPacket 2), .packet (payloadPacket 3), .packet (payloadPacket 2),
      .packet (payloadPacket 3)]
  obtain rfl := Option.some.inj hrun₁
  have hids : (run VServerConn.step (VServerConn.init 7 0 10) [.packet (payloadPacket 2),
      .packet (payloadPacket 3), .packet (payloadPacket 2), .packet (payloadPacket 3)]).map
        (·.delivered.map Prod.fst) = some [2, 3, 3] := by decide
  rw [hrun₂, Option.map_some, Option.some.injEq] at hids
  have hnodup := honce.once
  rw [hids] at hnodup
  exact absurd hnodup (by decide)

end Verse
