import Verse.Lib.Resending
import Verse.Receive.ClientConn
import Verse.Resend.FailedSend
import Verse.Resend.TruncatedAcks

/-!
# The server, the network and the client

A `VDgramConn` of the server in the states OPEN and CLOSEREQ, and the one of its client
in the state OPEN.  The server assembles packets from its outgoing queue and sends them
(`send_packet_in_OPEN_CLOSEREQ_state`), the client takes or drops the datagrams that
arrive and sends back its ACK and NAK commands.  In the network datagrams get lost, come
late and come more than once, in both directions.

## Strategy

`DgramLink.books` is the state as the general `Resending` has it.  Here is what the
single actions of the server and of the client do to it; `Verse.Resend.Delivery` puts
them together.
-/

namespace Verse

open Lib

/-- Both ends and what is in the network.  `carried` has the payload ids and the commands
of the packets that were sent and of the one that is being assembled.  `sent` are the
payload ids of datagrams, `ankIds` their ANK ids, and `reports` the ACK and NAK commands
that the client sent, as far as they are read.  `missed` are the NAKs that were handled. -/
structure DgramLink where
  hostId : ℕ
  server : SenderRun
  payloadId : ℕ
  ankId : ℕ
  carried : List (ℕ × CmdPtr)
  sent : List ℕ
  ankIds : List ℕ
  missed : List ℕ
  client : VClientConn
  reports : List (List AckNakCmd)

inductive LinkAction where
  /-- `v_out_queue_push_tail` at the server -/
  | push (limits : Bool) (prio : UInt8) (cmd : PushCmd)
  | openPacket
  | popAdd (prio : UInt8) (len : UInt16)
  | popBack (prio : UInt8) (len : UInt16)
  | closePacket
  | sendFails
  /-- the reply to the handshake is sent once more -/
  | replyAgain
  /-- a datagram arrives at the client -/
  | deliver (d : Datagram)
  /-- the client sends its ACK and NAK commands -/
  | report
  /-- ACK and NAK commands arrive at the server -/
  | handleReport (i : ℕ)

/-- The server went from RESPOND to OPEN and sent the packet `host_id+1`, and the client
accepted it. -/
def DgramLink.init (hostId peerId : UInt32) : DgramLink where
  hostId := hostId.toNat
  server := SenderRun.init
  payloadId := hostId.toNat + 2
  ankId := hostId.toNat
  carried := []
  sent := [hostId.toNat, hostId.toNat + 1]
  ankIds := [hostId.toNat]
  missed := []
  client := VClientConn.init peerId hostId
  reports := []

/-- One packet that the client acknowledged or missed. -/
def DgramLink.mark (l : DgramLink) (m : AckNakCmd) : Option DgramLink :=
  (l.server.mark m).map fun server =>
    { l with
      server := server
      missed := match m with
        | (.ack, _) => l.missed
        | (.nak, id) => l.missed ++ [id] }

/-- One action.  Packets are assembled and ACK and NAK commands handled by one thread. -/
def DgramLink.step (l : DgramLink) : LinkAction → Option DgramLink
  | .push limits prio cmd =>
      (l.server.step (.pushTail limits prio cmd)).map fun server => { l with server := server }
  | .openPacket =>
      (l.server.step (.openPacket (UInt32.ofNat l.payloadId))).map fun server =>
        { l with server := server }
  | .popAdd prio len =>
      (l.server.step (.popAdd prio len)).map fun server =>
        { l with
          server := server
          carried := l.carried ++ (l.server.poppedSince server).map (l.payloadId, ·) }
  | .popBack prio len =>
      (l.server.step (.popBack prio len)).map fun server => { l with server := server }
  | .closePacket =>
      match l.server.tot with
      | none => some l
      | some _ =>
          (l.server.step .closePacket).map fun server =>
            { l with
              server := server
              sent := l.sent ++ [l.payloadId]
              payloadId := l.payloadId + 1 }
  | .sendFails =>
      match l.server.tot with
      | none => some l
      | some _ =>
          (l.server.step .sendFails).map fun server =>
            { l with
              server := server
              carried := l.carried.filter fun t => t.1 ≠ l.payloadId }
  | .replyAgain =>
      match l.server.tot with
      | some _ => some l
      | none => some { l with payloadId := l.payloadId + 1, ankId := l.hostId }
  | .deliver d => (l.client.step d).map fun client => { l with client := client }
  | .report =>
      some { l with
        reports := l.reports ++ [l.client.conn.ackNak.cmds.take (maxSystemCommandCount - 1)] }
  | .handleReport i =>
      match l.server.tot, l.reports[i]? with
      | none, some cmds =>
          (run DgramLink.mark l (ackNakIds cmds 0)).map fun l =>
            { l with
              ankId := ankIdAfter cmds l.ankId
              ankIds := l.ankIds ++ [ankIdAfter cmds l.ankId] }
      | _, _ => some l

/-- What has to hold before an action: a command that is popped, acknowledged or put back
finds its own bucket first, payload ids stay below `2 ^ 32`, and only what was sent
arrives. -/
def DgramLink.Safe (l : DgramLink) : LinkAction → Prop
  | .push limits prio cmd => l.server.Safe (.pushTail limits prio cmd)
  | .openPacket => True
  | .popAdd prio len => l.server.Safe (.popAdd prio len)
  | .popBack prio len => l.server.Safe (.popBack prio len)
  | .closePacket => l.payloadId + 1 < 2 ^ 32
  | .sendFails => l.server.Safe .sendFails
  | .replyAgain => l.payloadId + 1 < 2 ^ 32
  | .deliver d => ∀ p ∈ d.read, (p.hasFlag payFlag = true → p.payloadId.toNat ∈ l.sent) ∧
      (p.hasFlag ankFlag = true → p.ankId.toNat ∈ l.ankIds)
  | .report => True
  | .handleReport i => l.server.tot = none → ∀ cmds ∈ l.reports[i]?,
      Admissible DgramLink.mark (fun l m => l.server.MarkSafe m) l (ackNakIds cmds 0)

/-! ## The books -/

/-- The commands that wait in the queue. -/
def SenderRun.waiting (r : SenderRun) : Set CmdPtr := {c | ∃ p, c ∈ r.s.outQueue.contents p}

/-- The commands that are not obsolete in packets that are not settled. -/
def VPacketHistory.flying (history : VPacketHistory) : Set (ℕ × CmdPtr) :=
  {u | ∃ packet ∈ history.packets, packet.id = u.1 ∧
    ∃ x ∈ packet.cmds, history.cmdAt x = some u.2}

/-- The state as a sender that sends again what was missed. -/
def DgramLink.books (l : DgramLink) : Resending CmdPtr where
  pushed := {c | c ∈ l.server.pushed}
  waiting := l.server.waiting
  flying := l.server.s.history.flying
  carried := l.carried
  next := l.payloadId
  taken := l.client.accepted
  missed := {id | id ∈ l.missed}
  confirmed := {c | ∃ id, (id, c) ∈ l.server.acked}

/-- The packets of the history are in the order of their ids. -/
def VPacketHistory.InOrder (history : VPacketHistory) : Prop :=
  (history.packets.map (·.id)).Pairwise (· < ·)

variable {history : VPacketHistory}

theorem VPacketHistory.InOrder.ne (h : history.InOrder) {before after : List VSentPacket}
    {packet other : VSentPacket} (hsplit : history.packets = before ++ packet :: after)
    (hother : other ∈ before ++ after) : other.id ≠ packet.id := by
  rw [InOrder, hsplit, List.map_append, List.map_cons, List.pairwise_append,
    List.pairwise_cons] at h
  rcases List.mem_append.mp hother with hmem | hmem
  · exact Nat.ne_of_lt (h.2.2 _ (List.mem_map_of_mem hmem) _ List.mem_cons_self)
  · exact Nat.ne_of_gt (h.2.1.1 _ (List.mem_map_of_mem hmem))

theorem VPacketHistory.mem_flying_of_split {before after : List VSentPacket} {packet : VSentPacket}
    (hsplit : history.packets = before ++ packet :: after) {x : ℕ} (hx : x ∈ packet.cmds)
    {c : CmdPtr} (hc : history.cmdAt x = some c) : (packet.id, c) ∈ history.flying :=
  ⟨packet, by simp [hsplit], rfl, x, hx, hc⟩

/-- A packet is settled: it is not in the history any more. -/
structure VPacketHistory.Settles (history history' : VPacketHistory) (id : ℕ) : Prop where
  flying : history'.flying ⊆ {u ∈ history.flying | u.1 ≠ id}
  sublist : history'.packets.Sublist history.packets
  gone : ∀ packet ∈ history'.packets, packet.id ≠ id

theorem VPacketHistory.settles_of_not_found (id : ℕ)
    (hfind : vPacketHistoryFindPacket history id = none) : history.Settles history id := by
  have hnone : ∀ packet ∈ history.packets, packet.id ≠ id := by
    intro packet hpacket
    have := List.findIdx?_eq_none_iff.mp hfind packet hpacket
    simpa using this
  refine ⟨?_, List.Sublist.refl _, hnone⟩
  rintro u ⟨packet, hpacket, hid, hu⟩
  exact ⟨⟨packet, hpacket, hid, hu⟩, hid ▸ hnone packet hpacket⟩

/-- The packet that is found is taken out. -/
theorem VPacketHistory.InOrder.settles (h : history.InOrder) {before after : List VSentPacket}
    {packet : VSentPacket} (hsplit : history.packets = before ++ packet :: after)
    {history' : VPacketHistory} (hpackets : history'.packets = before ++ after)
    (hframe : ∀ x ∈ history'.sent, history'.cmdAt x = history.cmdAt x) :
    history.Settles history' packet.id := by
  have hgone : ∀ other ∈ history'.packets, other.id ≠ packet.id := by
    intro other hother
    exact h.ne hsplit (hpackets ▸ hother)
  refine ⟨?_, ?_, hgone⟩
  · rintro u ⟨other, hother, hid, x, hx, hcmdAt⟩
    have hsent : x ∈ history'.sent := List.mem_flatMap.mpr ⟨other, hother, hx⟩
    rw [hframe x hsent] at hcmdAt
    refine ⟨⟨other, ?_, hid, x, hx, hcmdAt⟩, hid ▸ hgone other hother⟩
    rw [hpackets] at hother
    rw [hsplit]
    exact List.mem_append.mpr ((List.mem_append.mp hother).imp_right (List.mem_cons_of_mem _))
  · rw [hpackets, hsplit]
    exact (List.Sublist.refl before).append (List.sublist_cons_self packet after)

theorem VPacketHistory.InOrder.of_sublist (h : history.InOrder) {history' : VPacketHistory}
    (hsub : history'.packets.Sublist history.packets) : history'.InOrder :=
  h.sublist (hsub.map _)

/-- **A packet that was acknowledged.** -/
theorem handleAck_settles {s : VSender} (h : s.history.Sound) (horder : s.history.InOrder)
    {id : ℕ} (hsafe : ∀ i packet, vPacketHistoryFindPacket s.history id = some i →
      s.history.packets[i]? = some packet → s.history.Removable packet.cmds) :
    ∃ s' cmds, handleAck s id = some (s', cmds) ∧ s'.outQueue = s.outQueue ∧
      s.history.Settles s'.history id ∧ ∀ c ∈ cmds, (id, c) ∈ s.history.flying := by
  rcases findPacket_cases s.history id with hnone | ⟨before, packet, after, hfind, hsplit, hid⟩
  · exact ⟨s, [], handleAck_none hnone, rfl, VPacketHistory.settles_of_not_found id hnone,
      by simp⟩
  · obtain ⟨s', hres, hack⟩ := handleAck_spec h hfind hsplit
      (hsafe _ _ hfind (by simp [hsplit]))
    refine ⟨s', _, hres, hack.outQueue, ?_, ?_⟩
    · exact hid ▸ horder.settles hsplit hack.packets fun x hx => (hack.frame x hx).1
    · intro c hc
      obtain ⟨x, hx, hcmdAt⟩ := List.mem_filterMap.mp hc
      exact hid ▸ VPacketHistory.mem_flying_of_split hsplit hx hcmdAt

/-- **A packet that was missed**: what waits now waited before, or was in the packet. -/
theorem handleNak_settles {s : VSender} (hqueue : s.outQueue.Inv none) (h : s.history.Sound)
    (horder : s.history.InOrder) {id : ℕ}
    (hsafe : ∀ i packet, vPacketHistoryFindPacket s.history id = some i →
      s.history.packets[i]? = some packet → s.history.Removable packet.cmds.reverse) :
    ∃ s' cmds, handleNak s id = some (s', cmds) ∧
      (∀ p, ∀ c ∈ s'.outQueue.contents p,
        (∃ p, c ∈ s.outQueue.contents p) ∨ (id, c) ∈ s.history.flying) ∧
      s.history.Settles s'.history id ∧
      ∀ c ∈ cmds, ∃ p, s.outQueue.newest c ∈ s.outQueue.contents p := by
  rcases findPacket_cases s.history id with hnone | ⟨before, packet, after, hfind, hsplit, hid⟩
  · exact ⟨s, [], handleNak_none hnone, fun p c hc => Or.inl ⟨p, hc⟩,
      VPacketHistory.settles_of_not_found id hnone, by simp⟩
  · obtain ⟨s', hres, hlost⟩ := handleNak_spec hqueue h hfind hsplit
      (hsafe _ _ hfind (by simp [hsplit]))
    refine ⟨s', _, hres, ?_, ?_, ?_⟩
    · intro p c hc
      rw [hlost.contents p] at hc
      rcases List.mem_append.mp hc with hc | hc
      · obtain ⟨x, hx, hcmdAt, -⟩ := mem_backTo hc
        exact Or.inr (hid ▸ VPacketHistory.mem_flying_of_split hsplit hx hcmdAt)
      · exact Or.inl ⟨p, hc⟩
    · exact hid ▸ horder.settles hsplit hlost.packets fun x hx => (hlost.frame x hx).2.1
    · intro c hc
      obtain ⟨x, hx, hcmdAt⟩ := List.mem_filterMap.mp hc
      obtain ⟨-, hstay⟩ := List.mem_filter.mp hx
      cases htwin : s.outQueue.twin c with
      | none => simp [goesBack, hcmdAt, htwin] at hstay
      | some qa =>
          obtain ⟨o, p, ho, hmem, -⟩ := hqueue.mem_of_twin (h.inv.accepted hcmdAt) htwin
          have hnewest : s.outQueue.newest c = o := by simp [VOutQueue.newest, htwin, ho]
          exact ⟨p, hnewest ▸ hmem⟩

/-! ## What the actions of the server do -/

variable {r r' : SenderRun}

/-- Nothing was pushed, and nothing was heard from the client. -/
structure SenderRun.Quiet (r r' : SenderRun) : Prop where
  pushed : r'.pushed = r.pushed
  acks : r'.acks = r.acks
  acked : r'.acked = r.acked

theorem SenderRun.Quiet.refl (r : SenderRun) : r.Quiet r := ⟨rfl, rfl, rfl⟩

/-- The packets, and what is known of them, are as before. -/
structure SenderRun.SamePackets (r r' : SenderRun) : Prop where
  history : r'.s.history = r.s.history
  carried : r'.carried = r.carried
  tot : r'.tot = r.tot

theorem SenderRun.SamePackets.refl (r : SenderRun) : r.SamePackets r := ⟨rfl, rfl, rfl⟩

theorem SenderRun.SamePackets.poppedSince (h : r.SamePackets r') : r.poppedSince r' = [] := by
  rw [SenderRun.poppedSince, h.carried, List.drop_length, List.map_nil]

/-- **A push** is rejected, or the command waits. -/
theorem SenderRun.Inv.pushTail_cases (h : r.Inv) {limits : Bool} {prio : ℕ} {cmd : GenericCmd}
    (hacc : Accepted ⟨r.clock, cmd⟩) (hsafe : r.s.outQueue.PushSafe prio ⟨r.clock, cmd⟩)
    (hpush : r.pushTail limits prio cmd = some r') :
    r.SamePackets r' ∧ r'.acks = r.acks ∧ r'.acked = r.acked ∧
      ((r'.pushed = r.pushed ∧ r'.waiting = r.waiting ∧ r'.replaced = r.replaced) ∨
        r'.pushed = r.pushed ++ [⟨r.clock, cmd⟩] ∧
          r'.waiting ⊆ insert ⟨r.clock, cmd⟩ r.waiting ∧
          ∀ t ∈ r'.replaced, t ∈ r.replaced ∨ t.2 = ⟨r.clock, cmd⟩) := by
  rcases vOutQueuePushTail_spec h.base.queue hacc limits hsafe with hres | ⟨oq', old, hres, hspec⟩
  · simp only [SenderRun.pushTail, hres, Option.some.injEq] at hpush
    subst hpush
    exact ⟨⟨rfl, rfl, rfl⟩, rfl, rfl, Or.inl ⟨rfl, rfl, by simp⟩⟩
  · simp only [SenderRun.pushTail, hres, Option.some.injEq] at hpush
    subst hpush
    refine ⟨⟨rfl, rfl, rfl⟩, rfl, rfl, Or.inr ⟨by simp, ?_, ?_⟩⟩
    · rintro c ⟨p, hc⟩
      rcases hspec.change.mem hc with ⟨rfl, -⟩ | hc
      · exact Set.mem_insert _ _
      · exact Set.mem_insert_of_mem _ ⟨p, hc⟩
    · intro t ht
      refine (List.mem_append.mp ht).imp_right fun ht => ?_
      cases old with
      | none => simp at ht
      | some o =>
          obtain rfl : t = (o, ⟨r.clock, cmd⟩) := by simpa using ht
          rfl

/-- A command went into the packet that is being assembled. -/
structure SenderRun.Carries (r r' : SenderRun) (prio : ℕ) (cmd : CmdPtr) : Prop where
  waited : cmd ∈ r.waiting
  waiting : r'.waiting ⊆ r.waiting \ {cmd}
  carried : r'.carried = r.carried ++ [(r.s.history.lastId, prio, cmd)]
  flying : r'.s.history.flying ⊆ insert (r.s.history.lastId, cmd) r.s.history.flying
  alone : ∀ u ∈ r'.s.history.flying, Replaces u.2 cmd → u.2 = cmd
  ids : r'.s.history.packets.map (·.id) = r.s.history.packets.map (·.id)
  tot : r'.tot ≠ none
  replaced : ∀ t ∈ r'.replaced, t ∈ r.replaced ∨ t.2 = cmd

theorem SenderRun.Carries.poppedSince {prio : ℕ} {cmd : CmdPtr} (h : r.Carries r' prio cmd) :
    r.poppedSince r' = [cmd] := by
  rw [SenderRun.poppedSince, h.carried, List.drop_left]
  rfl

/-- The history after a command went into the last packet: only the newest version of it
is on its way. -/
theorem flying_addCmd {before : List VSentPacket} {last : VSentPacket}
    (hsplit : history.packets = before ++ [last]) {cmd : CmdPtr} {history' : VPacketHistory}
    (hsound : history'.Sound)
    (hpackets : history'.packets = history.packets.modify (history.packets.length - 1)
      fun packet => { packet with cmds := packet.cmds ++ [history.next] })
    (hframe : ∀ x ∈ history.sent,
      history'.cmdAt x = history.cmdAt x ∨ history'.cmdAt x = none)
    (hcmd : history'.cmdAt history.next = some cmd) :
    history'.packets.map (·.id) = history.packets.map (·.id) ∧
      history'.flying ⊆ insert (last.id, cmd) history.flying ∧
      ∀ u ∈ history'.flying, Replaces u.2 cmd → u.2 = cmd := by
  have hnew : history'.packets =
      before ++ [{ last with cmds := last.cmds ++ [history.next] }] := by
    rw [hpackets, hsplit, List.length_append, List.length_singleton, Nat.add_sub_cancel,
      modify_length]
  have hold : ∀ {packet : VSentPacket} {x : ℕ} {c : CmdPtr}, packet ∈ history.packets →
      x ∈ packet.cmds → history'.cmdAt x = some c → (packet.id, c) ∈ history.flying := by
    intro packet x c hpacket hx hc
    have hcmdAt := hframe x (List.mem_flatMap.mpr ⟨packet, hpacket, hx⟩)
    rw [hc] at hcmdAt
    exact ⟨packet, hpacket, rfl, x, hx, hcmdAt.elim Eq.symm fun hnone => by cases hnone⟩
  refine ⟨by simp [hnew, hsplit], ?_, ?_⟩
  · rintro ⟨id, c⟩ ⟨packet, hpacket, hid, x, hx, hc⟩
    subst hid
    rw [hnew] at hpacket
    rcases List.mem_append.mp hpacket with hpacket | hpacket
    · exact Set.mem_insert_of_mem _ (hold (by simp [hsplit, hpacket]) hx hc)
    · obtain rfl := List.mem_singleton.mp hpacket
      rcases List.mem_append.mp hx with hx | hx
      · have hlast : last ∈ history.packets := by simp [hsplit]
        have hmem := hold hlast hx hc
        exact Set.mem_insert_of_mem _ hmem
      · obtain rfl := List.mem_singleton.mp hx
        obtain rfl := Option.some.inj (hcmd.symm.trans hc)
        exact Set.mem_insert _ _
  · rintro ⟨id, c⟩ ⟨packet, hpacket, -, x, hx, hc⟩ hrep
    have hactive : x ∈ history'.sent := List.mem_flatMap.mpr ⟨packet, hpacket, hx⟩
    have hnext : history.next ∈ history'.sent := by
      refine List.mem_flatMap.mpr ⟨{ last with cmds := last.cmds ++ [history.next] }, ?_, ?_⟩
      · simp [hnew]
      · simp
    by_cases hne : x = history.next
    · subst hne
      exact (Option.some.inj (hcmd.symm.trans hc)).symm
    · exact absurd hrep (hsound.inv.not_replaces hnext hactive hne hcmd hc)

/-- **A pop** finds nothing, or a fake command, or a command that goes into the packet. -/
theorem SenderRun.Inv.popAdd_cases (h : r.Inv) {tot prio len : ℕ} (htot : r.tot = some tot)
    (hsafe : r.s.outQueue.PopSafe prio len) (hpopAdd : r.popAdd tot prio len = some r') :
    r.Quiet r' ∧
      ((r.SamePackets r' ∧ r'.waiting ⊆ r.waiting ∧ r'.replaced = r.replaced) ∨
        ∃ cmd, r.Carries r' prio cmd) := by
  rcases vOutQueuePop_cases h.base.queue hsafe with hres | ⟨oq', cmd, plan, hres, hpop⟩
  · simp only [SenderRun.popAdd, hres, Option.some.injEq] at hpopAdd
    subst hpopAdd
    exact ⟨.refl r, Or.inl ⟨.refl r, subset_rfl, rfl⟩⟩
  · by_cases hid : cmd.id < minCmdId
    · simp only [SenderRun.popAdd, hres, if_pos hid, Option.some.injEq] at hpopAdd
      subst hpopAdd
      refine ⟨⟨rfl, rfl, rfl⟩, Or.inl ⟨⟨rfl, rfl, rfl⟩, ?_, rfl⟩⟩
      rintro c ⟨p, hc⟩
      exact ⟨p, hpop.mem hc⟩
    · have hne := h.base.building (by simp [htot])
      obtain ⟨before, last, hsplit, -, hlast⟩ := getLast?_split hne
      have hi : r.s.history.packets.length - 1 < r.s.history.packets.length :=
        Nat.sub_lt (List.length_pos_of_ne_nil hne) Nat.one_pos
      obtain ⟨history', old, hadd, hsound, hpackets, hframe, hcmd, -, -, -⟩ :=
        vPacketHistoryAddCmd_spec h.base.history hi (Nat.le_of_not_lt hid) hpop.accepted prio
      simp only [SenderRun.popAdd, hres, if_neg hid, hadd, Option.some.injEq] at hpopAdd
      subst hpopAdd
      obtain ⟨hids, hflying, halone⟩ := flying_addCmd hsplit hsound hpackets
        (fun x hx => (hframe x hx).1) hcmd
      have hlastId : r.s.history.lastId = last.id := by simp [VPacketHistory.lastId, hlast]
      refine ⟨⟨rfl, rfl, rfl⟩, Or.inr ⟨cmd,
        { waited := ⟨prio, hpop.mem_head⟩, waiting := ?_, carried := rfl,
          flying := hlastId ▸ hflying, alone := halone, ids := hids, tot := by simp,
          replaced := ?_ }⟩⟩
      · rintro c ⟨p, hc⟩
        refine ⟨⟨p, hpop.mem hc⟩, fun heq => ?_⟩
        obtain rfl := Set.mem_singleton_iff.mp heq
        exact h.not_mem_popped hpop p hc
      · intro t ht
        refine (List.mem_append.mp ht).imp_right fun ht => ?_
        cases old with
        | none => simp at ht
        | some o =>
            obtain rfl : t = (o, cmd) := by simpa using ht
            rfl

/-- A command that is put back waits as before. -/
theorem SenderRun.Inv.popBack_cases (h : r.Inv) {prio len : ℕ}
    (hsafe : r.s.outQueue.PopSafe prio len) (hpopBack : r.popBack prio len = some r') :
    r.Quiet r' ∧ r.SamePackets r' ∧ r'.waiting ⊆ r.waiting ∧ r'.replaced = r.replaced := by
  rcases vOutQueuePop_cases h.base.queue hsafe with hres | ⟨oq', cmd, plan, hres, hpop⟩
  · simp only [SenderRun.popBack, hres, Option.some.injEq] at hpopBack
    subst hpopBack
    exact ⟨.refl r, .refl r, subset_rfl, rfl⟩
  · by_cases hid : cmd.id < minCmdId
    · simp only [SenderRun.popBack, hres, if_pos hid, Option.some.injEq] at hpopBack
      subst hpopBack
      refine ⟨⟨rfl, rfl, rfl⟩, ⟨rfl, rfl, rfl⟩, ?_, rfl⟩
      rintro c ⟨p, hc⟩
      exact ⟨p, hpop.mem hc⟩
    · obtain ⟨oq'', hpush, -, hcontents⟩ := h.putBack hpop
      simp only [SenderRun.popBack, hres, if_neg hid, hpush, if_true,
        Option.some.injEq] at hpopBack
      subst hpopBack
      refine ⟨⟨rfl, rfl, rfl⟩, ⟨rfl, rfl, rfl⟩, ?_, rfl⟩
      rintro c ⟨p, hc⟩
      exact ⟨p, hcontents ▸ hc⟩

/-! ## What a datagram does at the client -/

variable {c c' : VClientConn}

/-- The books grow by the ids that stand in the datagram. -/
theorem VClientConn.step_books {d : Datagram} (hstep : c.step d = some c') :
    (∀ a ∈ c'.anks, a ∈ c.anks ∨
      ∃ p ∈ d.read, p.hasFlag ankFlag = true ∧ p.ankId.toNat = a) ∧
    (c'.accepted = c.accepted ∨
      ∃ p ∈ d.read, p.hasFlag payFlag = true ∧
        c'.accepted = c.accepted ++ [p.payloadId.toNat]) := by
  unfold VClientConn.step at hstep
  split at hstep
  · obtain rfl := Option.some.inj hstep
    exact ⟨fun a ha => Or.inl ha, Or.inl rfl⟩
  · cases hread : d.read with
    | none =>
        rw [hread] at hstep
        obtain rfl := Option.some.inj hstep
        exact ⟨fun a ha => Or.inl ha, Or.inl rfl⟩
    | some p =>
        rw [hread] at hstep
        obtain rfl := Option.some.inj hstep
        split
        · constructor
          · intro a ha
            simp only at ha
            split at ha
            · rename_i hank
              refine (List.mem_append.mp ha).imp_right fun ha => ⟨p, rfl, hank, ?_⟩
              exact (List.mem_singleton.mp ha).symm
            · exact Or.inl ha
          · by_cases hpay : p.hasFlag payFlag = true
            · exact Or.inr ⟨p, rfl, hpay, if_pos hpay⟩
            · exact Or.inl (if_neg hpay)
        · exact ⟨fun a ha => Or.inl ha, Or.inl rfl⟩

/-- **A datagram** is dropped, or its packet is accepted as the newest one. -/
theorem VClientConn.Inv.step_accepted (h : c.Inv) {d : Datagram} (hd : d.InRange)
    (hstep : c.step d = some c') :
    c'.Inv ∧ c'.first = c.first ∧
      ((c'.accepted = c.accepted ∧ c'.conn.lastRPay = c.conn.lastRPay) ∨
        ∃ p ∈ d.read, p.hasFlag payFlag = true ∧ c.conn.lastRPay < p.payloadId.toNat ∧
          c'.accepted = c.accepted ++ [p.payloadId.toNat] ∧
          c'.conn.lastRPay = p.payloadId.toNat) := by
  have hfirst : ∀ (e : VClientConn) (p : VPacket), (e.ankFin p).first = e.first := by
    intro e p
    simp only [VClientConn.first, VClientConn.ankFin, (handleAnkFin_frame e.conn p).2.1]
  rcases h.step_cases hd with hres | ⟨p, hres⟩ | ⟨p, ackNak, hres, hinv, hlt⟩
  · obtain rfl := Option.some.inj (hstep.symm.trans hres)
    exact ⟨h, rfl, Or.inl ⟨rfl, rfl⟩⟩
  · obtain rfl := Option.some.inj (hstep.symm.trans hres)
    exact ⟨h.ankFin p, hfirst c p, Or.inl ⟨rfl, (handleAnkFin_frame c.conn p).1⟩⟩
  · obtain rfl := Option.some.inj (hstep.symm.trans hres)
    refine ⟨hinv.ankFin p, hfirst _ p, Or.inr ?_⟩
    have hlast := (handleAnkFin_frame (c.accept p ackNak).conn p).1
    rcases (VClientConn.step_books hstep).2 with hsame | ⟨q, hq, hpay, happend⟩
    · have hlen := congrArg List.length hsame
      simp [VClientConn.ankFin, VClientConn.accept] at hlen
    · have hid : p.payloadId.toNat = q.payloadId.toNat := by
        have := List.append_cancel_left happend
        simpa using this
      exact ⟨q, hq, hpay, hid ▸ hlt, happend, hlast.trans hid⟩

end Verse
