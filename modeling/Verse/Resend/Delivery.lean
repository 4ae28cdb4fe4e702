import Verse.Resend.DgramLink

/-!
# The commands of the server reach the client

Whatever the network does with the datagrams, a command that the server pushed is
delivered to the client at most once, and the versions of a command are delivered in the
order in which they were pushed.  No command gets lost: as long as it was not delivered,
it waits or is in a packet that is not settled, or a newer version took its place.

## Strategy

`DgramLink.Inv` says that the books meet the invariant of `Resending` and that the ACK
and NAK commands in the network are true.  They stay true: the client accepts only
payload ids above all it accepted before.
-/

namespace Verse

open Lib

/-- What an ACK or a NAK says is true of the client. -/
def VClientConn.Tells (c : VClientConn) : AckNakCmd → Prop
  | (.ack, id) => id ∈ c.accepted
  | (.nak, id) => id ∉ c.accepted ∧ ∃ last ∈ c.accepted, id < last

structure DgramLink.Inv (l : DgramLink) : Prop where
  server : l.server.Inv
  client : l.client.Inv
  books : l.books.Inv Replaces CmdPtr.addr
  order : l.server.s.history.InOrder
  ids : ∀ packet ∈ l.server.s.history.packets, packet.id ≤ l.payloadId ∧
    (packet.id = l.payloadId → l.server.tot ≠ none)
  building : l.server.tot ≠ none → l.server.s.history.lastId = l.payloadId
  sent : ∀ id ∈ l.sent, id < l.payloadId
  room : l.payloadId < 2 ^ 32
  last : l.client.conn.lastRPay ∈ l.client.accepted
  told : ∀ cmds ∈ l.reports, ∀ m ∈ ackNakIds cmds 0, l.client.Tells m
  newest : ∀ t ∈ l.server.replaced, t.2 ∈ l.server.pushed

variable {l l' : DgramLink} {r : SenderRun}

theorem DgramLink.inv_init (hostId peerId : UInt32) (hid : hostId.toNat + 2 < 2 ^ 32) :
    (DgramLink.init hostId peerId).Inv := by
  have hfirst : (hostId + 1).toNat = hostId.toNat + 1 := by
    rw [UInt32.toNat_add]
    exact Nat.mod_eq_of_lt (by simpa using Nat.lt_of_succ_lt hid)
  refine
    { server := SenderRun.inv_init
      client := VClientConn.inv_init peerId hostId (by omega)
      books := ?_
      order := List.Pairwise.nil
      ids := fun packet hpacket => by cases hpacket
      building := fun htot => absurd rfl htot
      sent := ?_
      room := hid
      last := List.mem_singleton.mpr rfl
      told := fun cmds hcmds => by cases hcmds
      newest := fun t ht => by cases ht }
  · refine
      { known := ?_, sent := ?_, flew := ?_, sorted := List.Pairwise.nil,
        once := List.Pairwise.nil, order := List.Pairwise.nil, again := ?_, alone := ?_,
        distinct := ?_, increasing := ?_, below := ?_, passed := ?_, arrived := ?_ }
    · rintro c ⟨p, hc⟩
      cases hc
    · intro t ht
      cases ht
    · rintro u ⟨packet, hpacket, -⟩
      cases hpacket
    · rintro c ⟨p, hc⟩
      cases hc
    · rintro u ⟨packet, hpacket, -⟩
      cases hpacket
    · rintro c ⟨p, hc⟩
      cases hc
    · exact List.pairwise_singleton _ _
    · intro i hi
      obtain rfl := List.mem_singleton.mp hi
      simp only [DgramLink.books, DgramLink.init, hfirst]
      omega
    · intro i hi
      cases hi
    · rintro c ⟨id, hc⟩
      cases hc
  · intro id hmem
    simp only [DgramLink.init, List.mem_cons, List.not_mem_nil, or_false] at hmem ⊢
    omega

/-! ## The server -/

/-- The packets stay as they are while commands are pushed and put back. -/
theorem DgramLink.Inv.of_samePackets (h : l.Inv) (hinv : r.Inv) (hsame : l.server.SamePackets r)
    (hbooks : ({ l with server := r } : DgramLink).books.Inv Replaces CmdPtr.addr)
    (hnewest : ∀ t ∈ r.replaced, t.2 ∈ r.pushed) : ({ l with server := r } : DgramLink).Inv where
  server := hinv
  client := h.client
  books := hbooks
  order := hsame.history ▸ h.order
  ids := by
    simp only [hsame.history, hsame.tot]
    exact h.ids
  building := by
    simp only [hsame.history, hsame.tot]
    exact h.building
  sent := h.sent
  room := h.room
  last := h.last
  told := h.told
  newest := hnewest

theorem SenderRun.Inv.distinct_waiting (h : r.Inv) : Resending.Distinct Replaces r.waiting := by
  rintro c ⟨p, hc⟩ d ⟨p', hd⟩ hrep
  exact (h.distinct p' p d hd c hc hrep).symm

/-- **A push.** -/
theorem DgramLink.Inv.push (h : l.Inv) {limits : Bool} {prio : UInt8} {cmd : PushCmd}
    (hsafe : l.Safe (.push limits prio cmd)) :
    ∃ l', l.step (.push limits prio cmd) = some l' ∧ l'.Inv := by
  obtain ⟨r, hstep, hinv⟩ := h.server.step (.pushTail limits prio cmd) hsafe
  refine ⟨{ l with server := r }, by simp only [DgramLink.step, hstep, Option.map_some], ?_⟩
  obtain ⟨hsame, hacks, hacked, ⟨hpushed, hwaiting, hreplaced⟩ | ⟨hpushed, hwaiting, hreplaced⟩⟩ :=
    h.server.pushTail_cases cmd.2 hsafe hstep
  · refine h.of_samePackets hinv hsame ?_ ?_
    · have hbooks := h.books
      simp only [DgramLink.books] at hbooks ⊢
      rw [hpushed, hwaiting, hsame.history, hacked]
      exact hbooks
    · rw [hpushed, hreplaced]
      exact h.newest
  · refine h.of_samePackets hinv hsame ?_ ?_
    · have hbooks := h.books.push (fun x hx => h.server.fresh x hx) hwaiting hinv.distinct_waiting
      have hset : {c | c ∈ r.pushed} =
          insert (⟨l.server.clock, cmd.1⟩ : CmdPtr) {c | c ∈ l.server.pushed} := by
        ext c
        simp [hpushed, or_comm]
      simp only [DgramLink.books] at hbooks ⊢
      rw [hset, hsame.history, hacked]
      exact hbooks
    · intro t ht
      rw [hpushed]
      rcases hreplaced t ht with ht | heq
      · exact List.mem_append_left _ (h.newest t ht)
      · exact List.mem_append_right _ (by simp [heq])

/-- **A packet is begun.**  It has the greatest id. -/
theorem DgramLink.Inv.openPacket (h : l.Inv) :
    ∃ l', l.step .openPacket = some l' ∧ l'.Inv := by
  have hid : (UInt32.ofNat l.payloadId).toNat = l.payloadId :=
    Nat.mod_eq_of_lt (by simpa using h.room)
  cases htot : l.server.tot with
  | some tot =>
      refine ⟨l, ?_, h⟩
      simp only [DgramLink.step, SenderRun.step, htot, Option.map_some]
  | none =>
      obtain ⟨r, hstep, hinv⟩ := h.server.step (.openPacket (UInt32.ofNat l.payloadId)) trivial
      refine ⟨{ l with server := r }, by simp only [DgramLink.step, hstep, Option.map_some], ?_⟩
      simp only [SenderRun.step, htot, hid, Option.some.injEq] at hstep
      subst hstep
      have hold : ∀ packet ∈ l.server.s.history.packets, packet.id < l.payloadId := by
        intro packet hpacket
        obtain ⟨hle, heq⟩ := h.ids packet hpacket
        exact Nat.lt_of_le_of_ne hle fun heq' => heq heq' htot
      refine
        { server := hinv, client := h.client, books := ?_, order := ?_, ids := ?_,
          building := fun _ => by simp [VPacketHistory.lastId, vPacketHistoryAddPacket],
          sent := h.sent, room := h.room, last := h.last, told := h.told, newest := h.newest }
      · have hflying : (vPacketHistoryAddPacket l.server.s.history l.payloadId).flying =
            l.server.s.history.flying := by
          ext u
          constructor
          · rintro ⟨packet, hpacket, hid, x, hx, hc⟩
            rcases List.mem_append.mp hpacket with hpacket | hpacket
            · exact ⟨packet, hpacket, hid, x, hx, hc⟩
            · obtain rfl := List.mem_singleton.mp hpacket
              cases hx
          · rintro ⟨packet, hpacket, hrest⟩
            exact ⟨packet, List.mem_append_left _ hpacket, hrest⟩
        have hbooks := h.books
        simp only [DgramLink.books] at hbooks ⊢
        rw [hflying]
        exact hbooks
      · simp only [VPacketHistory.InOrder, vPacketHistoryAddPacket, List.map_append,
          List.map_cons, List.map_nil, List.pairwise_append]
        refine ⟨h.order, List.pairwise_singleton _ _, fun i hi j hj => ?_⟩
        obtain ⟨packet, hpacket, rfl⟩ := List.mem_map.mp hi
        obtain rfl := List.mem_singleton.mp hj
        exact hold packet hpacket
      · intro packet hpacket
        refine ⟨?_, fun _ => by simp⟩
        rcases List.mem_append.mp hpacket with hpacket | hpacket
        · exact Nat.le_of_lt (hold packet hpacket)
        · rw [List.mem_singleton.mp hpacket]

/-- **A pop** for the packet. -/
theorem DgramLink.Inv.popAdd (h : l.Inv) {prio : UInt8} {len : UInt16}
    (hsafe : l.Safe (.popAdd prio len)) :
    ∃ l', l.step (.popAdd prio len) = some l' ∧ l'.Inv := by
  obtain ⟨r, hstep, hinv⟩ := h.server.step (.popAdd prio len) hsafe
  refine ⟨_, by simp only [DgramLink.step, hstep, Option.map_some]; rfl, ?_⟩
  cases htot : l.server.tot with
  | none =>
      simp only [SenderRun.step, htot, Option.some.injEq] at hstep
      subst hstep
      have hsame := (SenderRun.SamePackets.refl l.server).poppedSince
      simpa [hsame] using h
  | some tot =>
      simp only [SenderRun.step, htot] at hstep
      obtain ⟨hquiet, ⟨hsame, hwaiting, hreplaced⟩ | ⟨cmd, hcarries⟩⟩ :=
        h.server.popAdd_cases htot (hsafe (by simp [htot])) hstep
      · rw [hsame.poppedSince, List.map_nil, List.append_nil]
        refine h.of_samePackets hinv hsame ?_ ?_
        · have hbooks := h.books.withdraw hwaiting
          simp only [DgramLink.books] at hbooks ⊢
          rw [hquiet.pushed, hsame.history, hquiet.acked]
          exact hbooks
        · rw [hreplaced, hquiet.pushed]
          exact h.newest
      · have hlastId := h.building (by simp [htot])
        rw [hcarries.poppedSince, List.map_singleton]
        have hlast : r.s.history.lastId = l.server.s.history.lastId := by
          have hmap := congrArg List.getLast? hcarries.ids
          rw [List.getLast?_map, List.getLast?_map] at hmap
          simp only [VPacketHistory.lastId]
          cases h₁ : r.s.history.packets.getLast? <;>
            cases h₂ : l.server.s.history.packets.getLast? <;> simp_all
        refine
          { server := hinv, client := h.client, books := ?_, order := ?_, ids := ?_,
            building := fun _ => hlast.trans hlastId, sent := h.sent, room := h.room,
            last := h.last, told := h.told, newest := ?_ }
        · have hflying : r.s.history.flying ⊆
              insert (l.payloadId, cmd) l.server.s.history.flying := hlastId ▸ hcarries.flying
          have hbooks := h.books.carry hcarries.waited hcarries.waiting hflying hcarries.alone
          simp only [DgramLink.books] at hbooks ⊢
          rw [hquiet.pushed, hquiet.acked]
          exact hbooks
        · simp only [VPacketHistory.InOrder, hcarries.ids]
          exact h.order
        · intro packet hpacket
          refine ⟨?_, fun _ => hcarries.tot⟩
          have hmem : packet.id ∈ r.s.history.packets.map (·.id) := List.mem_map_of_mem hpacket
          rw [hcarries.ids] at hmem
          obtain ⟨packet', hpacket', heq⟩ := List.mem_map.mp hmem
          exact heq ▸ (h.ids packet' hpacket').1
        · intro t ht
          rw [hquiet.pushed]
          rcases hcarries.replaced t ht with ht | heq
          · exact h.newest t ht
          · exact heq ▸ h.books.known cmd hcarries.waited

/-- A pop that is undone. -/
theorem DgramLink.Inv.popBack (h : l.Inv) {prio : UInt8} {len : UInt16}
    (hsafe : l.Safe (.popBack prio len)) :
    ∃ l', l.step (.popBack prio len) = some l' ∧ l'.Inv := by
  obtain ⟨r, hstep, hinv⟩ := h.server.step (.popBack prio len) hsafe
  refine ⟨{ l with server := r }, by simp only [DgramLink.step, hstep, Option.map_some], ?_⟩
  cases htot : l.server.tot with
  | none =>
      simp only [SenderRun.step, htot, Option.some.injEq] at hstep
      subst hstep
      exact h
  | some tot =>
      simp only [SenderRun.step, htot] at hstep
      obtain ⟨hquiet, hsame, hwaiting, hreplaced⟩ :=
        h.server.popBack_cases (hsafe (by simp [htot])) hstep
      refine h.of_samePackets hinv hsame ?_ ?_
      · have hbooks := h.books.withdraw hwaiting
        simp only [DgramLink.books] at hbooks ⊢
        rw [hquiet.pushed, hsame.history, hquiet.acked]
        exact hbooks
      · rw [hreplaced, hquiet.pushed]
        exact h.newest

/-- **The packet is sent.** -/
theorem DgramLink.Inv.closePacket (h : l.Inv) (hsafe : l.Safe .closePacket) :
    ∃ l', l.step .closePacket = some l' ∧ l'.Inv := by
  cases htot : l.server.tot with
  | none => exact ⟨l, by simp only [DgramLink.step, htot], h⟩
  | some tot =>
      obtain ⟨r, hstep, hinv⟩ := h.server.step .closePacket trivial
      refine ⟨_, by simp only [DgramLink.step, htot, hstep, Option.map_some]; rfl, ?_⟩
      simp only [SenderRun.step, htot, Option.some.injEq] at hstep
      subst hstep
      refine
        { server := hinv, client := h.client, books := h.books.send, order := h.order, ids := ?_,
          building := fun hne => absurd rfl hne, sent := ?_, room := hsafe, last := h.last,
          told := h.told, newest := h.newest }
      · intro packet hpacket
        have hle := (h.ids packet hpacket).1
        exact ⟨Nat.le_succ_of_le hle, fun heq => absurd hle (by simp only at heq; omega)⟩
      · intro id hid
        rcases List.mem_append.mp hid with hid | hid
        · exact Nat.lt_succ_of_lt (h.sent id hid)
        · rw [List.mem_singleton.mp hid]
          exact Nat.lt_succ_self _

/-- The number of a packet is left out. -/
theorem DgramLink.Inv.replyAgain (h : l.Inv) (hsafe : l.Safe .replyAgain) :
    ∃ l', l.step .replyAgain = some l' ∧ l'.Inv := by
  cases htot : l.server.tot with
  | some tot => exact ⟨l, by simp only [DgramLink.step, htot], h⟩
  | none =>
      refine ⟨_, by simp only [DgramLink.step, htot]; rfl, ?_⟩
      refine
        { h with
          books := h.books.send
          ids := fun packet hpacket => ?_
          building := fun hne => absurd htot hne
          sent := fun id hid => Nat.lt_succ_of_lt (h.sent id hid)
          room := hsafe }
      have hle := (h.ids packet hpacket).1
      exact ⟨Nat.le_succ_of_le hle, fun heq => absurd hle (by simp only at heq; omega)⟩

/-- What is known of the packets when one of them is settled. -/
theorem DgramLink.Inv.ids_of_settles (h : l.Inv) {history' : VPacketHistory} {id : ℕ}
    (hsettles : l.server.s.history.Settles history' id) :
    history'.InOrder ∧ ∀ packet ∈ history'.packets, packet.id ≤ l.payloadId ∧
      packet.id ≠ id ∧ (packet.id = l.payloadId → l.server.tot ≠ none) := by
  refine ⟨h.order.of_sublist hsettles.sublist, fun packet hpacket => ?_⟩
  obtain ⟨hle, hbuilding⟩ := h.ids packet (hsettles.sublist.subset hpacket)
  exact ⟨hle, hsettles.gone packet hpacket, hbuilding⟩

/-- **The send fails.**  The packet is taken out of the books. -/
theorem DgramLink.Inv.sendFails (h : l.Inv) (hsafe : l.Safe .sendFails) :
    ∃ l', l.step .sendFails = some l' ∧ l'.Inv := by
  cases htot : l.server.tot with
  | none => exact ⟨l, by simp only [DgramLink.step, htot], h⟩
  | some tot =>
      obtain ⟨r, hstep, hinv⟩ := h.server.step .sendFails hsafe
      refine ⟨_, by simp only [DgramLink.step, htot, hstep, Option.map_some]; rfl, ?_⟩
      obtain ⟨s', cmds, hres, hqueue, hsettles, -⟩ := handleAck_settles
        (s := { l.server.s with sentSize := add32 l.server.s.sentSize tot })
        h.server.base.history h.order (hsafe (by simp [htot]))
      simp only [SenderRun.step, htot, hres, Option.map_some, Option.some.injEq] at hstep
      subst hstep
      rw [h.building (by simp [htot])] at hsettles
      obtain ⟨horder, hids⟩ := h.ids_of_settles hsettles
      refine
        { server := hinv, client := h.client, books := ?_, order := horder, ids := ?_,
          building := fun hne => absurd rfl hne, sent := h.sent, room := h.room, last := h.last,
          told := h.told, newest := h.newest }
      · have hbooks := h.books.cancel hsettles.flying
        simp only [DgramLink.books, SenderRun.waiting, hqueue] at hbooks ⊢
        exact hbooks
      · intro packet hpacket
        obtain ⟨hle, hne, -⟩ := hids packet hpacket
        exact ⟨hle, fun heq => absurd heq hne⟩

/-! ## ACK and NAK commands -/

/-- **One id that was acknowledged or missed.** -/
theorem DgramLink.Inv.mark (h : l.Inv) (htot : l.server.tot = none) {m : AckNakCmd}
    (htells : l.client.Tells m) (hsafe : l.server.MarkSafe m) :
    ∃ l', l.mark m = some l' ∧ l'.Inv ∧ l'.server.tot = none ∧ l'.client = l.client := by
  obtain ⟨kind, id⟩ := m
  cases kind with
  | ack =>
      obtain ⟨r, hmark, hinv, htot'⟩ := h.server.ack htot hsafe
      refine ⟨{ l with server := r }, by simp only [DgramLink.mark, hmark, Option.map_some], ?_,
        htot', rfl⟩
      obtain ⟨s', cmds, hres, hqueue, hsettles, hcmds⟩ :=
        handleAck_settles h.server.base.history h.order hsafe
      rw [SenderRun.mark_ack hres] at hmark
      obtain rfl := Option.some.inj hmark
      obtain ⟨horder, hids⟩ := h.ids_of_settles hsettles
      refine
        { server := hinv, client := h.client, books := ?_, order := horder,
          ids := fun packet hpacket => ⟨(hids packet hpacket).1, (hids packet hpacket).2.2⟩,
          building := fun hne => absurd htot hne, sent := h.sent, room := h.room,
          last := h.last, told := h.told, newest := h.newest }
      have hconfirmed : {c | ∃ n, (n, c) ∈ l.server.acked ++ cmds.map (id, ·)} ⊆
          {c | ∃ n, (n, c) ∈ l.server.acked} ∪ {c | (id, c) ∈ l.server.s.history.flying} := by
        rintro c ⟨n, hc⟩
        rcases List.mem_append.mp hc with hc | hc
        · exact Or.inl ⟨n, hc⟩
        · obtain ⟨d, hd, heq⟩ := List.mem_map.mp hc
          obtain ⟨rfl, rfl⟩ := Prod.mk.inj heq
          exact Or.inr (hcmds d hd)
      have hbooks := h.books.confirm htells hsettles.flying hconfirmed
      simp only [DgramLink.books, SenderRun.waiting, hqueue] at hbooks ⊢
      exact hbooks
  | nak =>
      obtain ⟨r, hmark, hinv, htot'⟩ := h.server.nak htot hsafe
      refine ⟨{ l with server := r, missed := l.missed ++ [id] },
        by simp only [DgramLink.mark, hmark, Option.map_some], ?_, htot', rfl⟩
      obtain ⟨s', cmds, hres, hwaiting, hsettles, hcmds⟩ :=
        handleNak_settles h.server.base.queue h.server.base.history h.order hsafe
      rw [SenderRun.mark_nak hres] at hmark
      obtain rfl := Option.some.inj hmark
      obtain ⟨horder, hids⟩ := h.ids_of_settles hsettles
      refine
        { server := hinv, client := h.client, books := ?_, order := horder,
          ids := fun packet hpacket => ⟨(hids packet hpacket).1, (hids packet hpacket).2.2⟩,
          building := fun hne => absurd htot hne, sent := h.sent, room := h.room,
          last := h.last, told := h.told, newest := ?_ }
      · have hsub : {c | ∃ p, c ∈ s'.outQueue.contents p} ⊆
            l.server.waiting ∪ {c | (id, c) ∈ l.server.s.history.flying} := by
          rintro c ⟨p, hc⟩
          exact hwaiting p c hc
        have hbooks := h.books.miss htells.1 htells.2 hsub hinv.distinct_waiting hsettles.flying
        have hset : {n | n ∈ l.missed ++ [id]} = insert id {n | n ∈ l.missed} := by
          ext n
          simp [or_comm]
        simp only [DgramLink.books] at hbooks ⊢
        rw [hset]
        exact hbooks
      · intro t ht
        rcases List.mem_append.mp ht with ht | ht
        · exact h.newest t ht
        · obtain ⟨c, hc, rfl⟩ := List.mem_map.mp ht
          obtain ⟨p, hp⟩ := hcmds c hc
          exact h.server.pushed_of_mem hp

/-- **The ids of a list of ACK and NAK commands.** -/
theorem DgramLink.Inv.marks (h : l.Inv) (htot : l.server.tot = none) {marks : List AckNakCmd}
    (htells : ∀ m ∈ marks, l.client.Tells m)
    (hsafe : Admissible DgramLink.mark (fun l m => l.server.MarkSafe m) l marks) :
    ∃ l', run DgramLink.mark l marks = some l' ∧ l'.Inv ∧ l'.server.tot = none ∧
      l'.client = l.client := by
  have hstep : ∀ (k : DgramLink) (m : AckNakCmd),
      k.Inv ∧ k.server.tot = none ∧ k.client = l.client →
      k.server.MarkSafe m ∧ l.client.Tells m →
      ∃ k', k.mark m = some k' ∧ k'.Inv ∧ k'.server.tot = none ∧ k'.client = l.client := by
    rintro k m ⟨hk, hktot, hclient⟩ ⟨hmsafe, hmtells⟩
    obtain ⟨k', hmark, hk', hktot', hclient'⟩ := hk.mark hktot (hclient ▸ hmtells) hmsafe
    exact ⟨k', hmark, hk', hktot', hclient'.trans hclient⟩
  exact run_induction hstep ⟨h, htot, rfl⟩ (hsafe.and_forall htells)

/-- **ACK and NAK commands arrive**, perhaps late or once more. -/
theorem DgramLink.Inv.handleReport (h : l.Inv) {i : ℕ} (hsafe : l.Safe (.handleReport i)) :
    ∃ l', l.step (.handleReport i) = some l' ∧ l'.Inv := by
  cases htot : l.server.tot with
  | some tot => exact ⟨l, by simp only [DgramLink.step, htot], h⟩
  | none =>
      cases hcmds : l.reports[i]? with
      | none => exact ⟨l, by simp only [DgramLink.step, htot, hcmds], h⟩
      | some cmds =>
          obtain ⟨l', hrun, hinv, -, -⟩ := h.marks htot
            (h.told cmds (List.mem_of_getElem? hcmds)) (hsafe htot cmds hcmds)
          refine ⟨_, by simp only [DgramLink.step, htot, hcmds, hrun, Option.map_some]; rfl, ?_⟩
          exact { hinv with }

/-! ## The client -/

/-- What is told stays true when a packet is accepted. -/
theorem VClientConn.Tells.accept {c c' : VClientConn} {m : AckNakCmd} (h : c.Tells m) {id : ℕ}
    (haccepted : c'.accepted = c.accepted ++ [id]) (hlast : ∀ j ∈ c.accepted, j < id) :
    c'.Tells m := by
  obtain ⟨kind, n⟩ := m
  cases kind with
  | ack =>
      simp only [VClientConn.Tells, haccepted] at h ⊢
      exact List.mem_append_left _ h
  | nak =>
      obtain ⟨hnot, last, hmem, hlt⟩ := h
      refine ⟨fun hin => ?_, last, haccepted ▸ List.mem_append_left _ hmem, hlt⟩
      rw [haccepted] at hin
      rcases List.mem_append.mp hin with hin | hin
      · exact hnot hin
      · obtain rfl := List.mem_singleton.mp hin
        exact Nat.lt_asymm hlt (hlast last hmem)

/-- What arrives was sent, so its payload id is in range. -/
theorem DgramLink.Inv.inRange (h : l.Inv) {d : Datagram} (hsafe : l.Safe (.deliver d)) :
    d.InRange := by
  intro p hp hpay
  have hlt := h.sent _ ((hsafe p hp).1 hpay)
  exact Nat.lt_of_le_of_lt hlt h.room

/-- **A datagram arrives** at the client. -/
theorem DgramLink.Inv.deliver (h : l.Inv) {d : Datagram} (hsafe : l.Safe (.deliver d)) :
    ∃ l', l.step (.deliver d) = some l' ∧ l'.Inv := by
  obtain ⟨c, hstep, -, -⟩ := h.client.step d (h.inRange hsafe)
  refine ⟨{ l with client := c }, by simp only [DgramLink.step, hstep, Option.map_some], ?_⟩
  obtain ⟨hinv, -, ⟨haccepted, hlast⟩ | ⟨p, hp, hpay, hlt, haccepted, hlast⟩⟩ :=
    h.client.step_accepted (h.inRange hsafe) hstep
  · have htells : ∀ m, l.client.Tells m → c.Tells m := by
      rintro ⟨kind, n⟩ hm
      cases kind <;> simpa only [VClientConn.Tells, haccepted] using hm
    refine
      { h with
        client := hinv
        books := ?_
        last := by simp only [haccepted, hlast]; exact h.last
        told := fun cmds hcmds m hm => htells m (h.told cmds hcmds m hm) }
    have hbooks := h.books
    simp only [DgramLink.books] at hbooks ⊢
    rw [haccepted]
    exact hbooks
  · have hnew : ∀ j ∈ l.client.accepted, j < p.payloadId.toNat := fun j hj =>
      Nat.lt_of_le_of_lt (h.client.below j hj).2 hlt
    refine
      { h with
        client := hinv
        books := ?_
        last := by simp [haccepted, hlast]
        told := fun cmds hcmds m hm => (h.told cmds hcmds m hm).accept haccepted hnew }
    have hbooks := h.books.take (h.sent _ ((hsafe p hp).1 hpay)) hnew
    simp only [DgramLink.books] at hbooks ⊢
    rw [haccepted]
    exact hbooks

/-- What the history of ACK and NAK commands stands for is true. -/
theorem DgramLink.Inv.tells_of_marks (h : l.Inv) :
    ∀ m ∈ ackNakIds (l.client.conn.ackNak.cmds.take (maxSystemCommandCount - 1)) 0,
      l.client.Tells m := by
  obtain ⟨marks, hcomp, hmarked⟩ := h.client.marks
  rintro ⟨kind, id⟩ hm
  have hmark := hcomp.ackNakIds_take ⟨fun _ => 0, rfl⟩ _ hm
  cases kind with
  | ack => exact hmarked.ack id hmark
  | nak =>
      obtain ⟨-, hlt, hnot⟩ := hmarked.nak id hmark
      exact ⟨hnot, _, h.last, hlt⟩

/-- **The client sends** its ACK and NAK commands. -/
theorem DgramLink.Inv.report (h : l.Inv) : ∃ l', l.step .report = some l' ∧ l'.Inv := by
  refine ⟨_, rfl, { h with told := fun cmds hcmds m hm => ?_ }⟩
  rcases List.mem_append.mp hcmds with hcmds | hcmds
  · exact h.told cmds hcmds m hm
  · obtain rfl := List.mem_singleton.mp hcmds
    exact h.tells_of_marks m hm

/-! ## Runs -/

/-- **One action** keeps the invariant. -/
theorem DgramLink.Inv.step (h : l.Inv) (a : LinkAction) (hsafe : l.Safe a) :
    ∃ l', l.step a = some l' ∧ l'.Inv := by
  cases a with
  | push limits prio cmd => exact h.push hsafe
  | openPacket => exact h.openPacket
  | popAdd prio len => exact h.popAdd hsafe
  | popBack prio len => exact h.popBack hsafe
  | closePacket => exact h.closePacket hsafe
  | sendFails => exact h.sendFails hsafe
  | replyAgain => exact h.replyAgain hsafe
  | deliver d => exact h.deliver hsafe
  | report => exact h.report
  | handleReport i => exact h.handleReport hsafe

/-- The commands that the client got, packet by packet. -/
def DgramLink.delivered (l : DgramLink) : List CmdPtr :=
  l.client.accepted.flatMap fun id => (l.carried.filter fun t => t.1 = id).map Prod.snd

theorem DgramLink.Inv.kept (h : l.Inv) {c : CmdPtr} (hc : c ∈ l.server.pushed)
    (hid : minCmdId ≤ c.id) :
    c ∈ l.delivered ∨ (∃ p, c ∈ l.server.s.outQueue.contents p) ∨
      c ∈ l.server.s.history.live ∨ c ∈ l.server.lost ∨
      ∃ newer ∈ l.server.pushed, Replaces newer c ∧ c.addr < newer.addr := by
  have hmem : c ∈ l.server.places + (l.server.lost : Multiset CmdPtr) := by
    rw [h.server.mass]
    exact Multiset.mem_coe.mpr hc
  simp only [SenderRun.places, Multiset.mem_add, Multiset.mem_coe] at hmem
  rcases hmem with ((((hwaits | hlive) | hacked) | hreplaced) | hconsumed) | hlost
  · exact Or.inr (Or.inl ((mem_total_iff h.server.base.bound).mp hwaits))
  · exact Or.inr (Or.inr (Or.inl hlive))
  · obtain ⟨⟨id, d⟩, ht, rfl⟩ := List.mem_map.mp hacked
    exact Or.inl (h.books.delivered_of_confirmed ⟨id, ht⟩)
  · obtain ⟨t, ht, rfl⟩ := List.mem_map.mp hreplaced
    obtain ⟨hrep, hlt⟩ := h.server.newer t ht
    exact Or.inr (Or.inr (Or.inr (Or.inr ⟨t.2, h.newest t ht, hrep, hlt⟩)))
  · exact absurd (h.server.fake c hconsumed) (Nat.not_lt_of_le hid)
  · exact Or.inr (Or.inr (Or.inr (Or.inl hlost)))

/-- Nothing waits, and all packets are settled. -/
structure DgramLink.Quiet (l : DgramLink) : Prop where
  queue : ∀ p, l.server.s.outQueue.contents p = []
  live : l.server.s.history.live = []
  lost : l.server.lost = []

end Verse
