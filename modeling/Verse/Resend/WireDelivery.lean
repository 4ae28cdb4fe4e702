import Verse.Queues.OutQueueGroupRun
import Verse.Resend.WireLink

/-!
# Delivery over the bytes of datagrams

The packet loops and the bytes refine `DgramLink`: every action of a `WireLink` is a run of
the `DgramLink` that it follows.  So what `DgramLink.Delivers` says of packets and their
commands holds of the commands that the client reads from the bytes of the datagrams that
arrive, as long as addresses are not shared (`CMPR_NONE`).

## Strategy

`WireLink.Follows` says which `DgramLink` a `WireLink` is, and what stands in the buffer
and in the datagrams of the network.  What was sent is not changed by a later action
(`DgramLink.Extends`), so that for each action only the new packet has to be looked at.
-/

namespace Verse

open Lib

/-! ## The client -/

variable {c c' : VClientConn}

/-- A datagram is dropped, or the data of its packet are handed on. -/
theorem VClientConn.step_delivered {d : Datagram} (hstep : c.step d = some c') :
    (c'.accepted = c.accepted ∧ c'.conn.delivered = c.conn.delivered) ∨
      ∃ p ∈ d.read, p.hasFlag payFlag = true ∧
        c'.accepted = c.accepted ++ [p.payloadId.toNat] ∧
        c'.conn.delivered =
          c.conn.delivered ++ (p.data.map (p.payloadId.toNat, ·)).toList := by
  unfold VClientConn.step at hstep
  split at hstep
  · obtain rfl := Option.some.inj hstep
    exact Or.inl ⟨rfl, rfl⟩
  · cases hread : d.read with
    | none =>
        rw [hread] at hstep
        obtain rfl := Option.some.inj hstep
        exact Or.inl ⟨rfl, rfl⟩
    | some p =>
        rw [hread] at hstep
        obtain rfl := Option.some.inj hstep
        unfold vcHandlePacket
        by_cases hversion : p.version = vrsVersion
        · by_cases hpay : p.hasFlag payFlag = true
          · cases hrecord : recordPayload c.conn.ackNak c.conn.lastRPay p.payloadId.toNat with
            | none =>
                left
                simp [hversion, handlePacketInOpenState, handleNodeCommands, hpay, hrecord]
            | some ackNak =>
                refine Or.inr ⟨p, rfl, hpay, ?_, ?_⟩
                · simp [hversion, handlePacketInOpenState, handleNodeCommands, hpay, hrecord]
                · simp only [hversion, if_true, handlePacketInOpenState, handleNodeCommands, hpay,
                    hrecord]
                  exact (handleAnkFin_frame _ p).2.2.1
          · left
            simp only [hversion, if_true, handlePacketInOpenState, hpay]
            exact ⟨rfl, (handleAnkFin_frame c.conn p).2.2.1⟩
        · left
          simp [hversion]

/-! ## What an action of the link leaves alone -/

variable {l l' : DgramLink}

/-- What was sent is still there, and the packets have the same commands. -/
structure DgramLink.Extends (l l' : DgramLink) : Prop where
  sent : ∀ id ∈ l.sent, id ∈ l'.sent
  ankIds : ∀ a ∈ l.ankIds, a ∈ l'.ankIds
  content : ∀ id < l.payloadId, l'.books.content id = l.books.content id

theorem DgramLink.Extends.refl (l : DgramLink) : l.Extends l :=
  ⟨fun _ h => h, fun _ h => h, fun _ _ => rfl⟩

/-- What the ids of a list of ACK and NAK commands do not change. -/
def DgramLink.rest (l : DgramLink) :=
  (l.hostId, l.payloadId, l.ankId, l.carried, l.sent, l.ankIds, l.client, l.reports,
    l.server.clock, l.server.pushed, l.server.lost, l.server.tot)

theorem DgramLink.mark_rest {m : AckNakCmd} (hmark : l.mark m = some l') : l'.rest = l.rest := by
  obtain ⟨r, hr, rfl⟩ := Option.map_eq_some_iff.mp hmark
  obtain ⟨kind, id⟩ := m
  cases kind with
  | ack =>
      obtain ⟨t, -, rfl⟩ := Option.map_eq_some_iff.mp hr
      rfl
  | nak =>
      obtain ⟨t, -, rfl⟩ := Option.map_eq_some_iff.mp hr
      rfl

theorem DgramLink.marks_rest {marks : List AckNakCmd} (hrun : run DgramLink.mark l marks = some l') :
    l'.rest = l.rest := by
  induction marks generalizing l with
  | nil =>
      obtain rfl := Option.some.inj hrun
      rfl
  | cons m rest ih =>
      obtain ⟨k, hk, hrest⟩ := Option.bind_eq_some_iff.mp hrun
      exact (ih hrest).trans (mark_rest hk)

/-- **One action** of the link. -/
theorem DgramLink.step_extends {a : LinkAction} (hstep : l.step a = some l') : l.Extends l' := by
  cases a with
  | push limits prio cmd =>
      obtain ⟨r, -, rfl⟩ := Option.map_eq_some_iff.mp hstep
      exact ⟨fun _ h => h, fun _ h => h, fun _ _ => rfl⟩
  | openPacket =>
      obtain ⟨r, -, rfl⟩ := Option.map_eq_some_iff.mp hstep
      exact ⟨fun _ h => h, fun _ h => h, fun _ _ => rfl⟩
  | popAdd prio len =>
      obtain ⟨r, -, rfl⟩ := Option.map_eq_some_iff.mp hstep
      refine ⟨fun _ h => h, fun _ h => h, fun id hid => ?_⟩
      have hnone : ((l.server.poppedSince r).map (l.payloadId, ·)).filter (fun t => t.1 = id) = [] := by
        rw [List.filter_eq_nil_iff]
        intro t ht
        obtain ⟨c, -, rfl⟩ := List.mem_map.mp ht
        simpa using Nat.ne_of_gt hid
      simp only [Resending.content, DgramLink.books, List.filter_append, hnone, List.append_nil]
  | popBack prio len =>
      obtain ⟨r, -, rfl⟩ := Option.map_eq_some_iff.mp hstep
      exact ⟨fun _ h => h, fun _ h => h, fun _ _ => rfl⟩
  | closePacket =>
      cases htot : l.server.tot with
      | none =>
          simp only [DgramLink.step, htot, Option.some.injEq] at hstep
          exact hstep ▸ .refl l
      | some tot =>
          simp only [DgramLink.step, htot] at hstep
          obtain ⟨r, -, rfl⟩ := Option.map_eq_some_iff.mp hstep
          exact ⟨fun _ h => List.mem_append_left _ h, fun _ h => h, fun _ _ => rfl⟩
  | sendFails =>
      cases htot : l.server.tot with
      | none =>
          simp only [DgramLink.step, htot, Option.some.injEq] at hstep
          exact hstep ▸ .refl l
      | some tot =>
          simp only [DgramLink.step, htot] at hstep
          obtain ⟨r, -, rfl⟩ := Option.map_eq_some_iff.mp hstep
          refine ⟨fun _ h => h, fun _ h => h, fun id hid => ?_⟩
          simp only [Resending.content, DgramLink.books, List.filter_filter]
          congr 1
          refine List.filter_congr fun t _ => ?_
          by_cases heq : t.1 = id
          · simp [heq, Nat.ne_of_lt hid]
          · simp [heq]
  | replyAgain =>
      cases htot : l.server.tot with
      | some tot =>
          simp only [DgramLink.step, htot, Option.some.injEq] at hstep
          exact hstep ▸ .refl l
      | none =>
          simp only [DgramLink.step, htot, Option.some.injEq] at hstep
          subst hstep
          exact ⟨fun _ h => h, fun _ h => h, fun _ _ => rfl⟩
  | deliver d =>
      obtain ⟨c, -, rfl⟩ := Option.map_eq_some_iff.mp hstep
      exact ⟨fun _ h => h, fun _ h => h, fun _ _ => rfl⟩
  | report =>
      obtain rfl := Option.some.inj hstep
      exact ⟨fun _ h => h, fun _ h => h, fun _ _ => rfl⟩
  | handleReport i =>
      cases htot : l.server.tot with
      | some tot =>
          simp only [DgramLink.step, htot, Option.some.injEq] at hstep
          exact hstep ▸ .refl l
      | none =>
          cases hcmds : l.reports[i]? with
          | none =>
              simp only [DgramLink.step, htot, hcmds, Option.some.injEq] at hstep
              exact hstep ▸ .refl l
          | some cmds =>
              simp only [DgramLink.step, htot, hcmds] at hstep
              obtain ⟨k, hrun, rfl⟩ := Option.map_eq_some_iff.mp hstep
              have hrest := marks_rest hrun
              simp only [DgramLink.rest, Prod.mk.injEq] at hrest
              obtain ⟨-, -, -, hcarried, hsent, hankIds, -⟩ := hrest
              refine ⟨fun id hid => hsent ▸ hid, fun a ha => ?_, fun id _ => ?_⟩
              · exact List.mem_append_left _ (hankIds ▸ ha)
              · simp only [Resending.content, DgramLink.books, hcarried]

/-! ## Which link a state is -/

/-- The header of a packet with payload. -/
def VPacketHeader.Pays (header : VPacketHeader) : Prop := header.flags &&& payFlag ≠ 0

/-- What stands in a datagram. -/
structure DgramLink.Bears (l : DgramLink) (shares : Bool) (header : VPacketHeader)
    (node : List UInt8) : Prop where
  ank : header.ankId.toNat ∈ l.ankIds
  sent : header.Pays → header.payloadId.toNat ∈ l.sent
  node : header.Pays → shares = false →
    node = nodeBytes (l.books.content header.payloadId.toNat)

/-- A datagram that was sent. -/
def DgramLink.Sent (l : DgramLink) (mtu : UInt16) (shares : Bool) (bytes : List UInt8) : Prop :=
  ∃ header sysCmds head node, Headed header sysCmds head ∧ bytes = head ++ node ∧
    bytes.length < 2 ^ 16 ∧ (node ≠ [] → bytes.length ≤ mtu.toNat + 1) ∧ l.Bears shares header node

/-- The packet that is packed. -/
structure DgramLink.Packs (l : DgramLink) (mtu : UInt16) (shares : Bool) (k : Packing) : Prop where
  headed : ∃ header sysCmds, Headed header sysCmds k.head ∧ header.Pays ∧
    header.ankId.toNat ∈ l.ankIds ∧ header.payloadId.toNat = l.payloadId
  fits : k.Fits mtu
  sentSize : k.sentSize < 2 ^ 16
  node : shares = false → k.node = nodeBytes (l.books.content l.payloadId)

/-- The invariants of the link. -/
structure DgramLink.Sound (l : DgramLink) : Prop where
  inv : l.Inv
  settling : l.Settling
  first : l.client.first = l.hostId + 1
  hostId : l.hostId ∈ l.sent
  replied : l.hostId + 1 ∈ l.sent

structure WireLink.Follows (w : WireLink) (l : DgramLink) : Prop where
  sound : l.Sound
  s : l.server.s = w.sender.s
  clock : l.server.clock = w.clock
  pushed : l.server.pushed = w.pushed
  lost : l.server.lost = w.lost
  tot : l.server.tot = w.sender.packing.map Packing.tot
  hostId : l.hostId = w.hostId
  payloadId : l.payloadId = w.payloadId
  ankId : l.ankId = w.ankId
  client : l.client = w.client
  reports : l.reports = w.reports
  mtu : w.sender.mtu.toNat + 1 < 2 ^ 16
  packable : ∀ c ∈ w.pushed, minCmdId ≤ c.id → c.cmd.Packable
  carried : ∀ t ∈ l.carried, t.2.cmd.Packable
  fresh : w.sender.packing = none → l.books.content l.payloadId = []
  packs : ∀ k ∈ w.sender.packing, l.Packs w.sender.mtu w.sender.shares k
  network : ∀ bytes ∈ w.network, l.Sent w.sender.mtu w.sender.shares bytes
  read : w.sender.shares = false →
    (w.client.conn.delivered.flatMap fun t => readNodeCmds t.2) = l.delivered.map CmdPtr.cmd

theorem DgramLink.Sound.step (h : l.Sound) {a : LinkAction} (hsafe : l.Safe a) :
    ∃ l', l.step a = some l' ∧ l'.Inv ∧ l'.Settling ∧ l.Extends l' := by
  obtain ⟨l', hstep, hinv⟩ := h.inv.step a hsafe
  exact ⟨l', hstep, hinv, h.settling.step h.inv hsafe hstep, step_extends hstep⟩

/-- An ANK id is the id of a packet that was sent. -/
theorem DgramLink.Sound.ank_lt (h : l.Sound) {a : ℕ} (ha : a ∈ l.ankIds) : a < 2 ^ 32 := by
  refine Nat.lt_trans ?_ h.inv.room
  rcases Nat.lt_or_ge a l.client.first with hlt | hge
  · exact Nat.lt_trans hlt h.inv.first_lt
  · exact h.settling.lt h.inv (h.settling.ankIds a ha a hge le_rfl)

/-- Nothing is carried by the packet behind the one that is packed. -/
theorem DgramLink.Inv.content_next (h : l.Inv) : l.books.content (l.payloadId + 1) = [] := by
  have hnone : l.carried.filter (fun t => t.1 = l.payloadId + 1) = [] := by
    rw [List.filter_eq_nil_iff]
    intro t ht
    have hle : t.1 ≤ l.payloadId := (h.books.sent t ht).2
    simpa using Nat.ne_of_lt (Nat.lt_succ_of_le hle)
  simp only [Resending.content, DgramLink.books, hnone, List.map_nil]

variable {mtu : UInt16} {shares : Bool}

theorem DgramLink.Sent.mono (h : l.Inv) (hext : l.Extends l') {bytes : List UInt8}
    (hsent : l.Sent mtu shares bytes) : l'.Sent mtu shares bytes := by
  obtain ⟨header, sysCmds, head, node, hhead, heq, hlt, hmtu, hbears⟩ := hsent
  refine ⟨header, sysCmds, head, node, hhead, heq, hlt, hmtu, hext.ankIds _ hbears.ank,
    fun hpays => hext.sent _ (hbears.sent hpays), fun hpays hshares => ?_⟩
  rw [hext.content _ (h.sent _ (hbears.sent hpays))]
  exact hbears.node hpays hshares

theorem DgramLink.Packs.of_eq {k : Packing} (h : l.Packs mtu shares k)
    (hankIds : l'.ankIds = l.ankIds) (hpayloadId : l'.payloadId = l.payloadId)
    (hcarried : l'.carried = l.carried) : l'.Packs mtu shares k where
  headed := by
    rw [hankIds, hpayloadId]
    exact h.headed
  fits := h.fits
  sentSize := h.sentSize
  node hshares := by
    have hcontent : l'.books.content = l.books.content := by
      funext id
      simp only [Resending.content, DgramLink.books, hcarried]
    rw [hpayloadId, hcontent]
    exact h.node hshares

/-- The client got what it had before. -/
theorem DgramLink.Extends.delivered (h : l.Inv) (hext : l.Extends l')
    (hclient : l'.client = l.client) : l'.delivered = l.delivered := by
  have hbooks : l'.delivered = l'.client.accepted.flatMap l'.books.content := rfl
  rw [hbooks, hclient]
  exact List.flatMap_congr fun id hid => hext.content id (h.books.below id hid)

variable {w : WireLink}

theorem WireLink.Follows.network_mono (h : w.Follows l) (hext : l.Extends l') :
    ∀ bytes ∈ w.network, l'.Sent w.sender.mtu w.sender.shares bytes :=
  fun bytes hbytes => (h.network bytes hbytes).mono h.sound.inv hext

theorem WireLink.Follows.read_mono (h : w.Follows l) (hext : l.Extends l')
    (hclient : l'.client = l.client) (hshares : w.sender.shares = false) :
    (w.client.conn.delivered.flatMap fun t => readNodeCmds t.2) = l'.delivered.map CmdPtr.cmd := by
  rw [hext.delivered h.sound.inv hclient]
  exact h.read hshares

/-- `w` takes a step, which is a run of the link that it follows. -/
def WireLink.Goes (w : WireLink) (l : DgramLink) (a : WireAction) : Prop :=
  ∃ w' l', w.step a = some w' ∧ RunsTo DgramLink.step DgramLink.Safe l l' ∧ w'.Follows l'

/-! ## The single actions -/

/-- **A push.** -/
theorem WireLink.Follows.push (h : w.Follows l) {limits : Bool} {prio : UInt8} {cmd : PushCmd}
    (hsafe : w.Safe (.push limits prio cmd)) : w.Goes l (.push limits prio cmd) := by
  have hlink : l.Safe (.push limits prio cmd) := by
    simp only [DgramLink.Safe, SenderRun.Safe, h.s, h.clock]
    exact hsafe.1
  obtain ⟨l', hstep, hinv, hsettling, hext⟩ := h.sound.step hlink
  obtain ⟨r, hr, rfl⟩ := Option.map_eq_some_iff.mp hstep
  have hpush : l.server.pushTail limits prio.toNat cmd.1 = some r := hr
  cases hres : vOutQueuePushTail w.sender.s.outQueue limits prio.toNat ⟨w.clock, cmd.1⟩ with
  | none =>
      simp only [SenderRun.pushTail, h.s, h.clock, hres] at hpush
      cases hpush
  | some t =>
      obtain ⟨oq, accepted, old⟩ := t
      simp only [SenderRun.pushTail, h.s, h.clock, hres, Option.some.injEq] at hpush
      subst hpush
      refine ⟨_, _, by simp only [WireLink.step, hres, Option.map_some]; rfl,
        .single hlink hstep, ?_⟩
      refine
        { h with
          sound := ⟨hinv, hsettling, h.sound.first, h.sound.hostId, h.sound.replied⟩
          s := rfl
          clock := rfl
          pushed := by simp only [h.pushed]
          packable := fun c hc hid => ?_
          packs := fun k hk => (h.packs k hk).of_eq rfl rfl rfl
          network := h.network_mono hext
          read := h.read_mono hext rfl }
      simp only at hc
      split at hc
      · rcases List.mem_append.mp hc with hc | hc
        · exact h.packable c hc hid
        · obtain rfl := List.mem_singleton.mp hc
          exact hsafe.2 hid
      · exact h.packable c hc hid

theorem WireLink.header_pays (w : WireLink) (pay : Bool) (fields : PacketFields) :
    (w.header pay fields).Pays ↔ pay = true := by
  simp only [VPacketHeader.Pays, WireLink.header]
  cases pay <;> cases w.sender.closing <;> cases fields.ack <;> decide

theorem WireLink.Follows.header_ank (h : w.Follows l) (pay : Bool) (fields : PacketFields) :
    (w.header pay fields).ankId.toNat ∈ l.ankIds := by
  have hmem := h.sound.settling.ankId
  have hlt := h.sound.ank_lt hmem
  rw [h.ankId] at hmem hlt
  simp only [WireLink.header, UInt32.toNat_ofNat', Nat.mod_eq_of_lt hlt]
  exact hmem

/-- **A packet is begun.** -/
theorem WireLink.Follows.openPacket (h : w.Follows l) {fields : PacketFields}
    (hfit : fields.Fit) : w.Goes l (.openPacket fields) := by
  cases hpacking : w.sender.packing with
  | some k => exact ⟨w, l, by simp only [WireLink.step, hpacking], .refl l, h⟩
  | none =>
      have htot : l.server.tot = none := by rw [h.tot, hpacking]; rfl
      obtain ⟨l', hstep, hinv, hsettling, hext⟩ := h.sound.step (a := .openPacket) trivial
      obtain ⟨r, hr, rfl⟩ := Option.map_eq_some_iff.mp hstep
      simp only [SenderRun.step, htot, h.s, h.payloadId, Option.some.injEq] at hr
      subst hr
      obtain ⟨head, hhead, hheaded⟩ := w.head_spec true hfit
      refine ⟨_, _, by simp only [WireLink.step, hpacking, hhead, Option.map_some]; rfl,
        .single (b := .openPacket) trivial hstep, ?_⟩
      refine
        { h with
          sound := ⟨hinv, hsettling, h.sound.first, h.sound.hostId, h.sound.replied⟩
          s := rfl
          tot := rfl
          fresh := fun hnone => by cases hnone
          packs := fun k hk => ?_
          network := h.network_mono hext
          read := h.read_mono hext rfl }
      obtain rfl := Option.some.inj hk
      refine
        { headed := ⟨_, _, hheaded, (w.header_pays true fields).mpr rfl, h.header_ank true fields, ?_⟩
          fits := ⟨rfl, fun hne => absurd rfl hne⟩
          sentSize := by simp
          node := fun _ => ?_ }
      · have hroom := h.sound.inv.room
        rw [h.payloadId] at hroom
        simp only [WireLink.header, if_true, UInt32.toNat_ofNat', Nat.mod_eq_of_lt hroom]
        exact h.payloadId.symm
      · have hnone : l.books.content l.payloadId = [] := h.fresh hpacking
        exact (congrArg nodeBytes hnone).symm

/-- **A packet without payload.** -/
theorem WireLink.Follows.sendAckNak (h : w.Follows l) {fields : PacketFields}
    (hfit : fields.Fit) : w.Goes l (.sendAckNak fields) := by
  by_cases hcond : w.sender.packing = none ∧ fields.ack = true
  · obtain ⟨head, hhead, hheaded⟩ := w.head_spec false hfit
    refine ⟨{ w with network := w.network ++ [head] }, l,
      by simp only [WireLink.step, if_pos hcond, hhead, Option.map_some],
      .refl l, { h with network := fun bytes hbytes => ?_ }⟩
    rcases List.mem_append.mp hbytes with hbytes | hbytes
    · exact h.network bytes hbytes
    · obtain rfl := List.mem_singleton.mp hbytes
      have hnot : ¬ (w.header false fields).Pays := by simp [w.header_pays false fields]
      exact ⟨_, _, bytes, [], hheaded, (List.append_nil bytes).symm, hheaded.room,
        fun hne => absurd rfl hne, h.header_ank false fields, fun hpays => absurd hpays hnot,
        fun hpays => absurd hpays hnot⟩
  · exact ⟨w, l, by simp only [WireLink.step, if_neg hcond], .refl l, h⟩

/-- The reply of the handshake takes an id. -/
theorem WireLink.Follows.replyAgain (h : w.Follows l) (hsafe : w.Safe .replyAgain) :
    w.Goes l .replyAgain := by
  cases hpacking : w.sender.packing with
  | some k => exact ⟨w, l, by simp only [WireLink.step, hpacking], .refl l, h⟩
  | none =>
      have htot : l.server.tot = none := by rw [h.tot, hpacking]; rfl
      have hlink : l.Safe .replyAgain := by
        simp only [DgramLink.Safe, h.payloadId]
        exact hsafe
      obtain ⟨l', hstep, hinv, hsettling, hext⟩ := h.sound.step hlink
      have heq := hstep
      simp only [DgramLink.step, htot, Option.some.injEq] at heq
      subst heq
      refine ⟨_, _, by simp only [WireLink.step, hpacking]; rfl, .single hlink hstep, ?_⟩
      exact
        { h with
          sound := ⟨hinv, hsettling, h.sound.first, h.sound.hostId, h.sound.replied⟩
          payloadId := congrArg Nat.succ h.payloadId
          ankId := h.hostId
          fresh := fun _ => h.sound.inv.content_next
          packs := fun k hk => by rw [hpacking] at hk; cases hk
          network := h.network_mono hext
          read := h.read_mono hext rfl }

/-! ## Packing -/

variable {k k' : Packing} {p : PrioPacking}

theorem DgramLink.Packs.of_packing (h : l.Packs mtu shares k) (hhead : k'.head = k.head)
    (hnode : k'.node = k.node) (hfits : k'.Fits mtu) (hsize : k'.sentSize < 2 ^ 16) :
    l.Packs mtu shares k' where
  headed := hhead ▸ h.headed
  fits := hfits
  sentSize := hsize
  node hshares := hnode.trans (h.node hshares)

theorem DgramLink.Packs.room (h : l.Packs mtu shares k) : k.head.length < 2 ^ 16 := by
  obtain ⟨header, sysCmds, hheaded, -⟩ := h.headed
  exact hheaded.room

theorem DgramLink.Packs.leave (h : l.Packs mtu shares k) (hmtu : mtu.toNat + 1 < 2 ^ 16)
    (p : PrioPacking) : l.Packs mtu shares (k.leave p) :=
  h.of_packing rfl rfl (h.fits.leave h.room hmtu p) (Nat.mod_lt _ (by decide))

/-- The packet goes on, and nothing was popped. -/
theorem WireLink.Follows.repack (h : w.Follows l) (hpacking : w.sender.packing = some k)
    (htot : k'.tot = k.tot) (hpacks : l.Packs w.sender.mtu w.sender.shares k') :
    ({ w with sender := { w.sender with packing := some k' } } : WireLink).Follows l :=
  { h with
    tot := by rw [h.tot, hpacking, Option.map_some, Option.map_some, htot]
    fresh := fun hnone => by cases hnone
    packs := fun k'' hk'' => by
      obtain rfl := Option.some.inj hk''
      exact hpacks }

theorem WireLink.Follows.queue (h : w.Follows l) : w.sender.s.outQueue.Inv none :=
  h.s ▸ h.sound.inv.server.base.queue

/-- What is popped can be packed, if it is no fake command. -/
theorem WireLink.Follows.packable_of_mem (h : w.Follows l) {prio : ℕ} {cmd : CmdPtr}
    (hcmd : cmd ∈ w.sender.s.outQueue.contents prio) (hid : minCmdId ≤ cmd.id) :
    cmd.cmd.Packable := by
  rw [← h.s] at hcmd
  exact h.packable cmd (h.pushed ▸ h.sound.inv.server.pushed_of_mem hcmd) hid

/-- **A fake command** is popped. -/
theorem WireLink.Follows.passFake (h : w.Follows l) (hpacking : w.sender.packing = some k)
    (hcurrent : k.current = some p)
    (hpop : w.sender.s.outQueue.PopSafe p.prio.toNat (k.askedLen w.sender.mtu p).toNat)
    {oq : VOutQueue} {cmd : CmdPtr} {plan : PopPlan}
    (hres : vOutQueuePop w.sender.s.outQueue p.prio.toNat (k.askedLen w.sender.mtu p).toNat =
      some (oq, some (cmd, plan))) (hid : cmd.id < minCmdId) (closing : Bool) :
    ∃ l', RunsTo DgramLink.step DgramLink.Safe l l' ∧
      ({ w with
        sender :=
          { w.sender with
            s := { w.sender.s with outQueue := oq }
            closing := closing
            packing := some { k with current := some p } } } : WireLink).Follows l' := by
  have htot : l.server.tot = some k.tot := by rw [h.tot, hpacking, Option.map_some]
  have hlink : l.Safe (.popAdd p.prio (k.askedLen w.sender.mtu p)) := fun _ => h.s ▸ hpop
  obtain ⟨l', hstep, hinv, hsettling, hext⟩ := h.sound.step hlink
  obtain ⟨r, hr, rfl⟩ := Option.map_eq_some_iff.mp hstep
  simp only [SenderRun.step, htot, SenderRun.popAdd, h.s, hres, if_pos hid,
    Option.some.injEq] at hr
  have hpopped : l.server.poppedSince r = [] := by
    rw [SenderRun.poppedSince, ← hr, List.drop_length, List.map_nil]
  rw [hpopped, List.map_nil, List.append_nil] at hstep hinv hsettling hext
  refine ⟨_, .single hlink hstep, ?_⟩
  subst hr
  have hk := h.packs k hpacking
  have hpacks : l.Packs w.sender.mtu w.sender.shares { k with current := some p } :=
    hk.of_packing rfl rfl ⟨hk.fits.pos, hk.fits.le⟩ hk.sentSize
  exact
    { h with
      sound := ⟨hinv, hsettling, h.sound.first, h.sound.hostId, h.sound.replied⟩
      s := rfl
      tot := by
        rw [Option.map_some]
        simp only [Packing.tot, hcurrent, Option.elim_some]
      fresh := fun hnone => by cases hnone
      packs := fun k' hk' => by
        obtain rfl := Option.some.inj hk'
        exact hpacks.of_eq rfl rfl rfl
      network := h.network_mono hext
      read := h.read_mono hext rfl }

/-- **A command that does not fit** is put back. -/
theorem WireLink.Follows.passBack (h : w.Follows l) (hpacking : w.sender.packing = some k)
    (hcurrent : k.current = some p)
    (hpop : w.sender.s.outQueue.PopSafe p.prio.toNat (k.askedLen w.sender.mtu p).toNat)
    {oq : VOutQueue} {cmd : CmdPtr} {plan : PopPlan}
    (hres : vOutQueuePop w.sender.s.outQueue p.prio.toNat (k.askedLen w.sender.mtu p).toNat =
      some (oq, some (cmd, plan))) (hid : minCmdId ≤ cmd.id)
    (hpopped : Popped w.sender.s.outQueue oq p.prio.toNat cmd) :
    ∃ oq' accepted old, vOutQueuePushHead oq p.prio.toNat cmd = some (oq', accepted, old) ∧
      ∃ l', RunsTo DgramLink.step DgramLink.Safe l l' ∧
        ({ w with
          sender :=
            { w.sender with
              s := { w.sender.s with outQueue := oq' }
              packing := some (k.leave p) } } : WireLink).Follows l' := by
  have htot : l.server.tot = some k.tot := by rw [h.tot, hpacking, Option.map_some]
  have hlink : l.Safe (.popBack p.prio (k.askedLen w.sender.mtu p)) := fun _ => h.s ▸ hpop
  obtain ⟨l', hstep, hinv, hsettling, hext⟩ := h.sound.step hlink
  obtain ⟨r, hr, rfl⟩ := Option.map_eq_some_iff.mp hstep
  obtain ⟨oq', hpush, -⟩ := h.sound.inv.server.putBack (h.s ▸ hpopped)
  refine ⟨oq', true, none, hpush, _, .single hlink hstep, ?_⟩
  simp only [SenderRun.step, htot, SenderRun.popBack, h.s, hres,
    if_neg (Nat.not_lt_of_le hid), hpush, if_true, Option.some.injEq] at hr
  subst hr
  have hk := h.packs k hpacking
  exact
    { h with
      sound := ⟨hinv, hsettling, h.sound.first, h.sound.hostId, h.sound.replied⟩
      s := rfl
      tot := by
        rw [Option.map_some, Packing.leave_tot hcurrent]
      fresh := fun hnone => by cases hnone
      packs := fun k' hk' => by
        obtain rfl := Option.some.inj hk'
        exact (hk.leave h.mtu p).of_eq rfl rfl rfl
      network := h.network_mono hext
      read := h.read_mono hext rfl }

/-- **A command goes into the packet.** -/
theorem WireLink.Follows.passTake (h : w.Follows l) (hpacking : w.sender.packing = some k)
    (hcurrent : k.current = some p)
    (hpop : w.sender.s.outQueue.PopSafe p.prio.toNat (k.askedLen w.sender.mtu p).toNat)
    {oq : VOutQueue} {cmd : CmdPtr} {plan : PopPlan}
    (hres : vOutQueuePop w.sender.s.outQueue p.prio.toNat (k.askedLen w.sender.mtu p).toNat =
      some (oq, some (cmd, plan))) (hid : minCmdId ≤ cmd.id)
    (hpopped : Popped w.sender.s.outQueue oq p.prio.toNat cmd)
    (hroom : k.bufferPos + vCmdSize cmd.cmd < w.sender.mtu.toNat) {bytes : List UInt8}
    (hbytes : p.bytes w.sender.shares cmd plan = some bytes) :
    ∃ history old,
      vPacketHistoryAddCmd w.sender.s.history (w.sender.s.history.packets.length - 1) cmd
        p.prio.toNat = some (history, old) ∧
      ∃ l', RunsTo DgramLink.step DgramLink.Safe l l' ∧
        ({ w with
          sender :=
            { w.sender with
              s := { w.sender.s with outQueue := oq, history := history }
              packing := some
                { k with
                  node := k.node ++ bytes
                  bufferPos := k.bufferPos + bytes.length
                  current := some (p.next w.sender.shares cmd plan) } } } : WireLink).Follows l' := by
  have htot : l.server.tot = some k.tot := by rw [h.tot, hpacking, Option.map_some]
  have hlink : l.Safe (.popAdd p.prio (k.askedLen w.sender.mtu p)) := fun _ => h.s ▸ hpop
  obtain ⟨l', hstep, hinv, hsettling, hext⟩ := h.sound.step hlink
  obtain ⟨r, hr, rfl⟩ := Option.map_eq_some_iff.mp hstep
  -- the packet that is packed is the last one of the history
  have hne := h.sound.inv.server.base.building (by simp [htot])
  have hi : l.server.s.history.packets.length - 1 < l.server.s.history.packets.length :=
    Nat.sub_lt (List.length_pos_of_ne_nil hne) Nat.one_pos
  obtain ⟨history, old, hadd, -⟩ := vPacketHistoryAddCmd_spec h.sound.inv.server.base.history hi hid
    hpopped.accepted p.prio.toNat
  rw [h.s] at hadd
  refine ⟨history, old, hadd, _, .single hlink hstep, ?_⟩
  simp only [SenderRun.step, htot, SenderRun.popAdd, h.s, hres,
    if_neg (Nat.not_lt_of_le hid), hadd, Option.some.injEq] at hr
  have hsince : l.server.poppedSince r = [cmd] := by
    rw [SenderRun.poppedSince, ← hr, List.drop_left]
    rfl
  rw [hsince, List.map_singleton] at hinv hsettling hext ⊢
  subst hr
  have hk := h.packs k hpacking
  have hcmd := h.packable_of_mem hpopped.mem_head hid
  refine
    { h with
      sound := ⟨hinv, hsettling, h.sound.first, h.sound.hostId, h.sound.replied⟩
      s := rfl
      tot := ?_
      carried := fun t ht => ?_
      fresh := fun hnone => by cases hnone
      packs := fun k' hk' => ?_
      network := h.network_mono hext
      read := h.read_mono hext rfl }
  · have hsize : (p.next w.sender.shares cmd plan).totCmdSize =
        addSize p.totCmdSize (vCmdSize cmd.cmd) := by
      simp only [PrioPacking.next]
      split <;> rfl
    simp only [Packing.tot, hcurrent, Option.elim_some, Option.map_some, hsize, addSize,
      Nat.mod_add_mod, Nat.add_mod_mod, Nat.add_assoc]
  · rcases List.mem_append.mp ht with ht | ht
    · exact h.carried t ht
    · obtain rfl := List.mem_singleton.mp ht
      exact hcmd
  · obtain rfl := Option.some.inj hk'
    refine
      { headed := hk.headed
        fits := hk.fits.put hcmd.built hroom hbytes _
        sentSize := hk.sentSize
        node := fun hshares => ?_ }
    have hcontent : ({ l with carried := l.carried ++ [(l.payloadId, cmd)] } : DgramLink).books.content
        l.payloadId = l.books.content l.payloadId ++ [cmd] := by
      simp [Resending.content, DgramLink.books, List.filter_append]
    have halone : bytes = cmd.cmd.alone.getD [] := by
      have hpack : cmd.cmd.alone = some bytes := by
        rw [← hbytes, hshares]
        rfl
      rw [hpack, Option.getD_some]
    have hnode : nodeBytes [cmd] = bytes := by
      rw [halone, nodeBytes, List.flatMap_singleton]
    rw [hk.node hshares, ← hnode, ← nodeBytes_append]
    exact congrArg nodeBytes hcontent.symm

/-- **One pass** of the loops. -/
theorem WireLink.Follows.pass (h : w.Follows l) (hsafe : w.sender.PassSafe) : w.Goes l .pass := by
  cases hpacking : w.sender.packing with
  | none =>
      refine ⟨w, l, ?_, .refl l, h⟩
      simp only [WireLink.step, PacketSender.pass, hpacking, Option.map_some]
  | some k =>
      have hk := h.packs k hpacking
      cases hcurrent : k.current with
      | none =>
          obtain ⟨hhead, hnode, hsize, htot⟩ :=
            Packing.nextPrio_frame w.sender.mtu w.sender.s.outQueue hcurrent
          refine ⟨_, l, ?_, .refl l, h.repack hpacking htot
            (hk.of_packing hhead hnode (hk.fits.nextPrio _) (hsize ▸ hk.sentSize))⟩
          simp only [WireLink.step, PacketSender.pass, hpacking, hcurrent, Option.map_some]
      | some p =>
          by_cases hgoes : k.GoesOn w.sender.mtu w.sender.s.outQueue p
          · have hstep : w.step .pass =
                (w.sender.passCmd k p).map fun sender => { w with sender := sender } := by
              simp only [WireLink.step, PacketSender.pass, hpacking, hcurrent, if_pos hgoes]
            have hasked : w.sender.asked = some (p, k.askedLen w.sender.mtu p) := by
              simp only [PacketSender.asked, hpacking, hcurrent, Option.bind_some, if_pos hgoes]
            obtain ⟨hpop, hassert⟩ := hsafe p _ hasked
            rw [WireLink.Goes, hstep]
            rcases vOutQueuePop_cases h.queue hpop with hres | ⟨oq, cmd, plan, hres, hpopped⟩
            · refine ⟨_, l, ?_, .refl l, h.repack hpacking (Packing.leave_tot hcurrent) (hk.leave h.mtu p)⟩
              simp only [PacketSender.passCmd, hres, Option.map_some]
            by_cases hid : cmd.id < minCmdId
            · obtain ⟨l', hruns, hfollows⟩ := h.passFake hpacking hcurrent hpop hres hid
                (w.sender.closing || cmd.id == fakeCmdConnectTerminate)
              refine ⟨_, l', ?_, hruns, hfollows⟩
              simp only [PacketSender.passCmd, hres, if_pos hid, Option.map_some]
            have hnode := Nat.le_of_not_lt hid
            by_cases hroom : k.bufferPos + vCmdSize cmd.cmd < w.sender.mtu.toNat
            · have hsome : p.bytes w.sender.shares cmd plan ≠ none := by
                cases hshares : w.sender.shares with
                | true => exact hshares ▸ hassert hshares oq cmd plan hres
                | false =>
                    have hcmd := h.packable_of_mem hpopped.mem_head hnode
                    obtain ⟨bytes, hbytes, -⟩ := GenericCmd.alone_reads hcmd.built
                    have hpack : p.bytes false cmd plan = some bytes := hbytes
                    simp [hpack]
              obtain ⟨bytes, hbytes⟩ := Option.ne_none_iff_exists'.mp hsome
              obtain ⟨history, old, hadd, l', hruns, hfollows⟩ :=
                h.passTake hpacking hcurrent hpop hres hnode hpopped hroom hbytes
              refine ⟨_, l', ?_, hruns, hfollows⟩
              simp only [PacketSender.passCmd, hres, if_neg hid, if_pos hroom, hbytes, hadd,
                Option.map_some]
            · obtain ⟨oq', accepted, old, hpush, l', hruns, hfollows⟩ :=
                h.passBack hpacking hcurrent hpop hres hnode hpopped
              refine ⟨_, l', ?_, hruns, hfollows⟩
              simp only [PacketSender.passCmd, hres, if_neg hid, if_neg hroom, hpush,
                Option.map_some]
          · refine ⟨_, l, ?_, .refl l, h.repack hpacking (Packing.leave_tot hcurrent) (hk.leave h.mtu p)⟩
            simp only [WireLink.step, PacketSender.pass, hpacking, hcurrent, if_neg hgoes,
              Option.map_some]

/-! ## The end of a packet -/

/-- When both loops are done, `sent_size` has all commands. -/
theorem DgramLink.Packs.tot_of_done (h : l.Packs mtu shares k) (hdone : k.Done) :
    k.tot = k.sentSize := by
  simp only [Packing.tot, hdone.1, Option.elim_none, addSize, Nat.add_zero]
  exact Nat.mod_eq_of_lt h.sentSize

/-- **The packet is sent.** -/
theorem WireLink.Follows.sendPacket (h : w.Follows l) (hsafe : w.Safe (.closePacket true))
    (hpacking : w.sender.packing = some k) (hdone : k.Done) :
    ∃ w' l', w.closePacket true k = some w' ∧ RunsTo DgramLink.step DgramLink.Safe l l' ∧
      w'.Follows l' := by
  have hk := h.packs k hpacking
  have htot : l.server.tot = some k.sentSize := by
    rw [h.tot, hpacking, Option.map_some, hk.tot_of_done hdone]
  have hlink : l.Safe .closePacket := by
    simp only [DgramLink.Safe, h.payloadId]
    exact hsafe
  obtain ⟨l', hstep, hinv, hsettling, hext⟩ := h.sound.step hlink
  have heq := hstep
  simp only [DgramLink.step, SenderRun.step, htot, h.s, Option.map_some, Option.some.injEq] at heq
  subst heq
  refine ⟨_, _, rfl, .single hlink hstep, ?_⟩
  refine
    { h with
      sound := ⟨hinv, hsettling, h.sound.first, List.mem_append_left _ h.sound.hostId,
        List.mem_append_left _ h.sound.replied⟩
      s := rfl
      tot := rfl
      payloadId := congrArg Nat.succ h.payloadId
      fresh := fun _ => h.sound.inv.content_next
      packs := fun k' hk' => by cases hk'
      network := fun bytes hbytes => ?_
      read := h.read_mono hext rfl }
  rcases List.mem_append.mp hbytes with hbytes | hbytes
  · exact h.network_mono hext bytes hbytes
  · obtain rfl := List.mem_singleton.mp hbytes
    obtain ⟨header, sysCmds, hheaded, hpays, hank, hpayloadId⟩ := hk.headed
    have hlen : k.datagram.length = k.bufferPos := by
      rw [hk.fits.datagram, List.length_append]
      exact hk.fits.pos.symm
    refine ⟨header, sysCmds, k.head, k.node, hheaded, hk.fits.datagram, ?_, ?_, hank, ?_, ?_⟩
    · rw [hlen]
      exact hk.fits.lt hk.room h.mtu
    · rw [hlen]
      exact hk.fits.le
    · intro _
      rw [hpayloadId]
      exact List.mem_append_right _ (List.mem_singleton.mpr rfl)
    · intro _ hshares
      rw [hpayloadId]
      exact hk.node hshares

/-- **The send fails.** -/
theorem WireLink.Follows.sendFails (h : w.Follows l) (hsafe : w.Safe (.closePacket false))
    (hpacking : w.sender.packing = some k) (hdone : k.Done) :
    ∃ w' l', w.closePacket false k = some w' ∧ RunsTo DgramLink.step DgramLink.Safe l l' ∧
      w'.Follows l' := by
  have hk := h.packs k hpacking
  have htot : l.server.tot = some k.sentSize := by
    rw [h.tot, hpacking, Option.map_some, hk.tot_of_done hdone]
  have hlastId : w.sender.s.history.lastId = w.payloadId := by
    rw [← h.s]
    exact (h.sound.inv.building (by simp [htot])).trans h.payloadId
  have hlink : l.Safe .sendFails := by
    intro _
    rw [SenderRun.MarkSafe, h.s, hlastId]
    exact hsafe (by simp [hpacking])
  obtain ⟨l', hstep, hinv, hsettling, hext⟩ := h.sound.step hlink
  have heq := hstep
  simp only [DgramLink.step, htot] at heq
  obtain ⟨r, hr, rfl⟩ := Option.map_eq_some_iff.mp heq
  simp only [SenderRun.step, htot, h.s, hlastId] at hr
  obtain ⟨⟨s, cmds⟩, hres, rfl⟩ := Option.map_eq_some_iff.mp hr
  have hclose : w.closePacket false k = some
      { w with
        sender := { w.sender with s := s, packing := none }
        lost := w.lost ++ cmds } := by
    simp only [WireLink.closePacket, Bool.false_eq_true, if_false, hres, Option.map_some]
  refine ⟨_, _, hclose, .single hlink hstep, ?_⟩
  refine
    { h with
      sound := ⟨hinv, hsettling, h.sound.first, h.sound.hostId, h.sound.replied⟩
      s := rfl
      lost := by rw [h.lost]
      tot := rfl
      carried := fun t ht => h.carried t (List.mem_of_mem_filter ht)
      fresh := fun _ => ?_
      packs := fun k' hk' => by cases hk'
      network := h.network_mono hext
      read := h.read_mono hext rfl }
  simp only [Resending.content, DgramLink.books, List.filter_filter]
  rw [List.map_eq_nil_iff, List.filter_eq_nil_iff]
  intro t _
  simp

theorem WireLink.Follows.closePacket (h : w.Follows l) {sent : Bool}
    (hsafe : w.Safe (.closePacket sent)) : w.Goes l (.closePacket sent) := by
  cases hpacking : w.sender.packing with
  | none => exact ⟨w, l, by simp only [WireLink.step, hpacking], .refl l, h⟩
  | some k =>
      by_cases hdone : k.Done
      · rw [WireLink.Goes]
        simp only [WireLink.step, hpacking, if_pos hdone]
        cases sent with
        | true => exact h.sendPacket hsafe hpacking hdone
        | false => exact h.sendFails hsafe hpacking hdone
      · exact ⟨w, l, by simp only [WireLink.step, hpacking, if_neg hdone], .refl l, h⟩

/-! ## What arrives -/

theorem maxSysCmdId_lt_of_isNode {cmd : GenericCmd} (hnode : cmd.layout.isNodeCmd = true) :
    maxSysCmdId < cmd.id := by
  by_contra hle
  have hid : cmd.id.toNat < minCmdId := by
    have := Nat.le_of_not_lt fun hlt => hle (UInt8.lt_iff_toNat_lt.mpr hlt)
    exact Nat.lt_succ_of_le this
  rw [GenericCmd.layout, cmdStruct_fake _ hid] at hnode
  cases hnode

/-- **A datagram of the network** is read as what was sent. -/
theorem WireLink.Follows.read_of_sent (h : w.Follows l) {bytes : List UInt8}
    (hbytes : bytes ∈ w.network) {d : Datagram} (hholds : Holds d.buf bytes)
    (hsize : d.size.toNat = bytes.length) {p : VPacket} (hp : p ∈ d.read) :
    (p.hasFlag payFlag = true → p.payloadId.toNat ∈ l.sent) ∧ p.ankId.toNat ∈ l.ankIds ∧
      (p.hasFlag payFlag = true → w.sender.shares = false →
        (p.data.toList.flatMap readNodeCmds) =
          (l.books.content p.payloadId.toNat).map CmdPtr.cmd) := by
  obtain ⟨header, sysCmds, head, node, hheaded, rfl, hlt, -, hbears⟩ := h.network bytes hbytes
  obtain ⟨hflags, hpayloadId, hankId, hdata⟩ := hheaded.read hholds hsize hp
  have hpays : p.hasFlag payFlag = true → header.Pays := by
    intro hflag
    rw [VPacket.hasFlag, hflags] at hflag
    simpa [VPacketHeader.Pays] using hflag
  rw [hpayloadId, hankId]
  refine ⟨fun hflag => hbears.sent (hpays hflag), hbears.ank, fun hflag hshares => ?_⟩
  have hnode := hbears.node (hpays hflag) hshares
  have hcontent : ∀ c ∈ l.books.content header.payloadId.toNat, c.cmd.Packable := fun c hc =>
    h.carried _ (Resending.mem_content.mp hc)
  rw [List.length_append] at hlt
  obtain ⟨hread, hhead⟩ := readNodeCmds_nodeBytes hcontent (by rw [← hnode]; omega)
  rw [← hnode] at hread hhead
  rw [hdata]
  · by_cases hnil : node = []
    · rw [hnil, List.head?_nil, eq_comm, Option.map_eq_none_iff, List.head?_eq_none_iff] at hhead
      rw [if_pos hnil, hhead]
      rfl
    · rw [if_neg hnil, ← hread]
      exact List.flatMap_singleton _ _
  · intro b hb
    rw [hhead] at hb
    obtain ⟨c, hc, rfl⟩ := Option.map_eq_some_iff.mp hb
    exact maxSysCmdId_lt_of_isNode (hcontent c (List.mem_of_mem_head? hc)).built.isNode

/-- **A datagram arrives.** -/
theorem WireLink.Follows.arrive (h : w.Follows l) {d : Datagram} (hsafe : w.Safe (.arrive d)) :
    w.Goes l (.arrive d) := by
  have hlink : l.Safe (.deliver d) := by
    intro p hp
    rcases hsafe with ⟨bytes, hbytes, hholds, hsize⟩ | hreply
    · obtain ⟨hsent, hank, -⟩ := h.read_of_sent hbytes hholds hsize hp
      exact ⟨hsent, fun _ => hank⟩
    · obtain ⟨hpay, hank⟩ := hreply p hp
      rw [← h.hostId] at hpay hank
      refine ⟨fun hflag => ?_, fun hflag => hank hflag ▸ h.sound.settling.hostId⟩
      rcases hpay hflag with heq | heq
      · exact heq ▸ h.sound.hostId
      · exact heq ▸ h.sound.replied
  obtain ⟨l', hstep, hinv, hsettling, hext⟩ := h.sound.step hlink
  obtain ⟨c, hc, rfl⟩ := Option.map_eq_some_iff.mp hstep
  have haccepted := h.sound.inv.client.step_accepted (h.sound.inv.inRange hlink) hc
  have hclient : w.client.step d = some c := by
    rw [← h.client]
    exact hc
  refine ⟨_, _, by simp only [WireLink.step, hclient, Option.map_some]; rfl,
    .single hlink hstep, ?_⟩
  refine
    { h with
      sound := ⟨hinv, hsettling, haccepted.2.1.trans h.sound.first, h.sound.hostId,
        h.sound.replied⟩
      client := rfl
      packs := fun k hk => (h.packs k hk).of_eq rfl rfl rfl
      network := h.network_mono hext
      read := fun hshares => ?_ }
  have hread := h.read hshares
  rcases VClientConn.step_delivered hclient with ⟨hsame, hdelivered⟩ |
    ⟨p, hp, hpay, hnew, hdelivered⟩
  · simp only [hdelivered, hread, DgramLink.delivered, hsame, h.client]
  · -- the replies of the handshake are not newer than what the client has
    have hlt : l.hostId + 1 < p.payloadId.toNat := by
      have hfirst := h.sound.inv.client.first
      rw [h.sound.first] at hfirst
      rcases haccepted.2.2 with ⟨hold, -⟩ | ⟨q, -, -, hlast, hold, -⟩
      · rw [h.client, hnew] at hold
        have := congrArg List.length hold
        simp at this
      · rw [h.client, hnew] at hold
        have heq := List.append_cancel_left hold
        rw [List.cons.injEq] at heq
        rw [heq.1]
        exact Nat.lt_of_le_of_lt hfirst hlast
    rcases hsafe with ⟨bytes, hbytes, hholds, hsize⟩ | hreply
    · obtain ⟨-, -, hdata⟩ := h.read_of_sent hbytes hholds hsize hp
      have hcontent := hdata hpay hshares
      have hbooks : ({ l with client := c } : DgramLink).delivered =
          l.delivered ++ l.books.content p.payloadId.toNat := by
        simp only [DgramLink.delivered, hnew, List.flatMap_append, List.flatMap_singleton,
          h.client]
        rfl
      rw [hbooks, List.map_append, ← hread, ← hcontent, hdelivered, List.flatMap_append]
      cases p.data <;> simp
    · have hid := (hreply p hp).1 hpay
      rw [← h.hostId] at hid
      omega

/-! ## ACK and NAK commands -/

theorem WireLink.Follows.report (h : w.Follows l) : w.Goes l .report := by
  obtain ⟨l', hstep, hinv, hsettling, hext⟩ := h.sound.step (a := .report) trivial
  have heq := Option.some.inj hstep
  subst heq
  refine ⟨_, _, rfl, .single (b := .report) trivial hstep, ?_⟩
  exact
    { h with
      sound := ⟨hinv, hsettling, h.sound.first, h.sound.hostId, h.sound.replied⟩
      reports := by rw [h.reports, h.client]
      packs := fun k hk => (h.packs k hk).of_eq rfl rfl rfl
      network := h.network_mono hext
      read := h.read_mono hext rfl }

/-- The sender of the link does what the sender does. -/
theorem DgramLink.mark_s (l : DgramLink) (m : AckNakCmd) :
    (l.mark m).map (fun l => l.server.s) = l.server.s.mark m := by
  obtain ⟨kind, id⟩ := m
  cases kind <;>
    simp only [DgramLink.mark, SenderRun.mark, VSender.mark, handleMark, Option.map_map] <;> rfl

theorem DgramLink.marks_s (l : DgramLink) (marks : List AckNakCmd) :
    (run DgramLink.mark l marks).map (fun l => l.server.s) =
      run VSender.mark l.server.s marks := by
  induction marks generalizing l with
  | nil => rfl
  | cons m rest ih =>
      rw [run, run, ← l.mark_s m]
      cases l.mark m with
      | none => rfl
      | some l' => exact ih l'

theorem DgramLink.marks_safe (l : DgramLink) {marks : List AckNakCmd}
    (h : Admissible VSender.mark VSender.MarkSafe l.server.s marks) :
    Admissible DgramLink.mark (fun l m => l.server.MarkSafe m) l marks := by
  induction marks generalizing l with
  | nil => trivial
  | cons m rest ih =>
      refine ⟨?_, fun l' hl' => ih l' (h.2 _ ?_)⟩
      · obtain ⟨kind, id⟩ := m
        cases kind <;> exact h.1
      · rw [← l.mark_s m, hl', Option.map_some]

/-- **ACK and NAK commands arrive.** -/
theorem WireLink.Follows.handleReport (h : w.Follows l) {i : ℕ}
    (hsafe : w.Safe (.handleReport i)) : w.Goes l (.handleReport i) := by
  cases hpacking : w.sender.packing with
  | some k => exact ⟨w, l, by simp only [WireLink.step, hpacking], .refl l, h⟩
  | none =>
      cases hcmds : w.reports[i]? with
      | none => exact ⟨w, l, by simp only [WireLink.step, hpacking, hcmds], .refl l, h⟩
      | some cmds =>
          have htot : l.server.tot = none := by rw [h.tot, hpacking, Option.map_none]
          have hlink : l.Safe (.handleReport i) := by
            intro _ cmds' hcmds'
            rw [h.reports] at hcmds'
            exact l.marks_safe (h.s ▸ hsafe hpacking cmds' hcmds')
          obtain ⟨l', hstep, hinv, hsettling, hext⟩ := h.sound.step hlink
          have heq := hstep
          simp only [DgramLink.step, htot, h.reports, hcmds] at heq
          obtain ⟨l₁, hrun, rfl⟩ := Option.map_eq_some_iff.mp heq
          have hs : run VSender.mark w.sender.s (ackNakIds cmds 0) = some l₁.server.s := by
            rw [← h.s, ← l.marks_s, hrun, Option.map_some]
          have hrest := DgramLink.marks_rest hrun
          simp only [DgramLink.rest, Prod.mk.injEq] at hrest
          obtain ⟨hhostId, hpayloadId, hankId, hcarried, hsent, hankIds, hclient, hreports, hclock,
            hpushed, hlost, htot'⟩ := hrest
          refine ⟨_, _, by simp only [WireLink.step, hpacking, hcmds, hs, Option.map_some]; rfl,
            .single hlink hstep, ?_⟩
          refine
            { h with
              sound := ⟨hinv, hsettling, ?_, ?_, ?_⟩
              s := rfl
              clock := hclock.trans h.clock
              pushed := hpushed.trans h.pushed
              lost := hlost.trans h.lost
              tot := htot'.trans htot
              hostId := hhostId.trans h.hostId
              payloadId := hpayloadId.trans h.payloadId
              ankId := by rw [hankId, h.ankId]
              client := hclient.trans h.client
              reports := hreports.trans h.reports
              carried := hcarried.symm ▸ h.carried
              fresh := fun _ => ?_
              packs := fun k hk => by cases hk
              network := h.network_mono hext
              read := h.read_mono hext hclient }
          · rw [hclient, hhostId]
            exact h.sound.first
          · rw [hhostId, hsent]
            exact h.sound.hostId
          · rw [hhostId, hsent]
            exact h.sound.replied
          · have hfresh := h.fresh hpacking
            simp only [Resending.content, DgramLink.books, hcarried, hpayloadId] at hfresh ⊢
            exact hfresh

/-! ## Runs -/

/-- **One action** is a run of the link. -/
theorem WireLink.Follows.step (h : w.Follows l) (a : WireAction) (hsafe : w.Safe a) :
    w.Goes l a := by
  cases a with
  | push limits prio cmd => exact h.push hsafe
  | openPacket fields => exact h.openPacket hsafe
  | pass => exact h.pass hsafe
  | closePacket sent => exact h.closePacket hsafe
  | sendAckNak fields => exact h.sendAckNak hsafe
  | replyAgain => exact h.replyAgain hsafe
  | arrive d => exact h.arrive hsafe
  | report => exact h.report
  | handleReport i => exact h.handleReport hsafe

/-- A datagram with node commands ends at most one byte behind the MTU. -/
def WireLink.Within (w : WireLink) (mtu : UInt16) : Prop :=
  ∀ bytes ∈ w.network, ∃ header sysCmds node, datagram header sysCmds node = some bytes ∧
    (node ≠ [] → bytes.length ≤ mtu.toNat + 1)

theorem WireLink.Follows.within (h : w.Follows l) : w.Within w.sender.mtu := by
  intro bytes hbytes
  obtain ⟨header, sysCmds, head, node, hheaded, heq, -, hmtu, -⟩ := h.network bytes hbytes
  refine ⟨header, sysCmds, node, ?_, hmtu⟩
  rw [datagram, vPackDgramSystemCommands_built hheaded.count.le hheaded.built, Option.map_some,
    ← hheaded.eq, ← heq]

end Verse
