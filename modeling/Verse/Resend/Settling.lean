import Verse.History.Cut
import Verse.Resend.Delivery

/-!
# Packets are settled

The server hears of a packet by the ACK and NAK commands of the client, and tells the
client by an ANK id which of them it need not send any more.  Nothing is cut too early:
an id that is not reported any more was handled (`DgramLink.Settling`).  So one list of
ACK and NAK commands that arrives settles all packets up to the last one that the client
accepted (`report_settles`), however many lists were lost before.

## Strategy

An ANK id is the id of the last ACK of a list that was handled, and that list had all
ids up to it, but for those that were cut from it, which were handled before.
-/

namespace Verse

open Lib

/-- The packet was acknowledged, or its NAK was handled. -/
def DgramLink.Settled (l : DgramLink) (id : ℕ) : Prop := id ∈ l.server.acks ∨ id ∈ l.missed

def DgramLink.SettledTo (l : DgramLink) (last : ℕ) : Prop :=
  ∀ id, l.client.first ≤ id → id ≤ last → l.Settled id

/-- The list has all ids up to its last ACK that are not settled. -/
def DgramLink.Reports (l : DgramLink) (cmds : List AckNakCmd) : Prop :=
  ∀ last, cmds.getLast? = some (.ack, last) → ∀ id, l.client.first ≤ id → id ≤ last →
    l.Settled id ∨ ∃ kind, (kind, id) ∈ ackNakIds cmds 0

structure DgramLink.Settling (l : DgramLink) : Prop where
  acks : ∀ id ∈ l.server.acks, id ∈ l.client.accepted
  packets : ∀ packet ∈ l.server.s.history.packets,
    ¬ l.Settled packet.id ∧ l.client.first ≤ packet.id
  hostId : l.hostId ∈ l.ankIds
  ankId : l.ankId ∈ l.ankIds
  ankIds : ∀ a ∈ l.ankIds, l.SettledTo a
  anks : ∀ a ∈ l.client.anks, a ∈ l.ankIds
  reports : ∀ cmds ∈ l.reports, l.Reports cmds

variable {l l' : DgramLink}

/-- A packet that is settled is below the one that is being assembled. -/
theorem DgramLink.Settling.lt (h : l.Inv) (hs : l.Settling) {id : ℕ} (hid : l.Settled id) :
    id < l.payloadId := by
  rcases hid with hack | hmissed
  · exact h.books.below id (hs.acks id hack)
  · exact h.books.missed_lt hmissed

theorem DgramLink.Inv.first_lt (h : l.Inv) : l.client.first < l.payloadId :=
  Nat.lt_of_le_of_lt h.client.first (h.books.below _ h.last)

/-- Nothing was heard, and only the packet that is being assembled may be new. -/
theorem DgramLink.Settling.frame (hs : l.Settling) (hclient : l'.client = l.client)
    (hacks : l'.server.acks = l.server.acks) (hmissed : l'.missed = l.missed)
    (hreports : l'.reports = l.reports) (hankIds : l'.ankIds = l.ankIds)
    (hhostId : l'.hostId = l.hostId) (hankId : l'.ankId = l.ankId ∨ l'.ankId = l.hostId)
    (hpackets : ∀ packet ∈ l'.server.s.history.packets,
      packet.id ∈ l.server.s.history.packets.map (·.id) ∨
        ¬ l.Settled packet.id ∧ l.client.first ≤ packet.id) : l'.Settling := by
  have hsettled : ∀ id, l'.Settled id ↔ l.Settled id := by
    intro id
    rw [DgramLink.Settled, hacks, hmissed]
    rfl
  refine
    { acks := ?_, packets := ?_, hostId := ?_, ankId := ?_, ankIds := ?_, anks := ?_,
      reports := ?_ }
  · rw [hacks, hclient]
    exact hs.acks
  · intro packet hpacket
    rw [hsettled, hclient]
    rcases hpackets packet hpacket with hmem | hnew
    · obtain ⟨packet', hpacket', heq⟩ := List.mem_map.mp hmem
      exact heq ▸ hs.packets packet' hpacket'
    · exact hnew
  · rw [hhostId, hankIds]
    exact hs.hostId
  · rw [hankIds]
    rcases hankId with heq | heq
    · exact heq ▸ hs.ankId
    · exact heq ▸ hs.hostId
  · rw [hankIds]
    intro a ha id hlow hhigh
    rw [hclient] at hlow
    exact (hsettled id).mpr (hs.ankIds a ha id hlow hhigh)
  · rw [hclient, hankIds]
    exact hs.anks
  · rw [hreports]
    intro cmds hcmds last hlast id hlow hhigh
    rw [hclient] at hlow
    exact (hs.reports cmds hcmds last hlast id hlow hhigh).imp_left (hsettled id).mpr

/-! ## Handling ACK and NAK commands -/

/-- What one id does. -/
theorem DgramLink.Inv.mark_settles (h : l.Inv) {m : AckNakCmd} (hsafe : l.server.MarkSafe m)
    (hmark : l.mark m = some l') :
    l.server.s.history.Settles l'.server.s.history m.2 ∧
      (∀ id, l'.Settled id ↔ l.Settled id ∨ id = m.2) ∧
      (∀ id ∈ l'.server.acks, id ∈ l.server.acks ∨ m = (.ack, id)) ∧
      l'.reports = l.reports ∧ l'.hostId = l.hostId ∧ l'.ankId = l.ankId ∧
      l'.ankIds = l.ankIds := by
  obtain ⟨kind, id⟩ := m
  cases kind with
  | ack =>
      obtain ⟨s', cmds, hres, -, hsettles, -⟩ :=
        handleAck_settles h.server.base.history h.order hsafe
      rw [DgramLink.mark, SenderRun.mark_ack hres, Option.map_some] at hmark
      obtain rfl := Option.some.inj hmark
      refine ⟨hsettles, fun n => ?_, fun n hn => ?_, rfl, rfl, rfl, rfl⟩
      · simp only [DgramLink.Settled, List.mem_append, List.mem_singleton]
        exact or_right_comm
      · rcases List.mem_append.mp hn with hn | hn
        · exact Or.inl hn
        · exact Or.inr (by rw [List.mem_singleton.mp hn])
  | nak =>
      obtain ⟨s', cmds, hres, -, hsettles, -⟩ :=
        handleNak_settles h.server.base.queue h.server.base.history h.order hsafe
      rw [DgramLink.mark, SenderRun.mark_nak hres, Option.map_some] at hmark
      obtain rfl := Option.some.inj hmark
      refine ⟨hsettles, fun n => ?_, fun n hn => Or.inl hn, rfl, rfl, rfl, rfl⟩
      simp only [DgramLink.Settled, List.mem_append, List.mem_singleton]
      exact or_assoc.symm

/-- **One id** is settled. -/
theorem DgramLink.Settling.mark (h : l.Inv) (hs : l.Settling) (htot : l.server.tot = none)
    {m : AckNakCmd} (htells : l.client.Tells m) (hsafe : l.server.MarkSafe m)
    (hmark : l.mark m = some l') : l'.Settling := by
  obtain ⟨hsettles, hsettled, hacks, hreports, hhostId, hankId, hankIds⟩ :=
    h.mark_settles hsafe hmark
  obtain ⟨k, hk, -, -, hclient⟩ := h.mark htot htells hsafe
  obtain rfl := Option.some.inj (hmark.symm.trans hk)
  refine
    { acks := ?_, packets := ?_, hostId := ?_, ankId := ?_, ankIds := ?_, anks := ?_,
      reports := ?_ }
  · intro id hid
    rw [hclient]
    rcases hacks id hid with hid | rfl
    · exact hs.acks id hid
    · exact htells
  · intro packet hpacket
    obtain ⟨hnot, hfirst⟩ := hs.packets packet (hsettles.sublist.subset hpacket)
    rw [hsettled, hclient]
    exact ⟨fun hor => hor.elim hnot (hsettles.gone packet hpacket), hfirst⟩
  · rw [hhostId, hankIds]
    exact hs.hostId
  · rw [hankId, hankIds]
    exact hs.ankId
  · rw [hankIds]
    intro a ha id hlow hhigh
    rw [hclient] at hlow
    exact (hsettled id).mpr (Or.inl (hs.ankIds a ha id hlow hhigh))
  · rw [hclient, hankIds]
    exact hs.anks
  · rw [hreports]
    intro cmds hcmds last hlast id hlow hhigh
    rw [hclient] at hlow
    exact (hs.reports cmds hcmds last hlast id hlow hhigh).imp_left
      fun hid => (hsettled id).mpr (Or.inl hid)

/-- **A list of ids**: they all are settled. -/
theorem DgramLink.Settling.marks (h : l.Inv) (hs : l.Settling) (htot : l.server.tot = none)
    {marks : List AckNakCmd} (htells : ∀ m ∈ marks, l.client.Tells m)
    (hsafe : Admissible DgramLink.mark (fun l m => l.server.MarkSafe m) l marks)
    (hrun : run DgramLink.mark l marks = some l') :
    l'.Settling ∧ (∀ id, l'.Settled id ↔ l.Settled id ∨ ∃ kind, (kind, id) ∈ marks) ∧
      l'.client = l.client ∧ l'.reports = l.reports ∧ l'.ankId = l.ankId ∧
      l'.ankIds = l.ankIds := by
  induction marks generalizing l with
  | nil =>
      obtain rfl := Option.some.inj hrun
      exact ⟨hs, by simp, rfl, rfl, rfl, rfl⟩
  | cons m rest ih =>
      obtain ⟨hmsafe, hrest⟩ := hsafe
      have hmtells := htells m List.mem_cons_self
      obtain ⟨k, hk, hinv, hktot, hclient⟩ := h.mark htot hmtells hmsafe
      obtain ⟨-, hsettled, -, hreports, -, hankId, hankIds⟩ := h.mark_settles hmsafe hk
      rw [run_cons hk] at hrun
      obtain ⟨hs', hsettled', hclient', hreports', hankId', hankIds'⟩ :=
        ih hinv (hs.mark h htot hmtells hmsafe hk) hktot
          (fun m' hm' => hclient ▸ htells m' (List.mem_cons_of_mem _ hm')) (hrest k hk) hrun
      refine ⟨hs', fun id => ?_, hclient'.trans hclient, hreports'.trans hreports,
        hankId'.trans hankId, hankIds'.trans hankIds⟩
      obtain ⟨kind, n⟩ := m
      rw [hsettled', hsettled, or_assoc]
      refine or_congr_right ?_
      constructor
      · rintro (rfl | ⟨kind', hmem⟩)
        · exact ⟨kind, List.mem_cons_self⟩
        · exact ⟨kind', List.mem_cons_of_mem _ hmem⟩
      · rintro ⟨kind', hmem⟩
        rcases List.mem_cons.mp hmem with heq | hmem
        · exact Or.inl (Prod.mk.inj heq).2
        · exact Or.inr ⟨kind', hmem⟩

/-- The ids of the list are settled, and its last ACK is the new ANK id. -/
theorem DgramLink.Settling.handleReport (h : l.Inv) (hs : l.Settling) {i : ℕ}
    (hsafe : l.Safe (.handleReport i)) (hstep : l.step (.handleReport i) = some l') :
    l'.Settling ∧ l'.client = l.client ∧ (l.server.tot = none → ∀ cmds ∈ l.reports[i]?,
      ∀ id, l'.Settled id ↔ l.Settled id ∨ ∃ kind, (kind, id) ∈ ackNakIds cmds 0) := by
  cases htot : l.server.tot with
  | some tot =>
      simp only [DgramLink.step, htot, Option.some.injEq] at hstep
      subst hstep
      exact ⟨hs, rfl, fun hnone => by cases hnone⟩
  | none =>
      cases hcmds : l.reports[i]? with
      | none =>
          simp only [DgramLink.step, htot, hcmds, Option.some.injEq] at hstep
          subst hstep
          exact ⟨hs, rfl, fun _ cmds hmem => by cases hmem⟩
      | some cmds =>
          have hmem := List.mem_of_getElem? hcmds
          have hadm := hsafe htot cmds hcmds
          obtain ⟨k, hrun, -, -, -⟩ := h.marks htot (h.told cmds hmem) hadm
          simp only [DgramLink.step, htot, hcmds, hrun, Option.map_some, Option.some.injEq] at hstep
          subst hstep
          obtain ⟨hs', hsettled, hclient, hreports, hankId, hankIds⟩ :=
            hs.marks h htot (h.told cmds hmem) hadm hrun
          refine ⟨?_, hclient, fun _ cmds' hcmds' => ?_⟩
          · have hank : k.SettledTo (ankIdAfter cmds k.ankId) := by
              unfold ankIdAfter
              split
              · rename_i last hlast
                intro id hlow hhigh
                rw [hclient] at hlow
                exact (hsettled id).mpr (hs.reports cmds hmem last hlast id hlow hhigh)
              · exact hs'.ankIds _ hs'.ankId
            refine
              { hs' with
                hostId := List.mem_append_left _ hs'.hostId
                ankId := List.mem_append_right _ (List.mem_singleton.mpr rfl)
                ankIds := fun a ha => ?_
                anks := fun a ha => List.mem_append_left _ (hs'.anks a ha) }
            rcases List.mem_append.mp ha with ha | ha
            · exact hs'.ankIds a ha
            · rw [List.mem_singleton.mp ha]
              exact hank
          · obtain rfl := Option.some.inj hcmds'
            exact hsettled

/-! ## What the client reports -/

/-- What is cut off a list is above its last ACK. -/
theorem Compressed.mem_take {cmds marks : List AckNakCmd} {last : ℕ}
    (h : Compressed cmds last marks) (n : ℕ) {kind : AckNakId} {id ack : ℕ}
    (hmem : (kind, id) ∈ marks) (hlast : (cmds.take n).getLast? = some (.ack, ack))
    (hle : id ≤ ack) : (kind, id) ∈ Verse.ackNakIds (cmds.take n) 0 := by
  obtain ⟨before, htake⟩ : ∃ before, cmds.take n = before ++ [(.ack, ack)] := by
    obtain ⟨before, hsplit⟩ := List.getLast?_eq_some_iff.mp hlast
    exact ⟨before, hsplit⟩
  rw [← h.ackNakIds 0] at hmem
  have hsplit : cmds = before ++ (.ack, ack) :: cmds.drop n := by
    conv_lhs => rw [← List.take_append_drop n cmds, htake]
    simp
  have hpairwise := h.alternates.pairwise
  rw [hsplit, ackNakIds_append] at hmem
  rw [htake, ackNakIds_append]
  refine List.mem_append.mpr ((List.mem_append.mp hmem).imp_right fun hmem => ?_)
  cases hdrop : cmds.drop n with
  | nil =>
      rw [hdrop] at hmem
      exact hmem
  | cons next rest =>
      rw [hdrop] at hmem hsplit
      rw [hsplit, List.map_append, List.pairwise_append, List.map_cons, List.map_cons,
        List.pairwise_cons] at hpairwise
      have hlt : ack < next.2 := hpairwise.2.1.1 _ List.mem_cons_self
      rw [ackNakIds_cons_cons] at hmem
      rcases List.mem_append.mp hmem with hmem | hmem
      · obtain ⟨rfl, hlow, -⟩ := Lib.mem_span.mp hmem
        obtain rfl := Nat.le_antisymm hle hlow
        exact List.mem_singleton.mpr rfl
      · have hge := le_of_mem_ackNakIds (by simpa using hpairwise.2.1.2) hmem
        simp only at hge
        omega

/-- An id that is not reported any more was settled. -/
theorem DgramLink.Settling.complete (hs : l.Settling) {marks : List AckNakCmd}
    (hmarked : Marked l.client.first l.client.conn.lastRPay l.client.accepted l.client.anks marks)
    {id : ℕ} (hlow : l.client.first ≤ id) (hhigh : id ≤ l.client.conn.lastRPay) :
    l.Settled id ∨ ∃ kind, (kind, id) ∈ marks := by
  by_cases hank : ∀ a ∈ l.client.anks, a < id
  · right
    rcases hmarked.complete id hlow hhigh hank with hack | hnak
    · exact ⟨.ack, hack⟩
    · exact ⟨.nak, hnak⟩
  · push Not at hank
    obtain ⟨a, ha, hle⟩ := hank
    exact Or.inl (hs.ankIds a (hs.anks a ha) id hlow hle)

/-- **A new list** has all ids that are not settled, up to its last ACK. -/
theorem DgramLink.Settling.report (h : l.Inv) (hs : l.Settling)
    (hstep : l.step .report = some l') : l'.Settling := by
  obtain rfl := Option.some.inj hstep
  refine { hs with reports := fun cmds hcmds => ?_ }
  rcases List.mem_append.mp hcmds with hcmds | hcmds
  · exact hs.reports cmds hcmds
  · obtain rfl := List.mem_singleton.mp hcmds
    obtain ⟨marks, hcomp, hmarked⟩ := h.client.marks
    intro last hlast id hlow hhigh
    have hmem : (AckNakId.ack, last) ∈ l.client.conn.ackNak.cmds :=
      List.mem_of_mem_take (List.mem_of_getLast? hlast)
    have hle := hcomp.le_last _ hmem
    refine (hs.complete hmarked hlow (Nat.le_trans hhigh hle)).imp_right ?_
    rintro ⟨kind, hmark⟩
    exact ⟨kind, hcomp.mem_take _ hmark hlast hhigh⟩

/-! ## The other actions -/

theorem DgramLink.Settling.samePackets (hs : l.Settling) {r : SenderRun}
    (hsame : l.server.SamePackets r) (hacks : r.acks = l.server.acks) :
    ({ l with server := r } : DgramLink).Settling :=
  hs.frame rfl hacks rfl rfl rfl rfl (Or.inl rfl) fun _ hpacket =>
    Or.inl (List.mem_map_of_mem (hsame.history ▸ hpacket))

theorem DgramLink.Settling.push (h : l.Inv) (hs : l.Settling) {limits : Bool} {prio : UInt8}
    {cmd : PushCmd} (hsafe : l.Safe (.push limits prio cmd))
    (hstep : l.step (.push limits prio cmd) = some l') : l'.Settling := by
  obtain ⟨r, hr, rfl⟩ := Option.map_eq_some_iff.mp hstep
  obtain ⟨hsame, hacks, -, -⟩ := h.server.pushTail_cases cmd.2 hsafe hr
  exact hs.samePackets hsame hacks

/-- A new packet has an id that was not heard of. -/
theorem DgramLink.Settling.openPacket (h : l.Inv) (hs : l.Settling)
    (hstep : l.step .openPacket = some l') : l'.Settling := by
  obtain ⟨r, hr, rfl⟩ := Option.map_eq_some_iff.mp hstep
  have hid : (UInt32.ofNat l.payloadId).toNat = l.payloadId :=
    Nat.mod_eq_of_lt (by simpa using h.room)
  cases htot : l.server.tot with
  | some tot =>
      simp only [SenderRun.step, htot, Option.some.injEq] at hr
      subst hr
      exact hs
  | none =>
      simp only [SenderRun.step, htot, hid, Option.some.injEq] at hr
      subst hr
      refine hs.frame rfl rfl rfl rfl rfl rfl (Or.inl rfl) fun packet hpacket => ?_
      rcases List.mem_append.mp hpacket with hpacket | hpacket
      · exact Or.inl (List.mem_map_of_mem hpacket)
      · obtain rfl := List.mem_singleton.mp hpacket
        exact Or.inr ⟨fun hid => Nat.lt_irrefl _ (hs.lt h hid), Nat.le_of_lt h.first_lt⟩

theorem DgramLink.Settling.popAdd (h : l.Inv) (hs : l.Settling) {prio : UInt8} {len : UInt16}
    (hsafe : l.Safe (.popAdd prio len)) (hstep : l.step (.popAdd prio len) = some l') :
    l'.Settling := by
  obtain ⟨r, hr, rfl⟩ := Option.map_eq_some_iff.mp hstep
  cases htot : l.server.tot with
  | none =>
      simp only [SenderRun.step, htot, Option.some.injEq] at hr
      subst hr
      exact hs.frame rfl rfl rfl rfl rfl rfl (Or.inl rfl) fun _ hpacket =>
        Or.inl (List.mem_map_of_mem hpacket)
  | some tot =>
      simp only [SenderRun.step, htot] at hr
      obtain ⟨hquiet, hcases⟩ := h.server.popAdd_cases htot (hsafe (by simp [htot])) hr
      refine hs.frame rfl hquiet.acks rfl rfl rfl rfl (Or.inl rfl) fun packet hpacket => Or.inl ?_
      rcases hcases with ⟨hsame, -⟩ | ⟨cmd, hcarries⟩
      · exact List.mem_map_of_mem (hsame.history ▸ hpacket)
      · rw [← hcarries.ids]
        exact List.mem_map_of_mem hpacket

theorem DgramLink.Settling.popBack (h : l.Inv) (hs : l.Settling) {prio : UInt8} {len : UInt16}
    (hsafe : l.Safe (.popBack prio len)) (hstep : l.step (.popBack prio len) = some l') :
    l'.Settling := by
  obtain ⟨r, hr, rfl⟩ := Option.map_eq_some_iff.mp hstep
  cases htot : l.server.tot with
  | none =>
      simp only [SenderRun.step, htot, Option.some.injEq] at hr
      subst hr
      exact hs
  | some tot =>
      simp only [SenderRun.step, htot] at hr
      obtain ⟨hquiet, hsame, -⟩ := h.server.popBack_cases (hsafe (by simp [htot])) hr
      exact hs.samePackets hsame hquiet.acks

theorem DgramLink.Settling.closePacket (hs : l.Settling)
    (hstep : l.step .closePacket = some l') : l'.Settling := by
  cases htot : l.server.tot with
  | none =>
      simp only [DgramLink.step, htot, Option.some.injEq] at hstep
      subst hstep
      exact hs
  | some tot =>
      simp only [DgramLink.step, SenderRun.step, htot, Option.map_some,
        Option.some.injEq] at hstep
      subst hstep
      exact hs.frame rfl rfl rfl rfl rfl rfl (Or.inl rfl) fun _ hpacket =>
        Or.inl (List.mem_map_of_mem hpacket)

theorem DgramLink.Settling.sendFails (h : l.Inv) (hs : l.Settling) (hsafe : l.Safe .sendFails)
    (hstep : l.step .sendFails = some l') : l'.Settling := by
  cases htot : l.server.tot with
  | none =>
      simp only [DgramLink.step, htot, Option.some.injEq] at hstep
      subst hstep
      exact hs
  | some tot =>
      obtain ⟨s', cmds, hres, -, hsettles, -⟩ := handleAck_settles
        (s := { l.server.s with sentSize := add32 l.server.s.sentSize tot })
        h.server.base.history h.order (hsafe (by simp [htot]))
      simp only [DgramLink.step, SenderRun.step, htot, hres, Option.map_some,
        Option.some.injEq] at hstep
      subst hstep
      exact hs.frame rfl rfl rfl rfl rfl rfl (Or.inl rfl) fun _ hpacket =>
        Or.inl (List.mem_map_of_mem (hsettles.sublist.subset hpacket))

theorem DgramLink.Settling.replyAgain (hs : l.Settling)
    (hstep : l.step .replyAgain = some l') : l'.Settling := by
  cases htot : l.server.tot with
  | some tot =>
      simp only [DgramLink.step, htot, Option.some.injEq] at hstep
      subst hstep
      exact hs
  | none =>
      simp only [DgramLink.step, htot, Option.some.injEq] at hstep
      subst hstep
      exact hs.frame rfl rfl rfl rfl rfl rfl (Or.inr rfl) fun _ hpacket =>
        Or.inl (List.mem_map_of_mem hpacket)

/-- The client handles only ANK ids that the server had. -/
theorem DgramLink.Settling.deliver (h : l.Inv) (hs : l.Settling) {d : Datagram}
    (hsafe : l.Safe (.deliver d)) (hstep : l.step (.deliver d) = some l') : l'.Settling := by
  obtain ⟨c, hc, rfl⟩ := Option.map_eq_some_iff.mp hstep
  obtain ⟨-, hfirst, haccepted⟩ := h.client.step_accepted (h.inRange hsafe) hc
  have hto : ∀ a, l.SettledTo a → ({ l with client := c } : DgramLink).SettledTo a := by
    intro a ha id hlow hhigh
    exact ha id (hfirst ▸ hlow) hhigh
  refine
    { hs with
      acks := fun id hid => ?_
      packets := fun packet hpacket => ?_
      ankIds := fun a ha => hto a (hs.ankIds a ha)
      anks := fun a ha => ?_
      reports := fun cmds hcmds last hlast id hlow hhigh => ?_ }
  · have hmem := hs.acks id hid
    rcases haccepted with ⟨heq, -⟩ | ⟨p, -, -, -, heq, -⟩
    · exact heq ▸ hmem
    · rw [heq]
      exact List.mem_append_left _ hmem
  · simp only [hfirst]
    exact hs.packets packet hpacket
  · rcases (VClientConn.step_books hc).1 a ha with ha | ⟨p, hp, hank, rfl⟩
    · exact hs.anks a ha
    · exact (hsafe p hp).2 hank
  · simp only [hfirst] at hlow
    exact hs.reports cmds hcmds last hlast id hlow hhigh

/-- **One action** keeps the invariant. -/
theorem DgramLink.Settling.step (h : l.Inv) (hs : l.Settling) {a : LinkAction} (hsafe : l.Safe a)
    (hstep : l.step a = some l') : l'.Settling := by
  cases a with
  | push limits prio cmd => exact hs.push h hsafe hstep
  | openPacket => exact hs.openPacket h hstep
  | popAdd prio len => exact hs.popAdd h hsafe hstep
  | popBack prio len => exact hs.popBack h hsafe hstep
  | closePacket => exact hs.closePacket hstep
  | sendFails => exact hs.sendFails h hsafe hstep
  | replyAgain => exact hs.replyAgain hstep
  | deliver d => exact hs.deliver h hsafe hstep
  | report => exact hs.report h hstep
  | handleReport i => exact (hs.handleReport h hsafe hstep).1

end Verse
