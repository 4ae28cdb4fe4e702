import Verse.Packets.SysCommands
import Verse.Receive.ServerConn

/-!
# What the client does with a received packet

`vc_receive_and_handle_packet` of `vc_udp_connect.c` with `vc_OPEN_handle_packet`,
which is `handle_packet_in_OPEN_state`.  Other than the server, the client looks at
the answer: `last_r_pay` is set only by a packet that was accepted.  So the node
commands of a packet are delivered at most once, in whatever order packets arrive,
and the history of ACK and NAK commands says exactly which packets were accepted.

## Strategy

`Marked` compares the marks the history stands for with the accepted packets.  A
packet that is accepted appends marks; an ANK id cuts the history and takes away
only marks that are not above it (`Compressed.removeCmds_above`).
-/

namespace Verse

open Lib

/-- A datagram; `size` is what `recv` gave. -/
structure Datagram where
  buf : Mem
  size : UInt16

/-- What is taken from the buffer; `none` when it is too short for a header.  The
client has no callback functions in the state OPEN. -/
def Datagram.read (d : Datagram) : Option VPacket :=
  match vUnpackPacketHeader d.buf d.size.toNat, vUnpackPacketSystemCommands d.buf d.size with
  | some header, some (pos, cmds) =>
      some
        { version := header.version
          flags := header.flags
          payloadId := header.payloadId
          ankId := header.ankId
          firstAck :=
            match cmds.head? with
            | some (.ackNak .ack payId) => some payId
            | _ => none
          callbacks := true
          data :=
            if pos < d.size.toNat then
              some ((List.range (d.size.toNat - pos)).map fun i => d.buf (pos + i))
            else none }
  | _, _ => none

/-- `vc_receive_and_handle_packet` behind the header. -/
def vcHandlePacket (conn : VServerConn) (p : VPacket) : VServerConn × ReceiveResult :=
  if p.version = vrsVersion then
    match handlePacketInOpenState conn p with
    | (conn, .success) =>
        (if p.hasFlag payFlag then { conn with lastRPay := p.payloadId.toNat } else conn, .success)
    | (conn, ret) => (conn, ret)
  else (conn, .corrupted)

/-- The `VDgramConn` of a client, and a book of the payload packets that were
accepted and of the ANK ids that were handled. -/
structure VClientConn where
  conn : VServerConn
  accepted : List ℕ
  anks : List ℕ

/-- `vc_PARTOPEN_handle_packet` accepted the packet with the id `peer_id+1`, and
`vc_OPEN_loop` begins. -/
def VClientConn.init (hostId peerId : UInt32) : VClientConn where
  conn := VServerConn.init hostId peerId 0
  accepted := [(peerId + 1).toNat]
  anks := []

/-- A datagram arrives.  When the state is not OPEN any more it goes to the loop of
another state. -/
def VClientConn.step (c : VClientConn) (d : Datagram) : Option VClientConn :=
  if c.conn.hostState ≠ .opened then some c
  else
    match d.read with
    | none => some c
    | some p =>
        some <|
          match vcHandlePacket c.conn p with
          | (conn, .success) =>
              { conn := conn
                accepted :=
                  if p.hasFlag payFlag then c.accepted ++ [p.payloadId.toNat] else c.accepted
                anks := if p.hasFlag ankFlag then c.anks ++ [p.ankId.toNat] else c.anks }
          | (conn, _) => { c with conn := conn }

/-- The id of the first packet in the state OPEN. -/
def VClientConn.first (c : VClientConn) : ℕ := (c.conn.peerId + 1).toNat

/-- What the history of ACK and NAK commands reports. -/
def VClientConn.reports (c : VClientConn) (mark : AckNakCmd) : Prop :=
  ∀ stale, mark ∈ ackNakIds c.conn.ackNak.cmds stale

/-- Delivery at most once, and a history that tells what was accepted: an id it
reports as ACK was accepted, one that it reports as NAK was skipped, and an id that
is above all ANK ids is reported. -/
structure VClientConn.Exact (c : VClientConn) : Prop where
  once : (c.conn.delivered.map Prod.fst).Nodup
  delivered : ∀ t ∈ c.conn.delivered, t.1 ∈ c.accepted
  ack : ∀ id, c.reports (.ack, id) → id ∈ c.accepted
  nak : ∀ id, c.reports (.nak, id) → c.first < id ∧ id < c.conn.lastRPay ∧ id ∉ c.accepted
  accepted : ∀ id ∈ c.accepted, (∀ a ∈ c.anks, a < id) → c.reports (.ack, id)
  skipped : ∀ id, c.first < id → id < c.conn.lastRPay → id ∉ c.accepted →
    (∀ a ∈ c.anks, a < id) → c.reports (.nak, id)

/-! ## The marks -/

/-- `marks` is what was noted about the ids from `first` to `last`, without some that
are not above all `anks`. -/
structure Marked (first last : ℕ) (accepted anks : List ℕ) (marks : List AckNakCmd) : Prop where
  sorted : (marks.map Prod.snd).Pairwise (· < ·)
  le : ∀ m ∈ marks, m.2 ≤ last
  ack : ∀ id, (.ack, id) ∈ marks → id ∈ accepted
  nak : ∀ id, (.nak, id) ∈ marks → first < id ∧ id < last ∧ id ∉ accepted
  complete : ∀ id, first ≤ id → id ≤ last → (∀ a ∈ anks, a < id) →
    (.ack, id) ∈ marks ∨ (.nak, id) ∈ marks

variable {first last : ℕ} {accepted anks : List ℕ} {marks : List AckNakCmd}

theorem pairwise_span (kind : AckNakId) (start stop : ℕ) :
    ((span kind start stop).map Prod.snd).Pairwise (· < ·) := by
  simp only [span, List.map_map, Function.comp_def, List.map_id']
  exact List.pairwise_lt_range'

/-- **A new packet**: the ids between are skipped, and its id is accepted. -/
theorem Marked.record (h : Marked first last accepted anks marks) (hfirst : first ≤ last)
    (hle : ∀ id ∈ accepted, id ≤ last) {id : ℕ} (hlt : last < id) :
    Marked first id (accepted ++ [id]) anks
      (marks ++ span .nak (last + 1) id ++ [(.ack, id)]) where
  sorted := by
    rw [List.map_append, List.map_append, List.pairwise_append, List.pairwise_append]
    refine ⟨⟨h.sorted, pairwise_span _ _ _, ?_⟩, by simp, ?_⟩
    · intro a ha b hb
      obtain ⟨m, hm, rfl⟩ := List.mem_map.mp ha
      obtain ⟨⟨kind, n⟩, hn, rfl⟩ := List.mem_map.mp hb
      have hbound := h.le m hm
      have hspan := (Lib.mem_span.mp hn).2.1
      simp only
      omega
    · intro a ha b hb
      simp only [List.map_cons, List.map_nil, List.mem_singleton] at hb
      subst hb
      rcases List.mem_append.mp ha with ha | ha
      · obtain ⟨m, hm, rfl⟩ := List.mem_map.mp ha
        exact Nat.lt_of_le_of_lt (h.le m hm) hlt
      · obtain ⟨⟨kind, n⟩, hn, rfl⟩ := List.mem_map.mp ha
        exact (Lib.mem_span.mp hn).2.2
  le := by
    intro m hm
    rcases List.mem_append.mp hm with hm | hm
    · rcases List.mem_append.mp hm with hm | hm
      · exact Nat.le_of_lt (Nat.lt_of_le_of_lt (h.le m hm) hlt)
      · obtain ⟨kind, n⟩ := m
        exact Nat.le_of_lt (Lib.mem_span.mp hm).2.2
    · rw [List.mem_singleton.mp hm]
  ack := by
    intro n hn
    rcases List.mem_append.mp hn with hn | hn
    · rcases List.mem_append.mp hn with hn | hn
      · exact List.mem_append_left _ (h.ack n hn)
      · exact absurd (Lib.mem_span.mp hn).1 (by simp)
    · simp only [List.mem_singleton, Prod.mk.injEq, true_and] at hn
      simp [hn]
  nak := by
    intro n hn
    rcases List.mem_append.mp hn with hn | hn
    · rcases List.mem_append.mp hn with hn | hn
      · obtain ⟨hlow, hhigh, hnot⟩ := h.nak n hn
        refine ⟨hlow, by omega, ?_⟩
        simp only [List.mem_append, List.mem_singleton, not_or]
        exact ⟨hnot, by omega⟩
      · obtain ⟨-, hlow, hhigh⟩ := Lib.mem_span.mp hn
        refine ⟨by omega, hhigh, ?_⟩
        simp only [List.mem_append, List.mem_singleton, not_or]
        exact ⟨fun hmem => absurd (hle n hmem) (by omega), by omega⟩
    · simp at hn
  complete := by
    intro n hlow hhigh hanks
    simp only [List.mem_append, List.mem_singleton, Lib.mem_span, Prod.mk.injEq]
    rcases Nat.lt_or_ge last n with hgt | hge
    · rcases Nat.lt_or_eq_of_le hhigh with hbetween | rfl
      · exact Or.inr (Or.inl (Or.inr ⟨trivial, by omega, hbetween⟩))
      · exact Or.inl (Or.inr ⟨trivial, rfl⟩)
    · exact (h.complete n hlow hge hanks).imp (fun hm => Or.inl (Or.inl hm))
        fun hm => Or.inl (Or.inl hm)

/-- **The cut** at an ANK id. -/
theorem Marked.cut (h : Marked first last accepted anks marks) {marks' : List AckNakCmd} {ankId : ℕ}
    (hsuffix : marks' <:+ marks)
    (hkeeps : ∀ m ∈ marks, m.2 ≤ last → ankId < m.2 → m ∈ marks') :
    Marked first last accepted (anks ++ [ankId]) marks' where
  sorted := h.sorted.sublist (hsuffix.sublist.map _)
  le m hm := h.le m (hsuffix.subset hm)
  ack id hid := h.ack id (hsuffix.subset hid)
  nak id hid := h.nak id (hsuffix.subset hid)
  complete := by
    intro id hlow hhigh hanks
    have habove : ankId < id := hanks ankId (by simp)
    have hold := h.complete id hlow hhigh fun a ha => hanks a (by simp [ha])
    exact hold.imp (fun hm => hkeeps _ hm hhigh habove) fun hm => hkeeps _ hm hhigh habove

/-! ## The steps -/

structure VClientConn.Inv (c : VClientConn) : Prop where
  bound : c.conn.lastRPay + 1 < 2 ^ 32
  first : c.first ≤ c.conn.lastRPay
  order : (c.conn.delivered.map Prod.fst).Pairwise (· < ·)
  delivered : ∀ t ∈ c.conn.delivered, t.1 ∈ c.accepted
  below : ∀ id ∈ c.accepted, c.first ≤ id ∧ id ≤ c.conn.lastRPay
  marks : ∃ marks, Compressed c.conn.ackNak.cmds c.conn.lastRPay marks ∧
    Marked c.first c.conn.lastRPay c.accepted c.anks marks

theorem VClientConn.inv_init (hostId peerId : UInt32) (hid : (peerId + 1).toNat + 1 < 2 ^ 32) :
    (VClientConn.init hostId peerId).Inv where
  bound := hid
  first := Nat.le_refl _
  order := List.Pairwise.nil
  delivered t ht := by cases ht
  below id hmem := by
    obtain rfl := List.mem_singleton.mp hmem
    exact ⟨Nat.le_refl _, Nat.le_refl _⟩
  marks := by
    refine ⟨[(.ack, (peerId + 1).toNat)], ⟨rfl, ?_, (span_succ_self _ _).symm⟩, ?_⟩
    · intro cmd hcmd
      simpa [VClientConn.init, VServerConn.init, vAckNakHistoryAddCmd, vAckNakHistoryInit, addCmd]
        using hcmd.symm
    · refine ⟨by simp, ?_, ?_, ?_, ?_⟩
      · intro m hm
        rw [List.mem_singleton.mp hm]
        exact Nat.le_refl _
      · intro id hm
        simpa [VClientConn.init] using hm
      · intro id hm
        simp at hm
      · intro id hlow hhigh _
        have heq : id = (peerId + 1).toNat := Nat.le_antisymm hhigh hlow
        simp [heq]

variable {c : VClientConn} {p : VPacket}

/-- The history says what `Exact` asks for. -/
theorem VClientConn.Inv.exact (h : c.Inv) : c.Exact := by
  obtain ⟨marks, hcomp, hmarked⟩ := h.marks
  have hreports : ∀ mark, c.reports mark ↔ mark ∈ marks := by
    intro mark
    simp only [VClientConn.reports, hcomp.ackNakIds]
    exact ⟨fun hall => hall 0, fun hmem _ => hmem⟩
  refine ⟨h.order.imp fun hlt => Nat.ne_of_lt hlt, h.delivered, ?_, ?_, ?_, ?_⟩
  · intro id hid
    exact hmarked.ack id ((hreports _).mp hid)
  · intro id hid
    exact hmarked.nak id ((hreports _).mp hid)
  · intro id hid hanks
    obtain ⟨hlow, hhigh⟩ := h.below id hid
    refine (hreports _).mpr ((hmarked.complete id hlow hhigh hanks).resolve_right fun hnak => ?_)
    exact (hmarked.nak id hnak).2.2 hid
  · intro id hlow hhigh hnot hanks
    have hmark := hmarked.complete id (Nat.le_of_lt hlow) (Nat.le_of_lt hhigh) hanks
    exact (hreports _).mpr (hmark.resolve_left fun hack => hnot (hmarked.ack id hack))

/-- The ANK id of a packet is handled, and its FIN flag. -/
def VClientConn.ankFin (c : VClientConn) (p : VPacket) : VClientConn where
  conn := handleAnkFin c.conn p
  accepted := c.accepted
  anks := if p.hasFlag ankFlag then c.anks ++ [p.ankId.toNat] else c.anks

/-- The packet is accepted. -/
def VClientConn.accept (c : VClientConn) (p : VPacket) (ackNak : AckNakHistory) : VClientConn where
  conn := { c.conn.recorded p ackNak with lastRPay := p.payloadId.toNat }
  accepted := c.accepted ++ [p.payloadId.toNat]
  anks := c.anks

theorem handleAnkFin_frame (conn : VServerConn) (p : VPacket) :
    (handleAnkFin conn p).lastRPay = conn.lastRPay ∧ (handleAnkFin conn p).peerId = conn.peerId ∧
      (handleAnkFin conn p).delivered = conn.delivered ∧
      (handleAnkFin conn p).ackNak =
        if p.hasFlag ankFlag then vAckNakHistoryRemoveCmds conn.ackNak p.ankId.toNat
        else conn.ackNak := by
  unfold handleAnkFin
  by_cases hank : p.hasFlag ankFlag = true <;> by_cases hfin : p.hasFlag finFlag = true <;>
    simp [hank, hfin]

theorem VClientConn.Inv.ankFin (h : c.Inv) (p : VPacket) : (c.ankFin p).Inv := by
  obtain ⟨hlast, hpeer, hdelivered, hackNak⟩ := handleAnkFin_frame c.conn p
  have hfirst : (c.ankFin p).first = c.first := by
    simp only [VClientConn.first, VClientConn.ankFin, hpeer]
  have hmarks : ∃ marks, Compressed (c.ankFin p).conn.ackNak.cmds c.conn.lastRPay marks ∧
      Marked c.first c.conn.lastRPay c.accepted (c.ankFin p).anks marks := by
    obtain ⟨marks, hcomp, hmarked⟩ := h.marks
    simp only [VClientConn.ankFin, hackNak]
    split
    · have hbound : c.conn.lastRPay < 2 ^ 32 := Nat.lt_of_succ_lt h.bound
      obtain ⟨marks', hcomp', hsuffix, hkeeps⟩ :=
        hcomp.removeCmds_above hbound hmarked.sorted p.ankId.toNat
      exact ⟨marks', hcomp', hmarked.cut hsuffix hkeeps⟩
    · exact ⟨marks, hcomp, hmarked⟩
  have hconn : (c.ankFin p).conn.lastRPay = c.conn.lastRPay := hlast
  have hlist : (c.ankFin p).conn.delivered = c.conn.delivered := hdelivered
  refine ⟨?_, ?_, ?_, ?_, ?_, ?_⟩
  · rw [hconn]
    exact h.bound
  · rw [hfirst, hconn]
    exact h.first
  · rw [hlist]
    exact h.order
  · rw [hlist]
    exact h.delivered
  · rw [hfirst, hconn]
    exact h.below
  · rw [hfirst, hconn]
    exact hmarks

/-- **A packet with a new id** is recorded. -/
theorem VClientConn.Inv.accept (h : c.Inv) (hlt : c.conn.lastRPay < p.payloadId.toNat)
    (hbound : p.payloadId.toNat + 1 < 2 ^ 32) :
    ∃ ackNak, recordPayload c.conn.ackNak c.conn.lastRPay p.payloadId.toNat = some ackNak ∧
      (c.accept p ackNak).Inv := by
  obtain ⟨marks, hcomp, hmarked⟩ := h.marks
  obtain ⟨ackNak, hrecord, hcomp'⟩ := hcomp.record hlt p.payloadId.toNat_lt
  have hmem : ∀ t ∈ (c.accept p ackNak).conn.delivered,
      t ∈ c.conn.delivered ∨ t.1 = p.payloadId.toNat := by
    intro t ht
    refine (List.mem_append.mp ht).imp_right fun ht => ?_
    obtain ⟨data, -, rfl⟩ := Option.map_eq_some_iff.mp (Option.mem_toList.mp ht)
    rfl
  refine ⟨ackNak, hrecord, hbound, Nat.le_trans h.first (Nat.le_of_lt hlt), ?_, ?_, ?_,
    _, hcomp', hmarked.record h.first (fun id hid => (h.below id hid).2) hlt⟩
  · simp only [VClientConn.accept, VServerConn.recorded]
    rw [List.map_append, List.pairwise_append]
    refine ⟨h.order, ?_, ?_⟩
    · cases p.data <;> simp
    · intro a ha b hb
      obtain ⟨t, ht, rfl⟩ := List.mem_map.mp ha
      obtain ⟨u, hu, rfl⟩ := List.mem_map.mp hb
      obtain ⟨data, -, rfl⟩ := Option.map_eq_some_iff.mp (Option.mem_toList.mp hu)
      exact Nat.lt_of_le_of_lt (h.below _ (h.delivered t ht)).2 hlt
  · intro t ht
    rcases hmem t ht with ht | heq
    · exact List.mem_append_left _ (h.delivered t ht)
    · exact List.mem_append_right _ (by simp [heq])
  · intro id hid
    rcases List.mem_append.mp hid with hid | hid
    · exact ⟨(h.below id hid).1, Nat.le_of_lt (Nat.lt_of_le_of_lt (h.below id hid).2 hlt)⟩
    · rw [List.mem_singleton.mp hid]
      exact ⟨Nat.le_trans h.first (Nat.le_of_lt hlt), Nat.le_refl _⟩

/-- The payload id of the packet is below `2 ^ 32 - 1`. -/
def Datagram.InRange (d : Datagram) : Prop :=
  ∀ p ∈ d.read, p.hasFlag payFlag = true → p.payloadId.toNat + 1 < 2 ^ 32

/-- What a packet does: it is dropped, it only has an ANK id, or it is accepted. -/
theorem VClientConn.Inv.step_cases (h : c.Inv) {d : Datagram} (hd : d.InRange) :
    c.step d = some c ∨ (∃ p, c.step d = some (c.ankFin p)) ∨
      ∃ p ackNak, c.step d = some ((c.accept p ackNak).ankFin p) ∧ (c.accept p ackNak).Inv ∧
        c.conn.lastRPay < p.payloadId.toNat := by
  unfold VClientConn.step
  split
  · exact Or.inl rfl
  · cases hread : d.read with
    | none => exact Or.inl rfl
    | some p =>
        by_cases hversion : p.version = vrsVersion
        · by_cases hpay : p.hasFlag payFlag = true
          · rcases Nat.lt_or_ge c.conn.lastRPay p.payloadId.toNat with hlt | hge
            · obtain ⟨ackNak, hrecord, hinv⟩ := h.accept hlt (hd p hread hpay)
              refine Or.inr (Or.inr ⟨p, ackNak, ?_, hinv, hlt⟩)
              have hopen : handlePacketInOpenState c.conn p =
                  (handleAnkFin (c.conn.recorded p ackNak) p, .success) := by
                simp only [handlePacketInOpenState, handleNodeCommands, hpay, hrecord, if_true]
                rfl
              have hvc : vcHandlePacket c.conn p =
                  (((c.accept p ackNak).ankFin p).conn, .success) := by
                simp only [vcHandlePacket, hversion, hopen, hpay, if_true, handleAnkFin_lastRPay]
                rfl
              simp only [hvc, hpay, if_true]
              rfl
            · -- it is not newer than the last packet
              left
              have hexpected : (c.conn.lastRPay + 1) % 2 ^ 32 = c.conn.lastRPay + 1 :=
                Nat.mod_eq_of_lt h.bound
              have hnone : recordPayload c.conn.ackNak c.conn.lastRPay p.payloadId.toNat = none := by
                unfold recordPayload
                rw [hexpected, if_neg (by omega), if_pos (by omega)]
              have hvc : vcHandlePacket c.conn p = (c.conn, .unordered) := by
                simp only [vcHandlePacket, hversion, handlePacketInOpenState, handleNodeCommands,
                  hpay, hnone, if_true]
              simp only [hvc]
          · refine Or.inr (Or.inl ⟨p, ?_⟩)
            have hvc : vcHandlePacket c.conn p = (handleAnkFin c.conn p, .success) := by
              simp [vcHandlePacket, hversion, handlePacketInOpenState, hpay]
            simp only [hvc, hpay]
            rfl
        · left
          have hvc : vcHandlePacket c.conn p = (c.conn, .corrupted) := by
            simp only [vcHandlePacket, hversion, if_false]
          simp only [hvc]

/-- **One datagram** keeps the invariant, and `last_r_pay` does not go back. -/
theorem VClientConn.Inv.step (h : c.Inv) (d : Datagram) (hd : d.InRange) :
    ∃ c', c.step d = some c' ∧ c'.Inv ∧ c.conn.lastRPay ≤ c'.conn.lastRPay := by
  rcases h.step_cases hd with hsame | ⟨p, hank⟩ | ⟨p, ackNak, haccept, hinv, hlt⟩
  · exact ⟨c, hsame, h, Nat.le_refl _⟩
  · exact ⟨_, hank, h.ankFin p, Nat.le_of_eq (handleAnkFin_frame c.conn p).1.symm⟩
  · refine ⟨_, haccept, hinv.ankFin p, Nat.le_trans (Nat.le_of_lt hlt) ?_⟩
    exact Nat.le_of_eq (handleAnkFin_frame (c.accept p ackNak).conn p).1.symm

/-! ## Runs -/

theorem VClientConn.Inv.run (h : c.Inv) {datagrams : List Datagram}
    (hids : ∀ d ∈ datagrams, d.InRange) :
    ∃ c', Lib.run VClientConn.step c datagrams = some c' ∧ c'.Inv ∧
      c.conn.lastRPay ≤ c'.conn.lastRPay := by
  induction datagrams generalizing c with
  | nil => exact ⟨c, rfl, h, Nat.le_refl _⟩
  | cons d rest ih =>
      obtain ⟨c₁, hstep, hinv₁, hle₁⟩ := h.step d (hids d (by simp))
      obtain ⟨c₂, hrun, hinv₂, hle₂⟩ := ih hinv₁ fun e he => hids e (by simp [he])
      exact ⟨c₂, by rw [run_cons hstep, hrun], hinv₂, Nat.le_trans hle₁ hle₂⟩

/-- **The client delivers at most once.**  Whatever datagrams arrive in the state
OPEN, as long as payload ids are below `2 ^ 32 - 1`, `last_r_pay` never decreases,
the node commands of a payload id are delivered at most once, and the history of ACK
and NAK commands tells the accepted packets from the skipped ones. -/
theorem client_atMostOnce (hostId peerId : UInt32) (hfirst : (peerId + 1).toNat + 1 < 2 ^ 32)
    (before after : List Datagram) (hids : ∀ d ∈ before ++ after, d.InRange) :
    ∃ c₁ c₂, run VClientConn.step (VClientConn.init hostId peerId) before = some c₁ ∧
      run VClientConn.step c₁ after = some c₂ ∧
      c₁.conn.lastRPay ≤ c₂.conn.lastRPay ∧ c₂.Exact := by
  obtain ⟨c₁, hrun₁, hinv₁, -⟩ := (VClientConn.inv_init hostId peerId hfirst).run
    fun d hd => hids d (List.mem_append_left _ hd)
  obtain ⟨c₂, hrun₂, hinv₂, hle⟩ := hinv₁.run fun d hd => hids d (List.mem_append_right _ hd)
  exact ⟨c₁, c₂, hrun₁, hrun₂, hle, hinv₂.exact⟩

/-- A datagram with one node command, given by its flags, its id and its ANK id. -/
def payloadDatagram (flags id ankId : UInt8) : Datagram :=
  ⟨ofBytes [0x10, flags, 0, 0, 0, 0, 0, id, 0, 0, 0, 0, 0, 0, 0, ankId, 32, 2], 18⟩

theorem payloadDatagram_inRange {flags id ankId : UInt8}
    (h : (payloadDatagram flags id ankId).read.map (fun p => decide (p.payloadId.toNat < 256)) =
      some true) : (payloadDatagram flags id ankId).InRange := by
  intro p hp _
  rw [Option.mem_def.mp hp, Option.map_some, Option.some.injEq, decide_eq_true_eq] at h
  omega

/-- Packets 2 and 4 arrive, then 3 and 4 again, and then an ANK for 2. -/
theorem client_atMostOnce_reordered :
    ∃ c₁ c₂, run VClientConn.step (VClientConn.init 7 0)
        [payloadDatagram 0x80 2 0, payloadDatagram 0x80 4 0] = some c₁ ∧
      run VClientConn.step c₁ [payloadDatagram 0x80 3 0, payloadDatagram 0x80 4 0,
        payloadDatagram 0xA0 5 2] = some c₂ ∧
      c₁.conn.lastRPay ≤ c₂.conn.lastRPay ∧ c₂.Exact := by
  refine client_atMostOnce 7 0 (by decide) _ _ ?_
  intro d hd
  simp only [List.cons_append, List.nil_append, List.mem_cons, List.not_mem_nil, or_false] at hd
  rcases hd with rfl | rfl | rfl | rfl | rfl <;> exact payloadDatagram_inRange (by decide)

end Verse
