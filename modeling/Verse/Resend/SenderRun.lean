import Verse.Queues.OutQueueRun
import Verse.Resend.AckNakHandling

/-!
# Runs of the sender

Commands are pushed to the outgoing queue, packets are assembled from it
(`v_out_queue_pop` and `v_packet_history_add_cmd`), and ACK and NAK commands of
the peer are handled.  Packets are assembled and ACK and NAK commands handled by
one thread, so these do not mix; other threads push commands at any time.

A book is kept beside the sender: which commands were accepted by the queue, which
packet carried a command, what was acknowledged, and what was replaced by a newer
version.  A command that is pushed gets the number of the push as its address.
-/

namespace Verse

open Lib

/-- A command of an id that has a queue. -/
abbrev PushCmd := { cmd : GenericCmd // Accepted ⟨0, cmd⟩ }

inductive SenderAction where
  /-- `v_out_queue_push_tail` -/
  | pushTail (limits : Bool) (prio : UInt8) (cmd : PushCmd)
  /-- `v_packet_history_add_packet` -/
  | openPacket (id : UInt32)
  /-- a command is popped and goes into the packet -/
  | popAdd (prio : UInt8) (len : UInt16)
  /-- a command is popped, does not fit and is pushed back -/
  | popBack (prio : UInt8) (len : UInt16)
  /-- the packet is sent -/
  | closePacket
  /-- the packet is assembled but `v_send_packet` fails -/
  | sendFails
  /-- `handle_ack_nak_commands` -/
  | ackNak (cmds : List AckNakCmd) (stale : ℕ)

/-- The sender and the book.  `tot` is the size of the commands in the packet that
is being assembled, if there is one.  `carried` has the packet, the priority and
the command, `replaced` a command and its newer version, and `lost` the commands
of packets that could not be sent. -/
structure SenderRun where
  s : VSender
  tot : Option ℕ
  clock : ℕ
  pushed : List CmdPtr
  carried : List (ℕ × ℕ × CmdPtr)
  acks : List ℕ
  acked : List (ℕ × CmdPtr)
  replaced : List (CmdPtr × CmdPtr)
  consumed : List CmdPtr
  lost : List CmdPtr

def SenderRun.init : SenderRun :=
  ⟨⟨vOutQueueCreate, vPacketHistoryInit, 0⟩, none, 0, [], [], [], [], [], [], []⟩

/-- `*tot_cmd_size += cmd_size` on a `uint16`. -/
def addSize (tot size : ℕ) : ℕ := (tot + size) % 2 ^ 16

/-- The packet that is being assembled is the last one. -/
def VPacketHistory.lastId (history : VPacketHistory) : ℕ :=
  match history.packets.getLast? with
  | none => 0
  | some packet => packet.id

/-- The version of the command that stands in the queue. -/
def VOutQueue.newest (oq : VOutQueue) (cmd : CmdPtr) : CmdPtr :=
  ((oq.twin cmd).bind oq.cmdAt).getD cmd

def SenderRun.pushTail (r : SenderRun) (limits : Bool) (prio : ℕ) (cmd : GenericCmd) :
    Option SenderRun :=
  match vOutQueuePushTail r.s.outQueue limits prio ⟨r.clock, cmd⟩ with
  | none => none
  | some (oq, accepted, old) =>
      some
        { r with
          s := { r.s with outQueue := oq }
          clock := r.clock + 1
          pushed := if accepted then r.pushed ++ [⟨r.clock, cmd⟩] else r.pushed
          replaced := r.replaced ++ (old.map fun o => (o, (⟨r.clock, cmd⟩ : CmdPtr))).toList }

def SenderRun.popAdd (r : SenderRun) (tot prio len : ℕ) : Option SenderRun :=
  match vOutQueuePop r.s.outQueue prio len with
  | none => none
  | some (oq, none) => some { r with s := { r.s with outQueue := oq } }
  | some (oq, some (cmd, _)) =>
      -- fake commands are carried out and destroyed
      if cmd.id < minCmdId then
        some { r with s := { r.s with outQueue := oq }, consumed := r.consumed ++ [cmd] }
      else
        match vPacketHistoryAddCmd r.s.history (r.s.history.packets.length - 1) cmd prio with
        | none => none
        | some (history, old) =>
            some
              { r with
                s := { r.s with outQueue := oq, history := history }
                tot := some (addSize tot (vCmdSize cmd.cmd))
                carried := r.carried ++ [(r.s.history.lastId, prio, cmd)]
                replaced := r.replaced ++ (old.map (·, cmd)).toList }

def SenderRun.popBack (r : SenderRun) (prio len : ℕ) : Option SenderRun :=
  match vOutQueuePop r.s.outQueue prio len with
  | none => none
  | some (oq, none) => some { r with s := { r.s with outQueue := oq } }
  | some (oq, some (cmd, _)) =>
      if cmd.id < minCmdId then
        some { r with s := { r.s with outQueue := oq }, consumed := r.consumed ++ [cmd] }
      else
        match vOutQueuePushHead oq prio cmd with
        | none => none
        | some (oq', accepted, _) =>
            some
              { r with
                s := { r.s with outQueue := oq' }
                replaced := if accepted then r.replaced
                  else r.replaced ++ [(cmd, oq.newest cmd)] }

/-- One packet that the peer acknowledged or missed. -/
def SenderRun.mark (r : SenderRun) : AckNakCmd → Option SenderRun
  | (.ack, id) =>
      (handleAck r.s id).map fun (s, cmds) =>
        { r with s := s, acks := r.acks ++ [id], acked := r.acked ++ cmds.map (id, ·) }
  | (.nak, id) =>
      (handleNak r.s id).map fun (s, cmds) =>
        { r with
          s := s
          replaced := r.replaced ++ cmds.map fun cmd => (cmd, r.s.outQueue.newest cmd) }

/-- One action; what cannot happen while a packet is assembled, or while none is,
does nothing. -/
def SenderRun.step (r : SenderRun) : SenderAction → Option SenderRun
  | .pushTail limits prio cmd => r.pushTail limits prio.toNat cmd.1
  | .openPacket id =>
      match r.tot with
      | some _ => some r
      | none =>
          some { r with
            s := { r.s with history := vPacketHistoryAddPacket r.s.history id.toNat }
            tot := some 0 }
  | .popAdd prio len =>
      match r.tot with
      | none => some r
      | some tot => r.popAdd tot prio.toNat len.toNat
  | .popBack prio len =>
      match r.tot with
      | none => some r
      | some _ => r.popBack prio.toNat len.toNat
  | .closePacket =>
      match r.tot with
      | none => some r
      | some tot =>
          some { r with s := { r.s with sentSize := add32 r.s.sentSize tot }, tot := none }
  | .sendFails =>
      match r.tot with
      | none => some r
      | some tot =>
          (handleAck { r.s with sentSize := add32 r.s.sentSize tot } r.s.history.lastId).map
            fun (s, cmds) => { r with s := s, tot := none, lost := r.lost ++ cmds }
  | .ackNak cmds stale =>
      match r.tot with
      | some _ => some r
      | none => run SenderRun.mark r (ackNakIds cmds stale)

/-- The packet that is found can be taken apart: an acknowledged one from its first
command to its last, a lost one the other way. -/
def SenderRun.MarkSafe (r : SenderRun) : AckNakCmd → Prop
  | (.ack, id) => ∀ i packet, vPacketHistoryFindPacket r.s.history id = some i →
      r.s.history.packets[i]? = some packet → r.s.history.Removable packet.cmds
  | (.nak, id) => ∀ i packet, vPacketHistoryFindPacket r.s.history id = some i →
      r.s.history.packets[i]? = some packet → r.s.history.Removable packet.cmds.reverse

/-! ## The state between two actions -/

structure SenderRun.Base (r : SenderRun) : Prop where
  queue : r.s.outQueue.Inv none
  bound : ∀ p, maxPriority < p → r.s.outQueue.contents p = []
  history : r.s.history.Sound
  prios : ∀ x ∈ r.s.history.sent, ∀ p, r.s.history.prioAt x = some p → p ≤ maxPriority
  building : r.tot ≠ none → r.s.history.packets ≠ []

theorem SenderRun.base_init : SenderRun.init.Base where
  queue := VOutQueue.inv_create
  bound _ _ := rfl
  history := VPacketHistory.sound_init
  prios x hx := by cases hx
  building h := absurd rfl h

variable {r : SenderRun}

/-- The base is about the sender only. -/
theorem SenderRun.Base.of_eq (h : r.Base) {r' : SenderRun} (hs : r'.s = r.s)
    (htot : r'.tot ≠ none → r.tot ≠ none) : r'.Base where
  queue := hs ▸ h.queue
  bound := hs ▸ h.bound
  history := hs ▸ h.history
  prios := hs ▸ h.prios
  building htot' := hs ▸ h.building (htot htot')

/-- Only the queue changes. -/
theorem SenderRun.Base.of_queue (h : r.Base) {r' : SenderRun} (hinv : r'.s.outQueue.Inv none)
    (hbound : ∀ p, maxPriority < p → r'.s.outQueue.contents p = [])
    (hhistory : r'.s.history = r.s.history) (htot : r'.tot = r.tot) : r'.Base where
  queue := hinv
  bound := hbound
  history := hhistory ▸ h.history
  prios := hhistory ▸ h.prios
  building htot' := by
    rw [hhistory]
    exact h.building (htot ▸ htot')

/-! ## What the actions do to the queue -/

theorem PushChange.mem {c c' : ℕ → List CmdPtr} {head : Bool} {prio : ℕ} {cmd x : CmdPtr}
    {old : Option CmdPtr} (hchange : PushChange c c' head prio cmd old) {p : ℕ} (hx : x ∈ c' p) :
    (x = cmd ∧ p = prio) ∨ x ∈ c p := by
  cases hchange with
  | added hc =>
      rw [hc] at hx
      by_cases hp : p = prio
      · subst hp
        rw [Function.update_self, (place_perm head cmd _).mem_iff, List.mem_cons] at hx
        exact hx.imp_left fun heq => ⟨heq, rfl⟩
      · rw [Function.update_of_ne hp] at hx
        exact Or.inr hx
  | moved p' l₁ l₂ old hne hp' hc =>
      rw [hc] at hx
      by_cases hp : p = prio
      · subst hp
        rw [Function.update_self, (place_perm head cmd _).mem_iff, List.mem_cons] at hx
        exact hx.imp_left fun heq => ⟨heq, rfl⟩
      · rw [Function.update_of_ne hp] at hx
        by_cases hpp : p = p'
        · subst hpp
          rw [Function.update_self, List.mem_append] at hx
          right
          rw [hp', List.mem_append, List.mem_cons]
          exact hx.imp_right Or.inr
        · rw [Function.update_of_ne hpp] at hx
          exact Or.inr hx
  | replaced l₁ l₂ old hp' hc =>
      rw [hc] at hx
      by_cases hp : p = prio
      · subst hp
        rw [Function.update_self, List.mem_append, List.mem_cons] at hx
        rw [hp', List.mem_append, List.mem_cons]
        rcases hx with hx | rfl | hx
        · exact Or.inr (Or.inl hx)
        · exact Or.inl ⟨rfl, rfl⟩
        · exact Or.inr (Or.inr (Or.inr hx))
      · rw [Function.update_of_ne hp] at hx
        exact Or.inr hx

theorem PushChange.bound {c c' : ℕ → List CmdPtr} {head : Bool} {prio : ℕ} {cmd : CmdPtr}
    {old : Option CmdPtr} (hchange : PushChange c c' head prio cmd old) (hprio : prio ≤ maxPriority)
    (hbound : ∀ p, maxPriority < p → c p = []) (p : ℕ) (hp : maxPriority < p) : c' p = [] := by
  apply List.eq_nil_iff_forall_not_mem.mpr
  intro x hx
  rcases hchange.mem hx with ⟨-, rfl⟩ | hx
  · omega
  · rw [hbound p hp] at hx
    cases hx

/-- What a push that is accepted does to the commands in the queue. -/
structure Pushed (oq oq' : VOutQueue) (prio : ℕ) (cmd : CmdPtr) (old : Option CmdPtr) : Prop where
  inv : oq'.Inv none
  change : PushChange oq.contents oq'.contents false prio cmd old
  replaces : ∀ o, old = some o → Replaces cmd o
  alone : old = none → ∀ p, ∀ c ∈ oq.contents p, ¬ Replaces cmd c

theorem vOutQueuePushTail_spec {oq : VOutQueue} (h : oq.Inv none) {cmd : CmdPtr}
    (hacc : Accepted cmd) (limits : Bool) {prio : ℕ} (hsafe : oq.PushSafe prio cmd) :
    vOutQueuePushTail oq limits prio cmd = some (oq, false, none) ∨
      ∃ oq' old, vOutQueuePushTail oq limits prio cmd = some (oq', true, old) ∧
        Pushed oq oq' prio cmd old := by
  obtain ⟨oq', accepted, old, hres, hinv, -, heffect⟩ :=
    vOutQueuePush_spec h hacc false limits hsafe
  cases heffect with
  | full heq =>
      subst heq
      exact Or.inl hres
  | added htwin hqueues hcmdAt =>
      refine Or.inr ⟨oq', none, hres, hinv,
        (PushEffect.added htwin hqueues hcmdAt).change h, by simp, fun _ => ?_⟩
      exact (h.twin_eq_none_iff hacc).mp htwin
  | moved qa p old htwin hmem hne hold hrep hqueues hcmdAt =>
      exact Or.inr ⟨oq', some old, hres, hinv,
        (PushEffect.moved qa p old htwin hmem hne hold hrep hqueues hcmdAt).change h,
        by simpa using hrep, by simp⟩
  | replaced qa old htwin hmem hold hrep hqueues hcmdAt =>
      exact Or.inr ⟨oq', some old, hres, hinv,
        (PushEffect.replaced qa old htwin hmem hold hrep hqueues hcmdAt).change h,
        by simpa using hrep, by simp⟩

/-- What a pop does to the commands in the queue. -/
structure Popped (oq oq' : VOutQueue) (prio : ℕ) (cmd : CmdPtr) : Prop where
  inv : oq'.Inv none
  head : oq.contents prio = cmd :: oq'.contents prio
  rest : ∀ p, p ≠ prio → oq'.contents p = oq.contents p
  accepted : Accepted cmd

theorem Popped.mem_head {oq oq' : VOutQueue} {prio : ℕ} {cmd : CmdPtr}
    (h : Popped oq oq' prio cmd) : cmd ∈ oq.contents prio := by
  rw [h.head]
  exact List.mem_cons_self

theorem Popped.mem {oq oq' : VOutQueue} {prio : ℕ} {cmd : CmdPtr} (h : Popped oq oq' prio cmd)
    {p : ℕ} {x : CmdPtr} (hx : x ∈ oq'.contents p) : x ∈ oq.contents p := by
  by_cases hp : p = prio
  · subst hp
    rw [h.head]
    exact List.mem_cons_of_mem _ hx
  · rw [← h.rest p hp]
    exact hx

theorem Popped.bound {oq oq' : VOutQueue} {prio : ℕ} {cmd : CmdPtr} (h : Popped oq oq' prio cmd)
    (hbound : ∀ p, maxPriority < p → oq.contents p = []) (p : ℕ) (hp : maxPriority < p) :
    oq'.contents p = [] := by
  apply List.eq_nil_iff_forall_not_mem.mpr
  intro x hx
  have := h.mem hx
  rw [hbound p hp] at this
  cases this

theorem VOutQueue.Inv.accepted_of_mem {oq : VOutQueue} (h : oq.Inv none) {p : ℕ} {cmd : CmdPtr}
    (hmem : cmd ∈ oq.contents p) : Accepted cmd := by
  obtain ⟨qa, hqa, hcmdAt⟩ := List.mem_filterMap.mp hmem
  obtain ⟨-, queueCmd, hqc, -⟩ := (h.queued p qa).mp hqa
  obtain ⟨b, hb, hdata⟩ := h.cmdAt_eq (by simp) hqc
  rw [hdata] at hcmdAt
  obtain rfl := Option.some.inj hcmdAt
  exact h.accepted _ b hb

theorem vOutQueuePop_cases {oq : VOutQueue} (h : oq.Inv none) {prio len : ℕ}
    (hsafe : oq.PopSafe prio len) :
    vOutQueuePop oq prio len = some (oq, none) ∨
      ∃ oq' cmd plan, vOutQueuePop oq prio len = some (oq', some (cmd, plan)) ∧
        Popped oq oq' prio cmd := by
  rcases vOutQueuePop_spec h hsafe with hres | ⟨oq', cmd, plan, qa, rest, hres, hinv, heffect⟩
  · exact Or.inl hres
  · obtain ⟨hhead, hrest⟩ := heffect.contents h
    exact Or.inr ⟨oq', cmd, plan, hres, hinv, hhead, hrest,
      h.accepted_of_mem (p := prio) (by simp [hhead])⟩

/-! ## What the actions do to the history -/

/-- A packet was found, or there is none. -/
theorem SenderRun.packet_cases (r : SenderRun) (id : ℕ) :
    vPacketHistoryFindPacket r.s.history id = none ∨
      ∃ before packet after, vPacketHistoryFindPacket r.s.history id = some before.length ∧
        r.s.history.packets = before ++ packet :: after ∧ packet.id = id ∧
        r.s.history.packets[before.length]? = some packet := by
  rcases findPacket_cases r.s.history id with hnone | ⟨before, packet, after, hfind, hsplit, hid⟩
  · exact Or.inl hnone
  · exact Or.inr ⟨before, packet, after, hfind, hsplit, hid, by simp [hsplit]⟩

theorem handleAck_none {s : VSender} {id : ℕ}
    (hfind : vPacketHistoryFindPacket s.history id = none) : handleAck s id = some (s, []) := by
  simp [handleAck, vPacketHistoryRemPacket, hfind]

theorem handleNak_none {s : VSender} {id : ℕ}
    (hfind : vPacketHistoryFindPacket s.history id = none) : handleNak s id = some (s, []) := by
  simp [handleNak, hfind]

/-- What the acknowledgement of a packet does. -/
structure Acked (s s' : VSender) (before after : List VSentPacket) (packet : VSentPacket) :
    Prop where
  outQueue : s'.outQueue = s.outQueue
  sound : s'.history.Sound
  packets : s'.history.packets = before ++ after
  frame : ∀ x ∈ s'.history.sent, s'.history.cmdAt x = s.history.cmdAt x ∧
    s'.history.prioAt x = s.history.prioAt x
  size : s'.sentSize = takeOff s.sentSize (packet.cmds.filterMap s.history.cmdAt)
  live : (s'.history.live : Multiset CmdPtr) +
    (packet.cmds.filterMap s.history.cmdAt : List CmdPtr) = (s.history.live : Multiset CmdPtr)

theorem handleAck_spec {s : VSender} (h : s.history.Sound) {id : ℕ}
    {before after : List VSentPacket} {packet : VSentPacket}
    (hfind : vPacketHistoryFindPacket s.history id = some before.length)
    (hsplit : s.history.packets = before ++ packet :: after)
    (hsafe : s.history.Removable packet.cmds) :
    ∃ s', handleAck s id = some (s', packet.cmds.filterMap s.history.cmdAt) ∧
      Acked s s' before after packet := by
  obtain ⟨history', hres, hsound, hpackets, hframe, hlive⟩ :=
    vPacketHistoryRemPacket_spec h s.sentSize hfind hsplit hsafe
  refine ⟨⟨s.outQueue, history', takeOff s.sentSize (packet.cmds.filterMap s.history.cmdAt)⟩, ?_,
    rfl, hsound, hpackets, hframe, rfl, hlive⟩
  simp only [handleAck, hres, Option.map_some]

theorem SenderRun.mark_ack {id : ℕ} {s' : VSender} {cmds : List CmdPtr}
    (hres : handleAck r.s id = some (s', cmds)) :
    r.mark (.ack, id) =
      some { r with s := s', acks := r.acks ++ [id], acked := r.acked ++ cmds.map (id, ·) } := by
  simp only [SenderRun.mark, hres, Option.map_some]

theorem SenderRun.mark_nak {id : ℕ} {s' : VSender} {cmds : List CmdPtr}
    (hres : handleNak r.s id = some (s', cmds)) :
    r.mark (.nak, id) =
      some { r with
        s := s'
        replaced := r.replaced ++ cmds.map fun cmd => (cmd, r.s.outQueue.newest cmd) } := by
  simp only [SenderRun.mark, hres, Option.map_some]

/-- An empty packet was added. -/
theorem SenderRun.Base.openPacket (h : r.Base) (id : ℕ) :
    SenderRun.Base { r with
      s := { r.s with history := vPacketHistoryAddPacket r.s.history id }
      tot := some 0 } := by
  refine ⟨h.queue, h.bound, h.history.addPacket id, ?_, ?_⟩
  · intro x hx p hp
    have hsent : (vPacketHistoryAddPacket r.s.history id).sent = r.s.history.sent := by
      simp [VPacketHistory.sent, vPacketHistoryAddPacket]
    exact h.prios x (hsent ▸ hx) p hp
  · intro _
    simp [vPacketHistoryAddPacket]

/-- A command went from the queue into the last packet. -/
theorem SenderRun.Base.added (h : r.Base) (hne : r.s.history.packets ≠ []) {oq' : VOutQueue}
    {prio : ℕ} {cmd : CmdPtr} (hpop : Popped r.s.outQueue oq' prio cmd)
    {history' : VPacketHistory} (hsound : history'.Sound)
    (hpackets : history'.packets =
      r.s.history.packets.modify (r.s.history.packets.length - 1) fun packet =>
        { packet with cmds := packet.cmds ++ [r.s.history.next] })
    (hframe : ∀ x ∈ r.s.history.sent, history'.prioAt x = r.s.history.prioAt x)
    (hprioAt : history'.prioAt r.s.history.next = some prio) {r' : SenderRun}
    (hqueue : r'.s.outQueue = oq') (hhistory : r'.s.history = history') : r'.Base := by
  have hi : r.s.history.packets.length - 1 < r.s.history.packets.length :=
    Nat.sub_lt (List.length_pos_of_ne_nil hne) Nat.one_pos
  refine
    { queue := hqueue ▸ hpop.inv, bound := hqueue ▸ hpop.bound h.bound,
      history := hhistory ▸ hsound, prios := ?_, building := fun _ => ?_ }
  · intro x hx p hp
    rw [hhistory] at hx hp
    rw [VPacketHistory.sent, hpackets, (VPacketHistory.sent_modify hi _).mem_iff,
      List.mem_cons] at hx
    rcases hx with rfl | hx
    · obtain rfl := Option.some.inj (hprioAt.symm.trans hp)
      by_contra hlt
      have hhead := hpop.mem_head
      rw [h.bound prio (Nat.lt_of_not_le hlt)] at hhead
      cases hhead
    · exact h.prios x hx p ((hframe x hx).symm.trans hp)
  · intro hnil
    apply hne
    apply List.eq_nil_of_length_eq_zero
    have hlen := congrArg List.length hpackets
    rw [List.length_modify] at hlen
    rw [← hlen, ← hhistory, hnil]
    rfl

/-- The base after packets were taken out of the history. -/
theorem SenderRun.Base.of_removed (h : r.Base) {r' : SenderRun} (htot : r'.tot = none)
    (hqueue : r'.s.outQueue.Inv none)
    (hbound : ∀ p, maxPriority < p → r'.s.outQueue.contents p = [])
    (hsound : r'.s.history.Sound)
    (hframe : ∀ x ∈ r'.s.history.sent, x ∈ r.s.history.sent ∧
      r'.s.history.prioAt x = r.s.history.prioAt x) : r'.Base where
  queue := hqueue
  bound := hbound
  history := hsound
  prios x hx p hp := by
    obtain ⟨hmem, hprioAt⟩ := hframe x hx
    exact h.prios x hmem p (hprioAt ▸ hp)
  building htot' := absurd htot htot'

theorem sent_of_removed {before after : List VSentPacket} {packet : VSentPacket}
    {history history' : VPacketHistory} (hsplit : history.packets = before ++ packet :: after)
    (hpackets : history'.packets = before ++ after) {x : ℕ} (hx : x ∈ history'.sent) :
    x ∈ history.sent ∧ (history.sent.Nodup → x ∉ packet.cmds) := by
  rw [VPacketHistory.sent, hpackets, List.flatMap_append] at hx
  have hsent : history.sent =
      before.flatMap (·.cmds) ++ (packet.cmds ++ after.flatMap (·.cmds)) := by
    simp [VPacketHistory.sent, hsplit]
  rw [hsent]
  constructor
  · rcases List.mem_append.mp hx with hx | hx
    · exact List.mem_append_left _ hx
    · exact List.mem_append_right _ (List.mem_append_right _ hx)
  · intro hnodup hxp
    obtain ⟨-, hnodup', hdisj⟩ := List.nodup_append.mp hnodup
    rcases List.mem_append.mp hx with hx | hx
    · exact hdisj x hx x (List.mem_append_left _ hxp) rfl
    · exact (List.nodup_append.mp hnodup').2.2 x hxp x hx rfl

/-! ## One command -/

def layerSetPush (item value : UInt8) : PushCmd :=
  ⟨layerSetUint8 item value, accepted_layerSetUint8 0 item value⟩

/-- A command is pushed, and a packet begun. -/
def oneQueued : List SenderAction := [.pushTail true 128 (layerSetPush 5 7), .openPacket 1]

/-- The command goes into the packet. -/
def onePacked : List SenderAction := oneQueued ++ [.popAdd 128 1500]

/-- The packet is sent. -/
def oneSent : List SenderAction := onePacked ++ [.closePacket]

theorem pushSafe_one : SenderRun.init.s.outQueue.PushSafe 128 ⟨0, layerSetUint8 5 7⟩ := by
  intro qa queueCmd htwin
  have hnone : SenderRun.init.s.outQueue.twin ⟨0, layerSetUint8 5 7⟩ = none := by decide +kernel
  cases hnone.symm.trans htwin

theorem popSafe_one (hrun : run SenderRun.step SenderRun.init oneQueued = some r) :
    r.s.outQueue.PopSafe 128 1500 := by
  have hstate : (run SenderRun.step SenderRun.init oneQueued).map (fun r =>
      (r.s.outQueue.queues 128, r.s.outQueue.qheap 0, r.s.outQueue.table.heap 0,
        vHashArrayFindItem r.s.outQueue.table (vNodeCmdQueueCreate 133) (layerSetUint8 5 7))) =
      some ([0], some ⟨0, 133, 128, none⟩, some ⟨⟨0, layerSetUint8 5 7⟩, some 0⟩,
        some (some 0)) := by decide +kernel
  rw [hrun, Option.map_some, Option.some.injEq, Prod.mk.injEq, Prod.mk.injEq,
    Prod.mk.injEq] at hstate
  obtain ⟨hqueue', hqc', hb', hfind⟩ := hstate
  intro qa rest queueCmd b group q hqueue hqc hb _ _ hq
  obtain ⟨rfl, -⟩ := List.cons.inj (hqueue'.symm.trans hqueue)
  obtain rfl := Option.some.inj (hqc'.symm.trans hqc)
  obtain rfl := Option.some.inj (hb'.symm.trans hb)
  obtain rfl : vNodeCmdQueueCreate 133 = q := Option.some.inj hq
  exact ⟨hfind, fun g _ hg => by cases hg⟩

theorem removable_one (hrun : run SenderRun.step SenderRun.init onePacked = some r)
    {packet : VSentPacket} (hpacket : packet ∈ r.s.history.packets) :
    packet.cmds = [0] ∧ r.s.history.Removable [0] := by
  have hstate : (run SenderRun.step SenderRun.init onePacked).map (fun r =>
      (r.s.history.packets, r.s.history.sheap 0, r.s.history.table.heap 0,
        (r.s.history.table.lb 133).find? fun c =>
          r.s.history.table.hasKey (vNodeCmdQueueCreate 133) (layerSetUint8 5 7) c &&
            !r.s.history.ownedBy [] c)) =
      some ([⟨1, [0]⟩], some ⟨133, 128, some 0⟩, some ⟨⟨0, layerSetUint8 5 7⟩, some 0⟩,
        some 0) := by decide +kernel
  rw [hrun, Option.map_some, Option.some.injEq, Prod.mk.injEq, Prod.mk.injEq,
    Prod.mk.injEq] at hstate
  obtain ⟨hpackets, hsc', hb', hfind⟩ := hstate
  rw [hpackets, List.mem_singleton] at hpacket
  subst hpacket
  refine ⟨rfl, ?_⟩
  intro before sa after hsplit
  obtain ⟨rfl, rfl⟩ : before = [] ∧ sa = 0 := by
    cases before <;> simp_all
  intro sentCmd a b q hsc ha hb hq
  obtain rfl := Option.some.inj (hsc'.symm.trans hsc)
  obtain rfl : 0 = a := Option.some.inj ha
  obtain rfl := Option.some.inj (hb'.symm.trans hb)
  obtain rfl : vNodeCmdQueueCreate 133 = q := Option.some.inj hq
  exact hfind

/-- Sending the packet does not change the history. -/
theorem history_closePacket {r' : SenderRun} (hstep : r.step .closePacket = some r') :
    r'.s.history = r.s.history := by
  simp only [SenderRun.step] at hstep
  split at hstep <;> rw [← Option.some.inj hstep]

end Verse
