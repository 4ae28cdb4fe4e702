import Verse.Resend.SenderRun

/-!
# Flow control

`sent_size` of a connection counts the bytes that are sent and not acknowledged.
It is increased when a packet was assembled, and decreased only where the commands
of a packet are destroyed (`v_packet_history_rem_packet`).  A command that becomes
obsolete, or goes back to the queue after a NAK, leaves the history on another path
and is never taken off.

As long as no command leaves the history on these paths the counter is right
(`sender_sentSize`); a single NAK is enough to break it.

## Strategy

`SenderRun.Sized` also speaks about the packet that is being assembled, whose size
is not yet part of the counter.  Each action keeps it (`SenderRun.Sized.carry`,
`SenderRun.Sized.ack` and so on).
-/

namespace Verse

open Lib

def cmdSizes (cmds : List CmdPtr) : ℕ := (cmds.map fun cmd => vCmdSize cmd.cmd).sum

/-- The size of the commands that are neither acknowledged, obsolete nor put back, as
a `uint32`. -/
def VPacketHistory.sizeOut (history : VPacketHistory) : ℕ := cmdSizes history.live % 2 ^ 32

/-- A packet is taken apart, and no command of it goes back to the queue. -/
def SenderRun.MarkKeepsSize (r : SenderRun) : AckNakCmd → Prop
  | (.ack, id) => r.MarkSafe (.ack, id)
  | (.nak, id) => ∀ i packet, vPacketHistoryFindPacket r.s.history id = some i →
      r.s.history.packets[i]? = some packet →
      ∀ sa ∈ packet.cmds, goesBack r.s.outQueue r.s.history sa = false

/-- What has to hold before an action: a command that goes into the packet makes no
other one obsolete, and `tot_cmd_size` does not wrap around. -/
def SenderRun.KeepsSize (r : SenderRun) : SenderAction → Prop
  | .pushTail _ prio cmd => r.s.outQueue.PushSafe prio.toNat ⟨r.clock, cmd.1⟩
  | .openPacket _ => True
  | .popAdd prio len => ∀ tot, r.tot = some tot → r.s.outQueue.PopSafe prio.toNat len.toNat ∧
      ∀ oq cmd plan, vOutQueuePop r.s.outQueue prio.toNat len.toNat = some (oq, some (cmd, plan)) →
        minCmdId ≤ cmd.id →
        tot + vCmdSize cmd.cmd < 2 ^ 16 ∧ ∀ old ∈ r.s.history.live, ¬ Replaces cmd old
  | .popBack prio len => r.tot ≠ none → r.s.outQueue.PopSafe prio.toNat len.toNat
  | .closePacket => True
  | .sendFails => r.tot ≠ none → r.MarkSafe (.ack, r.s.history.lastId)
  | .ackNak cmds stale => r.tot = none →
      Admissible SenderRun.mark SenderRun.MarkKeepsSize r (ackNakIds cmds stale)

structure SenderRun.Sized (r : SenderRun) : Prop where
  base : r.Base
  small : ∀ cmd ∈ r.s.history.live, vCmdSize cmd.cmd < 2 ^ 16
  lt : r.s.sentSize < 2 ^ 32
  size : add32 r.s.sentSize (r.tot.getD 0) = r.s.history.sizeOut

variable {r : SenderRun}

theorem SenderRun.sized_init : SenderRun.init.Sized where
  base := SenderRun.base_init
  small cmd hcmd := by cases hcmd
  lt := by decide
  size := rfl

/-! ## Sums -/

theorem cmdSizes_append (cmds cmds' : List CmdPtr) :
    cmdSizes (cmds ++ cmds') = cmdSizes cmds + cmdSizes cmds' := by
  simp [cmdSizes]

/-- The size of the commands that are left and of those that went. -/
theorem cmdSizes_of_add {live live' gone : List CmdPtr}
    (h : (live' : Multiset CmdPtr) + (gone : Multiset CmdPtr) = (live : Multiset CmdPtr)) :
    cmdSizes live = cmdSizes live' + cmdSizes gone := by
  rw [Multiset.coe_add, Multiset.coe_eq_coe] at h
  rw [← cmdSizes_append]
  exact (h.map _).sum_eq.symm

theorem takeOff_lt {n : ℕ} (hn : n < 2 ^ 32) (cmds : List CmdPtr) : takeOff n cmds < 2 ^ 32 := by
  unfold takeOff
  induction cmds generalizing n with
  | nil => exact hn
  | cons cmd rest ih => exact ih (Nat.mod_lt _ (by decide))

/-- What is taken off the counter, modulo the width of the counter. -/
theorem takeOff_add {n : ℕ} {cmds : List CmdPtr}
    (hsmall : ∀ cmd ∈ cmds, vCmdSize cmd.cmd < 2 ^ 16) :
    (takeOff n cmds + cmdSizes cmds) % 2 ^ 32 = n % 2 ^ 32 := by
  induction cmds generalizing n with
  | nil => rfl
  | cons cmd rest ih =>
      have hsize := hsmall cmd List.mem_cons_self
      have hrest := ih (n := sub32 n (vCmdSize cmd.cmd)) fun c hc =>
        hsmall c (List.mem_cons_of_mem _ hc)
      have htake : takeOff n (cmd :: rest) = takeOff (sub32 n (vCmdSize cmd.cmd)) rest := rfl
      have hsum : cmdSizes (cmd :: rest) = cmdSizes rest + vCmdSize cmd.cmd := by
        simp [cmdSizes, Nat.add_comm]
      calc (takeOff n (cmd :: rest) + cmdSizes (cmd :: rest)) % 2 ^ 32
          = ((takeOff (sub32 n (vCmdSize cmd.cmd)) rest + cmdSizes rest) % 2 ^ 32 +
              vCmdSize cmd.cmd) % 2 ^ 32 := by rw [htake, hsum]; omega
        _ = (sub32 n (vCmdSize cmd.cmd) % 2 ^ 32 + vCmdSize cmd.cmd) % 2 ^ 32 := by rw [hrest]
        _ = n % 2 ^ 32 := by unfold sub32; omega

/-! ## The actions -/

/-- The counter after a packet was removed. -/
theorem VPacketHistory.sizeOut_of_removed {history history' : VPacketHistory} {n : ℕ}
    {gone : List CmdPtr}
    (hlive : (history'.live : Multiset CmdPtr) + (gone : Multiset CmdPtr) =
      (history.live : Multiset CmdPtr))
    (hsmall : ∀ cmd ∈ history.live, vCmdSize cmd.cmd < 2 ^ 16)
    (hsize : n % 2 ^ 32 = history.sizeOut) :
    takeOff n gone % 2 ^ 32 = history'.sizeOut := by
  have hgone : ∀ cmd ∈ gone, vCmdSize cmd.cmd < 2 ^ 16 := by
    intro cmd hcmd
    apply hsmall
    rw [← Multiset.mem_coe, ← hlive]
    exact Multiset.mem_add.mpr (Or.inr (Multiset.mem_coe.mpr hcmd))
  have htake := takeOff_add (n := n) hgone
  have hsum := cmdSizes_of_add hlive
  unfold VPacketHistory.sizeOut at hsize ⊢
  omega

theorem mem_of_live_add {live live' gone : List CmdPtr}
    (h : (live' : Multiset CmdPtr) + (gone : Multiset CmdPtr) = (live : Multiset CmdPtr))
    {x : CmdPtr} (hx : x ∈ live') : x ∈ live := by
  rw [← Multiset.mem_coe, ← h]
  exact Multiset.mem_add.mpr (Or.inl (Multiset.mem_coe.mpr hx))

/-- The counter does not depend on the queue. -/
theorem SenderRun.Sized.of_queue (h : r.Sized) {r' : SenderRun} (hbase : r'.Base)
    (hhistory : r'.s.history = r.s.history) (hsize : r'.s.sentSize = r.s.sentSize)
    (htot : r'.tot = r.tot) : r'.Sized where
  base := hbase
  small := hhistory ▸ h.small
  lt := hsize ▸ h.lt
  size := by rw [hsize, htot, hhistory, h.size]

theorem SenderRun.Sized.pushTail (h : r.Sized) (limits : Bool) {prio : ℕ}
    (hprio : prio ≤ maxPriority) {cmd : GenericCmd} (hacc : Accepted ⟨r.clock, cmd⟩)
    (hsafe : r.s.outQueue.PushSafe prio ⟨r.clock, cmd⟩) :
    ∃ r', r.pushTail limits prio cmd = some r' ∧ r'.Sized := by
  rcases vOutQueuePushTail_spec h.base.queue hacc limits hsafe with hres | ⟨oq', old, hres, hpush⟩
  · refine ⟨_, by simp only [SenderRun.pushTail, hres]; rfl, ?_⟩
    exact h.of_queue (h.base.of_eq rfl id) rfl rfl rfl
  · refine ⟨_, by simp only [SenderRun.pushTail, hres]; rfl, ?_⟩
    have hbound := hpush.change.bound hprio h.base.bound
    exact h.of_queue (h.base.of_queue hpush.inv hbound rfl rfl) rfl rfl rfl

/-- **A command goes into the packet**, and nothing becomes obsolete. -/
theorem SenderRun.Sized.carry (h : r.Sized) {oq' : VOutQueue} {tot prio : ℕ} {cmd : CmdPtr}
    (htot : r.tot = some tot) (hpop : Popped r.s.outQueue oq' prio cmd) (hid : minCmdId ≤ cmd.id)
    (hsize : tot + vCmdSize cmd.cmd < 2 ^ 16)
    (hnew : ∀ old ∈ r.s.history.live, ¬ Replaces cmd old) :
    ∃ history old,
      vPacketHistoryAddCmd r.s.history (r.s.history.packets.length - 1) cmd prio =
        some (history, old) ∧
      SenderRun.Sized { r with
        s := { r.s with outQueue := oq', history := history }
        tot := some (addSize tot (vCmdSize cmd.cmd))
        carried := r.carried ++ [(r.s.history.lastId, prio, cmd)]
        replaced := r.replaced ++ (old.map (·, cmd)).toList } := by
  have hne := h.base.building (by simp [htot])
  have hi : r.s.history.packets.length - 1 < r.s.history.packets.length :=
    Nat.sub_lt (List.length_pos_of_ne_nil hne) Nat.one_pos
  obtain ⟨history', old, hres, hsound, hpackets, hframe, hcmd, hprioAt, hlive, hrep⟩ :=
    vPacketHistoryAddCmd_spec h.base.history hi hid hpop.accepted prio
  obtain rfl : old = none := by
    cases hold : old with
    | none => rfl
    | some o => exact absurd (hrep o hold).1 (hnew o (hrep o hold).2)
  rw [Option.toList_none, Multiset.coe_nil, add_zero, Multiset.cons_coe, Multiset.coe_eq_coe]
    at hlive
  refine ⟨history', none, hres, ?_, ?_, h.lt, ?_⟩
  · exact h.base.added hne hpop hsound hpackets (fun x hx => (hframe x hx).2) hprioAt rfl rfl
  · intro c hc
    rcases List.mem_cons.mp (hlive.mem_iff.mp hc) with rfl | hc
    · omega
    · exact h.small c hc
  · have hsum : cmdSizes history'.live = vCmdSize cmd.cmd + cmdSizes r.s.history.live :=
      (hlive.map _).sum_eq
    have hadd : addSize tot (vCmdSize cmd.cmd) = tot + vCmdSize cmd.cmd := Nat.mod_eq_of_lt hsize
    have hold := h.size
    simp only [htot, Option.getD_some, VPacketHistory.sizeOut, add32] at hold
    simp only [Option.getD_some, VPacketHistory.sizeOut, hsum, hadd, add32]
    omega

/-- **A removed packet** is taken off. -/
theorem SenderRun.Sized.ack (h : r.Sized) {n id : ℕ} (hn : n % 2 ^ 32 = r.s.history.sizeOut)
    (hlt : n < 2 ^ 32) (hsafe : r.MarkSafe (.ack, id)) :
    ∃ s' cmds, handleAck { r.s with sentSize := n } id = some (s', cmds) ∧
      ∀ r' : SenderRun, r'.s = s' → r'.tot = none → r'.Sized := by
  rcases r.packet_cases id with hnone | ⟨before, packet, after, hfind, hsplit, -, hget⟩
  · refine ⟨_, _, handleAck_none hnone, ?_⟩
    intro r' hs htot
    refine ⟨⟨hs ▸ h.base.queue, hs ▸ h.base.bound, hs ▸ h.base.history, hs ▸ h.base.prios,
      fun hne => absurd htot hne⟩, hs ▸ h.small, hs ▸ hlt, ?_⟩
    rw [htot, hs]
    exact hn
  · obtain ⟨s', hres, hack⟩ := handleAck_spec (s := { r.s with sentSize := n })
      h.base.history hfind hsplit (hsafe _ _ hfind hget)
    refine ⟨s', _, hres, ?_⟩
    intro r' hs htot
    subst hs
    refine ⟨?_, ?_, hack.size ▸ takeOff_lt hlt _, ?_⟩
    · refine h.base.of_removed htot (hack.outQueue ▸ h.base.queue) (hack.outQueue ▸ h.base.bound)
        hack.sound fun x hx => ?_
      exact ⟨(sent_of_removed hsplit hack.packets hx).1, (hack.frame x hx).2⟩
    · exact fun c hc => h.small c (mem_of_live_add hack.live hc)
    · rw [htot, hack.size]
      exact VPacketHistory.sizeOut_of_removed hack.live h.small hn

/-- **A lost packet** whose commands all have newer versions in the queue. -/
theorem SenderRun.Sized.nak (h : r.Sized) (htot : r.tot = none) {id : ℕ}
    (hsafe : r.MarkKeepsSize (.nak, id)) :
    ∃ r', r.mark (.nak, id) = some r' ∧ r'.Sized ∧ r'.tot = none := by
  rcases r.packet_cases id with hnone | ⟨before, packet, after, hfind, hsplit, -, hget⟩
  · exact ⟨_, SenderRun.mark_nak (handleNak_none hnone), h.of_queue (h.base.of_eq rfl fun h => h)
      rfl rfl rfl, htot⟩
  · have hstay := hsafe _ packet hfind hget
    have hpacket : packet ∈ r.s.history.packets := by simp [hsplit]
    have hsent : ∀ x ∈ packet.cmds, x ∈ r.s.history.sent := fun x hx =>
      List.mem_flatMap.mpr ⟨packet, hpacket, hx⟩
    have hnodup : packet.cmds.Nodup :=
      (List.nodup_flatMap.mp h.base.history.nodup).1 packet hpacket
    have hstale : ∀ x ∈ packet.cmds.reverse, r.s.history.cmdAt x = r.s.history.cmdAt x ∧
        goesBack r.s.outQueue r.s.history x = false := fun x hx =>
      ⟨rfl, hstay x (List.mem_reverse.mp hx)⟩
    have hremovable : r.s.history.Removable packet.cmds.reverse :=
      removable_stale h.base.history.inv (fun x hx => hsent x (List.mem_reverse.mp hx))
        (List.nodup_reverse.mpr hnodup) hstale
    obtain ⟨s', hres, hlost⟩ := handleNak_spec h.base.queue h.base.history hfind hsplit hremovable
    have hnone : packet.cmds.filter (goesBack r.s.outQueue r.s.history) = [] :=
      List.filter_eq_nil_iff.mpr fun x hx => by simp [hstay x hx]
    have hlive := hlost.live
    rw [backCmds, hnone, List.filterMap_nil, Multiset.coe_nil, add_zero] at hlive
    have hcontents : s'.outQueue.contents = r.s.outQueue.contents := by
      funext p
      have hbackTo : backTo r.s.outQueue r.s.history p packet.cmds = [] :=
        List.filter_eq_nil_iff.mpr fun x hx => by simp [hstay x hx]
      rw [hlost.contents p, hbackTo, List.filterMap_nil, List.nil_append]
    refine ⟨_, SenderRun.mark_nak hres, ⟨?_, ?_, hlost.size ▸ takeOff_lt h.lt _, ?_⟩, htot⟩
    · exact h.base.of_removed htot hlost.queue (hcontents ▸ h.base.bound) hlost.sound fun x hx =>
        ⟨(hlost.frame x hx).1, (hlost.frame x hx).2.2⟩
    · exact fun c hc => h.small c (mem_of_live_add hlive hc)
    · have hsize := h.size
      rw [htot] at hsize
      simp only [htot, hlost.size]
      exact VPacketHistory.sizeOut_of_removed hlive h.small hsize

theorem SenderRun.Sized.mark (h : r.Sized) (htot : r.tot = none) (m : AckNakCmd)
    (hsafe : r.MarkKeepsSize m) : ∃ r', r.mark m = some r' ∧ r'.Sized ∧ r'.tot = none := by
  obtain ⟨kind, id⟩ := m
  cases kind with
  | ack =>
      have hsize : r.s.sentSize % 2 ^ 32 = r.s.history.sizeOut := by
        rw [← h.size, htot]
        rfl
      obtain ⟨s', cmds, hres, hsized⟩ := h.ack hsize h.lt hsafe
      exact ⟨_, SenderRun.mark_ack hres, hsized _ rfl htot, htot⟩
  | nak => exact h.nak htot hsafe

theorem SenderRun.Sized.popAdd (h : r.Sized) {tot prio len : ℕ} (htot : r.tot = some tot)
    (hsafe : r.s.outQueue.PopSafe prio len)
    (hnew : ∀ oq cmd plan, vOutQueuePop r.s.outQueue prio len = some (oq, some (cmd, plan)) →
      minCmdId ≤ cmd.id →
      tot + vCmdSize cmd.cmd < 2 ^ 16 ∧ ∀ old ∈ r.s.history.live, ¬ Replaces cmd old) :
    ∃ r', r.popAdd tot prio len = some r' ∧ r'.Sized := by
  rcases vOutQueuePop_cases h.base.queue hsafe with hres | ⟨oq', cmd, plan, hres, hpop⟩
  · exact ⟨r, by simp only [SenderRun.popAdd, hres], h⟩
  · by_cases hid : cmd.id < minCmdId
    · refine ⟨_, by simp only [SenderRun.popAdd, hres, if_pos hid]; rfl, ?_⟩
      exact h.of_queue (h.base.of_queue hpop.inv (hpop.bound h.base.bound) rfl rfl) rfl rfl rfl
    · obtain ⟨hsize, hold⟩ := hnew oq' cmd plan hres (Nat.le_of_not_lt hid)
      obtain ⟨history', old, hadd, hsized⟩ := h.carry htot hpop (Nat.le_of_not_lt hid) hsize hold
      exact ⟨_, by simp only [SenderRun.popAdd, hres, if_neg hid, hadd], hsized⟩

theorem SenderRun.Sized.popBack (h : r.Sized) {prio len : ℕ} (hprio : prio ≤ maxPriority)
    (hsafe : r.s.outQueue.PopSafe prio len) :
    ∃ r', r.popBack prio len = some r' ∧ r'.Sized := by
  rcases vOutQueuePop_cases h.base.queue hsafe with hres | ⟨oq', cmd, plan, hres, hpop⟩
  · exact ⟨r, by simp only [SenderRun.popBack, hres], h⟩
  · have hbound := hpop.bound h.base.bound
    by_cases hid : cmd.id < minCmdId
    · refine ⟨_, by simp only [SenderRun.popBack, hres, if_pos hid]; rfl, ?_⟩
      exact h.of_queue (h.base.of_queue hpop.inv hbound rfl rfl) rfl rfl rfl
    · rcases vOutQueuePushHead_spec hpop.inv hpop.accepted prio with
        ⟨qa, -, hpush⟩ | ⟨oq'', htwin, hpush, hinv, hqueues, hcmdAt⟩
      · refine ⟨_, by simp only [SenderRun.popBack, hres, if_neg hid, hpush]; rfl, ?_⟩
        exact h.of_queue (h.base.of_queue hpop.inv hbound rfl rfl) rfl rfl rfl
      · refine ⟨_, by simp only [SenderRun.popBack, hres, if_neg hid, hpush]; rfl, ?_⟩
        have hbound' : ∀ p, maxPriority < p → oq''.contents p = [] := by
          intro p hp
          rw [hpop.inv.contents_pushHead htwin hqueues hcmdAt, Function.update_of_ne (by omega)]
          exact hbound p hp
        exact h.of_queue (h.base.of_queue hinv hbound' rfl rfl) rfl rfl rfl

/-- **One action** keeps the counter right. -/
theorem SenderRun.Sized.step (h : r.Sized) (a : SenderAction) (hsafe : r.KeepsSize a) :
    ∃ r', r.step a = some r' ∧ r'.Sized := by
  cases a with
  | pushTail limits prio cmd =>
      exact h.pushTail limits (uint8_le_maxPriority prio) cmd.2 hsafe
  | openPacket id =>
      cases htot : r.tot with
      | some tot => exact ⟨r, by simp only [SenderRun.step, htot], h⟩
      | none =>
          refine ⟨_, by simp only [SenderRun.step, htot], h.base.openPacket id.toNat, ?_, h.lt, ?_⟩
          · simpa only [VPacketHistory.live_addPacket] using h.small
          · have hsize := h.size
            rw [htot, Option.getD_none] at hsize
            simpa only [VPacketHistory.sizeOut, VPacketHistory.live_addPacket,
              Option.getD_some] using hsize
  | popAdd prio len =>
      cases htot : r.tot with
      | none => exact ⟨r, by simp only [SenderRun.step, htot], h⟩
      | some tot =>
          simp only [SenderRun.step, htot]
          exact h.popAdd htot (hsafe tot htot).1 (hsafe tot htot).2
  | popBack prio len =>
      cases htot : r.tot with
      | none => exact ⟨r, by simp only [SenderRun.step, htot], h⟩
      | some tot =>
          simp only [SenderRun.step, htot]
          exact h.popBack (uint8_le_maxPriority prio) (hsafe (by simp [htot]))
  | closePacket =>
      cases htot : r.tot with
      | none => exact ⟨r, by simp only [SenderRun.step, htot], h⟩
      | some tot =>
          have hsize := h.size
          rw [htot, Option.getD_some] at hsize
          have hstep : r.step .closePacket = some
              { r with s := { r.s with sentSize := add32 r.s.sentSize tot }, tot := none } := by
            simp only [SenderRun.step, htot]
          refine ⟨_, hstep, ?_, h.small, Nat.mod_lt _ (by decide), ?_⟩
          · exact ⟨h.base.queue, h.base.bound, h.base.history, h.base.prios,
              fun hne => absurd rfl hne⟩
          · rw [hsize]
            exact Nat.mod_mod _ _
  | sendFails =>
      cases htot : r.tot with
      | none => exact ⟨r, by simp only [SenderRun.step, htot], h⟩
      | some tot =>
          have hsize := h.size
          rw [htot, Option.getD_some] at hsize
          obtain ⟨s', cmds, hres, hsized⟩ := h.ack (n := add32 r.s.sentSize tot)
            (by rw [hsize]; exact Nat.mod_mod _ _) (Nat.mod_lt _ (by decide))
            (hsafe (by simp [htot]))
          have hstep : r.step .sendFails = some
              { r with s := s', tot := none, lost := r.lost ++ cmds } := by
            simp only [SenderRun.step, htot, hres, Option.map_some]
          exact ⟨_, hstep, hsized _ rfl rfl⟩
  | ackNak cmds stale =>
      cases htot : r.tot with
      | some tot => exact ⟨r, by simp only [SenderRun.step, htot], h⟩
      | none =>
          have hstep : ∀ (r : SenderRun) (m : AckNakCmd), r.Sized ∧ r.tot = none →
              r.MarkKeepsSize m → ∃ r', r.mark m = some r' ∧ r'.Sized ∧ r'.tot = none :=
            fun r m hr hsafe => hr.1.mark hr.2 m hsafe
          obtain ⟨r', hrun, hsized, -⟩ := run_induction hstep ⟨h, htot⟩ (hsafe htot)
          exact ⟨r', by simp only [SenderRun.step, htot, hrun], hsized⟩

/-! ## Runs -/

/-- **The counter is right** between two packets as long as no command becomes obsolete
in the history and none goes back to the queue. -/
theorem sender_sentSize (actions : List SenderAction)
    (hsafe : Admissible SenderRun.step SenderRun.KeepsSize SenderRun.init actions) :
    ∃ r, run SenderRun.step SenderRun.init actions = some r ∧
      (r.tot = none → r.s.sentSize = r.s.history.sizeOut) := by
  obtain ⟨r, hrun, hsized⟩ := run_induction (fun r a hsized hsafe => hsized.step a hsafe)
    SenderRun.sized_init hsafe
  refine ⟨r, hrun, fun htot => ?_⟩
  have hsize := hsized.size
  rw [htot, Option.getD_none, add32, Nat.add_zero, Nat.mod_eq_of_lt hsized.lt] at hsize
  exact hsize

/-- A packet with one command is sent and acknowledged. -/
theorem sender_sentSize_acked :
    ∃ r, run SenderRun.step SenderRun.init (oneSent ++ [.ackNak [(.ack, 1)] 0]) = some r ∧
      (r.tot = none → r.s.sentSize = r.s.history.sizeOut) := by
  refine sender_sentSize _ ⟨pushSafe_one, fun r₁ h₁ => ⟨trivial, fun r₂ h₂ => ⟨?_,
    fun r₃ h₃ => ⟨trivial, fun r₄ h₄ => ⟨fun _ => ⟨?_, fun _ _ => trivial⟩,
      fun _ _ => trivial⟩⟩⟩⟩⟩
  · intro tot htot
    have hrun : run SenderRun.step SenderRun.init oneQueued = some r₂ := by
      rw [oneQueued, run_cons h₁, run_cons h₂, run_nil]
    refine ⟨popSafe_one hrun, fun oq cmd plan hpop _ => ?_⟩
    have hstate : (run SenderRun.step SenderRun.init oneQueued).map (fun r =>
        (r.tot, r.s.history.live, (vOutQueuePop r.s.outQueue 128 1500).map fun res =>
          res.2.map (·.1))) =
        some (some 0, [], some (some ⟨0, layerSetUint8 5 7⟩)) := by decide +kernel
    rw [hrun, Option.map_some, Option.some.injEq, Prod.mk.injEq, Prod.mk.injEq] at hstate
    obtain ⟨htot', hlive, hcmd⟩ := hstate
    have hpop' : vOutQueuePop r₂.s.outQueue 128 1500 = some (oq, some (cmd, plan)) := hpop
    rw [hpop'] at hcmd
    obtain rfl : cmd = ⟨0, layerSetUint8 5 7⟩ := by simpa using hcmd
    obtain rfl : 0 = tot := by simpa [htot'] using htot
    exact ⟨by decide +kernel, fun old hold => by simp [hlive] at hold⟩
  · have hrun : run SenderRun.step SenderRun.init onePacked = some r₃ := by
      simp only [onePacked, oneQueued, List.cons_append, List.nil_append]
      rw [run_cons h₁, run_cons h₂, run_cons h₃, run_nil]
    intro i packet _ hget
    rw [history_closePacket h₄] at hget ⊢
    obtain ⟨hcmds, hremovable⟩ := removable_one hrun (List.mem_of_getElem? hget)
    rw [hcmds]
    exact hremovable

/-- A lost command goes back to the queue and is never taken off. -/
theorem sender_sentSize_drifts :
    ¬ ∀ actions, ∃ r, run SenderRun.step SenderRun.init actions = some r ∧
      (r.tot = none → r.s.sentSize = r.s.history.sizeOut) := by
  intro hall
  obtain ⟨r, hrun, hsize⟩ := hall (oneSent ++ [.ackNak [(.nak, 1), (.ack, 2)] 0])
  have hstate : (run SenderRun.step SenderRun.init
      (oneSent ++ [.ackNak [(.nak, 1), (.ack, 2)] 0])).map (fun r =>
        (r.tot, r.s.sentSize, r.s.history.sizeOut)) = some (none, 14, 0) := by decide +kernel
  rw [hrun, Option.map_some, Option.some.injEq, Prod.mk.injEq, Prod.mk.injEq] at hstate
  obtain ⟨htot, hsent, hout⟩ := hstate
  have heq := hsize htot
  rw [hsent, hout] at heq
  cases heq

end Verse
