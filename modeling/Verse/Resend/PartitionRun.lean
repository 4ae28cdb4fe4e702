import Verse.Resend.Partition

/-!
# Where a command is

The single actions (`SenderRun.Inv.pushTail`, `SenderRun.Inv.carry` and so on) are
put together to runs.  In every run whose actions meet `SenderRun.Safe` a node
command is always in exactly one place (`SenderRun.Partitioned`), and a NAK puts
the commands of its packet back in their old order.

Without the condition this fails.  Buckets are removed by key, so when a packet
carries two commands with one key, the loop of a NAK, which begins with the last
command, frees the bucket of the first one.
-/

namespace Verse

open Lib

variable {r : SenderRun}

/-! ## One action -/

theorem SenderRun.Inv.popAdd (h : r.Inv) {tot prio len : ℕ} (htot : r.tot = some tot)
    (hsafe : r.s.outQueue.PopSafe prio len) :
    ∃ r', r.popAdd tot prio len = some r' ∧ r'.Inv := by
  rcases vOutQueuePop_cases h.base.queue hsafe with hres | ⟨oq', cmd, plan, hres, hpop⟩
  · exact ⟨r, by simp only [SenderRun.popAdd, hres], h⟩
  · by_cases hid : cmd.id < minCmdId
    · exact ⟨_, by simp only [SenderRun.popAdd, hres, if_pos hid], h.consume hpop hid⟩
    · obtain ⟨history', old, hadd, hinv⟩ := h.carry tot (by simp [htot]) hpop
        (Nat.le_of_not_lt hid)
      exact ⟨_, by simp only [SenderRun.popAdd, hres, if_neg hid, hadd], hinv⟩

theorem SenderRun.Inv.popBack (h : r.Inv) {prio len : ℕ}
    (hsafe : r.s.outQueue.PopSafe prio len) :
    ∃ r', r.popBack prio len = some r' ∧ r'.Inv := by
  rcases vOutQueuePop_cases h.base.queue hsafe with hres | ⟨oq', cmd, plan, hres, hpop⟩
  · exact ⟨r, by simp only [SenderRun.popBack, hres], h⟩
  · by_cases hid : cmd.id < minCmdId
    · exact ⟨_, by simp only [SenderRun.popBack, hres, if_pos hid], h.consume hpop hid⟩
    · obtain ⟨oq'', hpush, hinv, hcontents⟩ := h.putBack hpop
      refine ⟨_, by simp only [SenderRun.popBack, hres, if_neg hid, hpush, if_true],
        h.of_contents { r.s with outQueue := oq'' } r.tot ?_ hcontents rfl h.carriedBy⟩
      exact h.base.of_queue hinv (hcontents ▸ h.base.bound) rfl rfl

/-- The ids of a list of ACK and NAK commands, one after the other. -/
theorem SenderRun.Inv.marks (h : r.Inv) (htot : r.tot = none) {marks : List AckNakCmd}
    (hsafe : Admissible SenderRun.mark SenderRun.MarkSafe r marks) :
    ∃ r', run SenderRun.mark r marks = some r' ∧ r'.Inv := by
  have hstep : ∀ (r : SenderRun) (m : AckNakCmd), r.Inv ∧ r.tot = none → r.MarkSafe m →
      ∃ r', r.mark m = some r' ∧ r'.Inv ∧ r'.tot = none := by
    rintro r ⟨id, payload⟩ ⟨hinv, htot⟩ hsafe
    cases id with
    | ack => exact hinv.ack htot hsafe
    | nak => exact hinv.nak htot hsafe
  obtain ⟨r', hrun, hinv, -⟩ := run_induction hstep ⟨h, htot⟩ hsafe
  exact ⟨r', hrun, hinv⟩

/-- **One action** keeps the invariant. -/
theorem SenderRun.Inv.step (h : r.Inv) (a : SenderAction) (hsafe : r.Safe a) :
    ∃ r', r.step a = some r' ∧ r'.Inv := by
  cases a with
  | pushTail limits prio cmd =>
      exact h.pushTail limits (uint8_le_maxPriority prio) cmd.2 hsafe
  | openPacket id =>
      cases htot : r.tot with
      | some tot => exact ⟨r, by simp only [SenderRun.step, htot], h⟩
      | none => exact ⟨_, by simp only [SenderRun.step, htot], h.openPacket id.toNat⟩
  | popAdd prio len =>
      cases htot : r.tot with
      | none => exact ⟨r, by simp only [SenderRun.step, htot], h⟩
      | some tot =>
          simp only [SenderRun.step, htot]
          exact h.popAdd htot (hsafe (by simp [htot]))
  | popBack prio len =>
      cases htot : r.tot with
      | none => exact ⟨r, by simp only [SenderRun.step, htot], h⟩
      | some tot =>
          simp only [SenderRun.step, htot]
          exact h.popBack (hsafe (by simp [htot]))
  | closePacket =>
      cases htot : r.tot with
      | none => exact ⟨r, by simp only [SenderRun.step, htot], h⟩
      | some tot =>
          refine ⟨_, by simp only [SenderRun.step, htot],
            h.of_contents { r.s with sentSize := add32 r.s.sentSize tot } none ?_ rfl rfl
              h.carriedBy⟩
          exact ⟨h.base.queue, h.base.bound, h.base.history, h.base.prios,
            fun hne => absurd rfl hne⟩
  | sendFails =>
      cases htot : r.tot with
      | none => exact ⟨r, by simp only [SenderRun.step, htot], h⟩
      | some tot =>
          obtain ⟨s', cmds, hres, hinv⟩ := h.sendFails (add32 r.s.sentSize tot)
            (hsafe (by simp [htot]))
          exact ⟨_, by simp only [SenderRun.step, htot, hres, Option.map_some], hinv⟩
  | ackNak cmds stale =>
      cases htot : r.tot with
      | some tot => exact ⟨r, by simp only [SenderRun.step, htot], h⟩
      | none =>
          simp only [SenderRun.step, htot]
          exact h.marks htot (hsafe htot)

/-! ## What is lost -/

theorem SenderRun.mark_lost {r' : SenderRun} {m : AckNakCmd} (hmark : r.mark m = some r') :
    r'.lost = r.lost := by
  obtain ⟨kind, id⟩ := m
  cases kind with
  | ack =>
      obtain ⟨res, -, rfl⟩ := Option.map_eq_some_iff.mp hmark
      rfl
  | nak =>
      obtain ⟨res, -, rfl⟩ := Option.map_eq_some_iff.mp hmark
      rfl

theorem SenderRun.marks_lost {r' : SenderRun} {marks : List AckNakCmd}
    (hrun : run SenderRun.mark r marks = some r') : r'.lost = r.lost := by
  induction marks generalizing r with
  | nil =>
      obtain rfl := Option.some.inj hrun
      rfl
  | cons m rest ih =>
      obtain ⟨r₁, hmark, hrest⟩ := Option.bind_eq_some_iff.mp hrun
      rw [ih hrest, SenderRun.mark_lost hmark]

/-- Only a failed send loses commands. -/
theorem SenderRun.step_lost {r' : SenderRun} {a : SenderAction} (ha : a ≠ .sendFails)
    (hstep : r.step a = some r') : r'.lost = r.lost := by
  cases a with
  | pushTail limits prio cmd =>
      simp only [SenderRun.step, SenderRun.pushTail] at hstep
      split at hstep <;> simp only [Option.some.injEq, reduceCtorEq] at hstep
      rw [← hstep]
  | openPacket id =>
      simp only [SenderRun.step] at hstep
      split at hstep <;> rw [← Option.some.inj hstep]
  | popAdd prio len =>
      simp only [SenderRun.step, SenderRun.popAdd] at hstep
      repeat' split at hstep
      all_goals simp only [Option.some.injEq, reduceCtorEq] at hstep
      all_goals rw [← hstep]
  | popBack prio len =>
      simp only [SenderRun.step, SenderRun.popBack] at hstep
      repeat' split at hstep
      all_goals simp only [Option.some.injEq, reduceCtorEq] at hstep
      all_goals rw [← hstep]
  | closePacket =>
      simp only [SenderRun.step] at hstep
      split at hstep <;> rw [← Option.some.inj hstep]
  | sendFails => exact absurd rfl ha
  | ackNak cmds stale =>
      simp only [SenderRun.step] at hstep
      split at hstep
      · rw [← Option.some.inj hstep]
      · exact SenderRun.marks_lost hstep

/-! ## Places -/

/-- Where a node command that was pushed can be. -/
inductive Place where
  | outQueue
  | sentPacket
  | acknowledged
  | replaced
  deriving DecidableEq, Repr

def SenderRun.IsAt (r : SenderRun) (cmd : CmdPtr) : Place → Prop
  | .outQueue => ∃ p, cmd ∈ r.s.outQueue.contents p
  | .sentPacket => ∃ sa ∈ r.s.history.sent, r.s.history.cmdAt sa = some cmd
  | .acknowledged => ∃ id, (id, cmd) ∈ r.acked
  | .replaced => ∃ newer, (cmd, newer) ∈ r.replaced

/-- Every command that was pushed is in one place, and what the places say is true. -/
structure SenderRun.Partitioned (r : SenderRun) : Prop where
  one : ∀ cmd ∈ r.pushed, minCmdId ≤ cmd.id → ∃! place, r.IsAt cmd place
  /-- No command is in the queue twice, or in two packets. -/
  once : (total r.s.outQueue.contents).Nodup ∧ r.s.history.sent.Nodup ∧ r.s.history.live.Nodup
  /-- All commands are accounted for. -/
  mass : r.places = (r.pushed : Multiset CmdPtr)
  /-- A sent command that is not obsolete has a bucket in the hash list of its id,
  which holds the command that went into the packet. -/
  bucket : ∀ packet ∈ r.s.history.packets, ∀ sa ∈ packet.cmds, ∀ sentCmd a,
    r.s.history.sheap sa = some sentCmd → sentCmd.vbucket = some a →
    ∃ b, r.s.history.table.heap a = some b ∧ b.ptr = some sa ∧ b.data.id = sentCmd.id ∧
      a ∈ r.s.history.table.lb sentCmd.id ∧ (packet.id, sentCmd.prio, b.data) ∈ r.carried
  /-- The packet that carried an acknowledged command was acknowledged. -/
  acked : ∀ t ∈ r.acked, t.1 ∈ r.acks ∧ ∃ prio, (t.1, prio, t.2) ∈ r.carried
  /-- A replaced command was pushed before its newer version. -/
  replaced : ∀ t ∈ r.replaced, Replaces t.2 t.1 ∧ t.1.addr < t.2.addr

theorem mem_total_iff {c : ℕ → List CmdPtr} (hbound : ∀ p, maxPriority < p → c p = [])
    {x : CmdPtr} : x ∈ total c ↔ ∃ p, x ∈ c p := by
  constructor
  · intro hx
    unfold total at hx
    rw [Multiset.mem_sum] at hx
    obtain ⟨p, -, hp⟩ := hx
    exact ⟨p, Multiset.mem_coe.mp hp⟩
  · rintro ⟨p, hp⟩
    refine mem_total ?_ hp
    by_contra hlt
    rw [hbound p (Nat.lt_of_not_le hlt)] at hp
    cases hp

/-- The place of a command, read off the multisets. -/
theorem SenderRun.Inv.isAt_iff (h : r.Inv) (cmd : CmdPtr) (place : Place) :
    r.IsAt cmd place ↔ 0 < match place with
      | .outQueue => (total r.s.outQueue.contents).count cmd
      | .sentPacket => (r.s.history.live : Multiset CmdPtr).count cmd
      | .acknowledged => (r.acked.map Prod.snd : Multiset CmdPtr).count cmd
      | .replaced => (r.replaced.map Prod.fst : Multiset CmdPtr).count cmd := by
  cases place with
  | outQueue =>
      rw [Multiset.count_pos, mem_total_iff h.base.bound]
      rfl
  | sentPacket =>
      rw [Multiset.count_pos, Multiset.mem_coe, VPacketHistory.live, List.mem_filterMap]
      rfl
  | acknowledged => simp [SenderRun.IsAt]
  | replaced => simp [SenderRun.IsAt]

theorem SenderRun.Inv.isAt_unique (h : r.Inv) (hlost : r.lost = []) {cmd : CmdPtr} (hmem : cmd ∈ r.pushed)
    (hid : minCmdId ≤ cmd.id) : ∃! place, r.IsAt cmd place := by
  have hone : (r.pushed : Multiset CmdPtr).count cmd = 1 :=
    Multiset.count_eq_one_of_mem (Multiset.coe_nodup.mpr h.nodup) (Multiset.mem_coe.mpr hmem)
  have hfake : (r.consumed : Multiset CmdPtr).count cmd = 0 := by
    rw [Multiset.count_eq_zero, Multiset.mem_coe]
    intro hc
    exact Nat.not_le_of_lt (h.fake cmd hc) hid
  rw [← h.mass, hlost, Multiset.coe_nil, add_zero] at hone
  simp only [SenderRun.places, Multiset.count_add, hfake, add_zero] at hone
  -- the four counts add up to one
  have hsome : ∃ place, r.IsAt cmd place := by
    by_contra hnone
    have hzero : ∀ place, ¬ r.IsAt cmd place := fun place hat => hnone ⟨place, hat⟩
    have h₁ := (h.isAt_iff cmd .outQueue).not.mp (hzero _)
    have h₂ := (h.isAt_iff cmd .sentPacket).not.mp (hzero _)
    have h₃ := (h.isAt_iff cmd .acknowledged).not.mp (hzero _)
    have h₄ := (h.isAt_iff cmd .replaced).not.mp (hzero _)
    simp only at h₁ h₂ h₃ h₄
    omega
  obtain ⟨place, hat⟩ := hsome
  refine ⟨place, hat, fun place' hat' => ?_⟩
  rw [h.isAt_iff] at hat hat'
  cases place <;> cases place' <;> first
    | rfl
    | (simp only at hat hat'; omega)

/-- The history holds a command once. -/
theorem SenderRun.Inv.nodup_live (h : r.Inv) : r.s.history.live.Nodup := by
  have hnodup : (r.pushed : Multiset CmdPtr).Nodup := Multiset.coe_nodup.mpr h.nodup
  rw [← h.mass] at hnodup
  refine Multiset.coe_nodup.mp (Multiset.nodup_of_le ?_ hnodup)
  rw [SenderRun.places, add_comm (total _), add_assoc, add_assoc, add_assoc, add_assoc]
  exact Multiset.le_add_right _ _

theorem SenderRun.Inv.partitioned (h : r.Inv) (hlost : r.lost = []) : r.Partitioned where
  one _ hmem hid := h.isAt_unique hlost hmem hid
  once := ⟨h.nodup_total, h.base.history.nodup, h.nodup_live⟩
  mass := by
    rw [← h.mass, hlost, Multiset.coe_nil, add_zero]
  bucket packet hpacket sa hsa sentCmd a hsc ha := by
    have hsent : sa ∈ r.s.history.sent := List.mem_flatMap.mpr ⟨packet, hpacket, hsa⟩
    obtain ⟨b, hb, hptr, hid⟩ := h.base.history.inv.bucket sa hsent sentCmd a hsc ha
    refine ⟨b, hb, hptr, hid, (h.base.history.inv.wf.mem_lb _ _).mpr ⟨b, hb, hid⟩, ?_⟩
    exact h.carriedBy packet hpacket sa hsa b.data _ (VPacketHistory.cmdAt_of_bucket hsc ha hb)
      (by simp [VPacketHistory.prioAt, hsc])
  acked := h.ackedBy
  replaced := h.newer

/-! ## Runs -/

/-- The NAK of a packet puts its commands that are not obsolete back to the heads of
their queues in the order in which they were sent, and removes the packet. -/
def SenderRun.PutsBack (r : SenderRun) (id : ℕ) : Prop :=
  ∀ i packet, vPacketHistoryFindPacket r.s.history id = some i →
    r.s.history.packets[i]? = some packet →
    ∃ r', r.mark (.nak, id) = some r' ∧
      (∀ p, r'.s.outQueue.contents p =
        (backTo r.s.outQueue r.s.history p packet.cmds).filterMap r.s.history.cmdAt ++
          r.s.outQueue.contents p) ∧
      r'.s.history.packets = r.s.history.packets.eraseIdx i

theorem SenderRun.Inv.putsBack (h : r.Inv) {id : ℕ} (hsafe : r.MarkSafe (.nak, id)) :
    r.PutsBack id := by
  intro i packet hfind hget
  rcases r.packet_cases id with hnone | ⟨before, packet', after, hfind', hsplit, -, hget'⟩
  · rw [hnone] at hfind
    cases hfind
  · rw [hfind'] at hfind
    obtain rfl := Option.some.inj hfind
    rw [hget'] at hget
    obtain rfl := Option.some.inj hget
    obtain ⟨s', hres, hlost⟩ := handleNak_spec h.base.queue h.base.history hfind' hsplit
      (hsafe _ _ hfind' hget')
    refine ⟨_, SenderRun.mark_nak hres, hlost.contents, ?_⟩
    rw [hlost.packets, hsplit, List.eraseIdx_append_of_length_le (Nat.le_refl _)]
    simp

/-- **No command is lost or doubled.**  A run in which every command that is popped,
acknowledged or put back finds its own bucket first goes through, and every node
command is in one place; and a NAK puts the commands of its packet back. -/
theorem sender_partitioned (actions : List SenderAction) (hsends : ∀ a ∈ actions, a ≠ .sendFails)
    (hsafe : Admissible SenderRun.step SenderRun.Safe SenderRun.init actions) :
    ∃ r, run SenderRun.step SenderRun.init actions = some r ∧ r.Partitioned ∧
      ∀ id, r.MarkSafe (.nak, id) → r.PutsBack id := by
  have hstep : ∀ (r : SenderRun) (a : SenderAction), r.Inv ∧ r.lost = [] →
      r.Safe a ∧ a ≠ .sendFails → ∃ r', r.step a = some r' ∧ r'.Inv ∧ r'.lost = [] := by
    rintro r a ⟨hinv, hlost⟩ ⟨hsafe, hsend⟩
    obtain ⟨r', hr', hinv'⟩ := hinv.step a hsafe
    exact ⟨r', hr', hinv', (SenderRun.step_lost hsend hr').trans hlost⟩
  obtain ⟨r, hrun, hinv, hlost⟩ := run_induction hstep ⟨SenderRun.inv_init, rfl⟩
    (hsafe.and_forall hsends)
  exact ⟨r, hrun, hinv.partitioned hlost, fun _ hsafe => hinv.putsBack hsafe⟩

/-- A packet with one command is lost; the ACK of a packet that is not known does
nothing. -/
theorem sender_partitioned_lost :
    ∃ r, run SenderRun.step SenderRun.init (oneSent ++ [.ackNak [(.nak, 1), (.ack, 2)] 0]) =
        some r ∧ r.Partitioned ∧ ∀ id, r.MarkSafe (.nak, id) → r.PutsBack id := by
  refine sender_partitioned _ (by simp [oneSent, onePacked, oneQueued]) ⟨pushSafe_one, fun r₁ h₁ => ⟨trivial, fun r₂ h₂ => ⟨fun _ => ?_,
    fun r₃ h₃ => ⟨trivial, fun r₄ h₄ => ⟨fun _ => ⟨?_, fun r₅ h₅ => ⟨?_, fun _ _ => trivial⟩⟩,
      fun _ _ => trivial⟩⟩⟩⟩⟩
  · refine popSafe_one ?_
    rw [oneQueued, run_cons h₁, run_cons h₂, run_nil]
  · have hrun : run SenderRun.step SenderRun.init onePacked = some r₃ := by
      simp only [onePacked, oneQueued, List.cons_append, List.nil_append]
      rw [run_cons h₁, run_cons h₂, run_cons h₃, run_nil]
    intro i packet _ hget
    rw [history_closePacket h₄] at hget ⊢
    obtain ⟨hcmds, hremovable⟩ := removable_one hrun (List.mem_of_getElem? hget)
    rw [hcmds]
    exact hremovable
  · have hrun : (run SenderRun.step SenderRun.init oneSent).bind (·.mark (.nak, 1)) = some r₅ := by
      simp only [oneSent, onePacked, oneQueued, List.cons_append, List.nil_append]
      rw [run_cons h₁, run_cons h₂, run_cons h₃, run_cons h₄, run_nil]
      exact h₅
    have hstate : ((run SenderRun.step SenderRun.init oneSent).bind (·.mark (.nak, 1))).map
        (·.s.history.packets) = some [] := by decide +kernel
    rw [hrun, Option.map_some, Option.some.injEq] at hstate
    intro i packet _ hget
    rw [hstate] at hget
    cases hget

/-- A packet with two commands of one key is lost: the bucket of the first command is
freed when the second one is put back, and then read. -/
theorem sender_not_partitioned :
    ¬ ∀ actions, (∀ a ∈ actions, a ≠ SenderAction.sendFails) →
      ∃ r, run SenderRun.step SenderRun.init actions = some r ∧ r.Partitioned ∧
        ∀ id, r.PutsBack id := by
  intro hall
  obtain ⟨r, hrun, -⟩ := hall [.pushTail true 128 (layerSetPush 5 7),
    .pushTail true 128 (layerSetPush 6 7), .openPacket 1, .popAdd 128 1500, .popAdd 128 1500,
    .closePacket, .openPacket 2, .closePacket, .ackNak [(.nak, 1), (.ack, 2)] 0] (by simp)
  have hnone : (run SenderRun.step SenderRun.init [.pushTail true 128 (layerSetPush 5 7),
      .pushTail true 128 (layerSetPush 6 7), .openPacket 1, .popAdd 128 1500, .popAdd 128 1500,
      .closePacket, .openPacket 2, .closePacket,
      .ackNak [(.nak, 1), (.ack, 2)] 0]).isNone = true := by decide +kernel
  rw [hrun] at hnone
  cases hnone

end Verse
