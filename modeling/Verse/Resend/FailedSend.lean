import Verse.Resend.PartitionRun

/-!
# A send that fails

When `v_send_packet` fails, `send_packet_in_OPEN_CLOSEREQ_state` removes the packet
from the history with the function that is meant for acknowledged packets.  The
commands of the packet are destroyed, and on the server a fake command says that
the peer knows about what they created or destroyed.

So a failed send loses nothing exactly if there was nothing in the packet
(`sendFails_iff`).

## Strategy

`Assembling` describes the packet between `openPacket` and the send: the command
that went into it last is in its list and not obsolete.  Removing the packet
destroys that command, and it is in no other place.
-/

namespace Verse

open Lib

/-- What happens between the first command of a packet and its send. -/
def SenderAction.assembles : SenderAction → Bool
  | .pushTail _ _ _ | .popAdd _ _ | .popBack _ _ => true
  | .openPacket _ | .closePacket | .sendFails | .ackNak _ _ => false

/-- The node commands that were popped for the packet since it was begun in `r₀`. -/
def SenderRun.poppedSince (r₀ r : SenderRun) : List CmdPtr :=
  (r.carried.drop r₀.carried.length).map fun t => t.2.2

/-- The send of the packet that was begun in `r₀` fails in `r`.  Every command that was
popped for it is then in the queue or in the history, and a fake command is only
made for a command of a packet that was acknowledged. -/
def SenderRun.LosesNothing (r₀ r : SenderRun) : Prop :=
  ∃ s' destroyed,
    handleAck { r.s with sentSize := add32 r.s.sentSize (r.tot.getD 0) } r.s.history.lastId =
      some (s', destroyed) ∧
    (∀ cmd ∈ r₀.poppedSince r, (∃ p, cmd ∈ s'.outQueue.contents p) ∨ cmd ∈ s'.history.live) ∧
    ∀ cmd ∈ destroyed, vCmdFakeAck cmd.cmd ≠ none → r.s.history.lastId ∈ r.acks

/-- The list of the packet that is being assembled is empty. -/
def SenderRun.NothingPacked (r : SenderRun) : Prop :=
  ∀ packet, r.s.history.packets.getLast? = some packet → packet.cmds = []

/-- The packet with the id `id` is being assembled; `older` are the packets before it,
and `carried` is the book from before it was begun. -/
structure Assembling (older : List VSentPacket) (id : ℕ) (carried : List (ℕ × ℕ × CmdPtr))
    (r : SenderRun) : Prop where
  inv : r.Inv
  tot : r.tot ≠ none
  packet : ∃ cmds new, r.s.history.packets = older ++ [⟨id, cmds⟩] ∧ r.carried = carried ++ new ∧
    (cmds = [] ↔ new = []) ∧
    ∀ t, new.getLast? = some t → ∃ sa ∈ cmds, r.s.history.cmdAt sa = some t.2.2

variable {r r' : SenderRun}

/-- An action either leaves the history alone or puts a command into the packet. -/
theorem SenderRun.step_history {a : SenderAction} (ha : a.assembles = true)
    (hstep : r.step a = some r') :
    (r'.s.history = r.s.history ∧ r'.carried = r.carried ∧ r'.tot = r.tot) ∨
      ∃ prio len oq cmd plan old, a = .popAdd prio len ∧ r.tot ≠ none ∧
        vOutQueuePop r.s.outQueue prio.toNat len.toNat = some (oq, some (cmd, plan)) ∧
        minCmdId ≤ cmd.id ∧
        vPacketHistoryAddCmd r.s.history (r.s.history.packets.length - 1) cmd prio.toNat =
          some (r'.s.history, old) ∧
        r'.carried = r.carried ++ [(r.s.history.lastId, prio.toNat, cmd)] ∧ r'.tot ≠ none := by
  cases a with
  | pushTail limits prio cmd =>
      simp only [SenderRun.step, SenderRun.pushTail] at hstep
      split at hstep
      · cases hstep
      · obtain rfl := Option.some.inj hstep
        exact Or.inl ⟨rfl, rfl, rfl⟩
  | popAdd prio len =>
      simp only [SenderRun.step] at hstep
      split at hstep
      · obtain rfl := Option.some.inj hstep
        exact Or.inl ⟨rfl, rfl, rfl⟩
      · rename_i tot htot
        simp only [SenderRun.popAdd] at hstep
        split at hstep
        · cases hstep
        · obtain rfl := Option.some.inj hstep
          exact Or.inl ⟨rfl, rfl, rfl⟩
        · rename_i oq cmd plan hpop
          split at hstep
          · obtain rfl := Option.some.inj hstep
            exact Or.inl ⟨rfl, rfl, rfl⟩
          · rename_i hid
            split at hstep
            · cases hstep
            · rename_i history' old hadd
              obtain rfl := Option.some.inj hstep
              exact Or.inr ⟨prio, len, oq, cmd, plan, old, rfl, by simp [htot], hpop,
                Nat.le_of_not_lt hid, hadd, rfl, by simp⟩
  | popBack prio len =>
      simp only [SenderRun.step] at hstep
      split at hstep
      · obtain rfl := Option.some.inj hstep
        exact Or.inl ⟨rfl, rfl, rfl⟩
      · simp only [SenderRun.popBack] at hstep
        split at hstep
        · cases hstep
        · obtain rfl := Option.some.inj hstep
          exact Or.inl ⟨rfl, rfl, rfl⟩
        · split at hstep
          · obtain rfl := Option.some.inj hstep
            exact Or.inl ⟨rfl, rfl, rfl⟩
          · split at hstep
            · cases hstep
            · obtain rfl := Option.some.inj hstep
              exact Or.inl ⟨rfl, rfl, rfl⟩
  | openPacket id => cases ha
  | closePacket => cases ha
  | sendFails => cases ha
  | ackNak cmds stale => cases ha

/-- **One action** of the assembly. -/
theorem Assembling.step {older : List VSentPacket} {id : ℕ} {carried : List (ℕ × ℕ × CmdPtr)}
    (h : Assembling older id carried r) {a : SenderAction} (ha : a.assembles = true)
    (hsafe : r.Safe a) : ∃ r', r.step a = some r' ∧ Assembling older id carried r' := by
  obtain ⟨r', hstep, hinv⟩ := h.inv.step a hsafe
  refine ⟨r', hstep, ?_⟩
  obtain ⟨cmds, new, hpackets, hcarried, hempty, hlast⟩ := h.packet
  rcases SenderRun.step_history ha hstep with
    ⟨hhistory, hcarried', htot⟩ | ⟨prio, len, oq, cmd, plan, old, rfl, htot, hpop, hid, hadd,
      hcarried', htot'⟩
  · exact ⟨hinv, htot ▸ h.tot, cmds, new, hhistory ▸ hpackets, hcarried'.trans hcarried, hempty,
      hhistory ▸ hlast⟩
  · rcases vOutQueuePop_cases h.inv.base.queue (hsafe htot) with
      hnone | ⟨oq', cmd', plan', hres, hpopped⟩
    · rw [hnone] at hpop
      cases hpop
    · rw [hpop] at hres
      obtain ⟨rfl, rfl, rfl⟩ : oq = oq' ∧ cmd = cmd' ∧ plan = plan' := by simpa using hres
      have hi : r.s.history.packets.length - 1 < r.s.history.packets.length := by simp [hpackets]
      obtain ⟨history', old', hadd', -, hpackets', -, hcmd, -⟩ :=
        vPacketHistoryAddCmd_spec h.inv.base.history hi hid hpopped.accepted prio.toNat
      rw [hadd] at hadd'
      obtain ⟨heq, -⟩ : r'.s.history = history' ∧ old = old' := by simpa using hadd'
      refine ⟨hinv, htot', cmds ++ [r.s.history.next],
        new ++ [(r.s.history.lastId, prio.toNat, cmd)], ?_, ?_, by simp, ?_⟩
      · rw [heq, hpackets', hpackets, List.length_append, List.length_singleton,
          Nat.add_sub_cancel, modify_length]
      · rw [hcarried', hcarried, List.append_assoc]
      · intro t ht
        obtain rfl : t = (r.s.history.lastId, prio.toNat, cmd) := by simpa using ht.symm
        exact ⟨r.s.history.next, by simp, heq ▸ hcmd⟩

/-- **The packet before it is sent.** -/
theorem assembling_run {r₀ : SenderRun} (h : r₀.Inv) {id : ℕ} {older : List VSentPacket}
    (htot : r₀.tot ≠ none) (hpackets : r₀.s.history.packets = older ++ [⟨id, []⟩])
    {assembly : List SenderAction} (hassembles : ∀ a ∈ assembly, a.assembles = true)
    (hsafe : Admissible SenderRun.step SenderRun.Safe r₀ assembly) :
    ∃ r, run SenderRun.step r₀ assembly = some r ∧ Assembling older id r₀.carried r := by
  have hinit : Assembling older id r₀.carried r₀ :=
    ⟨h, htot, [], [], hpackets, by simp, by simp, by simp⟩
  exact run_induction (fun r a hr hguard => hr.step hguard.2 hguard.1) hinit
    (hsafe.and_forall hassembles)

/-! ## The failed send -/

/-- The packet that is being assembled is found by its id. -/
theorem findPacket_last {history : VPacketHistory} {older : List VSentPacket} {id : ℕ}
    {cmds : List ℕ} (hpackets : history.packets = older ++ [⟨id, cmds⟩])
    (hfresh : ∀ packet ∈ older, packet.id ≠ id) :
    vPacketHistoryFindPacket history id = some older.length ∧ history.lastId = id := by
  constructor
  · have hnone : older.findIdx? (fun packet => packet.id = id) = none := by
      rw [List.findIdx?_eq_none_iff]
      exact fun packet hpacket => by simpa using hfresh packet hpacket
    simp [vPacketHistoryFindPacket, hpackets, List.findIdx?_append, hnone]
  · simp [VPacketHistory.lastId, hpackets]

/-- A command of the history is nowhere else. -/
theorem SenderRun.Inv.not_queued_of_live (h : r.Inv) {sa p : ℕ} {cmd : CmdPtr}
    (hsa : sa ∈ r.s.history.sent) (hcmd : r.s.history.cmdAt sa = some cmd) :
    cmd ∉ r.s.outQueue.contents p := by
  intro hqueue
  have hlive : cmd ∈ r.s.history.live := List.mem_filterMap.mpr ⟨sa, hsa, hcmd⟩
  have hnodup : (r.pushed : Multiset CmdPtr).Nodup := Multiset.coe_nodup.mpr h.nodup
  rw [← h.mass, Multiset.nodup_iff_count_le_one] at hnodup
  have hone := hnodup cmd
  have h₁ := Multiset.count_pos.mpr (mem_total (h.base.prio_le hqueue) hqueue)
  have h₂ := Multiset.count_pos.mpr (Multiset.mem_coe.mpr hlive)
  simp only [SenderRun.places, Multiset.count_add] at hone
  omega

/-- **A failed send** loses nothing, and fakes no acknowledgement, exactly if no node
command is in the packet. -/
theorem sendFails_iff (before assembly : List SenderAction) (id : UInt32) {r₀ r : SenderRun}
    (hassembles : ∀ a ∈ assembly, a.assembles = true)
    (hsafe : Admissible SenderRun.step SenderRun.Safe SenderRun.init
      (before ++ .openPacket id :: assembly ++ [.sendFails]))
    (hbefore : run SenderRun.step SenderRun.init before = some r₀) (hopen : r₀.tot = none)
    (hfresh : ∀ packet ∈ r₀.s.history.packets, packet.id ≠ id.toNat)
    (hrun : run SenderRun.step r₀ (.openPacket id :: assembly) = some r) :
    r₀.LosesNothing r ↔ r.NothingPacked := by
  rw [List.append_assoc] at hsafe
  have hsend := (hsafe.append_right hbefore).append_right hrun
  obtain ⟨r₀', hrun₀, hinv₀⟩ := run_induction (fun r a hinv hsafe => hinv.step a hsafe)
    SenderRun.inv_init hsafe.append_left
  rw [hbefore] at hrun₀
  obtain rfl := Option.some.inj hrun₀
  have hopen' : r₀.step (.openPacket id) = some { r₀ with
      s := { r₀.s with history := vPacketHistoryAddPacket r₀.s.history id.toNat }
      tot := some 0 } := by
    simp only [SenderRun.step, hopen]
  rw [run_cons hopen'] at hrun
  obtain ⟨r', hrun', hasm⟩ := assembling_run (hinv₀.openPacket id.toNat) (by simp) rfl hassembles
    ((hsafe.append_right hbefore).append_left.2 _ hopen')
  rw [hrun] at hrun'
  obtain rfl := Option.some.inj hrun'
  obtain ⟨cmds, new, hpackets, hcarried, hempty, hlast⟩ := hasm.packet
  obtain ⟨hfind, hlastId⟩ := findPacket_last hpackets hfresh
  have hpopped : r₀.poppedSince r = new.map fun t => t.2.2 := by
    rw [SenderRun.poppedSince, hcarried]
    simp
  have hget : r.s.history.packets[r₀.s.history.packets.length]? = some ⟨id.toNat, cmds⟩ := by
    simp [hpackets]
  obtain ⟨s', hres, hack⟩ := handleAck_spec
    (s := { r.s with sentSize := add32 r.s.sentSize (r.tot.getD 0) })
    hasm.inv.base.history hfind hpackets (hsend.1 hasm.tot _ _ (hlastId ▸ hfind) hget)
  constructor
  · rintro ⟨s'', destroyed, hres', hkept, -⟩
    rw [hlastId, hres] at hres'
    obtain ⟨rfl, -⟩ : s' = s'' ∧ _ := by simpa using hres'
    -- the command that went into the packet last is destroyed
    intro packet hpacket
    obtain rfl : packet = ⟨id.toNat, cmds⟩ := by simpa [hpackets] using hpacket.symm
    by_contra hne
    have hnew : new ≠ [] := fun hnil => hne (hempty.mpr hnil)
    obtain ⟨sa, hsa, hcmd⟩ := hlast _ (List.getLast?_eq_some_getLast hnew)
    have hsent : sa ∈ r.s.history.sent :=
      List.mem_flatMap.mpr ⟨⟨id.toNat, cmds⟩, by simp [hpackets], hsa⟩
    have hmem : (new.getLast hnew).2.2 ∈ r₀.poppedSince r := by
      rw [hpopped]
      exact List.mem_map.mpr ⟨_, List.getLast_mem hnew, rfl⟩
    rcases hkept _ hmem with ⟨p, hp⟩ | hlive
    · rw [hack.outQueue] at hp
      exact hasm.inv.not_queued_of_live hsent hcmd hp
    · have hnodup := Multiset.coe_nodup.mpr hasm.inv.nodup_live
      rw [← hack.live, Multiset.nodup_add] at hnodup
      exact Multiset.disjoint_left.mp hnodup.2.2 (Multiset.mem_coe.mpr hlive)
        (Multiset.mem_coe.mpr (List.mem_filterMap.mpr ⟨sa, hsa, hcmd⟩))
  · intro hnothing
    have hcmds : cmds = [] := hnothing ⟨id.toNat, cmds⟩ (by simp [hpackets])
    refine ⟨s', _, hlastId ▸ hres, ?_, ?_⟩
    · rw [hpopped, hempty.mp hcmds]
      simp
    · simp [hcmds]

/-- The send of a packet with one command fails. -/
theorem sendFails_iff_one : ∃ r₀ r,
    run SenderRun.step SenderRun.init [.pushTail true 128 (layerSetPush 5 7)] = some r₀ ∧
      run SenderRun.step r₀ [.openPacket 1, .popAdd 128 1500] = some r ∧
      (r₀.LosesNothing r ↔ r.NothingPacked) := by
  have hsome : (run SenderRun.step SenderRun.init onePacked).isSome = true := by decide +kernel
  obtain ⟨r, hrun⟩ := Option.isSome_iff_exists.mp hsome
  obtain ⟨r₀, hpush, hrest⟩ := Option.bind_eq_some_iff.mp hrun
  have hbefore : run SenderRun.step SenderRun.init [.pushTail true 128 (layerSetPush 5 7)] =
      some r₀ := by
    rw [run_cons hpush, run_nil]
  have hstate : (run SenderRun.step SenderRun.init [.pushTail true 128 (layerSetPush 5 7)]).map
      (fun r => (r.tot, r.s.history.packets)) = some (none, []) := by decide +kernel
  rw [hbefore, Option.map_some, Option.some.injEq, Prod.mk.injEq] at hstate
  refine ⟨r₀, r, hbefore, hrest, sendFails_iff [.pushTail true 128 (layerSetPush 5 7)]
    [.popAdd 128 1500] 1 (by simp [SenderAction.assembles]) ⟨pushSafe_one, fun r₁ h₁ => ⟨trivial,
      fun r₂ h₂ => ⟨fun _ => ?_, fun r₃ h₃ => ⟨fun _ => ?_, fun _ _ => trivial⟩⟩⟩⟩ hbefore
    hstate.1 (by simp [hstate.2]) hrest⟩
  · refine popSafe_one ?_
    rw [oneQueued, run_cons h₁, run_cons h₂, run_nil]
  · intro i packet _ hget
    have hrun' : run SenderRun.step SenderRun.init onePacked = some r₃ := by
      simp only [onePacked, oneQueued, List.cons_append, List.nil_append]
      rw [run_cons h₁, run_cons h₂, run_cons h₃, run_nil]
    obtain ⟨hcmds, hremovable⟩ := removable_one hrun' (List.mem_of_getElem? hget)
    rw [hcmds]
    exact hremovable

/-- `TagGroup_Destroy` for tag group 2 of node 1. -/
def tagGroupDestroy : GenericCmd := ⟨65, [1, 0, 0, 0, 2, 0], none⟩

theorem accepted_tagGroupDestroy : Accepted ⟨0, tagGroupDestroy⟩ := by
  have hnode : (cmdStruct 65).isNodeCmd = true := by decide +kernel
  exact accepted_of_isNodeCmd hnode

/-- A failed send tells the server that the peer has destroyed a tag group. -/
theorem sendFails_fakes :
    ¬ ∀ (before assembly : List SenderAction) (id : UInt32) (r₀ r : SenderRun),
      (∀ a ∈ assembly, a.assembles = true) →
      run SenderRun.step SenderRun.init before = some r₀ → r₀.tot = none →
      (∀ packet ∈ r₀.s.history.packets, packet.id ≠ id.toNat) →
      run SenderRun.step r₀ (.openPacket id :: assembly) = some r → r₀.LosesNothing r := by
  intro hall
  let push : List SenderAction := [.pushTail true 128 ⟨tagGroupDestroy, accepted_tagGroupDestroy⟩]
  let rest : List SenderAction := [.openPacket 1, .popAdd 128 1500]
  have hsome : (run SenderRun.step SenderRun.init (push ++ rest)).isSome = true := by decide +kernel
  obtain ⟨r, hrun⟩ := Option.isSome_iff_exists.mp hsome
  have hrun' := hrun
  rw [run_append] at hrun'
  obtain ⟨r₀, hbefore, hrest⟩ := Option.bind_eq_some_iff.mp hrun'
  have hstate : (run SenderRun.step SenderRun.init push).map
      (fun r => (r.tot, r.s.history.packets)) = some (none, []) := by decide +kernel
  rw [hbefore, Option.map_some, Option.some.injEq, Prod.mk.injEq] at hstate
  obtain ⟨s', destroyed, hres, -, hfake⟩ := hall push [.popAdd 128 1500] 1 r₀ r
    (by simp [SenderAction.assembles]) hbefore hstate.1 (by simp [hstate.2]) hrest
  have hafter : (run SenderRun.step SenderRun.init (push ++ rest)).bind (fun r =>
      (handleAck { r.s with sentSize := add32 r.s.sentSize (r.tot.getD 0) }
        r.s.history.lastId).map fun res => (res.2, r.acks)) =
      some ([⟨0, tagGroupDestroy⟩], []) := by decide +kernel
  rw [hrun, Option.bind_some, hres, Option.map_some, Option.some.injEq, Prod.mk.injEq] at hafter
  obtain ⟨hdestroyed, hacks⟩ := hafter
  change destroyed = [⟨0, tagGroupDestroy⟩] at hdestroyed
  have hin := hfake ⟨0, tagGroupDestroy⟩ (hdestroyed ▸ List.mem_singleton_self _)
    (by decide +kernel)
  rw [hacks] at hin
  cases hin

end Verse
