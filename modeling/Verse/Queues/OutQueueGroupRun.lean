import Verse.Queues.OutQueueGroups

/-!
# Groups in a run of the outgoing queue

What `_v_out_queue_command_add`, `_v_out_queue_push` and `v_out_queue_pop` do to the groups, one
function after the other, and the runs in which the records stay right.

A run is spoiled by three things.  A command that leaves its group, popped from it or moved to
another priority, leaves the length behind as it was.  The counter of a group of 65535 commands
wraps when one more joins.  And a pop that removes the bucket of another entry takes its command
away.
-/

namespace Verse

open Lib

variable {oq oq' : VOutQueue} {q : VCommandQueue} {qa : ℕ} {queueCmd : VOutQueueCommand}
  {cmd : CmdPtr}

/-! ## Addresses -/

theorem cmdStruct_fake : ∀ id < minCmdId, cmdStruct id = .reserved := by decide

theorem addrSize_le_keySize (id k : ℕ) : (cmdStruct id).addrSize k ≤ (cmdStruct id).keySize := by
  by_cases hnode : (cmdStruct id).isNodeCmd = true
  · exact (cmdStruct_sound hnode).addrSize_le_keySize k
  · rw [cmdStruct_unused (Bool.eq_false_iff.mpr hnode)]
    simp [CmdStruct.addrSize, CmdStruct.keyItems, CmdStruct.reserved, sizeSum]

/-- Commands that share their address have a fixed length. -/
theorem varLen_of_shares {id : ℕ} (hq : vCmdQueueCreate id true = some q)
    (hshares : (!q.notShareAddr) = true) : (cmdStruct id).varLen = false := by
  by_cases hmin : minCmdId ≤ id
  · rw [vCmdQueueCreate, if_pos hmin] at hq
    obtain rfl := Option.some.inj hq
    simpa [vNodeCmdQueueCreate] using hshares
  · rw [cmdStruct_fake id (Nat.lt_of_not_le hmin)]
    rfl

/-- A command that replaces another one has its address. -/
theorem Replaces.take_addrSize {old : CmdPtr} (h : Replaces cmd old) (k : ℕ) :
    old.cmd.data.take (old.cmd.layout.addrSize k) =
      cmd.cmd.data.take (old.cmd.layout.addrSize k) := by
  obtain ⟨q, hq, -, hid, hkey⟩ := h
  by_cases hmin : minCmdId ≤ cmd.id
  · rw [vCmdQueueCreate, if_pos hmin] at hq
    obtain rfl := Option.some.inj hq
    have hdata : old.cmd.data.take (cmdStruct cmd.id).keySize =
        cmd.cmd.data.take (cmdStruct cmd.id).keySize := by
      simpa [VCommandQueue.key, vNodeCmdQueueCreate, slice] using hkey
    have hle : old.cmd.layout.addrSize k ≤ (cmdStruct cmd.id).keySize := by
      rw [← hid]
      exact addrSize_le_keySize old.id k
    have htake : ∀ data : List UInt8, data.take (old.cmd.layout.addrSize k) =
        (data.take (cmdStruct cmd.id).keySize).take (old.cmd.layout.addrSize k) := by
      intro data
      rw [List.take_take, Nat.min_eq_left hle]
    rw [htake, hdata, ← htake]
  · have hres : old.cmd.layout = .reserved := by
      have hlt : old.id < minCmdId := hid ▸ Nat.lt_of_not_le hmin
      exact cmdStruct_fake _ hlt
    simp [hres, CmdStruct.addrSize, CmdStruct.keyItems, CmdStruct.reserved, sizeSum]

/-! ## Joining a group -/

/-- The counter of the group that a command joins does not wrap. -/
def VOutQueue.JoinFits (oq : VOutQueue) (head : Bool) (prio : ℕ) (cmd : CmdPtr) : Prop :=
  ∀ ba border g grp, oq.border head prio = some ba → oq.qheap ba = some border →
    border.id = cmd.id → border.group = some g → oq.groups g = some grp →
    grp.counter + 1 < 2 ^ 16

/-- What `_v_out_queue_command_add` does to the groups. -/
inductive JoinEffect (oq : VOutQueue) (head : Bool) (prio : ℕ) (shareAddr : Bool) (id : ℕ)
    (cmd : GenericCmd) (old : Option ℕ) : VOutQueue → Option ℕ → Prop
  | empty (hborder : oq.border head prio = none) : JoinEffect oq head prio shareAddr id cmd old oq old
  | apart : JoinEffect oq head prio shareAddr id cmd old oq none
  | pair {ba : ℕ} {border : VOutQueueCommand} {b : VBucket} (hshare : shareAddr = true)
      (hborder : oq.border head prio = some ba) (hqc : oq.qheap ba = some border)
      (hid : border.id = id) (hb : oq.table.heap border.vbucket = some b)
      (hgroup : border.group = none) :
      JoinEffect oq head prio shareAddr id cmd old
        { oq with
          groups := Function.update oq.groups oq.nextGroup
            (some ⟨2, (OutGroup.single b.data.cmd cmd).share,
              vCmdsLen cmd 2 (OutGroup.single b.data.cmd cmd).share
                (OutGroup.single b.data.cmd cmd).len⟩)
          nextGroup := oq.nextGroup + 1
          qheap := Function.update oq.qheap ba (some { border with group := some oq.nextGroup }) }
        (some oq.nextGroup)
  | grown {ba g : ℕ} {border : VOutQueueCommand} {b : VBucket} {grp : OutGroup}
      (hshare : shareAddr = true) (hborder : oq.border head prio = some ba)
      (hqc : oq.qheap ba = some border) (hid : border.id = id)
      (hb : oq.table.heap border.vbucket = some b) (hgroup : border.group = some g)
      (hgrp : oq.groups g = some grp) :
      JoinEffect oq head prio shareAddr id cmd old
        { oq with groups := Function.update oq.groups g (some (grp.join b.data.cmd cmd)) } (some g)

theorem joinGroup_effect {head : Bool} {prio : ℕ} {shareAddr : Bool} {id : ℕ}
    {old group : Option ℕ} {cmd : GenericCmd}
    (h : joinGroup oq head prio shareAddr id old cmd = some (oq', group)) :
    JoinEffect oq head prio shareAddr id cmd old oq' group := by
  unfold joinGroup at h
  split at h
  case h_1 hborder =>
    cases h
    exact .empty hborder
  case h_2 ba hborder =>
    split at h
    case h_1 => cases h
    case h_2 border hqc =>
      split at h
      case isFalse =>
        cases h
        exact .apart
      case isTrue hboth =>
        obtain ⟨hshare, hid⟩ := Bool.and_eq_true_iff.mp hboth
        have hid : border.id = id := of_decide_eq_true hid
        split at h
        case h_1 => cases h
        case h_2 b hb =>
          split at h
          case h_1 hgroup =>
            cases h
            exact .pair hshare hborder hqc hid hb hgroup
          case h_2 g hgroup =>
            split at h
            case h_1 => cases h
            case h_2 grp hgrp =>
              cases h
              exact .grown hshare hborder hqc hid hb hgroup hgrp

/-- A bucket does not matter to the groups. -/
theorem attachBucket_groups {prio : ℕ} (h : attachBucket oq q prio qa cmd = some oq') :
    oq'.groupView.group = oq.groupView.group ∧ oq'.groups = oq.groups := by
  unfold attachBucket at h
  split at h
  case h_2 => cases h
  case h_1 c table a hqc hadd =>
    cases h
    refine ⟨?_, rfl⟩
    funext x
    by_cases hx : x = qa
    · simp [VOutQueue.groupView, hx, hqc]
    · simp [VOutQueue.groupView, Function.update_of_ne hx]

/-- An entry that enters a list with a bucket for `cmd`. -/
theorem VOutQueue.Inv.enter_view (h : oq.Inv (some qa)) (hlt : qa < oq.next) {head : Bool} {prio : ℕ}
    {shareAddr : Bool} (hprio : queueCmd.prio = prio) (hid : queueCmd.id = cmd.id)
    (hgroup : queueCmd.group = none) (hq : vCmdQueueCreate cmd.id true = some q) (hkeyed : q.Keyed)
    {oq₁ oq₂ : VOutQueue}
    (hadd : vOutQueueCommandAdd oq head prio shareAddr qa queueCmd cmd.cmd = some oq₁)
    (hattach : attachBucket oq₁ q prio qa cmd = some oq₂) :
    ∃ oq₀ group, JoinEffect oq head prio shareAddr cmd.id cmd.cmd none oq₀ group ∧
      oq₂.groupView =
        { queues := Function.update oq.queues prio (place head qa (oq.queues prio))
          group := Function.update oq₀.groupView.group qa group
          cmd := Function.update oq.cmdAt qa (some cmd)
          records := oq₀.groups } := by
  obtain ⟨oq₁', oq₂', hadd', hattach', -, hqueues, hcmdAt⟩ :=
    h.insert queueCmd hlt head hprio hid (fun g hg => by simp [hgroup] at hg) hq hkeyed shareAddr
  obtain rfl := Option.some.inj (hadd.symm.trans hadd')
  obtain rfl := Option.some.inj (hattach.symm.trans hattach')
  obtain ⟨hgroups, hrecords⟩ := attachBucket_groups hattach
  unfold vOutQueueCommandAdd at hadd
  split at hadd
  case h_1 => cases hadd
  case h_2 oq₀ group hjoin =>
    have heffect := joinGroup_effect hjoin
    rw [hid, hgroup] at heffect
    refine ⟨oq₀, group, heffect, ?_⟩
    cases hadd
    have hqa : oq₂.groupView.group = Function.update oq₀.groupView.group qa group := by
      rw [hgroups]
      funext x
      by_cases hx : x = qa
      · simp [VOutQueue.groupView, hx]
      · simp [VOutQueue.groupView, Function.update_of_ne hx]
    rw [← hqueues, ← hcmdAt, ← hqa, ← hrecords]
    rfl

/-- The address that is shared after one more command joined. -/
theorem OutGroup.join_share {grp : OutGroup} {border cmd : GenericCmd}
    (hvar : border.layout.varLen = false)
    (hshare : ∃ i ≤ border.layout.keyCount, grp.share = border.layout.addrSize i) :
    (∃ k ≤ border.layout.keyCount, (grp.join border cmd).share = border.layout.addrSize k) ∧
      (grp.join border cmd).share ≤ grp.share ∧
      border.data.take (grp.join border cmd).share = cmd.data.take (grp.join border cmd).share := by
  obtain ⟨i, hi, hgrp⟩ := hshare
  by_cases hpos : 0 < grp.share
  · have hjoin : (grp.join border cmd).share = vCmdCmpAddr border cmd grp.share := if_pos hpos
    obtain ⟨hsize, hagree, hle⟩ := vCmdCmpAddr_addrSize cmd hvar grp.share
    rw [hjoin]
    exact ⟨hsize, hle i hi hgrp, hagree⟩
  · have hjoin : (grp.join border cmd).share = grp.share := if_neg hpos
    have hzero : grp.share = 0 := Nat.eq_zero_of_not_pos hpos
    rw [hjoin]
    exact ⟨⟨i, hi, hgrp⟩, le_rfl, by simp [hzero]⟩

/-- **An entry that enters a list** keeps the records right. -/
theorem VOutQueue.Inv.enter_consistent (h : oq.Inv (some qa)) (hg : oq.groupView.Consistent)
    (hlt : qa < oq.next) {head : Bool} {prio : ℕ} (hprio : queueCmd.prio = prio)
    (hid : queueCmd.id = cmd.id) (hgroup : queueCmd.group = none)
    (hq : vCmdQueueCreate cmd.id true = some q) (hkeyed : q.Keyed)
    (hfits : oq.JoinFits head prio cmd) {oq₁ oq₂ : VOutQueue}
    (hadd : vOutQueueCommandAdd oq head prio (!q.notShareAddr) qa queueCmd cmd.cmd = some oq₁)
    (hattach : attachBucket oq₁ q prio qa cmd = some oq₂) : oq₂.groupView.Consistent := by
  have hnew : ∀ p, qa ∉ oq.groupView.queues p := fun p hmem => ((h.queued p qa).mp hmem).1 rfl
  have hborderCmd : ∀ {ba : ℕ} {border : VOutQueueCommand} {b : VBucket},
      oq.border head prio = some ba → oq.qheap ba = some border → border.id = cmd.id →
      oq.table.heap border.vbucket = some b → oq.cmdAt ba = some b.data ∧ b.data.cmd.id = cmd.cmd.id := by
    intro ba border b hborder hqc hbid hb
    obtain ⟨hne, -⟩ := h.border_ne hborder
    obtain ⟨b', hb', -, hid'⟩ := h.bucket ba border hne hqc
    obtain rfl := Option.some.inj (hb.symm.trans hb')
    exact ⟨by simp [VOutQueue.cmdAt, hqc, hb], UInt8.toNat_inj.mp (hid'.trans hbid)⟩
  obtain ⟨oq₀, group, heffect, hview⟩ := h.enter_view hlt hprio hid hgroup hq hkeyed hadd hattach
  rw [hview]
  cases heffect with
  | empty => exact hg.enterAlone hnew
  | apart => exact hg.enterAlone hnew
  | @pair ba border b hshare hborder hqc hbid hb hbgroup =>
      obtain ⟨hcmd, hcid⟩ := hborderCmd hborder hqc hbid hb
      obtain ⟨hne, border', hqc', hbprio⟩ := h.border_ne hborder
      obtain rfl := Option.some.inj (hqc.symm.trans hqc')
      have hvar : b.data.cmd.layout.varLen = false := by
        rw [layout_eq hcid]
        exact varLen_of_shares hq hshare
      have hmem : ba ∈ oq.queues prio := hbprio ▸ h.mem_queue hne hqc
      have hunique : ∀ p, ba ∈ oq.queues p → p = prio := by
        intro p hp
        obtain ⟨-, c, hc, hcp⟩ := (h.queued p ba).mp hp
        obtain rfl := Option.some.inj (hqc.symm.trans hc)
        exact hcp.symm.trans hbprio
      obtain ⟨hsize, hagree, -⟩ := vCmdCmpAddr_addrSize cmd.cmd hvar 0xFF
      have hfound := hg.found hmem hunique (h.nodup prio)
        (show oq.groupView.group ba = none by simp [VOutQueue.groupView, hqc, hbgroup])
        (h.groupFresh oq.nextGroup le_rfl) hcmd hvar
        (show (OutGroup.single b.data.cmd cmd.cmd).counter = 1 from rfl) hsize rfl
      have hjoin := @GroupView.Consistent.join _ _ _ head prio cmd hfound hnew ba b.data
        (OutGroup.single b.data.cmd cmd.cmd)
        ⟨2, (OutGroup.single b.data.cmd cmd.cmd).share,
          vCmdsLen cmd.cmd 2 (OutGroup.single b.data.cmd cmd.cmd).share
            (OutGroup.single b.data.cmd cmd.cmd).len⟩ hborder (Function.update_self _ _ _)
        (Function.update_self _ _ _) hcmd hcid rfl hsize le_rfl hagree
        (vCmdsLen_of_id hcid.symm (layout_eq hcid ▸ hvar) _ _ _)
      have hpoint : (fun x => (Function.update oq.qheap ba
          (some { border with group := some oq.nextGroup }) x).bind (·.group)) =
          Function.update oq.groupView.group ba (some oq.nextGroup) := by
        funext x
        by_cases hx : x = ba
        · simp [hx]
        · simp [VOutQueue.groupView, Function.update_of_ne hx]
      simp only [GroupView.enter, GroupView.record, GroupView.point, Function.update_idem] at hjoin
      rw [← hpoint] at hjoin
      exact hjoin
  | @grown ba g border b grp hshare hborder hqc hbid hb hbgroup hgrp =>
      obtain ⟨hcmd, hcid⟩ := hborderCmd hborder hqc hbid hb
      have hvar : b.data.cmd.layout.varLen = false := by
        rw [layout_eq hcid]
        exact varLen_of_shares hq hshare
      have hpoint : oq.groupView.group ba = some g := by simp [VOutQueue.groupView, hqc, hbgroup]
      obtain ⟨p, hstands⟩ := hg.stands g grp hgrp
      obtain ⟨hne, border', hqc', hbprio⟩ := h.border_ne hborder
      have hmem : b.data ∈ oq.groupView.cmds g p := by
        have hin : ba ∈ oq.groupView.members g prio :=
          GroupView.mem_members.mpr ⟨GroupView.border_mem hborder, hpoint⟩
        obtain rfl : prio = p := by
          by_contra hnot
          rw [hstands.only prio hnot] at hin
          cases hin
        exact GroupView.mem_cmds.mpr ⟨ba, GroupView.border_mem hborder, hpoint, hcmd⟩
      obtain ⟨hsize, hle, hagree⟩ :=
        @OutGroup.join_share grp b.data.cmd cmd.cmd hvar (hstands.describes.share _ hmem)
      have hcounter : (grp.join b.data.cmd cmd.cmd).counter = grp.counter + 1 :=
        Nat.mod_eq_of_lt (hfits ba border g grp hborder hqc hbid hbgroup hgrp)
      exact hg.join hnew hborder hpoint hgrp hcmd hcid hcounter hsize hle hagree
        (vCmdsLen_of_id hcid.symm (layout_eq hcid ▸ hvar) _ _ _)

/-! ## The functions of the queue -/

/-- A new entry. -/
theorem vOutQueueCommandCreate_consistent (h : oq.Inv none) (hg : oq.groupView.Consistent)
    (hq : vCmdQueueCreate cmd.id true = some q) (hkeyed : q.Keyed) {head limits : Bool} {prio : ℕ}
    (hfits : oq.JoinFits head prio cmd)
    (hres : vOutQueueCommandCreate oq q head limits prio cmd = some (some oq')) :
    oq'.groupView.Consistent := by
  unfold vOutQueueCommandCreate at hres
  dsimp only at hres
  split at hres
  case isTrue => cases hres
  case isFalse =>
    split at hres
    case h_1 => cases hres
    case h_2 oq₁ hadd =>
      split at hres
      case h_1 => cases hres
      case h_2 oq₂ hattach =>
        cases hres
        have henter : oq₂.groupView.Consistent := by
          refine h.alloc.enter_consistent hg (Nat.lt_succ_self _) (by rfl) (by rfl) (by rfl) hq
            hkeyed ?_ hadd hattach
          exact hfits
        exact henter

/-- An entry in no group goes to another priority. -/
theorem changePriority_consistent (h : oq.Inv none) (hg : oq.groupView.Consistent)
    (hqc : oq.qheap qa = some queueCmd) {b : VBucket}
    (hb : oq.table.heap queueCmd.vbucket = some b) (hid : b.data.id = cmd.id)
    (hq : vCmdQueueCreate cmd.id true = some q) (hkeyed : q.Keyed)
    (hfirst : vHashArrayFindItem oq.table q b.data.cmd = some (some queueCmd.vbucket))
    (hgroup : queueCmd.group = none) {head : Bool} {prio : ℕ} (hne : queueCmd.prio ≠ prio)
    (hfits : oq.JoinFits head prio cmd)
    (hres : changePriority oq q head prio qa queueCmd b.data cmd = some oq') :
    oq'.groupView.Consistent := by
  have hqb : vCmdQueueCreate b.data.id true = some q := by rw [hid, hq]
  have hremove := vHashArrayRemoveItem_of_find h.wf hqb hkeyed hfirst
  simp only [changePriority, hremove, hgroup, dropGroup, Option.bind_none] at hres
  split at hres
  case h_1 => cases hres
  case h_2 oq₁ hadd =>
    have hinv := h.detach hqc hb hqb
      (Function.update oq.prioCount queueCmd.prio (dec32 (oq.prioCount queueCmd.prio)))
      (Function.update oq.prioSize queueCmd.prio (sub32 (oq.prioSize queueCmd.prio) q.itemSize))
      oq.count oq.size
    refine hinv.enter_consistent ?_ (h.lt_next hqc) (by rfl) (by rfl) (by rfl) hq hkeyed ?_ hadd hres
    · have hpoint : oq.groupView.group qa = none := by simp [VOutQueue.groupView, hqc, hgroup]
      have hleave := hg.leave hpoint queueCmd.prio
      have hcmdAt := @VOutQueue.Inv.cmdAt_detach oq q qa queueCmd h hqc b.data.cmd
        (Function.update oq.queues queueCmd.prio ((oq.queues queueCmd.prio).erase qa))
        (Function.update oq.prioCount queueCmd.prio (dec32 (oq.prioCount queueCmd.prio)))
        (Function.update oq.prioSize queueCmd.prio (sub32 (oq.prioSize queueCmd.prio) q.itemSize))
        oq.count oq.size
      rw [VOutQueue.groupView, hcmdAt]
      exact hleave
    · intro ba border g grp hborder hbqc hbid hbgroup hgrp
      refine hfits ba border g grp ?_ hbqc hbid hbgroup hgrp
      have hqueue : Function.update oq.queues queueCmd.prio ((oq.queues queueCmd.prio).erase qa) prio =
          oq.queues prio := Function.update_of_ne hne.symm _ _
      simpa only [VOutQueue.border, hqueue] using hborder

/-- The entry at the head, which is in no group, is popped. -/
theorem popHead_consistent (hg : oq.groupView.Consistent) {prio : ℕ}
    {rest : List ℕ} (hqueue : oq.queues prio = qa :: rest) (hqc : oq.qheap qa = some queueCmd)
    {b : VBucket} (hgroup : queueCmd.group = none)
    (heffect : PopEffect oq oq' prio b.data qa rest)
    (hres : popHead oq prio qa rest queueCmd b.data = some oq') : oq'.groupView.Consistent := by
  have hpoint : oq.groupView.group qa = none := by simp [VOutQueue.groupView, hqc, hgroup]
  have hleave := hg.leave hpoint prio
  unfold popHead at hres
  split at hres
  case h_1 => cases hres
  case h_2 q hq =>
    split at hres
    case h_1 => cases hres
    case h_2 table found hremove =>
      rw [hgroup] at hres
      dsimp only [dropGroup] at hres
      have hcmdAt := heffect.cmdAt'
      have hqueues := heffect.queues'
      have herase : rest = (oq.queues prio).erase qa := by simp [hqueue]
      obtain ⟨maxPrio, minPrio, hprios⟩ := VOutQueue.updatePrios_eq
        { oq with
          table := table
          queues := Function.update oq.queues prio rest
          count := dec32 oq.count
          size := sub32 oq.size q.itemSize
          prioCount := Function.update oq.prioCount prio (dec32 (oq.prioCount prio))
          prioSize := Function.update oq.prioSize prio (sub32 (oq.prioSize prio) q.itemSize) } prio
      rw [hprios] at hres
      cases hres
      -- the freed entry pointed to no record, so no pointer changes
      have hgroups : (fun x => (Function.update oq.qheap qa none x).bind (·.group)) =
          oq.groupView.group := by
        funext x
        by_cases hx : x = qa
        · simp [hx, hpoint]
        · simp [VOutQueue.groupView, Function.update_of_ne hx]
      have hview : ∀ oq₁ : VOutQueue, oq₁.cmdAt = Function.update oq.cmdAt qa none →
          oq₁.queues = Function.update oq.queues prio rest →
          oq₁.qheap = Function.update oq.qheap qa none → oq₁.groups = oq.groups →
          oq₁.groupView = oq.groupView.leave prio qa := by
        intro oq₁ hcmd hqueues hheap hrecords
        rw [VOutQueue.groupView, hcmd, hqueues, hheap, hrecords, hgroups, herase]
        rfl
      rw [hview _ hcmdAt rfl rfl rfl]
      exact hleave

/-- What a push does: it makes a new entry unless the queue is full, it moves the entry of the
command that is replaced, or it gives that entry the new command. -/
theorem vOutQueuePush_cases (h : oq.Inv none) (hq : vCmdQueueCreate cmd.id true = some q)
    (hkeyed : q.Keyed) {head limits pushed : Bool} {prio : ℕ} {old : Option CmdPtr}
    (hres : vOutQueuePush oq head limits prio cmd = some (oq', pushed, old)) :
    (oq.twin cmd = none ∧
        (oq' = oq ∨ vOutQueueCommandCreate oq q head limits prio cmd = some (some oq'))) ∨
      ∃ qa queueCmd b, oq.twin cmd = some qa ∧ oq.qheap qa = some queueCmd ∧
        oq.table.heap queueCmd.vbucket = some b ∧ Replaces cmd b.data ∧
        vHashArrayFindItem oq.table q b.data.cmd = some (some queueCmd.vbucket) ∧
        ((queueCmd.prio ≠ prio ∧ changePriority oq q head prio qa queueCmd b.data cmd = some oq') ∨
          oq' = { oq with table := oq.table.write queueCmd.vbucket { b with data := cmd } }) := by
  unfold vOutQueuePush at hres
  rw [hq] at hres
  dsimp only at hres
  split at hres
  case h_1 => cases hres
  case h_2 hfound =>
    left
    refine ⟨?_, ?_⟩
    · unfold VOutQueue.twin
      rw [hq]
      dsimp only
      split
      case isTrue hdups =>
        rw [if_pos hdups] at hfound
        rw [hfound]
      case isFalse => rfl
    · split at hres
      case h_1 => cases hres
      case h_2 => cases hres; exact Or.inl rfl
      case h_3 hcreate => cases hres; exact Or.inr hcreate
  case h_3 a hfound =>
    right
    have hdups : q.removeHashDups = true := by
      by_contra hnot
      rw [if_neg hnot] at hfound
      cases hfound
    rw [if_pos hdups] at hfound
    obtain ⟨b, qa, queueCmd, hb, hptr, hqc, hbucket, hrep, htwin, hfirst⟩ :=
      h.twin_of_find hq hkeyed hdups hfound
    subst hbucket
    rw [hb] at hres
    dsimp only at hres
    rw [hptr] at hres
    dsimp only at hres
    rw [hqc] at hres
    dsimp only at hres
    refine ⟨qa, queueCmd, b, htwin, hqc, hb, hrep, hfirst, ?_⟩
    split at hres
    case isTrue hne =>
      obtain ⟨oq₁, hchange, heq⟩ := Option.map_eq_some_iff.mp hres
      cases heq
      exact Or.inl ⟨hne, hchange⟩
    case isFalse =>
      cases hres
      exact Or.inr (by rw [hptr])

/-- A push to the head that goes through is a push. -/
theorem vOutQueuePush_of_head {prio : ℕ} {old : Option CmdPtr}
    (hres : vOutQueuePushHead oq prio cmd = some (oq', true, old)) :
    vOutQueuePush oq true false prio cmd = some (oq', true, old) := by
  unfold vOutQueuePushHead at hres
  split at hres
  case h_1 => cases hres
  case h_2 =>
    split at hres
    case isFalse => exact hres
    case isTrue =>
      split at hres
      case h_1 => cases hres
      case h_2 => cases hres
      case h_3 => exact hres

/-- What a pop that gives a command does. -/
theorem popHead_of_vOutQueuePop {prio len : ℕ} {cmd : CmdPtr} {plan : PopPlan}
    (hres : vOutQueuePop oq prio len = some (oq', some (cmd, plan))) :
    ∃ qa rest queueCmd b group, oq.queues prio = qa :: rest ∧ oq.qheap qa = some queueCmd ∧
      oq.table.heap queueCmd.vbucket = some b ∧ oq.groupOf queueCmd = some group ∧
      (popPlan b.data.cmd group len).canPop = true ∧ b.data = cmd ∧
      popHead oq prio qa rest queueCmd b.data = some oq' := by
  unfold vOutQueuePop at hres
  split at hres
  case h_1 => cases hres
  case h_2 qa rest hqueue =>
    split at hres
    case h_1 => cases hres
    case h_2 queueCmd hqc =>
      split at hres
      case h_2 => cases hres
      case h_1 b group hb hgroup =>
        dsimp only at hres
        split at hres
        case isFalse => cases hres
        case isTrue hpop =>
          obtain ⟨oq₁, hhead, heq⟩ := Option.map_eq_some_iff.mp hres
          cases heq
          exact ⟨qa, rest, queueCmd, b, group, hqueue, hqc, hb, hgroup, hpop, rfl, hhead⟩

/-! ## Steps -/

/-- There is no room for a new entry. -/
def VOutQueue.isFull (oq : VOutQueue) (limits : Bool) (cmd : CmdPtr) : Bool :=
  limits && oq.maxSize < add32 oq.size (itemSizeOf cmd.id)

/-- A push keeps the records right: the entry that moves is in no group, and the counter of the
group it joins does not wrap. -/
def VOutQueue.PushKeeps (oq : VOutQueue) (head limits : Bool) (prio : ℕ) (cmd : CmdPtr) : Prop :=
  match oq.twin cmd with
  | none => oq.isFull limits cmd = false → oq.JoinFits head prio cmd
  | some qa => ∀ queueCmd, oq.qheap qa = some queueCmd → queueCmd.prio ≠ prio →
      queueCmd.group = none ∧ oq.JoinFits head prio cmd

/-- A pop keeps the records right: what is popped has its own bucket first and is in no group. -/
def VOutQueue.PopKeeps (oq : VOutQueue) (prio len : ℕ) : Prop :=
  ∀ qa rest queueCmd b group q, oq.queues prio = qa :: rest → oq.qheap qa = some queueCmd →
    oq.table.heap queueCmd.vbucket = some b → oq.groupOf queueCmd = some group →
    (popPlan b.data.cmd group len).canPop = true → vCmdQueueCreate b.data.id true = some q →
    vHashArrayFindItem oq.table q b.data.cmd = some (some queueCmd.vbucket) ∧ queueCmd.group = none

/-- The steps that keep the records right. -/
def VOutQueue.KeepsGroups (oq : VOutQueue) : OutAction → Prop
  | .pushTail limits prio cmd => oq.PushKeeps false limits prio.toNat cmd.1
  | .pushHead prio cmd => oq.twin cmd.1 = none → oq.JoinFits true prio.toNat cmd.1
  | .pop prio len => oq.PopKeeps prio.toNat len.toNat

theorem lastOfGroup_of_none (hgroup : queueCmd.group = none) : oq.LastOfGroup qa queueCmd := by
  intro g grp hg
  rw [hgroup] at hg
  cases hg

/-- **A push** keeps the records right. -/
theorem vOutQueuePush_consistent (h : oq.Inv none) (hg : oq.groupView.Consistent)
    (hacc : Accepted cmd) {head limits : Bool} {prio : ℕ}
    (hkeeps : oq.PushKeeps head limits prio cmd) :
    ∃ oq' pushed old, vOutQueuePush oq head limits prio cmd = some (oq', pushed, old) ∧
      oq'.Inv none ∧ oq'.groupView.Consistent := by
  have hsafe : oq.PushSafe prio cmd := by
    intro qa queueCmd htwin hqc hne
    rw [VOutQueue.PushKeeps, htwin] at hkeeps
    exact lastOfGroup_of_none (hkeeps queueCmd hqc hne).1
  obtain ⟨oq', pushed, old, hres, hinv, -, -⟩ := vOutQueuePush_spec h hacc head limits hsafe
  refine ⟨oq', pushed, old, hres, hinv, ?_⟩
  obtain ⟨q, hq, hkeyed⟩ := hacc
  rcases vOutQueuePush_cases h hq hkeyed hres with
    ⟨htwin, rfl | hcreate⟩ | ⟨qa, queueCmd, b, htwin, hqc, hb, hrep, hfirst, hmoved | rfl⟩
  · exact hg
  · rw [VOutQueue.PushKeeps, htwin] at hkeeps
    refine vOutQueueCommandCreate_consistent h hg hq hkeyed (hkeeps ?_) hcreate
    -- a full queue makes no entry
    by_contra hfull
    have hfull : (limits && oq.maxSize < add32 oq.size q.itemSize) = true := by
      rw [← itemSizeOf_eq hq]
      exact Bool.eq_true_of_not_eq_false hfull
    simp only [vOutQueueCommandCreate, hfull, if_true] at hcreate
    cases hcreate
  · rw [VOutQueue.PushKeeps, htwin] at hkeeps
    obtain ⟨hne, hchange⟩ := hmoved
    obtain ⟨hgroup, hfits⟩ := hkeeps queueCmd hqc hne
    have hid : b.data.id = cmd.id := by
      obtain ⟨-, -, -, hid, -⟩ := hrep
      exact hid
    exact changePriority_consistent h hg hqc hb hid hq hkeyed hfirst hgroup hne hfits hchange
  · have hold : oq.groupView.cmd qa = some b.data := by
      simp [VOutQueue.groupView, VOutQueue.cmdAt, hqc, hb]
    have hid : b.data.cmd.id = cmd.cmd.id := by
      obtain ⟨-, -, -, hid, -⟩ := hrep
      exact UInt8.toNat_inj.mp hid
    have hrewrite := hg.rewrite hold hid hrep.take_addrSize
    rw [VOutQueue.groupView, h.cmdAt_rewrite cmd hqc]
    exact hrewrite

/-- **A step** keeps the records right. -/
theorem VOutQueue.Inv.step_consistent (h : oq.Inv none) (hg : oq.groupView.Consistent)
    {a : OutAction} (hkeeps : oq.KeepsGroups a) :
    ∃ oq', oq.step a = some oq' ∧ oq'.Inv none ∧ oq'.groupView.Consistent := by
  cases a with
  | pushTail limits prio cmd =>
      obtain ⟨oq', pushed, old, hres, hinv, hcons⟩ := vOutQueuePush_consistent h hg cmd.2 hkeeps
      exact ⟨oq', by simp [VOutQueue.step, vOutQueuePushTail, hres], hinv, hcons⟩
  | pushHead prio cmd =>
      rcases vOutQueuePushHead_spec h cmd.2 prio.toNat with
        ⟨qa, -, hres⟩ | ⟨oq', htwin, hres, hinv, -, -⟩
      · exact ⟨oq, by simp [VOutQueue.step, hres], h, hg⟩
      · have hpush : oq.PushKeeps true false prio.toNat cmd.1 := by
          rw [VOutQueue.PushKeeps, htwin]
          exact fun _ => hkeeps htwin
        obtain ⟨oq₁, pushed, old, hres₁, -, hcons⟩ := vOutQueuePush_consistent h hg cmd.2 hpush
        obtain ⟨rfl, -⟩ := Prod.mk.inj (Option.some.inj (hres₁.symm.trans (vOutQueuePush_of_head hres)))
        exact ⟨oq₁, by simp [VOutQueue.step, hres], hinv, hcons⟩
  | pop prio len =>
      have hsafe : oq.PopSafe prio.toNat len.toNat := by
        intro qa rest queueCmd b group q hqueue hqc hb hgroup hpop hq
        obtain ⟨hfirst, hnone⟩ := hkeeps qa rest queueCmd b group q hqueue hqc hb hgroup hpop hq
        exact ⟨hfirst, lastOfGroup_of_none hnone⟩
      rcases vOutQueuePop_spec h hsafe with hres | ⟨oq', cmd, plan, qa, rest, hres, hinv, heffect⟩
      · exact ⟨oq, by simp [VOutQueue.step, hres], h, hg⟩
      · refine ⟨oq', by simp [VOutQueue.step, hres], hinv, ?_⟩
        obtain ⟨qa', rest', queueCmd, b, group, hqueue, hqc, hb, hgroup, hpop, rfl, hhead⟩ :=
          popHead_of_vOutQueuePop hres
        obtain ⟨q, hq, -⟩ := h.accepted _ b hb
        obtain ⟨-, hnone⟩ := hkeeps qa' rest' queueCmd b group q hqueue hqc hb hgroup hpop hq
        obtain ⟨rfl, rfl⟩ := List.cons.inj (hqueue.symm.trans heffect.head)
        exact popHead_consistent hg hqueue hqc hnone heffect hhead

/-! ## Runs -/

theorem vOutQueueCreate_consistent : vOutQueueCreate.groupView.Consistent where
  live p qa hmem := by simp [VOutQueue.groupView, vOutQueueCreate] at hmem
  stands g grp hgrp := by simp [VOutQueue.groupView, vOutQueueCreate] at hgrp

/-- **Groups.**  A run in which no command leaves a group, no counter wraps and every pop finds its
own bucket first goes through, and the records are those of the groups. -/
theorem outQueue_consistent (actions : List OutAction)
    (hkeeps : Admissible VOutQueue.step VOutQueue.KeepsGroups vOutQueueCreate actions) :
    ∃ oq, run VOutQueue.step vOutQueueCreate actions = some oq ∧ oq.groupView.Consistent := by
  have hstep : ∀ (oq : VOutQueue) (a : OutAction), oq.Inv none ∧ oq.groupView.Consistent →
      oq.KeepsGroups a → ∃ oq', oq.step a = some oq' ∧ oq'.Inv none ∧ oq'.groupView.Consistent :=
    fun oq a h hkeeps => h.1.step_consistent h.2 hkeeps
  obtain ⟨oq, hrun, -, hcons⟩ := run_induction hstep
    ⟨VOutQueue.inv_create, vOutQueueCreate_consistent⟩ hkeeps
  exact ⟨oq, hrun, hcons⟩

/-- Two values of one layer are pushed: their group has a record with counter 2. -/
theorem outQueue_consistent_push_push :
    ∃ oq, run VOutQueue.step vOutQueueCreate
        [.pushTail true 128 (layerSetCmd 0 5 7), .pushTail true 128 (layerSetCmd 1 6 7)] = some oq ∧
      oq.groupView.Consistent := by
  refine outQueue_consistent _ ⟨?_, fun oq hs => ⟨?_, fun _ _ => trivial⟩⟩
  · have htwin : vOutQueueCreate.twin (layerSetCmd 0 5 7).1 = none := by decide +kernel
    simp only [VOutQueue.KeepsGroups, VOutQueue.PushKeeps, htwin]
    intro _ ba border g grp hborder
    simp [VOutQueue.border, vOutQueueCreate] at hborder
  · have hstate : (vOutQueueCreate.step (.pushTail true 128 (layerSetCmd 0 5 7))).map (fun oq =>
        (oq.twin (layerSetCmd 1 6 7).1, oq.queues 128, (oq.qheap 0).map (·.group))) =
        some (none, [0], some none) := by decide +kernel
    rw [hs, Option.map_some, Option.some.injEq, Prod.mk.injEq, Prod.mk.injEq] at hstate
    obtain ⟨htwin, hqueue, hentry⟩ := hstate
    simp only [VOutQueue.KeepsGroups, VOutQueue.PushKeeps, htwin]
    intro _ ba border g grp hborder hqc _ hgroup
    have hqueue' : oq.queues (UInt8.toNat 128) = [0] := hqueue
    rw [VOutQueue.border, hqueue'] at hborder
    obtain rfl : 0 = ba := Option.some.inj hborder
    rw [hqc, Option.map_some, hgroup] at hentry
    cases hentry

/-- One of them is popped: the length of the other is that of two. -/
theorem outQueue_not_consistent :
    ¬ ∀ actions oq, run VOutQueue.step vOutQueueCreate actions = some oq →
      oq.groupView.Consistent := by
  intro hall
  have hstate : (run VOutQueue.step vOutQueueCreate [.pushTail true 128 (layerSetCmd 0 5 7),
      .pushTail true 128 (layerSetCmd 1 6 7), .pop 128 1500]).map (fun oq =>
        (oq.queues 128, oq.groupView.group 1, oq.groups 0, oq.cmdAt 1)) =
      some ([1], some 0, some ⟨1, 6, 19⟩, some ⟨1, layerSetUint8 6 7⟩) := by decide +kernel
  obtain ⟨oq, hrun, hdata⟩ := Option.map_eq_some_iff.mp hstate
  simp only [Prod.mk.injEq] at hdata
  obtain ⟨hqueue, hgroup, hrec, hcmd⟩ := hdata
  obtain ⟨p, hstands⟩ := (hall _ oq hrun).stands 0 _ hrec
  have hmem : 1 ∈ oq.queues 128 := by
    rw [hqueue]
    exact List.mem_singleton_self 1
  obtain rfl : 128 = p := by
    by_contra hne
    have hnone := hstands.only 128 hne
    rw [List.eq_nil_iff_forall_not_mem] at hnone
    exact hnone 1 (GroupView.mem_members.mpr ⟨hmem, hgroup⟩)
  have hlen := hstands.describes.len _ (GroupView.mem_cmds.mpr ⟨1, hmem, hgroup, hcmd⟩)
  exact absurd hlen (by decide +kernel)

end Verse
