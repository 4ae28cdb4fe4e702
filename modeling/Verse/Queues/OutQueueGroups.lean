import Verse.Commands.SharedAddress
import Verse.Lib.Together
import Verse.Queues.OutQueueBooks

/-!
# The groups of the outgoing queue

Commands of one id that stand next to each other in a list share a record: how many they are,
how much of the address they have in common, and how long they are together.
`GroupView` is the queue without its buckets and counts, and what a push and a pop do to the
groups is said on it.

The record is made and kept up to date by the command that joins; nobody brings it up to date
when a command leaves.  So the records are right in every run in which no command leaves a
group, that is, is popped from it or moved to another priority, and no group has more than
65535 commands.
-/

namespace Verse

open Lib

/-! ## What a record says -/

theorem layout_eq {cmd1 cmd2 : GenericCmd} (h : cmd1.id = cmd2.id) : cmd1.layout = cmd2.layout :=
  congrArg (fun i : UInt8 => cmdStruct i.toNat) h

/-- The length depends on the id only. -/
theorem vCmdsLen_of_id {cmd1 cmd2 : GenericCmd} (h : cmd1.id = cmd2.id)
    (hvar : cmd1.layout.varLen = false) (n share len : ℕ) :
    vCmdsLen cmd1 n share len = vCmdsLen cmd2 n share 0 := by
  simp only [vCmdsLen, ← layout_eq h, hvar, Bool.not_false, if_true]

/-- The record of a group fits its commands. -/
structure OutGroup.Describes (grp : OutGroup) (cmds : List CmdPtr) : Prop where
  oneId : ∀ c ∈ cmds, ∀ c' ∈ cmds, c.cmd.id = c'.cmd.id
  /-- The size of the address is that of some of the key items. -/
  share : ∀ c ∈ cmds, ∃ k ≤ c.cmd.layout.keyCount, grp.share = c.cmd.layout.addrSize k
  agree : ∀ c ∈ cmds, ∀ c' ∈ cmds, c.cmd.data.take grp.share = c'.cmd.data.take grp.share
  len : ∀ c ∈ cmds, grp.len = vCmdsLen c.cmd grp.counter grp.share 0

namespace OutGroup.Describes

variable {grp grp' : OutGroup} {cmds cmds' : List CmdPtr} {c cmd : CmdPtr}

/-- A record fits commands that are like those it fits. -/
theorem of_like (h : grp.Describes cmds) (hvar : ∀ c ∈ cmds, c.cmd.layout.varLen = false)
    (hlike : ∀ c ∈ cmds', ∃ o ∈ cmds, o.cmd.id = c.cmd.id ∧
      o.cmd.data.take grp.share = c.cmd.data.take grp.share) : grp.Describes cmds' where
  oneId c hc c' hc' := by
    obtain ⟨o, ho, hid, -⟩ := hlike c hc
    obtain ⟨o', ho', hid', -⟩ := hlike c' hc'
    exact hid.symm.trans ((h.oneId o ho o' ho').trans hid')
  share c hc := by
    obtain ⟨o, ho, hid, -⟩ := hlike c hc
    exact layout_eq hid ▸ h.share o ho
  agree c hc c' hc' := by
    obtain ⟨o, ho, -, hdata⟩ := hlike c hc
    obtain ⟨o', ho', -, hdata'⟩ := hlike c' hc'
    exact hdata.symm.trans ((h.agree o ho o' ho').trans hdata')
  len c hc := by
    obtain ⟨o, ho, hid, -⟩ := hlike c hc
    exact (h.len o ho).trans (vCmdsLen_of_id hid (hvar o ho) _ _ _)

/-- A record with a shorter address and the length for it. -/
theorem shrink (h : grp.Describes cmds) (hle : grp'.share ≤ grp.share)
    (hshare : ∀ c ∈ cmds, ∃ k ≤ c.cmd.layout.keyCount, grp'.share = c.cmd.layout.addrSize k)
    (hlen : ∀ c ∈ cmds, grp'.len = vCmdsLen c.cmd grp'.counter grp'.share 0) :
    grp'.Describes cmds where
  oneId := h.oneId
  share := hshare
  agree c hc c' hc' := by
    have htake : ∀ data : List UInt8, data.take grp'.share = (data.take grp.share).take grp'.share := by
      intro data
      rw [List.take_take, Nat.min_eq_left hle]
    rw [htake, h.agree c hc c' hc', ← htake]
  len := hlen

end OutGroup.Describes

/-- What the comparison of two addresses gives is the size of some key items, the bytes of which
are the same in both; and it is not more than what was shared before. -/
theorem vCmdCmpAddr_addrSize {cmd1 : GenericCmd} (cmd2 : GenericCmd)
    (hvar : cmd1.layout.varLen = false) (current : ℕ) :
    (∃ k ≤ cmd1.layout.keyCount, vCmdCmpAddr cmd1 cmd2 current = cmd1.layout.addrSize k) ∧
      cmd1.data.take (vCmdCmpAddr cmd1 cmd2 current) =
        cmd2.data.take (vCmdCmpAddr cmd1 cmd2 current) ∧
      ∀ i ≤ cmd1.layout.keyCount, current = cmd1.layout.addrSize i →
        vCmdCmpAddr cmd1 cmd2 current ≤ current := by
  cases hshares : cmd1.layout.sharesAddr with
  | false =>
      have hzero : vCmdCmpAddr cmd1 cmd2 current = 0 := if_neg (by simp [hshares])
      rw [hzero]
      exact ⟨⟨0, Nat.zero_le _, by simp [CmdStruct.addrSize, sizeSum]⟩, by simp,
        fun _ _ _ => Nat.zero_le _⟩
  | true =>
      have hsound : cmd1.layout.Sound := cmdStruct_sound (isNodeCmd_of_sharesAddr hshares)
      obtain ⟨k, hk, hsize, hagree, hbelow, -⟩ :=
        @exists_vCmdCmpAddr cmd1 cmd2 current hshares hvar
      rw [hsize]
      refine ⟨⟨k, hk, rfl⟩, (hsound.take_addrSize_eq_iff k).mpr hagree, fun i hi hcurrent => ?_⟩
      exact (hsound.below_iff hk (Or.inr ⟨i, hi, hcurrent⟩)).mp hbelow

/-! ## The queue with its groups -/

/-- The queue without its buckets and counts: the lists, the group and the command of each entry,
and the records. -/
structure GroupView where
  queues : ℕ → List ℕ
  group : ℕ → Option ℕ
  cmd : ℕ → Option CmdPtr
  records : ℕ → Option OutGroup

def VOutQueue.groupView (oq : VOutQueue) : GroupView where
  queues := oq.queues
  group qa := (oq.qheap qa).bind (·.group)
  cmd := oq.cmdAt
  records := oq.groups

namespace GroupView

/-- The entry at `qa` points to the record `g`. -/
def inGroup (v : GroupView) (g qa : ℕ) : Bool := v.group qa = some g

/-- The entries of a priority that point to a record. -/
def members (v : GroupView) (g p : ℕ) : List ℕ := (v.queues p).filter (v.inGroup g)

/-- The commands of a group. -/
def cmds (v : GroupView) (g p : ℕ) : List CmdPtr := (v.members g p).filterMap v.cmd

/-- The record `grp` of the group `g` is that of commands of priority `p`. -/
structure Stands (v : GroupView) (g : ℕ) (grp : OutGroup) (p : ℕ) : Prop where
  only : ∀ p', p' ≠ p → v.members g p' = []
  counter : grp.counter = (v.members g p).length
  together : Together (v.inGroup g) (v.queues p)
  describes : grp.Describes (v.cmds g p)
  fixed : ∀ c ∈ v.cmds g p, c.cmd.layout.varLen = false

/-- Every record in memory is the record of a group, and no entry points to a record that is
not in memory. -/
structure Consistent (v : GroupView) : Prop where
  live : ∀ p, ∀ qa ∈ v.queues p, ∀ g, v.group qa = some g → ∃ grp, v.records g = some grp
  stands : ∀ g grp, v.records g = some grp → ∃ p, v.Stands g grp p

/-- The entry at `qa` leaves the list of `p`. -/
def leave (v : GroupView) (p qa : ℕ) : GroupView :=
  { v with
    queues := Function.update v.queues p ((v.queues p).erase qa)
    cmd := Function.update v.cmd qa none }

/-- The entry at `qa` enters the list of `prio`, with the command `cmd` and the pointer `g`. -/
def enter (v : GroupView) (head : Bool) (prio qa : ℕ) (cmd : CmdPtr) (g : Option ℕ) : GroupView :=
  { v with
    queues := Function.update v.queues prio (place head qa (v.queues prio))
    group := Function.update v.group qa g
    cmd := Function.update v.cmd qa (some cmd) }

/-- The entry at `qa` gets the pointer `g`. -/
def point (v : GroupView) (qa g : ℕ) : GroupView :=
  { v with group := Function.update v.group qa (some g) }

def record (v : GroupView) (g : ℕ) (grp : OutGroup) : GroupView :=
  { v with records := Function.update v.records g (some grp) }

/-- The entry at the end where a command is added. -/
def border (v : GroupView) (head : Bool) (prio : ℕ) : Option ℕ :=
  if head then (v.queues prio).head? else (v.queues prio).getLast?

variable {v : GroupView} {g p qa : ℕ}

theorem mem_members : qa ∈ v.members g p ↔ qa ∈ v.queues p ∧ v.group qa = some g := by
  simp [members, inGroup, List.mem_filter]

theorem mem_cmds {c : CmdPtr} :
    c ∈ v.cmds g p ↔ ∃ qa ∈ v.queues p, v.group qa = some g ∧ v.cmd qa = some c := by
  simp only [cmds, List.mem_filterMap, mem_members, and_assoc]

theorem mem_place {α : Type*} {head : Bool} {a b : α} {l : List α} :
    a ∈ place head b l ↔ a = b ∨ a ∈ l :=
  (place_perm head b l).mem_iff.trans List.mem_cons

theorem border_mem {head : Bool} {ba : ℕ} (h : v.border head p = some ba) : ba ∈ v.queues p := by
  unfold border at h
  split at h
  · exact List.mem_of_mem_head? h
  · exact List.mem_of_getLast? h

/-- A group whose entries, records and commands are still the same. -/
theorem Stands.congr {v' : GroupView} {grp : OutGroup} (h : v.Stands g grp p)
    (hmembers : ∀ p', v'.members g p' = v.members g p')
    (htogether : Together (v'.inGroup g) (v'.queues p))
    (hcmd : ∀ qa ∈ v.members g p, v'.cmd qa = v.cmd qa) : v'.Stands g grp p := by
  have hcmds : v'.cmds g p = v.cmds g p := by
    rw [cmds, cmds, hmembers]
    exact List.filterMap_congr hcmd
  refine ⟨fun p' hp' => (hmembers p').trans (h.only p' hp'), ?_, htogether, ?_, ?_⟩
  · rw [hmembers, h.counter]
  · exact hcmds ▸ h.describes
  · exact hcmds ▸ h.fixed

/-! ## Leaving and being replaced -/

/-- **An entry that is in no group leaves.** -/
theorem Consistent.leave (h : v.Consistent) (hgroup : v.group qa = none) (p : ℕ) :
    (v.leave p qa).Consistent := by
  have hnot : ∀ g, v.inGroup g qa = false := fun g => by simp [inGroup, hgroup]
  have hqueues : ∀ p', (v.leave p qa).queues p' = v.queues p' ∨
      (v.leave p qa).queues p' = (v.queues p').erase qa := by
    intro p'
    by_cases hp : p' = p
    · exact Or.inr (by rw [hp]; exact Function.update_self _ _ _)
    · exact Or.inl (Function.update_of_ne hp _ _)
  constructor
  · intro p' a ha
    refine h.live p' a ?_
    rcases hqueues p' with hsame | herased
    · exact hsame ▸ ha
    · exact List.mem_of_mem_erase (herased ▸ ha)
  · intro g grp hgrp
    obtain ⟨r, hstands⟩ := h.stands g grp hgrp
    refine ⟨r, hstands.congr (fun p' => ?_) ?_ fun a ha => ?_⟩
    · rcases hqueues p' with hsame | herased
      · exact congrArg (List.filter (v.inGroup g)) hsame
      · exact (congrArg (List.filter (v.inGroup g)) herased).trans (filter_erase_of_neg (hnot g) _)
    · show Together (v.inGroup g) _
      rcases hqueues r with hsame | herased
      · exact hsame ▸ hstands.together
      · exact herased ▸ hstands.together.erase (hnot g)
    · refine Function.update_of_ne (fun heq => ?_) _ _
      have hin := (mem_members.mp ha).2
      rw [heq, hgroup] at hin
      cases hin

/-- **A command is replaced** by one of its id that has the same address. -/
theorem Consistent.rewrite (h : v.Consistent) {old cmd : CmdPtr} (hold : v.cmd qa = some old)
    (hid : old.cmd.id = cmd.cmd.id)
    (hkey : ∀ k, old.cmd.data.take (old.cmd.layout.addrSize k) =
      cmd.cmd.data.take (old.cmd.layout.addrSize k)) :
    Consistent { v with cmd := Function.update v.cmd qa (some cmd) } := by
  refine ⟨h.live, fun g grp hgrp => ?_⟩
  obtain ⟨p, hstands⟩ := h.stands g grp hgrp
  have hlike : ∀ c ∈ cmds { v with cmd := Function.update v.cmd qa (some cmd) } g p,
      ∃ o ∈ v.cmds g p, o.cmd.id = c.cmd.id ∧
        o.cmd.data.take grp.share = c.cmd.data.take grp.share := by
    intro c hc
    obtain ⟨a, ha, hgroup, hcmd⟩ := mem_cmds.mp hc
    by_cases heq : a = qa
    · subst heq
      obtain rfl : cmd = c := by simpa using hcmd
      have hmem : old ∈ v.cmds g p := mem_cmds.mpr ⟨a, ha, hgroup, hold⟩
      obtain ⟨k, -, hshare⟩ := hstands.describes.share old hmem
      exact ⟨old, hmem, hid, hshare ▸ hkey k⟩
    · have hcmd' : v.cmd a = some c := (Function.update_of_ne heq _ _).symm.trans hcmd
      exact ⟨c, mem_cmds.mpr ⟨a, ha, hgroup, hcmd'⟩, rfl, rfl⟩
  refine ⟨p, hstands.only, hstands.counter, hstands.together,
    hstands.describes.of_like hstands.fixed hlike, fun c hc => ?_⟩
  obtain ⟨o, ho, hid', -⟩ := hlike c hc
  exact layout_eq hid' ▸ hstands.fixed o ho

/-! ## Entering -/

section Enter

variable {head : Bool} {prio : ℕ} {cmd : CmdPtr} {group : Option ℕ}

theorem members_enter (hnew : ∀ p, qa ∉ v.queues p) (p' : ℕ) :
    (v.enter head prio qa cmd group).members g p' =
      if p' = prio ∧ group = some g then place head qa (v.members g p') else v.members g p' := by
  have hold : ∀ p, (v.queues p).filter ((v.enter head prio qa cmd group).inGroup g) =
      v.members g p := by
    intro p
    refine List.filter_congr fun a ha => ?_
    have hne : a ≠ qa := fun heq => hnew p (heq ▸ ha)
    simp [inGroup, enter, Function.update_of_ne hne]
  by_cases hp : p' = prio
  · subst hp
    have hqueue : (v.enter head p' qa cmd group).queues p' = place head qa (v.queues p') :=
      Function.update_self _ _ _
    rw [members, hqueue, ← hold p']
    by_cases hg : group = some g
    · have hqa : (v.enter head p' qa cmd group).inGroup g qa = true := by
        simp [inGroup, enter, hg]
      rw [if_pos ⟨rfl, hg⟩]
      cases head with
      | true => exact List.filter_cons_of_pos hqa
      | false => simp [place, List.filter_append, hqa]
    · have hqa : (v.enter head p' qa cmd group).inGroup g qa = false := by
        simp [inGroup, enter, hg]
      rw [if_neg fun hboth => hg hboth.2]
      cases head with
      | true => exact List.filter_cons_of_neg (by simp [hqa])
      | false => simp [place, List.filter_append, hqa]
  · have hqueue : (v.enter head prio qa cmd group).queues p' = v.queues p' :=
      Function.update_of_ne hp _ _
    rw [members, hqueue, hold p', if_neg fun hboth => hp hboth.1]

/-- The other groups do not notice an entry that enters. -/
theorem Stands.enter {grp : OutGroup} (h : v.Stands g grp p) (hnew : ∀ p, qa ∉ v.queues p)
    (hg : group ≠ some g) : (v.enter head prio qa cmd group).Stands g grp p := by
  have hin : (v.enter head prio qa cmd group).inGroup g qa = false := by
    simp [inGroup, GroupView.enter, hg]
  have hold : ∀ a ∈ v.queues p, v.inGroup g a = (v.enter head prio qa cmd group).inGroup g a := by
    intro a ha
    have hne : a ≠ qa := fun heq => hnew p (heq ▸ ha)
    simp [inGroup, GroupView.enter, Function.update_of_ne hne]
  refine h.congr (fun p' => ?_) ?_ fun a ha => ?_
  · rw [members_enter hnew, if_neg fun hboth => hg hboth.2]
  · have htogether := h.together.congr hold
    by_cases hp : p = prio
    · subst hp
      have hqueue : (v.enter head p qa cmd group).queues p = place head qa (v.queues p) :=
        Function.update_self _ _ _
      rw [hqueue]
      cases head with
      | true => exact htogether.cons_of_neg hin
      | false => exact htogether.concat_of_neg hin
    · have hqueue : (v.enter head prio qa cmd group).queues p = v.queues p :=
        Function.update_of_ne hp _ _
      rw [hqueue]
      exact htogether
  · refine Function.update_of_ne (fun heq => ?_) _ _
    exact hnew p (heq ▸ (mem_members.mp ha).1)

/-- **An entry that joins no group enters.** -/
theorem Consistent.enterAlone (h : v.Consistent) (hnew : ∀ p, qa ∉ v.queues p) :
    (v.enter head prio qa cmd none).Consistent := by
  constructor
  · intro p a ha g hg
    have hne : a ≠ qa := by
      rintro rfl
      simp [enter] at hg
    have hmem : a ∈ v.queues p := by
      by_cases hp : p = prio
      · subst hp
        have hplace : a ∈ place head qa (v.queues p) := by simpa [enter] using ha
        exact (mem_place.mp hplace).resolve_left hne
      · simpa [enter, Function.update_of_ne hp] using ha
    exact h.live p a hmem g (by simpa [enter, Function.update_of_ne hne] using hg)
  · intro g grp hgrp
    obtain ⟨p, hstands⟩ := h.stands g grp hgrp
    exact ⟨p, hstands.enter hnew nofun⟩

/-- The group of the entry at the border grows by the entry that enters. -/
theorem Stands.joined {ba : ℕ} {c : CmdPtr} {grp grp' : OutGroup} (h : v.Stands g grp prio)
    (hnew : ∀ p, qa ∉ v.queues p) (hborder : v.border head prio = some ba)
    (hgroup : v.group ba = some g) (hcmd : v.cmd ba = some c) (hid : c.cmd.id = cmd.cmd.id)
    (hcounter : grp'.counter = grp.counter + 1)
    (hshare : ∃ k ≤ c.cmd.layout.keyCount, grp'.share = c.cmd.layout.addrSize k)
    (hle : grp'.share ≤ grp.share)
    (hagree : c.cmd.data.take grp'.share = cmd.cmd.data.take grp'.share)
    (hlen : grp'.len = vCmdsLen c.cmd grp'.counter grp'.share 0) :
    ((v.record g grp').enter head prio qa cmd (some g)).Stands g grp' prio := by
  have hmembers : ∀ p, ((v.record g grp').enter head prio qa cmd (some g)).members g p =
      if p = prio then place head qa (v.members g p) else v.members g p := by
    intro p
    have henter := @members_enter (v.record g grp') g qa head prio cmd (some g) hnew p
    have hsame : (v.record g grp').members g p = v.members g p := rfl
    simpa [hsame] using henter
  have hne : ba ≠ qa := fun heq => hnew prio (heq ▸ border_mem hborder)
  have hnotMem : qa ∉ v.members g prio := fun hmem => hnew prio (mem_members.mp hmem).1
  have hcmds : ((v.record g grp').enter head prio qa cmd (some g)).cmds g prio =
      place head cmd (v.cmds g prio) := by
    have hcmd : ((v.record g grp').enter head prio qa cmd (some g)).cmd =
        Function.update v.cmd qa (some cmd) := rfl
    rw [cmds, hmembers, if_pos rfl, hcmd, place_filterMap (Function.update_self _ _ _),
      filterMap_update_of_not_mem hnotMem]
    rfl
  have hc : c ∈ v.cmds g prio := mem_cmds.mpr ⟨ba, border_mem hborder, hgroup, hcmd⟩
  have hshrink : grp'.Describes (v.cmds g prio) := by
    refine h.describes.shrink hle (fun o ho => ?_) fun o ho => ?_
    · exact layout_eq (h.describes.oneId c hc o ho) ▸ hshare
    · exact hlen.trans (vCmdsLen_of_id (h.describes.oneId c hc o ho) (h.fixed c hc) _ _ _)
  have hlike : ∀ o ∈ place head cmd (v.cmds g prio), ∃ o' ∈ v.cmds g prio, o'.cmd.id = o.cmd.id ∧
      o'.cmd.data.take grp'.share = o.cmd.data.take grp'.share := by
    intro o ho
    rcases mem_place.mp ho with rfl | hold
    · exact ⟨c, hc, hid, hagree⟩
    · exact ⟨o, hold, rfl, rfl⟩
  refine ⟨fun p hp => ?_, ?_, ?_, ?_, ?_⟩
  · rw [hmembers, if_neg hp, h.only p hp]
  · rw [hmembers, if_pos rfl, (place_perm head qa _).length_eq, List.length_cons, hcounter,
      h.counter]
  · have hold : ∀ a ∈ v.queues prio, v.inGroup g a =
        ((v.record g grp').enter head prio qa cmd (some g)).inGroup g a := by
      intro a ha
      have hne : a ≠ qa := fun heq => hnew prio (heq ▸ ha)
      simp [inGroup, GroupView.enter, record, Function.update_of_ne hne]
    have htogether := h.together.congr hold
    have hqa : ((v.record g grp').enter head prio qa cmd (some g)).inGroup g qa = true := by
      simp [inGroup, GroupView.enter]
    have hba : ((v.record g grp').enter head prio qa cmd (some g)).inGroup g ba = true := by
      simp [inGroup, GroupView.enter, record, Function.update_of_ne hne, hgroup]
    have hqueue : ((v.record g grp').enter head prio qa cmd (some g)).queues prio =
        place head qa (v.queues prio) := Function.update_self _ _ _
    rw [hqueue]
    cases head with
    | true => exact htogether.cons_of_head hborder hba hqa
    | false => exact htogether.concat_of_last hborder hba hqa
  · exact hcmds ▸ hshrink.of_like h.fixed hlike
  · intro o ho
    obtain ⟨o', ho', hid', -⟩ := hlike o (hcmds ▸ ho)
    exact layout_eq hid' ▸ h.fixed o' ho'

/-- **An entry joins the group of the entry at the border**, and the record is the one for the
larger group. -/
theorem Consistent.join (h : v.Consistent) (hnew : ∀ p, qa ∉ v.queues p) {ba : ℕ} {c : CmdPtr}
    {grp grp' : OutGroup} (hborder : v.border head prio = some ba) (hgroup : v.group ba = some g)
    (hrec : v.records g = some grp) (hcmd : v.cmd ba = some c) (hid : c.cmd.id = cmd.cmd.id)
    (hcounter : grp'.counter = grp.counter + 1)
    (hshare : ∃ k ≤ c.cmd.layout.keyCount, grp'.share = c.cmd.layout.addrSize k)
    (hle : grp'.share ≤ grp.share)
    (hagree : c.cmd.data.take grp'.share = cmd.cmd.data.take grp'.share)
    (hlen : grp'.len = vCmdsLen c.cmd grp'.counter grp'.share 0) :
    ((v.record g grp').enter head prio qa cmd (some g)).Consistent := by
  constructor
  · intro p a ha g' hg'
    show ∃ grp, Function.update v.records g (some grp') g' = some grp
    by_cases hg : g' = g
    · exact ⟨grp', by rw [hg, Function.update_self]⟩
    · rw [Function.update_of_ne hg]
      have hne : a ≠ qa := by
        rintro rfl
        exact hg (by simpa [enter, eq_comm] using hg')
      have hold : a ∈ v.queues p := by
        by_cases hp : p = prio
        · subst hp
          have hplace : a ∈ place head qa (v.queues p) := by simpa [enter, record] using ha
          exact (mem_place.mp hplace).resolve_left hne
        · simpa [enter, record, Function.update_of_ne hp] using ha
      exact h.live p a hold g' (by simpa [enter, record, Function.update_of_ne hne] using hg')
  · intro g' r hr
    by_cases hg : g' = g
    · subst hg
      obtain rfl : grp' = r := by simpa [enter, record] using hr
      obtain ⟨p, hstands⟩ := h.stands g' grp hrec
      have hin : ba ∈ v.members g' prio := mem_members.mpr ⟨border_mem hborder, hgroup⟩
      obtain rfl : prio = p := by
        by_contra hne
        have hnone := hstands.only prio hne
        rw [hnone] at hin
        cases hin
      refine ⟨prio, hstands.joined hnew hborder hgroup hcmd hid hcounter hshare hle hagree hlen⟩
    · have hold : v.records g' = some r := by
        simpa [enter, record, Function.update_of_ne hg] using hr
      obtain ⟨p, hstands⟩ := h.stands g' r hold
      have hrecord : (v.record g grp').Stands g' r p :=
        ⟨hstands.only, hstands.counter, hstands.together, hstands.describes, hstands.fixed⟩
      exact ⟨p, hrecord.enter hnew fun heq => hg (Option.some.inj heq).symm⟩

end Enter

/-- **An entry that was in no group gets a record of its own.** -/
theorem Consistent.found (h : v.Consistent) {ba : ℕ} {c : CmdPtr} {grp : OutGroup}
    (hmem : ba ∈ v.queues p) (hunique : ∀ p', ba ∈ v.queues p' → p' = p)
    (hnodup : (v.queues p).Nodup) (hgroup : v.group ba = none) (hfresh : v.records g = none)
    (hcmd : v.cmd ba = some c) (hvar : c.cmd.layout.varLen = false) (hcounter : grp.counter = 1)
    (hshare : ∃ k ≤ c.cmd.layout.keyCount, grp.share = c.cmd.layout.addrSize k)
    (hlen : grp.len = vCmdsLen c.cmd grp.counter grp.share 0) :
    ((v.point ba g).record g grp).Consistent := by
  have hothers : ∀ a, a ≠ ba → ((v.point ba g).record g grp).group a = v.group a := fun a ha =>
    Function.update_of_ne ha _ _
  have hself : ((v.point ba g).record g grp).group ba = some g := Function.update_self _ _ _
  have hnone : ∀ p', ∀ a ∈ v.queues p', v.group a ≠ some g := by
    intro p' a ha hg
    obtain ⟨r, hr⟩ := h.live p' a ha g hg
    rw [hfresh] at hr
    cases hr
  constructor
  · intro p' a ha g' hg'
    show ∃ r, Function.update v.records g (some grp) g' = some r
    by_cases hg : g' = g
    · exact ⟨grp, by rw [hg, Function.update_self]⟩
    · rw [Function.update_of_ne hg]
      have hne : a ≠ ba := by
        rintro rfl
        exact hg (Option.some.inj (hself.symm.trans hg')).symm
      exact h.live p' a ha g' ((hothers a hne).symm.trans hg')
  · intro g' r hr
    by_cases hg : g' = g
    · subst hg
      obtain rfl : grp = r := by simpa [record] using hr
      -- the entry is the only one that points to the new record
      have hfilter : ∀ p', ((v.point ba g').record g' grp).members g' p' =
          (v.queues p').filter (· = ba) := by
        intro p'
        refine List.filter_congr fun a ha => ?_
        by_cases hne : a = ba
        · simp [inGroup, hne, hself]
        · simp [inGroup, hothers a hne, hnone p' a ha, hne]
      have hsingle : ((v.point ba g').record g' grp).members g' p = [ba] := by
        rw [hfilter, List.filter_eq, List.count_eq_one_of_mem hnodup hmem, List.replicate_one]
      have hcmds : ((v.point ba g').record g' grp).cmds g' p = [c] := by
        rw [cmds, hsingle]
        exact List.filterMap_cons_some hcmd
      refine ⟨p, fun p' hp' => ?_, ?_, together_of_filter_eq_singleton hsingle, ?_, ?_⟩
      · rw [hfilter, List.filter_eq_nil_iff]
        intro a ha heq
        exact hp' (hunique p' (of_decide_eq_true heq ▸ ha))
      · rw [hsingle, hcounter, List.length_singleton]
      · rw [hcmds]
        have honly : ∀ o ∈ [c], o = c := fun o ho => List.mem_singleton.mp ho
        refine ⟨fun o ho o' ho' => ?_, fun o ho => ?_, fun o ho o' ho' => ?_, fun o ho => ?_⟩
        · rw [honly o ho, honly o' ho']
        · exact honly o ho ▸ hshare
        · rw [honly o ho, honly o' ho']
        · exact honly o ho ▸ hlen
      · intro o ho
        rw [hcmds, List.mem_singleton] at ho
        exact ho ▸ hvar
    · have hold : v.records g' = some r := by
        simpa [record, point, Function.update_of_ne hg] using hr
      obtain ⟨p', hstands⟩ := h.stands g' r hold
      have hsame : ∀ a, v.inGroup g' a = ((v.point ba g).record g grp).inGroup g' a := by
        intro a
        by_cases hne : a = ba
        · simp [inGroup, hne, hself, hgroup, Ne.symm hg]
        · simp [inGroup, hothers a hne]
      refine ⟨p', hstands.congr (fun r => ?_) (hstands.together.congr fun a _ => hsame a)
        fun _ _ => rfl⟩
      exact List.filter_congr fun a _ => (hsame a).symm

end GroupView

end Verse
