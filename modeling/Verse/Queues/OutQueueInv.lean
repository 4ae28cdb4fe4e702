import Verse.Queues.OutQueue

/-!
# The invariant of the outgoing queue

Every list entry owns a bucket that is in memory, and every bucket belongs to one
list entry.  `VOutQueue.Inv oq hole` says so for all entries but the one at
`hole`, which has been taken out and is about to be freed or put elsewhere; with
`hole = none` it is the invariant between two calls.

An entry is taken out by `Inv.detach` and `Inv.dropGroup` and put in by
`Inv.insert`; the functions of `v_out_queue.c` are made of these.
-/

namespace Verse

open Lib

structure VOutQueue.Inv (oq : VOutQueue) (hole : Option ℕ) : Prop where
  wf : oq.table.WF true
  fresh : ∀ a, oq.next ≤ a → oq.qheap a = none
  nodup : ∀ p, (oq.queues p).Nodup
  queued : ∀ p a, a ∈ oq.queues p ↔
    some a ≠ hole ∧ ∃ queueCmd, oq.qheap a = some queueCmd ∧ queueCmd.prio = p
  bucket : ∀ a queueCmd, some a ≠ hole → oq.qheap a = some queueCmd →
    ∃ b, oq.table.heap queueCmd.vbucket = some b ∧ b.ptr = some a ∧ b.data.id = queueCmd.id
  owner : ∀ a b, oq.table.heap a = some b →
    ∃ qa queueCmd, some qa ≠ hole ∧ b.ptr = some qa ∧ oq.qheap qa = some queueCmd ∧
      queueCmd.vbucket = a
  accepted : ∀ a b, oq.table.heap a = some b → Accepted b.data
  groupLive : ∀ a queueCmd g, some a ≠ hole → oq.qheap a = some queueCmd →
    queueCmd.group = some g → ∃ grp, oq.groups g = some grp
  groupFresh : ∀ g, oq.nextGroup ≤ g → oq.groups g = none

/-- The command of a list entry. -/
def VOutQueue.cmdAt (oq : VOutQueue) (qa : ℕ) : Option CmdPtr :=
  (oq.qheap qa).bind fun queueCmd => (oq.table.heap queueCmd.vbucket).map (·.data)

/-- The commands of a priority, in order. -/
def VOutQueue.contents (oq : VOutQueue) (prio : ℕ) : List CmdPtr :=
  (oq.queues prio).filterMap oq.cmdAt

variable {oq : VOutQueue} {hole : Option ℕ} {q : VCommandQueue} {qa : ℕ}
  {queueCmd : VOutQueueCommand} {b : VBucket}

theorem VOutQueue.inv_create : vOutQueueCreate.Inv none where
  wf := CmdTable.wf_init true
  fresh _ _ := rfl
  nodup _ := List.nodup_nil
  queued p a := by simp [vOutQueueCreate]
  bucket a queueCmd _ h := by simp [vOutQueueCreate] at h
  owner a b h := by simp [vOutQueueCreate, CmdTable.init] at h
  accepted a b h := by simp [vOutQueueCreate, CmdTable.init] at h
  groupLive a queueCmd g _ h := by simp [vOutQueueCreate] at h
  groupFresh _ _ := rfl

/-! ## Entries and buckets -/

theorem VOutQueue.Inv.lt_next (h : oq.Inv hole) (hqc : oq.qheap qa = some queueCmd) :
    qa < oq.next := by
  by_contra hge
  have := h.fresh qa (Nat.le_of_not_lt hge)
  rw [this] at hqc
  cases hqc

theorem VOutQueue.Inv.mem_queue (h : oq.Inv hole) (hne : some qa ≠ hole)
    (hqc : oq.qheap qa = some queueCmd) : qa ∈ oq.queues queueCmd.prio :=
  (h.queued _ _).mpr ⟨hne, queueCmd, hqc, rfl⟩

/-- Two entries do not share a bucket. -/
theorem VOutQueue.Inv.vbucket_inj (h : oq.Inv hole) {qa' : ℕ} {queueCmd' : VOutQueueCommand}
    (hne : some qa ≠ hole) (hne' : some qa' ≠ hole) (hqc : oq.qheap qa = some queueCmd)
    (hqc' : oq.qheap qa' = some queueCmd') (heq : queueCmd.vbucket = queueCmd'.vbucket) :
    qa = qa' := by
  obtain ⟨b, hb, hptr, -⟩ := h.bucket qa queueCmd hne hqc
  obtain ⟨b', hb', hptr', -⟩ := h.bucket qa' queueCmd' hne' hqc'
  rw [heq, hb'] at hb
  obtain rfl := Option.some.inj hb
  rw [hptr'] at hptr
  exact (Option.some.inj hptr).symm

theorem VOutQueue.Inv.cmdAt_eq (h : oq.Inv hole) (hne : some qa ≠ hole)
    (hqc : oq.qheap qa = some queueCmd) :
    ∃ b, oq.table.heap queueCmd.vbucket = some b ∧ oq.cmdAt qa = some b.data := by
  obtain ⟨b, hb, -, -⟩ := h.bucket qa queueCmd hne hqc
  exact ⟨b, hb, by simp [VOutQueue.cmdAt, hqc, hb]⟩

/-! ## Taking an entry out -/

/-- The bucket of an entry is removed, and the entry is taken out of its list. -/
theorem VOutQueue.Inv.detach (h : oq.Inv none) (hqc : oq.qheap qa = some queueCmd)
    (hb : oq.table.heap queueCmd.vbucket = some b)
    (hq : vCmdQueueCreate b.data.id true = some q) (pc ps : ℕ → ℕ) (count size : ℕ) :
    VOutQueue.Inv
      { oq with
        table := oq.table.removed q b.data.cmd queueCmd.vbucket
        queues := Function.update oq.queues queueCmd.prio ((oq.queues queueCmd.prio).erase qa)
        prioCount := pc
        prioSize := ps
        count := count
        size := size } (some qa) := by
  have hmemlb : queueCmd.vbucket ∈ oq.table.lb b.data.cmd.id.toNat :=
    (h.wf.mem_lb _ _).mpr ⟨b, hb, rfl⟩
  have hkey : oq.table.hasKey q b.data.cmd queueCmd.vbucket = true := by
    simp [CmdTable.hasKey, hb]
  have hptr : b.ptr = some qa := by
    obtain ⟨b', hb', hptr', -⟩ := h.bucket qa queueCmd (by simp) hqc
    rw [hb] at hb'
    obtain rfl := Option.some.inj hb'
    exact hptr'
  refine
    { wf := h.wf.removed hq hmemlb hkey, fresh := h.fresh, nodup := ?_, queued := ?_,
      bucket := ?_, owner := ?_, accepted := ?_, groupLive := ?_, groupFresh := h.groupFresh }
  · intro p
    by_cases hp : p = queueCmd.prio
    · subst hp
      simpa using (h.nodup queueCmd.prio).erase qa
    · simpa [Function.update_of_ne hp] using h.nodup p
  · intro p a
    have hold := h.queued p a
    simp only [ne_eq, reduceCtorEq, not_false_eq_true, true_and] at hold
    by_cases hp : p = queueCmd.prio
    · subst hp
      simp only [Function.update_self, (h.nodup _).mem_erase_iff, hold, ne_eq, Option.some.injEq]
    · simp only [Function.update_of_ne hp, hold, ne_eq, Option.some.injEq]
      constructor
      · intro hqueued
        refine ⟨?_, hqueued⟩
        rintro rfl
        obtain ⟨queueCmd', hqc', hprio⟩ := hqueued
        rw [hqc] at hqc'
        obtain rfl := Option.some.inj hqc'
        exact hp hprio.symm
      · exact fun hqueued => hqueued.2
  · intro a queueCmd' hne hqc'
    obtain ⟨b', hb', hptr', hid'⟩ := h.bucket a queueCmd' (by simp) hqc'
    refine ⟨b', ?_, hptr', hid'⟩
    have hbucket : queueCmd'.vbucket ≠ queueCmd.vbucket := by
      intro heq
      exact hne (congrArg some (h.vbucket_inj (by simp) (by simp) hqc' hqc heq))
    simpa [hbucket] using hb'
  · intro a b' hb'
    by_cases ha : a = queueCmd.vbucket
    · simp [ha] at hb'
    · simp only [removed_heap, Function.update_of_ne ha] at hb'
      obtain ⟨qa', queueCmd', -, hptr', hqc', hbucket'⟩ := h.owner a b' hb'
      refine ⟨qa', queueCmd', ?_, hptr', hqc', hbucket'⟩
      intro heq
      obtain rfl := Option.some.inj heq
      rw [hqc] at hqc'
      obtain rfl := Option.some.inj hqc'
      exact ha hbucket'.symm
  · intro a b' hb'
    by_cases ha : a = queueCmd.vbucket
    · simp [ha] at hb'
    · simp only [removed_heap, Function.update_of_ne ha] at hb'
      exact h.accepted a b' hb'
  · intro a queueCmd' g _ hqc' hg
    exact h.groupLive a queueCmd' g (by simp) hqc' hg

theorem VOutQueue.Inv.cmdAt_detach (h : oq.Inv none) (hqc : oq.qheap qa = some queueCmd)
    (cmd : GenericCmd) (queues : ℕ → List ℕ) (pc ps : ℕ → ℕ) (count size : ℕ) :
    VOutQueue.cmdAt
      { oq with
        table := oq.table.removed q cmd queueCmd.vbucket
        queues := queues
        prioCount := pc
        prioSize := ps
        count := count
        size := size } = Function.update oq.cmdAt qa none := by
  funext a
  by_cases ha : a = qa
  · subst ha
    simp [VOutQueue.cmdAt, hqc]
  · rw [Function.update_of_ne ha]
    cases hc : oq.qheap a with
    | none => simp [VOutQueue.cmdAt, hc]
    | some c =>
        have hne : c.vbucket ≠ queueCmd.vbucket := fun heq =>
          ha (h.vbucket_inj (by simp) (by simp) hc hqc heq)
        simp [VOutQueue.cmdAt, hc, Function.update_of_ne hne]

/-- No other entry points to the group of this one when its counter is used up. -/
def VOutQueue.LastOfGroup (oq : VOutQueue) (qa : ℕ) (queueCmd : VOutQueueCommand) : Prop :=
  ∀ g grp, queueCmd.group = some g → oq.groups g = some grp → dec16 grp.counter = 0 →
    ∀ a queueCmd', a ≠ qa → oq.qheap a = some queueCmd' → queueCmd'.group ≠ some g

/-- What an entry holds besides the pointers to its group. -/
def VOutQueueCommand.bare (queueCmd : VOutQueueCommand) : ℕ × ℕ × ℕ :=
  (queueCmd.vbucket, queueCmd.id, queueCmd.prio)

theorem exists_of_bare_eq {x y : Option VOutQueueCommand} {c : VOutQueueCommand}
    (h : x.map (·.bare) = y.map (·.bare)) (hy : y = some c) :
    ∃ c', x = some c' ∧ c'.vbucket = c.vbucket ∧ c'.id = c.id ∧ c'.prio = c.prio := by
  subst hy
  cases x with
  | none => cases h
  | some c' =>
      simp only [Option.map_some, Option.some.injEq, VOutQueueCommand.bare, Prod.mk.injEq] at h
      exact ⟨c', rfl, h⟩

/-- The groups may be changed as long as every entry points to one in memory. -/
theorem VOutQueue.Inv.regroup (h : oq.Inv hole) {qheap : ℕ → Option VOutQueueCommand}
    {groups : ℕ → Option OutGroup} {nextGroup : ℕ}
    (hbare : ∀ a, (qheap a).map (·.bare) = (oq.qheap a).map (·.bare))
    (hlive : ∀ a queueCmd g, some a ≠ hole → qheap a = some queueCmd → queueCmd.group = some g →
      ∃ grp, groups g = some grp)
    (hfresh : ∀ g, nextGroup ≤ g → groups g = none) :
    VOutQueue.Inv { oq with qheap := qheap, groups := groups, nextGroup := nextGroup } hole where
  wf := h.wf
  fresh a ha := by
    have := hbare a
    rw [h.fresh a ha] at this
    exact Option.map_eq_none_iff.mp this
  nodup := h.nodup
  queued p a := by
    rw [h.queued p a]
    constructor
    · rintro ⟨hne, c, hc, hprio⟩
      obtain ⟨c', hc', -, -, hprio'⟩ := exists_of_bare_eq (hbare a) hc
      exact ⟨hne, c', hc', hprio'.trans hprio⟩
    · rintro ⟨hne, c, hc, hprio⟩
      obtain ⟨c', hc', -, -, hprio'⟩ := exists_of_bare_eq (hbare a).symm hc
      exact ⟨hne, c', hc', hprio'.trans hprio⟩
  bucket a c hne hc := by
    obtain ⟨c', hc', hbucket, hid, -⟩ := exists_of_bare_eq (hbare a).symm hc
    obtain ⟨b, hb, hptr, hbid⟩ := h.bucket a c' hne hc'
    exact ⟨b, hbucket ▸ hb, hptr, hbid.trans hid⟩
  owner a b hb := by
    obtain ⟨qa, c, hne, hptr, hc, hbucket⟩ := h.owner a b hb
    obtain ⟨c', hc', hbucket', -, -⟩ := exists_of_bare_eq (hbare qa) hc
    exact ⟨qa, c', hne, hptr, hc', hbucket'.trans hbucket⟩
  accepted := h.accepted
  groupLive := hlive
  groupFresh := hfresh

theorem VOutQueue.cmdAt_regroup {qheap : ℕ → Option VOutQueueCommand}
    (groups : ℕ → Option OutGroup) (nextGroup : ℕ)
    (hbare : ∀ a, (qheap a).map (·.bare) = (oq.qheap a).map (·.bare)) :
    VOutQueue.cmdAt { oq with qheap := qheap, groups := groups, nextGroup := nextGroup } =
      oq.cmdAt := by
  funext a
  cases hc : oq.qheap a with
  | none =>
      have := hbare a
      rw [hc] at this
      simp [VOutQueue.cmdAt, hc, Option.map_eq_none_iff.mp this]
  | some c =>
      obtain ⟨c', hc', hbucket, -, -⟩ := exists_of_bare_eq (hbare a) hc
      simp [VOutQueue.cmdAt, hc, hc', hbucket]

theorem VOutQueue.Inv.group_lt (h : oq.Inv hole) {g : ℕ} {grp : OutGroup}
    (hgrp : oq.groups g = some grp) : g < oq.nextGroup := by
  by_contra hge
  have := h.groupFresh g (Nat.le_of_not_lt hge)
  rw [this] at hgrp
  cases hgrp

/-- The group of the entry that was taken out is counted down. -/
theorem VOutQueue.Inv.dropGroup (h : oq.Inv (some qa)) {group : Option ℕ}
    (hlive : ∀ g, group = some g → ∃ grp, oq.groups g = some grp)
    (hlast : ∀ g grp, group = some g → oq.groups g = some grp → dec16 grp.counter = 0 →
      ∀ a queueCmd', a ≠ qa → oq.qheap a = some queueCmd' → queueCmd'.group ≠ some g) :
    ∃ groups, Verse.dropGroup oq group = some { oq with groups := groups } ∧
      VOutQueue.Inv { oq with groups := groups } (some qa) := by
  cases group with
  | none => exact ⟨oq.groups, rfl, h⟩
  | some g =>
      obtain ⟨grp, hgrp⟩ := hlive g rfl
      refine ⟨_, by simp only [Verse.dropGroup, hgrp]; rfl, ?_⟩
      refine h.regroup (fun _ => rfl) ?_ ?_
      · intro a queueCmd' g' hne hqc' hg'
        by_cases hgg : g' = g
        · subst hgg
          have hne' : a ≠ qa := fun heq => hne (congrArg some heq)
          have hcounter : dec16 grp.counter ≠ 0 := fun hzero =>
            hlast g' grp rfl hgrp hzero a queueCmd' hne' hqc' hg'
          exact ⟨{ grp with counter := dec16 grp.counter }, by simp [hcounter]⟩
        · simpa [Function.update_of_ne hgg] using h.groupLive a queueCmd' g' hne hqc' hg'
      · intro g' hg'
        have hlt := h.group_lt hgrp
        have hgg : g' ≠ g := by omega
        simpa [Function.update_of_ne hgg] using h.groupFresh g' hg'

/-- The entry that was taken out is freed. -/
theorem VOutQueue.Inv.free (h : oq.Inv (some qa)) :
    VOutQueue.Inv { oq with qheap := Function.update oq.qheap qa none } none where
  wf := h.wf
  fresh a ha := by
    by_cases haq : a = qa
    · simp [haq]
    · simpa [Function.update_of_ne haq] using h.fresh a ha
  nodup := h.nodup
  queued p a := by
    rw [h.queued p a]
    by_cases haq : a = qa
    · simp [haq]
    · simp [haq]
  bucket a queueCmd _ hqc := by
    by_cases haq : a = qa
    · simp [haq] at hqc
    · simp only [Function.update_of_ne haq] at hqc
      exact h.bucket a queueCmd (by simpa using haq) hqc
  owner a b hb := by
    obtain ⟨qa', queueCmd', hne, hptr, hqc, hbucket⟩ := h.owner a b hb
    have haq : qa' ≠ qa := by simpa using hne
    exact ⟨qa', queueCmd', by simp, hptr, by simpa [Function.update_of_ne haq] using hqc, hbucket⟩
  accepted := h.accepted
  groupLive a queueCmd g _ hqc hg := by
    by_cases haq : a = qa
    · simp [haq] at hqc
    · simp only [Function.update_of_ne haq] at hqc
      exact h.groupLive a queueCmd g (by simpa using haq) hqc hg
  groupFresh := h.groupFresh

/-! ## Putting an entry in -/

/-- A new entry is allocated. -/
theorem VOutQueue.Inv.alloc (h : oq.Inv none) :
    VOutQueue.Inv { oq with next := oq.next + 1 } (some oq.next) where
  wf := h.wf
  fresh a ha := h.fresh a (Nat.le_of_succ_le ha)
  nodup := h.nodup
  queued p a := by
    rw [h.queued p a]
    by_cases ha : a = oq.next
    · simp [ha, h.fresh oq.next (Nat.le_refl _)]
    · simp [ha]
  bucket a queueCmd _ hqc := h.bucket a queueCmd (by simp) hqc
  owner a b hb := by
    obtain ⟨qa', queueCmd', -, hptr, hqc, hbucket⟩ := h.owner a b hb
    refine ⟨qa', queueCmd', ?_, hptr, hqc, hbucket⟩
    have := h.lt_next hqc
    simp only [ne_eq, Option.some.injEq]
    omega
  accepted := h.accepted
  groupLive a queueCmd g _ hqc hg := h.groupLive a queueCmd g (by simp) hqc hg
  groupFresh := h.groupFresh

theorem VOutQueue.Inv.border_ne (h : oq.Inv hole) {head : Bool} {prio ba : ℕ}
    (hba : oq.border head prio = some ba) :
    some ba ≠ hole ∧ ∃ border, oq.qheap ba = some border ∧ border.prio = prio := by
  have hmem : ba ∈ oq.queues prio := by
    unfold VOutQueue.border at hba
    split at hba
    · exact List.mem_of_mem_head? hba
    · exact List.mem_of_getLast? hba
  exact (h.queued prio ba).mp hmem

/-- Joining the group of the entry at the border changes nothing but groups. -/
theorem VOutQueue.Inv.joinGroup (h : oq.Inv (some qa)) (head : Bool) (prio : ℕ) (shareAddr : Bool)
    (id : ℕ) {old : Option ℕ} (hold : ∀ g, old = some g → ∃ grp, oq.groups g = some grp)
    (cmd : GenericCmd) :
    ∃ qheap groups nextGroup group,
      Verse.joinGroup oq head prio shareAddr id old cmd =
          some ({ oq with qheap := qheap, groups := groups, nextGroup := nextGroup }, group) ∧
        (∀ a, (qheap a).map (·.bare) = (oq.qheap a).map (·.bare)) ∧
        VOutQueue.Inv { oq with qheap := qheap, groups := groups, nextGroup := nextGroup }
          (some qa) ∧
        ∀ g, group = some g → ∃ grp, groups g = some grp := by
  cases hborder : oq.border head prio with
  | none =>
      exact ⟨oq.qheap, oq.groups, oq.nextGroup, old, by simp [Verse.joinGroup, hborder],
        fun _ => rfl, h, hold⟩
  | some ba =>
      obtain ⟨hne, border, hqc, -⟩ := h.border_ne hborder
      obtain ⟨b, hb, -, -⟩ := h.bucket ba border hne hqc
      by_cases hshare : (shareAddr && border.id = id) = true
      · cases hgroup : border.group with
        | none =>
            -- the entry at the border was alone: both get a new group
            refine ⟨_, _, _, some oq.nextGroup,
              by simp only [Verse.joinGroup, hborder, hqc, hshare, if_true, hb, hgroup]; rfl,
              ?_, ?_, ?_⟩
            · intro a
              by_cases ha : a = ba
              · subst ha
                simp [hqc, VOutQueueCommand.bare]
              · simp [ha]
            · refine h.regroup ?_ ?_ ?_
              · intro a
                by_cases ha : a = ba
                · subst ha
                  simp [hqc, VOutQueueCommand.bare]
                · simp [ha]
              · intro a c g hne' hc hg
                by_cases hgn : g = oq.nextGroup
                · subst hgn
                  simp
                · rw [Function.update_of_ne hgn]
                  by_cases ha : a = ba
                  · subst ha
                    simp only [Function.update_self, Option.some.injEq] at hc
                    subst hc
                    exact absurd (Option.some.inj hg).symm hgn
                  · rw [Function.update_of_ne ha] at hc
                    exact h.groupLive a c g hne' hc hg
              · intro g hg
                have hgn : g ≠ oq.nextGroup := by omega
                rw [Function.update_of_ne hgn]
                exact h.groupFresh g (by omega)
            · intro g hg
              obtain rfl := Option.some.inj hg
              simp
        | some g =>
            obtain ⟨grp, hgrp⟩ := h.groupLive ba border g hne hqc hgroup
            refine ⟨oq.qheap, _, oq.nextGroup, some g,
              by simp only [Verse.joinGroup, hborder, hqc, hshare, if_true, hb, hgroup, hgrp]; rfl,
              fun _ => rfl, ?_, ?_⟩
            · refine h.regroup (fun _ => rfl) ?_ ?_
              · intro a c g' hne' hc hg'
                by_cases hgg : g' = g
                · subst hgg
                  simp
                · rw [Function.update_of_ne hgg]
                  exact h.groupLive a c g' hne' hc hg'
              · intro g' hg'
                have hlt := h.group_lt hgrp
                have hgg : g' ≠ g := by omega
                rw [Function.update_of_ne hgg]
                exact h.groupFresh g' hg'
            · intro g' hg'
              obtain rfl := Option.some.inj hg'
              simp
      · refine ⟨oq.qheap, oq.groups, oq.nextGroup, none, ?_, fun _ => rfl, h, by simp⟩
        simp [Verse.joinGroup, hborder, hqc, hshare]

/-- A list with a new entry at its head or its tail. -/
def place {α : Type*} (head : Bool) (a : α) (l : List α) : List α :=
  if head then a :: l else l ++ [a]

theorem place_perm {α : Type*} (head : Bool) (a : α) (l : List α) :
    (place head a l).Perm (a :: l) := by
  cases head with
  | true => exact List.Perm.refl _
  | false => exact List.perm_append_singleton a l

/-- The entry at `qa` becomes `queueCmd`, with the new bucket that holds `cmd`. -/
theorem VOutQueue.Inv.attach (h : oq.Inv (some qa)) (queueCmd : VOutQueueCommand)
    (hlt : qa < oq.next) (head : Bool) {cmd : CmdPtr} (hq : vCmdQueueCreate cmd.id true = some q) (hkeyed : q.Keyed)
    (hbucket : queueCmd.vbucket = oq.table.next) (hid : queueCmd.id = cmd.id)
    (hgroup : ∀ g, queueCmd.group = some g → ∃ grp, oq.groups g = some grp)
    (pc ps : ℕ → ℕ) (maxPrio minPrio : ℕ) :
    VOutQueue.Inv
      { oq with
        table := (oq.table.added q cmd).write oq.table.next ⟨cmd, some qa⟩
        qheap := Function.update oq.qheap qa (some queueCmd)
        queues := Function.update oq.queues queueCmd.prio
          (place head qa (oq.queues queueCmd.prio))
        prioCount := pc
        prioSize := ps
        maxPrio := maxPrio
        minPrio := minPrio } none := by
  have hheap : ((oq.table.added q cmd).write oq.table.next ⟨cmd, some qa⟩).heap =
      Function.update oq.table.heap oq.table.next (some ⟨cmd, some qa⟩) := by
    simp [Function.update_idem]
  have hnot : ∀ p, qa ∉ oq.queues p := fun p hmem => ((h.queued p qa).mp hmem).1 rfl
  refine
    { wf := ?_, fresh := ?_, nodup := ?_, queued := ?_, bucket := ?_, owner := ?_,
      accepted := ?_, groupLive := ?_, groupFresh := h.groupFresh }
  · exact (h.wf.added cmd hq).write (b := ⟨cmd, none⟩) (by simp) rfl fun _ _ => rfl
  · intro a ha
    have hne : a ≠ qa := by
      have : oq.next ≤ a := ha
      omega
    simpa [Function.update_of_ne hne] using h.fresh a ha
  · intro p
    by_cases hp : p = queueCmd.prio
    · subst hp
      simp only [Function.update_self, (place_perm head qa _).nodup_iff, List.nodup_cons]
      exact ⟨hnot _, h.nodup _⟩
    · simpa [Function.update_of_ne hp] using h.nodup p
  · intro p a
    by_cases ha : a = qa
    · subst ha
      by_cases hp : p = queueCmd.prio
      · subst hp
        simp [(place_perm head a _).mem_iff]
      · simp [hp, hnot p, Ne.symm hp]
    · have hold := h.queued p a
      by_cases hp : p = queueCmd.prio
      · subst hp
        simpa [(place_perm head qa _).mem_iff, ha] using hold
      · simpa [hp, ha] using hold
  · intro a c _ hc
    rw [hheap]
    by_cases ha : a = qa
    · subst ha
      obtain rfl : queueCmd = c := by simpa using hc
      exact ⟨⟨cmd, some a⟩, by simp [hbucket], rfl, hid.symm⟩
    · simp only [Function.update_of_ne ha] at hc
      obtain ⟨b', hb', hptr', hbid'⟩ := h.bucket a c (by simpa using ha) hc
      have hne : c.vbucket ≠ oq.table.next := Nat.ne_of_lt (h.wf.lt_next hb')
      exact ⟨b', by rw [Function.update_of_ne hne, hb'], hptr', hbid'⟩
  · intro a b' hb'
    rw [hheap] at hb'
    by_cases ha : a = oq.table.next
    · subst ha
      obtain rfl : ⟨cmd, some qa⟩ = b' := by simpa using hb'
      exact ⟨qa, queueCmd, by simp, rfl, by simp, hbucket⟩
    · rw [Function.update_of_ne ha] at hb'
      obtain ⟨qa', c, hne, hptr', hc, hbucket'⟩ := h.owner a b' hb'
      have hqa : qa' ≠ qa := by simpa using hne
      exact ⟨qa', c, by simp, hptr', by simp [Function.update_of_ne hqa, hc],
        hbucket'⟩
  · intro a b' hb'
    rw [hheap] at hb'
    by_cases ha : a = oq.table.next
    · subst ha
      obtain rfl : ⟨cmd, some qa⟩ = b' := by simpa using hb'
      exact ⟨q, hq, hkeyed⟩
    · rw [Function.update_of_ne ha] at hb'
      exact h.accepted a b' hb'
  · intro a c g _ hc hg
    by_cases ha : a = qa
    · subst ha
      obtain rfl : queueCmd = c := by simpa using hc
      exact hgroup g hg
    · simp only [Function.update_of_ne ha] at hc
      exact h.groupLive a c g (by simpa using ha) hc hg

theorem VOutQueue.Inv.cmdAt_attach (h : oq.Inv (some qa)) (queueCmd : VOutQueueCommand)
    {cmd : CmdPtr}
    (hbucket : queueCmd.vbucket = oq.table.next) (queues : ℕ → List ℕ) (pc ps : ℕ → ℕ)
    (maxPrio minPrio : ℕ) :
    VOutQueue.cmdAt
      { oq with
        table := (oq.table.added q cmd).write oq.table.next ⟨cmd, some qa⟩
        qheap := Function.update oq.qheap qa (some queueCmd)
        queues := queues
        prioCount := pc
        prioSize := ps
        maxPrio := maxPrio
        minPrio := minPrio } = Function.update oq.cmdAt qa (some cmd) := by
  funext a
  by_cases ha : a = qa
  · subst ha
    simp [VOutQueue.cmdAt, hbucket]
  · rw [Function.update_of_ne ha]
    cases hc : oq.qheap a with
    | none => simp [VOutQueue.cmdAt, Function.update_of_ne ha, hc]
    | some c =>
        obtain ⟨b', hb', -, -⟩ := h.bucket a c (by simpa using ha) hc
        have hne : c.vbucket ≠ oq.table.next := Nat.ne_of_lt (h.wf.lt_next hb')
        simp [VOutQueue.cmdAt, Function.update_of_ne ha, hc, Function.update_of_ne hne]

/-- The entry at `qa` is put to its list with a new bucket for `cmd`. -/
theorem VOutQueue.Inv.insert (h : oq.Inv (some qa)) (queueCmd : VOutQueueCommand)
    (hlt : qa < oq.next) (head : Bool) {prio : ℕ} (hprio : queueCmd.prio = prio) {cmd : CmdPtr} (hid : queueCmd.id = cmd.id)
    (hgroup : ∀ g, queueCmd.group = some g → ∃ grp, oq.groups g = some grp)
    (hq : vCmdQueueCreate cmd.id true = some q) (hkeyed : q.Keyed) (shareAddr : Bool) :
    ∃ oq₁ oq₂, vOutQueueCommandAdd oq head prio shareAddr qa queueCmd cmd.cmd = some oq₁ ∧
      attachBucket oq₁ q prio qa cmd = some oq₂ ∧ oq₂.Inv none ∧
      oq₂.queues = Function.update oq.queues prio (place head qa (oq.queues prio)) ∧
      oq₂.cmdAt = Function.update oq.cmdAt qa (some cmd) := by
  subst hprio
  obtain ⟨qheap, groups, nextGroup, group, hjoin, hbare, hinv, hlive⟩ :=
    h.joinGroup head queueCmd.prio shareAddr queueCmd.id hgroup cmd.cmd
  have hcmdAt := VOutQueue.cmdAt_regroup groups nextGroup hbare
  refine ⟨_, _, by simp only [vOutQueueCommandAdd, hjoin]; rfl, by
    simp only [attachBucket, Function.update_self, vHashArrayAddItem_eq cmd hkeyed,
      Function.update_idem]; rfl, ?_, rfl, ?_⟩
  · exact hinv.attach { queueCmd with group := group, vbucket := oq.table.next } hlt head hq hkeyed
      rfl hid hlive _ _ _ _
  · rw [← hcmdAt]
    exact hinv.cmdAt_attach { queueCmd with group := group, vbucket := oq.table.next } rfl _ _ _ _ _

end Verse
