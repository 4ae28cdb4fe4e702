import Mathlib.Algebra.BigOperators.Group.Finset.Basic
import Mathlib.Algebra.Order.Group.Multiset
import Verse.Queues.OutQueueInv

/-!
# What the functions of the outgoing queue do

One lemma for each of `v_out_queue_push_head`, `v_out_queue_push_tail` and
`v_out_queue_pop`: the call goes through, the invariant holds after it, and the
lists of entries and the commands of the entries change as stated
(`PushEffect`, `PopEffect`).

`VOutQueue.PushSafe` and `VOutQueue.PopSafe` are what has to hold before the call.
Popping removes the first bucket that has the key of the command, so it needs
the bucket of the command itself to be that one; and no entry may be left that
points to a group whose memory is freed.
-/

namespace Verse

open Lib

variable {oq : VOutQueue} {q : VCommandQueue} {qa : ℕ} {queueCmd : VOutQueueCommand} {b : VBucket}

/-! ## Pushing -/

/-- `cmd` is a newer version of `old`: commands of their id may be replaced, and
the keys are the same. -/
def Replaces (cmd old : CmdPtr) : Prop :=
  ∃ q, vCmdQueueCreate cmd.id true = some q ∧ q.removeHashDups = true ∧ old.id = cmd.id ∧
    q.key old.cmd = q.key cmd.cmd

/-- The entry of the command that a push of `cmd` replaces. -/
def VOutQueue.twin (oq : VOutQueue) (cmd : CmdPtr) : Option ℕ :=
  match vCmdQueueCreate cmd.id true with
  | none => none
  | some q =>
      if q.removeHashDups then
        match vHashArrayFindItem oq.table q cmd.cmd with
        | some (some a) => (oq.table.heap a).bind (·.ptr)
        | _ => none
      else none

/-- When the push moves an entry to another priority, no entry is left with the
group that is freed. -/
def VOutQueue.PushSafe (oq : VOutQueue) (prio : ℕ) (cmd : CmdPtr) : Prop :=
  ∀ qa queueCmd, oq.twin cmd = some qa → oq.qheap qa = some queueCmd → queueCmd.prio ≠ prio →
    oq.LastOfGroup qa queueCmd

/-- What a push does: nothing, when the queue is full; it adds an entry; it moves
the entry of the command that is replaced; or it only replaces that command. -/
inductive PushEffect (oq oq' : VOutQueue) (head : Bool) (prio : ℕ) (cmd : CmdPtr) :
    Bool → Option CmdPtr → Prop
  | full (heq : oq' = oq) : PushEffect oq oq' head prio cmd false none
  | added (htwin : oq.twin cmd = none)
      (hqueues : oq'.queues =
        Function.update oq.queues prio (place head oq.next (oq.queues prio)))
      (hcmdAt : oq'.cmdAt = Function.update oq.cmdAt oq.next (some cmd)) :
      PushEffect oq oq' head prio cmd true none
  | moved (qa p : ℕ) (old : CmdPtr) (htwin : oq.twin cmd = some qa) (hmem : qa ∈ oq.queues p)
      (hne : p ≠ prio) (hold : oq.cmdAt qa = some old) (hrep : Replaces cmd old)
      (hqueues : oq'.queues =
        Function.update (Function.update oq.queues p ((oq.queues p).erase qa)) prio
          (place head qa (oq.queues prio)))
      (hcmdAt : oq'.cmdAt = Function.update oq.cmdAt qa (some cmd)) :
      PushEffect oq oq' head prio cmd true (some old)
  | replaced (qa : ℕ) (old : CmdPtr) (htwin : oq.twin cmd = some qa) (hmem : qa ∈ oq.queues prio)
      (hold : oq.cmdAt qa = some old) (hrep : Replaces cmd old)
      (hqueues : oq'.queues = oq.queues)
      (hcmdAt : oq'.cmdAt = Function.update oq.cmdAt qa (some cmd)) :
      PushEffect oq oq' head prio cmd true (some old)

theorem vOutQueueCommandCreate_spec (h : oq.Inv none) {cmd : CmdPtr}
    (hq : vCmdQueueCreate cmd.id true = some q) (hkeyed : q.Keyed) (htwin : oq.twin cmd = none)
    (head limits : Bool) (prio : ℕ) :
    (limits = true ∧ vOutQueueCommandCreate oq q head limits prio cmd = some none) ∨
      ∃ oq', vOutQueueCommandCreate oq q head limits prio cmd = some (some oq') ∧ oq'.Inv none ∧
        PushEffect oq oq' head prio cmd true none := by
  by_cases hfull : (limits && oq.maxSize < add32 oq.size q.itemSize) = true
  · have hlimits := (Bool.and_eq_true_iff.mp hfull).1
    exact Or.inl ⟨hlimits, by simp only [vOutQueueCommandCreate, hfull, if_true]⟩
  · right
    have hlive : ∀ g, (⟨0, cmd.id, prio, none⟩ : VOutQueueCommand).group = some g →
        ∃ grp, oq.groups g = some grp := by
      intro g hg
      cases hg
    obtain ⟨oq₁, oq₂, hadd, hattach, hinv, hqueues, hcmdAt⟩ :=
      h.alloc.insert ⟨0, cmd.id, prio, none⟩ (Nat.lt_succ_self _) head rfl rfl hlive hq hkeyed (!q.notShareAddr)
    refine ⟨{ oq₂ with count := inc32 oq₂.count, size := add32 oq₂.size q.itemSize }, ?_, ?_, ?_⟩
    · simp only [vOutQueueCommandCreate, hfull, if_false, hadd, hattach, Bool.false_eq_true]
    · exact ⟨hinv.wf, hinv.fresh, hinv.nodup, hinv.queued, hinv.bucket, hinv.owner, hinv.accepted,
        hinv.groupLive, hinv.groupFresh⟩
    · exact PushEffect.added htwin hqueues hcmdAt

/-- The bucket that is found is the bucket that is removed. -/
theorem vHashArrayRemoveItem_of_find {t : CmdTable} (h : t.WF true) {cmd : GenericCmd} {a : ℕ}
    (hq : vCmdQueueCreate cmd.id.toNat true = some q) (hkeyed : q.Keyed)
    (hfirst : vHashArrayFindItem t q cmd = some (some a)) :
    vHashArrayRemoveItem t q cmd = some (t.removed q cmd a, true) := by
  rw [vHashArrayFindItem_eq h cmd hq hkeyed, Option.some.injEq] at hfirst
  rw [vHashArrayRemoveItem_eq h cmd hq hkeyed, hfirst]

/-- The entry at `qa` is taken out of its list, with its bucket and its place in
its group: the common part of a change of priority and of a pop. -/
theorem VOutQueue.Inv.takeOut (h : oq.Inv none) (hqc : oq.qheap qa = some queueCmd)
    (hb : oq.table.heap queueCmd.vbucket = some b)
    (hq : vCmdQueueCreate b.data.id true = some q) (hlast : oq.LastOfGroup qa queueCmd)
    (pc ps : ℕ → ℕ) (count size : ℕ) :
    ∃ oq₁, Verse.dropGroup
        { oq with
          table := oq.table.removed q b.data.cmd queueCmd.vbucket
          queues := Function.update oq.queues queueCmd.prio ((oq.queues queueCmd.prio).erase qa)
          prioCount := pc
          prioSize := ps
          count := count
          size := size } queueCmd.group = some oq₁ ∧
      oq₁.Inv (some qa) ∧
      oq₁.queues = Function.update oq.queues queueCmd.prio ((oq.queues queueCmd.prio).erase qa) ∧
      oq₁.cmdAt = Function.update oq.cmdAt qa none ∧ oq₁.next = oq.next := by
  obtain ⟨groups, hdrop, hdropped⟩ := (h.detach hqc hb hq pc ps count size).dropGroup
    (fun g hg => h.groupLive qa queueCmd g (by simp) hqc hg) hlast
  exact ⟨_, hdrop, hdropped, rfl, h.cmdAt_detach hqc b.data.cmd oq.queues pc ps count size, rfl⟩

theorem changePriority_spec (h : oq.Inv none) {cmd : CmdPtr} (hqc : oq.qheap qa = some queueCmd)
    (hb : oq.table.heap queueCmd.vbucket = some b) (hid : b.data.id = cmd.id)
    (hq : vCmdQueueCreate cmd.id true = some q) (hkeyed : q.Keyed)
    (hfirst : vHashArrayFindItem oq.table q b.data.cmd = some (some queueCmd.vbucket))
    (hlast : oq.LastOfGroup qa queueCmd) (head : Bool) {prio : ℕ} (hne : queueCmd.prio ≠ prio) :
    ∃ oq', changePriority oq q head prio qa queueCmd b.data cmd = some oq' ∧ oq'.Inv none ∧
      oq'.queues = Function.update
        (Function.update oq.queues queueCmd.prio ((oq.queues queueCmd.prio).erase qa)) prio
          (place head qa (oq.queues prio)) ∧
      oq'.cmdAt = Function.update oq.cmdAt qa (some cmd) := by
  have hqb : vCmdQueueCreate b.data.id true = some q := by rw [hid, hq]
  have hremove := vHashArrayRemoveItem_of_find h.wf hqb hkeyed hfirst
  obtain ⟨oq₁, hdrop, hinv₁, hqueues₁, hcmdAt₁, hnext₁⟩ := h.takeOut hqc hb hqb hlast
    (Function.update oq.prioCount queueCmd.prio (dec32 (oq.prioCount queueCmd.prio)))
    (Function.update oq.prioSize queueCmd.prio
      (sub32 (oq.prioSize queueCmd.prio) q.itemSize)) oq.count oq.size
  let group := queueCmd.group.bind fun g => if oq₁.groups g = none then none else some g
  have hlive : ∀ g, group = some g → ∃ grp, oq₁.groups g = some grp := by
    intro g hg
    obtain ⟨g', -, hg'⟩ := Option.bind_eq_some_iff.mp hg
    split at hg'
    · cases hg'
    · rename_i hsome
      obtain rfl := Option.some.inj hg'
      exact Option.ne_none_iff_exists'.mp hsome
  have hlt : qa < oq₁.next := hnext₁ ▸ h.lt_next hqc
  obtain ⟨oq₂, oq₃, hadd, hattach, hinv, hqueues, hcmdAt⟩ :=
    hinv₁.insert ⟨queueCmd.vbucket, cmd.id, prio, group⟩ hlt head rfl rfl hlive hq hkeyed
      (!q.notShareAddr)
  refine ⟨oq₃, ?_, hinv, ?_, ?_⟩
  · simp only [changePriority, hremove, hdrop]
    rw [hadd]
    exact hattach
  · rw [hqueues, hqueues₁, Function.update_of_ne hne.symm]
  · rw [hcmdAt, hcmdAt₁, Function.update_idem]

/-- The entry of the bucket that is found. -/
theorem VOutQueue.Inv.twin_of_find (h : oq.Inv none) {cmd : CmdPtr} {a : ℕ}
    (hq : vCmdQueueCreate cmd.id true = some q) (hkeyed : q.Keyed)
    (hdups : q.removeHashDups = true)
    (hfind : vHashArrayFindItem oq.table q cmd.cmd = some (some a)) :
    ∃ b qa queueCmd, oq.table.heap a = some b ∧ b.ptr = some qa ∧ oq.qheap qa = some queueCmd ∧
      queueCmd.vbucket = a ∧ Replaces cmd b.data ∧ oq.twin cmd = some qa ∧
      vHashArrayFindItem oq.table q b.data.cmd = some (some a) := by
  have hlist := hfind
  rw [vHashArrayFindItem_eq h.wf cmd.cmd hq hkeyed, Option.some.injEq] at hlist
  obtain ⟨b, hb, hid⟩ := h.wf.live (List.mem_of_find?_eq_some hlist)
  obtain ⟨qa, queueCmd, -, hptr, hqc, hbucket⟩ := h.owner a b hb
  have hkey : q.key b.data.cmd = q.key cmd.cmd := by
    have := List.find?_some hlist
    simpa [CmdTable.hasKey, hb] using this
  refine ⟨b, qa, queueCmd, hb, hptr, hqc, hbucket, ⟨q, hq, hdups, hid, hkey⟩, ?_, ?_⟩
  · simp [VOutQueue.twin, hq, hdups, hfind, hb, hptr]
  · have hqb : vCmdQueueCreate b.data.cmd.id.toNat true = some q := by
      rw [← hq]
      exact congrArg (vCmdQueueCreate · true) hid
    have hid' : b.data.cmd.id.toNat = cmd.cmd.id.toNat := hid
    rw [vHashArrayFindItem_eq h.wf b.data.cmd hqb hkeyed, hid', Option.some.injEq, ← hlist]
    congr 1
    funext c
    simp only [CmdTable.hasKey, hkey]

/-- The bucket of an entry is given another command with the same key. -/
theorem VOutQueue.Inv.rewrite (h : oq.Inv none) {cmd : CmdPtr}
    (hb : oq.table.heap queueCmd.vbucket = some b) (hrep : Replaces cmd b.data) :
    VOutQueue.Inv { oq with table := oq.table.write queueCmd.vbucket { b with data := cmd } }
      none := by
  obtain ⟨q, hq, -, hid, hkey⟩ := hrep
  have hheap : ∀ a, (oq.table.write queueCmd.vbucket { b with data := cmd }).heap a =
      if a = queueCmd.vbucket then some { b with data := cmd } else oq.table.heap a := by
    intro a
    by_cases ha : a = queueCmd.vbucket
    · simp [ha]
    · simp [ha]
  refine
    { wf := ?_, fresh := h.fresh, nodup := h.nodup, queued := h.queued, bucket := ?_, owner := ?_,
      accepted := ?_, groupLive := h.groupLive, groupFresh := h.groupFresh }
  · refine h.wf.write hb hid.symm fun q' hq' => ?_
    rw [hid, hq] at hq'
    obtain rfl := Option.some.inj hq'
    exact hkey.symm
  · intro a c hne hc
    obtain ⟨b', hb', hptr', hid'⟩ := h.bucket a c hne hc
    simp only [hheap]
    by_cases ha : c.vbucket = queueCmd.vbucket
    · rw [ha, hb] at hb'
      obtain rfl := Option.some.inj hb'
      exact ⟨{ b with data := cmd }, by simp [ha], hptr', hid.symm.trans hid'⟩
    · exact ⟨b', by simp [ha, hb'], hptr', hid'⟩
  · intro a b' hb'
    simp only [hheap] at hb'
    split at hb'
    · rename_i ha
      obtain rfl := Option.some.inj hb'
      obtain ⟨qa', c, hne, hptr', hc, hbucket⟩ := h.owner _ b hb
      exact ⟨qa', c, hne, hptr', hc, hbucket.trans ha.symm⟩
    · exact h.owner a b' hb'
  · intro a b' hb'
    simp only [hheap] at hb'
    split at hb'
    · obtain rfl := Option.some.inj hb'
      obtain ⟨q', hq', hkeyed'⟩ := h.accepted _ b hb
      exact ⟨q', by rw [← hq', hid], hkeyed'⟩
    · exact h.accepted a b' hb'

theorem VOutQueue.Inv.cmdAt_rewrite (h : oq.Inv none) (cmd : CmdPtr)
    (hqc : oq.qheap qa = some queueCmd) :
    VOutQueue.cmdAt { oq with table := oq.table.write queueCmd.vbucket { b with data := cmd } } =
      Function.update oq.cmdAt qa (some cmd) := by
  funext a
  by_cases ha : a = qa
  · subst ha
    simp [VOutQueue.cmdAt, hqc]
  · rw [Function.update_of_ne ha]
    cases hc : oq.qheap a with
    | none => simp [VOutQueue.cmdAt, hc]
    | some c =>
        have hne : c.vbucket ≠ queueCmd.vbucket := fun heq =>
          ha (h.vbucket_inj (by simp) (by simp) hc hqc heq)
        simp [VOutQueue.cmdAt, hc, Function.update_of_ne hne]

/-- **Pushing** goes through and keeps the invariant. -/
theorem vOutQueuePush_spec (h : oq.Inv none) {cmd : CmdPtr} (hacc : Accepted cmd)
    (head limits : Bool) {prio : ℕ} (hsafe : oq.PushSafe prio cmd) :
    ∃ oq' pushed old, vOutQueuePush oq head limits prio cmd = some (oq', pushed, old) ∧
      oq'.Inv none ∧ (limits = false → pushed = true) ∧
      PushEffect oq oq' head prio cmd pushed old := by
  obtain ⟨q, hq, hkeyed⟩ := hacc
  have hadd : oq.twin cmd = none →
      (if q.removeHashDups then vHashArrayFindItem oq.table q cmd.cmd else some none) =
        some none →
      ∃ oq' pushed old, vOutQueuePush oq head limits prio cmd = some (oq', pushed, old) ∧
        oq'.Inv none ∧ (limits = false → pushed = true) ∧
        PushEffect oq oq' head prio cmd pushed old := by
    intro htwin hfind
    rcases vOutQueueCommandCreate_spec h hq hkeyed htwin head limits prio with
      ⟨hlimits, hfull⟩ | ⟨oq', hcreate, hinv, heffect⟩
    · exact ⟨oq, false, none, by simp only [vOutQueuePush, hq, hfind, hfull], h,
        by simp [hlimits], PushEffect.full rfl⟩
    · exact ⟨oq', true, none, by simp only [vOutQueuePush, hq, hfind, hcreate], hinv, fun _ => rfl,
        heffect⟩
  by_cases hdups : q.removeHashDups = true
  · have hlist := vHashArrayFindItem_eq h.wf cmd.cmd hq hkeyed
    cases hfound : (oq.table.lb cmd.cmd.id.toNat).find? (oq.table.hasKey q cmd.cmd) with
    | none =>
        rw [hfound] at hlist
        exact hadd (by simp [VOutQueue.twin, hq, hdups, hlist]) (by simp [hdups, hlist])
    | some a =>
        rw [hfound] at hlist
        obtain ⟨b, qa, queueCmd, hb, hptr, hqc, hbucket, hrep, htwin, hfirst⟩ :=
          h.twin_of_find hq hkeyed hdups hlist
        have hcmdAt : oq.cmdAt qa = some b.data := by simp [VOutQueue.cmdAt, hqc, hbucket, hb]
        subst hbucket
        by_cases hprio : queueCmd.prio = prio
        · subst hprio
          refine ⟨_, true, some b.data, ?_, h.rewrite hb hrep, fun _ => rfl, ?_⟩
          · simp [vOutQueuePush, hq, hdups, hlist, hb, hptr, hqc]
          · exact PushEffect.replaced qa b.data htwin (h.mem_queue (by simp) hqc) hcmdAt hrep rfl
              (h.cmdAt_rewrite cmd hqc)
        · have hid : b.data.id = cmd.id := by
            obtain ⟨-, -, -, hid, -⟩ := hrep
            exact hid
          obtain ⟨oq', hchange, hinv, hqueues, hcmdAt'⟩ := changePriority_spec h hqc hb hid hq
            hkeyed hfirst (hsafe qa queueCmd htwin hqc hprio) head hprio
          refine ⟨oq', true, some b.data, ?_, hinv, fun _ => rfl, ?_⟩
          · simp [vOutQueuePush, hq, hdups, hlist, hb, hptr, hqc, hprio, hchange]
          · exact PushEffect.moved qa queueCmd.prio b.data htwin (h.mem_queue (by simp) hqc) hprio
              hcmdAt hrep hqueues hcmdAt'
  · exact hadd (by simp [VOutQueue.twin, hq, hdups]) (by simp [hdups])

/-- A command is pushed to the head unless the queue has a newer version of it. -/
theorem vOutQueuePushHead_spec (h : oq.Inv none) {cmd : CmdPtr} (hacc : Accepted cmd) (prio : ℕ) :
    (∃ qa, oq.twin cmd = some qa ∧ vOutQueuePushHead oq prio cmd = some (oq, false, none)) ∨
      ∃ oq', oq.twin cmd = none ∧ vOutQueuePushHead oq prio cmd = some (oq', true, none) ∧
        oq'.Inv none ∧
        oq'.queues = Function.update oq.queues prio (oq.next :: oq.queues prio) ∧
        oq'.cmdAt = Function.update oq.cmdAt oq.next (some cmd) := by
  obtain ⟨q, hq, hkeyed⟩ := hacc
  have hpush : oq.twin cmd = none →
      vOutQueuePushHead oq prio cmd = vOutQueuePush oq true false prio cmd →
      ∃ oq', oq.twin cmd = none ∧ vOutQueuePushHead oq prio cmd = some (oq', true, none) ∧
        oq'.Inv none ∧
        oq'.queues = Function.update oq.queues prio (oq.next :: oq.queues prio) ∧
        oq'.cmdAt = Function.update oq.cmdAt oq.next (some cmd) := by
    intro htwin heq
    have hsafe : oq.PushSafe prio cmd := by
      intro qa queueCmd htwin'
      rw [htwin] at htwin'
      cases htwin'
    obtain ⟨oq', pushed, old, hres, hinv, hpushed, heffect⟩ :=
      vOutQueuePush_spec h ⟨q, hq, hkeyed⟩ true false hsafe
    cases heffect with
    | full => cases hpushed rfl
    | added _ hqueues hcmdAt => exact ⟨oq', htwin, heq.trans hres, hinv, hqueues, hcmdAt⟩
    | moved qa p old htwin' =>
        rw [htwin] at htwin'
        cases htwin'
    | replaced qa old htwin' =>
        rw [htwin] at htwin'
        cases htwin'
  by_cases hdups : q.removeHashDups = true
  · have hlist := vHashArrayFindItem_eq h.wf cmd.cmd hq hkeyed
    cases hfound : (oq.table.lb cmd.cmd.id.toNat).find? (oq.table.hasKey q cmd.cmd) with
    | none =>
        rw [hfound] at hlist
        exact Or.inr (hpush (by simp [VOutQueue.twin, hq, hdups, hlist])
          (by simp [vOutQueuePushHead, hq, hdups, hlist]))
    | some a =>
        rw [hfound] at hlist
        obtain ⟨-, qa, -, -, -, -, -, -, htwin, -⟩ := h.twin_of_find hq hkeyed hdups hlist
        exact Or.inl ⟨qa, htwin, by simp [vOutQueuePushHead, hq, hdups, hlist]⟩
  · exact Or.inr (hpush (by simp [VOutQueue.twin, hq, hdups])
      (by simp [vOutQueuePushHead, hq, hdups]))

/-! ## Popping -/

/-- When the pop takes a command, the first bucket with the key of the command is
its own, and no entry is left with the group that is freed. -/
def VOutQueue.PopSafe (oq : VOutQueue) (prio len : ℕ) : Prop :=
  ∀ qa rest queueCmd b group q, oq.queues prio = qa :: rest → oq.qheap qa = some queueCmd →
    oq.table.heap queueCmd.vbucket = some b → oq.groupOf queueCmd = some group →
    (popPlan b.data.cmd group len).canPop = true → vCmdQueueCreate b.data.id true = some q →
    vHashArrayFindItem oq.table q b.data.cmd = some (some queueCmd.vbucket) ∧
      oq.LastOfGroup qa queueCmd

theorem VOutQueue.updatePrios_eq (oq : VOutQueue) (prio : ℕ) :
    ∃ maxPrio minPrio, oq.updatePrios prio = { oq with maxPrio := maxPrio, minPrio := minPrio } := by
  unfold VOutQueue.updatePrios
  split
  · exact ⟨oq.maxPrio, oq.minPrio, rfl⟩
  split
  · split
    · exact ⟨_, oq.minPrio, rfl⟩
    · exact ⟨oq.maxPrio, oq.minPrio, rfl⟩
  split
  · split
    · exact ⟨oq.maxPrio, _, rfl⟩
    · exact ⟨oq.maxPrio, oq.minPrio, rfl⟩
  split
  · exact ⟨_, _, rfl⟩
  · exact ⟨oq.maxPrio, oq.minPrio, rfl⟩

/-- The head of the list of `prio` was taken, and gave `cmd`. -/
structure PopEffect (oq oq' : VOutQueue) (prio : ℕ) (cmd : CmdPtr) (qa : ℕ) (rest : List ℕ) :
    Prop where
  head : oq.queues prio = qa :: rest
  cmdAt : oq.cmdAt qa = some cmd
  queues' : oq'.queues = Function.update oq.queues prio rest
  cmdAt' : oq'.cmdAt = Function.update oq.cmdAt qa none

theorem popHead_spec (h : oq.Inv none) {prio : ℕ} {rest : List ℕ}
    (hqueue : oq.queues prio = qa :: rest) (hqc : oq.qheap qa = some queueCmd)
    (hb : oq.table.heap queueCmd.vbucket = some b)
    (hq : vCmdQueueCreate b.data.id true = some q) (hkeyed : q.Keyed)
    (hfirst : vHashArrayFindItem oq.table q b.data.cmd = some (some queueCmd.vbucket))
    (hlast : oq.LastOfGroup qa queueCmd) :
    ∃ oq', popHead oq prio qa rest queueCmd b.data = some oq' ∧ oq'.Inv none ∧
      PopEffect oq oq' prio b.data qa rest := by
  have hprio : queueCmd.prio = prio := by
    obtain ⟨-, c, hc, hprio⟩ := (h.queued prio qa).mp (by simp [hqueue])
    rw [hqc] at hc
    obtain rfl := Option.some.inj hc
    exact hprio
  subst hprio
  have hremove := vHashArrayRemoveItem_of_find h.wf hq hkeyed hfirst
  obtain ⟨oq₁, hdrop, hinv₁, hqueues₁, hcmdAt₁, -⟩ := h.takeOut hqc hb hq hlast
    (Function.update oq.prioCount queueCmd.prio (dec32 (oq.prioCount queueCmd.prio)))
    (Function.update oq.prioSize queueCmd.prio
      (sub32 (oq.prioSize queueCmd.prio) q.itemSize)) (dec32 oq.count) (sub32 oq.size q.itemSize)
  have herase : (oq.queues queueCmd.prio).erase qa = rest := by simp [hqueue]
  rw [herase] at hdrop hqueues₁
  obtain ⟨maxPrio, minPrio, hprios⟩ := oq₁.updatePrios_eq queueCmd.prio
  have hinv' : VOutQueue.Inv { oq₁ with maxPrio := maxPrio, minPrio := minPrio } (some qa) :=
    ⟨hinv₁.wf, hinv₁.fresh, hinv₁.nodup, hinv₁.queued, hinv₁.bucket, hinv₁.owner, hinv₁.accepted,
      hinv₁.groupLive, hinv₁.groupFresh⟩
  refine ⟨_, by simp only [popHead, hq, hremove, hdrop, hprios], hinv'.free, ?_⟩
  refine ⟨hqueue, by simp [VOutQueue.cmdAt, hqc, hb], hqueues₁, ?_⟩
  rw [← hcmdAt₁]
  funext a
  by_cases ha : a = qa
  · have hnone := congrFun hcmdAt₁ qa
    rw [Function.update_self] at hnone
    rw [ha, hnone]
    simp [VOutQueue.cmdAt]
  · simp [VOutQueue.cmdAt, Function.update_of_ne ha]

/-- **Popping** goes through and keeps the invariant. -/
theorem vOutQueuePop_spec (h : oq.Inv none) {prio len : ℕ} (hsafe : oq.PopSafe prio len) :
    vOutQueuePop oq prio len = some (oq, none) ∨
      ∃ oq' cmd plan qa rest, vOutQueuePop oq prio len = some (oq', some (cmd, plan)) ∧
        oq'.Inv none ∧ PopEffect oq oq' prio cmd qa rest := by
  cases hqueue : oq.queues prio with
  | nil => exact Or.inl (by simp only [vOutQueuePop, hqueue])
  | cons qa rest =>
      obtain ⟨-, queueCmd, hqc, -⟩ := (h.queued prio qa).mp (by simp [hqueue])
      obtain ⟨b, hb, -, -⟩ := h.bucket qa queueCmd (by simp) hqc
      obtain ⟨q, hq, hkeyed⟩ := h.accepted _ b hb
      obtain ⟨group, hgroup⟩ : ∃ group, oq.groupOf queueCmd = some group := by
        cases hg : queueCmd.group with
        | none => exact ⟨none, by simp [VOutQueue.groupOf, hg]⟩
        | some g =>
            obtain ⟨grp, hgrp⟩ := h.groupLive qa queueCmd g (by simp) hqc hg
            exact ⟨some grp, by simp [VOutQueue.groupOf, hg, hgrp]⟩
      by_cases hpop : (popPlan b.data.cmd group len).canPop = true
      · obtain ⟨hfirst, hlast⟩ := hsafe qa rest queueCmd b group q hqueue hqc hb hgroup hpop hq
        obtain ⟨oq', hres, hinv, heffect⟩ := popHead_spec h hqueue hqc hb hq hkeyed hfirst hlast
        refine Or.inr ⟨oq', b.data, popPlan b.data.cmd group len, qa, rest, ?_, hinv, heffect⟩
        simp only [vOutQueuePop, hqueue, hqc, hb, hgroup, hpop, if_true, hres, Option.map_some]
      · left
        simp only [vOutQueuePop, hqueue, hqc, hb, hgroup, hpop, if_false, Bool.false_eq_true]

/-! ## The commands in the queue -/

theorem filterMap_update_of_not_mem {α : Type*} {f : ℕ → Option α} {a : ℕ} {x : Option α}
    {l : List ℕ} (hnot : a ∉ l) : l.filterMap (Function.update f a x) = l.filterMap f := by
  apply List.filterMap_congr
  intro c hc
  have hne : c ≠ a := fun heq => hnot (heq ▸ hc)
  rw [Function.update_of_ne hne]

theorem place_filterMap {α : Type*} {f : ℕ → Option α} {a : ℕ} {x : α} (hfa : f a = some x)
    (head : Bool) (l : List ℕ) :
    (place head a l).filterMap f = place head x (l.filterMap f) := by
  cases head with
  | true => simp [place, hfa]
  | false => simp [place, List.filterMap_append, hfa]

/-- An entry stands in the list of one priority only. -/
theorem VOutQueue.Inv.mem_unique (h : oq.Inv none) {p p' : ℕ} (hmem : qa ∈ oq.queues p)
    (hmem' : qa ∈ oq.queues p') : p = p' := by
  obtain ⟨-, c, hc, hprio⟩ := (h.queued p qa).mp hmem
  obtain ⟨-, c', hc', hprio'⟩ := (h.queued p' qa).mp hmem'
  rw [hc] at hc'
  obtain rfl := Option.some.inj hc'
  exact hprio.symm.trans hprio'

theorem VOutQueue.Inv.next_not_mem (h : oq.Inv none) (p : ℕ) : oq.next ∉ oq.queues p := by
  intro hmem
  obtain ⟨-, c, hc, -⟩ := (h.queued p _).mp hmem
  exact Nat.lt_irrefl _ (h.lt_next hc)

/-- A list around one of its entries. -/
theorem VOutQueue.Inv.queue_split (h : oq.Inv none) {p : ℕ} (hmem : qa ∈ oq.queues p) :
    ∃ l₁ l₂, oq.queues p = l₁ ++ qa :: l₂ ∧ qa ∉ l₁ ∧ qa ∉ l₂ ∧
      (oq.queues p).erase qa = l₁ ++ l₂ := by
  obtain ⟨l₁, l₂, hsplit⟩ := List.append_of_mem hmem
  have hnodup := h.nodup p
  rw [hsplit] at hnodup
  have hnot₁ : qa ∉ l₁ := by
    intro hmem₁
    exact (List.nodup_append.mp hnodup).2.2 qa hmem₁ qa (by simp) rfl
  have hnot₂ : qa ∉ l₂ := (List.nodup_cons.mp (List.nodup_append.mp hnodup).2.1).1
  refine ⟨l₁, l₂, hsplit, hnot₁, hnot₂, ?_⟩
  rw [hsplit, List.erase_append_right _ hnot₁]
  simp

/-- What a push does to the commands of the priorities. -/
inductive PushChange (c c' : ℕ → List CmdPtr) (head : Bool) (prio : ℕ) (cmd : CmdPtr) :
    Option CmdPtr → Prop
  | added (hc : c' = Function.update c prio (place head cmd (c prio))) :
      PushChange c c' head prio cmd none
  | moved (p : ℕ) (l₁ l₂ : List CmdPtr) (old : CmdPtr) (hne : p ≠ prio)
      (hp : c p = l₁ ++ old :: l₂)
      (hc : c' = Function.update (Function.update c p (l₁ ++ l₂)) prio
        (place head cmd (c prio))) :
      PushChange c c' head prio cmd (some old)
  | replaced (l₁ l₂ : List CmdPtr) (old : CmdPtr) (hp : c prio = l₁ ++ old :: l₂)
      (hc : c' = Function.update c prio (l₁ ++ cmd :: l₂)) :
      PushChange c c' head prio cmd (some old)

theorem PushEffect.change (h : oq.Inv none) {oq' : VOutQueue} {head : Bool} {prio : ℕ}
    {cmd : CmdPtr} {old : Option CmdPtr} (heffect : PushEffect oq oq' head prio cmd true old) :
    PushChange oq.contents oq'.contents head prio cmd old := by
  cases heffect with
  | added _ hqueues hcmdAt =>
      apply PushChange.added
      funext p
      rw [VOutQueue.contents, hqueues, hcmdAt]
      by_cases hp : p = prio
      · subst hp
        rw [Function.update_self, Function.update_self, place_filterMap (Function.update_self ..),
          filterMap_update_of_not_mem (h.next_not_mem p)]
        rfl
      · rw [Function.update_of_ne hp, Function.update_of_ne hp,
          filterMap_update_of_not_mem (h.next_not_mem p)]
        rfl
  | moved qa p old _ hmem hne hold _ hqueues hcmdAt =>
      obtain ⟨l₁, l₂, hsplit, hnot₁, hnot₂, herase⟩ := h.queue_split hmem
      refine PushChange.moved p (l₁.filterMap oq.cmdAt) (l₂.filterMap oq.cmdAt) old hne
        (by simp [VOutQueue.contents, hsplit, List.filterMap_append, hold]) ?_
      funext r
      rw [VOutQueue.contents, hqueues, hcmdAt]
      by_cases hr : r = prio
      · subst hr
        have hnot : qa ∉ oq.queues r := fun hmem' => hne (h.mem_unique hmem hmem')
        rw [Function.update_self, Function.update_self, place_filterMap (Function.update_self ..),
          filterMap_update_of_not_mem hnot]
        rfl
      · rw [Function.update_of_ne hr, Function.update_of_ne hr]
        by_cases hrp : r = p
        · subst hrp
          rw [Function.update_self, Function.update_self, herase, List.filterMap_append,
            filterMap_update_of_not_mem hnot₁, filterMap_update_of_not_mem hnot₂]
        · have hnot : qa ∉ oq.queues r := fun hmem' => hrp (h.mem_unique hmem' hmem)
          rw [Function.update_of_ne hrp, Function.update_of_ne hrp,
            filterMap_update_of_not_mem hnot]
          rfl
  | replaced qa old _ hmem hold _ hqueues hcmdAt =>
      obtain ⟨l₁, l₂, hsplit, hnot₁, hnot₂, -⟩ := h.queue_split hmem
      refine PushChange.replaced (l₁.filterMap oq.cmdAt) (l₂.filterMap oq.cmdAt) old
        (by simp [VOutQueue.contents, hsplit, List.filterMap_append, hold]) ?_
      funext r
      rw [VOutQueue.contents, hqueues, hcmdAt]
      by_cases hr : r = prio
      · subst hr
        rw [Function.update_self, hsplit, List.filterMap_append,
          List.filterMap_cons_some (Function.update_self ..), filterMap_update_of_not_mem hnot₁,
          filterMap_update_of_not_mem hnot₂]
      · have hnot : qa ∉ oq.queues r := fun hmem' => hr (h.mem_unique hmem' hmem)
        rw [Function.update_of_ne hr, filterMap_update_of_not_mem hnot]
        rfl

theorem PopEffect.contents (h : oq.Inv none) {oq' : VOutQueue} {prio : ℕ} {cmd : CmdPtr}
    {rest : List ℕ} (heffect : PopEffect oq oq' prio cmd qa rest) :
    oq.contents prio = cmd :: oq'.contents prio ∧
      ∀ p, p ≠ prio → oq'.contents p = oq.contents p := by
  have hmem : qa ∈ oq.queues prio := by simp [heffect.head]
  have hnot : qa ∉ rest := by
    have := h.nodup prio
    rw [heffect.head] at this
    exact (List.nodup_cons.mp this).1
  constructor
  · rw [VOutQueue.contents, heffect.head, List.filterMap_cons_some heffect.cmdAt,
      VOutQueue.contents, heffect.queues', Function.update_self, heffect.cmdAt',
      filterMap_update_of_not_mem hnot]
  · intro p hp
    have hnot' : qa ∉ oq.queues p := fun hmem' => hp (h.mem_unique hmem' hmem)
    rw [VOutQueue.contents, heffect.queues', Function.update_of_ne hp, heffect.cmdAt',
      filterMap_update_of_not_mem hnot']
    rfl

/-- `MAX_PRIORITY`. -/
def maxPriority : ℕ := 255

/-- All commands, whatever their priority. -/
@[irreducible] def total (c : ℕ → List CmdPtr) : Multiset CmdPtr :=
  ∑ p ∈ Finset.range (maxPriority + 1), (c p : Multiset CmdPtr)

theorem total_nil {c : ℕ → List CmdPtr} (hc : ∀ p, c p = []) : total c = 0 := by
  unfold total
  apply Finset.sum_eq_zero
  intro p _
  rw [hc p, Multiset.coe_nil]

/-- Changing the commands of one priority. -/
theorem total_update {c : ℕ → List CmdPtr} {p : ℕ} (hp : p ≤ maxPriority) (l : List CmdPtr) :
    total (Function.update c p l) + (c p : Multiset CmdPtr) = (l : Multiset CmdPtr) + total c := by
  have hmem : p ∈ Finset.range (maxPriority + 1) := Finset.mem_range.mpr (Nat.lt_succ_of_le hp)
  have hrest : ∑ r ∈ (Finset.range (maxPriority + 1)).erase p,
      (Function.update c p l r : Multiset CmdPtr) =
        ∑ r ∈ (Finset.range (maxPriority + 1)).erase p, (c r : Multiset CmdPtr) := by
    apply Finset.sum_congr rfl
    intro r hr
    rw [Function.update_of_ne (Finset.ne_of_mem_erase hr)]
  unfold total
  rw [← Finset.add_sum_erase _ _ hmem, ← Finset.add_sum_erase _ _ hmem, hrest,
    Function.update_self, add_assoc]
  congr 1
  exact add_comm _ _

/-- **Conservation, push.**  The new command comes in and the replaced one goes. -/
theorem PushChange.total {c c' : ℕ → List CmdPtr} {head : Bool} {prio : ℕ} {cmd : CmdPtr}
    {old : Option CmdPtr} (hchange : PushChange c c' head prio cmd old) (hprio : prio ≤ maxPriority)
    (hbound : ∀ p, maxPriority < p → c p = []) :
    Verse.total c' + (old.toList : Multiset CmdPtr) = cmd ::ₘ Verse.total c := by
  -- the multisets are compared by how often a command occurs
  ext x
  have hcons : ∀ y l, List.count x (y :: l) = List.count x l + if x = y then 1 else 0 := by
    intro y l
    rw [← Multiset.coe_count, ← Multiset.cons_coe, Multiset.count_cons, Multiset.coe_count]
  have hplace : ∀ l, (place head cmd l).count x = l.count x + if x = cmd then 1 else 0 := by
    intro l
    rw [(place_perm head cmd l).count_eq x, hcons]
  cases hchange with
  | added hc =>
      have hsum := congrArg (Multiset.count x) (total_update (c := c) hprio (place head cmd (c prio)))
      rw [← hc] at hsum
      simp only [Multiset.count_add, Multiset.coe_count, hplace] at hsum
      simp only [Option.toList_none, Multiset.coe_nil, add_zero, Multiset.count_cons]
      omega
  | moved p l₁ l₂ old hne hp hc =>
      have hple : p ≤ maxPriority := by
        by_contra hlt
        have := hbound p (Nat.lt_of_not_le hlt)
        rw [hp] at this
        simp at this
      have hout := congrArg (Multiset.count x) (total_update (c := c) hple (l₁ ++ l₂))
      have hin := congrArg (Multiset.count x)
        (total_update (c := Function.update c p (l₁ ++ l₂)) hprio (place head cmd (c prio)))
      rw [← hc, Function.update_of_ne hne.symm] at hin
      simp only [Multiset.count_add, Multiset.coe_count, hplace, hp, hcons,
        List.count_append] at hin hout
      simp only [Option.toList_some, Multiset.coe_singleton, Multiset.count_add,
        Multiset.count_singleton, Multiset.count_cons]
      omega
  | replaced l₁ l₂ old hp hc =>
      have hsum := congrArg (Multiset.count x) (total_update (c := c) hprio (l₁ ++ cmd :: l₂))
      rw [← hc] at hsum
      simp only [Multiset.count_add, Multiset.coe_count, hcons, hp, List.count_append] at hsum
      simp only [Option.toList_some, Multiset.coe_singleton, Multiset.count_add,
        Multiset.count_singleton, Multiset.count_cons]
      omega

/-- **Conservation, pop.** -/
theorem total_pop {c c' : ℕ → List CmdPtr} {prio : ℕ} {cmd : CmdPtr} (hprio : prio ≤ maxPriority)
    (hhead : c prio = cmd :: c' prio) (hrest : ∀ p, p ≠ prio → c' p = c p) :
    total c = cmd ::ₘ total c' := by
  have hc : c = Function.update c' prio (cmd :: c' prio) := by
    funext p
    by_cases hp : p = prio
    · rw [hp, Function.update_self, hhead]
    · rw [Function.update_of_ne hp, hrest p hp]
  have hsum := total_update (c := c') hprio (cmd :: c' prio)
  rw [← hc, ← Multiset.cons_coe, Multiset.cons_add, add_comm (c' prio : Multiset CmdPtr),
    ← Multiset.cons_add] at hsum
  exact add_right_cancel hsum

end Verse
