import Verse.Queues.OutQueueSpec
import Verse.Resend.PacketHistoryInv

/-!
# What the functions of the packet history do

Between two calls the invariant holds for the commands of all packets
(`VPacketHistory.Sound`).  Adding a command makes at most one other obsolete, and
removing a packet destroys its commands that are not obsolete; the live commands
of the other packets stay as they are.
-/

namespace Verse

open Lib

/-- The sent commands of all packets. -/
def VPacketHistory.sent (history : VPacketHistory) : List ℕ :=
  history.packets.flatMap (·.cmds)

structure VPacketHistory.Sound (history : VPacketHistory) : Prop where
  inv : history.Inv {sa | sa ∈ history.sent}
  nodup : history.sent.Nodup

/-- The commands that are neither acknowledged nor obsolete. -/
def VPacketHistory.live (history : VPacketHistory) : List CmdPtr :=
  history.sent.filterMap history.cmdAt

variable {history : VPacketHistory} {active : Set ℕ} {sa a : ℕ} {sentCmd : VSentCommand}
  {b : VBucket} {q : VCommandQueue}

theorem VPacketHistory.sound_init : vPacketHistoryInit.Sound where
  inv := by
    have hset : {sa | sa ∈ vPacketHistoryInit.sent} = ∅ := by
      ext x
      simp [VPacketHistory.sent, vPacketHistoryInit]
    exact hset.symm ▸ VPacketHistory.inv_init
  nodup := List.nodup_nil

/-! ## Adding -/

/-- An empty packet. -/
theorem VPacketHistory.Sound.addPacket (h : history.Sound) (id : ℕ) :
    (vPacketHistoryAddPacket history id).Sound := by
  have hsent : (vPacketHistoryAddPacket history id).sent = history.sent := by
    simp [VPacketHistory.sent, vPacketHistoryAddPacket]
  refine ⟨?_, by rw [hsent]; exact h.nodup⟩
  rw [hsent]
  exact h.inv.frame (history.packets ++ [⟨id, []⟩]) (fun _ _ => rfl) h.inv.fresh

theorem VPacketHistory.live_addPacket (history : VPacketHistory) (id : ℕ) :
    (vPacketHistoryAddPacket history id).live = history.live := by
  have hsent : (vPacketHistoryAddPacket history id).sent = history.sent := by
    simp [VPacketHistory.sent, vPacketHistoryAddPacket]
  rw [VPacketHistory.live, hsent]
  rfl

/-- The pointer of an older version is set to `NULL`, and its bucket removed. -/
theorem VPacketHistory.Inv.obsolete (h : history.Inv active) (hsa : sa ∈ active)
    (hsc : history.sheap sa = some sentCmd) (ha : sentCmd.vbucket = some a)
    (hb : history.table.heap a = some b) (hq : vCmdQueueCreate b.data.id false = some q) :
    VPacketHistory.Inv
      { history with
        table := history.table.removed q b.data.cmd a
        sheap := Function.update history.sheap sa (some { sentCmd with vbucket := none }) }
      active := by
  have hdrop := h.drop hsa hsc ha hb hq
  refine
    { wf := hdrop.wf, fresh := ?_, stored := ?_, bucket := ?_, owner := ?_, keyed := hdrop.keyed,
      unique := hdrop.unique }
  · intro c hc
    have hlt := h.lt_next hsc
    have hne : c ≠ sa := by
      have : history.next ≤ c := hc
      omega
    simpa [Function.update_of_ne hne] using h.fresh c hc
  · intro x hx
    by_cases hxs : x = sa
    · exact ⟨{ sentCmd with vbucket := none }, by simp [hxs]⟩
    · simpa [Function.update_of_ne hxs] using h.stored x hx
  · intro x hx sc' a' hsc' ha'
    by_cases hxs : x = sa
    · subst hxs
      obtain rfl : { sentCmd with vbucket := none } = sc' := by simpa using hsc'
      cases ha'
    · simp only [Function.update_of_ne hxs] at hsc'
      exact hdrop.bucket x ⟨hx, hxs⟩ sc' a' hsc' ha'
  · intro c b' hb'
    obtain ⟨x, hx, sc', hptr', hsc', hbucket'⟩ := hdrop.owner c b' hb'
    have hxs : x ≠ sa := hx.2
    exact ⟨x, hx.1, sc', hptr', by simpa [Function.update_of_ne hxs] using hsc', hbucket'⟩

theorem VPacketHistory.Inv.cmdAt_obsolete (h : history.Inv active) (hsa : sa ∈ active)
    (hsc : history.sheap sa = some sentCmd) (ha : sentCmd.vbucket = some a) (cmd : GenericCmd)
    {x : ℕ} (hx : x ∈ active) :
    VPacketHistory.cmdAt
      { history with
        table := history.table.removed q cmd a
        sheap := Function.update history.sheap sa (some { sentCmd with vbucket := none }) } x =
      if x = sa then none else history.cmdAt x := by
  by_cases hxs : x = sa
  · simp [VPacketHistory.cmdAt, hxs]
  · rw [if_neg hxs, ← h.cmdAt_drop (q := q) hsa hsc ha cmd hx hxs]
    simp [VPacketHistory.cmdAt, Function.update_of_ne hxs]

/-- A new sent command with its bucket. -/
theorem VPacketHistory.Inv.store (h : history.Inv active) {cmd : CmdPtr}
    (hq : vCmdQueueCreate cmd.id false = some q) (hkeyed : q.Keyed)
    (hnew : q.removeHashDups = true → ∀ c b, history.table.heap c = some b →
      b.data.id = cmd.id → q.key b.data.cmd ≠ q.key cmd.cmd)
    (packets : List VSentPacket) (prio : ℕ) :
    VPacketHistory.Inv
      { packets := packets
        table := (history.table.added q cmd).write history.table.next ⟨cmd, some history.next⟩
        sheap := Function.update history.sheap history.next
          (some ⟨cmd.id, prio, some history.table.next⟩)
        next := history.next + 1 } (insert history.next active) := by
  have hheap : ((history.table.added q cmd).write history.table.next
      ⟨cmd, some history.next⟩).heap =
        Function.update history.table.heap history.table.next (some ⟨cmd, some history.next⟩) := by
    simp [Function.update_idem]
  have hold : ∀ x ∈ active, x ≠ history.next := by
    intro x hx
    obtain ⟨sc', hsc'⟩ := h.stored x hx
    have := h.lt_next hsc'
    omega
  refine
    { wf := ?_, fresh := ?_, stored := ?_, bucket := ?_, owner := ?_, keyed := ?_, unique := ?_ }
  · exact (h.wf.added cmd hq).write (b := ⟨cmd, none⟩) (by simp) rfl fun _ _ => rfl
  · intro c hc
    have hc' : history.next + 1 ≤ c := hc
    have hne : c ≠ history.next := by omega
    simpa [Function.update_of_ne hne] using h.fresh c (by omega)
  · rintro x (rfl | hx)
    · exact ⟨⟨cmd.id, prio, some history.table.next⟩, by simp⟩
    · simpa [Function.update_of_ne (hold x hx)] using h.stored x hx
  · rintro x (rfl | hx) sc' a' hsc' ha'
    · obtain rfl : ⟨cmd.id, prio, some history.table.next⟩ = sc' := by simpa using hsc'
      obtain rfl := Option.some.inj ha'
      exact ⟨⟨cmd, some history.next⟩, by simp, rfl, rfl⟩
    · simp only [Function.update_of_ne (hold x hx)] at hsc'
      obtain ⟨b', hb', hptr', hid'⟩ := h.bucket x hx sc' a' hsc' ha'
      have hne : a' ≠ history.table.next := Nat.ne_of_lt (h.wf.lt_next hb')
      exact ⟨b', by rw [hheap, Function.update_of_ne hne, hb'], hptr', hid'⟩
  · intro c b' hb'
    rw [hheap] at hb'
    by_cases hc : c = history.table.next
    · subst hc
      obtain rfl : ⟨cmd, some history.next⟩ = b' := by simpa using hb'
      exact ⟨history.next, Or.inl rfl, _, rfl, Function.update_self .., rfl⟩
    · rw [Function.update_of_ne hc] at hb'
      obtain ⟨x, hx, sc', hptr', hsc', hbucket'⟩ := h.owner c b' hb'
      exact ⟨x, Or.inr hx, sc', hptr', by simpa [Function.update_of_ne (hold x hx)] using hsc',
        hbucket'⟩
  · intro c b' hb'
    rw [hheap] at hb'
    by_cases hc : c = history.table.next
    · subst hc
      obtain rfl : ⟨cmd, some history.next⟩ = b' := by simpa using hb'
      exact ⟨q, hq, hkeyed⟩
    · rw [Function.update_of_ne hc] at hb'
      exact h.keyed c b' hb'
  · intro c c' b₁ b₂ q' hb₁ hb₂ hid hq' hdup hkey
    rw [hheap] at hb₁ hb₂
    have hnewkey : ∀ d b', history.table.heap d = some b' → b'.data.id = cmd.id →
        vCmdQueueCreate cmd.id false = some q' → q'.key b'.data.cmd ≠ q'.key cmd.cmd := by
      intro d b' hb' hid' hq''
      rw [hq] at hq''
      obtain rfl := Option.some.inj hq''
      exact hnew hdup d b' hb' hid'
    by_cases hc : c = history.table.next
    · by_cases hc' : c' = history.table.next
      · rw [hc, hc']
      · subst hc
        obtain rfl : ⟨cmd, some history.next⟩ = b₁ := by simpa using hb₁
        rw [Function.update_of_ne hc'] at hb₂
        exact absurd hkey.symm (hnewkey c' b₂ hb₂ hid.symm hq')
    · rw [Function.update_of_ne hc] at hb₁
      by_cases hc' : c' = history.table.next
      · subst hc'
        obtain rfl : ⟨cmd, some history.next⟩ = b₂ := by simpa using hb₂
        exact absurd hkey (hnewkey c b₁ hb₁ hid (hid ▸ hq'))
      · rw [Function.update_of_ne hc'] at hb₂
        exact h.unique c c' b₁ b₂ q' hb₁ hb₂ hid hq' hdup hkey

theorem VPacketHistory.Inv.cmdAt_store (h : history.Inv active) (cmd : CmdPtr)
    (packets : List VSentPacket) (prio : ℕ) {x : ℕ} (hx : x ∈ insert history.next active) :
    VPacketHistory.cmdAt
      { packets := packets
        table := (history.table.added q cmd).write history.table.next ⟨cmd, some history.next⟩
        sheap := Function.update history.sheap history.next
          (some ⟨cmd.id, prio, some history.table.next⟩)
        next := history.next + 1 } x =
      if x = history.next then some cmd else history.cmdAt x := by
  by_cases hxn : x = history.next
  · simp [VPacketHistory.cmdAt, hxn]
  · rw [if_neg hxn]
    obtain hx := hx.resolve_left hxn
    obtain ⟨sc', hsc'⟩ := h.stored x hx
    cases ha' : sc'.vbucket with
    | none => simp [VPacketHistory.cmdAt, Function.update_of_ne hxn, hsc', ha']
    | some a' =>
        obtain ⟨b', hb', -, -⟩ := h.bucket x hx sc' a' hsc' ha'
        have hne : a' ≠ history.table.next := Nat.ne_of_lt (h.wf.lt_next hb')
        simp [VPacketHistory.cmdAt, Function.update_of_ne hxn, hsc', ha', hne]

/-- The list of packet `i` with one more command. -/
theorem VPacketHistory.sent_modify {packets : List VSentPacket} {i : ℕ} (hi : i < packets.length)
    (sa : ℕ) :
    ((packets.modify i fun packet => { packet with cmds := packet.cmds ++ [sa] }).flatMap
      (·.cmds)).Perm (sa :: packets.flatMap (·.cmds)) := by
  obtain ⟨before, packet, after, hsplit, -, hmodify⟩ := List.exists_of_modify
    (fun packet : VSentPacket => { packet with cmds := packet.cmds ++ [sa] }) hi
  rw [hmodify, hsplit]
  simp only [List.flatMap_append, List.flatMap_cons, List.append_assoc, List.singleton_append]
  rw [← List.append_assoc, ← List.append_assoc]
  exact List.perm_middle

/-- The priority of a sent command. -/
def VPacketHistory.prioAt (history : VPacketHistory) (sa : ℕ) : Option ℕ :=
  (history.sheap sa).map (·.prio)

/-- The second half of `v_packet_history_add_cmd`. -/
theorem VPacketHistory.Sound.store (h : history.Sound) {i : ℕ} (hi : i < history.packets.length)
    {cmd : CmdPtr} (hq : vCmdQueueCreate cmd.id false = some q) (hkeyed : q.Keyed)
    (hnew : q.removeHashDups = true → ∀ c b, history.table.heap c = some b →
      b.data.id = cmd.id → q.key b.data.cmd ≠ q.key cmd.cmd) (prio : ℕ) :
    ∃ history', history.store q i cmd prio = some history' ∧ history'.Sound ∧
      history'.packets = (history.packets.modify i fun packet =>
        { packet with cmds := packet.cmds ++ [history.next] }) ∧
      (∀ x ∈ history.sent, history'.cmdAt x = history.cmdAt x ∧
        history'.prioAt x = history.prioAt x) ∧
      history'.cmdAt history.next = some cmd ∧ history'.prioAt history.next = some prio ∧
      history'.live.Perm (cmd :: history.live) := by
  have hperm := VPacketHistory.sent_modify hi history.next
  have hnext : history.next ∉ history.sent := by
    intro hmem
    obtain ⟨sc, hsc⟩ := h.inv.stored _ hmem
    exact Nat.lt_irrefl _ (h.inv.lt_next hsc)
  have hset : {sa | sa ∈ (history.packets.modify i fun packet =>
      { packet with cmds := packet.cmds ++ [history.next] }).flatMap (·.cmds)} =
        insert history.next {sa | sa ∈ history.sent} := by
    ext x
    simp only [Set.mem_ofPred_eq, hperm.mem_iff, List.mem_cons, Set.mem_insert_iff]
    rfl
  have hinv := h.inv.store hq hkeyed hnew (history.packets.modify i fun packet =>
    { packet with cmds := packet.cmds ++ [history.next] }) prio
  have hcmdAt := fun x hx => h.inv.cmdAt_store (q := q) (x := x) cmd
    (history.packets.modify i fun packet =>
      { packet with cmds := packet.cmds ++ [history.next] }) prio hx
  refine ⟨_, by simp only [VPacketHistory.store, vHashArrayAddItem_eq cmd hkeyed]; rfl, ⟨?_, ?_⟩,
    rfl, ?_, ?_, ?_, ?_⟩
  · rw [VPacketHistory.sent, hset]
    exact hinv
  · rw [VPacketHistory.sent, hperm.nodup_iff, List.nodup_cons]
    exact ⟨hnext, h.nodup⟩
  · intro x hx
    have hne : x ≠ history.next := fun heq => hnext (heq ▸ hx)
    exact ⟨(hcmdAt x (Or.inr hx)).trans (if_neg hne), by
      simp [VPacketHistory.prioAt, Function.update_of_ne hne]⟩
  · exact (hcmdAt history.next (Or.inl rfl)).trans (if_pos rfl)
  · simp [VPacketHistory.prioAt]
  · refine (hperm.filterMap _).trans ?_
    rw [List.filterMap_cons_some ((hcmdAt history.next (Or.inl rfl)).trans (if_pos rfl))]
    apply List.Perm.cons
    apply List.Perm.of_eq
    apply List.filterMap_congr
    intro x hx
    have hne : x ≠ history.next := fun heq => hnext (heq ▸ hx)
    exact (hcmdAt x (Or.inr hx)).trans (if_neg hne)

/-- An older version of a command leaves the live commands. -/
theorem VPacketHistory.Sound.obsolete (h : history.Sound) (hsa : sa ∈ history.sent)
    (hsc : history.sheap sa = some sentCmd) (ha : sentCmd.vbucket = some a)
    (hb : history.table.heap a = some b) (hq : vCmdQueueCreate b.data.id false = some q) :
    ∃ history', history' =
        { history with
          table := history.table.removed q b.data.cmd a
          sheap := Function.update history.sheap sa (some { sentCmd with vbucket := none }) } ∧
      history'.Sound ∧
      (∀ x ∈ history.sent, (history'.cmdAt x = history.cmdAt x ∨ history'.cmdAt x = none) ∧
        history'.prioAt x = history.prioAt x) ∧
      (history'.live : Multiset CmdPtr) + {b.data} = (history.live : Multiset CmdPtr) := by
  refine ⟨_, rfl, ⟨h.inv.obsolete hsa hsc ha hb hq, h.nodup⟩, ?_, ?_⟩
  · intro x hx
    rw [h.inv.cmdAt_obsolete hsa hsc ha b.data.cmd hx]
    by_cases hxs : x = sa
    · subst hxs
      simp [VPacketHistory.prioAt, hsc]
    · simp [VPacketHistory.prioAt, hxs]
  · obtain ⟨l₁, l₂, hsplit⟩ := List.append_of_mem hsa
    have hnodup := h.nodup
    rw [hsplit, List.nodup_middle, List.nodup_cons] at hnodup
    have hcongr : ∀ l : List ℕ, (∀ x ∈ l, x ∈ history.sent ∧ x ≠ sa) →
        l.filterMap (VPacketHistory.cmdAt
          { history with
            table := history.table.removed q b.data.cmd a
            sheap := Function.update history.sheap sa (some { sentCmd with vbucket := none }) }) =
          l.filterMap history.cmdAt := by
      intro l hl
      apply List.filterMap_congr
      intro x hx
      rw [h.inv.cmdAt_obsolete hsa hsc ha b.data.cmd (hl x hx).1, if_neg (hl x hx).2]
    have hnone := h.inv.cmdAt_obsolete (q := q) hsa hsc ha b.data.cmd hsa
    rw [if_pos rfl] at hnone
    have hsome := VPacketHistory.cmdAt_of_bucket hsc ha hb
    have hlive' : VPacketHistory.live
        { history with
          table := history.table.removed q b.data.cmd a
          sheap := Function.update history.sheap sa (some { sentCmd with vbucket := none }) } =
        l₁.filterMap history.cmdAt ++ l₂.filterMap history.cmdAt := by
      have hsent : VPacketHistory.sent
          { history with
            table := history.table.removed q b.data.cmd a
            sheap := Function.update history.sheap sa (some { sentCmd with vbucket := none }) } =
          l₁ ++ sa :: l₂ := hsplit
      rw [VPacketHistory.live, hsent, List.filterMap_append, List.filterMap_cons_none hnone,
        hcongr l₁, hcongr l₂]
      · intro x hx
        exact ⟨by simp [hsplit, hx], fun heq => hnodup.1 (by simp [← heq, hx])⟩
      · intro x hx
        exact ⟨by simp [hsplit, hx], fun heq => hnodup.1 (by simp [← heq, hx])⟩
    rw [hlive', VPacketHistory.live, hsplit, List.filterMap_append,
      List.filterMap_cons_some hsome, ← Multiset.coe_singleton, Multiset.coe_add,
      Multiset.coe_eq_coe]
    exact (List.perm_append_singleton _ _).trans List.perm_middle.symm

theorem vCmdQueueCreate_node {id : ℕ} (hid : minCmdId ≤ id) (fakeCmds : Bool) :
    vCmdQueueCreate id fakeCmds = some (vNodeCmdQueueCreate id) := if_pos hid

/-- **Adding a command** makes at most one other obsolete, an older version of it. -/
theorem vPacketHistoryAddCmd_spec (h : history.Sound) {i : ℕ} (hi : i < history.packets.length)
    {cmd : CmdPtr} (hid : minCmdId ≤ cmd.id) (hacc : Accepted cmd) (prio : ℕ) :
    ∃ history' old, vPacketHistoryAddCmd history i cmd prio = some (history', old) ∧
      history'.Sound ∧
      history'.packets = (history.packets.modify i fun packet =>
        { packet with cmds := packet.cmds ++ [history.next] }) ∧
      (∀ x ∈ history.sent, (history'.cmdAt x = history.cmdAt x ∨ history'.cmdAt x = none) ∧
        history'.prioAt x = history.prioAt x) ∧
      history'.cmdAt history.next = some cmd ∧ history'.prioAt history.next = some prio ∧
      (history'.live : Multiset CmdPtr) + (old.toList : Multiset CmdPtr) =
        cmd ::ₘ (history.live : Multiset CmdPtr) ∧
      ∀ o, old = some o → Replaces cmd o ∧ o ∈ history.live := by
  obtain ⟨q, hq, hkeyed⟩ := hacc
  have hq' : vCmdQueueCreate cmd.id false = some q := by
    rw [← hq, vCmdQueueCreate_node hid, vCmdQueueCreate_node hid]
  have hlist := vHashArrayFindItem_eq h.inv.wf cmd.cmd hq' hkeyed
  by_cases hfound : q.removeHashDups = true ∧
      ∃ a, (history.table.lb cmd.id).find? (history.table.hasKey q cmd.cmd) = some a
  · obtain ⟨hdups, a, hfind⟩ := hfound
    have hlist' : vHashArrayFindItem history.table q cmd.cmd = some (some a) :=
      hlist.trans (congrArg some hfind)
    obtain ⟨b, hb, hbid⟩ := h.inv.wf.live (List.mem_of_find?_eq_some hfind)
    obtain ⟨sa, hsa, sentCmd, hptr, hsc, ha⟩ := h.inv.owner a b hb
    have hkey : q.key b.data.cmd = q.key cmd.cmd := by
      have := List.find?_some hfind
      simpa [CmdTable.hasKey, hb] using this
    have hqb : vCmdQueueCreate b.data.id false = some q := by rw [hbid, hq']
    have hfirst : history.Removable [sa] := by
      intro before x after hsplit
      obtain ⟨rfl, rfl, rfl⟩ : before = [] ∧ sa = x ∧ after = [] := by
        cases before with
        | nil => simpa using hsplit
        | cons _ _ => simp at hsplit
      refine h.inv.ownFirst_of_dup hsa (by simp) ?_
      intro sc' a' b' q'' hsc' ha' hb' hq''
      rw [hsc] at hsc'
      obtain rfl := Option.some.inj hsc'
      rw [ha] at ha'
      obtain rfl := Option.some.inj ha'
      rw [hb] at hb'
      obtain rfl := Option.some.inj hb'
      rw [hqb] at hq''
      obtain rfl := Option.some.inj hq''
      exact hdups
    have hremove := hfirst.head h.inv hsc ha hb hqb hkeyed
    obtain ⟨history₁, heq₁, hsound₁, hframe₁, hlive₁⟩ := h.obsolete hsa hsc ha hb hqb
    have hnew : q.removeHashDups = true → ∀ c b', history₁.table.heap c = some b' →
        b'.data.id = cmd.id → q.key b'.data.cmd ≠ q.key cmd.cmd := by
      intro _ c b' hb' hbid' hkey'
      have hheap : c ≠ a ∧ history.table.heap c = some b' := by
        by_cases hc : c = a
        · simp [heq₁, hc] at hb'
        · simpa [heq₁, hc] using hb'
      have hca := h.inv.unique a c b b' q hb hheap.2 (hbid.trans hbid'.symm) hqb hdups
        (hkey.trans hkey'.symm)
      exact hheap.1 hca.symm
    have hi₁ : i < history₁.packets.length := by rw [heq₁]; exact hi
    obtain ⟨history', hstore, hsound, hpackets, hframe, hcmd, hprio, hlive⟩ :=
      hsound₁.store hi₁ hq' hkeyed hnew prio
    have hsent₁ : history₁.sent = history.sent := by rw [heq₁]; rfl
    have hnext₁ : history₁.next = history.next := by rw [heq₁]
    refine ⟨history', some b.data, ?_, hsound, ?_, ?_, hnext₁ ▸ hcmd, hnext₁ ▸ hprio, ?_, ?_⟩
    · rw [heq₁] at hstore
      simp only [vPacketHistoryAddCmd, hq', hdups, if_true, hlist', hb, hptr, hsc, hremove, hstore,
        Option.map_some]
    · rw [hpackets, heq₁]
    · intro x hx
      have hx₁ := hframe x (hsent₁ ▸ hx)
      rw [hx₁.1, hx₁.2]
      exact hframe₁ x hx
    · have hlive' := Multiset.coe_eq_coe.mpr hlive
      rw [hlive', ← Multiset.cons_coe, Option.toList_some, Multiset.coe_singleton,
        Multiset.cons_add, hlive₁]
    · intro o ho
      obtain rfl := Option.some.inj ho
      exact ⟨⟨q, hq, hdups, hbid, hkey⟩,
        List.mem_filterMap.mpr ⟨sa, hsa, VPacketHistory.cmdAt_of_bucket hsc ha hb⟩⟩
  · have hnew : q.removeHashDups = true → ∀ c b, history.table.heap c = some b →
        b.data.id = cmd.id → q.key b.data.cmd ≠ q.key cmd.cmd := by
      intro hdups c b hb hbid hkey
      cases hfind : (history.table.lb cmd.id).find? (history.table.hasKey q cmd.cmd) with
      | none =>
          have := List.find?_eq_none.mp hfind c ((h.inv.wf.mem_lb _ _).mpr ⟨b, hb, hbid⟩)
          simp [CmdTable.hasKey, hb, hkey] at this
      | some a => exact hfound ⟨hdups, a, hfind⟩
    obtain ⟨history', hstore, hsound, hpackets, hframe, hcmd, hprio, hlive⟩ :=
      h.store hi hq' hkeyed hnew prio
    refine ⟨history', none, ?_, hsound, hpackets, fun x hx => ⟨Or.inl (hframe x hx).1,
      (hframe x hx).2⟩, hcmd, hprio, ?_, by simp⟩
    · have hnone : (if q.removeHashDups then vHashArrayFindItem history.table q cmd.cmd
          else some none) = some none := by
        by_cases hdups : q.removeHashDups = true
        · rw [if_pos hdups, hlist]
          cases hfind : (history.table.lb cmd.cmd.id.toNat).find?
              (history.table.hasKey q cmd.cmd) with
          | none => rfl
          | some a => exact absurd ⟨hdups, a, hfind⟩ hfound
        · rw [if_neg hdups]
      simp only [vPacketHistoryAddCmd, hq', hnone, hstore, Option.map_some]
    · simpa using Multiset.coe_eq_coe.mpr hlive

/-! ## Removing -/

/-- The packet that is found. -/
theorem findPacket_cases (history : VPacketHistory) (id : ℕ) :
    vPacketHistoryFindPacket history id = none ∨
      ∃ before packet after, vPacketHistoryFindPacket history id = some before.length ∧
        history.packets = before ++ packet :: after ∧ packet.id = id := by
  cases hfind : vPacketHistoryFindPacket history id with
  | none => exact Or.inl rfl
  | some i =>
      right
      obtain ⟨hi, hid, -⟩ := List.findIdx?_eq_some_iff_getElem.mp hfind
      refine ⟨history.packets.take i, history.packets[i], history.packets.drop (i + 1), ?_, ?_, ?_⟩
      · rw [List.length_take, Nat.min_eq_left (Nat.le_of_lt hi)]
      · rw [← List.drop_eq_getElem_cons hi, List.take_append_drop]
      · simpa using hid

/-- **Removing a packet** destroys its commands that are not obsolete, in order. -/
theorem vPacketHistoryRemPacket_spec (h : history.Sound) (sentSize : ℕ) {id : ℕ}
    {before after : List VSentPacket} {packet : VSentPacket}
    (hfind : vPacketHistoryFindPacket history id = some before.length)
    (hsplit : history.packets = before ++ packet :: after)
    (hsafe : history.Removable packet.cmds) :
    ∃ history', vPacketHistoryRemPacket history sentSize id =
        some (history', takeOff sentSize (packet.cmds.filterMap history.cmdAt),
          packet.cmds.filterMap history.cmdAt) ∧
      history'.Sound ∧ history'.packets = before ++ after ∧
      (∀ x ∈ history'.sent, history'.cmdAt x = history.cmdAt x ∧
        history'.prioAt x = history.prioAt x) ∧
      (history'.live : Multiset CmdPtr) + (packet.cmds.filterMap history.cmdAt : List CmdPtr) =
        (history.live : Multiset CmdPtr) := by
  have hsent : history.sent =
      before.flatMap (·.cmds) ++ (packet.cmds ++ after.flatMap (·.cmds)) := by
    simp [VPacketHistory.sent, hsplit]
  have hperm : history.sent.Perm
      (packet.cmds ++ (before.flatMap (·.cmds) ++ after.flatMap (·.cmds))) := by
    rw [hsent, ← List.append_assoc, ← List.append_assoc]
    exact List.Perm.append_right _ List.perm_append_comm
  have hnodup := hperm.nodup_iff.mp h.nodup
  obtain ⟨hnodup₁, hnodup₂, hdisj⟩ := List.nodup_append.mp hnodup
  obtain ⟨table, hres, hinv, hframe⟩ := remCmds_spec h.inv sentSize
    (fun x hx => by simp [hsent, hx]) hnodup₁ hsafe
  have hother : ∀ x ∈ before.flatMap (·.cmds) ++ after.flatMap (·.cmds),
      x ∈ history.sent ∧ x ∉ packet.cmds := by
    intro x hx
    exact ⟨hperm.mem_iff.mpr (List.mem_append_right _ hx), fun hx' => hdisj x hx' x hx rfl⟩
  have hget : history.packets[before.length]? = some packet := by simp [hsplit]
  have herase : history.packets.eraseIdx before.length = before ++ after := by
    rw [hsplit, List.eraseIdx_append_of_length_le (Nat.le_refl _)]
    simp
  have hset : {sa | sa ∈ before.flatMap (·.cmds) ++ after.flatMap (·.cmds)} =
      {sa | sa ∈ history.sent} \ {sa | sa ∈ packet.cmds} := by
    ext x
    simp only [Set.mem_sdiff, Set.mem_ofPred_eq]
    constructor
    · exact fun hx => hother x hx
    · rintro ⟨hx, hnot⟩
      rw [hperm.mem_iff, List.mem_append] at hx
      exact hx.resolve_left hnot
  let history' : VPacketHistory :=
    ⟨before ++ after, table, freeAll history.sheap packet.cmds, history.next⟩
  have hsent' : history'.sent = before.flatMap (·.cmds) ++ after.flatMap (·.cmds) := by
    simp [VPacketHistory.sent, history']
  have hsheap : ∀ x ∈ history'.sent, history'.sheap x = history.sheap x := fun x hx =>
    if_neg (hother x (hsent' ▸ hx)).2
  have hcmdAt : ∀ x ∈ history'.sent, history'.cmdAt x = history.cmdAt x := by
    intro x hx
    have hx' := hother x (hsent' ▸ hx)
    rw [← hframe x hx'.1 hx'.2, VPacketHistory.cmdAt, hsheap x hx]
    rfl
  refine ⟨history', ?_, ⟨?_, ?_⟩, rfl, ?_, ?_⟩
  · simp only [vPacketHistoryRemPacket, hfind, hget, hres, Option.map_some, herase]
    rfl
  · rw [hsent', hset]
    refine hinv.frame (before ++ after) (fun x hx => if_neg hx.2) ?_
    intro c hc
    have hnone := h.inv.fresh c hc
    simp only [freeAll, hnone, ite_self]
  · rw [hsent']
    exact hnodup₂
  · intro x hx
    exact ⟨hcmdAt x hx, by rw [VPacketHistory.prioAt, hsheap x hx]; rfl⟩
  · rw [VPacketHistory.live, List.filterMap_congr hcmdAt, hsent', Multiset.coe_add,
      Multiset.coe_eq_coe, ← List.filterMap_append]
    exact (List.perm_append_comm.trans hperm.symm).filterMap _

end Verse
