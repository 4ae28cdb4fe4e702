import Mathlib.Data.Set.Insert
import Verse.Resend.PacketHistory

/-!
# The invariant of the history of sent packets

A sent command that is not obsolete owns a bucket that is in memory, every bucket
belongs to one sent command, and commands that may be replaced have no two
versions in the history.  `VPacketHistory.Inv history active` says so for the
sent commands in `active`; the functions of `v_history.c` take commands out of it
one by one.

Buckets are removed by key.  `VPacketHistory.OwnFirst` says that this removes the
bucket of the command itself, once the buckets of some others are gone.
-/

namespace Verse

open Lib

structure VPacketHistory.Inv (history : VPacketHistory) (active : Set ℕ) : Prop where
  wf : history.table.WF false
  fresh : ∀ a, history.next ≤ a → history.sheap a = none
  stored : ∀ sa ∈ active, ∃ sentCmd, history.sheap sa = some sentCmd
  bucket : ∀ sa ∈ active, ∀ sentCmd a, history.sheap sa = some sentCmd →
    sentCmd.vbucket = some a →
    ∃ b, history.table.heap a = some b ∧ b.ptr = some sa ∧ b.data.id = sentCmd.id
  owner : ∀ a b, history.table.heap a = some b →
    ∃ sa ∈ active, ∃ sentCmd, b.ptr = some sa ∧ history.sheap sa = some sentCmd ∧
      sentCmd.vbucket = some a
  keyed : ∀ a b, history.table.heap a = some b →
    ∃ q, vCmdQueueCreate b.data.id false = some q ∧ q.Keyed
  unique : ∀ a a' b b' q, history.table.heap a = some b → history.table.heap a' = some b' →
    b.data.id = b'.data.id → vCmdQueueCreate b.data.id false = some q →
    q.removeHashDups = true → q.key b.data.cmd = q.key b'.data.cmd → a = a'

/-- The command of a sent command that is not obsolete. -/
def VPacketHistory.cmdAt (history : VPacketHistory) (sa : ℕ) : Option CmdPtr :=
  (history.sheap sa).bind fun sentCmd =>
    sentCmd.vbucket.bind fun a => (history.table.heap a).map (·.data)

/-- The bucket belongs to one of the sent commands `gone`. -/
def VPacketHistory.ownedBy (history : VPacketHistory) (gone : List ℕ) (a : ℕ) : Bool :=
  match (history.table.heap a).bind (·.ptr) with
  | none => false
  | some sa => decide (sa ∈ gone)

/-- The first bucket with the key of the command of `sa` that does not belong to
`gone` is the bucket of `sa`. -/
def VPacketHistory.OwnFirst (history : VPacketHistory) (gone : List ℕ) (sa : ℕ) : Prop :=
  ∀ sentCmd a b q, history.sheap sa = some sentCmd → sentCmd.vbucket = some a →
    history.table.heap a = some b → vCmdQueueCreate b.data.id false = some q →
    (history.table.lb b.data.id).find? (fun c =>
      history.table.hasKey q b.data.cmd c && !history.ownedBy gone c) = some a

/-- Taken out one after the other, every sent command finds its own bucket first. -/
def VPacketHistory.Removable (history : VPacketHistory) (cmds : List ℕ) : Prop :=
  ∀ before sa after, cmds = before ++ sa :: after → history.OwnFirst before sa

variable {history : VPacketHistory} {active : Set ℕ} {sa a : ℕ} {sentCmd : VSentCommand}
  {b : VBucket} {q : VCommandQueue}

theorem VPacketHistory.inv_init : vPacketHistoryInit.Inv ∅ where
  wf := CmdTable.wf_init false
  fresh _ _ := rfl
  stored sa hsa := by cases hsa
  bucket sa hsa := by cases hsa
  owner a b hb := by simp [vPacketHistoryInit, CmdTable.init] at hb
  keyed a b hb := by simp [vPacketHistoryInit, CmdTable.init] at hb
  unique a a' b b' q hb := by simp [vPacketHistoryInit, CmdTable.init] at hb

/-! ## Sent commands and buckets -/

theorem VPacketHistory.Inv.lt_next (h : history.Inv active) (hsc : history.sheap sa = some sentCmd) :
    sa < history.next := by
  by_contra hge
  have := h.fresh sa (Nat.le_of_not_lt hge)
  rw [this] at hsc
  cases hsc

theorem VPacketHistory.cmdAt_of_bucket (hsc : history.sheap sa = some sentCmd)
    (ha : sentCmd.vbucket = some a) (hb : history.table.heap a = some b) :
    history.cmdAt sa = some b.data := by
  simp [VPacketHistory.cmdAt, hsc, ha, hb]

theorem VPacketHistory.cmdAt_of_obsolete (hsc : history.sheap sa = some sentCmd)
    (ha : sentCmd.vbucket = none) : history.cmdAt sa = none := by
  simp [VPacketHistory.cmdAt, hsc, ha]

/-- A bucket that points back to `sa` is the bucket of `sa`. -/
theorem VPacketHistory.Inv.bucket_unique (h : history.Inv active)
    (hsc : history.sheap sa = some sentCmd) {c : ℕ} {b' : VBucket}
    (hb' : history.table.heap c = some b') (hptr : b'.ptr = some sa) :
    sentCmd.vbucket = some c := by
  obtain ⟨sa', -, sc', hptr', hsc', hbucket'⟩ := h.owner c b' hb'
  rw [hptr] at hptr'
  obtain rfl := Option.some.inj hptr'
  rw [hsc] at hsc'
  obtain rfl := Option.some.inj hsc'
  exact hbucket'

theorem VPacketHistory.Inv.mem_active (h : history.Inv active)
    (hb : history.table.heap a = some b) (hptr : b.ptr = some sa) : sa ∈ active := by
  obtain ⟨sa', hsa', -, hptr', -⟩ := h.owner a b hb
  rw [hptr] at hptr'
  obtain rfl := Option.some.inj hptr'
  exact hsa'

/-! ## Taking a command out -/

/-- The bucket of a command is removed. -/
theorem VPacketHistory.Inv.drop (h : history.Inv active) (hsa : sa ∈ active)
    (hsc : history.sheap sa = some sentCmd) (ha : sentCmd.vbucket = some a)
    (hb : history.table.heap a = some b) (hq : vCmdQueueCreate b.data.id false = some q) :
    VPacketHistory.Inv { history with table := history.table.removed q b.data.cmd a }
      (active \ {sa}) := by
  have hptr : b.ptr = some sa := by
    obtain ⟨b', hb', hptr', -⟩ := h.bucket sa hsa sentCmd a hsc ha
    rw [hb] at hb'
    obtain rfl := Option.some.inj hb'
    exact hptr'
  have hmemlb : a ∈ history.table.lb b.data.cmd.id.toNat := (h.wf.mem_lb _ _).mpr ⟨b, hb, rfl⟩
  have hkey : history.table.hasKey q b.data.cmd a = true := by simp [CmdTable.hasKey, hb]
  have hheap : ∀ c b', (history.table.removed q b.data.cmd a).heap c = some b' →
      c ≠ a ∧ history.table.heap c = some b' := by
    intro c b' hb'
    by_cases hc : c = a
    · simp [hc] at hb'
    · simpa [hc] using hb'
  refine
    { wf := h.wf.removed hq hmemlb hkey, fresh := h.fresh, stored := ?_, bucket := ?_, owner := ?_,
      keyed := ?_, unique := ?_ }
  · exact fun sa' hsa' => h.stored sa' hsa'.1
  · intro sa' hsa' sc' a' hsc' ha'
    obtain ⟨b', hb', hptr', hid'⟩ := h.bucket sa' hsa'.1 sc' a' hsc' ha'
    have hne : a' ≠ a := by
      rintro rfl
      rw [hb] at hb'
      obtain rfl := Option.some.inj hb'
      rw [hptr] at hptr'
      exact hsa'.2 (Option.some.inj hptr').symm
    exact ⟨b', by simpa [hne] using hb', hptr', hid'⟩
  · intro c b' hb'
    obtain ⟨hc, hb''⟩ := hheap c b' hb'
    obtain ⟨sa', hsa', sc', hptr', hsc', hbucket'⟩ := h.owner c b' hb''
    refine ⟨sa', ⟨hsa', ?_⟩, sc', hptr', hsc', hbucket'⟩
    rintro rfl
    rw [hsc] at hsc'
    obtain rfl := Option.some.inj hsc'
    rw [ha] at hbucket'
    exact hc (Option.some.inj hbucket').symm
  · exact fun c b' hb' => h.keyed c b' (hheap c b' hb').2
  · intro c c' b₁ b₂ q' hb₁ hb₂
    exact h.unique c c' b₁ b₂ q' (hheap c b₁ hb₁).2 (hheap c' b₂ hb₂).2

/-- Two sent commands do not share a bucket. -/
theorem VPacketHistory.Inv.bucket_ne (h : history.Inv active) (hsa : sa ∈ active)
    (hsc : history.sheap sa = some sentCmd) (ha : sentCmd.vbucket = some a) {x a' : ℕ}
    {sentCmd' : VSentCommand} (hx : x ∈ active) (hne : x ≠ sa)
    (hsc' : history.sheap x = some sentCmd') (ha' : sentCmd'.vbucket = some a') : a' ≠ a := by
  rintro rfl
  obtain ⟨b, hb, hptr, -⟩ := h.bucket sa hsa sentCmd a' hsc ha
  obtain ⟨b', hb', hptr', -⟩ := h.bucket x hx sentCmd' a' hsc' ha'
  rw [hb] at hb'
  obtain rfl := Option.some.inj hb'
  rw [hptr] at hptr'
  exact hne (Option.some.inj hptr').symm

theorem VPacketHistory.Inv.cmdAt_drop (h : history.Inv active) (hsa : sa ∈ active)
    (hsc : history.sheap sa = some sentCmd) (ha : sentCmd.vbucket = some a)
    (cmd : GenericCmd) {x : ℕ} (hx : x ∈ active) (hne : x ≠ sa) :
    VPacketHistory.cmdAt { history with table := history.table.removed q cmd a } x =
      history.cmdAt x := by
  obtain ⟨sc', hsc'⟩ := h.stored x hx
  cases ha' : sc'.vbucket with
  | none => simp [VPacketHistory.cmdAt, hsc', ha']
  | some a' =>
      have hne' := h.bucket_ne hsa hsc ha hx hne hsc' ha'
      simp [VPacketHistory.cmdAt, hsc', ha', hne']

/-- An obsolete command has no bucket that would have to go. -/
theorem VPacketHistory.Inv.skip (h : history.Inv active) (hsc : history.sheap sa = some sentCmd)
    (ha : sentCmd.vbucket = none) : history.Inv (active \ {sa}) where
  wf := h.wf
  fresh := h.fresh
  stored sa' hsa' := h.stored sa' hsa'.1
  bucket sa' hsa' := h.bucket sa' hsa'.1
  owner c b hb := by
    obtain ⟨sa', hsa', sc', hptr', hsc', hbucket'⟩ := h.owner c b hb
    refine ⟨sa', ⟨hsa', ?_⟩, sc', hptr', hsc', hbucket'⟩
    rintro rfl
    rw [hsc] at hsc'
    obtain rfl := Option.some.inj hsc'
    rw [ha] at hbucket'
    cases hbucket'
  keyed := h.keyed
  unique := h.unique

/-- What becomes of `packets`, and of sent commands that are not active, does not
matter. -/
theorem VPacketHistory.Inv.frame (h : history.Inv active) (packets : List VSentPacket)
    {sheap : ℕ → Option VSentCommand} (hsheap : ∀ sa ∈ active, sheap sa = history.sheap sa)
    (hfresh : ∀ a, history.next ≤ a → sheap a = none) :
    VPacketHistory.Inv { history with packets := packets, sheap := sheap } active where
  wf := h.wf
  fresh := hfresh
  stored sa hsa := by
    obtain ⟨sc, hsc⟩ := h.stored sa hsa
    exact ⟨sc, (hsheap sa hsa).trans hsc⟩
  bucket sa hsa sc a hsc ha := h.bucket sa hsa sc a ((hsheap sa hsa).symm.trans hsc) ha
  owner c b hb := by
    obtain ⟨sa, hsa, sc, hptr, hsc, hbucket⟩ := h.owner c b hb
    exact ⟨sa, hsa, sc, hptr, (hsheap sa hsa).trans hsc, hbucket⟩
  keyed := h.keyed
  unique := h.unique

/-! ## Which bucket is found -/

theorem find?_congr_of_mem {α : Type*} {l : List α} {p p' : α → Bool}
    (h : ∀ c ∈ l, p c = p' c) : l.find? p = l.find? p' := by
  induction l with
  | nil => rfl
  | cons c rest ih =>
      have hrest := ih fun d hd => h d (List.mem_cons_of_mem _ hd)
      rw [List.find?_cons, List.find?_cons, h c (by simp), hrest]

theorem VPacketHistory.ownedBy_eq (hb : history.table.heap a = some b) (hptr : b.ptr = some sa)
    (gone : List ℕ) : history.ownedBy gone a = decide (sa ∈ gone) := by
  simp [VPacketHistory.ownedBy, hb, hptr]

/-- The bucket that is removed when all of `gone` are gone already. -/
theorem VPacketHistory.OwnFirst.find (hfirst : history.OwnFirst [] sa) (h : history.Inv active)
    (hsc : history.sheap sa = some sentCmd) (ha : sentCmd.vbucket = some a)
    (hb : history.table.heap a = some b) (hq : vCmdQueueCreate b.data.id false = some q) :
    (history.table.lb b.data.id).find? (history.table.hasKey q b.data.cmd) = some a := by
  rw [← hfirst sentCmd a b q hsc ha hb hq]
  apply find?_congr_of_mem
  intro c hc
  obtain ⟨b', hb', -⟩ := h.wf.live hc
  obtain ⟨sa', -, sc', hptr', -, -⟩ := h.owner c b' hb'
  rw [VPacketHistory.ownedBy_eq hb' hptr']
  simp

/-- Once the bucket of `sa` is removed, `sa` need not be counted as gone. -/
theorem VPacketHistory.OwnFirst.drop {gone : List ℕ} {x : ℕ}
    (hfirst : history.OwnFirst (sa :: gone) x) (h : history.Inv active) (hsa : sa ∈ active)
    (hsc : history.sheap sa = some sentCmd) (ha : sentCmd.vbucket = some a)
    (hb : history.table.heap a = some b) (hx : x ∈ active) (hne : x ≠ sa) :
    VPacketHistory.OwnFirst { history with table := history.table.removed q b.data.cmd a }
      gone x := by
  intro sc' a' b' q' hsc' ha' hb' hq'
  have hne' := h.bucket_ne hsa hsc ha hx hne hsc' ha'
  have hb'' : history.table.heap a' = some b' := by simpa [hne'] using hb'
  have hptr : b.ptr = some sa := by
    obtain ⟨b₀, hb₀, hptr₀, -⟩ := h.bucket sa hsa sentCmd a hsc ha
    rw [hb] at hb₀
    obtain rfl := Option.some.inj hb₀
    exact hptr₀
  rw [← hfirst sc' a' b' q' hsc' ha' hb'' hq']
  have hlb : (history.table.removed q b.data.cmd a).lb b'.data.id =
      (history.table.lb b'.data.id).filter (· != a) := by
    rw [removed_lb]
    split
    · exact (h.wf.nodup _).erase_eq_filter a
    · rename_i hid
      symm
      apply List.filter_eq_self.mpr
      intro c hc
      obtain ⟨b₁, hb₁, hid₁⟩ := h.wf.live hc
      rw [bne_iff_ne]
      rintro rfl
      rw [hb] at hb₁
      obtain rfl := Option.some.inj hb₁
      exact hid hid₁.symm
  rw [hlb, List.find?_filter]
  apply find?_congr_of_mem
  intro c hc
  obtain ⟨b₁, hb₁, -⟩ := h.wf.live hc
  obtain ⟨sa₁, -, sc₁, hptr₁, hsc₁, hbucket₁⟩ := h.owner c b₁ hb₁
  rw [VPacketHistory.ownedBy_eq hb₁ hptr₁]
  by_cases hca : c = a
  · subst hca
    rw [hb] at hb₁
    obtain rfl := Option.some.inj hb₁
    rw [hptr] at hptr₁
    obtain rfl := Option.some.inj hptr₁
    simp
  · have hsne : sa₁ ≠ sa := by
      rintro rfl
      rw [hsc] at hsc₁
      obtain rfl := Option.some.inj hsc₁
      rw [ha] at hbucket₁
      exact hca (Option.some.inj hbucket₁).symm
    simp [CmdTable.hasKey, VPacketHistory.ownedBy, hb₁, hptr₁, hca, hsne]

/-- An obsolete command, or one that is the only version of its key, need not be
counted as gone. -/
theorem VPacketHistory.OwnFirst.keep {gone : List ℕ} {x : ℕ}
    (hfirst : history.OwnFirst (sa :: gone) x) (h : history.Inv active) (hx : x ∈ active)
    (hne : x ≠ sa) (hsc : history.sheap sa = some sentCmd)
    (hdup : ∀ a b q, sentCmd.vbucket = some a → history.table.heap a = some b →
      vCmdQueueCreate b.data.id false = some q → q.removeHashDups = true) :
    history.OwnFirst gone x := by
  intro sc' a' b' q' hsc' ha' hb' hq'
  rw [← hfirst sc' a' b' q' hsc' ha' hb' hq']
  apply find?_congr_of_mem
  intro c hc
  obtain ⟨b₁, hb₁, hid₁⟩ := h.wf.live hc
  obtain ⟨sa₁, -, sc₁, hptr₁, hsc₁, hbucket₁⟩ := h.owner c b₁ hb₁
  rw [VPacketHistory.ownedBy_eq hb₁ hptr₁, VPacketHistory.ownedBy_eq hb₁ hptr₁]
  by_cases hsa₁ : sa₁ = sa
  · subst hsa₁
    rw [hsc] at hsc₁
    obtain rfl := Option.some.inj hsc₁
    have hkey : history.table.hasKey q' b'.data.cmd c = false := by
      by_contra hkey
      simp only [CmdTable.hasKey, hb₁, Bool.not_eq_false, decide_eq_true_eq] at hkey
      have hq₁ : vCmdQueueCreate b₁.data.id false = some q' := by rw [hid₁, hq']
      obtain rfl := h.unique c a' b₁ b' q' hb₁ hb' hid₁ hq₁ (hdup c b₁ q' hbucket₁ hb₁ hq₁) hkey
      obtain ⟨b₂, hb₂, hptr₂, -⟩ := h.bucket x hx sc' c hsc' ha'
      rw [hb₁] at hb₂
      obtain rfl := Option.some.inj hb₂
      rw [hptr₁] at hptr₂
      exact hne (Option.some.inj hptr₂).symm
    simp [hkey]
  · simp [hsa₁]

/-- The only version of a key is found first. -/
theorem VPacketHistory.Inv.ownFirst_of_dup (h : history.Inv active) {gone : List ℕ}
    (hsa : sa ∈ active) (hnot : sa ∉ gone)
    (hdup : ∀ sentCmd a b q, history.sheap sa = some sentCmd → sentCmd.vbucket = some a →
      history.table.heap a = some b → vCmdQueueCreate b.data.id false = some q →
      q.removeHashDups = true) : history.OwnFirst gone sa := by
  intro sc a b q hsc ha hb hq
  obtain ⟨b', hb', hptr, -⟩ := h.bucket sa hsa sc a hsc ha
  rw [hb] at hb'
  obtain rfl := Option.some.inj hb'
  have hmem : a ∈ history.table.lb b.data.id := (h.wf.mem_lb _ _).mpr ⟨b, hb, rfl⟩
  have hself : (history.table.hasKey q b.data.cmd a && !history.ownedBy gone a) = true := by
    simp [CmdTable.hasKey, hb, VPacketHistory.ownedBy_eq hb hptr, hnot]
  cases hfind : (history.table.lb b.data.id).find? (fun c =>
      history.table.hasKey q b.data.cmd c && !history.ownedBy gone c) with
  | none => exact absurd hself (List.find?_eq_none.mp hfind a hmem)
  | some c =>
      obtain ⟨b₁, hb₁, hid₁⟩ := h.wf.live (List.mem_of_find?_eq_some hfind)
      have hkey := List.find?_some hfind
      simp only [CmdTable.hasKey, hb₁, Bool.and_eq_true, decide_eq_true_eq] at hkey
      have hca := h.unique a c b b₁ q hb hb₁ hid₁.symm hq (hdup sc a b q hsc ha hb hq) hkey.1.symm
      rw [hca]

theorem VPacketHistory.Removable.tail {rest : List ℕ} (hsafe : history.Removable (sa :: rest)) :
    ∀ before x after, rest = before ++ x :: after → history.OwnFirst (sa :: before) x := by
  intro before x after hrest
  exact hsafe (sa :: before) x after (by rw [hrest, List.cons_append])

/-- The bucket of the first command is removed. -/
theorem VPacketHistory.Removable.head {rest : List ℕ} (hsafe : history.Removable (sa :: rest))
    (h : history.Inv active) (hsc : history.sheap sa = some sentCmd)
    (ha : sentCmd.vbucket = some a) (hb : history.table.heap a = some b)
    (hq : vCmdQueueCreate b.data.id false = some q) (hkeyed : q.Keyed) :
    vHashArrayRemoveItem history.table q b.data.cmd =
      some (history.table.removed q b.data.cmd a, true) := by
  have hfirst := (hsafe [] sa rest rfl).find h hsc ha hb hq
  rw [vHashArrayRemoveItem_eq h.wf b.data.cmd hq hkeyed]
  have hid : history.table.lb b.data.cmd.id.toNat = history.table.lb b.data.id := rfl
  rw [hid, hfirst]

/-! ## Removing a packet -/

/-- `sent_size` after the commands were taken off. -/
def takeOff (sentSize : ℕ) (cmds : List CmdPtr) : ℕ :=
  cmds.foldl (fun n cmd => sub32 n (vCmdSize cmd.cmd)) sentSize

/-- **The loop of `v_packet_history_rem_packet`** destroys the commands that are not
obsolete, in order, and leaves the others alone. -/
theorem remCmds_spec (h : history.Inv active) (sentSize : ℕ) {cmds : List ℕ}
    (hcmds : ∀ sa ∈ cmds, sa ∈ active) (hnodup : cmds.Nodup) (hsafe : history.Removable cmds) :
    ∃ table, remCmds history sentSize cmds =
        some ({ history with table := table },
          takeOff sentSize (cmds.filterMap history.cmdAt), cmds.filterMap history.cmdAt) ∧
      VPacketHistory.Inv { history with table := table } (active \ {sa | sa ∈ cmds}) ∧
      ∀ x ∈ active, x ∉ cmds →
        VPacketHistory.cmdAt { history with table := table } x = history.cmdAt x := by
  induction cmds generalizing history active sentSize with
  | nil =>
      have hset : active \ {sa | sa ∈ ([] : List ℕ)} = active := by
        ext x
        simp
      exact ⟨history.table, rfl, hset.symm ▸ h, fun _ _ _ => rfl⟩
  | cons sa rest ih =>
      obtain ⟨hnot, hnodup'⟩ := List.nodup_cons.mp hnodup
      have hsa := hcmds sa (by simp)
      have hrest : ∀ x ∈ rest, x ∈ active ∧ x ≠ sa := fun x hx =>
        ⟨hcmds x (by simp [hx]), fun heq => hnot (heq ▸ hx)⟩
      have hset : (active \ {sa}) \ {x | x ∈ rest} = active \ {x | x ∈ sa :: rest} := by
        ext x
        simp only [Set.mem_sdiff, Set.mem_singleton_iff, Set.mem_ofPred_eq, List.mem_cons]
        tauto
      obtain ⟨sentCmd, hsc⟩ := h.stored sa hsa
      cases ha : sentCmd.vbucket with
      | none =>
          have hnone := VPacketHistory.cmdAt_of_obsolete hsc ha
          obtain ⟨table, hres, hinv, hframe⟩ := ih (h.skip hsc ha) sentSize
            (fun x hx => ⟨(hrest x hx).1, (hrest x hx).2⟩) hnodup'
            (fun before x after hsplit => (hsafe.tail before x after hsplit).keep h
              (hrest x (by simp [hsplit])).1 (hrest x (by simp [hsplit])).2 hsc
              (by simp [ha]))
          refine ⟨table, ?_, hset ▸ hinv, ?_⟩
          · simp only [remCmds, hsc, ha, hres, List.filterMap_cons, hnone]
          · intro x hx hxnot
            rw [List.mem_cons, not_or] at hxnot
            exact hframe x ⟨hx, hxnot.1⟩ hxnot.2
      | some a =>
          obtain ⟨b, hb, -, -⟩ := h.bucket sa hsa sentCmd a hsc ha
          obtain ⟨q, hq, hkeyed⟩ := h.keyed a b hb
          have hsome := VPacketHistory.cmdAt_of_bucket hsc ha hb
          have hremove := hsafe.head h hsc ha hb hq hkeyed
          obtain ⟨table, hres, hinv, hframe⟩ := ih (h.drop hsa hsc ha hb hq)
            (sub32 sentSize (vCmdSize b.data.cmd))
            (fun x hx => ⟨(hrest x hx).1, (hrest x hx).2⟩) hnodup'
            (fun before x after hsplit => (hsafe.tail before x after hsplit).drop h hsa hsc ha hb
              (hrest x (by simp [hsplit])).1 (hrest x (by simp [hsplit])).2)
          have hmap : rest.filterMap (VPacketHistory.cmdAt
              { history with table := history.table.removed q b.data.cmd a }) =
                rest.filterMap history.cmdAt := by
            apply List.filterMap_congr
            intro x hx
            exact h.cmdAt_drop hsa hsc ha _ (hrest x hx).1 (hrest x hx).2
          rw [hmap] at hres
          refine ⟨table, ?_, hset ▸ hinv, ?_⟩
          · simp only [remCmds, hsc, ha, hb, hq, hremove, hres, Option.map_some,
              List.filterMap_cons, hsome]
            rfl
          · intro x hx hxnot
            rw [List.mem_cons, not_or] at hxnot
            rw [← h.cmdAt_drop (q := q) hsa hsc ha b.data.cmd hx hxnot.1]
            exact hframe x ⟨hx, hxnot.1⟩ hxnot.2

end Verse
