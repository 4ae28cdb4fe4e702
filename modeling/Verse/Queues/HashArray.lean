import Verse.Lib.Chains
import Verse.Commands.Layout

/-!
# Hashed linked lists of commands

The last part of `v_list.c`, and `v_cmd_queue.c`.  For every command id there is
a list of buckets that is also kept in 256 chains; the index of a chain is a hash
of the key of the command.  Looking a command up or removing it compares keys:
the first bucket with the same key is taken, whichever command it holds.

Buckets live in a heap, `none` being memory that was freed.  Every function
returns `none` where the source fails an assertion or reads freed memory.

## Strategy

`CmdTable.WF` ties the chains to the lists, and with it the three functions are
described by the lists alone (`vHashArrayFindItem_eq`, `vHashArrayAddItem_eq`,
`vHashArrayRemoveItem_eq`); nothing later looks into the chains.
-/

namespace Verse

open Lib

/-! ## Command queues -/

/-- What `VCommandQueue` and its `VHashArrayBase` are set to when they are
created.  None of it changes afterwards. -/
structure VCommandQueue where
  itemSize : ℕ
  removeHashDups : Bool
  notShareAddr : Bool
  keyOffset : ℕ
  keySize : ℕ
  deriving DecidableEq, Repr

/-- `v_node_cmd_queue_create`. -/
def vNodeCmdQueueCreate (id : ℕ) : VCommandQueue where
  itemSize := 1 + (cmdStruct id).size
  removeHashDups := (cmdStruct id).remDup
  notShareAddr := (cmdStruct id).varLen
  keyOffset := 1
  keySize := (cmdStruct id).keySize

/-- The queue of a fake command: the whole structure is the key. -/
def fakeCmdQueue (size : ℕ) (removeHashDups : Bool) : VCommandQueue :=
  ⟨size, removeHashDups, false, 0, size⟩

/-- `v_fake_cmd_queue_create`; the sizes are those of the structures of
`v_fake_commands.h`. -/
def vFakeCmdQueueCreate (id : ℕ) (fakeCmds : Bool) : Option VCommandQueue :=
  if !fakeCmds then none
  else
    match id with
    | 0 => some (fakeCmdQueue 8 false)    -- connect accept
    | 1 => some (fakeCmdQueue 2 false)    -- connect terminate
    | 2 => some (fakeCmdQueue 40 false)   -- user authenticate
    | 3 => some (fakeCmdQueue 16 true)    -- fps
    | 16 => some (fakeCmdQueue 8 true)    -- node create ack
    | 17 => some (fakeCmdQueue 8 true)    -- node destroy ack
    | 18 => some (fakeCmdQueue 12 true)   -- tag group create ack
    | 19 => some (fakeCmdQueue 12 true)   -- tag group destroy ack
    | 20 => some (fakeCmdQueue 12 false)  -- tag create ack
    | 21 => some (fakeCmdQueue 12 false)  -- tag destroy ack
    | 22 => some (fakeCmdQueue 12 false)  -- layer create ack
    | 23 => some (fakeCmdQueue 12 false)  -- layer destroy ack
    | _ => none

/-- `v_cmd_queue_create`. -/
def vCmdQueueCreate (id : ℕ) (fakeCmds : Bool) : Option VCommandQueue :=
  if minCmdId ≤ id then some (vNodeCmdQueueCreate id) else vFakeCmdQueueCreate id fakeCmds

/-- The bytes of a command that are compared. -/
def VCommandQueue.key (q : VCommandQueue) (cmd : GenericCmd) : List UInt8 :=
  slice (cmd.id :: cmd.data) q.keyOffset q.keySize

/-! ## Buckets and lists -/

/-- A command in memory: where it stands and what it holds. -/
structure CmdPtr where
  addr : ℕ
  cmd : GenericCmd
  deriving DecidableEq, Repr

/-- The index of the command in the tables of queues. -/
def CmdPtr.id (c : CmdPtr) : ℕ := c.cmd.id.toNat

/-- `VBucket`: the command, and what points back to the owner of the bucket. -/
structure VBucket where
  data : CmdPtr
  ptr : Option ℕ
  deriving DecidableEq, Repr

/-- `VHashArrayBase`: the list of buckets, the chains, and the count.  An empty
chain is an entry of the array whose `vbucket` is `NULL`. -/
structure VHashArrayBase where
  lb : List ℕ
  buckets : ℕ → List ℕ
  count : ℕ

/-- The array `cmds[MAX_CMD_ID+1]` of a queue or a history, with the memory of
its buckets. -/
structure CmdTable where
  heap : ℕ → Option VBucket
  next : ℕ
  cmds : ℕ → VHashArrayBase

/-- `count++` on a `uint32`. -/
def inc32 (n : ℕ) : ℕ := (n + 1) % 2 ^ 32

/-- `count--` on a `uint32`. -/
def dec32 (n : ℕ) : ℕ := (n + 2 ^ 32 - 1) % 2 ^ 32

/-- `size += item_size` on a `uint32`. -/
def add32 (a b : ℕ) : ℕ := (a + b) % 2 ^ 32

/-- `v_hash_array_init` for all ids. -/
def CmdTable.init : CmdTable := ⟨fun _ => none, 0, fun _ => ⟨[], fun _ => [], 0⟩⟩

/-- The sum of the 16-bit words of a key, the last byte of an odd key alone. -/
def wordSum : List UInt8 → ℕ
  | [] => 0
  | [b] => b.toNat
  | low :: high :: rest => low.toNat + 256 * high.toNat + wordSum rest

/-- The length of the array of chains for `HASH_MOD_256`. -/
def hashLength : ℕ := 256

def hashIndex (q : VCommandQueue) (cmd : GenericCmd) : ℕ := wordSum (q.key cmd) % hashLength

/-- `v_hash_func_uint16`; `none` is the result -1, which no caller lets pass. -/
def vHashFuncUint16 (q : VCommandQueue) (cmd : GenericCmd) : Option ℕ :=
  if q.keySize = 0 then none else some (hashIndex q cmd)

/-- The walk along a chain. -/
def findIn (heap : ℕ → Option VBucket) (q : VCommandQueue) (cmd : GenericCmd) :
    List ℕ → Option (Option ℕ)
  | [] => some none
  | a :: rest =>
      match heap a with
      | none => none
      | some b => if q.key b.data.cmd = q.key cmd then some (some a) else findIn heap q cmd rest

/-- `v_hash_array_find_item`. -/
def vHashArrayFindItem (t : CmdTable) (q : VCommandQueue) (cmd : GenericCmd) : Option (Option ℕ) :=
  match vHashFuncUint16 q cmd with
  | none => none
  | some index => findIn t.heap q cmd ((t.cmds cmd.id.toNat).buckets index)

/-- `v_hash_array_add_item` for a list that does not copy: the table and the new
bucket. -/
def vHashArrayAddItem (t : CmdTable) (q : VCommandQueue) (item : CmdPtr) : Option (CmdTable × ℕ) :=
  if q.itemSize < q.keyOffset + q.keySize then none
  else
    match vHashFuncUint16 q item.cmd with
    | none => none
    | some index =>
        let ha := t.cmds item.id
        let ha' : VHashArrayBase :=
          { lb := ha.lb ++ [t.next]
            buckets := Function.update ha.buckets index (ha.buckets index ++ [t.next])
            count := inc32 ha.count }
        some ({ heap := Function.update t.heap t.next (some ⟨item, none⟩)
                next := t.next + 1
                cmds := Function.update t.cmds item.id ha' }, t.next)

/-- `v_hash_array_remove_item`: the first bucket with the key of `cmd` is freed,
if there is one.  The result is the table and the return value. -/
def vHashArrayRemoveItem (t : CmdTable) (q : VCommandQueue) (cmd : GenericCmd) :
    Option (CmdTable × Bool) :=
  match vHashFuncUint16 q cmd with
  | none => none
  | some index =>
      let ha := t.cmds cmd.id.toNat
      match findIn t.heap q cmd (ha.buckets index) with
      | none => none
      | some none => some (t, false)
      | some (some a) =>
          let ha' : VHashArrayBase :=
            { lb := ha.lb.erase a
              buckets := Function.update ha.buckets index ((ha.buckets index).erase a)
              count := dec32 ha.count }
          some ({ heap := Function.update t.heap a none
                  next := t.next
                  cmds := Function.update t.cmds cmd.id.toNat ha' }, true)

/-- Writing to a bucket. -/
def CmdTable.write (t : CmdTable) (a : ℕ) (b : VBucket) : CmdTable :=
  { t with heap := Function.update t.heap a (some b) }

/-! ## The invariant -/

/-- The buckets of the commands with this id, in order. -/
def CmdTable.lb (t : CmdTable) (id : ℕ) : List ℕ := (t.cmds id).lb

/-- The chain a bucket belongs to. -/
def CmdTable.index (t : CmdTable) (q : VCommandQueue) (a : ℕ) : ℕ :=
  match t.heap a with
  | none => 0
  | some b => hashIndex q b.data.cmd

/-- The bucket holds a command with the key of `cmd`. -/
def CmdTable.hasKey (t : CmdTable) (q : VCommandQueue) (cmd : GenericCmd) (a : ℕ) : Bool :=
  match t.heap a with
  | none => false
  | some b => q.key b.data.cmd = q.key cmd

/-- Lists and chains agree, and hold exactly the buckets in memory. -/
structure CmdTable.WF (t : CmdTable) (fakeCmds : Bool) : Prop where
  fresh : ∀ a, t.next ≤ a → t.heap a = none
  nodup : ∀ id, (t.lb id).Nodup
  mem_lb : ∀ id a, a ∈ t.lb id ↔ ∃ b, t.heap a = some b ∧ b.data.id = id
  split : ∀ id q, vCmdQueueCreate id fakeCmds = some q →
    SplitBy (t.index q) (t.lb id) (t.cmds id).buckets
  count : ∀ id, (t.cmds id).count = (t.lb id).length % 2 ^ 32

/-- A queue whose commands have a key. -/
def VCommandQueue.Keyed (q : VCommandQueue) : Prop :=
  0 < q.keySize ∧ q.keyOffset + q.keySize ≤ q.itemSize

instance (q : VCommandQueue) : Decidable q.Keyed := inferInstanceAs (Decidable (_ ∧ _))

/-- Only an id without a layout has a queue without a key. -/
theorem keySize_eq_zero {id : ℕ} {fakeCmds : Bool} {q : VCommandQueue}
    (hq : vCmdQueueCreate id fakeCmds = some q) (hnot : ¬ q.Keyed) : q.keySize = 0 := by
  have htable : ∀ s ∈ cmdStructTable, s.keySize ≤ s.size := by decide +kernel
  unfold vCmdQueueCreate at hq
  split at hq
  · obtain rfl := Option.some.inj hq
    have hle : (cmdStruct id).keySize ≤ (cmdStruct id).size := by
      rcases cmdStruct_mem id with hmem | hres
      · exact htable _ hmem
      · rw [hres]
        decide
    by_contra hne
    refine hnot ⟨Nat.pos_of_ne_zero hne, ?_⟩
    simp only [vNodeCmdQueueCreate]
    omega
  · unfold vFakeCmdQueueCreate at hq
    split at hq
    · cases hq
    · exfalso
      split at hq <;> first
        | cases hq; exact hnot (by decide)
        | cases hq

/-- The id of the command has a queue with a key: the node commands of the table
and the fake commands. -/
def Accepted (cmd : CmdPtr) : Prop := ∃ q, vCmdQueueCreate cmd.id true = some q ∧ q.Keyed

theorem accepted_of_isNodeCmd {cmd : CmdPtr} (h : (cmdStruct cmd.id).isNodeCmd = true) :
    Accepted cmd := by
  have hmin : minCmdId ≤ cmd.id := by
    by_contra hlt
    have hsmall : ∀ id, id < 32 → (cmdStruct id).isNodeCmd = false := by decide +kernel
    rw [hsmall _ (Nat.lt_of_not_le hlt)] at h
    cases h
  have hsound := cmdStruct_sound h
  have hpos : (vNodeCmdQueueCreate cmd.id).keySize ≠ 0 := Nat.ne_of_gt hsound.keyPos
  have hq : vCmdQueueCreate cmd.id true = some (vNodeCmdQueueCreate cmd.id) := if_pos hmin
  refine ⟨_, hq, ?_⟩
  by_contra hnot
  exact hpos (keySize_eq_zero hq hnot)

theorem CmdTable.wf_init (fakeCmds : Bool) : CmdTable.init.WF fakeCmds where
  fresh _ _ := rfl
  nodup _ := List.nodup_nil
  mem_lb id a := by simp [CmdTable.init, CmdTable.lb]
  split id q _ := by
    intro i
    simp [CmdTable.init, CmdTable.lb]
  count _ := rfl

variable {t : CmdTable} {fakeCmds : Bool} {q : VCommandQueue}

theorem CmdTable.WF.live (h : t.WF fakeCmds) {id a : ℕ} (ha : a ∈ t.lb id) :
    ∃ b, t.heap a = some b ∧ b.data.id = id := (h.mem_lb id a).mp ha

theorem CmdTable.WF.lt_next (h : t.WF fakeCmds) {a : ℕ} {b : VBucket} (ha : t.heap a = some b) :
    a < t.next := by
  by_contra hge
  have := h.fresh a (Nat.le_of_not_lt hge)
  rw [this] at ha
  cases ha

theorem CmdTable.WF.next_not_mem (h : t.WF fakeCmds) (id : ℕ) : t.next ∉ t.lb id := by
  intro hmem
  obtain ⟨b, hb, -⟩ := h.live hmem
  exact Nat.lt_irrefl _ (h.lt_next hb)

theorem findIn_eq {heap : ℕ → Option VBucket} {cmd : GenericCmd} {chain : List ℕ}
    (hlive : ∀ a ∈ chain, ∃ b, heap a = some b) :
    findIn heap q cmd chain = some (chain.find? (CmdTable.hasKey ⟨heap, 0, t.cmds⟩ q cmd)) := by
  induction chain with
  | nil => rfl
  | cons a rest ih =>
      obtain ⟨b, hb⟩ := hlive a (by simp)
      have hrest := ih fun c hc => hlive c (by simp [hc])
      by_cases hkey : q.key b.data.cmd = q.key cmd
      · simp [findIn, CmdTable.hasKey, hb, hkey]
      · rw [List.find?_cons]
        simp only [findIn, hb, CmdTable.hasKey, hkey, if_false, decide_false]
        exact hrest

/-- The walk along the chain finds what a walk along the list would. -/
theorem CmdTable.WF.findIn_chain (h : t.WF fakeCmds) {cmd : GenericCmd}
    (hq : vCmdQueueCreate cmd.id.toNat fakeCmds = some q) :
    findIn t.heap q cmd ((t.cmds cmd.id.toNat).buckets (hashIndex q cmd)) =
      some ((t.lb cmd.id.toNat).find? (t.hasKey q cmd)) := by
  have hsplit := h.split _ q hq
  rw [findIn_eq (t := t)]
  · congr 1
    have hfind := hsplit.find? (b := hashIndex q cmd) (p := t.hasKey q cmd) (by
      intro a ha hkey
      obtain ⟨b, hb, -⟩ := h.live ha
      simp only [CmdTable.hasKey, hb, decide_eq_true_eq] at hkey
      simp only [CmdTable.index, hb, hashIndex, hkey])
    rw [← hfind]
    rfl
  · intro a ha
    rw [hsplit] at ha
    obtain ⟨b, hb, -⟩ := h.live (List.mem_of_mem_filter ha)
    exact ⟨b, hb⟩

/-! ## The three functions by their lists -/

/-- **Finding** takes the first bucket of the list with the same key. -/
theorem vHashArrayFindItem_eq (h : t.WF fakeCmds) (cmd : GenericCmd)
    (hq : vCmdQueueCreate cmd.id.toNat fakeCmds = some q) (hkeyed : q.Keyed) :
    vHashArrayFindItem t q cmd = some ((t.lb cmd.id.toNat).find? (t.hasKey q cmd)) := by
  have hne : q.keySize ≠ 0 := Nat.ne_of_gt hkeyed.1
  simp only [vHashArrayFindItem, vHashFuncUint16, if_neg hne]
  exact h.findIn_chain hq

/-- The table after an item was added. -/
def CmdTable.added (t : CmdTable) (q : VCommandQueue) (item : CmdPtr) : CmdTable :=
  let ha := t.cmds item.id
  { heap := Function.update t.heap t.next (some ⟨item, none⟩)
    next := t.next + 1
    cmds := Function.update t.cmds item.id
      { lb := ha.lb ++ [t.next]
        buckets := Function.update ha.buckets (hashIndex q item.cmd)
          (ha.buckets (hashIndex q item.cmd) ++ [t.next])
        count := inc32 ha.count } }

/-- The table after the bucket `a` was taken out of the list of `cmd`. -/
def CmdTable.removed (t : CmdTable) (q : VCommandQueue) (cmd : GenericCmd) (a : ℕ) : CmdTable :=
  let ha := t.cmds cmd.id.toNat
  { heap := Function.update t.heap a none
    next := t.next
    cmds := Function.update t.cmds cmd.id.toNat
      { lb := ha.lb.erase a
        buckets := Function.update ha.buckets (hashIndex q cmd)
          ((ha.buckets (hashIndex q cmd)).erase a)
        count := dec32 ha.count } }

/-- **Adding** puts a new bucket at the end of the list. -/
theorem vHashArrayAddItem_eq (item : CmdPtr) (hkeyed : q.Keyed) :
    vHashArrayAddItem t q item = some (t.added q item, t.next) := by
  have hne : q.keySize ≠ 0 := Nat.ne_of_gt hkeyed.1
  have hsize : ¬ q.itemSize < q.keyOffset + q.keySize := Nat.not_lt.mpr hkeyed.2
  simp only [vHashArrayAddItem, if_neg hsize, vHashFuncUint16, if_neg hne]
  rfl

/-- **Removing** takes out the first bucket of the list with the same key. -/
theorem vHashArrayRemoveItem_eq (h : t.WF fakeCmds) (cmd : GenericCmd)
    (hq : vCmdQueueCreate cmd.id.toNat fakeCmds = some q) (hkeyed : q.Keyed) :
    vHashArrayRemoveItem t q cmd =
      match (t.lb cmd.id.toNat).find? (t.hasKey q cmd) with
      | none => some (t, false)
      | some a => some (t.removed q cmd a, true) := by
  have hne : q.keySize ≠ 0 := Nat.ne_of_gt hkeyed.1
  simp only [vHashArrayRemoveItem, vHashFuncUint16, if_neg hne, h.findIn_chain hq]
  cases (t.lb cmd.id.toNat).find? (t.hasKey q cmd) <;> rfl

@[simp] theorem added_heap (item : CmdPtr) :
    (t.added q item).heap = Function.update t.heap t.next (some ⟨item, none⟩) := rfl

@[simp] theorem added_next (item : CmdPtr) : (t.added q item).next = t.next + 1 := rfl

theorem added_lb (item : CmdPtr) (id : ℕ) :
    (t.added q item).lb id = if id = item.id then t.lb id ++ [t.next] else t.lb id := by
  by_cases hid : id = item.id
  · simp [CmdTable.lb, CmdTable.added, hid]
  · simp [CmdTable.lb, CmdTable.added, hid]

@[simp] theorem removed_heap (cmd : GenericCmd) (a : ℕ) :
    (t.removed q cmd a).heap = Function.update t.heap a none := rfl

@[simp] theorem removed_next (cmd : GenericCmd) (a : ℕ) : (t.removed q cmd a).next = t.next := rfl

theorem removed_lb (cmd : GenericCmd) (a id : ℕ) :
    (t.removed q cmd a).lb id = if id = cmd.id.toNat then (t.lb id).erase a else t.lb id := by
  by_cases hid : id = cmd.id.toNat
  · simp [CmdTable.lb, CmdTable.removed, hid]
  · simp [CmdTable.lb, CmdTable.removed, hid]

@[simp] theorem write_heap (a : ℕ) (b : VBucket) :
    (t.write a b).heap = Function.update t.heap a (some b) := rfl

@[simp] theorem write_next (a : ℕ) (b : VBucket) : (t.write a b).next = t.next := rfl

@[simp] theorem write_lb (a id : ℕ) (b : VBucket) : (t.write a b).lb id = t.lb id := rfl

/-! ## The invariant is kept -/

theorem inc32_mod (n : ℕ) : inc32 (n % 2 ^ 32) = (n + 1) % 2 ^ 32 := Nat.mod_add_mod _ _ _

theorem dec32_mod {n : ℕ} (hpos : 0 < n) : dec32 (n % 2 ^ 32) = (n - 1) % 2 ^ 32 := by
  unfold dec32
  omega

theorem CmdTable.WF.added (h : t.WF fakeCmds) (item : CmdPtr)
    (hq : vCmdQueueCreate item.id fakeCmds = some q) : (t.added q item).WF fakeCmds where
  fresh a ha := by
    rw [added_next] at ha
    rw [added_heap, Function.update_of_ne (by omega)]
    exact h.fresh a (by omega)
  nodup id := by
    rw [added_lb]
    split
    · exact List.nodup_append_comm.mp
        (List.nodup_cons.mpr ⟨h.next_not_mem id, h.nodup id⟩)
    · exact h.nodup id
  mem_lb id a := by
    rw [added_lb, added_heap]
    by_cases ha : a = t.next
    · subst ha
      have hnot := h.next_not_mem id
      by_cases hid : id = item.id
      · subst hid
        simp
      · simp [hid, hnot, Ne.symm hid]
    · rw [Function.update_of_ne ha, ← h.mem_lb id a]
      split <;> simp [ha]
  split id q' hq' := by
    have hold := h.split id q' hq'
    have hindex : ∀ a ∈ t.lb id, (t.added q item).index q' a = t.index q' a := by
      intro a ha
      have hne : a ≠ t.next := fun heq => h.next_not_mem id (heq ▸ ha)
      simp only [CmdTable.index, added_heap, Function.update_of_ne hne]
    by_cases hid : id = item.id
    · subst hid
      obtain rfl : q' = q := by
        rw [hq] at hq'
        exact (Option.some.inj hq').symm
      have hnew : (t.added q' item).index q' t.next = hashIndex q' item.cmd := by
        simp [CmdTable.index]
      have happend := (hold.congr hindex).append t.next
      rw [hnew] at happend
      rw [added_lb, if_pos rfl]
      simpa [CmdTable.added] using happend
    · rw [added_lb, if_neg hid]
      have hcmds : (t.added q item).cmds id = t.cmds id := by simp [CmdTable.added, hid]
      rw [hcmds]
      exact hold.congr hindex
  count id := by
    rw [added_lb]
    by_cases hid : id = item.id
    · subst hid
      have hcount := h.count item.id
      rw [if_pos rfl, List.length_append, List.length_singleton]
      simp only [CmdTable.added, Function.update_self, hcount]
      exact inc32_mod _
    · rw [if_neg hid]
      have hcmds : (t.added q item).cmds id = t.cmds id := by simp [CmdTable.added, hid]
      rw [hcmds]
      exact h.count id

theorem CmdTable.WF.removed (h : t.WF fakeCmds) {cmd : GenericCmd} {a : ℕ}
    (hq : vCmdQueueCreate cmd.id.toNat fakeCmds = some q) (hmem : a ∈ t.lb cmd.id.toNat)
    (hkey : t.hasKey q cmd a = true) : (t.removed q cmd a).WF fakeCmds where
  fresh c hc := by
    rw [removed_heap]
    by_cases hca : c = a
    · simp [hca]
    · rw [Function.update_of_ne hca]
      exact h.fresh c hc
  nodup id := by
    rw [removed_lb]
    split
    · exact (h.nodup id).erase a
    · exact h.nodup id
  mem_lb id c := by
    obtain ⟨b, hb, hbid⟩ := h.live hmem
    rw [removed_lb, removed_heap]
    by_cases hca : c = a
    · subst hca
      by_cases hid : id = cmd.id.toNat
      · subst hid
        simp [(h.nodup _).not_mem_erase]
      · have hnot : c ∉ t.lb id := by
          intro hc
          obtain ⟨b', hb', hbid'⟩ := h.live hc
          rw [hb] at hb'
          obtain rfl := Option.some.inj hb'
          exact hid (hbid'.symm.trans hbid)
        simp [hid, hnot]
    · rw [Function.update_of_ne hca, ← h.mem_lb id c]
      split
      · exact List.mem_erase_of_ne hca
      · rfl
  split id q' hq' := by
    have hold := h.split id q' hq'
    obtain ⟨b, hb, hbid⟩ := h.live hmem
    by_cases hid : id = cmd.id.toNat
    · subst hid
      obtain rfl : q' = q := by
        rw [hq] at hq'
        exact (Option.some.inj hq').symm
      have hidx : t.index q' a = hashIndex q' cmd := by
        simp only [CmdTable.hasKey, hb, decide_eq_true_eq] at hkey
        simp only [CmdTable.index, hb, hashIndex, hkey]
      have herase := hold.erase (h.nodup _) a
      rw [hidx] at herase
      rw [removed_lb, if_pos rfl]
      have hindex : ∀ c ∈ (t.lb cmd.id.toNat).erase a,
          (t.removed q' cmd a).index q' c = t.index q' c := by
        intro c hc
        have hne : c ≠ a := fun heq => (h.nodup _).not_mem_erase (heq ▸ hc)
        simp only [CmdTable.index, removed_heap, Function.update_of_ne hne]
      have hcongr := herase.congr hindex
      simpa [CmdTable.removed] using hcongr
    · rw [removed_lb, if_neg hid]
      have hcmds : (t.removed q cmd a).cmds id = t.cmds id := by simp [CmdTable.removed, hid]
      rw [hcmds]
      apply hold.congr
      intro c hc
      have hne : c ≠ a := by
        intro heq
        subst heq
        obtain ⟨b', hb', hbid'⟩ := h.live hc
        rw [hb] at hb'
        obtain rfl := Option.some.inj hb'
        exact hid (hbid'.symm.trans hbid)
      simp only [CmdTable.index, removed_heap, Function.update_of_ne hne]
  count id := by
    rw [removed_lb]
    by_cases hid : id = cmd.id.toNat
    · subst hid
      have hcount := h.count cmd.id.toNat
      have hlen := List.length_erase_of_mem hmem
      have hpos := List.length_pos_of_mem hmem
      rw [if_pos rfl, hlen]
      simp only [CmdTable.removed, Function.update_self, hcount]
      exact dec32_mod hpos
    · rw [if_neg hid]
      have hcmds : (t.removed q cmd a).cmds id = t.cmds id := by simp [CmdTable.removed, hid]
      rw [hcmds]
      exact h.count id

/-- A bucket may be given another command with the same id and key. -/
theorem CmdTable.WF.write (h : t.WF fakeCmds) {a : ℕ} {b b' : VBucket} (hb : t.heap a = some b)
    (hid : b'.data.id = b.data.id)
    (hkey : ∀ q, vCmdQueueCreate b.data.id fakeCmds = some q →
      q.key b'.data.cmd = q.key b.data.cmd) : (t.write a b').WF fakeCmds where
  fresh c hc := by
    have hne : c ≠ a := by
      have := h.lt_next hb
      rw [write_next] at hc
      omega
    rw [write_heap, Function.update_of_ne hne]
    exact h.fresh c hc
  nodup id := h.nodup id
  mem_lb id c := by
    rw [write_lb, h.mem_lb id c, write_heap]
    by_cases hca : c = a
    · subst hca
      simp [hb, hid]
    · rw [Function.update_of_ne hca]
  split id q' hq' := by
    rw [write_lb]
    apply (h.split id q' hq').congr
    intro c hc
    by_cases hca : c = a
    · subst hca
      obtain ⟨b₀, hb₀, hbid⟩ := h.live hc
      rw [hb] at hb₀
      obtain rfl := Option.some.inj hb₀
      rw [← hbid] at hq'
      simp only [CmdTable.index, write_heap, Function.update_self, hb, hashIndex, hkey q' hq']
    · simp only [CmdTable.index, write_heap, Function.update_of_ne hca]
  count id := h.count id

end Verse
