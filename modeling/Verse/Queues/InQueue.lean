import Verse.Lib.Run
import Verse.Queues.HashArray

/-!
# The queue of incoming commands

`v_in_queue.c`.  A queued command stands in a list and in the hashed list of its
id.  `v_in_queue_pop` takes the head of the list and removes from the hashed list
the first bucket with an equal key.

## Strategy

`VInQueue.Inv` says that the buckets of one id are in the same order in the
hashed list as in the queue, so that the bucket of the head is the first of its
id.  The queue then behaves like a plain list (`listPush`, `listPop`), which is
the simulation `vInQueue_agrees`.
-/

namespace Verse

open Lib

/-- `VInQueueCommand` without its links. -/
structure VInQueueCommand where
  addr : ℕ
  vbucket : ℕ
  deriving DecidableEq, Repr

/-- `VInQueue`; `next` is the next address for a `VInQueueCommand`. -/
structure VInQueue where
  queue : List VInQueueCommand
  next : ℕ
  table : CmdTable
  count : ℕ
  size : ℕ

/-- `v_in_queue_init`. -/
def vInQueueInit : VInQueue := ⟨[], 0, .init, 0, 0⟩

/-- `v_in_queue_push`. -/
def vInQueuePush (inQueue : VInQueue) (cmd : CmdPtr) : Option VInQueue :=
  match vCmdQueueCreate cmd.id true with
  | none => none
  | some q =>
      let found := if q.removeHashDups then vHashArrayFindItem inQueue.table q cmd.cmd else some none
      match found with
      | none => none
      | some (some a) =>
          match inQueue.table.heap a with
          | none => none
          | some b =>
              if b.ptr = none then none
              else some { inQueue with table := inQueue.table.write a { b with data := cmd } }
      | some none =>
          match vHashArrayAddItem inQueue.table q cmd with
          | none => none
          | some (table, a) =>
              some
                { queue := inQueue.queue ++ [⟨inQueue.next, a⟩]
                  next := inQueue.next + 1
                  table := table.write a ⟨cmd, some inQueue.next⟩
                  count := inc32 inQueue.count
                  size := add32 inQueue.size q.itemSize }

/-- `v_in_queue_pop`. -/
def vInQueuePop (inQueue : VInQueue) : Option (VInQueue × Option CmdPtr) :=
  match inQueue.queue with
  | [] => some (inQueue, none)
  | queueCmd :: rest =>
      match inQueue.table.heap queueCmd.vbucket with
      | none => none
      | some b =>
          match vCmdQueueCreate b.data.id true with
          | none => none
          | some q =>
              match vHashArrayRemoveItem inQueue.table q b.data.cmd with
              | none => none
              | some (table, _) =>
                  some
                    ({ queue := rest
                       next := inQueue.next
                       table := table
                       count := dec32 inQueue.count
                       size := sub32 inQueue.size q.itemSize }, some b.data)

/-! ## A plain list -/

/-- A call of the queue. -/
inductive InQueueOp where
  | push (cmd : CmdPtr)
  | pop

/-- The two commands have the same id and key. -/
def sameAddress (q : VCommandQueue) (c d : CmdPtr) : Bool :=
  c.id = d.id && q.key c.cmd = q.key d.cmd

/-- Puts `a` in the place of the first element that fulfils `p`. -/
def replaceFirst {α : Type*} (p : α → Bool) (a : α) : List α → List α
  | [] => []
  | b :: rest => if p b then a :: rest else b :: replaceFirst p a rest

/-- A push on a plain list.  A command whose id has no queue is not accepted. -/
def listPush (l : List CmdPtr) (cmd : CmdPtr) : Option (List CmdPtr) :=
  match vCmdQueueCreate cmd.id true with
  | none => none
  | some q =>
      if q.Keyed then
        if q.removeHashDups && l.any (sameAddress q cmd) then
          some (replaceFirst (sameAddress q cmd) cmd l)
        else some (l ++ [cmd])
      else none

/-- A pop on a plain list. -/
def listPop : List CmdPtr → List CmdPtr × Option CmdPtr
  | [] => ([], none)
  | c :: rest => (rest, some c)

/-- The size of a command in the queue. -/
def itemSize (c : CmdPtr) : ℕ := ((vCmdQueueCreate c.id true).map (·.itemSize)).getD 0

/-- What a caller sees of a step: what was popped, the count and the size. -/
abbrev InQueueView := Option CmdPtr × ℕ × ℕ

def vInQueueStep (inQueue : VInQueue) : InQueueOp → Option (VInQueue × InQueueView)
  | .push cmd =>
      (vInQueuePush inQueue cmd).map fun iq => (iq, none, iq.count, iq.size)
  | .pop =>
      (vInQueuePop inQueue).map fun (iq, popped) => (iq, popped, iq.count, iq.size)

def listView (l : List CmdPtr) (popped : Option CmdPtr) : InQueueView :=
  (popped, l.length % 2 ^ 32, (l.map itemSize).sum % 2 ^ 32)

def listStep (l : List CmdPtr) : InQueueOp → Option (List CmdPtr × InQueueView)
  | .push cmd => (listPush l cmd).map fun l => (l, listView l none)
  | .pop => some ((listPop l).1, listView (listPop l).1 (listPop l).2)

/-! ## The invariant

`entries` are the buckets of the queue with the commands they hold. -/

structure VInQueue.Inv (inQueue : VInQueue) (entries : List (ℕ × CmdPtr)) : Prop where
  wf : inQueue.table.WF true
  queue_eq : inQueue.queue.map (·.vbucket) = entries.map Prod.fst
  held : ∀ e ∈ entries, ∃ p, inQueue.table.heap e.1 = some ⟨e.2, some p⟩
  order : ∀ id, inQueue.table.lb id = (entries.filter fun e => e.2.id = id).map Prod.fst
  nodup : (entries.map Prod.fst).Nodup
  keyed : ∀ e ∈ entries, ∃ q, vCmdQueueCreate e.2.id true = some q ∧ q.Keyed
  count_eq : inQueue.count = entries.length % 2 ^ 32
  size_eq : inQueue.size = (entries.map fun e => itemSize e.2).sum % 2 ^ 32

variable {inQueue : VInQueue} {entries : List (ℕ × CmdPtr)} {q : VCommandQueue} {cmd : CmdPtr}

theorem VInQueue.inv_init : vInQueueInit.Inv [] where
  wf := CmdTable.wf_init true
  queue_eq := rfl
  held := by simp
  order _ := rfl
  nodup := List.nodup_nil
  keyed := by simp
  count_eq := rfl
  size_eq := rfl

theorem itemSize_eq (hq : vCmdQueueCreate cmd.id true = some q) : itemSize cmd = q.itemSize := by
  simp [itemSize, hq]

/-- Looking for a key in the hashed list is looking for it in the queue. -/
theorem VInQueue.Inv.find (h : inQueue.Inv entries) :
    (inQueue.table.lb cmd.id).find? (inQueue.table.hasKey q cmd.cmd) =
      (entries.find? fun e => sameAddress q cmd e.2).map Prod.fst := by
  rw [h.order cmd.id, List.find?_map, List.find?_filter]
  have hheld := h.held
  clear h
  induction entries with
  | nil => rfl
  | cons e rest ih =>
      obtain ⟨p, hp⟩ := hheld e (by simp)
      have hrest := ih fun e' he' => hheld e' (by simp [he'])
      have hsame : (decide (e.2.id = cmd.id) && inQueue.table.hasKey q cmd.cmd e.1) =
          sameAddress q cmd e.2 := by
        simp only [CmdTable.hasKey, hp, sameAddress]
        congr 1
        · exact decide_eq_decide.mpr eq_comm
        · exact decide_eq_decide.mpr eq_comm
      cases hval : sameAddress q cmd e.2 with
      | true =>
          rw [hval] at hsame
          simp [hsame, hval]
      | false =>
          rw [hval] at hsame
          simpa [List.find?_cons, hsame, hval] using hrest

/-! ## A push that appends -/

theorem VInQueue.Inv.append (h : inQueue.Inv entries)
    (hq : vCmdQueueCreate cmd.id true = some q) (hkeyed : q.Keyed) :
    VInQueue.Inv
      { queue := inQueue.queue ++ [⟨inQueue.next, inQueue.table.next⟩]
        next := inQueue.next + 1
        table := (inQueue.table.added q cmd).write inQueue.table.next ⟨cmd, some inQueue.next⟩
        count := inc32 inQueue.count
        size := add32 inQueue.size q.itemSize }
      (entries ++ [(inQueue.table.next, cmd)]) := by
  have hfresh : ∀ e ∈ entries, e.1 ≠ inQueue.table.next := by
    intro e he heq
    obtain ⟨p, hp⟩ := h.held e he
    have := h.wf.lt_next hp
    omega
  refine
    { wf := ?_, queue_eq := ?_, held := ?_, order := ?_, nodup := ?_, keyed := ?_,
      count_eq := ?_, size_eq := ?_ }
  · refine (h.wf.added cmd hq).write (b := ⟨cmd, none⟩) (by simp) rfl fun _ _ => rfl
  · simp [h.queue_eq]
  · intro e he
    rcases List.mem_append.mp he with he | he
    · obtain ⟨p, hp⟩ := h.held e he
      exact ⟨p, by simp [hfresh e he, hp]⟩
    · obtain rfl := List.mem_singleton.mp he
      exact ⟨inQueue.next, by simp⟩
  · intro id
    rw [write_lb, added_lb, h.order id, List.filter_append, List.map_append]
    by_cases hid : id = cmd.id
    · simp [hid]
    · simp [hid, Ne.symm hid]
  · rw [List.map_append, List.nodup_append]
    refine ⟨h.nodup, by simp, ?_⟩
    intro a ha b hb hab
    obtain ⟨e, he, rfl⟩ := List.mem_map.mp ha
    obtain rfl : b = inQueue.table.next := by simpa using hb
    exact hfresh e he hab
  · intro e he
    rcases List.mem_append.mp he with he | he
    · exact h.keyed e he
    · obtain rfl := List.mem_singleton.mp he
      exact ⟨q, hq, hkeyed⟩
  · simp only [h.count_eq, inc32_mod, List.length_append, List.length_singleton]
  · simp only [h.size_eq, add32, List.map_append, List.sum_append, List.map_cons, List.map_nil,
      List.sum_singleton, itemSize_eq hq, Nat.mod_add_mod]

/-! ## A push that replaces -/

/-- Putting another command into the bucket `a`. -/
def putAt (a : ℕ) (cmd : CmdPtr) (entries : List (ℕ × CmdPtr)) : List (ℕ × CmdPtr) :=
  entries.map fun e => if e.1 = a then (a, cmd) else e

theorem map_fst_putAt (a : ℕ) (cmd : CmdPtr) (entries : List (ℕ × CmdPtr)) :
    (putAt a cmd entries).map Prod.fst = entries.map Prod.fst := by
  rw [putAt, List.map_map]
  apply List.map_congr_left
  intro e _
  by_cases he : e.1 = a
  · simp [he]
  · simp [he]

theorem putAt_of_not_mem (cmd : CmdPtr) {a : ℕ} (hnot : ∀ e ∈ entries, e.1 ≠ a) : putAt a cmd entries = entries := by
  rw [putAt]
  conv_rhs => rw [← List.map_id entries]
  apply List.map_congr_left
  intro e he
  simp [hnot e he]

/-- The bucket that is found first is the place of the first command found. -/
theorem map_snd_putAt {p : CmdPtr → Bool} {e : ℕ × CmdPtr} (hnodup : (entries.map Prod.fst).Nodup)
    (hfind : entries.find? (fun e => p e.2) = some e) :
    (putAt e.1 cmd entries).map Prod.snd = replaceFirst p cmd (entries.map Prod.snd) := by
  induction entries with
  | nil => simp at hfind
  | cons first rest ih =>
      rw [List.map_cons, List.nodup_cons] at hnodup
      rw [List.find?_cons] at hfind
      cases hp : p first.2 with
      | true =>
          rw [hp] at hfind
          obtain rfl := Option.some.inj hfind
          have hnot : ∀ e ∈ rest, e.1 ≠ first.1 := by
            intro e he heq
            exact hnodup.1 (heq ▸ List.mem_map_of_mem he)
          have hrest := putAt_of_not_mem cmd hnot
          rw [putAt] at hrest
          simp [putAt, replaceFirst, hp, hrest]
      | false =>
          rw [hp] at hfind
          have hne : first.1 ≠ e.1 := by
            intro heq
            have hmem := List.mem_of_find?_eq_some hfind
            exact hnodup.1 (heq ▸ List.mem_map_of_mem hmem)
          have hrest := ih hnodup.2 hfind
          rw [putAt] at hrest
          simp [putAt, replaceFirst, hp, hne, hrest]

theorem VInQueue.Inv.replace (h : inQueue.Inv entries)
    (hq : vCmdQueueCreate cmd.id true = some q) {e : ℕ × CmdPtr}
    (hfind : entries.find? (fun e => sameAddress q cmd e.2) = some e) {p : ℕ}
    (hheld : inQueue.table.heap e.1 = some ⟨e.2, some p⟩) :
    VInQueue.Inv { inQueue with table := inQueue.table.write e.1 ⟨cmd, some p⟩ }
      (putAt e.1 cmd entries) := by
  have hmem := List.mem_of_find?_eq_some hfind
  have hsame : sameAddress q cmd e.2 = true := by simpa using List.find?_some hfind
  simp only [sameAddress, Bool.and_eq_true, decide_eq_true_eq] at hsame
  obtain ⟨hid, hkey⟩ := hsame
  -- an entry keeps its id, as only one bucket changes and its new command has the same
  have hsameId : ∀ e' ∈ entries, (if e'.1 = e.1 then (e.1, cmd) else e').2.id = e'.2.id := by
    intro e' he'
    by_cases heq : e'.1 = e.1
    · obtain ⟨p', hp'⟩ := h.held e' he'
      rw [heq, hheld] at hp'
      have hdata : e.2 = e'.2 := congrArg VBucket.data (Option.some.inj hp')
      simp [heq, hid, hdata]
    · simp [heq]
  refine
    { wf := ?_, queue_eq := ?_, held := ?_, order := ?_, nodup := ?_, keyed := ?_,
      count_eq := ?_, size_eq := ?_ }
  · refine h.wf.write hheld hid fun q' hq' => ?_
    obtain rfl : q' = q := by
      rw [← hid, hq] at hq'
      exact (Option.some.inj hq').symm
    exact hkey
  · rw [map_fst_putAt]
    exact h.queue_eq
  · intro e' he'
    obtain ⟨e₀, he₀, rfl⟩ := List.mem_map.mp he'
    by_cases heq : e₀.1 = e.1
    · exact ⟨p, by simp [heq]⟩
    · obtain ⟨p₀, hp₀⟩ := h.held e₀ he₀
      exact ⟨p₀, by simp [heq, hp₀]⟩
  · intro id
    rw [write_lb, h.order id, putAt, List.filter_map, List.map_map]
    have hfilter : entries.filter ((fun e' => decide (e'.2.id = id)) ∘
        fun e' => if e'.1 = e.1 then (e.1, cmd) else e') =
        entries.filter fun e' => decide (e'.2.id = id) := by
      apply List.filter_congr
      intro e' he'
      simp only [Function.comp, hsameId e' he']
    rw [hfilter]
    apply List.map_congr_left
    intro e' _
    by_cases heq : e'.1 = e.1
    · simp [heq]
    · simp [heq]
  · rw [map_fst_putAt]
    exact h.nodup
  · intro e' he'
    obtain ⟨e₀, he₀, rfl⟩ := List.mem_map.mp he'
    rw [hsameId e₀ he₀]
    exact h.keyed e₀ he₀
  · rw [putAt, List.length_map]
    exact h.count_eq
  · have hsizes : (putAt e.1 cmd entries).map (fun e => itemSize e.2) =
        entries.map fun e => itemSize e.2 := by
      rw [putAt, List.map_map]
      apply List.map_congr_left
      intro e' he'
      simp only [Function.comp, itemSize, hsameId e' he']
    rw [hsizes]
    exact h.size_eq

/-! ## A pop -/

/-- The bucket of the head is the first one with its key. -/
theorem VInQueue.Inv.find_head {e : ℕ × CmdPtr} {rest : List (ℕ × CmdPtr)}
    (h : inQueue.Inv (e :: rest)) :
    (inQueue.table.lb e.2.id).find? (inQueue.table.hasKey q e.2.cmd) = some e.1 := by
  rw [h.find]
  simp [sameAddress]

theorem sub32_mod {a b : ℕ} (hb : b < 2 ^ 32) : sub32 ((b + a) % 2 ^ 32) b = a % 2 ^ 32 := by
  unfold sub32
  omega

theorem itemSize_lt (c : CmdPtr) : itemSize c < 2 ^ 32 := by
  have hnode : ∀ s ∈ cmdStructTable, s.size < 1000 := by decide +kernel
  have hsize : (cmdStruct c.id).size < 1000 := by
    rcases cmdStruct_mem c.id with hmem | hres
    · exact hnode _ hmem
    · rw [hres]
      decide
  unfold itemSize vCmdQueueCreate
  split
  · simp only [Option.map_some, Option.getD_some, vNodeCmdQueueCreate]
    omega
  · unfold vFakeCmdQueueCreate
    split
    · simp
    · split <;> simp [fakeCmdQueue]

theorem VInQueue.Inv.pop {e : ℕ × CmdPtr} {rest : List (ℕ × CmdPtr)} (h : inQueue.Inv (e :: rest))
    (hq : vCmdQueueCreate e.2.id true = some q) {queue : List VInQueueCommand}
    (hqueue : queue.map (·.vbucket) = rest.map Prod.fst) :
    VInQueue.Inv
      { queue := queue
        next := inQueue.next
        table := inQueue.table.removed q e.2.cmd e.1
        count := dec32 inQueue.count
        size := sub32 inQueue.size q.itemSize } rest := by
  have hnodup := h.nodup
  rw [List.map_cons, List.nodup_cons] at hnodup
  have hfind := List.mem_of_find?_eq_some (h.find_head (q := q))
  have hkey : inQueue.table.hasKey q e.2.cmd e.1 = true := List.find?_some (h.find_head (q := q))
  refine
    { wf := h.wf.removed hq hfind hkey, queue_eq := hqueue, held := ?_, order := ?_,
      nodup := hnodup.2, keyed := fun e' he' => h.keyed e' (by simp [he']),
      count_eq := ?_, size_eq := ?_ }
  · intro e' he'
    obtain ⟨p, hp⟩ := h.held e' (by simp [he'])
    have hne : e'.1 ≠ e.1 := fun heq => hnodup.1 (heq ▸ List.mem_map_of_mem he')
    exact ⟨p, by simp [hne, hp]⟩
  · intro id
    rw [removed_lb, h.order id]
    by_cases hid : id = e.2.id
    · subst hid
      simp [CmdPtr.id]
    · have hid' : ¬ id = e.2.cmd.id.toNat := hid
      rw [if_neg hid', List.filter_cons_of_neg (by simpa using Ne.symm hid)]
  · rw [h.count_eq, List.length_cons, dec32_mod (Nat.succ_pos _), Nat.succ_sub_one]
  · rw [h.size_eq, ← itemSize_eq hq, List.map_cons, List.sum_cons, sub32_mod (itemSize_lt _)]

/-! ## The simulation -/

/-- The queue stands for the list of the commands its buckets hold. -/
def VInQueue.Represents (inQueue : VInQueue) (l : List CmdPtr) : Prop :=
  ∃ entries, inQueue.Inv entries ∧ l = entries.map Prod.snd

theorem VInQueue.Inv.view (h : inQueue.Inv entries) (popped : Option CmdPtr) :
    (popped, inQueue.count, inQueue.size) = listView (entries.map Prod.snd) popped := by
  rw [listView, h.count_eq, h.size_eq, List.length_map, List.map_map]
  rfl

theorem vInQueuePush_agrees (h : inQueue.Inv entries) (cmd : CmdPtr) :
    (vInQueuePush inQueue cmd = none ∧ listPush (entries.map Prod.snd) cmd = none) ∨
      ∃ inQueue' entries', vInQueuePush inQueue cmd = some inQueue' ∧
        listPush (entries.map Prod.snd) cmd = some (entries'.map Prod.snd) ∧
        inQueue'.Inv entries' := by
  cases hq : vCmdQueueCreate cmd.id true with
  | none => exact Or.inl ⟨by simp [vInQueuePush, hq], by simp [listPush, hq]⟩
  | some q =>
      by_cases hkeyed : q.Keyed
      · right
        have hany : (entries.map Prod.snd).any (sameAddress q cmd) =
            (entries.find? fun e => sameAddress q cmd e.2).isSome := by
          rw [List.any_map, List.isSome_find?]
          rfl
        have hfind := (vHashArrayFindItem_eq h.wf cmd.cmd hq hkeyed).trans
          (congrArg some h.find)
        have happend : ∃ inQueue' entries',
            (match vHashArrayAddItem inQueue.table q cmd with
              | none => none
              | some (table, a) =>
                  some
                    ({ queue := inQueue.queue ++ [⟨inQueue.next, a⟩]
                       next := inQueue.next + 1
                       table := table.write a ⟨cmd, some inQueue.next⟩
                       count := inc32 inQueue.count
                       size := add32 inQueue.size q.itemSize } : VInQueue)) = some inQueue' ∧
              some (entries.map Prod.snd ++ [cmd]) = some (entries'.map Prod.snd) ∧
              inQueue'.Inv entries' := by
          rw [vHashArrayAddItem_eq cmd hkeyed]
          exact ⟨_, _, rfl, by simp, h.append hq hkeyed⟩
        simp only [vInQueuePush, listPush, hq, if_pos hkeyed, hany]
        cases hdups : q.removeHashDups with
        | false => simpa using happend
        | true =>
            simp only [if_true, hfind, Bool.true_and]
            cases hentry : entries.find? fun e => sameAddress q cmd e.2 with
            | none => simpa using happend
            | some e =>
                obtain ⟨p, hp⟩ := h.held e (List.mem_of_find?_eq_some hentry)
                refine ⟨_, putAt e.1 cmd entries, by simp [hp], ?_, h.replace hq hentry hp⟩
                rw [map_snd_putAt h.nodup hentry]
                rfl
      · left
        have hzero : q.keySize = 0 := keySize_eq_zero hq hkeyed
        constructor
        · have hhash : vHashFuncUint16 q cmd.cmd = none := by simp [vHashFuncUint16, hzero]
          simp only [vInQueuePush, hq, vHashArrayFindItem, vHashArrayAddItem, hhash]
          split <;> simp_all
        · simp [listPush, hq, hkeyed]

theorem vInQueuePop_agrees (h : inQueue.Inv entries) :
    ∃ inQueue' entries',
      vInQueuePop inQueue = some (inQueue', (listPop (entries.map Prod.snd)).2) ∧
        entries'.map Prod.snd = (listPop (entries.map Prod.snd)).1 ∧ inQueue'.Inv entries' := by
  cases entries with
  | nil =>
      have hqueue : inQueue.queue = [] := by simpa using h.queue_eq
      exact ⟨inQueue, [], by simp [vInQueuePop, hqueue, listPop], rfl, h⟩
  | cons e rest =>
      obtain ⟨queueCmd, queue, hqueue⟩ : ∃ queueCmd queue, inQueue.queue = queueCmd :: queue := by
        cases hq : inQueue.queue with
        | nil =>
            have := h.queue_eq
            simp [hq] at this
        | cons queueCmd queue => exact ⟨queueCmd, queue, rfl⟩
      have hmap := h.queue_eq
      rw [hqueue, List.map_cons, List.map_cons, List.cons.injEq] at hmap
      obtain ⟨p, hp⟩ := h.held e (by simp)
      obtain ⟨q, hq, hkeyed⟩ := h.keyed e (by simp)
      have hremove := vHashArrayRemoveItem_eq h.wf e.2.cmd hq hkeyed
      have hhead : (inQueue.table.lb e.2.cmd.id.toNat).find? (inQueue.table.hasKey q e.2.cmd) =
          some e.1 := h.find_head
      rw [hhead] at hremove
      refine ⟨_, rest, ?_, rfl, h.pop hq hmap.2⟩
      simp only [vInQueuePop, hqueue, hmap.1, hp, hq, hremove]
      rfl

/-- Each call does on the queue what it does on the list. -/
theorem vInQueue_agrees : StepsAgree VInQueue.Represents vInQueueStep listStep := by
  rintro inQueue l ⟨entries, h, rfl⟩ op
  cases op with
  | push cmd =>
      rcases vInQueuePush_agrees h cmd with ⟨hpush, hlist⟩ | ⟨inQueue', entries', hpush, hlist, h'⟩
      · exact Or.inl ⟨by simp [vInQueueStep, hpush], by simp [listStep, hlist]⟩
      · refine Or.inr ⟨inQueue', entries'.map Prod.snd, listView (entries'.map Prod.snd) none,
          ?_, by simp [listStep, hlist], entries', h', rfl⟩
        rw [← h'.view none]
        simp [vInQueueStep, hpush]
  | pop =>
      obtain ⟨inQueue', entries', hpop, hlist, h'⟩ := vInQueuePop_agrees h
      refine Or.inr ⟨inQueue', entries'.map Prod.snd,
        listView (entries'.map Prod.snd) (listPop (entries.map Prod.snd)).2, ?_, ?_, entries', h', rfl⟩
      · rw [← h'.view]
        simp [vInQueueStep, hpop]
      · simp [listStep, hlist]

theorem trace_listStep_isSome {ops : List InQueueOp} (haccepted : ∀ cmd, .push cmd ∈ ops → Accepted cmd)
    (l : List CmdPtr) : (trace listStep l ops).isSome = true := by
  induction ops generalizing l with
  | nil => rfl
  | cons op rest ih =>
      have hrest := ih fun cmd hcmd => haccepted cmd (by simp [hcmd])
      obtain ⟨l', view, hstep⟩ : ∃ l' view, listStep l op = some (l', view) := by
        cases op with
        | pop => exact ⟨_, _, rfl⟩
        | push cmd =>
            obtain ⟨q, hq, hkeyed⟩ := haccepted cmd (by simp)
            simp only [listStep, listPush, hq, if_pos hkeyed]
            split
            · exact ⟨_, _, rfl⟩
            · exact ⟨_, _, rfl⟩
      obtain ⟨result, hresult⟩ := Option.isSome_iff_exists.mp (hrest l')
      simp [trace, hstep, hresult]

/-- **The incoming queue is a list.**  For every sequence of pushes and pops,
every call returns what it returns on a plain list, with the length of the list
as count and the sum of the item sizes as size.  An assertion fails exactly where
the list does not accept the command, and never for a command whose id has a
queue. -/
theorem vInQueue_trace_eq_list (ops : List InQueueOp) :
    (trace vInQueueStep vInQueueInit ops).map Prod.snd = (trace listStep [] ops).map Prod.snd ∧
      ((∀ cmd, .push cmd ∈ ops → Accepted cmd) →
        (trace vInQueueStep vInQueueInit ops).isSome = true) := by
  have hinit : VInQueue.Represents vInQueueInit [] := ⟨[], VInQueue.inv_init, rfl⟩
  rcases trace_agree vInQueue_agrees hinit ops with ⟨hs, ht⟩ | ⟨s, t, views, hs, ht, -⟩
  · refine ⟨by simp [hs, ht], fun haccepted => ?_⟩
    have hsome := trace_listStep_isSome haccepted []
    rw [ht] at hsome
    cases hsome
  · exact ⟨by simp [hs, ht], fun _ => by simp [hs]⟩

end Verse
