import Verse.Lib.Tallies
import Verse.Queues.OutQueueRun

/-!
# The books of the outgoing queue

What the packing loop goes by: the counts and sizes of the priorities, their totals, and
the highest and lowest priority.  `Books` is the queue without its groups, and
`vOutQueuePush` and `vOutQueuePop` are described on it by two operations, an entry that
enters a list and one that leaves its list.  No step has to be safe for this: a pop that
removes the bucket of another entry keeps the books too.

The counters have 32 bits.  They are right as long as what is queued takes less than 4 GiB;
without that bound a priority whose count wraps to zero looks empty.
-/

namespace Verse

open Lib

/-- A step of the queue by itself. -/
def VOutQueue.step (oq : VOutQueue) : OutAction → Option VOutQueue
  | .pushTail limits prio cmd => (vOutQueuePushTail oq limits prio.toNat cmd.1).map (·.1)
  | .pushHead prio cmd => (vOutQueuePushHead oq prio.toNat cmd.1).map (·.1)
  | .pop prio len => (vOutQueuePop oq prio.toNat len.toNat).map (·.1)

/-- The queue without its groups; an entry is its bucket, its id and its priority. -/
structure Books where
  queues : ℕ → List ℕ
  entries : ℕ → Option (ℕ × ℕ × ℕ)
  table : CmdTable
  next : ℕ
  prioCount : ℕ → ℕ
  prioSize : ℕ → ℕ
  count : ℕ
  size : ℕ
  maxPrio : ℕ
  minPrio : ℕ

def VOutQueue.books (oq : VOutQueue) : Books where
  queues := oq.queues
  entries a := (oq.qheap a).map (·.bare)
  table := oq.table
  next := oq.next
  prioCount := oq.prioCount
  prioSize := oq.prioSize
  count := oq.count
  size := oq.size
  maxPrio := oq.maxPrio
  minPrio := oq.minPrio

namespace Books

/-- The entry at `qa` enters the list of `prio` with a bucket for `cmd`. -/
def enter (bk : Books) (q : VCommandQueue) (head : Bool) (prio qa : ℕ) (cmd : CmdPtr) : Books :=
  { bk with
    queues := Function.update bk.queues prio (place head qa (bk.queues prio))
    entries := Function.update bk.entries qa (some (bk.table.next, cmd.id, prio))
    table := (bk.table.added q cmd).write bk.table.next ⟨cmd, some qa⟩
    prioCount := Function.update bk.prioCount prio (inc32 (bk.prioCount prio))
    prioSize := Function.update bk.prioSize prio (add32 (bk.prioSize prio) q.itemSize)
    maxPrio := if bk.maxPrio < prio then prio else bk.maxPrio
    minPrio := if bk.maxPrio < prio then bk.minPrio
      else if prio < bk.minPrio then prio else bk.minPrio }

/-- The entry at `qa` leaves the list of `prio`, and `table` is what is left of the
buckets. -/
def leave (bk : Books) (q : VCommandQueue) (prio qa : ℕ) (table : CmdTable) : Books :=
  { bk with
    queues := Function.update bk.queues prio ((bk.queues prio).erase qa)
    table := table
    prioCount := Function.update bk.prioCount prio (dec32 (bk.prioCount prio))
    prioSize := Function.update bk.prioSize prio (sub32 (bk.prioSize prio) q.itemSize) }

end Books

/-! ## The functions of the queue on the books -/

section Functions

variable {oq oq' : VOutQueue} {q : VCommandQueue}

theorem joinGroup_books {head : Bool} {prio : ℕ} {shareAddr : Bool} {id : ℕ} {old group : Option ℕ}
    {cmd : GenericCmd} (h : joinGroup oq head prio shareAddr id old cmd = some (oq', group)) :
    oq'.books = oq.books := by
  unfold joinGroup at h
  split at h
  case h_1 => cases h; rfl
  case h_2 ba hborder =>
    split at h
    case h_1 => cases h
    case h_2 border hqc =>
      split at h
      case isFalse => cases h; rfl
      case isTrue =>
        split at h
        case h_1 => cases h
        case h_2 =>
          split at h
          case h_1 =>
            cases h
            have hentries : (fun a => (Function.update oq.qheap ba
                (some { border with group := some oq.nextGroup }) a).map (·.bare)) =
                fun a => (oq.qheap a).map (·.bare) := by
              funext a
              by_cases ha : a = ba
              · rw [ha, Function.update_self, hqc]
                rfl
              · rw [Function.update_of_ne ha]
            simp only [VOutQueue.books, hentries]
          case h_2 =>
            split at h
            case h_1 => cases h
            case h_2 => cases h; rfl

theorem vOutQueueCommandAdd_books {head : Bool} {prio qa : ℕ} {shareAddr : Bool}
    {queueCmd : VOutQueueCommand} {cmd : GenericCmd}
    (h : vOutQueueCommandAdd oq head prio shareAddr qa queueCmd cmd = some oq') :
    oq'.books = { oq.books with
      queues := Function.update oq.queues prio (place head qa (oq.queues prio))
      entries := Function.update oq.books.entries qa (some queueCmd.bare) } := by
  unfold vOutQueueCommandAdd at h
  split at h
  case h_1 => cases h
  case h_2 joined group hjoin =>
    cases h
    have hbooks := joinGroup_books hjoin
    have hqueues : joined.queues = oq.queues := congrArg Books.queues hbooks
    have hentries : (fun a => (Function.update joined.qheap qa
        (some { queueCmd with group := group }) a).map (·.bare)) =
        Function.update joined.books.entries qa (some queueCmd.bare) := by
      funext a
      by_cases ha : a = qa
      · rw [ha, Function.update_self, Function.update_self]
        rfl
      · rw [Function.update_of_ne ha, Function.update_of_ne ha]
        rfl
    rw [← hbooks, ← hqueues]
    simp only [VOutQueue.books, hentries]
    rfl

theorem attachBucket_books {prio qa : ℕ} {cmd : CmdPtr} (hkeyed : q.Keyed) {id p : ℕ}
    (hentry : ∃ v, oq.books.entries qa = some (v, id, p))
    (h : attachBucket oq q prio qa cmd = some oq') :
    oq'.books = { oq.books with
      entries := Function.update oq.books.entries qa (some (oq.table.next, id, p))
      table := (oq.table.added q cmd).write oq.table.next ⟨cmd, some qa⟩
      prioCount := Function.update oq.prioCount prio (inc32 (oq.prioCount prio))
      prioSize := Function.update oq.prioSize prio (add32 (oq.prioSize prio) q.itemSize)
      maxPrio := if oq.maxPrio < prio then prio else oq.maxPrio
      minPrio := if oq.maxPrio < prio then oq.minPrio
        else if prio < oq.minPrio then prio else oq.minPrio } := by
  obtain ⟨v, hentry⟩ := hentry
  unfold attachBucket at h
  rw [vHashArrayAddItem_eq cmd hkeyed] at h
  split at h
  case h_2 => cases h
  case h_1 queueCmd table a hqc hadd =>
    obtain ⟨rfl, rfl⟩ := Prod.mk.inj (Option.some.inj hadd)
    cases h
    have hbare : queueCmd.id = id ∧ queueCmd.prio = p := by
      simp only [VOutQueue.books, hqc, Option.map_some, VOutQueueCommand.bare, Option.some.injEq,
        Prod.mk.injEq] at hentry
      exact hentry.2
    have hentries : (fun a => (Function.update oq.qheap qa
        (some { queueCmd with vbucket := oq.table.next }) a).map (·.bare)) =
        Function.update oq.books.entries qa (some (oq.table.next, id, p)) := by
      funext a
      by_cases ha : a = qa
      · rw [ha, Function.update_self, Function.update_self]
        simp only [Option.map_some, VOutQueueCommand.bare, hbare.1, hbare.2]
      · rw [Function.update_of_ne ha, Function.update_of_ne ha]
        rfl
    simp only [VOutQueue.books, hentries]

/-- An entry is put into a list and given its bucket. -/
theorem enter_books {oq₁ : VOutQueue} {head : Bool} {prio qa : ℕ} {shareAddr : Bool}
    {queueCmd : VOutQueueCommand} {cmd : CmdPtr} (hkeyed : q.Keyed) (hid : queueCmd.id = cmd.id)
    (hprio : queueCmd.prio = prio)
    (hadd : vOutQueueCommandAdd oq head prio shareAddr qa queueCmd cmd.cmd = some oq₁)
    (hattach : attachBucket oq₁ q prio qa cmd = some oq') :
    oq'.books = oq.books.enter q head prio qa cmd := by
  have hbooks := vOutQueueCommandAdd_books hadd
  have hentry : oq₁.books.entries qa = some (queueCmd.vbucket, cmd.id, prio) := by
    rw [hbooks]
    simp only [Function.update_self, VOutQueueCommand.bare, hid, hprio]
  rw [attachBucket_books hkeyed ⟨_, hentry⟩ hattach]
  have htable : oq₁.table = oq.table := congrArg Books.table hbooks
  have hcount : oq₁.prioCount = oq.prioCount := congrArg Books.prioCount hbooks
  have hsize : oq₁.prioSize = oq.prioSize := congrArg Books.prioSize hbooks
  have hmax : oq₁.maxPrio = oq.maxPrio := congrArg Books.maxPrio hbooks
  have hmin : oq₁.minPrio = oq.minPrio := congrArg Books.minPrio hbooks
  rw [htable, hcount, hsize, hmax, hmin, hbooks, Books.enter]
  simp only [Function.update_idem]
  rfl

theorem dropGroup_books {group : Option ℕ} (h : dropGroup oq group = some oq') :
    oq'.books = oq.books := by
  unfold dropGroup at h
  split at h
  case h_1 => cases h; rfl
  case h_2 =>
    split at h
    case h_1 => cases h
    case h_2 => cases h; rfl

end Functions

/-! ## Entries and lists -/

/-- Some buckets of `t` are gone. -/
structure Remains (t t' : CmdTable) : Prop where
  wf : t'.WF true
  next : t'.next = t.next
  heap : ∀ a b, t'.heap a = some b → t.heap a = some b

theorem vHashArrayRemoveItem_remains {t t' : CmdTable} (h : t.WF true) {q : VCommandQueue}
    {cmd : CmdPtr} {found : Bool} (hq : vCmdQueueCreate cmd.id true = some q) (hkeyed : q.Keyed)
    (hremove : vHashArrayRemoveItem t q cmd.cmd = some (t', found)) : Remains t t' := by
  rw [vHashArrayRemoveItem_eq h cmd.cmd hq hkeyed] at hremove
  split at hremove
  case h_1 =>
    cases hremove
    exact ⟨h, rfl, fun _ _ hb => hb⟩
  case h_2 a hfind =>
    cases hremove
    refine ⟨h.removed hq (List.mem_of_find?_eq_some hfind) (List.find?_some hfind), rfl, ?_⟩
    intro c b hb
    rw [removed_heap] at hb
    by_cases hc : c = a
    · rw [hc, Function.update_self] at hb
      cases hb
    · rwa [Function.update_of_ne hc] at hb

/-- `item_size` of the commands with this id. -/
def itemSizeOf (id : ℕ) : ℕ := ((vCmdQueueCreate id true).map (·.itemSize)).getD 0

theorem itemSizeOf_eq {id : ℕ} {q : VCommandQueue} (hq : vCmdQueueCreate id true = some q) :
    itemSizeOf id = q.itemSize := by
  simp [itemSizeOf, hq]

theorem itemSizeOf_pos {cmd : CmdPtr} (h : Accepted cmd) : 0 < itemSizeOf cmd.id := by
  obtain ⟨q, hq, hkey, hroom⟩ := h
  rw [itemSizeOf_eq hq]
  omega

namespace Books

/-- Every list holds the entries of its priority, and an entry that has its bucket has the
id of its command.  The entry at `hole` stands in no list. -/
structure Listed (bk : Books) (hole : Option ℕ) : Prop where
  wf : bk.table.WF true
  accepted : ∀ a b, bk.table.heap a = some b → Accepted b.data
  fresh : ∀ a, bk.next ≤ a → bk.entries a = none
  nodup : ∀ p, (bk.queues p).Nodup
  queued : ∀ p a, a ∈ bk.queues p ↔ some a ≠ hole ∧ ∃ v i, bk.entries a = some (v, i, p)
  bound : ∀ p, maxPriority < p → bk.queues p = []
  sized : ∀ a v i p, some a ≠ hole → bk.entries a = some (v, i, p) → 0 < itemSizeOf i
  bucketLt : ∀ a v i p, some a ≠ hole → bk.entries a = some (v, i, p) → v < bk.table.next
  bucketId : ∀ a v i p b, some a ≠ hole → bk.entries a = some (v, i, p) →
    bk.table.heap v = some b → b.data.id = i
  ptrLt : ∀ v b a, bk.table.heap v = some b → b.ptr = some a → a < bk.next
  ptrId : ∀ v b a w i p, bk.table.heap v = some b → b.ptr = some a →
    bk.entries a = some (w, i, p) → b.data.id = i

variable {bk : Books} {hole : Option ℕ} {q : VCommandQueue} {qa : ℕ}

theorem Listed.lt_next (h : bk.Listed hole) {e : ℕ × ℕ × ℕ} (he : bk.entries qa = some e) :
    qa < bk.next := by
  by_contra hge
  have hnone := h.fresh qa (Nat.le_of_not_lt hge)
  rw [hnone] at he
  cases he

theorem Listed.alloc (h : bk.Listed none) :
    Listed { bk with next := bk.next + 1 } (some bk.next) where
  wf := h.wf
  accepted := h.accepted
  fresh a ha := h.fresh a (Nat.le_of_succ_le ha)
  nodup := h.nodup
  queued p a := by
    rw [h.queued p a]
    refine and_congr_left fun ⟨v, i, he⟩ => ?_
    have hne : a ≠ bk.next := Nat.ne_of_lt (h.lt_next he)
    simp [hne]
  bound := h.bound
  sized a v i p _ he := h.sized a v i p (by simp) he
  bucketLt a v i p _ he := h.bucketLt a v i p (by simp) he
  bucketId a v i p b _ he := h.bucketId a v i p b (by simp) he
  ptrLt v b a hb ha := Nat.lt_succ_of_lt (h.ptrLt v b a hb ha)
  ptrId := h.ptrId

theorem Listed.leave (h : bk.Listed none) {v i p : ℕ} (he : bk.entries qa = some (v, i, p))
    {table : CmdTable} (hrem : Remains bk.table table) :
    (bk.leave q p qa table).Listed (some qa) where
  wf := hrem.wf
  accepted a b hb := h.accepted a b (hrem.heap a b hb)
  fresh := h.fresh
  nodup p' := by
    by_cases hp : p' = p
    · rw [hp]
      simpa [Books.leave] using (h.nodup p).erase qa
    · simpa [Books.leave, Function.update_of_ne hp] using h.nodup p'
  queued p' a := by
    have hold := h.queued p' a
    simp only [ne_eq, reduceCtorEq, not_false_eq_true, true_and] at hold
    by_cases hp : p' = p
    · subst hp
      simp only [Books.leave, Function.update_self, (h.nodup p').mem_erase_iff, hold, ne_eq,
        Option.some.injEq]
    · simp only [Books.leave, Function.update_of_ne hp, hold, ne_eq, Option.some.injEq]
      refine ⟨fun hmem => ⟨?_, hmem⟩, And.right⟩
      rintro rfl
      obtain ⟨w, j, he'⟩ := hmem
      rw [he] at he'
      cases he'
      exact hp rfl
  bound p' hp' := by
    have hnil := h.bound p' hp'
    by_cases hp : p' = p
    · subst hp
      simp [Books.leave, hnil]
    · simpa [Books.leave, Function.update_of_ne hp] using hnil
  sized a w j p' _ he' := h.sized a w j p' (by simp) he'
  bucketLt a w j p' _ he' := hrem.next ▸ h.bucketLt a w j p' (by simp) he'
  bucketId a w j p' b _ he' hb := h.bucketId a w j p' b (by simp) he' (hrem.heap w b hb)
  ptrLt w b a hb := h.ptrLt w b a (hrem.heap w b hb)
  ptrId w b a w' j p' hb := h.ptrId w b a w' j p' (hrem.heap w b hb)

theorem Listed.free (h : bk.Listed (some qa)) :
    Listed { bk with entries := Function.update bk.entries qa none } none := by
  have hother : ∀ a e, Function.update bk.entries qa none a = some e →
      a ≠ qa ∧ bk.entries a = some e := by
    intro a e he
    by_cases ha : a = qa
    · rw [ha, Function.update_self] at he
      cases he
    · exact ⟨ha, by rwa [Function.update_of_ne ha] at he⟩
  refine
    { wf := h.wf, accepted := h.accepted, fresh := ?_, nodup := h.nodup, queued := ?_,
      bound := h.bound, sized := ?_, bucketLt := ?_, bucketId := ?_, ptrLt := h.ptrLt, ptrId := ?_ }
  · intro a ha
    by_cases haq : a = qa
    · simp [haq]
    · simpa [Function.update_of_ne haq] using h.fresh a ha
  · intro p a
    rw [h.queued p a]
    simp only [ne_eq, Option.some.injEq, reduceCtorEq, not_false_eq_true, true_and]
    constructor
    · rintro ⟨hne, v, i, he⟩
      exact ⟨v, i, by rwa [Function.update_of_ne hne]⟩
    · rintro ⟨v, i, he⟩
      obtain ⟨hne, he⟩ := hother a _ he
      exact ⟨hne, v, i, he⟩
  · intro a v i p _ he
    obtain ⟨hne, he⟩ := hother a _ he
    exact h.sized a v i p (by simpa using hne) he
  · intro a v i p _ he
    obtain ⟨hne, he⟩ := hother a _ he
    exact h.bucketLt a v i p (by simpa using hne) he
  · intro a v i p b _ he
    obtain ⟨hne, he⟩ := hother a _ he
    exact h.bucketId a v i p b (by simpa using hne) he
  · intro v b a w i p hb hptr he
    exact h.ptrId v b a w i p hb hptr (hother a _ he).2

/-- What a new bucket adds to the table. -/
theorem heap_entered (t : CmdTable) (q : VCommandQueue) (cmd : CmdPtr) (qa : ℕ) :
    ((t.added q cmd).write t.next ⟨cmd, some qa⟩).heap =
      Function.update t.heap t.next (some ⟨cmd, some qa⟩) := by
  rw [write_heap, added_heap, Function.update_idem]

theorem Listed.enter (h : bk.Listed (some qa)) (hlt : qa < bk.next) {cmd : CmdPtr}
    (hq : vCmdQueueCreate cmd.id true = some q) (hacc : Accepted cmd) {prio : ℕ}
    (hprio : prio ≤ maxPriority)
    (hptr : ∀ v b, bk.table.heap v = some b → b.ptr = some qa → b.data.id = cmd.id)
    (head : Bool) : (bk.enter q head prio qa cmd).Listed none := by
  have hnot : ∀ p, qa ∉ bk.queues p := by
    intro p hmem
    exact ((h.queued p qa).mp hmem).1 rfl
  have hplace : ∀ a, a ∈ place head qa (bk.queues prio) ↔ a = qa ∨ a ∈ bk.queues prio := by
    intro a
    rw [(place_perm head qa (bk.queues prio)).mem_iff, List.mem_cons]
  have hother : ∀ a, a ≠ qa → some a ≠ some qa := fun a hne heq => hne (Option.some.inj heq)
  have hadded : ((bk.table.added q cmd).write bk.table.next ⟨cmd, some qa⟩).WF true :=
    (h.wf.added cmd hq).write (b := ⟨cmd, none⟩) (by rw [added_heap, Function.update_self]) rfl
      fun _ _ => rfl
  refine
    { wf := hadded, accepted := ?_, fresh := ?_, nodup := ?_, queued := ?_, bound := ?_,
      sized := ?_, bucketLt := ?_, bucketId := ?_, ptrLt := ?_, ptrId := ?_ }
  · intro a b hb
    simp only [Books.enter, heap_entered] at hb
    by_cases ha : a = bk.table.next
    · rw [ha, Function.update_self] at hb
      cases hb
      exact hacc
    · rw [Function.update_of_ne ha] at hb
      exact h.accepted a b hb
  · intro a ha
    have hne : a ≠ qa := (Nat.lt_of_lt_of_le hlt ha).ne'
    simpa [Books.enter, Function.update_of_ne hne] using h.fresh a ha
  · intro p
    by_cases hp : p = prio
    · subst hp
      simp only [Books.enter, Function.update_self]
      exact (place_perm head qa (bk.queues p)).nodup_iff.mpr
        (List.nodup_cons.mpr ⟨hnot p, h.nodup p⟩)
    · simpa [Books.enter, Function.update_of_ne hp] using h.nodup p
  · intro p a
    simp only [Books.enter, ne_eq, reduceCtorEq, not_false_eq_true, true_and]
    by_cases ha : a = qa
    · subst ha
      simp only [Function.update_self, Option.some.injEq, Prod.mk.injEq]
      by_cases hp : p = prio
      · subst hp
        simp [hplace]
      · rw [Function.update_of_ne hp]
        refine iff_of_false (hnot p) ?_
        rintro ⟨v, i, -, -, rfl⟩
        exact hp rfl
    · rw [Function.update_of_ne ha]
      have hold : a ∈ bk.queues p ↔ ∃ v i, bk.entries a = some (v, i, p) := by
        rw [h.queued p a]
        exact and_iff_right (hother a ha)
      by_cases hp : p = prio
      · subst hp
        rw [Function.update_self, hplace, hold]
        simp [ha]
      · rw [Function.update_of_ne hp, hold]
  · intro p hp
    have hne : p ≠ prio := (Nat.lt_of_le_of_lt hprio hp).ne'
    simpa [Books.enter, Function.update_of_ne hne] using h.bound p hp
  · intro a v i p _ he
    simp only [Books.enter] at he
    by_cases ha : a = qa
    · rw [ha, Function.update_self] at he
      cases he
      exact itemSizeOf_pos hacc
    · rw [Function.update_of_ne ha] at he
      exact h.sized a v i p (hother a ha) he
  · intro a v i p _ he
    simp only [Books.enter, write_next, added_next] at he ⊢
    by_cases ha : a = qa
    · rw [ha, Function.update_self] at he
      cases he
      exact Nat.lt_succ_self _
    · rw [Function.update_of_ne ha] at he
      exact Nat.lt_succ_of_lt (h.bucketLt a v i p (hother a ha) he)
  · intro a v i p b _ he hb
    simp only [Books.enter, heap_entered] at he hb
    by_cases ha : a = qa
    · rw [ha, Function.update_self] at he
      cases he
      rw [Function.update_self] at hb
      cases hb
      rfl
    · rw [Function.update_of_ne ha] at he
      have hv := h.bucketLt a v i p (hother a ha) he
      rw [Function.update_of_ne hv.ne] at hb
      exact h.bucketId a v i p b (hother a ha) he hb
  · intro v b a hb hpa
    simp only [Books.enter, heap_entered] at hb
    by_cases hv : v = bk.table.next
    · rw [hv, Function.update_self] at hb
      cases hb
      obtain rfl := Option.some.inj hpa
      exact hlt
    · rw [Function.update_of_ne hv] at hb
      exact h.ptrLt v b a hb hpa
  · intro v b a w i p hb hpa he
    simp only [Books.enter, heap_entered] at hb he
    by_cases hv : v = bk.table.next
    · rw [hv, Function.update_self] at hb
      cases hb
      obtain rfl := Option.some.inj hpa
      rw [Function.update_self] at he
      cases he
      rfl
    · rw [Function.update_of_ne hv] at hb
      by_cases ha : a = qa
      · rw [ha] at hpa he
        rw [Function.update_self] at he
        cases he
        exact hptr v b hb hpa
      · rw [Function.update_of_ne ha] at he
        exact h.ptrId v b a w i p hb hpa he

/-- A bucket is given another command of its id. -/
theorem Listed.rewrite (h : bk.Listed none) {a : ℕ} {b : VBucket} (hb : bk.table.heap a = some b)
    {cmd : CmdPtr} (hid : cmd.id = b.data.id) (hacc : Accepted cmd)
    (hwf : (bk.table.write a { b with data := cmd }).WF true) :
    Listed { bk with table := bk.table.write a { b with data := cmd } } none := by
  have hheap : ∀ c d, (bk.table.write a { b with data := cmd }).heap c = some d →
      (c = a ∧ d = { b with data := cmd }) ∨ bk.table.heap c = some d := by
    intro c d hd
    rw [write_heap] at hd
    by_cases hc : c = a
    · rw [hc, Function.update_self] at hd
      exact Or.inl ⟨hc, (Option.some.inj hd).symm⟩
    · rw [Function.update_of_ne hc] at hd
      exact Or.inr hd
  refine
    { wf := hwf, accepted := ?_, fresh := h.fresh, nodup := h.nodup, queued := h.queued,
      bound := h.bound, sized := h.sized, bucketLt := h.bucketLt, bucketId := ?_, ptrLt := ?_,
      ptrId := ?_ }
  · intro c d hd
    rcases hheap c d hd with ⟨-, rfl⟩ | hd
    · exact hacc
    · exact h.accepted c d hd
  · intro c v i p d hne he hd
    rcases hheap v d hd with ⟨rfl, rfl⟩ | hd
    · exact hid.trans (h.bucketId c v i p b hne he hb)
    · exact h.bucketId c v i p d hne he hd
  · intro v d c hd hptr
    rcases hheap v d hd with ⟨rfl, rfl⟩ | hd
    · exact h.ptrLt v b c hb hptr
    · exact h.ptrLt v d c hd hptr
  · intro v d c w i p hd hptr he
    rcases hheap v d hd with ⟨rfl, rfl⟩ | hd
    · exact hid.trans (h.ptrId v b c w i p hb hptr he)
    · exact h.ptrId v d c w i p hd hptr he

/-! ## Counts and sizes -/

/-- What the entry adds to the size. -/
def sizeAt (bk : Books) (a : ℕ) : ℕ :=
  match bk.entries a with
  | none => 0
  | some (_, id, _) => itemSizeOf id

/-- The number of commands of a priority. -/
def lens (bk : Books) (p : ℕ) : ℕ := (bk.queues p).length

/-- The size of the commands of a priority. -/
def sizes (bk : Books) (p : ℕ) : ℕ := ((bk.queues p).map bk.sizeAt).sum

/-- The priorities. -/
def priorities : Finset ℕ := Finset.range (maxPriority + 1)

theorem mem_priorities {p : ℕ} : p ∈ priorities ↔ p ≤ maxPriority := by
  rw [priorities, Finset.mem_range, Nat.lt_succ_iff]

/-- The counters are those of the lists, in 32 bits. -/
structure Booked (bk : Books) : Prop where
  counts : Tallies (2 ^ 32) priorities bk.prioCount bk.count bk.lens
  bytes : Tallies (2 ^ 32) priorities bk.prioSize bk.size bk.sizes

theorem itemSizeOf_lt (id : ℕ) : itemSizeOf id < 2 ^ 32 := by
  have htable : ∀ s ∈ cmdStructTable, s.size < 256 := by decide +kernel
  unfold itemSizeOf vCmdQueueCreate
  split
  · have hsize : (cmdStruct id).size < 256 := by
      rcases cmdStruct_mem id with hmem | hres
      · exact htable _ hmem
      · rw [hres]
        decide
    simp only [Option.map_some, Option.getD_some, vNodeCmdQueueCreate]
    omega
  · unfold vFakeCmdQueueCreate
    split
    · decide
    · split <;> decide

theorem sum_map_erase {f : ℕ → ℕ} {l : List ℕ} {a : ℕ} (h : a ∈ l) :
    (l.map f).sum = ((l.erase a).map f).sum + f a := by
  have hperm := (List.perm_cons_erase h).map f
  rw [hperm.sum_eq, List.map_cons, List.sum_cons, Nat.add_comm]

theorem lens_leave {p : ℕ} {table : CmdTable} (hmem : qa ∈ bk.queues p) :
    (bk.leave q p qa table).lens = Function.update bk.lens p ((bk.queues p).erase qa).length ∧
      bk.lens p = ((bk.queues p).erase qa).length + 1 := by
  constructor
  · funext p'
    by_cases hp : p' = p
    · simp [lens, Books.leave, hp]
    · simp [lens, Books.leave, Function.update_of_ne hp]
  · rw [lens, List.length_erase_of_mem hmem]
    have hpos := List.length_pos_of_mem hmem
    omega

theorem sizes_leave {v i p : ℕ} {table : CmdTable} (he : bk.entries qa = some (v, i, p))
    (hmem : qa ∈ bk.queues p) :
    (bk.leave q p qa table).sizes =
        Function.update bk.sizes p (((bk.queues p).erase qa).map bk.sizeAt).sum ∧
      bk.sizes p = (((bk.queues p).erase qa).map bk.sizeAt).sum + itemSizeOf i := by
  constructor
  · funext p'
    by_cases hp : p' = p
    · subst hp
      simp only [sizes, Books.leave, Function.update_self]
      rfl
    · simp only [sizes, Books.leave, Function.update_of_ne hp]
      rfl
  · have hsize : bk.sizeAt qa = itemSizeOf i := by simp [sizeAt, he]
    rw [sizes, sum_map_erase hmem, hsize]

theorem lens_enter (head : Bool) (prio : ℕ) (cmd : CmdPtr) :
    (bk.enter q head prio qa cmd).lens = Function.update bk.lens prio (bk.lens prio + 1) := by
  funext p
  by_cases hp : p = prio
  · subst hp
    have hlen := (place_perm head qa (bk.queues p)).length_eq
    simpa [lens, Books.enter] using hlen
  · simp [lens, Books.enter, Function.update_of_ne hp]

theorem sizes_enter {cmd : CmdPtr} (h : bk.Listed (some qa)) (hq : vCmdQueueCreate cmd.id true = some q)
    (head : Bool) (prio : ℕ) :
    (bk.enter q head prio qa cmd).sizes =
      Function.update bk.sizes prio (bk.sizes prio + q.itemSize) := by
  have hnot : ∀ p, qa ∉ bk.queues p := by
    intro p hmem
    exact ((h.queued p qa).mp hmem).1 rfl
  have hother : ∀ p a, a ∈ bk.queues p → (bk.enter q head prio qa cmd).sizeAt a = bk.sizeAt a := by
    intro p a ha
    have hne : a ≠ qa := fun heq => hnot p (heq ▸ ha)
    simp [sizeAt, Books.enter, Function.update_of_ne hne]
  have hself : (bk.enter q head prio qa cmd).sizeAt qa = q.itemSize := by
    simp [sizeAt, Books.enter, itemSizeOf_eq hq]
  funext p
  by_cases hp : p = prio
  · subst hp
    have hperm := (place_perm head qa (bk.queues p)).map (bk.enter q head p qa cmd).sizeAt
    have hqueue : (bk.enter q head p qa cmd).queues p = place head qa (bk.queues p) := by
      simp [Books.enter]
    rw [Function.update_self, sizes, hqueue, hperm.sum_eq, List.map_cons, List.sum_cons, hself,
      List.map_congr_left (hother p), Nat.add_comm]
    rfl
  · have hqueue : (bk.enter q head prio qa cmd).queues p = bk.queues p := by
      simp [Books.enter, Function.update_of_ne hp]
    rw [Function.update_of_ne hp, sizes, hqueue, List.map_congr_left (hother p)]
    rfl

/-- A command takes at least a byte. -/
theorem Listed.lens_le_sizes (h : bk.Listed none) (p : ℕ) : bk.lens p ≤ bk.sizes p := by
  have hpos : ∀ a ∈ bk.queues p, 1 ≤ bk.sizeAt a := by
    intro a ha
    obtain ⟨-, v, i, he⟩ := (h.queued p a).mp ha
    rw [sizeAt, he]
    exact h.sized a v i p (by simp) he
  calc bk.lens p = ((bk.queues p).map fun _ => 1).sum := by simp [lens]
    _ ≤ bk.sizes p := List.sum_le_sum hpos

end Books

/-! ## What the steps do to the books -/

/-- What a push does to the books. -/
inductive PushBooks (oq oq' : VOutQueue) (head : Bool) (prio : ℕ) (cmd : CmdPtr) : Bool → Prop
  | full (heq : oq' = oq) : PushBooks oq oq' head prio cmd false
  | added {q : VCommandQueue} (hq : vCmdQueueCreate cmd.id true = some q)
      (htwin : oq.twin cmd = none)
      (hbooks : oq'.books =
        { Books.enter { oq.books with next := oq.next + 1 } q head prio oq.next cmd with
          count := inc32 oq.count
          size := add32 oq.size q.itemSize }) : PushBooks oq oq' head prio cmd true
  | moved {q : VCommandQueue} (hq : vCmdQueueCreate cmd.id true = some q) {qa v p : ℕ}
      {table : CmdTable} (htwin : oq.twin cmd = some qa)
      (hentry : oq.books.entries qa = some (v, cmd.id, p)) (hne : p ≠ prio)
      (hrem : Remains oq.table table)
      (hbooks : oq'.books = (oq.books.leave q p qa table).enter q head prio qa cmd) :
      PushBooks oq oq' head prio cmd true
  | replaced {a qa v : ℕ} {b : VBucket} (htwin : oq.twin cmd = some qa)
      (hentry : oq.books.entries qa = some (v, cmd.id, prio)) (hb : oq.table.heap a = some b)
      (hid : cmd.id = b.data.id) (hwf : (oq.table.write a { b with data := cmd }).WF true)
      (hbooks : oq'.books = { oq.books with table := oq.table.write a { b with data := cmd } }) :
      PushBooks oq oq' head prio cmd true

section Pushing

variable {oq oq' : VOutQueue} {q : VCommandQueue}

theorem vOutQueueCommandCreate_books {head limits : Bool} {prio : ℕ} {cmd : CmdPtr}
    (hkeyed : q.Keyed) (h : vOutQueueCommandCreate oq q head limits prio cmd = some (some oq')) :
    oq'.books = { Books.enter { oq.books with next := oq.next + 1 } q head prio oq.next cmd with
      count := inc32 oq.count
      size := add32 oq.size q.itemSize } := by
  unfold vOutQueueCommandCreate at h
  dsimp only at h
  split at h
  case isTrue => cases h
  case isFalse =>
    split at h
    case h_1 => cases h
    case h_2 oq₁ hadd =>
      split at h
      case h_1 => cases h
      case h_2 oq₂ hattach =>
        cases h
        have hbooks := enter_books hkeyed (by rfl) (by rfl) hadd hattach
        have hcount : oq₂.count = oq.count := congrArg Books.count hbooks
        have hsize : oq₂.size = oq.size := congrArg Books.size hbooks
        calc VOutQueue.books { oq₂ with count := inc32 oq₂.count, size := add32 oq₂.size q.itemSize }
            = { oq₂.books with
                count := inc32 oq₂.count
                size := add32 oq₂.size q.itemSize } := rfl
          _ = _ := by rw [hcount, hsize, hbooks]; rfl

theorem changePriority_books (h : oq.books.Listed none) {head : Bool} {prio qa : ℕ}
    {queueCmd : VOutQueueCommand} {old cmd : CmdPtr}
    (hold : vCmdQueueCreate old.id true = some q) (hkeyed : q.Keyed)
    (hres : changePriority oq q head prio qa queueCmd old cmd = some oq') :
    ∃ table, Remains oq.table table ∧
      oq'.books = (oq.books.leave q queueCmd.prio qa table).enter q head prio qa cmd := by
  unfold changePriority at hres
  split at hres
  case h_1 => cases hres
  case h_2 table found hremove =>
    have hrem := vHashArrayRemoveItem_remains h.wf hold hkeyed hremove
    refine ⟨table, hrem, ?_⟩
    simp only at hres
    split at hres
    case h_1 => cases hres
    case h_2 oq₁ hdrop =>
      split at hres
      case h_1 => cases hres
      case h_2 oq₂ hadd =>
        rw [enter_books hkeyed (by rfl) (by rfl) hadd hres, dropGroup_books hdrop]
        rfl

/-- **A push** on the books. -/
theorem vOutQueuePush_books (h : oq.books.Listed none) {cmd : CmdPtr} (hacc : Accepted cmd)
    {head limits pushed : Bool} {prio : ℕ} {replaced : Option CmdPtr}
    (hres : vOutQueuePush oq head limits prio cmd = some (oq', pushed, replaced)) :
    PushBooks oq oq' head prio cmd pushed := by
  obtain ⟨q, hq, hkeyed⟩ := hacc
  unfold vOutQueuePush at hres
  rw [hq] at hres
  simp only at hres
  split at hres
  case h_1 => cases hres
  case h_2 hfound =>
    have htwin : oq.twin cmd = none := by
      unfold VOutQueue.twin
      rw [hq]
      simp only
      split
      case isTrue hdups =>
        rw [if_pos hdups] at hfound
        rw [hfound]
      case isFalse => rfl
    split at hres
    case h_1 => cases hres
    case h_2 => cases hres; exact .full rfl
    case h_3 hcreate =>
      cases hres
      exact .added hq htwin (vOutQueueCommandCreate_books hkeyed hcreate)
  case h_3 a hfound =>
    have hdups : q.removeHashDups = true := by
      by_contra hnot
      rw [if_neg hnot] at hfound
      cases hfound
    rw [if_pos hdups] at hfound
    have hwf : oq.table.WF true := h.wf
    have hlist := hfound
    rw [vHashArrayFindItem_eq hwf cmd.cmd hq hkeyed, Option.some.injEq] at hlist
    obtain ⟨b, hb, hid⟩ := hwf.live (List.mem_of_find?_eq_some hlist)
    have hid : b.data.id = cmd.id := hid
    have hkey : q.key b.data.cmd = q.key cmd.cmd := by
      have hhas := List.find?_some hlist
      simpa [CmdTable.hasKey, hb] using hhas
    rw [hb] at hres
    simp only at hres
    split at hres
    case h_1 => cases hres
    case h_2 qa hptr =>
      have htwin : oq.twin cmd = some qa := by
        simp [VOutQueue.twin, hq, hdups, hfound, hb, hptr]
      split at hres
      case h_1 => cases hres
      case h_2 queueCmd hqc =>
        have hbare : oq.books.entries qa = some (queueCmd.vbucket, queueCmd.id, queueCmd.prio) := by
          simp [VOutQueue.books, hqc, VOutQueueCommand.bare]
        have hentry : oq.books.entries qa = some (queueCmd.vbucket, cmd.id, queueCmd.prio) := by
          rw [← hid, h.ptrId a b qa _ _ _ hb hptr hbare, hbare]
        split at hres
        case isTrue hprio =>
          obtain ⟨oq₁, hchange, heq⟩ := Option.map_eq_some_iff.mp hres
          cases heq
          obtain ⟨table, hrem, hbooks⟩ :=
            changePriority_books h (by rw [hid, hq]) hkeyed hchange
          exact .moved hq htwin hentry hprio hrem hbooks
        case isFalse hprio =>
          cases hres
          have hprio : queueCmd.prio = prio := not_not.mp hprio
          refine .replaced htwin (hprio ▸ hentry) hb hid.symm (hwf.write hb hid.symm ?_) rfl
          intro q' hq'
          rw [hid, hq] at hq'
          cases hq'
          exact hkey.symm

/-- A push to the head is a push, or it changes nothing. -/
theorem vOutQueuePushHead_books (h : oq.books.Listed none) {cmd : CmdPtr} (hacc : Accepted cmd)
    {pushed : Bool} {prio : ℕ} {replaced : Option CmdPtr}
    (hres : vOutQueuePushHead oq prio cmd = some (oq', pushed, replaced)) :
    PushBooks oq oq' true prio cmd pushed := by
  unfold vOutQueuePushHead at hres
  split at hres
  case h_1 => cases hres
  case h_2 =>
    split at hres
    case isFalse => exact vOutQueuePush_books h hacc hres
    case isTrue =>
      split at hres
      case h_1 => cases hres
      case h_2 => cases hres; exact .full rfl
      case h_3 => exact vOutQueuePush_books h hacc hres

end Pushing

/-- What a pop does to the books. -/
inductive PopBooks (oq oq' : VOutQueue) (prio : ℕ) : Option (CmdPtr × PopPlan) → Prop
  | nothing (heq : oq' = oq) : PopBooks oq oq' prio none
  | taken {q : VCommandQueue} {qa v id : ℕ} {table : CmdTable} {oq₁ : VOutQueue} {cmd : CmdPtr}
      {plan : PopPlan} (hentry : oq.books.entries qa = some (v, id, prio))
      (hq : vCmdQueueCreate id true = some q) (hrem : Remains oq.table table)
      (hbooks : oq₁.books = { oq.books.leave q prio qa table with
        count := dec32 oq.count
        size := sub32 oq.size q.itemSize })
      (hbooks' : oq'.books = { (oq₁.updatePrios prio).books with
        entries := Function.update oq.books.entries qa none }) :
      PopBooks oq oq' prio (some (cmd, plan))

section Popping

variable {oq oq' : VOutQueue}

theorem popHead_books (h : oq.books.Listed none) {prio qa : ℕ} {rest : List ℕ}
    {queueCmd : VOutQueueCommand} {b : VBucket} (hqueue : oq.queues prio = qa :: rest)
    (hqc : oq.qheap qa = some queueCmd) (hb : oq.table.heap queueCmd.vbucket = some b)
    (plan : PopPlan) (hres : popHead oq prio qa rest queueCmd b.data = some oq') :
    PopBooks oq oq' prio (some (b.data, plan)) := by
  have hbare : oq.books.entries qa = some (queueCmd.vbucket, queueCmd.id, queueCmd.prio) := by
    simp [VOutQueue.books, hqc, VOutQueueCommand.bare]
  have hprio : queueCmd.prio = prio := by
    have hmem : qa ∈ oq.books.queues prio := by
      show qa ∈ oq.queues prio
      rw [hqueue]
      exact List.mem_cons_self
    obtain ⟨-, v, i, he⟩ := (h.queued prio qa).mp hmem
    rw [hbare] at he
    cases he
    rfl
  have hid : b.data.id = queueCmd.id := h.bucketId qa _ _ _ b (by simp) hbare hb
  obtain ⟨q, hq, hkeyed⟩ := h.accepted _ b hb
  unfold popHead at hres
  rw [hq] at hres
  simp only at hres
  split at hres
  case h_1 => cases hres
  case h_2 table found hremove =>
    have hrem := vHashArrayRemoveItem_remains h.wf hq hkeyed hremove
    split at hres
    case h_1 => cases hres
    case h_2 oq₁ hdrop =>
      cases hres
      have hbooks := dropGroup_books hdrop
      have herase : (oq.queues prio).erase qa = rest := by simp [hqueue]
      have hentries : oq₁.books.entries = oq.books.entries := by rw [hbooks]; rfl
      obtain ⟨maxPrio, minPrio, hprios⟩ := oq₁.updatePrios_eq prio
      refine .taken (hprio ▸ hbare) (hid ▸ hq) hrem
        (hbooks.trans ?_) ?_
      · rw [← herase]
        rfl
      · rw [← hentries, hprios]
        have hfree : (fun a => (Function.update oq₁.qheap qa none a).map (·.bare)) =
            Function.update oq₁.books.entries qa none := by
          funext a
          by_cases ha : a = qa
          · rw [ha, Function.update_self, Function.update_self]
            rfl
          · rw [Function.update_of_ne ha, Function.update_of_ne ha]
            rfl
        simp only [VOutQueue.books, hfree]

/-- **A pop** on the books. -/
theorem vOutQueuePop_books (h : oq.books.Listed none) {prio len : ℕ}
    {result : Option (CmdPtr × PopPlan)} (hres : vOutQueuePop oq prio len = some (oq', result)) :
    PopBooks oq oq' prio result := by
  unfold vOutQueuePop at hres
  split at hres
  case h_1 => cases hres; exact .nothing rfl
  case h_2 qa rest hqueue =>
    split at hres
    case h_1 => cases hres
    case h_2 queueCmd hqc =>
      split at hres
      case h_2 => cases hres
      case h_1 b group hb _ =>
        dsimp only at hres
        split at hres
        case isFalse => cases hres; exact .nothing rfl
        case isTrue =>
          obtain ⟨oq₁, hpop, heq⟩ := Option.map_eq_some_iff.mp hres
          cases heq
          exact popHead_books h hqueue hqc hb _ hpop

end Popping

end Verse
