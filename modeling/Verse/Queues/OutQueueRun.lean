import Verse.Lib.Run
import Verse.Queues.OutQueueSpec

/-!
# Runs of the outgoing queue

Any sequence of pushes to the tail, pushes to the head and pops.  A book is kept
beside the queue: which pushes were accepted, which of them gave an entry its
command, what was popped and what was replaced.

As long as every pop finds its own bucket first (`VOutQueue.PopSafe`), nothing is
lost: every entry has a bucket with its own command, the accepted commands are
those that were popped, replaced or are still queued, and what was pushed to the
tail comes out in order.
-/

namespace Verse

open Lib

/-- A command of an id that has a queue. -/
abbrev QueueCmd := { cmd : CmdPtr // Accepted cmd }

inductive OutAction where
  | pushTail (limits : Bool) (prio : UInt8) (cmd : QueueCmd)
  | pushHead (prio : UInt8) (cmd : QueueCmd)
  | pop (prio : UInt8) (len : UInt16)

/-- An accepted push.  `slot` and `head` tell how the place of the command in the
list came about: by push number `slot`, to the head or to the tail.  A command that
replaces another of its priority takes over its place. -/
structure OutPush where
  cmd : CmdPtr
  prio : ℕ
  head : Bool
  slot : ℕ
  deriving DecidableEq, Repr

/-- The queue and the book: the accepted pushes, the number of the push that gave
an entry its command, what was popped from each priority (the number of its push
and the command that was returned), and which command was replaced by which. -/
structure OutRun where
  oq : VOutQueue
  pushes : List OutPush
  ticket : ℕ → ℕ
  popped : ℕ → List (ℕ × CmdPtr)
  replaced : List (CmdPtr × CmdPtr)

def OutRun.init : OutRun := ⟨vOutQueueCreate, [], fun _ => 0, fun _ => [], []⟩

/-- The place of a command that is pushed. -/
def OutRun.placed (s : OutRun) (head : Bool) (prio : ℕ) (cmd : CmdPtr) : OutPush :=
  match s.oq.twin cmd with
  | none => ⟨cmd, prio, head, s.pushes.length⟩
  | some qa =>
      match s.pushes[s.ticket qa]? with
      | none => ⟨cmd, prio, head, s.pushes.length⟩
      | some old =>
          if old.prio = prio then ⟨cmd, prio, old.head, old.slot⟩
          else ⟨cmd, prio, head, s.pushes.length⟩

/-- The result of a push is entered in the book. -/
def OutRun.pushed (s : OutRun) (head : Bool) (prio : ℕ) (cmd : CmdPtr)
    (result : VOutQueue × Bool × Option CmdPtr) : OutRun :=
  if result.2.1 then
    { oq := result.1
      pushes := s.pushes ++ [s.placed head prio cmd]
      ticket := Function.update s.ticket ((s.oq.twin cmd).getD s.oq.next) s.pushes.length
      popped := s.popped
      replaced := s.replaced ++ (result.2.2.map (·, cmd)).toList }
  else { s with oq := result.1 }

/-- The result of a pop is entered in the book. -/
def OutRun.poppedBy (s : OutRun) (prio : ℕ) (result : VOutQueue × Option (CmdPtr × PopPlan)) :
    OutRun :=
  match result with
  | (oq, none) => { s with oq := oq }
  | (oq, some (cmd, _)) =>
      { s with
        oq := oq
        popped := Function.update s.popped prio
          (s.popped prio ++ [(s.ticket ((s.oq.queues prio).headD 0), cmd)]) }

def OutRun.step (s : OutRun) : OutAction → Option OutRun
  | .pushTail limits prio cmd =>
      (vOutQueuePushTail s.oq limits prio.toNat cmd.1).map (s.pushed false prio.toNat cmd.1)
  | .pushHead prio cmd =>
      (vOutQueuePushHead s.oq prio.toNat cmd.1).map (s.pushed true prio.toNat cmd.1)
  | .pop prio len => (vOutQueuePop s.oq prio.toNat len.toNat).map (s.poppedBy prio.toNat)

/-- What has to hold before an action. -/
def OutRun.Safe (s : OutRun) : OutAction → Prop
  | .pushTail _ prio cmd => s.oq.PushSafe prio.toNat cmd.1
  | .pushHead _ _ => True
  | .pop prio len => s.oq.PopSafe prio.toNat len.toNat

/-! ## What is conserved -/

/-- The place of the command of push `i`, when it came about by a push to the tail. -/
def placeOf (pushes : List OutPush) (i : ℕ) : Option ℕ :=
  (pushes[i]?).bind fun push => if push.head then none else some push.slot

/-- The places of what was popped and what is queued, in this order. -/
def OutRun.places (s : OutRun) (p : ℕ) : List ℕ :=
  ((s.popped p).map Prod.fst ++ (s.oq.queues p).map s.ticket).filterMap (placeOf s.pushes)

/-- What has been popped so far. -/
def OutRun.poppedCmds (s : OutRun) (p : ℕ) : List CmdPtr := (s.popped p).map Prod.snd

/-- **Conservation.** -/
structure OutRun.Conserved (s : OutRun) : Prop where
  /-- An entry points to a bucket in the list of its id that holds the command it
  was given. -/
  bucket : ∀ p, ∀ qa ∈ s.oq.queues p, ∃ queueCmd b push, s.oq.qheap qa = some queueCmd ∧
    queueCmd.vbucket ∈ s.oq.table.lb queueCmd.id ∧
    s.oq.table.heap queueCmd.vbucket = some b ∧ b.ptr = some qa ∧
    s.pushes[s.ticket qa]? = some push ∧ push.cmd = b.data ∧ push.prio = p
  /-- A popped command is the command of its push. -/
  took : ∀ p, ∀ t ∈ s.popped p, ∃ push, s.pushes[t.1]? = some push ∧ push.cmd = t.2 ∧ push.prio = p
  /-- Popped, queued and replaced commands are the accepted ones. -/
  mass : total s.poppedCmds + total s.oq.contents + (s.replaced.map Prod.fst : Multiset CmdPtr) =
    (s.pushes.map OutPush.cmd : Multiset CmdPtr)
  replaces : ∀ r ∈ s.replaced, Replaces r.2 r.1
  /-- What was pushed to the tail comes out in order. -/
  order : ∀ p, (s.places p).Pairwise (· < ·)

/-- The invariant of a run. -/
structure OutRun.Inv (s : OutRun) : Prop where
  inv : s.oq.Inv none
  bound : ∀ p, maxPriority < p → s.oq.queues p = []
  owned : ∀ p, ∀ qa ∈ s.oq.queues p, ∃ push, s.pushes[s.ticket qa]? = some push ∧
    s.oq.cmdAt qa = some push.cmd ∧ push.prio = p
  took : ∀ p, ∀ t ∈ s.popped p, ∃ push, s.pushes[t.1]? = some push ∧ push.cmd = t.2 ∧ push.prio = p
  mass : total s.poppedCmds + total s.oq.contents + (s.replaced.map Prod.fst : Multiset CmdPtr) =
    (s.pushes.map OutPush.cmd : Multiset CmdPtr)
  replaces : ∀ r ∈ s.replaced, Replaces r.2 r.1
  order : ∀ p, (s.places p).Pairwise (· < ·)
  slot_le : ∀ (i : ℕ) (push : OutPush), s.pushes[i]? = some push → push.slot ≤ i

theorem OutRun.inv_init : OutRun.init.Inv where
  inv := VOutQueue.inv_create
  bound _ _ := rfl
  owned p qa hmem := by simp [OutRun.init, vOutQueueCreate] at hmem
  took p t hmem := by simp [OutRun.init] at hmem
  mass := by
    have hpopped : total OutRun.init.poppedCmds = 0 := total_nil fun _ => rfl
    have hqueued : total OutRun.init.oq.contents = 0 := total_nil fun _ => rfl
    rw [hpopped, hqueued]
    rfl
  replaces r hmem := by simp [OutRun.init] at hmem
  order p := by simp [OutRun.places, OutRun.init, vOutQueueCreate]
  slot_le i push hpush := by simp [OutRun.init] at hpush

variable {s : OutRun}

theorem OutRun.Inv.conserved (h : s.Inv) : s.Conserved where
  bucket p qa hmem := by
    obtain ⟨-, queueCmd, hqc, -⟩ := (h.inv.queued p qa).mp hmem
    obtain ⟨b, hb, hptr, hid⟩ := h.inv.bucket qa queueCmd (by simp) hqc
    obtain ⟨push, hpush, hcmd, hprio⟩ := h.owned p qa hmem
    refine ⟨queueCmd, b, push, hqc, (h.inv.wf.mem_lb _ _).mpr ⟨b, hb, hid⟩, hb, hptr, hpush, ?_,
      hprio⟩
    simpa [VOutQueue.cmdAt, hqc, hb] using hcmd.symm
  took := h.took
  mass := h.mass
  replaces := h.replaces
  order := h.order

/-! ## Pushing -/

theorem OutRun.Inv.ticket_lt (h : s.Inv) {p qa : ℕ} (hmem : qa ∈ s.oq.queues p) :
    s.ticket qa < s.pushes.length := by
  obtain ⟨push, hpush, -, -⟩ := h.owned p qa hmem
  exact (List.getElem?_eq_some_iff.mp hpush).1

theorem OutRun.Inv.popped_lt (h : s.Inv) {p : ℕ} {t : ℕ × CmdPtr} (hmem : t ∈ s.popped p) :
    t.1 < s.pushes.length := by
  obtain ⟨push, hpush, -, -⟩ := h.took p t hmem
  exact (List.getElem?_eq_some_iff.mp hpush).1

theorem placeOf_append {pushes : List OutPush} {i : ℕ} (hi : i < pushes.length) (x : OutPush) :
    placeOf (pushes ++ [x]) i = placeOf pushes i := by
  simp [placeOf, List.getElem?_append_left hi]

theorem placeOf_length (pushes : List OutPush) (x : OutPush) :
    placeOf (pushes ++ [x]) pushes.length = if x.head then none else some x.slot := by
  simp [placeOf]

theorem OutRun.places_eq (s : OutRun) (p : ℕ) :
    s.places p = ((s.popped p).map Prod.fst).filterMap (placeOf s.pushes) ++
      (s.oq.queues p).filterMap fun qa => placeOf s.pushes (s.ticket qa) := by
  rw [OutRun.places, List.filterMap_append, List.filterMap_map (l := s.oq.queues p)]
  rfl

/-- A place is not later than its push. -/
theorem OutRun.Inv.places_lt (h : s.Inv) {p i : ℕ} (hmem : i ∈ s.places p) :
    i < s.pushes.length := by
  obtain ⟨t, ht, hplace⟩ := List.mem_filterMap.mp hmem
  obtain ⟨push, hpush, hslot⟩ := Option.bind_eq_some_iff.mp hplace
  have hlt := (List.getElem?_eq_some_iff.mp hpush).1
  split at hslot
  · cases hslot
  · obtain rfl := Option.some.inj hslot
    exact Nat.lt_of_le_of_lt (h.slot_le t push hpush) hlt

/-- The book after push `x`, which gave the entry `qa` its command. -/
def OutRun.entered (s : OutRun) (oq' : VOutQueue) (qa : ℕ) (x : OutPush) (old : Option CmdPtr) :
    OutRun where
  oq := oq'
  pushes := s.pushes ++ [x]
  ticket := Function.update s.ticket qa s.pushes.length
  popped := s.popped
  replaced := s.replaced ++ (old.map (·, x.cmd)).toList

theorem OutRun.Inv.places_entered (h : s.Inv) (oq' : VOutQueue) (qa : ℕ) (x : OutPush)
    (old : Option CmdPtr) (p : ℕ) :
    (s.entered oq' qa x old).places p =
      ((s.popped p).map Prod.fst).filterMap (placeOf s.pushes) ++
        (oq'.queues p).filterMap fun a => placeOf (s.pushes ++ [x])
          (Function.update s.ticket qa s.pushes.length a) := by
  rw [OutRun.places_eq]
  congr 1
  apply List.filterMap_congr
  intro i hi
  obtain ⟨t, ht, rfl⟩ := List.mem_map.mp hi
  exact placeOf_append (h.popped_lt ht) x

/-- Entries that did not get a new command keep their places. -/
theorem OutRun.Inv.filterMap_place (h : s.Inv) {p qa : ℕ} {l : List ℕ}
    (hl : ∀ a ∈ l, a ∈ s.oq.queues p) (hnot : qa ∉ l) (x : OutPush) :
    (l.filterMap fun a => placeOf (s.pushes ++ [x])
        (Function.update s.ticket qa s.pushes.length a)) =
      l.filterMap fun a => placeOf s.pushes (s.ticket a) := by
  apply List.filterMap_congr
  intro a ha
  have hne : a ≠ qa := fun heq => hnot (heq ▸ ha)
  rw [Function.update_of_ne hne, placeOf_append (h.ticket_lt (hl a ha))]

/-- Everything but the order, which depends on the place of the new command. -/
theorem OutRun.Inv.enter (h : s.Inv) {oq' : VOutQueue} {qa : ℕ} {x : OutPush}
    {old : Option CmdPtr} {head : Bool} (hslot : x.slot ≤ s.pushes.length)
    (hprio : x.prio ≤ maxPriority) (hinv : oq'.Inv none)
    (hmem : ∀ p a, a ∈ oq'.queues p →
      (a = qa ∧ p = x.prio) ∨ (a ≠ qa ∧ a ∈ s.oq.queues p))
    (hcmdAt : oq'.cmdAt = Function.update s.oq.cmdAt qa (some x.cmd))
    (hchange : PushChange s.oq.contents oq'.contents head x.prio x.cmd old)
    (hrep : ∀ o, old = some o → Replaces x.cmd o)
    (horder : ∀ p, ((s.entered oq' qa x old).places p).Pairwise (· < ·)) :
    (s.entered oq' qa x old).Inv where
  inv := hinv
  bound p hp := by
    apply List.eq_nil_iff_forall_not_mem.mpr
    intro a ha
    rcases hmem p a ha with ⟨-, rfl⟩ | ⟨-, hold⟩
    · omega
    · rw [h.bound p hp] at hold
      cases hold
  owned p a ha := by
    rcases hmem p a ha with ⟨rfl, rfl⟩ | ⟨hne, hold⟩
    · exact ⟨x, by simp [OutRun.entered], by simp [OutRun.entered, hcmdAt], rfl⟩
    · obtain ⟨push, hpush, hcmd, hpp⟩ := h.owned p a hold
      have hlt := h.ticket_lt hold
      refine ⟨push, ?_, ?_, hpp⟩
      · simpa [OutRun.entered, Function.update_of_ne hne, List.getElem?_append_left hlt] using hpush
      · simpa [OutRun.entered, hcmdAt, Function.update_of_ne hne] using hcmd
  took p t ht := by
    obtain ⟨push, hpush, hcmd, hpp⟩ := h.took p t ht
    have hlt := h.popped_lt ht
    exact ⟨push, by simpa [OutRun.entered, List.getElem?_append_left hlt] using hpush, hcmd, hpp⟩
  mass := by
    have hbound : ∀ p, maxPriority < p → s.oq.contents p = [] := by
      intro p hp
      simp [VOutQueue.contents, h.bound p hp]
    have htotal := hchange.total hprio hbound
    have hmass := h.mass
    have hold : ((s.entered oq' qa x old).replaced.map Prod.fst : Multiset CmdPtr) =
        (s.replaced.map Prod.fst : Multiset CmdPtr) + (old.toList : Multiset CmdPtr) := by
      cases old <;> simp [OutRun.entered, ← Multiset.coe_add]
    rw [hold]
    calc total s.poppedCmds + total oq'.contents +
          ((s.replaced.map Prod.fst : Multiset CmdPtr) + (old.toList : Multiset CmdPtr))
        = total s.poppedCmds + (s.replaced.map Prod.fst : Multiset CmdPtr) +
          (total oq'.contents + (old.toList : Multiset CmdPtr)) := add_add_add_comm _ _ _ _
      _ = total s.poppedCmds + (s.replaced.map Prod.fst : Multiset CmdPtr) +
          (total s.oq.contents + {x.cmd}) := by
            rw [htotal, add_comm (total s.oq.contents), Multiset.singleton_add]
      _ = (s.pushes.map OutPush.cmd : Multiset CmdPtr) + {x.cmd} := by
            rw [← hmass, ← add_assoc, add_right_comm (total s.poppedCmds)]
      _ = ((s.pushes ++ [x]).map OutPush.cmd : Multiset CmdPtr) := by
            rw [List.map_append, ← Multiset.coe_add]
            rfl
  replaces r hr := by
    rcases List.mem_append.mp hr with hr | hr
    · exact h.replaces r hr
    · cases old with
      | none => simp at hr
      | some o =>
          obtain rfl : r = (o, x.cmd) := by simpa using hr
          exact hrep o rfl
  order := horder
  slot_le i push hpush := by
    by_cases hi : i < s.pushes.length
    · rw [OutRun.entered, List.getElem?_append_left hi] at hpush
      exact h.slot_le i push hpush
    · have hlt := (List.getElem?_eq_some_iff.mp hpush).1
      simp only [OutRun.entered, List.length_append, List.length_singleton] at hlt
      obtain rfl : i = s.pushes.length := by omega
      obtain rfl : x = push := by simpa [OutRun.entered] using hpush
      exact hslot

/-- A new command at the head or the tail of a list. -/
theorem OutRun.Inv.order_placed (h : s.Inv) {oq' : VOutQueue} {qa : ℕ} {x : OutPush}
    {old : Option CmdPtr} (hslot : x.slot = s.pushes.length)
    (hqueue : oq'.queues x.prio = place x.head qa (s.oq.queues x.prio))
    (hnot : qa ∉ s.oq.queues x.prio) :
    ((s.entered oq' qa x old).places x.prio).Pairwise (· < ·) := by
  have hplace := placeOf_length s.pushes x
  have hrest := h.filterMap_place (fun _ ha => ha) hnot x
  rw [h.places_entered, hqueue]
  cases hhead : x.head with
  | true =>
      rw [hhead, if_pos rfl] at hplace
      rw [place, if_pos rfl, List.filterMap_cons]
      simp only [Function.update_self, hplace]
      rw [hrest, ← OutRun.places_eq]
      exact h.order _
  | false =>
      rw [hhead, if_neg Bool.false_ne_true, hslot] at hplace
      rw [place, if_neg Bool.false_ne_true, List.filterMap_append, hrest, ← List.append_assoc,
        ← OutRun.places_eq, List.filterMap_cons, List.filterMap_nil]
      simp only [Function.update_self, hplace]
      refine List.pairwise_append.mpr ⟨h.order _, List.pairwise_singleton _ _, ?_⟩
      intro i hi j hj
      obtain rfl := List.mem_singleton.mp hj
      exact h.places_lt hi

/-- A list that only lost entries. -/
theorem OutRun.Inv.order_sublist (h : s.Inv) {oq' : VOutQueue} {qa : ℕ} {x : OutPush}
    {old : Option CmdPtr} {p : ℕ} (hsub : (oq'.queues p).Sublist (s.oq.queues p))
    (hnot : qa ∉ oq'.queues p) : ((s.entered oq' qa x old).places p).Pairwise (· < ·) := by
  refine List.Pairwise.sublist ?_ (h.order p)
  rw [h.places_entered, h.filterMap_place hsub.subset hnot, OutRun.places_eq]
  exact (List.Sublist.refl _).append (hsub.filterMap _)

/-- **One push** keeps the invariant. -/
theorem OutRun.Inv.push (h : s.Inv) {oq' : VOutQueue} {head accepted : Bool} {prio : ℕ}
    {cmd : CmdPtr} {old : Option CmdPtr} (hprio : prio ≤ maxPriority) (hinv : oq'.Inv none)
    (heffect : PushEffect s.oq oq' head prio cmd accepted old) :
    (s.pushed head prio cmd (oq', accepted, old)).Inv := by
  cases heffect with
  | full heq =>
      subst heq
      exact h
  | added htwin hqueues hcmdAt =>
      have hchange := (PushEffect.added htwin hqueues hcmdAt).change h.inv
      have hplaced : s.placed head prio cmd = ⟨cmd, prio, head, s.pushes.length⟩ := by
        simp [OutRun.placed, htwin]
      have hres : s.pushed head prio cmd (oq', true, none) =
          s.entered oq' s.oq.next ⟨cmd, prio, head, s.pushes.length⟩ none := by
        simp [OutRun.pushed, OutRun.entered, hplaced, htwin]
      rw [hres]
      have hnext := h.inv.next_not_mem
      refine h.enter (Nat.le_refl _) hprio hinv ?_ hcmdAt hchange (by simp) ?_
      · intro p a ha
        rw [hqueues] at ha
        by_cases hp : p = prio
        · subst hp
          rw [Function.update_self, (place_perm head _ _).mem_iff, List.mem_cons] at ha
          rcases ha with rfl | ha
          · exact Or.inl ⟨rfl, rfl⟩
          · exact Or.inr ⟨fun heq => hnext p (heq ▸ ha), ha⟩
        · rw [Function.update_of_ne hp] at ha
          exact Or.inr ⟨fun heq => hnext p (heq ▸ ha), ha⟩
      · intro p
        by_cases hp : p = prio
        · subst hp
          exact h.order_placed rfl (by rw [hqueues, Function.update_self]) (hnext p)
        · have hqueue : oq'.queues p = s.oq.queues p := by
            rw [hqueues, Function.update_of_ne hp]
          exact h.order_sublist (hqueue ▸ List.Sublist.refl _) (hqueue ▸ hnext p)
  | moved qa p old htwin hmem hne hold hrep hqueues hcmdAt =>
      have hchange := (PushEffect.moved qa p old htwin hmem hne hold hrep hqueues hcmdAt).change
        h.inv
      obtain ⟨push, hpush, -, hpp⟩ := h.owned p qa hmem
      have hplaced : s.placed head prio cmd = ⟨cmd, prio, head, s.pushes.length⟩ := by
        simp [OutRun.placed, htwin, hpush, hpp, hne]
      have hres : s.pushed head prio cmd (oq', true, some old) =
          s.entered oq' qa ⟨cmd, prio, head, s.pushes.length⟩ (some old) := by
        simp [OutRun.pushed, OutRun.entered, hplaced, htwin]
      rw [hres]
      have hnot : ∀ r, r ≠ p → qa ∉ s.oq.queues r := fun r hr hmem' =>
        hr (h.inv.mem_unique hmem' hmem)
      have herase : qa ∉ (s.oq.queues p).erase qa := (h.inv.nodup p).not_mem_erase
      have hqueue : ∀ r, r ≠ prio → (oq'.queues r).Sublist (s.oq.queues r) ∧
          qa ∉ oq'.queues r := by
        intro r hr
        rw [hqueues, Function.update_of_ne hr]
        by_cases hrp : r = p
        · subst hrp
          rw [Function.update_self]
          exact ⟨List.erase_sublist, herase⟩
        · rw [Function.update_of_ne hrp]
          exact ⟨List.Sublist.refl _, hnot r hrp⟩
      refine h.enter (Nat.le_refl _) hprio hinv ?_ hcmdAt hchange (by simpa using hrep) ?_
      · intro r a ha
        by_cases hr : r = prio
        · subst hr
          rw [hqueues, Function.update_self, (place_perm head _ _).mem_iff, List.mem_cons] at ha
          rcases ha with rfl | ha
          · exact Or.inl ⟨rfl, rfl⟩
          · exact Or.inr ⟨fun heq => hnot r hne.symm (heq ▸ ha), ha⟩
        · obtain ⟨hsub, hnot'⟩ := hqueue r hr
          exact Or.inr ⟨fun heq => hnot' (heq ▸ ha), hsub.subset ha⟩
      · intro r
        by_cases hr : r = prio
        · subst hr
          exact h.order_placed rfl (by rw [hqueues, Function.update_self]) (hnot r hne.symm)
        · exact h.order_sublist (hqueue r hr).1 (hqueue r hr).2
  | replaced qa old htwin hmem hold hrep hqueues hcmdAt =>
      have hchange : PushChange s.oq.contents oq'.contents head prio cmd (some old) :=
        (PushEffect.replaced qa old htwin hmem hold hrep hqueues hcmdAt).change h.inv
      obtain ⟨push, hpush, -, hpp⟩ := h.owned prio qa hmem
      have hlt := h.ticket_lt hmem
      have hplaced : s.placed head prio cmd = ⟨cmd, prio, push.head, push.slot⟩ := by
        simp [OutRun.placed, htwin, hpush, hpp]
      have hres : s.pushed head prio cmd (oq', true, some old) =
          s.entered oq' qa ⟨cmd, prio, push.head, push.slot⟩ (some old) := by
        simp [OutRun.pushed, OutRun.entered, hplaced, htwin]
      rw [hres]
      have hslot : push.slot ≤ s.pushes.length :=
        Nat.le_trans (h.slot_le _ _ hpush) (Nat.le_of_lt hlt)
      refine h.enter hslot hprio hinv ?_ hcmdAt hchange (by simpa using hrep) ?_
      · intro r a ha
        rw [hqueues] at ha
        by_cases haq : a = qa
        · exact Or.inl ⟨haq, h.inv.mem_unique (haq ▸ ha) hmem⟩
        · exact Or.inr ⟨haq, ha⟩
      · -- the new command has the place of the one it replaced
        intro r
        have hsame : ∀ a ∈ s.oq.queues r,
            placeOf (s.pushes ++ [⟨cmd, prio, push.head, push.slot⟩])
              (Function.update s.ticket qa s.pushes.length a) =
            placeOf s.pushes (s.ticket a) := by
          intro a ha
          by_cases haq : a = qa
          · rw [haq, Function.update_self, placeOf_length]
            simp [placeOf, hpush]
          · rw [Function.update_of_ne haq, placeOf_append (h.ticket_lt ha)]
        rw [h.places_entered, hqueues, List.filterMap_congr hsame, ← OutRun.places_eq]
        exact h.order r

/-! ## Popping -/

/-- **One pop** keeps the invariant. -/
theorem OutRun.Inv.pop (h : s.Inv) {oq' : VOutQueue} {prio qa : ℕ} {cmd : CmdPtr} {plan : PopPlan}
    {rest : List ℕ} (hprio : prio ≤ maxPriority) (hinv : oq'.Inv none)
    (heffect : PopEffect s.oq oq' prio cmd qa rest) :
    (s.poppedBy prio (oq', some (cmd, plan))).Inv := by
  obtain ⟨hcontents, hothers⟩ := heffect.contents h.inv
  have hmem : qa ∈ s.oq.queues prio := by simp [heffect.head]
  have hsub : ∀ p a, a ∈ oq'.queues p → a ∈ s.oq.queues p ∧ a ≠ qa := by
    intro p a ha
    rw [heffect.queues'] at ha
    by_cases hp : p = prio
    · subst hp
      rw [Function.update_self] at ha
      have hnodup := h.inv.nodup p
      rw [heffect.head] at hnodup ⊢
      exact ⟨List.mem_cons_of_mem _ ha, fun heq => (List.nodup_cons.mp hnodup).1 (heq ▸ ha)⟩
    · rw [Function.update_of_ne hp] at ha
      exact ⟨ha, fun heq => hp (h.inv.mem_unique (heq ▸ ha) hmem)⟩
  refine
    { inv := hinv, bound := ?_, owned := ?_, took := ?_, mass := ?_, replaces := h.replaces,
      order := ?_, slot_le := h.slot_le }
  · intro p hp
    apply List.eq_nil_iff_forall_not_mem.mpr
    intro a ha
    have := (hsub p a ha).1
    rw [h.bound p hp] at this
    cases this
  · intro p a ha
    obtain ⟨hold, hne⟩ := hsub p a ha
    obtain ⟨push, hpush, hcmd, hpp⟩ := h.owned p a hold
    refine ⟨push, hpush, ?_, hpp⟩
    simpa [OutRun.poppedBy, heffect.cmdAt', Function.update_of_ne hne] using hcmd
  · intro p t ht
    by_cases hp : p = prio
    · subst hp
      simp only [OutRun.poppedBy, Function.update_self, List.mem_append, List.mem_singleton] at ht
      rcases ht with ht | rfl
      · exact h.took p t ht
      · obtain ⟨push, hpush, hcmd, hpp⟩ := h.owned p qa hmem
        rw [heffect.cmdAt] at hcmd
        refine ⟨push, ?_, (Option.some.inj hcmd).symm, hpp⟩
        simpa [OutRun.poppedBy, heffect.head] using hpush
    · simp only [OutRun.poppedBy, Function.update_of_ne hp] at ht
      exact h.took p t ht
  · have hpopped : (s.poppedBy prio (oq', some (cmd, plan))).poppedCmds =
        Function.update s.poppedCmds prio (s.poppedCmds prio ++ [cmd]) := by
      funext p
      by_cases hp : p = prio
      · subst hp
        simp [OutRun.poppedCmds, OutRun.poppedBy]
      · simp [OutRun.poppedCmds, OutRun.poppedBy, Function.update_of_ne hp]
    have hout := total_pop hprio hcontents hothers
    have hin : total (Function.update s.poppedCmds prio (s.poppedCmds prio ++ [cmd])) =
        total s.poppedCmds + {cmd} := by
      have hsum := total_update (c := s.poppedCmds) hprio (s.poppedCmds prio ++ [cmd])
      rw [← Multiset.coe_add, add_assoc, add_comm (s.poppedCmds prio : Multiset CmdPtr),
        add_comm _ (total s.poppedCmds)] at hsum
      exact add_right_cancel hsum
    have hmass := h.mass
    rw [hout, ← Multiset.singleton_add, ← add_assoc] at hmass
    rw [hpopped, hin]
    exact hmass
  · intro p
    have hplaces : (s.poppedBy prio (oq', some (cmd, plan))).places p = s.places p := by
      by_cases hp : p = prio
      · subst hp
        simp only [OutRun.places, OutRun.poppedBy, heffect.head, heffect.queues',
          Function.update_self, List.headD_cons, List.map_append, List.map_cons, List.map_nil,
          List.append_assoc, List.cons_append, List.nil_append]
      · simp [OutRun.places, OutRun.poppedBy, Function.update_of_ne hp, heffect.queues']
    rw [hplaces]
    exact h.order p

/-! ## Runs -/

theorem uint8_le_maxPriority (prio : UInt8) : prio.toNat ≤ maxPriority :=
  Nat.le_of_lt_succ prio.toNat_lt

/-- **One action** keeps the invariant. -/
theorem OutRun.Inv.step (h : s.Inv) (a : OutAction) (hsafe : s.Safe a) :
    ∃ s', s.step a = some s' ∧ s'.Inv := by
  cases a with
  | pushTail limits prio cmd =>
      obtain ⟨oq', accepted, old, hres, hinv, -, heffect⟩ :=
        vOutQueuePush_spec h.inv cmd.2 false limits hsafe
      refine ⟨_, ?_, h.push (uint8_le_maxPriority prio) hinv heffect⟩
      simp [OutRun.step, vOutQueuePushTail, hres]
  | pushHead prio cmd =>
      rcases vOutQueuePushHead_spec h.inv cmd.2 prio.toNat with
        ⟨qa, -, hres⟩ | ⟨oq', htwin, hres, hinv, hqueues, hcmdAt⟩
      · exact ⟨s, by simp [OutRun.step, hres, OutRun.pushed], h⟩
      · have heffect : PushEffect s.oq oq' true prio.toNat cmd.1 true none :=
          PushEffect.added htwin hqueues hcmdAt
        refine ⟨_, ?_, h.push (uint8_le_maxPriority prio) hinv heffect⟩
        simp [OutRun.step, hres]
  | pop prio len =>
      rcases vOutQueuePop_spec h.inv hsafe with
        hres | ⟨oq', cmd, plan, qa, rest, hres, hinv, heffect⟩
      · exact ⟨s, by simp [OutRun.step, hres, OutRun.poppedBy], h⟩
      · refine ⟨s.poppedBy prio.toNat (oq', some (cmd, plan)), ?_,
          h.pop (uint8_le_maxPriority prio) hinv heffect⟩
        simp [OutRun.step, hres]

/-- **Conservation.**  A run in which every pop finds its own bucket first, and no
group is freed that an entry still points to, goes through, and conserves the
commands. -/
theorem outRun_conserved (actions : List OutAction)
    (hsafe : Admissible OutRun.step OutRun.Safe OutRun.init actions) :
    ∃ s, run OutRun.step OutRun.init actions = some s ∧ s.Conserved := by
  obtain ⟨s, hrun, hinv⟩ := run_induction (fun s a hinv hsafe => hinv.step a hsafe)
    OutRun.inv_init hsafe
  exact ⟨s, hrun, hinv.conserved⟩

/-- `Layer_Set_UInt8` for an item of layer 2 of node 1; the item is not part of
the key. -/
def layerSetUint8 (item value : UInt8) : GenericCmd :=
  ⟨133, [1, 0, 0, 0, 2, 0, item, 0, 0, 0, value], none⟩

theorem accepted_layerSetUint8 (addr : ℕ) (item value : UInt8) :
    Accepted ⟨addr, layerSetUint8 item value⟩ := by
  have hnode : (cmdStruct 133).isNodeCmd = true := by decide +kernel
  exact accepted_of_isNodeCmd hnode

def layerSetCmd (addr : ℕ) (item value : UInt8) : QueueCmd :=
  ⟨⟨addr, layerSetUint8 item value⟩, accepted_layerSetUint8 addr item value⟩

/-- One command is pushed and popped. -/
theorem outRun_conserved_push_pop :
    ∃ s, run OutRun.step OutRun.init [.pushTail true 128 (layerSetCmd 0 5 7), .pop 128 1500] =
      some s ∧ s.Conserved := by
  refine outRun_conserved _ ⟨?_, ?_⟩
  · intro qa queueCmd htwin
    have hnone : OutRun.init.oq.twin (layerSetCmd 0 5 7).1 = none := by decide +kernel
    cases hnone.symm.trans htwin
  · intro s hs
    refine ⟨?_, fun _ _ => trivial⟩
    intro qa rest queueCmd b group q hqueue hqc hb _ _ hq
    have hstate : (OutRun.init.step (.pushTail true 128 (layerSetCmd 0 5 7))).map (fun s =>
        (s.oq.queues 128, s.oq.qheap 0, s.oq.table.heap 0,
          vHashArrayFindItem s.oq.table (vNodeCmdQueueCreate 133) (layerSetUint8 5 7))) =
        some ([0], some ⟨0, 133, 128, none⟩, some ⟨⟨0, layerSetUint8 5 7⟩, some 0⟩,
          some (some 0)) := by decide +kernel
    rw [hs, Option.map_some, Option.some.injEq, Prod.mk.injEq, Prod.mk.injEq,
      Prod.mk.injEq] at hstate
    obtain ⟨hqueue', hqc', hb', hfind⟩ := hstate
    obtain ⟨rfl, -⟩ := List.cons.inj (hqueue'.symm.trans hqueue)
    obtain rfl := Option.some.inj (hqc'.symm.trans hqc)
    obtain rfl := Option.some.inj (hb'.symm.trans hb)
    obtain rfl : vNodeCmdQueueCreate 133 = q := Option.some.inj hq
    exact ⟨hfind, fun g _ hg => by cases hg⟩

/-- Two commands with one key in two priorities: popping the second removes the
bucket of the first. -/
theorem outRun_not_conserved :
    ¬ ∀ actions, ∃ s, run OutRun.step OutRun.init actions = some s ∧ s.Conserved := by
  intro hall
  obtain ⟨s, hrun, hcons⟩ := hall [.pushTail true 128 (layerSetCmd 0 5 7),
    .pushTail true 200 (layerSetCmd 1 6 7), .pop 200 1500]
  have hstate : (run OutRun.step OutRun.init [.pushTail true 128 (layerSetCmd 0 5 7),
      .pushTail true 200 (layerSetCmd 1 6 7), .pop 200 1500]).map (fun s =>
        (s.oq.queues 128, (s.oq.qheap 0).map (·.vbucket), s.oq.table.heap 0)) =
      some ([0], some 0, none) := by decide +kernel
  rw [hrun, Option.map_some, Option.some.injEq, Prod.mk.injEq, Prod.mk.injEq] at hstate
  obtain ⟨hqueue, hentry, hbucket⟩ := hstate
  obtain ⟨queueCmd, b, -, hqc, -, hb, -⟩ := hcons.bucket 128 0 (by simp [hqueue])
  rw [hqc, Option.map_some, Option.some.injEq] at hentry
  rw [hentry, hbucket] at hb
  cases hb

end Verse
