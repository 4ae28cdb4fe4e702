import Verse.Queues.OutQueueBooks

/-!
# The counters of the outgoing queue

The packing loop goes from `max_prio` down to `min_prio` and takes commands from every
priority whose count is not zero.  `Counted` says that this reaches all queued commands:
the counts are those of the lists, the totals are the sums, and no command waits outside
the two bounds.

`Tracked` is what the steps keep: the lists (`Books.Listed`), the counters modulo `2 ^ 32`
(`Books.Booked`), a total size below `2 ^ 32`, and the bounds (`Books.Within`).
-/

namespace Verse

open Lib

/-- In a sorted list the first element with a property comes before the others that have
it. -/
theorem first_of_find? {r : ℕ → ℕ → Prop} {l : List ℕ} (hl : l.Pairwise r) {P : ℕ → Bool} {i : ℕ}
    (h : l.find? P = some i) : i ∈ l ∧ ∀ a ∈ l, P a = true → a = i ∨ r i a := by
  obtain ⟨-, before, after, rfl, hbefore⟩ := List.find?_eq_some_iff_append.mp h
  refine ⟨by simp, ?_⟩
  intro a ha hPa
  rcases List.mem_append.mp ha with ha | ha
  · have hnot := hbefore a ha
    rw [hPa] at hnot
    cases hnot
  · rcases List.mem_cons.mp ha with rfl | ha
    · exact Or.inl rfl
    · exact Or.inr ((List.pairwise_cons.mp (List.pairwise_append.mp hl).2.1).1 a ha)

namespace Books

variable {bk : Books} {q : VCommandQueue} {qa : ℕ}

/-! ## The bounds -/

/-- Every priority with a count lies between the bounds. -/
structure Within (bk : Books) : Prop where
  order : bk.minPrio ≤ bk.maxPrio
  top : bk.maxPrio ≤ maxPriority
  inside : ∀ p, bk.prioCount p ≠ 0 → bk.minPrio ≤ p ∧ p ≤ bk.maxPrio

theorem Within.enter (h : bk.Within) {prio : ℕ} (hprio : prio ≤ maxPriority) (head : Bool)
    (cmd : CmdPtr) : (bk.enter q head prio qa cmd).Within := by
  have horder := h.order
  have htop := h.top
  refine ⟨?_, ?_, ?_⟩
  · simp only [Books.enter]
    split <;> [skip; split] <;> omega
  · simp only [Books.enter]
    split <;> omega
  · intro p hp
    simp only [Books.enter] at hp ⊢
    by_cases hpp : p = prio
    · subst hpp
      split <;> [skip; split] <;> omega
    · rw [Function.update_of_ne hpp] at hp
      have hin := h.inside p hp
      split <;> [skip; split] <;> omega

theorem Within.leave (h : bk.Within) {prio : ℕ} (hcount : bk.prioCount prio ≠ 0)
    (table : CmdTable) : (bk.leave q prio qa table).Within := by
  refine ⟨h.order, h.top, ?_⟩
  intro p hp
  by_cases hpp : p = prio
  · rw [hpp]
    exact h.inside prio hcount
  · simp only [Books.leave, Function.update_of_ne hpp] at hp
    exact h.inside p hp

end Books

/-- The scans find the highest and the lowest priority that is left. -/
theorem VOutQueue.updatePrios_within {oq : VOutQueue} (h : oq.books.Within) (prio : ℕ) :
    (oq.updatePrios prio).books.Within := by
  have horder : oq.minPrio ≤ oq.maxPrio := h.order
  have htop : oq.maxPrio ≤ maxPriority := h.top
  have hinside : ∀ p, oq.prioCount p ≠ 0 → oq.minPrio ≤ p ∧ p ≤ oq.maxPrio := h.inside
  have hup : ∀ start n, (List.range' start n).Pairwise (· < ·) := fun start n =>
    List.pairwise_lt_range'
  unfold VOutQueue.updatePrios
  split
  case isTrue => exact h
  case isFalse hempty =>
    split
    case isTrue hmax =>
      split
      case h_2 => exact h
      case h_1 i hfind =>
        have hdown : (List.range' oq.minPrio (prio + 1 - oq.minPrio)).reverse.Pairwise
            fun a b => b < a := List.pairwise_reverse.mpr (hup _ _)
        obtain ⟨hmem, hfirst⟩ := first_of_find? hdown hfind
        rw [List.mem_reverse, List.mem_range'_1] at hmem
        refine ⟨?_, ?_, ?_⟩
        · show oq.minPrio ≤ i
          exact hmem.1
        · show i ≤ maxPriority
          omega
        · intro p hp
          have hin := hinside p hp
          have hp' : oq.prioCount p ≠ 0 := hp
          rcases hfirst p (by rw [List.mem_reverse, List.mem_range'_1]; omega) (by simpa using hp')
            with heq | hlt
          · exact ⟨hin.1, heq.le⟩
          · exact ⟨hin.1, hlt.le⟩
    case isFalse =>
      split
      case isTrue hmin =>
        split
        case h_2 => exact h
        case h_1 i hfind =>
          obtain ⟨hmem, hfirst⟩ := first_of_find? (hup _ _) hfind
          rw [List.mem_range'_1] at hmem
          refine ⟨?_, htop, ?_⟩
          · show i ≤ oq.maxPrio
            omega
          · intro p hp
            have hin := hinside p hp
            have hp' : oq.prioCount p ≠ 0 := hp
            rcases hfirst p (by rw [List.mem_range'_1]; omega) (by simpa using hp')
              with heq | hlt
            · exact ⟨heq.ge, hin.2⟩
            · exact ⟨hlt.le, hin.2⟩
      case isFalse =>
        split
        case isFalse => exact h
        case isTrue hboth =>
          refine ⟨le_rfl, show vrsDefaultPriority ≤ maxPriority by decide, ?_⟩
          intro p hp
          have hin := hinside p hp
          have hpp : p = prio := by omega
          exact absurd (hpp ▸ hp) hempty

/-! ## What the steps keep -/

namespace Books

variable {bk : Books} {q : VCommandQueue} {qa : ℕ}

theorem sizes_free (h : bk.Listed (some qa)) (count size : ℕ) :
    Books.sizes { bk with
      entries := Function.update bk.entries qa none
      count := count
      size := size } = bk.sizes := by
  funext p
  refine congrArg List.sum (List.map_congr_left fun a ha => ?_)
  have hne : a ≠ qa := by
    rintro rfl
    exact ((h.queued p a).mp ha).1 rfl
  simp only [sizeAt, Function.update_of_ne hne]

theorem Booked.added (h : bk.Booked) (hlisted : bk.Listed none) {cmd : CmdPtr}
    (hq : vCmdQueueCreate cmd.id true = some q) {prio : ℕ} (hprio : prio ≤ maxPriority)
    (head : Bool) :
    Booked { Books.enter { bk with next := bk.next + 1 } q head prio bk.next cmd with
      count := inc32 bk.count
      size := add32 bk.size q.itemSize } where
  counts := by
    have hlens : (Books.enter { bk with next := bk.next + 1 } q head prio bk.next cmd).lens =
        Function.update bk.lens prio (bk.lens prio + 1) := lens_enter head prio cmd
    have hadd := h.counts.add (mem_priorities.mpr hprio) 1
    rw [← hlens] at hadd
    exact hadd
  bytes := by
    have hsizes : (Books.enter { bk with next := bk.next + 1 } q head prio bk.next cmd).sizes =
        Function.update bk.sizes prio (bk.sizes prio + q.itemSize) :=
      sizes_enter hlisted.alloc hq head prio
    have hadd := h.bytes.add (mem_priorities.mpr hprio) q.itemSize
    rw [← hsizes] at hadd
    exact hadd

theorem Listed.entry_le (h : bk.Listed none) {v i p : ℕ} (he : bk.entries qa = some (v, i, p)) :
    qa ∈ bk.queues p ∧ p ≤ maxPriority := by
  have hmem : qa ∈ bk.queues p := (h.queued p qa).mpr ⟨by simp, v, i, he⟩
  refine ⟨hmem, ?_⟩
  by_contra hlt
  rw [h.bound p (Nat.lt_of_not_le hlt)] at hmem
  cases hmem

theorem Booked.moved (h : bk.Booked) (hlisted : bk.Listed none) {cmd : CmdPtr}
    (hq : vCmdQueueCreate cmd.id true = some q) {v p prio : ℕ} (hprio : prio ≤ maxPriority)
    (he : bk.entries qa = some (v, cmd.id, p)) {table : CmdTable} (hrem : Remains bk.table table)
    (head : Bool) : ((bk.leave q p qa table).enter q head prio qa cmd).Booked where
  counts := by
    obtain ⟨hmem, hp⟩ := hlisted.entry_le he
    obtain ⟨hlens, hlen⟩ := @lens_leave bk q qa p table hmem
    have hmove := h.counts.move (mem_priorities.mpr hp) (mem_priorities.mpr hprio)
      Nat.one_le_two_pow hlen
    rw [← hlens, ← lens_enter head prio cmd] at hmove
    exact hmove
  bytes := by
    obtain ⟨hmem, hp⟩ := hlisted.entry_le he
    obtain ⟨hsizes, hsize⟩ := @sizes_leave bk q qa v cmd.id p table he hmem
    rw [itemSizeOf_eq hq] at hsize
    have hmove := h.bytes.move (mem_priorities.mpr hp) (mem_priorities.mpr hprio)
      (itemSizeOf_eq hq ▸ itemSizeOf_lt cmd.id).le hsize
    rw [← hsizes, ← sizes_enter (hlisted.leave he hrem) hq head prio] at hmove
    exact hmove

theorem Booked.taken (h : bk.Booked) (hlisted : bk.Listed none) {v i p : ℕ}
    (hq : vCmdQueueCreate i true = some q) (he : bk.entries qa = some (v, i, p))
    {table : CmdTable} (hrem : Remains bk.table table) :
    Booked { bk.leave q p qa table with
      entries := Function.update bk.entries qa none
      count := dec32 bk.count
      size := sub32 bk.size q.itemSize } where
  counts := by
    obtain ⟨hmem, hp⟩ := hlisted.entry_le he
    obtain ⟨hlens, hlen⟩ := @lens_leave bk q qa p table hmem
    have hsub := h.counts.sub (mem_priorities.mpr hp) Nat.one_le_two_pow hlen
    rw [← hlens] at hsub
    exact hsub
  bytes := by
    obtain ⟨hmem, hp⟩ := hlisted.entry_le he
    obtain ⟨hsizes, hsize⟩ := @sizes_leave bk q qa v i p table he hmem
    rw [itemSizeOf_eq hq] at hsize
    have hsub := h.bytes.sub (mem_priorities.mpr hp) (itemSizeOf_eq hq ▸ itemSizeOf_lt i).le hsize
    rw [← hsizes, ← sizes_free (hlisted.leave he hrem) (dec32 bk.count) (sub32 bk.size q.itemSize)]
      at hsub
    exact hsub

/-- The counters do not matter to the lists. -/
theorem Listed.of_eq {hole : Option ℕ} (h : bk.Listed hole) {bk' : Books}
    (hqueues : bk'.queues = bk.queues) (hentries : bk'.entries = bk.entries)
    (htable : bk'.table = bk.table) (hnext : bk'.next = bk.next) : bk'.Listed hole := by
  cases bk
  cases bk'
  subst hqueues hentries htable hnext
  exact ⟨h.wf, h.accepted, h.fresh, h.nodup, h.queued, h.bound, h.sized, h.bucketLt, h.bucketId,
    h.ptrLt, h.ptrId⟩

/-- What all steps keep. -/
structure Kept (bk : Books) : Prop where
  listed : bk.Listed none
  booked : bk.Booked

/-- The size of all queued commands. -/
def bytes (bk : Books) : ℕ := ∑ p ∈ priorities, bk.sizes p

/-- Below 4 GiB the counts are the lengths, and the totals are the sums. -/
theorem Kept.exact (h : bk.Kept) (hbytes : bk.bytes < 2 ^ 32) :
    (∀ p, bk.prioCount p = bk.lens p) ∧ bk.count = ∑ p ∈ priorities, bk.prioCount p ∧
      bk.size = ∑ p ∈ priorities, bk.prioSize p := by
  have hempty : ∀ p, p ∉ priorities → bk.queues p = [] := by
    intro p hp
    refine h.listed.bound p ?_
    by_contra hle
    exact hp (mem_priorities.mpr (Nat.le_of_not_lt hle))
  have hcount : ∑ p ∈ priorities, bk.lens p < 2 ^ 32 :=
    lt_of_le_of_lt (Finset.sum_le_sum fun p _ => h.listed.lens_le_sizes p) hbytes
  obtain ⟨hlens, htotal⟩ := h.booked.counts.exact hcount fun p hp => by simp [lens, hempty p hp]
  obtain ⟨-, hsize⟩ := h.booked.bytes.exact hbytes fun p hp => by simp [sizes, hempty p hp]
  exact ⟨hlens, htotal, hsize⟩

/-- The list of an entry is counted. -/
theorem Kept.prioCount_ne_zero (h : bk.Kept) (hbytes : bk.bytes < 2 ^ 32) {v i p : ℕ}
    (he : bk.entries qa = some (v, i, p)) : bk.prioCount p ≠ 0 := by
  rw [(h.exact hbytes).1 p]
  exact Nat.ne_of_gt (List.length_pos_of_mem (h.listed.entry_le he).1)

end Books

/-- What is queued takes less than 4 GiB after the action. -/
def VOutQueue.Fits (oq : VOutQueue) (a : OutAction) : Prop :=
  ∀ oq', oq.step a = some oq' → oq'.books.bytes < 2 ^ 32

section Steps

variable {oq oq' : VOutQueue}

theorem PushBooks.kept {head pushed : Bool} {prio : ℕ} {cmd : CmdPtr}
    (heffect : PushBooks oq oq' head prio cmd pushed) (h : oq.books.Kept)
    (hprio : prio ≤ maxPriority) (hacc : Accepted cmd) : oq'.books.Kept := by
  cases heffect with
  | full heq => exact heq ▸ h
  | added hq htwin hbooks =>
      have hptr : ∀ v b, oq.books.table.heap v = some b → b.ptr = some oq.next →
          b.data.id = cmd.id := by
        intro v b hb hown
        exact absurd (h.listed.ptrLt v b oq.next hb hown) (Nat.lt_irrefl _)
      rw [hbooks]
      refine ⟨?_, h.booked.added h.listed hq hprio head⟩
      exact (h.listed.alloc.enter (Nat.lt_succ_self _) hq hacc hprio hptr head).of_eq rfl rfl rfl rfl
  | @moved q hq qa v p table htwin hentry hne hrem hbooks =>
      have hptr : ∀ w b, table.heap w = some b → b.ptr = some qa → b.data.id = cmd.id :=
        fun w b hb hown => h.listed.ptrId w b qa _ _ _ (hrem.heap w b hb) hown hentry
      have hlisted : (oq.books.leave q p qa table).Listed (some qa) := h.listed.leave hentry hrem
      rw [hbooks]
      exact ⟨hlisted.enter (h.listed.lt_next hentry) hq hacc hprio hptr head,
        h.booked.moved h.listed hq hprio hentry hrem head⟩
  | replaced htwin hentry hb hid hwf hbooks =>
      rw [hbooks]
      exact ⟨h.listed.rewrite hb hid hacc hwf, h.booked.counts, h.booked.bytes⟩

/-- The scans change only the bounds. -/
theorem VOutQueue.updatePrios_books (oq : VOutQueue) (prio : ℕ) : ∃ maxPrio minPrio,
    (oq.updatePrios prio).books = { oq.books with maxPrio := maxPrio, minPrio := minPrio } := by
  obtain ⟨maxPrio, minPrio, heq⟩ := oq.updatePrios_eq prio
  exact ⟨maxPrio, minPrio, by rw [heq]; rfl⟩

theorem PopBooks.kept {prio : ℕ} {result : Option (CmdPtr × PopPlan)}
    (heffect : PopBooks oq oq' prio result) (h : oq.books.Kept) : oq'.books.Kept := by
  cases heffect with
  | nothing heq => exact heq ▸ h
  | @taken q qa v id table oq₁ cmd plan hentry hq hrem hbooks hbooks' =>
      obtain ⟨maxPrio, minPrio, hprios⟩ := oq₁.updatePrios_books prio
      have htaken := h.booked.taken h.listed hq hentry hrem
      have hlisted : (oq.books.leave q prio qa table).Listed (some qa) := h.listed.leave hentry hrem
      rw [hbooks', hprios, hbooks]
      exact ⟨hlisted.free.of_eq rfl rfl rfl rfl, htaken.counts, htaken.bytes⟩

/-- **One action** keeps the lists and the counters. -/
theorem VOutQueue.step_kept (h : oq.books.Kept) {a : OutAction} (hres : oq.step a = some oq') :
    oq'.books.Kept := by
  cases a with
  | pushTail limits prio cmd =>
      obtain ⟨⟨oq₁, pushed, replaced⟩, hpush, heq⟩ := Option.map_eq_some_iff.mp hres
      cases heq
      exact (vOutQueuePush_books h.listed cmd.2 hpush).kept h (uint8_le_maxPriority prio) cmd.2
  | pushHead prio cmd =>
      obtain ⟨⟨oq₁, pushed, replaced⟩, hpush, heq⟩ := Option.map_eq_some_iff.mp hres
      cases heq
      exact (vOutQueuePushHead_books h.listed cmd.2 hpush).kept h (uint8_le_maxPriority prio) cmd.2
  | pop prio len =>
      obtain ⟨⟨oq₁, result⟩, hpop, heq⟩ := Option.map_eq_some_iff.mp hres
      cases heq
      exact (vOutQueuePop_books h.listed hpop).kept h

theorem PushBooks.within {head pushed : Bool} {prio : ℕ} {cmd : CmdPtr}
    (heffect : PushBooks oq oq' head prio cmd pushed) (h : oq.books.Kept)
    (hbytes : oq.books.bytes < 2 ^ 32) (hwithin : oq.books.Within) (hprio : prio ≤ maxPriority) :
    oq'.books.Within := by
  cases heffect with
  | full heq => exact heq ▸ hwithin
  | @added q hq htwin hbooks =>
      have hnext : Books.Within { oq.books with next := oq.next + 1 } :=
        ⟨hwithin.order, hwithin.top, hwithin.inside⟩
      have henter := @Books.Within.enter _ q oq.next hnext prio hprio head cmd
      rw [hbooks]
      exact ⟨henter.order, henter.top, henter.inside⟩
  | @moved q hq qa v p table htwin hentry hne hrem hbooks =>
      have hleave := @Books.Within.leave _ q qa hwithin p (h.prioCount_ne_zero hbytes hentry) table
      rw [hbooks]
      exact hleave.enter hprio head cmd
  | replaced htwin hentry hb hid hwf hbooks =>
      rw [hbooks]
      exact ⟨hwithin.order, hwithin.top, hwithin.inside⟩

theorem PopBooks.within {prio : ℕ} {result : Option (CmdPtr × PopPlan)}
    (heffect : PopBooks oq oq' prio result) (h : oq.books.Kept)
    (hbytes : oq.books.bytes < 2 ^ 32) (hwithin : oq.books.Within) : oq'.books.Within := by
  cases heffect with
  | nothing heq => exact heq ▸ hwithin
  | @taken q qa v id table oq₁ cmd plan hentry hq hrem hbooks hbooks' =>
      have hleave := @Books.Within.leave _ q qa hwithin prio (h.prioCount_ne_zero hbytes hentry) table
      have htaken : oq₁.books.Within := by
        rw [hbooks]
        exact ⟨hleave.order, hleave.top, hleave.inside⟩
      have hscan := oq₁.updatePrios_within htaken prio
      rw [hbooks']
      exact ⟨hscan.order, hscan.top, hscan.inside⟩

/-- What the steps keep while the queue holds less than 4 GiB. -/
structure VOutQueue.Tracked (oq : VOutQueue) : Prop where
  kept : oq.books.Kept
  bytes : oq.books.bytes < 2 ^ 32
  within : oq.books.Within

theorem VOutQueue.Tracked.step (h : oq.Tracked) {a : OutAction} (hfits : oq.Fits a)
    (hres : oq.step a = some oq') : oq'.Tracked := by
  refine ⟨VOutQueue.step_kept h.kept hres, hfits oq' hres, ?_⟩
  cases a with
  | pushTail limits prio cmd =>
      obtain ⟨⟨oq₁, pushed, replaced⟩, hpush, heq⟩ := Option.map_eq_some_iff.mp hres
      cases heq
      exact (vOutQueuePush_books h.kept.listed cmd.2 hpush).within h.kept h.bytes h.within
        (uint8_le_maxPriority prio)
  | pushHead prio cmd =>
      obtain ⟨⟨oq₁, pushed, replaced⟩, hpush, heq⟩ := Option.map_eq_some_iff.mp hres
      cases heq
      exact (vOutQueuePushHead_books h.kept.listed cmd.2 hpush).within h.kept h.bytes h.within
        (uint8_le_maxPriority prio)
  | pop prio len =>
      obtain ⟨⟨oq₁, result⟩, hpop, heq⟩ := Option.map_eq_some_iff.mp hres
      cases heq
      exact (vOutQueuePop_books h.kept.listed hpop).within h.kept h.bytes h.within

end Steps

/-! ## What the packing loop sees -/

/-- The priorities the packing loop takes commands from, in its order. -/
def VOutQueue.packOrder (oq : VOutQueue) : List ℕ :=
  (List.range' oq.minPrio (oq.maxPrio + 1 - oq.minPrio)).reverse.filter (oq.prioCount · ≠ 0)

/-- **No priority is starved**: the counts are the lengths of the lists, the totals are the
sums, and the loop comes to every priority that has commands. -/
structure VOutQueue.Counted (oq : VOutQueue) : Prop where
  length : ∀ p, oq.prioCount p = (oq.queues p).length
  count : oq.count = ∑ p ∈ Books.priorities, oq.prioCount p
  size : oq.size = ∑ p ∈ Books.priorities, oq.prioSize p
  reached : ∀ p, oq.queues p ≠ [] → p ∈ oq.packOrder

theorem VOutQueue.Tracked.counted {oq : VOutQueue} (h : oq.Tracked) : oq.Counted := by
  obtain ⟨hlens, hcount, hsize⟩ := h.kept.exact h.bytes
  refine ⟨hlens, hcount, hsize, ?_⟩
  intro p hp
  have hne : oq.prioCount p ≠ 0 := by
    have hlen : oq.prioCount p = (oq.queues p).length := hlens p
    rw [hlen]
    exact fun hzero => hp (List.length_eq_zero_iff.mp hzero)
  have hbounds : oq.minPrio ≤ p ∧ p ≤ oq.maxPrio := h.within.inside p hne
  simp only [VOutQueue.packOrder, List.mem_filter, List.mem_reverse, List.mem_range'_1]
  exact ⟨by omega, by simpa using hne⟩

theorem vOutQueueCreate_kept : vOutQueueCreate.books.Kept where
  listed :=
    { wf := VOutQueue.inv_create.wf, accepted := VOutQueue.inv_create.accepted,
      fresh := fun a _ => by simp [VOutQueue.books, vOutQueueCreate],
      nodup := VOutQueue.inv_create.nodup,
      queued := fun p a => by simp [VOutQueue.books, vOutQueueCreate],
      bound := fun p _ => by simp [VOutQueue.books, vOutQueueCreate],
      sized := fun a v i p _ he => by simp [VOutQueue.books, vOutQueueCreate] at he,
      bucketLt := fun a v i p _ he => by simp [VOutQueue.books, vOutQueueCreate] at he,
      bucketId := fun a v i p b _ he => by simp [VOutQueue.books, vOutQueueCreate] at he,
      ptrLt := fun v b a hb => by simp [VOutQueue.books, vOutQueueCreate, CmdTable.init] at hb,
      ptrId := fun v b a w i p hb => by
        simp [VOutQueue.books, vOutQueueCreate, CmdTable.init] at hb }
  booked :=
    { counts := ⟨fun p => rfl, by simp [VOutQueue.books, vOutQueueCreate, Books.lens]⟩
      bytes := ⟨fun p => rfl, by simp [VOutQueue.books, vOutQueueCreate, Books.sizes]⟩ }

theorem vOutQueueCreate_tracked : vOutQueueCreate.Tracked where
  kept := vOutQueueCreate_kept
  bytes := by
    have hsizes : vOutQueueCreate.books.sizes = fun _ => 0 := rfl
    rw [Books.bytes, hsizes, Finset.sum_const_zero]
    exact Nat.two_pow_pos 32
  within := ⟨le_rfl, by decide, fun p hp => absurd rfl hp⟩

/-- In every state of a run in which the queued commands take less than 4 GiB the counters
are right. -/
theorem outQueue_counted {actions : List OutAction} {oq : VOutQueue}
    (hfits : Admissible VOutQueue.step VOutQueue.Fits vOutQueueCreate actions)
    (hrun : run VOutQueue.step vOutQueueCreate actions = some oq) : oq.Counted :=
  (run_invariant (fun _ _ _ h hfits hres => h.step hfits hres) vOutQueueCreate_tracked hfits
    hrun).counted

/-- A command is pushed to a high priority, and one to a low priority. -/
theorem outQueue_counted_push_push :
    ∃ oq, run VOutQueue.step vOutQueueCreate [.pushTail true 200 (layerSetCmd 0 5 7),
      .pushTail true 5 (layerSetCmd 1 6 7)] = some oq ∧ oq.Counted := by
  have hsome : (run VOutQueue.step vOutQueueCreate [.pushTail true 200 (layerSetCmd 0 5 7),
      .pushTail true 5 (layerSetCmd 1 6 7)]).isSome := by decide +kernel
  obtain ⟨oq, hrun⟩ := Option.isSome_iff_exists.mp hsome
  have hfits : Admissible VOutQueue.step VOutQueue.Fits vOutQueueCreate
      [.pushTail true 200 (layerSetCmd 0 5 7), .pushTail true 5 (layerSetCmd 1 6 7)] := by
    refine ⟨?_, fun oq₁ hstep => ⟨?_, fun _ _ => trivial⟩⟩
    · intro oq₁ hstep
      have hbytes : (vOutQueueCreate.step (.pushTail true 200 (layerSetCmd 0 5 7))).map
          (·.books.bytes) = some 12 := by decide +kernel
      rw [hstep, Option.map_some, Option.some.injEq] at hbytes
      omega
    · intro oq₂ hstep'
      have hbytes : (run VOutQueue.step vOutQueueCreate [.pushTail true 200 (layerSetCmd 0 5 7),
          .pushTail true 5 (layerSetCmd 1 6 7)]).map (·.books.bytes) = some 24 := by decide +kernel
      rw [run_cons hstep, run_cons hstep', run_nil, Option.map_some, Option.some.injEq] at hbytes
      omega
  exact ⟨oq, hrun, outQueue_counted hfits hrun⟩

/-! ## Four billion commands -/

/-- The same command again and again, from a sender that does not look at the size. -/
theorem pushes_length (n : ℕ) : ∃ oq, run VOutQueue.step vOutQueueCreate
    (List.replicate n (.pushTail false 128 (layerSetCmd 0 5 7))) = some oq ∧ oq.Inv none ∧
    (oq.queues 128).length = n := by
  induction n with
  | zero => exact ⟨vOutQueueCreate, rfl, VOutQueue.inv_create, rfl⟩
  | succ n ih =>
      obtain ⟨oq, hrun, hinv, hlen⟩ := ih
      have hnone : oq.twin (layerSetCmd 0 5 7).1 = none := by
        have hq : vCmdQueueCreate (layerSetCmd 0 5 7).1.id true = some (vNodeCmdQueueCreate 133) :=
          rfl
        have hdups : (vNodeCmdQueueCreate 133).removeHashDups = false := by decide +kernel
        simp [VOutQueue.twin, hq, hdups]
      have hsafe : oq.PushSafe 128 (layerSetCmd 0 5 7).1 := by
        intro qa queueCmd htwin
        rw [hnone] at htwin
        cases htwin
      obtain ⟨oq', pushed, old, hpush, hinv', hgoes, heffect⟩ :=
        vOutQueuePush_spec hinv (layerSetCmd 0 5 7).2 false false hsafe
      have hstep : oq.step (.pushTail false 128 (layerSetCmd 0 5 7)) = some oq' := by
        show (vOutQueuePushTail oq false 128 (layerSetCmd 0 5 7).1).map (·.1) = some oq'
        rw [vOutQueuePushTail, hpush]
        rfl
      refine ⟨oq', ?_, hinv', ?_⟩
      · rw [List.replicate_succ', run_append, hrun, Option.bind_some, run_cons hstep, run_nil]
      · cases heffect with
        | full heq => cases hgoes rfl
        | added _ hqueues _ =>
            rw [hqueues, Function.update_self, place, if_neg Bool.false_ne_true, List.length_append,
              hlen]
            rfl
        | moved qa p old htwin => rw [hnone] at htwin; cases htwin
        | replaced qa old htwin => rw [hnone] at htwin; cases htwin

/-- After `2 ^ 32` pushes the count of the priority is back at zero, and the packing loop
passes over it. -/
theorem outQueue_not_counted :
    ¬ ∀ (actions : List OutAction) (oq : VOutQueue),
      run VOutQueue.step vOutQueueCreate actions = some oq → oq.Counted := by
  intro hall
  obtain ⟨oq, hrun, -, hlen⟩ := pushes_length (2 ^ 32)
  have hkept : oq.books.Kept :=
    run_keeps (fun _ _ _ h hres => VOutQueue.step_kept h hres) vOutQueueCreate_kept hrun
  have hcount : oq.prioCount 128 = (oq.queues 128).length % 2 ^ 32 := hkept.booked.counts.each 128
  have hright := (hall _ oq hrun).length 128
  rw [hlen, Nat.mod_self] at hcount
  rw [hlen, hcount] at hright
  exact absurd hright (Nat.two_pow_pos 32).ne

end Verse
