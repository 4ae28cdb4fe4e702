import Mathlib.Algebra.Order.Field.Rat
import Mathlib.Algebra.BigOperators.Field
import Mathlib.Tactic.Linarith
import Verse.Queues.OutQueueCounts

/-!
# The weights of the priorities

`r_prio` is what a priority weighs, and `r_prio_sum_high` and `r_prio_sum_low` are to be
what the priorities with commands weigh together, from `VRS_DEFAULT_PRIORITY` on and below
it.  The send window is split in these proportions.  The weights are exact numbers here.

A change of priority that empties the old list takes the weight of the old priority from
the sum of the side of the new one.  The sums stay right as long as such a change stays on
its side (`VOutQueue.KeepsSide`).
-/

namespace Verse

open Lib

/-! ## Weights -/

/-- `REAL_PRIO_MUL`. -/
def realPrioMul : ℚ := 1 / 10

/-- `MAX_REAL_PRIO_VAL`. -/
def maxRealPrioVal : ℚ := 128000

/-- `MIN_REAL_PRIO_VAL`. -/
def minRealPrioVal : ℚ := 1

/-- The variable `r_prio` after some passes of the first loop of `v_out_queue_init`. -/
def risingPrio : ℕ → ℚ
  | 0 => vrsDefaultPriority
  | n + 1 => risingPrio n + risingPrio n * realPrioMul

/-- The same for the second loop. -/
def fallingPrio : ℕ → ℚ
  | 0 => vrsDefaultPriority - 1
  | n + 1 => fallingPrio n - fallingPrio n * realPrioMul

/-- `r_prio` of the queue of a priority. -/
def rPrio (prio : ℕ) : ℚ :=
  if vrsDefaultPriority ≤ prio then
    let r := risingPrio (prio - vrsDefaultPriority)
    if r < maxRealPrioVal then r else maxRealPrioVal
  else
    let r := fallingPrio (vrsDefaultPriority - 1 - prio)
    if minRealPrioVal < r then r else minRealPrioVal

/-- `r_prio_sum_high` and `r_prio_sum_low`. -/
structure PrioSums where
  high : ℚ
  low : ℚ
  deriving DecidableEq

/-- `d` is added to the sum of the side of `prio`. -/
def PrioSums.change (s : PrioSums) (prio : ℕ) (d : ℚ) : PrioSums :=
  if vrsDefaultPriority ≤ prio then { s with high := s.high + d } else { s with low := s.low + d }

/-- What a push does to the sums: `_v_out_queue_command_create`, or the change of
priority. -/
def pushSums (oq : VOutQueue) (s : PrioSums) (prio : ℕ) (cmd : CmdPtr) (pushed : Bool) : PrioSums :=
  if !pushed then s
  else
    match (oq.twin cmd).bind oq.qheap with
    | none => if oq.prioCount prio = 0 then s.change prio (rPrio prio) else s
    | some queueCmd =>
        if queueCmd.prio ≠ prio then
          let s :=
            if dec32 (oq.prioCount queueCmd.prio) = 0 then s.change prio (-rPrio queueCmd.prio)
            else s
          if oq.prioCount prio = 0 then s.change prio (rPrio prio) else s
        else s

/-- What a pop does to the sums. -/
def popSums (oq : VOutQueue) (s : PrioSums) (prio : ℕ) (popped : Bool) : PrioSums :=
  if popped && dec32 (oq.prioCount prio) = 0 then s.change prio (-rPrio prio) else s

/-- The queue with its sums. -/
structure WeighedQueue where
  oq : VOutQueue
  sums : PrioSums

def WeighedQueue.init : WeighedQueue := ⟨vOutQueueCreate, 0, 0⟩

def WeighedQueue.step (w : WeighedQueue) : OutAction → Option WeighedQueue
  | .pushTail limits prio cmd => (vOutQueuePushTail w.oq limits prio.toNat cmd.1).map
      fun res => ⟨res.1, pushSums w.oq w.sums prio.toNat cmd.1 res.2.1⟩
  | .pushHead prio cmd => (vOutQueuePushHead w.oq prio.toNat cmd.1).map
      fun res => ⟨res.1, pushSums w.oq w.sums prio.toNat cmd.1 res.2.1⟩
  | .pop prio len => (vOutQueuePop w.oq prio.toNat len.toNat).map
      fun res => ⟨res.1, popSums w.oq w.sums prio.toNat res.2.isSome⟩

/-! ## What the sums should be -/

/-- The side of a priority. -/
def isHigh (prio : ℕ) : Bool := decide (vrsDefaultPriority ≤ prio)

/-- The sum of a side. -/
def PrioSums.side (s : PrioSums) (high : Bool) : ℚ := if high then s.high else s.low

/-- What a priority adds to the sum of a side. -/
def sideWeight (high : Bool) (queues : ℕ → List ℕ) (p : ℕ) : ℚ :=
  if isHigh p = high ∧ queues p ≠ [] then rPrio p else 0

theorem PrioSums.side_change (s : PrioSums) (prio : ℕ) (d : ℚ) (high : Bool) :
    (s.change prio d).side high = s.side high + if isHigh prio = high then d else 0 := by
  unfold PrioSums.change isHigh
  by_cases hprio : vrsDefaultPriority ≤ prio
  · cases high <;> simp [PrioSums.side, hprio]
  · cases high <;> simp [PrioSums.side, hprio]

/-- The weight of the priorities of a side that have commands. -/
def sideTotal (high : Bool) (queues : ℕ → List ℕ) : ℚ :=
  ∑ p ∈ Books.priorities, sideWeight high queues p

section Totals

variable {p qa : ℕ} {queues : ℕ → List ℕ}

/-- The weight of a side after one list has changed. -/
theorem sideTotal_update (hp : p ≤ maxPriority) (high : Bool) (queues : ℕ → List ℕ) (l : List ℕ) :
    sideTotal high (Function.update queues p l) + sideWeight high queues p =
      sideTotal high queues + if isHigh p = high ∧ l ≠ [] then rPrio p else 0 := by
  have hupdate : sideWeight high (Function.update queues p l) =
      Function.update (sideWeight high queues) p
        (if isHigh p = high ∧ l ≠ [] then rPrio p else 0) := by
    funext c
    by_cases hc : c = p
    · subst hc
      simp only [sideWeight, Function.update_self]
    · simp only [sideWeight, Function.update_of_ne hc]
  rw [sideTotal, hupdate]
  exact sum_update (Books.mem_priorities.mpr hp) (sideWeight high queues)
    (if isHigh p = high ∧ l ≠ [] then rPrio p else 0)

theorem sideTotal_enter (hp : p ≤ maxPriority) (high head : Bool) :
    sideTotal high (Function.update queues p (place head qa (queues p))) =
      sideTotal high queues + if isHigh p = high ∧ queues p = [] then rPrio p else 0 := by
  have hplace : place head qa (queues p) ≠ [] := by
    have hmem : qa ∈ place head qa (queues p) := by
      rw [(place_perm head qa (queues p)).mem_iff]
      exact List.mem_cons_self
    exact List.ne_nil_of_mem hmem
  have hsum := sideTotal_update hp high queues (place head qa (queues p))
  by_cases hside : isHigh p = high
  · by_cases hempty : queues p = []
    · rw [if_pos ⟨hside, hplace⟩, sideWeight, if_neg (fun h => h.2 hempty)] at hsum
      rw [if_pos ⟨hside, hempty⟩]
      linarith
    · rw [if_pos ⟨hside, hplace⟩, sideWeight, if_pos ⟨hside, hempty⟩] at hsum
      rw [if_neg (fun h => hempty h.2)]
      linarith
  · rw [if_neg (fun h => hside h.1), sideWeight, if_neg (fun h => hside h.1)] at hsum
    rw [if_neg (fun h => hside h.1)]
    linarith

theorem sideTotal_leave (hp : p ≤ maxPriority) (hmem : qa ∈ queues p) (high : Bool) :
    sideTotal high (Function.update queues p ((queues p).erase qa)) =
      sideTotal high queues +
        if isHigh p = high ∧ (queues p).erase qa = [] then -rPrio p else 0 := by
  have hne : queues p ≠ [] := List.ne_nil_of_mem hmem
  have hsum := sideTotal_update hp high queues ((queues p).erase qa)
  by_cases hside : isHigh p = high
  · by_cases hempty : (queues p).erase qa = []
    · rw [if_neg (fun h => h.2 hempty), sideWeight, if_pos ⟨hside, hne⟩] at hsum
      rw [if_pos ⟨hside, hempty⟩]
      linarith
    · rw [if_pos ⟨hside, hempty⟩, sideWeight, if_pos ⟨hside, hne⟩] at hsum
      rw [if_neg (fun h => hempty h.2)]
      linarith
  · rw [if_neg (fun h => hside h.1), sideWeight, if_neg (fun h => hside h.1)] at hsum
    rw [if_neg (fun h => hside h.1)]
    linarith

end Totals

/-! ## Runs -/

/-- A change of priority that empties the old list stays on its side. -/
def VOutQueue.KeepsSide (oq : VOutQueue) (prio : ℕ) (cmd : CmdPtr) : Prop :=
  ∀ qa v id p, oq.twin cmd = some qa → oq.books.entries qa = some (v, id, p) → p ≠ prio →
    (oq.queues p).length = 1 → isHigh p = isHigh prio

/-- A push finds room in the count of its priority, and a push to the tail keeps the side. -/
def WeighedQueue.Keeps (w : WeighedQueue) : OutAction → Prop
  | .pushTail _ prio cmd =>
      (w.oq.queues prio.toNat).length + 1 < 2 ^ 32 ∧ w.oq.KeepsSide prio.toNat cmd.1
  | .pushHead prio _ => (w.oq.queues prio.toNat).length + 1 < 2 ^ 32
  | .pop _ _ => True

/-- What the steps keep. -/
structure WeighedQueue.Tracked (w : WeighedQueue) : Prop where
  kept : w.oq.books.Kept
  short : ∀ p, (w.oq.queues p).length < 2 ^ 32
  sums : ∀ high, w.sums.side high = sideTotal high w.oq.queues

theorem length_place (head : Bool) (qa : ℕ) (l : List ℕ) : (place head qa l).length = l.length + 1 :=
  (place_perm head qa l).length_eq

/-- Only the list that is pushed to gets longer. -/
theorem PushBooks.length_le {oq oq' : VOutQueue} {head pushed : Bool} {prio : ℕ} {cmd : CmdPtr}
    (heffect : PushBooks oq oq' head prio cmd pushed) (p : ℕ) :
    (oq'.queues p).length ≤
      if p = prio then (oq.queues p).length + 1 else (oq.queues p).length := by
  have henter : ∀ (queues : ℕ → List ℕ) (qa : ℕ), (∀ c, (queues c).length ≤ (oq.queues c).length) →
      (Function.update queues prio (place head qa (queues prio)) p).length ≤
        if p = prio then (oq.queues p).length + 1 else (oq.queues p).length := by
    intro queues qa hle
    by_cases hp : p = prio
    · rw [if_pos hp, hp, Function.update_self, length_place]
      exact Nat.succ_le_succ (hle prio)
    · rw [if_neg hp, Function.update_of_ne hp]
      exact hle p
  have hsame : (oq.queues p).length ≤
      if p = prio then (oq.queues p).length + 1 else (oq.queues p).length := by
    split <;> omega
  cases heffect with
  | full heq => exact heq ▸ hsame
  | added hq htwin hbooks =>
      have hqueues : oq'.queues = Function.update oq.queues prio
          (place head oq.next (oq.queues prio)) := congrArg Books.queues hbooks
      rw [hqueues]
      exact henter oq.queues oq.next fun c => le_rfl
  | @moved q hq qa v p' table htwin hentry hne hrem hbooks =>
      have hqueues : oq'.queues = Function.update
          (Function.update oq.queues p' ((oq.queues p').erase qa)) prio
          (place head qa (Function.update oq.queues p' ((oq.queues p').erase qa) prio)) :=
        congrArg Books.queues hbooks
      rw [hqueues]
      refine henter _ qa fun c => ?_
      by_cases hc : c = p'
      · rw [hc, Function.update_self]
        exact List.length_erase_le
      · rw [Function.update_of_ne hc]
  | replaced htwin hentry hb hid hwf hbooks =>
      have hqueues : oq'.queues = oq.queues := congrArg Books.queues hbooks
      exact hqueues ▸ hsame

namespace WeighedQueue

variable {w : WeighedQueue}

theorem Tracked.prioCount_eq (h : w.Tracked) (p : ℕ) :
    w.oq.prioCount p = (w.oq.queues p).length := by
  have heach : w.oq.prioCount p = (w.oq.queues p).length % 2 ^ 32 := h.kept.booked.counts.each p
  rw [heach, Nat.mod_eq_of_lt (h.short p)]

theorem Tracked.prioCount_eq_zero (h : w.Tracked) (p : ℕ) :
    w.oq.prioCount p = 0 ↔ w.oq.queues p = [] := by
  rw [h.prioCount_eq p, List.length_eq_zero_iff]

theorem Tracked.dec32_eq_zero (h : w.Tracked) {p qa : ℕ} (hmem : qa ∈ w.oq.queues p) :
    dec32 (w.oq.prioCount p) = 0 ↔ (w.oq.queues p).erase qa = [] := by
  have hlen : ((w.oq.queues p).erase qa).length + 1 = (w.oq.queues p).length := by
    have hpos := List.length_pos_of_mem hmem
    rw [List.length_erase_of_mem hmem]
    omega
  have hshort := h.short p
  rw [h.prioCount_eq p, ← List.length_eq_zero_iff, ← hlen, dec32]
  omega

theorem exists_of_entries {oq : VOutQueue} {qa v id p : ℕ}
    (he : oq.books.entries qa = some (v, id, p)) :
    ∃ queueCmd, oq.qheap qa = some queueCmd ∧ queueCmd.prio = p := by
  obtain ⟨queueCmd, hqc, hbare⟩ := Option.map_eq_some_iff.mp he
  exact ⟨queueCmd, hqc, congrArg (·.2.2) hbare⟩

/-- The sums after an entry has entered an empty list. -/
theorem side_enter (s : PrioSums) {p : ℕ} (hp : p ≤ maxPriority) {queues : ℕ → List ℕ} {n : ℕ}
    (hn : n = 0 ↔ queues p = []) {high : Bool} (hs : s.side high = sideTotal high queues)
    (head : Bool) (qa : ℕ) :
    (if n = 0 then s.change p (rPrio p) else s).side high =
      sideTotal high (Function.update queues p (place head qa (queues p))) := by
  rw [sideTotal_enter hp]
  by_cases hzero : n = 0
  · rw [if_pos hzero, PrioSums.side_change, hs]
    simp only [hn.mp hzero, and_true]
  · have hne : queues p ≠ [] := fun hempty => hzero (hn.mpr hempty)
    rw [if_neg hzero, hs]
    simp only [hne, and_false, if_false, add_zero]

/-- The sums after an entry has left a list, when its weight is taken from its own side. -/
theorem side_leave (s : PrioSums) {p prio qa : ℕ} (hp : p ≤ maxPriority) {queues : ℕ → List ℕ}
    (hmem : qa ∈ queues p) {n : ℕ} (hn : n = 0 ↔ (queues p).erase qa = [])
    (hside : n = 0 → isHigh p = isHigh prio) {high : Bool}
    (hs : s.side high = sideTotal high queues) :
    (if n = 0 then s.change prio (-rPrio p) else s).side high =
      sideTotal high (Function.update queues p ((queues p).erase qa)) := by
  rw [sideTotal_leave hp hmem]
  by_cases hzero : n = 0
  · rw [if_pos hzero, PrioSums.side_change, hs, hside hzero]
    simp only [hn.mp hzero, and_true]
  · have hne : (queues p).erase qa ≠ [] := fun hempty => hzero (hn.mpr hempty)
    rw [if_neg hzero, hs]
    simp only [hne, and_false, if_false, add_zero]

theorem Tracked.push (h : w.Tracked) {oq' : VOutQueue} {head pushed : Bool} {prio : ℕ}
    {cmd : CmdPtr} (heffect : PushBooks w.oq oq' head prio cmd pushed) (hprio : prio ≤ maxPriority)
    (hacc : Accepted cmd) (hroom : (w.oq.queues prio).length + 1 < 2 ^ 32)
    (hside : pushed = true → w.oq.KeepsSide prio cmd) :
    Tracked ⟨oq', pushSums w.oq w.sums prio cmd pushed⟩ := by
  refine ⟨heffect.kept h.kept hprio hacc, ?_, ?_⟩
  · show ∀ p, (oq'.queues p).length < 2 ^ 32
    intro p
    have hle := heffect.length_le p
    have hshort := h.short p
    by_cases hp : p = prio
    · rw [hp] at hle ⊢
      rw [if_pos rfl] at hle
      omega
    · rw [if_neg hp] at hle
      omega
  · show ∀ high, (pushSums w.oq w.sums prio cmd pushed).side high = sideTotal high oq'.queues
    intro high
    have hsums := h.sums high
    cases heffect with
    | full heq => rw [heq]; exact hsums
    | added hq htwin hbooks =>
        have hqueues : oq'.queues = Function.update w.oq.queues prio
            (place head w.oq.next (w.oq.queues prio)) := congrArg Books.queues hbooks
        rw [hqueues, ← side_enter w.sums hprio (h.prioCount_eq_zero prio) hsums, pushSums, htwin]
        rfl
    | @moved q hq qa v p table htwin hentry hne hrem hbooks =>
        obtain ⟨queueCmd, hqc, hqprio⟩ := exists_of_entries hentry
        obtain ⟨hmem, hp⟩ := h.kept.listed.entry_le hentry
        have hmem : qa ∈ w.oq.queues p := hmem
        have hqueues : oq'.queues = Function.update
            (Function.update w.oq.queues p ((w.oq.queues p).erase qa)) prio
            (place head qa (Function.update w.oq.queues p ((w.oq.queues p).erase qa) prio)) :=
          congrArg Books.queues hbooks
        have hempty : w.oq.prioCount prio = 0 ↔
            Function.update w.oq.queues p ((w.oq.queues p).erase qa) prio = [] := by
          rw [Function.update_of_ne (Ne.symm hne), h.prioCount_eq_zero prio]
        have hsame : dec32 (w.oq.prioCount p) = 0 → isHigh p = isHigh prio := by
          intro hzero
          have hlen := List.length_erase_of_mem hmem
          rw [(h.dec32_eq_zero hmem).mp hzero, List.length_nil] at hlen
          have hpos := List.length_pos_of_mem hmem
          exact hside rfl qa v cmd.id p htwin hentry hne (by omega)
        have hleave := side_leave w.sums hp hmem (h.dec32_eq_zero hmem) hsame hsums
        rw [hqueues, ← side_enter _ hprio hempty hleave, pushSums, htwin, Option.bind_some, hqc]
        simp only [hqprio, ne_eq, hne, not_false_eq_true, if_true, if_false, Bool.not_true,
          Bool.false_eq_true]
    | @replaced a qa v b htwin hentry hb hid hwf hbooks =>
        obtain ⟨queueCmd, hqc, hqprio⟩ := exists_of_entries hentry
        have hqueues : oq'.queues = w.oq.queues := congrArg Books.queues hbooks
        rw [hqueues, ← hsums, pushSums, htwin, Option.bind_some, hqc]
        simp only [hqprio, ne_eq, not_true_eq_false, if_false, Bool.not_true, Bool.false_eq_true]

theorem Tracked.pop (h : w.Tracked) {oq' : VOutQueue} {prio : ℕ}
    {result : Option (CmdPtr × PopPlan)} (heffect : PopBooks w.oq oq' prio result) :
    Tracked ⟨oq', popSums w.oq w.sums prio result.isSome⟩ := by
  have hkept := heffect.kept h.kept
  cases heffect with
  | nothing heq => exact ⟨hkept, heq ▸ h.short, heq ▸ h.sums⟩
  | @taken q qa v id table oq₁ cmd plan hentry hq hrem hbooks hbooks' =>
      obtain ⟨hmem, hp⟩ := h.kept.listed.entry_le hentry
      obtain ⟨maxPrio, minPrio, hprios⟩ := oq₁.updatePrios_books prio
      have hmem : qa ∈ w.oq.queues prio := hmem
      have hqueues : oq'.queues =
          Function.update w.oq.queues prio ((w.oq.queues prio).erase qa) := by
        have hleft : oq'.queues = oq₁.books.queues := by
          rw [hprios] at hbooks'
          exact congrArg Books.queues hbooks'
        rw [hleft]
        exact congrArg Books.queues hbooks
      refine ⟨hkept, ?_, ?_⟩
      · show ∀ p, (oq'.queues p).length < 2 ^ 32
        intro p
        rw [hqueues]
        by_cases hpp : p = prio
        · rw [hpp, Function.update_self]
          exact lt_of_le_of_lt List.length_erase_le (h.short prio)
        · rw [Function.update_of_ne hpp]
          exact h.short p
      · intro high
        have hleave := side_leave w.sums hp hmem (h.dec32_eq_zero hmem) (fun _ => rfl) (h.sums high)
        rw [← hqueues] at hleave
        simp only [popSums, Option.isSome_some, Bool.true_and, decide_eq_true_eq]
        exact hleave

/-- A push to the head enters a list only when there is no twin. -/
theorem twin_of_pushHead {oq oq' : VOutQueue} {prio : ℕ} {cmd : CmdPtr} {replaced : Option CmdPtr}
    (hres : vOutQueuePushHead oq prio cmd = some (oq', true, replaced)) : oq.twin cmd = none := by
  cases hq : vCmdQueueCreate cmd.id true with
  | none => simp only [VOutQueue.twin, hq]
  | some q =>
      by_cases hdups : q.removeHashDups = true
      · cases hfind : vHashArrayFindItem oq.table q cmd.cmd with
        | none => simp only [vOutQueuePushHead, hq, hdups, if_true, hfind, reduceCtorEq] at hres
        | some found =>
            cases found with
            | none => simp only [VOutQueue.twin, hq, hdups, if_true, hfind]
            | some a =>
                simp only [vOutQueuePushHead, hq, hdups, if_true, hfind, Option.some.injEq,
                  Prod.mk.injEq, Bool.false_eq_true, false_and, and_false] at hres
      · simp only [VOutQueue.twin, hq, if_neg hdups]

/-- **One action** keeps the sums. -/
theorem Tracked.step (h : w.Tracked) {a : OutAction} (hkeeps : w.Keeps a) {w' : WeighedQueue}
    (hres : w.step a = some w') : w'.Tracked := by
  cases a with
  | pushTail limits prio cmd =>
      obtain ⟨⟨oq', pushed, replaced⟩, hpush, heq⟩ := Option.map_eq_some_iff.mp hres
      rw [← heq]
      exact h.push (vOutQueuePush_books h.kept.listed cmd.2 hpush) (uint8_le_maxPriority prio) cmd.2
        hkeeps.1 fun _ => hkeeps.2
  | pushHead prio cmd =>
      obtain ⟨⟨oq', pushed, replaced⟩, hpush, heq⟩ := Option.map_eq_some_iff.mp hres
      rw [← heq]
      refine h.push (vOutQueuePushHead_books h.kept.listed cmd.2 hpush) (uint8_le_maxPriority prio)
        cmd.2 hkeeps ?_
      intro hpushed qa v id p htwin
      have hpushed : pushed = true := hpushed
      rw [hpushed] at hpush
      rw [twin_of_pushHead hpush] at htwin
      cases htwin
  | pop prio len =>
      obtain ⟨⟨oq', result⟩, hpop, heq⟩ := Option.map_eq_some_iff.mp hres
      rw [← heq]
      exact h.pop (vOutQueuePop_books h.kept.listed hpop)

theorem tracked_init : init.Tracked where
  kept := vOutQueueCreate_kept
  short p := Nat.two_pow_pos 32
  sums high := by
    have hweight : sideWeight high init.oq.queues = fun _ => 0 := by
      funext p
      exact if_neg fun h => h.2 rfl
    have hside : init.sums.side high = 0 := by cases high <;> rfl
    rw [hside, sideTotal, hweight, Finset.sum_const_zero]

/-- The priorities of a side that have commands. -/
def active (w : WeighedQueue) (high : Bool) : Finset ℕ :=
  Books.priorities.filter fun p => isHigh p = high ∧ w.oq.queues p ≠ []

/-- **The sums are right**: each is the weight of the priorities of its side that have
commands, and the shares of a side add up to at most one. -/
structure Balanced (w : WeighedQueue) : Prop where
  high : w.sums.high = ∑ p ∈ w.active true, rPrio p
  low : w.sums.low = ∑ p ∈ w.active false, rPrio p
  sharesHigh : ∑ p ∈ w.active true, rPrio p / w.sums.high ≤ 1
  sharesLow : ∑ p ∈ w.active false, rPrio p / w.sums.low ≤ 1

theorem Tracked.balanced (h : w.Tracked) : w.Balanced := by
  have hsum : ∀ high, w.sums.side high = ∑ p ∈ w.active high, rPrio p := by
    intro high
    rw [h.sums high, sideTotal, active, Finset.sum_filter]
    rfl
  have hshares : ∀ high, ∑ p ∈ w.active high, rPrio p / w.sums.side high ≤ 1 := by
    intro high
    calc ∑ p ∈ w.active high, rPrio p / w.sums.side high
        = w.sums.side high / w.sums.side high := by rw [← Finset.sum_div, ← hsum high]
      _ ≤ 1 := div_self_le_one _
  exact ⟨hsum true, hsum false, hshares true, hshares false⟩

end WeighedQueue

/-- In every state of a run whose changes of priority stay on their side, when they empty a
list, the sums are right. -/
theorem weighedQueue_balanced {actions : List OutAction} {w : WeighedQueue}
    (hkeeps : Admissible WeighedQueue.step WeighedQueue.Keeps WeighedQueue.init actions)
    (hrun : run WeighedQueue.step WeighedQueue.init actions = some w) : w.Balanced :=
  (run_invariant (fun _ _ _ h hkeeps hres => h.step hkeeps hres) WeighedQueue.tracked_init hkeeps
    hrun).balanced

theorem accepted_nodeDestroy : Accepted ⟨0, ⟨33, [1, 0, 0, 0], none⟩⟩ := by
  have hnode : (cmdStruct 33).isNodeCmd = true := by decide +kernel
  exact accepted_of_isNodeCmd hnode

/-- `Node_Destroy`, whose whole data are its key. -/
def nodeDestroyCmd : QueueCmd := ⟨⟨0, ⟨33, [1, 0, 0, 0], none⟩⟩, accepted_nodeDestroy⟩

/-- A command goes from one high priority to another. -/
theorem weighedQueue_balanced_push_push :
    ∃ w, run WeighedQueue.step WeighedQueue.init [.pushTail true 200 nodeDestroyCmd,
      .pushTail true 210 nodeDestroyCmd] = some w ∧ w.Balanced := by
  have hsome : (run WeighedQueue.step WeighedQueue.init [.pushTail true 200 nodeDestroyCmd,
      .pushTail true 210 nodeDestroyCmd]).isSome := by decide +kernel
  obtain ⟨w, hrun⟩ := Option.isSome_iff_exists.mp hsome
  have hkeeps : Admissible WeighedQueue.step WeighedQueue.Keeps WeighedQueue.init
      [.pushTail true 200 nodeDestroyCmd, .pushTail true 210 nodeDestroyCmd] := by
    refine ⟨⟨by decide +kernel, ?_⟩, fun w₁ hstep => ⟨⟨?_, ?_⟩, fun _ _ => trivial⟩⟩
    · intro qa v id p htwin
      have hnone : WeighedQueue.init.oq.twin nodeDestroyCmd.1 = none := by decide +kernel
      cases hnone.symm.trans htwin
    · have hlength : (WeighedQueue.init.step (.pushTail true 200 nodeDestroyCmd)).map
          (fun w => (w.oq.queues 210).length) = some 0 := by decide +kernel
      rw [hstep, Option.map_some, Option.some.injEq] at hlength
      show (w₁.oq.queues 210).length + 1 < 2 ^ 32
      omega
    · intro qa v id p htwin hentry _ _
      have hstate : (WeighedQueue.init.step (.pushTail true 200 nodeDestroyCmd)).map
          (fun w => (w.oq.twin nodeDestroyCmd.1, w.oq.books.entries 0)) =
          some (some 0, some (0, 33, 200)) := by decide +kernel
      rw [hstep, Option.map_some, Option.some.injEq, Prod.mk.injEq] at hstate
      obtain rfl := Option.some.inj (hstate.1.symm.trans htwin)
      cases hstate.2.symm.trans hentry
      decide
  exact ⟨w, hrun, weighedQueue_balanced hkeeps hrun⟩

/-- A command goes from the default priority to a low one: the high sum keeps the weight of
an empty priority. -/
theorem weighedQueue_not_balanced :
    ¬ ∀ (actions : List OutAction) (w : WeighedQueue),
      run WeighedQueue.step WeighedQueue.init actions = some w → w.Balanced := by
  intro hall
  have hstate : (run WeighedQueue.step WeighedQueue.init [.pushTail true 128 nodeDestroyCmd,
      .pushTail true 5 nodeDestroyCmd]).map (fun w => (w.sums.high, w.active true)) =
      some (128, ∅) := by decide +kernel
  obtain ⟨w, hrun, heq⟩ := Option.map_eq_some_iff.mp hstate
  obtain ⟨hhigh, hactive⟩ := Prod.mk.inj heq
  have hsum := (hall _ w hrun).high
  rw [hhigh, hactive, Finset.sum_empty] at hsum
  exact absurd hsum (by norm_num)

end Verse
