import Verse.Lib.Run
import Verse.Lib.TwoWayLists

/-!
# Two way linked lists of the program

`v_list_add_head`, `v_list_add_tail`, `v_insert_item`, `v_list_insert_item_after`,
`v_list_insert_item_before` and `v_list_rem_item`, for any number of lists and items.  The
links of an item stay as they are when it is taken out of a list.

The three functions that insert at a place have a case for the empty list that sets the ends
of the list and no link of the item.  An item that was in a list before brings its old links
along.

## Strategy

Each function is one of the two changes of `Lib.TwoWayLists`: an item is put between two parts
of the list or taken out from between them.  `change_holds` is the step on the list that is
named, `call_wellFormed` adds the other lists, and `runsAlong_iff` makes it a statement on runs.
-/

namespace Verse.Lists

open Lib

variable {κ ι : Type*} [DecidableEq ι]

/-! ## One list -/

/-- `v_list_add_head`. -/
def vListAddHead (t : TwoWay ι) (item : ι) : TwoWay ι :=
  let t' : TwoWay ι :=
    { t with next := Function.update t.next item t.first, prev := Function.update t.prev item none }
  let t' : TwoWay ι :=
    match t.first with
    | some first => { t' with prev := Function.update t'.prev first (some item) }
    | none => t'
  { t' with last := if t.last = none then some item else t.last, first := some item }

/-- `v_list_add_tail`. -/
def vListAddTail (t : TwoWay ι) (item : ι) : TwoWay ι :=
  let t' : TwoWay ι :=
    { t with next := Function.update t.next item none, prev := Function.update t.prev item t.last }
  let t' : TwoWay ι :=
    match t.last with
    | some last => { t' with next := Function.update t'.next last (some item) }
    | none => t'
  { t' with first := if t.first = none then some item else t.first, last := some item }

/-- `v_list_rem_item`. -/
def vListRemItem (t : TwoWay ι) (item : ι) : TwoWay ι :=
  let t' : TwoWay ι :=
    match t.next item with
    | some next => { t with prev := Function.update t.prev next (t.prev item) }
    | none => t
  let t' : TwoWay ι :=
    match t'.prev item with
    | some prev => { t' with next := Function.update t'.next prev (t'.next item) }
    | none => t'
  let t' : TwoWay ι := if t'.last = some item then { t' with last := t'.prev item } else t'
  if t'.first = some item then { t' with first := t'.next item } else t'

/-- `v_insert_item`. -/
def vInsertItem (t : TwoWay ι) (prevItem : Option ι) (newItem : ι) : TwoWay ι :=
  match t.first, prevItem with
  | none, _ => { t with first := some newItem, last := some newItem }
  | some first, none =>
      { t with
        next := Function.update t.next newItem (some first)
        prev := Function.update (Function.update t.prev newItem none) first (some newItem)
        first := some newItem }
  | some _, some prevItem =>
      let t : TwoWay ι := if t.last = some prevItem then { t with last := some newItem } else t
      let t : TwoWay ι := { t with next := Function.update t.next newItem (t.next prevItem) }
      let t : TwoWay ι := { t with next := Function.update t.next prevItem (some newItem) }
      let t : TwoWay ι :=
        match t.next newItem with
        | some next => { t with prev := Function.update t.prev next (some newItem) }
        | none => t
      { t with prev := Function.update t.prev newItem (some prevItem) }

/-- `v_list_insert_item_after`. -/
def vListInsertItemAfter (t : TwoWay ι) (prevItem : Option ι) (newItem : ι) : TwoWay ι :=
  match t.first, prevItem with
  | none, _ => { t with first := some newItem, last := some newItem }
  | some first, none =>
      { t with
        next := Function.update t.next newItem (some first)
        prev := Function.update (Function.update t.prev newItem none) first (some newItem)
        first := some newItem }
  | some _, some prevItem =>
      let t : TwoWay ι := if t.last = some prevItem then { t with last := some newItem } else t
      let t : TwoWay ι :=
        { t with
          next := Function.update t.next newItem (t.next prevItem)
          prev := Function.update t.prev newItem (some prevItem) }
      let t : TwoWay ι := { t with next := Function.update t.next prevItem (some newItem) }
      match t.next newItem with
      | some next => { t with prev := Function.update t.prev next (some newItem) }
      | none => t

/-- `v_list_insert_item_before`; `none` is a write through the pointer `last` of a list that
has a first item and no last one. -/
def vListInsertItemBefore (t : TwoWay ι) (nextItem : Option ι) (newItem : ι) : Option (TwoWay ι) :=
  match t.first, nextItem with
  | none, _ => some { t with first := some newItem, last := some newItem }
  | some _, none =>
      t.last.map fun last =>
        { t with
          prev := Function.update t.prev newItem t.last
          next := Function.update (Function.update t.next newItem none) last (some newItem)
          last := some newItem }
  | some first, some nextItem =>
      let t : TwoWay ι := if first = nextItem then { t with first := some newItem } else t
      let t : TwoWay ι :=
        { t with
          next := Function.update t.next newItem (some nextItem)
          prev := Function.update t.prev newItem (t.prev nextItem) }
      let t : TwoWay ι := { t with prev := Function.update t.prev nextItem (some newItem) }
      match t.prev newItem with
      | some prev => some { t with next := Function.update t.next prev (some newItem) }
      | none => some t

/-! ## Any number of lists -/

/-- The operations, with the item they refer to. -/
inductive ListOp (ι : Type*) where
  | addHead
  | addTail
  | insertItem (prevItem : Option ι)
  | insertItemAfter (prevItem : Option ι)
  | insertItemBefore (nextItem : Option ι)
  | remItem
  deriving DecidableEq, Repr

/-- A call; `none` is NULL. -/
structure Call (κ ι : Type*) where
  op : ListOp ι
  listbase : Option κ
  vitem : Option ι
  deriving DecidableEq, Repr

/-- The operation on its list. -/
def change (t : TwoWay ι) (item : ι) : ListOp ι → Option (TwoWay ι)
  | .addHead => some (vListAddHead t item)
  | .addTail => some (vListAddTail t item)
  | .insertItem prevItem => some (vInsertItem t prevItem item)
  | .insertItemAfter prevItem => some (vListInsertItemAfter t prevItem item)
  | .insertItemBefore nextItem => vListInsertItemBefore t nextItem item
  | .remItem => some (vListRemItem t item)

/-- `VListBase`. -/
structure VListBase (ι : Type*) where
  first : Option ι
  last : Option ι

/-- The links of all items, and the lists. -/
structure VLists (κ ι : Type*) where
  next : ι → Option ι
  prev : ι → Option ι
  base : κ → VListBase ι

/-- One of the lists. -/
def VLists.list (s : VLists κ ι) (l : κ) : TwoWay ι :=
  ⟨s.next, s.prev, (s.base l).first, (s.base l).last⟩

/-- Lists without items; the items have any links. -/
def VLists.empty (next prev : ι → Option ι) : VLists κ ι := ⟨next, prev, fun _ => ⟨none, none⟩⟩

/-- One of the lists was changed. -/
def VLists.put [DecidableEq κ] (s : VLists κ ι) (l : κ) (t : TwoWay ι) : VLists κ ι :=
  ⟨t.next, t.prev, Function.update s.base l ⟨t.first, t.last⟩⟩

/-- One call: nothing is done if the item or the list is NULL. -/
def call [DecidableEq κ] (s : VLists κ ι) (c : Call κ ι) : Option (VLists κ ι) :=
  match c.vitem, c.listbase with
  | some item, some l => (change (s.list l) item c.op).map (s.put l)
  | _, _ => some s

/-! ## Plain lists -/

/-- `x` behind the first `p`. -/
def insertAfter (p x : ι) : List ι → List ι
  | [] => []
  | y :: ys => if y = p then y :: x :: ys else y :: insertAfter p x ys

/-- `x` before the first `p`. -/
def insertBefore (p x : ι) : List ι → List ι
  | [] => []
  | y :: ys => if y = p then x :: y :: ys else y :: insertBefore p x ys

/-- The operation on a plain list. -/
def plainChange (xs : List ι) (item : ι) : ListOp ι → List ι
  | .addHead | .insertItem none | .insertItemAfter none => item :: xs
  | .addTail | .insertItemBefore none => xs ++ [item]
  | .insertItem (some prevItem) | .insertItemAfter (some prevItem) => insertAfter prevItem item xs
  | .insertItemBefore (some nextItem) => insertBefore nextItem item xs
  | .remItem => xs.erase item

/-- One call on plain lists. -/
def plainCall [DecidableEq κ] (seqs : κ → List ι) (c : Call κ ι) : κ → List ι :=
  match c.vitem, c.listbase with
  | some item, some l => Function.update seqs l (plainChange (seqs l) item c.op)
  | _, _ => seqs

/-- The item that an operation refers to. -/
def ListOp.reference : ListOp ι → Option ι
  | .insertItem item | .insertItemAfter item | .insertItemBefore item => item
  | .addHead | .addTail | .remItem => none

/-- An item that is added is in no list; one that is removed or referred to is in this one. -/
def Allowed (seqs : κ → List ι) (c : Call κ ι) : Prop :=
  ∀ item ∈ c.vitem, ∀ l ∈ c.listbase,
    (∀ p ∈ c.op.reference, p ∈ seqs l) ∧
      if c.op = .remItem then item ∈ seqs l else ∀ k, item ∉ seqs k

/-- **The lists are well formed**: forward and backward they are the plain lists. -/
def WellFormed (s : VLists κ ι) (seqs : κ → List ι) : Prop := ∀ l, (s.list l).Holds (seqs l)

/-- **The condition**: an item that is inserted at a place into an empty list has no links. -/
def CleanInsert (s : VLists κ ι) (c : Call κ ι) : Prop :=
  ∀ item ∈ c.vitem, ∀ l ∈ c.listbase, (s.base l).first = none →
    match c.op with
    | .insertItem _ | .insertItemAfter _ | .insertItemBefore _ =>
        s.next item = none ∧ s.prev item = none
    | .addHead | .addTail | .remItem => True

/-! ## What each function does to the links -/

section Changes

variable {t : TwoWay ι} {xs ys l : List ι} {item p : ι}

/-- A link that was written, the place it was written to on the left. -/
private theorem update_eq_ite (link : ι → Option ι) (p : ι) (v : Option ι) (a : ι) :
    Function.update link p v a = if p = a then v else link a := by
  rw [Function.update_apply]
  exact ite_congr (propext eq_comm) (fun _ => rfl) fun _ => rfl

theorem vListAddHead_inserted (h : t.Holds l) (hitem : item ∉ l) :
    t.Inserted (vListAddHead t item) [] item l := by
  have hfirst := h.first_eq
  have hlast := h.last_eq_none_iff
  cases l with
  | nil =>
      have hlast : t.last = none := hlast.mpr rfl
      constructor <;> intros <;> simp_all [vListAddHead, eq_comm]
  | cons x rest =>
      have hne : x ≠ item := fun heq => hitem (by simp [heq])
      have hlast : t.last ≠ none := by simp [hlast]
      constructor <;> intros <;> simp_all [vListAddHead, update_eq_ite]

theorem vListAddTail_inserted (h : t.Holds l) (hitem : item ∉ l) :
    t.Inserted (vListAddTail t item) l item [] := by
  have hlast := h.last_eq
  have hfirst := h.first_eq_none_iff
  cases hl : l.getLast? with
  | none =>
      have hempty : l = [] := List.getLast?_eq_none_iff.mp hl
      subst hempty
      constructor <;> intros <;> simp_all [vListAddTail, eq_comm]
  | some x =>
      have hmem := List.mem_of_getLast? hl
      have hne : x ≠ item := fun heq => hitem (heq ▸ hmem)
      have hempty : l ≠ [] := List.ne_nil_of_mem hmem
      constructor <;> intros <;> simp_all [vListAddTail, update_eq_ite]

/-- The link at `p` is written, if there is one. -/
def writeLink (link : ι → Option ι) (p v : Option ι) : ι → Option ι :=
  match p with
  | some a => Function.update link a v
  | none => link

theorem writeLink_apply (link : ι → Option ι) (p v : Option ι) (a : ι) :
    writeLink link p v a = if p = some a then v else link a := by
  cases p with
  | none => simp [writeLink]
  | some b => simp [writeLink, update_eq_ite]

/-- An item that is no neighbour of itself keeps its own links while the others are written. -/
theorem vListRemItem_eq (hnext : t.next item ≠ some item) (hprev : t.prev item ≠ some item) :
    vListRemItem t item =
      ⟨writeLink t.next (t.prev item) (t.next item), writeLink t.prev (t.next item) (t.prev item),
        if t.first = some item then t.next item else t.first,
        if t.last = some item then t.prev item else t.last⟩ := by
  unfold vListRemItem
  cases hn : t.next item with
  | none =>
      cases hp : t.prev item with
      | none => by_cases hlast : t.last = some item <;> by_cases hfirst : t.first = some item <;>
          simp [writeLink, hn, hp, hlast, hfirst]
      | some x =>
          have hx : x ≠ item := fun heq => hprev (heq ▸ hp)
          by_cases hlast : t.last = some item <;> by_cases hfirst : t.first = some item <;>
            simp [writeLink, hn, hp, hlast, hfirst, update_eq_ite, hx]
  | some y =>
      have hy : y ≠ item := fun heq => hnext (heq ▸ hn)
      cases hp : t.prev item with
      | none => by_cases hlast : t.last = some item <;> by_cases hfirst : t.first = some item <;>
          simp [writeLink, hn, hp, hlast, hfirst, update_eq_ite, hy]
      | some x =>
          have hx : x ≠ item := fun heq => hprev (heq ▸ hp)
          by_cases hlast : t.last = some item <;> by_cases hfirst : t.first = some item <;>
            simp [writeLink, hn, hp, hlast, hfirst, update_eq_ite, hy, hx]

theorem vListRemItem_removed (h : t.Holds (xs ++ item :: ys)) (hnodup : (xs ++ item :: ys).Nodup) :
    t.Removed (vListRemItem t item) xs ys := by
  have hnext : t.next item = ys.head? := h.next_eq
  have hprev : t.prev item = xs.getLast? := h.prev_eq
  have hxs : item ∉ xs := fun hmem => (List.nodup_append.mp hnodup).2.2 item hmem item (by simp) rfl
  have hys : item ∉ ys := (List.nodup_cons.mp (List.nodup_append.mp hnodup).2.1).1
  have hhead : ys.head? ≠ some item := fun heq => hys (List.mem_of_head? heq)
  have hlast : xs.getLast? ≠ some item := fun heq => hxs (List.mem_of_getLast? heq)
  rw [vListRemItem_eq (hnext ▸ hhead) (hprev ▸ hlast), hnext, hprev]
  simp only [h.first_eq_some_iff hxs, h.last_eq_some_iff hys]
  exact ⟨fun a => writeLink_apply _ _ _ a, fun a => writeLink_apply _ _ _ a, rfl, rfl⟩

/-- What `v_insert_item` and `v_list_insert_item_after` write when the list is not empty. -/
theorem inserted_after {t' : TwoWay ι} (h : t.Holds (xs ++ p :: ys))
    (hnodup : (xs ++ p :: ys).Nodup) (hitem : item ∉ xs ++ p :: ys)
    (hnext : t'.next = Function.update (Function.update t.next item (t.next p)) p (some item))
    (hnew : t'.prev item = some p)
    (hprev : ∀ a, a ≠ item → t'.prev a = if t.next p = some a then some item else t.prev a)
    (hfirst : t'.first = t.first) (hlast : t'.last = if t.last = some p then some item else t.last) :
    t.Inserted t' (xs ++ [p]) item ys := by
  have hp : p ≠ item := fun heq => hitem (by simp [heq])
  have hys : p ∉ ys := (List.nodup_cons.mp (List.nodup_append.mp hnodup).2.1).1
  have hlink : t.next p = ys.head? := h.next_eq
  refine ⟨?_, ?_, fun a ha => ?_, fun a ha => ?_, ?_, ?_⟩
  · rw [hnext, Function.update_of_ne (Ne.symm hp), Function.update_self, hlink]
  · rw [hnew, List.getLast?_concat]
  · simp only [hnext, update_eq_ite, List.getLast?_concat, Option.some.injEq, Ne.symm ha, if_false]
  · rw [hprev a ha, hlink]
  · simp [hfirst]
  · simp only [hlast, h.last_eq_some_iff hys]

/-- What `v_list_insert_item_before` writes when the list is not empty. -/
theorem inserted_before {t' : TwoWay ι} (h : t.Holds (xs ++ p :: ys))
    (hnodup : (xs ++ p :: ys).Nodup) (hitem : item ∉ xs ++ p :: ys)
    (hprev : t'.prev = Function.update (Function.update t.prev item (t.prev p)) p (some item))
    (hnew : t'.next item = some p)
    (hnext : ∀ a, a ≠ item → t'.next a = if t.prev p = some a then some item else t.next a)
    (hfirst : t'.first = if t.first = some p then some item else t.first) (hlast : t'.last = t.last) :
    t.Inserted t' xs item (p :: ys) := by
  have hp : p ≠ item := fun heq => hitem (by simp [heq])
  have hxs : p ∉ xs := fun hmem => (List.nodup_append.mp hnodup).2.2 p hmem p (by simp) rfl
  have hlink : t.prev p = xs.getLast? := h.prev_eq
  refine ⟨?_, ?_, fun a ha => ?_, fun a ha => ?_, ?_, ?_⟩
  · rw [hnew, List.head?_cons]
  · rw [hprev, Function.update_of_ne (Ne.symm hp), Function.update_self, hlink]
  · rw [hnext a ha, hlink]
  · simp only [hprev, update_eq_ite, List.head?_cons, Option.some.injEq, Ne.symm ha, if_false]
  · simp only [hfirst, h.first_eq_some_iff hxs]
  · simp [hlast]

theorem vInsertItem_eq {first : ι} (hfirst : t.first = some first) (hp : p ≠ item) :
    vInsertItem t (some p) item =
      ⟨Function.update (Function.update t.next item (t.next p)) p (some item),
        Function.update (writeLink t.prev (t.next p) (some item)) item (some p), t.first,
        if t.last = some p then some item else t.last⟩ := by
  have hread : Function.update (Function.update t.next item (t.next p)) p (some item) item =
      t.next p := by
    rw [Function.update_of_ne (Ne.symm hp), Function.update_self]
  unfold vInsertItem
  rw [hfirst]
  cases hn : t.next p with
  | none => by_cases hlast : t.last = some p <;> simp [writeLink, hn ▸ hread, hn, hlast, hfirst]
  | some y => by_cases hlast : t.last = some p <;> simp [writeLink, hn ▸ hread, hn, hlast, hfirst]

theorem vListInsertItemAfter_eq {first : ι} (hfirst : t.first = some first) (hp : p ≠ item) :
    vListInsertItemAfter t (some p) item =
      ⟨Function.update (Function.update t.next item (t.next p)) p (some item),
        writeLink (Function.update t.prev item (some p)) (t.next p) (some item), t.first,
        if t.last = some p then some item else t.last⟩ := by
  have hread : Function.update (Function.update t.next item (t.next p)) p (some item) item =
      t.next p := by
    rw [Function.update_of_ne (Ne.symm hp), Function.update_self]
  unfold vListInsertItemAfter
  rw [hfirst]
  cases hn : t.next p with
  | none => by_cases hlast : t.last = some p <;> simp [writeLink, hn ▸ hread, hn, hlast, hfirst]
  | some y => by_cases hlast : t.last = some p <;> simp [writeLink, hn ▸ hread, hn, hlast, hfirst]

theorem vListInsertItemBefore_eq {first : ι} (hfirst : t.first = some first) (hp : p ≠ item) :
    vListInsertItemBefore t (some p) item =
      some ⟨writeLink (Function.update t.next item (some p)) (t.prev p) (some item),
        Function.update (Function.update t.prev item (t.prev p)) p (some item),
        if t.first = some p then some item else t.first, t.last⟩ := by
  have hread : Function.update (Function.update t.prev item (t.prev p)) p (some item) item =
      t.prev p := by
    rw [Function.update_of_ne (Ne.symm hp), Function.update_self]
  unfold vListInsertItemBefore
  rw [hfirst]
  cases hn : t.prev p with
  | none => by_cases hlast : first = p <;> simp [writeLink, hn ▸ hread, hn, hlast, hfirst]
  | some y => by_cases hlast : first = p <;> simp [writeLink, hn ▸ hread, hn, hlast, hfirst]

theorem vInsertItem_inserted (h : t.Holds (xs ++ p :: ys)) (hnodup : (xs ++ p :: ys).Nodup)
    (hitem : item ∉ xs ++ p :: ys) : t.Inserted (vInsertItem t (some p) item) (xs ++ [p]) item ys := by
  have hp : p ≠ item := fun heq => hitem (by simp [heq])
  obtain ⟨first, hfirst⟩ : ∃ first, t.first = some first :=
    Option.ne_none_iff_exists'.mp fun hnone => by simpa using h.first_eq_none_iff.mp hnone
  rw [vInsertItem_eq hfirst hp]
  refine inserted_after h hnodup hitem rfl (Function.update_self _ _ _) (fun a ha => ?_) rfl rfl
  dsimp only
  rw [Function.update_of_ne ha, writeLink_apply]

theorem vListInsertItemAfter_inserted (h : t.Holds (xs ++ p :: ys))
    (hnodup : (xs ++ p :: ys).Nodup) (hitem : item ∉ xs ++ p :: ys) :
    t.Inserted (vListInsertItemAfter t (some p) item) (xs ++ [p]) item ys := by
  have hp : p ≠ item := fun heq => hitem (by simp [heq])
  have hnext : t.next p ≠ some item := fun hlink =>
    hitem (List.mem_append_right _ (List.mem_cons_of_mem _
      (List.mem_of_head? (h.next_eq.symm.trans hlink))))
  obtain ⟨first, hfirst⟩ : ∃ first, t.first = some first :=
    Option.ne_none_iff_exists'.mp fun hnone => by simpa using h.first_eq_none_iff.mp hnone
  rw [vListInsertItemAfter_eq hfirst hp]
  refine inserted_after h hnodup hitem rfl ?_ (fun a ha => ?_) rfl rfl
  · dsimp only
    rw [writeLink_apply, if_neg hnext, Function.update_self]
  · dsimp only
    rw [writeLink_apply, Function.update_of_ne ha]

theorem vListInsertItemBefore_inserted (h : t.Holds (xs ++ p :: ys))
    (hnodup : (xs ++ p :: ys).Nodup) (hitem : item ∉ xs ++ p :: ys) :
    ∃ t', vListInsertItemBefore t (some p) item = some t' ∧ t.Inserted t' xs item (p :: ys) := by
  have hp : p ≠ item := fun heq => hitem (by simp [heq])
  have hprev : t.prev p ≠ some item := fun hlink =>
    hitem (List.mem_append_left _ (List.mem_of_getLast? (h.prev_eq.symm.trans hlink)))
  obtain ⟨first, hfirst⟩ : ∃ first, t.first = some first :=
    Option.ne_none_iff_exists'.mp fun hnone => by simpa using h.first_eq_none_iff.mp hnone
  refine ⟨_, vListInsertItemBefore_eq hfirst hp, ?_⟩
  refine inserted_before h hnodup hitem rfl ?_ (fun a ha => ?_) rfl rfl
  · dsimp only
    rw [writeLink_apply, if_neg hprev, Function.update_self]
  · dsimp only
    rw [writeLink_apply, Function.update_of_ne ha]

/-- Before the first item of a list that is not empty, as `v_list_add_head`. -/
theorem vInsertItem_head (h : t.Holds l) (hl : l ≠ []) :
    vInsertItem t none item = vListAddHead t item ∧
      vListInsertItemAfter t none item = vListAddHead t item := by
  have hlast : t.last ≠ none := fun hnone => hl (h.last_eq_none_iff.mp hnone)
  obtain ⟨first, hfirst⟩ : ∃ first, t.first = some first :=
    Option.ne_none_iff_exists'.mp fun hnone => hl (h.first_eq_none_iff.mp hnone)
  constructor <;> simp [vInsertItem, vListInsertItemAfter, vListAddHead, hfirst, hlast]

/-- Behind the last item of a list that is not empty, as `v_list_add_tail`. -/
theorem vListInsertItemBefore_tail (h : t.Holds l) (hl : l ≠ []) :
    vListInsertItemBefore t none item = some (vListAddTail t item) := by
  have hfirst : t.first ≠ none := fun hnone => hl (h.first_eq_none_iff.mp hnone)
  obtain ⟨last, hlast⟩ : ∃ last, t.last = some last :=
    Option.ne_none_iff_exists'.mp fun hnone => hl (h.last_eq_none_iff.mp hnone)
  obtain ⟨first, hfirst⟩ := Option.ne_none_iff_exists'.mp hfirst
  simp [vListInsertItemBefore, vListAddTail, hfirst, hlast]

end Changes

/-! ## The operation on its list -/

section Step

variable {t : TwoWay ι} {l : List ι} {item : ι}

theorem insertAfter_split {p x : ι} {l : List ι} (h : p ∈ l) :
    ∃ xs ys, l = xs ++ p :: ys ∧ insertAfter p x l = (xs ++ [p]) ++ x :: ys := by
  induction l with
  | nil => cases h
  | cons y rest ih =>
      by_cases hy : y = p
      · subst hy
        exact ⟨[], rest, rfl, if_pos rfl⟩
      · have hrest : p ∈ rest := (List.mem_cons.mp h).resolve_left (Ne.symm hy)
        obtain ⟨xs, ys, hsplit, hinsert⟩ := ih hrest
        refine ⟨y :: xs, ys, by rw [hsplit, List.cons_append], ?_⟩
        rw [insertAfter, if_neg hy, hinsert]
        rfl

theorem insertBefore_split {p x : ι} {l : List ι} (h : p ∈ l) :
    ∃ xs ys, l = xs ++ p :: ys ∧ insertBefore p x l = xs ++ x :: p :: ys := by
  induction l with
  | nil => cases h
  | cons y rest ih =>
      by_cases hy : y = p
      · subst hy
        exact ⟨[], rest, rfl, if_pos rfl⟩
      · have hrest : p ∈ rest := (List.mem_cons.mp h).resolve_left (Ne.symm hy)
        obtain ⟨xs, ys, hsplit, hinsert⟩ := ih hrest
        refine ⟨y :: xs, ys, by rw [hsplit, List.cons_append], ?_⟩
        rw [insertBefore, if_neg hy, hinsert]
        rfl

/-- An item was put into the list or taken out of it. -/
inductive Changed (t t' : TwoWay ι) (l : List ι) (item : ι) (l' : List ι) : Prop where
  | inserted {xs ys : List ι} (hl : l = xs ++ ys) (hl' : l' = xs ++ item :: ys) (hitem : item ∉ l)
      (hins : t.Inserted t' xs item ys)
  | removed {xs ys : List ι} (hl : l = xs ++ item :: ys) (hl' : l' = xs ++ ys)
      (hrem : t.Removed t' xs ys)

/-- A place is named in an empty list. -/
def ListOp.intoEmpty (op : ListOp ι) (l : List ι) : Prop :=
  l = [] ∧ op ≠ .addHead ∧ op ≠ .addTail ∧ op ≠ .remItem

/-- What an operation does that is not an insertion at a place into an empty list. -/
theorem change_changed (h : t.Holds l) (hnodup : l.Nodup) {op : ListOp ι}
    (href : ∀ p ∈ op.reference, p ∈ l) (hitem : if op = .remItem then item ∈ l else item ∉ l)
    (hempty : ¬ op.intoEmpty l) :
    ∃ t', change t item op = some t' ∧ Changed t t' l item (plainChange l item op) := by
  have hplace : op ≠ .addHead → op ≠ .addTail → op ≠ .remItem → l ≠ [] :=
    fun h₁ h₂ h₃ hl => hempty ⟨hl, h₁, h₂, h₃⟩
  cases op with
  | addHead => exact ⟨_, rfl, .inserted (List.nil_append l).symm rfl hitem (vListAddHead_inserted h hitem)⟩
  | addTail => exact ⟨_, rfl, .inserted (List.append_nil l).symm rfl hitem (vListAddTail_inserted h hitem)⟩
  | remItem =>
      obtain ⟨xs, ys, hxs, hsplit, herase⟩ := List.exists_erase_eq hitem
      subst hsplit
      exact ⟨_, rfl, .removed rfl herase (vListRemItem_removed h hnodup)⟩
  | insertItem prevItem =>
      cases prevItem with
      | none =>
          have hl := hplace (by simp) (by simp) (by simp)
          refine ⟨_, rfl, .inserted (List.nil_append l).symm rfl hitem ?_⟩
          rw [(vInsertItem_head h hl).1]
          exact vListAddHead_inserted h hitem
      | some p =>
          obtain ⟨xs, ys, rfl, hinsert⟩ := insertAfter_split (x := item) (href p rfl)
          exact ⟨_, rfl, .inserted (by simp) hinsert hitem (vInsertItem_inserted h hnodup hitem)⟩
  | insertItemAfter prevItem =>
      cases prevItem with
      | none =>
          have hl := hplace (by simp) (by simp) (by simp)
          refine ⟨_, rfl, .inserted (List.nil_append l).symm rfl hitem ?_⟩
          rw [(vInsertItem_head h hl).2]
          exact vListAddHead_inserted h hitem
      | some p =>
          obtain ⟨xs, ys, rfl, hinsert⟩ := insertAfter_split (x := item) (href p rfl)
          exact ⟨_, rfl,
            .inserted (by simp) hinsert hitem (vListInsertItemAfter_inserted h hnodup hitem)⟩
  | insertItemBefore nextItem =>
      cases nextItem with
      | none =>
          have hl := hplace (by simp) (by simp) (by simp)
          exact ⟨_, vListInsertItemBefore_tail h hl,
            .inserted (List.append_nil l).symm rfl hitem (vListAddTail_inserted h hitem)⟩
      | some p =>
          obtain ⟨xs, ys, rfl, hinsert⟩ := insertBefore_split (x := item) (href p rfl)
          obtain ⟨t', ht', hins⟩ := vListInsertItemBefore_inserted h hnodup hitem
          exact ⟨t', ht', .inserted rfl hinsert hitem hins⟩

/-- An insertion at a place into an empty list leaves the links as they are. -/
theorem change_intoEmpty (item : ι) {op : ListOp ι} (hfirst : t.first = none) (hop : op.intoEmpty l) :
    change t item op = some { t with first := some item, last := some item } := by
  obtain ⟨-, hhead, htail, hrem⟩ := hop
  cases op with
  | addHead => exact absurd rfl hhead
  | addTail => exact absurd rfl htail
  | remItem => exact absurd rfl hrem
  | insertItem prevItem => simp [change, vInsertItem, hfirst]
  | insertItemAfter prevItem => simp [change, vListInsertItemAfter, hfirst]
  | insertItemBefore nextItem => simp [change, vListInsertItemBefore, hfirst]

theorem plainChange_intoEmpty {op : ListOp ι} (href : ∀ p ∈ op.reference, p ∈ l)
    (hop : op.intoEmpty l) : plainChange l item op = [item] := by
  obtain ⟨rfl, hhead, htail, hrem⟩ := hop
  cases op with
  | addHead => exact absurd rfl hhead
  | addTail => exact absurd rfl htail
  | remItem => exact absurd rfl hrem
  | insertItem place | insertItemAfter place | insertItemBefore place =>
      cases place with
      | none => rfl
      | some p => exact absurd (href p rfl) List.not_mem_nil

omit [DecidableEq ι] in
/-- A list of one item has no links. -/
theorem holds_singleton_iff (t : TwoWay ι) (item : ι) :
    ({ t with first := some item, last := some item } : TwoWay ι).Holds [item] ↔
      t.next item = none ∧ t.prev item = none :=
  ⟨fun h => ⟨h.forward.2, h.backward.2⟩, fun h => ⟨⟨rfl, h.1⟩, ⟨rfl, h.2⟩⟩⟩

theorem plainChange_perm (item : ι) {op : ListOp ι} (href : ∀ p ∈ op.reference, p ∈ l) (hrem : op ≠ .remItem) :
    (plainChange l item op).Perm (item :: l) := by
  have hafter : ∀ p ∈ l, (insertAfter p item l).Perm (item :: l) := by
    intro p hp
    obtain ⟨xs, ys, hsplit, hinsert⟩ := insertAfter_split (x := item) hp
    rw [hinsert, hsplit, List.append_cons xs p ys]
    exact List.perm_middle
  have hbefore : ∀ p ∈ l, (insertBefore p item l).Perm (item :: l) := by
    intro p hp
    obtain ⟨xs, ys, hsplit, hinsert⟩ := insertBefore_split (x := item) hp
    rw [hinsert, hsplit]
    exact List.perm_middle
  cases op with
  | addHead => exact List.Perm.refl _
  | addTail => exact List.perm_append_singleton item l
  | remItem => exact absurd rfl hrem
  | insertItem place | insertItemAfter place =>
      cases place with
      | none => exact List.Perm.refl _
      | some p => exact hafter p (href p rfl)
  | insertItemBefore place =>
      cases place with
      | none => exact List.perm_append_singleton item l
      | some p => exact hbefore p (href p rfl)

end Step

/-! ## All lists -/

section Lists

variable [DecidableEq κ] {s s' : VLists κ ι} {seqs : κ → List ι} {c : Call κ ι}

/-- No item is in a list twice or in two lists. -/
structure Apart (seqs : κ → List ι) : Prop where
  nodup : ∀ l, (seqs l).Nodup
  disjoint : ∀ k l, k ≠ l → ∀ a ∈ seqs k, a ∉ seqs l

omit [DecidableEq ι] in
/-- One of the lists is another one, with its own items and new ones. -/
theorem Apart.update {l : κ} {xs : List ι} (h : Apart seqs) (hnodup : xs.Nodup)
    (hmem : ∀ a ∈ xs, a ∈ seqs l ∨ ∀ k, a ∉ seqs k) : Apart (Function.update seqs l xs) := by
  refine ⟨fun k => ?_, fun j k hne a hj hk => ?_⟩
  · rcases eq_or_ne k l with rfl | hkl
    · rwa [Function.update_self]
    · rw [Function.update_of_ne hkl]
      exact h.nodup k
  · rcases eq_or_ne j l with rfl | hjl
    · rw [Function.update_self] at hj
      rw [Function.update_of_ne (Ne.symm hne)] at hk
      rcases hmem a hj with hold | hnew
      · exact h.disjoint j k hne a hold hk
      · exact hnew k hk
    · rw [Function.update_of_ne hjl] at hj
      rcases eq_or_ne k l with rfl | hkl
      · rw [Function.update_self] at hk
        rcases hmem a hk with hold | hnew
        · exact h.disjoint j k hne a hj hold
        · exact hnew j hj
      · rw [Function.update_of_ne hkl] at hk
        exact h.disjoint j k hne a hj hk

theorem Apart.plainCall (h : Apart seqs) (hallowed : Allowed seqs c) : Apart (plainCall seqs c) := by
  obtain ⟨op, listbase, vitem⟩ := c
  cases vitem with
  | none => exact h
  | some item =>
      cases listbase with
      | none => exact h
      | some l =>
          obtain ⟨href, hitem⟩ := hallowed item rfl l rfl
          by_cases hrem : op = .remItem
          · subst hrem
            exact h.update ((h.nodup l).erase item) fun a ha => Or.inl (List.mem_of_mem_erase ha)
          · have hperm := plainChange_perm item href hrem
            rw [if_neg hrem] at hitem
            refine h.update (hperm.nodup_iff.mpr (List.nodup_cons.mpr ⟨hitem l, h.nodup l⟩)) ?_
            intro a ha
            rcases List.mem_cons.mp (hperm.mem_iff.mp ha) with rfl | hold
            · exact Or.inr hitem
            · exact Or.inl hold

omit [DecidableEq ι] in
theorem list_put_self (l : κ) (t : TwoWay ι) : (s.put l t).list l = t := by
  simp [VLists.put, VLists.list]

omit [DecidableEq ι] in
/-- The other lists keep their ends. -/
theorem list_put_of_ne {k l : κ} (h : k ≠ l) (t : TwoWay ι) :
    (s.put l t).list k = ⟨t.next, t.prev, (s.list k).first, (s.list k).last⟩ := by
  simp [VLists.put, VLists.list, Function.update_of_ne h]

/-- A change of one list leaves the others well formed. -/
theorem WellFormed.put {l : κ} {item : ι} {xs : List ι} {t : TwoWay ι} (h : WellFormed s seqs)
    (hapart : Apart seqs) (hitem : item ∈ seqs l ∨ ∀ k, item ∉ seqs k)
    (hchanged : Changed (s.list l) t (seqs l) item xs) :
    WellFormed (s.put l t) (Function.update seqs l xs) := by
  intro k
  rcases eq_or_ne k l with rfl | hne
  · rw [list_put_self, Function.update_self]
    cases hchanged with
    | inserted hl hl' hnew hins =>
        rw [hl']
        have hk := h k
        have hnodup := hapart.nodup k
        rw [hl] at hk hnodup hnew
        exact hk.insert hnodup hnew hins
    | removed hl hl' hrem =>
        rw [hl']
        have hk := h k
        have hnodup := hapart.nodup k
        rw [hl] at hk hnodup
        exact hk.remove hnodup hrem
  · rw [list_put_of_ne hne, Function.update_of_ne hne]
    have hother : ∀ a ∈ seqs k, a ∉ seqs l := hapart.disjoint k l hne
    cases hchanged with
    | inserted hl hl' hnew hins =>
        have hk : item ∉ seqs k := by
          rcases hitem with hold | hnone
          · exact absurd hold hnew
          · exact hnone k
        exact hins.frame (h k) ⟨rfl, rfl⟩ ⟨rfl, rfl⟩ ⟨rfl, rfl⟩ hk (hl ▸ hother)
    | removed hl hl' hrem =>
        refine hrem.frame (h k) ⟨rfl, rfl⟩ ⟨rfl, rfl⟩ ⟨rfl, rfl⟩ fun a ha hmem => ?_
        refine hother a ha ?_
        rw [hl]
        rcases List.mem_append.mp hmem with hxs | hys
        · exact List.mem_append_left _ hxs
        · exact List.mem_append_right _ (List.mem_cons_of_mem _ hys)

omit [DecidableEq ι] in
/-- An insertion at a place into an empty list is right if the item has no links. -/
theorem put_intoEmpty_iff {l : κ} {item : ι} (h : WellFormed s seqs) (hl : seqs l = []) :
    WellFormed (s.put l { s.list l with first := some item, last := some item })
        (Function.update seqs l [item]) ↔ s.next item = none ∧ s.prev item = none := by
  constructor
  · intro hall
    have hitem := hall l
    rw [list_put_self, Function.update_self] at hitem
    exact (holds_singleton_iff _ _).mp hitem
  · intro hlinks k
    rcases eq_or_ne k l with rfl | hne
    · rw [list_put_self, Function.update_self]
      exact (holds_singleton_iff _ _).mpr hlinks
    · rw [list_put_of_ne hne, Function.update_of_ne hne]
      exact h k

/-- **One call** is as on plain lists exactly under the condition. -/
theorem call_iff (h : WellFormed s seqs) (hapart : Apart seqs) (hallowed : Allowed seqs c) :
    (∃ s', call s c = some s' ∧ WellFormed s' (plainCall seqs c)) ↔ CleanInsert s c := by
  obtain ⟨op, listbase, vitem⟩ := c
  cases vitem with
  | none => exact iff_of_true ⟨s, rfl, h⟩ fun item hitem => by cases hitem
  | some item =>
      cases listbase with
      | none => exact iff_of_true ⟨s, rfl, h⟩ fun _ _ l hl => by cases hl
      | some l =>
          obtain ⟨href, hitem⟩ := hallowed item rfl l rfl
          have hfirst := (h l).first_eq_none_iff
          by_cases hempty : op.intoEmpty (seqs l)
          · have hchange := change_intoEmpty item (hfirst.mpr hempty.1) hempty
            have hcall : call s ⟨op, some l, some item⟩ =
                some (s.put l { s.list l with first := some item, last := some item }) := by
              simp only [call, hchange, Option.map_some]
            have hplain : plainCall seqs ⟨op, some l, some item⟩ =
                Function.update seqs l [item] := by
              simp only [plainCall, plainChange_intoEmpty href hempty]
            have hclean : CleanInsert s ⟨op, some l, some item⟩ ↔
                s.next item = none ∧ s.prev item = none := by
              have hbase : (s.base l).first = none := hfirst.mpr hempty.1
              obtain ⟨-, hhead, htail, hrem⟩ := hempty
              cases op with
              | addHead => exact absurd rfl hhead
              | addTail => exact absurd rfl htail
              | remItem => exact absurd rfl hrem
              | insertItem | insertItemAfter | insertItemBefore =>
                  exact ⟨fun hc => hc item rfl l rfl hbase, fun hc _ hi _ _ _ => by
                    obtain rfl := Option.some.inj hi
                    exact hc⟩
            rw [hplain, hclean, ← put_intoEmpty_iff h hempty.1]
            exact ⟨fun ⟨s', hs', hwf⟩ => Option.some.inj (hcall.symm.trans hs') ▸ hwf,
              fun hwf => ⟨_, hcall, hwf⟩⟩
          · have hin : if op = .remItem then item ∈ seqs l else item ∉ seqs l := by
              split
              case isTrue hrem => rwa [if_pos hrem] at hitem
              case isFalse hrem =>
                rw [if_neg hrem] at hitem
                exact hitem l
            obtain ⟨t, ht, hchanged⟩ := change_changed (h l) (hapart.nodup l) href hin hempty
            have hnew : item ∈ seqs l ∨ ∀ k, item ∉ seqs k := by
              split at hitem
              · exact Or.inl hitem
              · exact Or.inr hitem
            refine iff_of_true ⟨s.put l t, ?_, h.put hapart hnew hchanged⟩ ?_
            · simp only [call, ht, Option.map_some]
            · intro item' _ l' hl' hnone
              obtain rfl := Option.some.inj hl'
              have hl := hfirst.mp hnone
              cases op with
              | addHead | addTail | remItem => trivial
              | insertItem | insertItemAfter | insertItemBefore =>
                  exact absurd ⟨hl, by simp, by simp, by simp⟩ hempty

omit [DecidableEq κ] [DecidableEq ι] in
theorem wellFormed_empty (next prev : ι → Option ι) :
    WellFormed (VLists.empty next prev : VLists κ ι) fun _ => [] :=
  fun _ => ⟨rfl, rfl⟩

/-- **When the lists stay well formed.**  In a run of allowed calls the lists are, at the
start and after every call, what the same calls make of plain lists, if and only if no item
with links is inserted at a place into an empty list. -/
theorem wellFormed_iff (next prev : ι → Option ι) (calls : List (Call κ ι))
    (hallowed : Admissible (fun seqs c => some (plainCall seqs c)) Allowed (fun _ => []) calls) :
    RunsAlong call plainCall WellFormed (VLists.empty next prev) (fun _ => []) calls ↔
      Admissible call CleanInsert (VLists.empty next prev) calls := by
  have hstep : ∀ (s : VLists κ ι) (seqs : κ → List ι) (c : Call κ ι), WellFormed s seqs →
      Apart seqs → Allowed seqs c →
      ((∃ s', call s c = some s' ∧ WellFormed s' (plainCall seqs c)) ↔ CleanInsert s c) :=
    fun _ _ _ h hapart hc => call_iff h hapart hc
  have hkeep : ∀ (seqs : κ → List ι) (c : Call κ ι), Apart seqs → Allowed seqs c →
      Apart (plainCall seqs c) :=
    fun _ _ hapart hc => hapart.plainCall hc
  have hstart : Apart fun _ : κ => ([] : List ι) :=
    ⟨fun _ => List.nodup_nil, fun _ _ _ _ ha => absurd ha List.not_mem_nil⟩
  exact runsAlong_iff hstep hkeep (wellFormed_empty next prev) hstart hallowed

/-- Items put into one list before and behind each other and moved to another one. -/
def sortedCalls : List (Call Bool ℕ) :=
  [⟨.addTail, some false, some 5⟩, ⟨.insertItemBefore (some 5), some false, some 3⟩,
    ⟨.insertItem (some 5), some false, some 7⟩, ⟨.remItem, some false, some 5⟩,
    ⟨.addHead, some true, some 5⟩, ⟨.insertItemAfter none, some true, some 4⟩]

theorem wellFormed_sorted :
    RunsAlong call plainCall WellFormed (VLists.empty (fun _ => none) fun _ => none) (fun _ => [])
      sortedCalls := by
  refine (wellFormed_iff (fun _ => none) (fun _ => none) sortedCalls ?_).mpr ?_
  · simp [sortedCalls, Admissible, Allowed, ListOp.reference, plainCall, plainChange, insertAfter,
      insertBefore]
  · simp [sortedCalls, Admissible, CleanInsert, call, change, VLists.put, VLists.list, VLists.empty,
      vListAddTail, vListInsertItemBefore, vInsertItem, vListRemItem, vListAddHead]

/-- Two items in the first list, of which the first is moved to the empty second list. -/
def movedToEmpty : List (Call Bool ℕ) :=
  [⟨.addTail, some false, some 1⟩, ⟨.addTail, some false, some 2⟩, ⟨.remItem, some false, some 1⟩,
    ⟨.insertItemAfter none, some true, some 1⟩]

/-- The item brings along its link to the second item of the first list. -/
theorem not_wellFormed :
    ¬ ∀ (next prev : ℕ → Option ℕ) (calls : List (Call Bool ℕ)),
      Admissible (fun seqs c => some (plainCall seqs c)) Allowed (fun _ => []) calls →
        RunsAlong call plainCall WellFormed (VLists.empty next prev) (fun _ => []) calls := by
  intro hall
  have hrun := hall (fun _ => none) (fun _ => none) movedToEmpty (by
    simp [movedToEmpty, Admissible, Allowed, ListOp.reference, plainCall, plainChange])
  obtain ⟨-, s₁, h₁, -, s₂, h₂, -, s₃, h₃, -, s₄, h₄, hwf⟩ := hrun
  have hlink : s₄.next 1 = some 2 := by
    cases h₁
    cases h₂
    cases h₃
    cases h₄
    rfl
  have hnext : s₄.next 1 = none := (hwf true).forward.2
  exact Option.some_ne_none 2 (hlink.symm.trans hnext)

end Lists

end Verse.Lists
