import Verse.Lib.LinkedCells
import Verse.Lib.Run
import Verse.Queues.HashArray

/-!
# Hashed linked lists with their cells

`v_hash_array_find_item`, `v_hash_array_add_item` and `v_hash_array_remove_item` for any key
and both hash functions, and with the cells of the chains as they lie in memory: the first
one of a chain in the array `buckets`, the others behind it.  `Queues.HashArray` has the
same functions for commands, whose chains are lists.

An item is what can be read through its pointer.  Whether its bytes are copied makes no
difference here, as nobody changes the key of an item that was added.  An allocation that
fails leaves everything as it was; it is not modelled.

The hash function of `HASH_MOD_65536` takes the bytes behind the last whole word for as many
as they are not, and the loop before goes one word too far: unless the size of the key is a
multiple of four, bytes behind the key decide about the chain.

## Strategy

`WF` ties the chains to the list of buckets.  With it each function is described by the list
and the hashes alone (`vHashArrayFindItem_eq`, `vHashArrayAddItem_spec`,
`vHashArrayRemoveItem_spec`), and an answer is right if the bucket that the list gives is in
the chain of the item.
-/

namespace Verse.HashedList

open Lib

/-! ## Hash functions -/

/-- `HASH_MOD_256` and `HASH_MOD_65536`. -/
inductive HashMod where
  | mod256
  | mod65536
  deriving DecidableEq, Repr

/-- What `v_hash_array_init` sets and nothing changes afterwards. -/
structure VHashArrayBase where
  hashMod : HashMod
  keyOffset : UInt8
  keySize : UInt8
  deriving DecidableEq, Repr

/-- `length`. -/
def VHashArrayBase.length (base : VHashArrayBase) : ℕ :=
  match base.hashMod with
  | .mod256 => 256
  | .mod65536 => 65536

/-- The number of `width` bytes at `off`. -/
def number (data : Mem) (off width : ℕ) : ℕ := leVal ((List.range width).map fun i => data (off + i))

/-- The passes of a loop that goes up to `bound` in steps of `width`. -/
def passes (width bound : ℕ) : ℕ := (bound + width - 1) / width

/-- The sum of the first `n` numbers of `width` bytes. -/
def sumWords (data : Mem) (width n : ℕ) : ℕ :=
  ((List.range n).map fun j => number data (width * j) width).sum

/-- `v_hash_func_uint16`; `none` is the result -1. -/
def vHashFuncUint16 (base : VHashArrayBase) (item : Mem) : Option ℕ :=
  let keySize := base.keySize.toNat
  let data := item.shift base.keyOffset.toNat
  if keySize = 0 then none
  else if keySize % 2 = 0 then some (sumWords data 2 (passes 2 keySize) % base.length)
  else
    let n := passes 2 (keySize - 1)
    some ((sumWords data 2 n + number data (2 * n) 1) % base.length)

/-- `v_hash_func_uint32`. -/
def vHashFuncUint32 (base : VHashArrayBase) (item : Mem) : Option ℕ :=
  let keySize := base.keySize.toNat
  let data := item.shift base.keyOffset.toNat
  let n := passes 4 (keySize - 1)
  if keySize = 0 then none
  else if keySize % 4 = 0 then some (sumWords data 4 (passes 4 keySize) % base.length)
  else if keySize % 4 = 1 then
    some ((sumWords data 4 n + number data (4 * n) 2 + number data (4 * n + 2) 1) % base.length)
  else if keySize % 4 = 2 then some ((sumWords data 4 n + number data (4 * n) 2) % base.length)
  else some ((sumWords data 4 n + number data (4 * n) 1) % base.length)

/-- `hash_func`. -/
def VHashArrayBase.hashFunc (base : VHashArrayBase) (item : Mem) : Option ℕ :=
  match base.hashMod with
  | .mod256 => vHashFuncUint16 base item
  | .mod65536 => vHashFuncUint32 base item

/-- `memcmp` of the keys of two items. -/
def VHashArrayBase.sameKey (base : VHashArrayBase) (item data : Mem) : Bool :=
  (List.range base.keySize.toNat).all fun i =>
    item (base.keyOffset.toNat + i) == data (base.keyOffset.toNat + i)

/-! ## The list and its cells -/

/-- A pointer at a cell: at an entry of the array `buckets`, or at one behind it in a chain. -/
inductive CellPtr where
  | entry (index : ℕ)
  | heap (addr : ℕ)
  deriving DecidableEq, Repr

/-- `VBucketP`: `vbucket` and `next`. -/
abbrev VBucketP := Cell CellPtr ℕ

/-- The list of buckets, the `data` of each, the cells and the count. -/
structure VHashArray where
  lb : List ℕ
  data : ℕ → Option Mem
  cells : Cells CellPtr ℕ
  nextBucket : ℕ
  nextCell : ℕ
  count : ℕ

/-- `v_hash_array_init`. -/
def vHashArrayInit (base : VHashArrayBase) : VHashArray where
  lb := []
  data _ := none
  cells p :=
    match p with
    | .entry index => if index < base.length then some ⟨none, none⟩ else none
    | .heap _ => none
  nextBucket := 0
  nextCell := 0
  count := 0

/-- The bucket has the key of the item; `none` is a bucket without data. -/
def VHashArray.hasKey (t : VHashArray) (base : VHashArrayBase) (item : Mem) (b : ℕ) : Option Bool :=
  (t.data b).map (base.sameKey item)

/-- No chain is longer than the list. -/
def VHashArray.fuel (t : VHashArray) : ℕ := t.lb.length + 1

/-- `v_hash_array_find_item`; the outer `none` is a failed assertion. -/
def vHashArrayFindItem (base : VHashArrayBase) (t : VHashArray) (item : Mem) : Option (Option ℕ) :=
  (base.hashFunc item).bind fun index =>
    (t.cells (.entry index)).bind fun entry =>
      match entry.next with
      | none =>
          match entry.value with
          | none => some none
          | some b => (t.hasKey base item b).map fun same => if same then some b else none
      | some _ =>
          (walk t.cells (t.hasKey base item) t.fuel none (.entry index)).map fun hit =>
            hit.map fun found => found.2.2

/-- `v_hash_array_add_item`. -/
def vHashArrayAddItem (base : VHashArrayBase) (t : VHashArray) (item : Mem) (itemSize : UInt16) :
    Option (VHashArray × ℕ) :=
  if itemSize.toNat < base.keyOffset.toNat + base.keySize.toNat then none
  else
    (base.hashFunc item).bind fun index =>
      let b := t.nextBucket
      let added : VHashArray :=
        { t with
          lb := t.lb ++ [b]
          data := Function.update t.data b (some item)
          nextBucket := b + 1
          count := inc32 t.count }
      (t.cells (.entry index)).bind fun entry =>
        match entry.value with
        | none =>
            some ({ added with cells := Function.update t.cells (.entry index) (some ⟨some b, none⟩) }, b)
        | some _ =>
            (walkEnd t.cells t.fuel (.entry index)).bind fun p =>
              (t.cells p).bind fun last =>
                let q := CellPtr.heap t.nextCell
                some ({ added with
                  cells := Function.update (Function.update t.cells p (some ⟨last.value, some q⟩)) q
                    (some ⟨some b, none⟩)
                  nextCell := t.nextCell + 1 }, b)

/-- `v_list_rem_item`, and the bucket is freed. -/
def VHashArray.dropBucket (t : VHashArray) (b : ℕ) : VHashArray :=
  { t with lb := t.lb.erase b, data := Function.update t.data b none, count := dec32 t.count }

/-- `v_hash_array_remove_item`: the list, and 1 when an item was removed. -/
def vHashArrayRemoveItem (base : VHashArrayBase) (t : VHashArray) (item : Mem) :
    Option (VHashArray × ℕ) :=
  (base.hashFunc item).bind fun index =>
    (t.cells (.entry index)).bind fun entry =>
      match entry.value with
      | none => some (t, 0)
      | some b =>
          match entry.next with
          | none =>
              (t.hasKey base item b).map fun same =>
                if same then
                  ({ t.dropBucket b with
                    cells := Function.update t.cells (.entry index) (some ⟨none, none⟩) }, 1)
                else (t, 0)
          | some _ =>
              (walk t.cells (t.hasKey base item) t.fuel none (.entry index)).bind fun hit =>
                match hit with
                | none => some (t, 0)
                | some (prev, p, b) =>
                    (t.cells p).bind fun cell =>
                      match prev with
                      | none =>
                          -- the first cell cannot be freed: it becomes the second one
                          cell.next.bind fun q =>
                            (t.cells q).bind fun second =>
                              some ({ t.dropBucket b with
                                cells := Function.update (Function.update t.cells p (some second)) q
                                  none }, 1)
                      | some r =>
                          (t.cells r).bind fun before =>
                            some ({ t.dropBucket b with
                              cells := Function.update
                                (Function.update t.cells r (some ⟨before.value, cell.next⟩)) p none }, 1)

/-! ## Runs -/

/-- The operations; an item is what can be read through its pointer. -/
inductive HashOp where
  | find (item : Mem)
  | add (item : Mem) (itemSize : UInt16)
  | remove (item : Mem)

/-- What is returned: a pointer at a bucket, or 1 or 0. -/
inductive HashResult where
  | bucket (b : Option ℕ)
  | removed (n : ℕ)
  deriving DecidableEq, Repr

/-- One operation. -/
def hashStep (base : VHashArrayBase) (t : VHashArray) : HashOp → Option (VHashArray × HashResult)
  | .find item => (vHashArrayFindItem base t item).map fun b => (t, .bucket b)
  | .add item itemSize =>
      (vHashArrayAddItem base t item itemSize).map fun (t', b) => (t', .bucket (some b))
  | .remove item => (vHashArrayRemoveItem base t item).map fun (t', n) => (t', .removed n)

/-- The bucket has the key of the item. -/
def VHashArray.matching (t : VHashArray) (base : VHashArrayBase) (item : Mem) (b : ℕ) : Bool :=
  (t.data b).any (base.sameKey item)

/-- The bucket that was added first among those with the key of the item. -/
def VHashArray.earliest (t : VHashArray) (base : VHashArrayBase) (item : Mem) : Option ℕ :=
  t.lb.find? (t.matching base item)

/-- The hash of a bucket. -/
def VHashArray.hashOf (t : VHashArray) (base : VHashArrayBase) (b : ℕ) : Option ℕ :=
  (t.data b).bind base.hashFunc

/-- `count` is the number of buckets, and each is reached through the chain of its hash. -/
structure Settled (base : VHashArrayBase) (t : VHashArray) : Prop where
  count : t.count = t.lb.length
  reached : ∀ b ∈ t.lb, ∃ index, t.hashOf base b = some index ∧ Reaches t.cells b (.entry index)

/-- The answer of an insertion-ordered multimap. -/
def Answer (base : VHashArrayBase) (t : VHashArray) : HashOp → VHashArray → HashResult → Prop
  | .find item, t', result => result = .bucket (t.earliest base item) ∧ t' = t
  | .add item _, t', result =>
      ∃ b, b ∉ t.lb ∧ result = .bucket (some b) ∧ t'.lb = t.lb ++ [b] ∧
        t'.data = Function.update t.data b (some item)
  | .remove item, t', result =>
      match t.earliest base item with
      | none => result = .removed 0 ∧ t' = t
      | some b => result = .removed 1 ∧ t'.lb = t.lb.erase b ∧ t'.data = Function.update t.data b none

/-- **The operation is right**: it goes through, gives the answer of the multimap, and leaves
a list whose buckets are counted and reached. -/
def RightOp (base : VHashArrayBase) (t : VHashArray) (op : HashOp) : Prop :=
  ∃ t' result, hashStep base t op = some (t', result) ∧ Answer base t op t' result ∧ Settled base t'

/-- **The condition**: the key is not empty, an item holds its key, there are fewer than
`2 ^ 32` items, and the earliest bucket with the key that is searched has the hash of the
item that is searched. -/
def SoundOp (base : VHashArrayBase) (t : VHashArray) : HashOp → Prop
  | .find item | .remove item =>
      base.keySize ≠ 0 ∧ ∀ b ∈ t.earliest base item, t.hashOf base b = base.hashFunc item
  | .add _ itemSize =>
      base.keySize ≠ 0 ∧ base.keyOffset.toNat + base.keySize.toNat ≤ itemSize.toNat ∧
        t.lb.length + 1 < 2 ^ 32

/-- One operation without its result. -/
def hashRun (base : VHashArrayBase) (t : VHashArray) (op : HashOp) : Option VHashArray :=
  (hashStep base t op).map Prod.fst

/-! ## The invariant -/

/-- The cells of one chain: the first is the entry of the array, the others are behind it. -/
structure Chain (t : VHashArray) (index : ℕ) (l : List (CellPtr × ℕ)) : Prop where
  linked : Linked t.cells l
  empty : l = [] → t.cells (.entry index) = some ⟨none, none⟩
  head : ∀ p, headPtr l = some p → p = .entry index
  tail : ∀ c ∈ l.tail, ∃ a < t.nextCell, c.1 = .heap a
  nodup : (l.map Prod.fst).Nodup

/-- The chains hold the buckets of the list by their hashes. -/
structure WF (base : VHashArrayBase) (t : VHashArray) (chains : ℕ → List (CellPtr × ℕ)) : Prop where
  chain : ∀ i < base.length, Chain t i (chains i)
  apart : ∀ i < base.length, ∀ j < base.length, i ≠ j → ∀ c ∈ chains i, ∀ d ∈ chains j, c.1 ≠ d.1
  values : ∀ i < base.length,
    (chains i).map Prod.snd = t.lb.filter fun b => t.hashOf base b = some i
  live : ∀ b ∈ t.lb, b < t.nextBucket ∧ ∃ i < base.length, t.hashOf base b = some i
  nodup : t.lb.Nodup
  count : t.count = t.lb.length
  small : t.lb.length < 2 ^ 32

section Chains

variable {base : VHashArrayBase} {t t' : VHashArray} {i : ℕ} {l : List (CellPtr × ℕ)}

theorem Chain.ptr (h : Chain t i l) {c : CellPtr × ℕ} (hc : c ∈ l) :
    c.1 = .entry i ∨ ∃ a < t.nextCell, c.1 = .heap a := by
  cases l with
  | nil => cases hc
  | cons d rest =>
      rcases List.mem_cons.mp hc with rfl | hc
      · exact .inl (h.head _ rfl)
      · exact .inr (h.tail c hc)

theorem Chain.headPtr_eq (h : Chain t i l) (hne : l ≠ []) : headPtr l = some (.entry i) := by
  cases l with
  | nil => exact absurd rfl hne
  | cons d rest => exact congrArg some (h.head _ rfl)

/-- The entry of the array when the chain is not empty. -/
theorem Chain.entry {c : CellPtr × ℕ} {rest : List (CellPtr × ℕ)} (h : Chain t i (c :: rest)) :
    t.cells (.entry i) = some ⟨some c.2, headPtr rest⟩ := by
  obtain ⟨p, v⟩ := c
  obtain rfl : p = .entry i := h.head p rfl
  exact h.linked.1

theorem Chain.congr (h : Chain t i l) (hnext : t.nextCell ≤ t'.nextCell)
    (hcells : ∀ p, p = .entry i ∨ p ∈ l.map Prod.fst → t'.cells p = t.cells p) : Chain t' i l where
  linked := h.linked.congr fun c hc => hcells c.1 (.inr (List.mem_map_of_mem hc))
  empty hl := (hcells _ (.inl rfl)).trans (h.empty hl)
  head := h.head
  tail c hc := by
    obtain ⟨a, ha, hptr⟩ := h.tail c hc
    exact ⟨a, by omega, hptr⟩
  nodup := h.nodup

end Chains

section Replace

variable {base : VHashArrayBase} {t t' : VHashArray} {chains : ℕ → List (CellPtr × ℕ)} {i : ℕ}

/-- **One chain changes.**  The cells of the others are as before, and the new chain has cells
of the old one or new ones. -/
theorem WF.replace (h : WF base t chains) (hi : i < base.length) {l' : List (CellPtr × ℕ)}
    (hchain : Chain t' i l') (hnext : t.nextCell ≤ t'.nextCell)
    (hcells : ∀ p, p ≠ .entry i → p ∉ (chains i).map Prod.fst →
      (∀ a, p = .heap a → a < t.nextCell) → t'.cells p = t.cells p)
    (hptr : ∀ c ∈ l', c.1 ∈ (chains i).map Prod.fst ∨ c.1 = .entry i ∨
      ∃ a, t.nextCell ≤ a ∧ c.1 = .heap a)
    (hvalues : ∀ j < base.length, (Function.update chains i l' j).map Prod.snd =
      t'.lb.filter fun b => t'.hashOf base b = some j)
    (hlive : ∀ b ∈ t'.lb, b < t'.nextBucket ∧ ∃ i < base.length, t'.hashOf base b = some i)
    (hnodup : t'.lb.Nodup) (hcount : t'.count = t'.lb.length) (hsmall : t'.lb.length < 2 ^ 32) :
    WF base t' (Function.update chains i l') := by
  -- a cell of another chain is neither in the old chain nor new
  have hother : ∀ j < base.length, j ≠ i → ∀ p, p = .entry j ∨ p ∈ (chains j).map Prod.fst →
      p ≠ .entry i ∧ p ∉ (chains i).map Prod.fst ∧ ∀ a, p = .heap a → a < t.nextCell := by
    intro j hj hne p hp
    have hentry : CellPtr.entry j ≠ .entry i := fun heq => hne (CellPtr.entry.inj heq)
    rcases hp with rfl | hp
    · refine ⟨hentry, fun hmem => ?_, fun a ha => nomatch ha⟩
      obtain ⟨c, hc, hcptr⟩ := List.mem_map.mp hmem
      rcases (h.chain i hi).ptr hc with hc' | ⟨a, -, hc'⟩
      · exact hentry (hcptr.symm.trans hc')
      · exact nomatch hcptr.symm.trans hc'
    · obtain ⟨c, hc, rfl⟩ := List.mem_map.mp hp
      refine ⟨?_, fun hmem => ?_, fun a ha => ?_⟩
      · rcases (h.chain j hj).ptr hc with hc' | ⟨a, -, hc'⟩
        · rw [hc']
          exact hentry
        · rw [hc']
          exact fun heq => nomatch heq
      · obtain ⟨d, hd, hdptr⟩ := List.mem_map.mp hmem
        exact h.apart i hi j hj (Ne.symm hne) d hd c hc hdptr
      · rcases (h.chain j hj).ptr hc with hc' | ⟨a', ha', hc'⟩
        · exact nomatch ha.symm.trans hc'
        · rw [CellPtr.heap.inj (ha.symm.trans hc')]
          exact ha'
  have hnew : ∀ j < base.length, j ≠ i → ∀ c ∈ l', ∀ d ∈ chains j, c.1 ≠ d.1 := by
    intro j hj hne c hc d hd heq
    obtain ⟨hd1, hd2, hd3⟩ := hother j hj hne d.1 (.inr (List.mem_map_of_mem hd))
    rcases hptr c hc with hc' | hc' | ⟨a, ha, hc'⟩
    · exact hd2 (heq ▸ hc')
    · exact hd1 (heq.symm.trans hc')
    · have := hd3 a (heq.symm.trans hc')
      omega
  refine ⟨fun j hj => ?_, fun j hj k hk hne c hc d hd => ?_, hvalues, hlive, hnodup, hcount,
    hsmall⟩
  · by_cases hji : j = i
    · subst hji
      rw [Function.update_self]
      exact hchain
    · rw [Function.update_of_ne hji]
      refine (h.chain j hj).congr hnext fun p hp => ?_
      obtain ⟨h1, h2, h3⟩ := hother j hj hji p hp
      exact hcells p h1 h2 h3
  · by_cases hji : j = i
    · subst hji
      rw [Function.update_self] at hc
      rw [Function.update_of_ne hne.symm] at hd
      exact hnew k hk hne.symm c hc d hd
    · rw [Function.update_of_ne hji] at hc
      by_cases hki : k = i
      · subst hki
        rw [Function.update_self] at hd
        exact (hnew j hj hji d hd c hc).symm
      · rw [Function.update_of_ne hki] at hd
        exact h.apart j hj k hk hne c hc d hd

end Replace

theorem hashFunc_lt {base : VHashArrayBase} {item : Mem} {i : ℕ} (h : base.hashFunc item = some i) :
    i < base.length := by
  have hpos : 0 < base.length := by
    unfold VHashArrayBase.length
    cases base.hashMod <;> decide
  have hmod : ∀ n, n % base.length < base.length := fun n => Nat.mod_lt n hpos
  unfold VHashArrayBase.hashFunc at h
  cases hbase : base.hashMod with
  | mod256 =>
      rw [hbase] at h
      simp only [vHashFuncUint16] at h
      split at h
      · cases h
      split at h
      · exact Option.some.inj h ▸ hmod _
      · exact Option.some.inj h ▸ hmod _
  | mod65536 =>
      rw [hbase] at h
      simp only [vHashFuncUint32] at h
      split at h
      · cases h
      split at h
      · exact Option.some.inj h ▸ hmod _
      split at h
      · exact Option.some.inj h ▸ hmod _
      split at h
      · exact Option.some.inj h ▸ hmod _
      · exact Option.some.inj h ▸ hmod _

theorem keySize_toNat_eq_zero {base : VHashArrayBase} : base.keySize.toNat = 0 ↔ base.keySize = 0 :=
  ⟨fun h => UInt8.toNat_inj.mp h, fun h => congrArg UInt8.toNat h⟩

/-- There is a hash exactly if the key is not empty. -/
theorem hashFunc_eq_none_iff {base : VHashArrayBase} {item : Mem} :
    base.hashFunc item = none ↔ base.keySize = 0 := by
  rw [← keySize_toNat_eq_zero]
  unfold VHashArrayBase.hashFunc
  cases base.hashMod with
  | mod256 =>
      simp only [vHashFuncUint16]
      by_cases hzero : base.keySize.toNat = 0
      · exact iff_of_true (if_pos hzero) hzero
      · rw [if_neg hzero]
        refine iff_of_false ?_ hzero
        split <;> exact Option.some_ne_none _
  | mod65536 =>
      simp only [vHashFuncUint32]
      by_cases hzero : base.keySize.toNat = 0
      · exact iff_of_true (if_pos hzero) hzero
      · rw [if_neg hzero]
        refine iff_of_false ?_ hzero
        split
        · exact Option.some_ne_none _
        split
        · exact Option.some_ne_none _
        split <;> exact Option.some_ne_none _

theorem wf_init (base : VHashArrayBase) : WF base (vHashArrayInit base) fun _ => [] where
  chain i hi :=
    { linked := trivial
      empty := fun _ => if_pos hi
      head := fun p hp => nomatch hp
      tail := List.forall_mem_nil _
      nodup := List.nodup_nil }
  apart _ _ _ _ _ := List.forall_mem_nil _
  values _ _ := rfl
  live := List.forall_mem_nil _
  nodup := List.nodup_nil
  count := rfl
  small := Nat.two_pow_pos 32

/-! ## Walks along a chain -/

section Walks

variable {base : VHashArrayBase} {t : VHashArray} {chains : ℕ → List (CellPtr × ℕ)} {item : Mem} {i : ℕ}

theorem WF.mem_lb (h : WF base t chains) (hi : i < base.length) {c : CellPtr × ℕ} (hc : c ∈ chains i) :
    c.2 ∈ t.lb ∧ t.hashOf base c.2 = some i := by
  have hmem : c.2 ∈ (chains i).map Prod.snd := List.mem_map_of_mem hc
  rw [h.values i hi, List.mem_filter] at hmem
  exact ⟨hmem.1, of_decide_eq_true hmem.2⟩

theorem WF.length_chain_le (h : WF base t chains) (hi : i < base.length) :
    (chains i).length ≤ t.lb.length := by
  rw [← List.length_map (f := Prod.snd), h.values i hi]
  exact List.length_filter_le _ _

/-- A bucket of the list has data. -/
theorem WF.hasKey (h : WF base t chains) (item : Mem) {b : ℕ} (hb : b ∈ t.lb) :
    t.hasKey base item b = some (t.matching base item b) := by
  obtain ⟨-, i, -, hhash⟩ := h.live b hb
  obtain ⟨data, hdata, -⟩ := Option.bind_eq_some_iff.mp hhash
  rw [VHashArray.hasKey, VHashArray.matching, hdata]
  rfl

theorem WF.walk_none (h : WF base t chains) (hi : i < base.length) (hne : chains i ≠ [])
    (hnot : ∀ c ∈ chains i, t.matching base item c.2 = false) :
    walk t.cells (t.hasKey base item) t.fuel none (.entry i) = some none := by
  have hchain := h.chain i hi
  have hlen := h.length_chain_le hi
  cases hl : chains i with
  | nil => exact absurd hl hne
  | cons c rest =>
      obtain ⟨p, v⟩ := c
      rw [hl] at hchain hnot hlen
      obtain rfl : p = .entry i := hchain.head p rfl
      refine Lib.walk_none hchain.linked ?_ (fun c hc => ?_) none
      · simp only [List.length_cons] at hlen
        unfold VHashArray.fuel
        omega
      · rw [h.hasKey item (h.mem_lb hi (hl ▸ hc)).1, hnot c hc]

theorem WF.walk_some (h : WF base t chains) (hi : i < base.length) {xs ys : List (CellPtr × ℕ)}
    {q : CellPtr} {b : ℕ} (hl : chains i = xs ++ (q, b) :: ys)
    (hnot : ∀ c ∈ xs, t.matching base item c.2 = false) (hhit : t.matching base item b = true) :
    walk t.cells (t.hasKey base item) t.fuel none (.entry i) =
      some (some (xs.getLast?.map Prod.fst, q, b)) := by
  have hchain := h.chain i hi
  have hlen := h.length_chain_le hi
  have hmem : ∀ c ∈ xs ++ (q, b) :: ys, c ∈ chains i := fun c hc => hl ▸ hc
  rw [hl] at hchain hlen
  have hptr := hchain.headPtr_eq (by simp)
  have hfuel : xs.length < t.fuel := by
    simp only [List.length_append, List.length_cons] at hlen
    unfold VHashArray.fuel
    omega
  have hbefore : ∀ c ∈ xs, t.hasKey base item c.2 = some false := by
    intro c hc
    rw [h.hasKey item (h.mem_lb hi (hmem c (by simp [hc]))).1, hnot c hc]
  have hfound : t.hasKey base item b = some true := by
    rw [h.hasKey item (h.mem_lb hi (hmem (q, b) (by simp))).1, hhit]
  have hwalk := Lib.walk_some hchain.linked hfuel hbefore hfound hptr none
  rwa [Option.or_none] at hwalk

/-- What the walk looks for, by the list. -/
theorem WF.find_cases (h : WF base t chains) (hi : i < base.length) (item : Mem) :
    (((t.lb.filter fun b => t.hashOf base b = some i).find? (t.matching base item) = none) ∧
      ∀ c ∈ chains i, t.matching base item c.2 = false) ∨
    ∃ xs q b ys, chains i = xs ++ (q, b) :: ys ∧
      ((t.lb.filter fun b => t.hashOf base b = some i).find? (t.matching base item) = some b) ∧
      (∀ c ∈ xs, t.matching base item c.2 = false) ∧ t.matching base item b = true := by
  rw [← h.values i hi, List.find?_map]
  cases hfind : (chains i).find? (t.matching base item ∘ Prod.snd) with
  | none =>
      refine .inl ⟨rfl, fun c hc => ?_⟩
      exact eq_false_of_ne_true (List.find?_eq_none.mp hfind c hc)
  | some c =>
      obtain ⟨hhit, xs, ys, hl, hnot⟩ := List.find?_eq_some_iff_append.mp hfind
      refine .inr ⟨xs, c.1, c.2, ys, hl, rfl, fun d hd => ?_, hhit⟩
      have := hnot d hd
      simpa using this

/-- **`v_hash_array_find_item`** finds the first bucket with the key among those with the hash
of the item. -/
theorem vHashArrayFindItem_eq (h : WF base t chains) (hhash : base.hashFunc item = some i) :
    vHashArrayFindItem base t item =
      some ((t.lb.filter fun b => t.hashOf base b = some i).find? (t.matching base item)) := by
  have hi := hashFunc_lt hhash
  have hchain := h.chain i hi
  have hcases := h.find_cases hi item
  rw [vHashArrayFindItem, hhash, Option.bind_some]
  cases hl : chains i with
  | nil =>
      rw [hl] at hchain hcases
      rw [hchain.empty rfl]
      rcases hcases with ⟨hfind, -⟩ | ⟨xs, q, b, ys, hsplit, -⟩
      · rw [hfind]
        rfl
      · exact absurd hsplit (by simp)
  | cons c rest =>
      have hc := (h.mem_lb hi (show c ∈ chains i by rw [hl]; exact List.mem_cons_self)).1
      rw [hl] at hchain
      rw [hchain.entry, Option.bind_some]
      cases rest with
      | nil =>
          show (t.hasKey base item c.2).map _ = _
          rw [h.hasKey item hc, Option.map_some]
          rcases hcases with ⟨hfind, hnot⟩ | ⟨xs, q, b, ys, hsplit, hfind, -, hhit⟩
          · rw [hfind, hnot c (by rw [hl]; exact List.mem_cons_self)]
            rfl
          · rw [hl] at hsplit
            obtain ⟨rfl, rfl, rfl⟩ : xs = [] ∧ c = (q, b) ∧ ys = [] := by
              cases xs with
              | nil => exact ⟨rfl, (List.cons.inj hsplit).1, (List.cons.inj hsplit).2.symm⟩
              | cons d xs =>
                  have := (List.cons.inj hsplit).2
                  exact absurd this.symm (by simp)
            rw [hfind, hhit, if_pos rfl]
      | cons d rest =>
          show (walk _ _ _ _ _).map _ = _
          rcases hcases with ⟨hfind, hnot⟩ | ⟨xs, q, b, ys, hsplit, hfind, hnot, hhit⟩
          · rw [hfind, h.walk_none hi (by rw [hl]; exact List.cons_ne_nil _ _) hnot]
            rfl
          · rw [hfind, h.walk_some hi hsplit hnot hhit]
            rfl

end Walks

/-! ## Adding -/

section Add

variable {base : VHashArrayBase} {t : VHashArray} {chains : ℕ → List (CellPtr × ℕ)} {item : Mem} {i : ℕ}

/-- The list with a new bucket, whatever its cells are. -/
def VHashArray.added (t : VHashArray) (item : Mem) (cells : Cells CellPtr ℕ) (nextCell : ℕ) :
    VHashArray where
  lb := t.lb ++ [t.nextBucket]
  data := Function.update t.data t.nextBucket (some item)
  cells := cells
  nextBucket := t.nextBucket + 1
  nextCell := nextCell
  count := inc32 t.count

theorem WF.next_not_mem (h : WF base t chains) : t.nextBucket ∉ t.lb := by
  intro hmem
  have := (h.live _ hmem).1
  omega

theorem hashOf_added (h : WF base t chains) (cells : Cells CellPtr ℕ) (nextCell : ℕ) :
    (t.added item cells nextCell).hashOf base t.nextBucket = base.hashFunc item ∧
      ∀ b ∈ t.lb, (t.added item cells nextCell).hashOf base b = t.hashOf base b := by
  constructor
  · show (Function.update t.data t.nextBucket (some item) t.nextBucket).bind base.hashFunc = _
    rw [Function.update_self, Option.bind_some]
  · intro b hb
    have hne : b ≠ t.nextBucket := fun heq => h.next_not_mem (heq ▸ hb)
    show (Function.update t.data t.nextBucket (some item) b).bind base.hashFunc = _
    rw [Function.update_of_ne hne, VHashArray.hashOf]

/-- The invariant holds again when the chain of the item ends with a cell for the new bucket. -/
theorem WF.added (h : WF base t chains) (hhash : base.hashFunc item = some i)
    (hsmall : t.lb.length + 1 < 2 ^ 32) {cells : Cells CellPtr ℕ} {nextCell : ℕ} {q : CellPtr}
    (hnext : t.nextCell ≤ nextCell)
    (hchain : Chain (t.added item cells nextCell) i (chains i ++ [(q, t.nextBucket)]))
    (hcells : ∀ p, p ≠ .entry i → p ∉ (chains i).map Prod.fst →
      (∀ a, p = .heap a → a < t.nextCell) → cells p = t.cells p)
    (hq : q = .entry i ∨ ∃ a, t.nextCell ≤ a ∧ q = .heap a) :
    WF base (t.added item cells nextCell)
      (Function.update chains i (chains i ++ [(q, t.nextBucket)])) := by
  have hi := hashFunc_lt hhash
  obtain ⟨hnew, hold⟩ := @hashOf_added base t chains item h cells nextCell
  refine h.replace hi hchain hnext hcells ?_ ?_ ?_ ?_ ?_ ?_
  · intro c hc
    rcases List.mem_append.mp hc with hc | hc
    · exact .inl (List.mem_map_of_mem hc)
    · rw [List.mem_singleton.mp hc]
      exact .inr hq
  · intro j hj
    have hfilter : t.lb.filter (fun b => (t.added item cells nextCell).hashOf base b = some j) =
        t.lb.filter fun b => t.hashOf base b = some j :=
      List.filter_congr fun b hb => by rw [hold b hb]
    show _ = (t.lb ++ [t.nextBucket]).filter _
    rw [List.filter_append, hfilter, ← h.values j hj, List.filter_singleton, hnew, hhash]
    by_cases hji : j = i
    · subst hji
      rw [Function.update_self, List.map_append, decide_eq_true rfl]
      rfl
    · have hne : some i ≠ some j := fun heq => hji (Option.some.inj heq).symm
      rw [Function.update_of_ne hji, decide_eq_false hne]
      exact (List.append_nil _).symm
  · intro b hb
    rcases List.mem_append.mp hb with hb | hb
    · obtain ⟨hlt, j, hj, hhash'⟩ := h.live b hb
      exact ⟨Nat.lt_succ_of_lt hlt, j, hj, (hold b hb).trans hhash'⟩
    · rw [List.mem_singleton.mp hb]
      exact ⟨Nat.lt_succ_self _, i, hi, hnew.trans hhash⟩
  · exact List.nodup_append.mpr ⟨h.nodup, List.nodup_singleton _, fun b hb c hc heq =>
      h.next_not_mem (List.mem_singleton.mp hc ▸ heq ▸ hb)⟩
  · show inc32 t.count = (t.lb ++ [t.nextBucket]).length
    rw [h.count, List.length_append, List.length_singleton, inc32]
    exact Nat.mod_eq_of_lt hsmall
  · show (t.lb ++ [t.nextBucket]).length < 2 ^ 32
    rwa [List.length_append]

/-- **`v_hash_array_add_item`** adds a bucket at the end of the list. -/
theorem vHashArrayAddItem_spec (h : WF base t chains) (hhash : base.hashFunc item = some i)
    {itemSize : UInt16} (hsize : base.keyOffset.toNat + base.keySize.toNat ≤ itemSize.toNat) :
    ∃ cells nextCell, vHashArrayAddItem base t item itemSize =
        some (t.added item cells nextCell, t.nextBucket) ∧
      (t.lb.length + 1 < 2 ^ 32 → ∃ chains', WF base (t.added item cells nextCell) chains') := by
  have hi := hashFunc_lt hhash
  have hchain := h.chain i hi
  have hlen := h.length_chain_le hi
  rw [vHashArrayAddItem, if_neg (Nat.not_lt.mpr hsize), hhash, Option.bind_some]
  cases hl : chains i with
  | nil =>
      rw [hl] at hchain
      refine ⟨Function.update t.cells (.entry i) (some ⟨some t.nextBucket, none⟩), t.nextCell, ?_, ?_⟩
      · rw [hchain.empty rfl]
        rfl
      · intro hsmall
        refine ⟨_, h.added hhash hsmall (q := .entry i) le_rfl ?_ ?_ (.inl rfl)⟩
        · rw [hl]
          exact
            { linked := ⟨Function.update_self _ _ _, trivial⟩
              empty := fun hnil => nomatch hnil
              head := fun p hp => (Option.some.inj hp).symm
              tail := List.forall_mem_nil _
              nodup := List.nodup_singleton _ }
        · exact fun p hp _ _ => Function.update_of_ne hp _ _
  | cons c rest =>
      -- the last cell of the chain
      obtain ⟨xs, ⟨p, w⟩, hlast⟩ : ∃ xs last, chains i = xs ++ [last] :=
        ⟨(c :: rest).dropLast, (c :: rest).getLast (List.cons_ne_nil _ _), by
          rw [hl, List.dropLast_append_getLast]⟩
      have hentry : t.cells (.entry i) = some ⟨some c.2, headPtr rest⟩ := (hl ▸ hchain).entry
      rw [hlast] at hchain hlen
      have hptr := hchain.headPtr_eq (by simp)
      have hend : walkEnd t.cells t.fuel (.entry i) = some p := by
        refine walkEnd_eq hchain.linked ?_ hptr
        simp only [List.length_append, List.length_singleton] at hlen
        unfold VHashArray.fuel
        omega
      have hcell : t.cells p = some ⟨some w, none⟩ := hchain.linked.append_right.1
      have hfresh : CellPtr.heap t.nextCell ∉ (xs ++ [(p, w)]).map Prod.fst := by
        intro hmem
        obtain ⟨d, hd, hdptr⟩ := List.mem_map.mp hmem
        rcases hchain.ptr hd with hd' | ⟨a, ha, hd'⟩
        · exact nomatch hdptr.symm.trans hd'
        · have := CellPtr.heap.inj (hdptr.symm.trans hd')
          omega
      refine ⟨Function.update (Function.update t.cells p (some ⟨some w, some (.heap t.nextCell)⟩))
        (.heap t.nextCell) (some ⟨some t.nextBucket, none⟩), t.nextCell + 1, ?_, ?_⟩
      · rw [hentry, Option.bind_some]
        simp only
        rw [hend, Option.bind_some, hcell, Option.bind_some]
        rfl
      · intro hsmall
        refine ⟨_, h.added hhash hsmall (q := .heap t.nextCell) (Nat.le_succ _) ?_ ?_
          (.inr ⟨t.nextCell, le_rfl, rfl⟩)⟩
        · have hnodup := hchain.nodup
          rw [List.map_append] at hnodup
          have hp : p ∉ xs.map Prod.fst := fun hmem =>
            (List.nodup_append.mp hnodup).2.2 p hmem p (by simp) rfl
          have hpq : p ≠ .heap t.nextCell := by
            rintro rfl
            exact hfresh (by simp)
          rw [hlast, List.append_assoc]
          refine ⟨?_, fun hnil => absurd hnil (by simp), fun p' hp' => ?_, fun d hd => ?_, ?_⟩
          · -- the last cell points to the new one
            show Linked (Function.update (Function.update t.cells p _) _ _) _
            rw [Function.update_comm hpq]
            have hnew : Linked (Function.update t.cells (.heap t.nextCell)
                (some ⟨some t.nextBucket, none⟩)) [(CellPtr.heap t.nextCell, t.nextBucket)] :=
              ⟨Function.update_self _ _ _, trivial⟩
            refine Linked.relink (hchain.linked.update hfresh _) ?_ hnew
            rw [List.map_append, List.mem_append, not_or]
            exact ⟨hp, by simpa using hpq⟩
          · refine hchain.head p' ?_
            rw [← hp']
            cases xs <;> rfl
          · have htail : d ∈ (xs ++ [(p, w)]).tail ∨ d = (.heap t.nextCell, t.nextBucket) := by
              cases xs with
              | nil => exact .inr (List.mem_singleton.mp hd)
              | cons e xs =>
                  have hd : d ∈ xs ++ ([(p, w)] ++ [(CellPtr.heap t.nextCell, t.nextBucket)]) := hd
                  rw [← List.append_assoc] at hd
                  rcases List.mem_append.mp hd with hd | hd
                  · exact .inl hd
                  · exact .inr (List.mem_singleton.mp hd)
            rcases htail with hd | rfl
            · obtain ⟨a, ha, hd'⟩ := hchain.tail d hd
              exact ⟨a, Nat.lt_succ_of_lt ha, hd'⟩
            · exact ⟨t.nextCell, Nat.lt_succ_self _, rfl⟩
          · rw [← List.append_assoc, List.map_append]
            refine List.nodup_append.mpr ⟨hchain.nodup, List.nodup_singleton _, ?_⟩
            intro a ha b hb heq
            rw [heq, List.mem_singleton.mp hb] at ha
            exact hfresh ha
        · intro p' _ hmem hold
          have hne : p' ≠ p := by
            rintro rfl
            exact hmem (by rw [hlast]; simp)
          have hne' : p' ≠ .heap t.nextCell := fun heq => absurd (hold _ heq) (Nat.lt_irrefl _)
          rw [Function.update_of_ne hne', Function.update_of_ne hne]

end Add

/-! ## Removing -/

section Remove

variable {base : VHashArrayBase} {t : VHashArray} {chains : ℕ → List (CellPtr × ℕ)} {item : Mem} {i : ℕ}

theorem hashOf_dropBucket (cells : Cells CellPtr ℕ) {b b' : ℕ} (hne : b' ≠ b) :
    VHashArray.hashOf { t.dropBucket b with cells := cells } base b' = t.hashOf base b' := by
  show (Function.update t.data b none b').bind base.hashFunc = _
  rw [Function.update_of_ne hne, VHashArray.hashOf]

/-- The invariant holds again when the chain has lost the cell of the bucket. -/
theorem WF.removed (h : WF base t chains) (hi : i < base.length) {xs ys : List (CellPtr × ℕ)}
    {q : CellPtr} {b : ℕ} (hl : chains i = xs ++ (q, b) :: ys) {cells : Cells CellPtr ℕ}
    (l' : List (CellPtr × ℕ)) (hchain : Chain { t.dropBucket b with cells := cells } i l')
    (hcells : ∀ p, p ≠ .entry i → p ∉ (chains i).map Prod.fst → cells p = t.cells p)
    (hptr : ∀ c ∈ l', c.1 ∈ (chains i).map Prod.fst)
    (hsnd : l'.map Prod.snd = (xs ++ ys).map Prod.snd) :
    WF base { t.dropBucket b with cells := cells } (Function.update chains i l') := by
  obtain ⟨hb, hhash⟩ := h.mem_lb hi (show (q, b) ∈ chains i by rw [hl]; simp)
  have herase : t.lb.erase b = t.lb.filter fun b' => b' != b := h.nodup.erase_eq_filter b
  have hpos : 0 < t.lb.length := List.length_pos_of_mem hb
  have hlen : (t.lb.erase b).length = t.lb.length - 1 := List.length_erase_of_mem hb
  have hsmall := h.small
  refine h.replace hi hchain le_rfl (fun p hp hmem _ => hcells p hp hmem) (fun c hc => .inl (hptr c hc))
    ?_ ?_ (h.nodup.erase b) ?_ ?_
  · intro j hj
    have hfilter : (t.lb.erase b).filter (fun b' =>
        VHashArray.hashOf { t.dropBucket b with cells := cells } base b' = some j) =
        (t.lb.filter fun b' => t.hashOf base b' = some j).filter fun b' => b' != b := by
      rw [herase, List.filter_filter, List.filter_filter]
      refine List.filter_congr fun b' hb' => ?_
      by_cases hne : b' = b
      · simp [hne]
      · rw [hashOf_dropBucket cells hne, Bool.and_comm]
    show _ = (t.lb.erase b).filter _
    rw [hfilter, ← h.values j hj]
    by_cases hji : j = i
    · subst hji
      have hnodup : ((xs ++ (q, b) :: ys).map Prod.snd).Nodup := by
        rw [← hl, h.values j hj]
        exact h.nodup.filter _
      rw [Function.update_self, hsnd, hl, List.map_append, List.map_append, List.map_cons,
        ← List.Nodup.erase_eq_filter (by simpa using hnodup)]
      have hnot : b ∉ xs.map Prod.snd := by
        rw [List.map_append] at hnodup
        exact fun hmem => (List.nodup_append.mp hnodup).2.2 b hmem b (by simp) rfl
      rw [List.erase_append_right _ hnot, List.erase_cons_head]
    · rw [Function.update_of_ne hji]
      refine (List.filter_eq_self.mpr fun b' hb' => ?_).symm
      rw [h.values j hj, List.mem_filter] at hb'
      have hne : b' ≠ b := by
        rintro rfl
        exact hji (Option.some.inj ((of_decide_eq_true hb'.2).symm.trans hhash))
      simpa using hne
  · intro b' hb'
    have hne : b' ≠ b := fun heq => (h.nodup.not_mem_erase) (heq ▸ hb')
    obtain ⟨hlt, j, hj, hj'⟩ := h.live b' (List.mem_of_mem_erase hb')
    exact ⟨hlt, j, hj, (hashOf_dropBucket cells hne).trans hj'⟩
  · show dec32 t.count = (t.lb.erase b).length
    rw [h.count, hlen, dec32]
    omega
  · show (t.lb.erase b).length < 2 ^ 32
    omega

/-- Dropping a bucket does not touch the other fields. -/
theorem Chain.dropBucket {cells : Cells CellPtr ℕ} {b : ℕ} {l : List (CellPtr × ℕ)}
    (hlinked : Linked cells l) (hempty : l = [] → cells (.entry i) = some ⟨none, none⟩)
    (hhead : ∀ p, headPtr l = some p → p = .entry i)
    (htail : ∀ c ∈ l.tail, ∃ a < t.nextCell, c.1 = .heap a) (hnodup : (l.map Prod.fst).Nodup) :
    Chain { t.dropBucket b with cells := cells } i l :=
  ⟨hlinked, hempty, hhead, htail, hnodup⟩

/-- **`v_hash_array_remove_item`** takes the first bucket with the key away from those with the
hash of the item. -/
theorem vHashArrayRemoveItem_spec (h : WF base t chains) (hhash : base.hashFunc item = some i) :
    ((t.lb.filter fun b => t.hashOf base b = some i).find? (t.matching base item) = none ∧
      vHashArrayRemoveItem base t item = some (t, 0)) ∨
    ∃ b cells chains',
      (t.lb.filter fun b => t.hashOf base b = some i).find? (t.matching base item) = some b ∧
        vHashArrayRemoveItem base t item = some ({ t.dropBucket b with cells := cells }, 1) ∧
        WF base { t.dropBucket b with cells := cells } chains' := by
  have hi := hashFunc_lt hhash
  have hchain := h.chain i hi
  have hcases := h.find_cases hi item
  rw [vHashArrayRemoveItem, hhash, Option.bind_some]
  cases hl : chains i with
  | nil =>
      rw [hl] at hchain hcases
      rcases hcases with ⟨hfind, -⟩ | ⟨xs, q, b, ys, hsplit, -⟩
      · refine .inl ⟨hfind, ?_⟩
        rw [hchain.empty rfl]
        rfl
      · exact absurd hsplit (by simp)
  | cons c rest =>
      have hne : chains i ≠ [] := by rw [hl]; exact List.cons_ne_nil _ _
      have hc := (h.mem_lb hi (show c ∈ chains i by rw [hl]; exact List.mem_cons_self)).1
      have hentry : t.cells (.entry i) = some ⟨some c.2, headPtr rest⟩ := (hl ▸ hchain).entry
      rw [hentry, Option.bind_some]
      rcases hcases with ⟨hfind, hnot⟩ | ⟨xs, q, b, ys, hsplit, hfind, hnot, hhit⟩
      · -- no bucket of the chain has the key
        refine .inl ⟨hfind, ?_⟩
        cases rest with
        | nil =>
            show (t.hasKey base item c.2).map _ = _
            rw [h.hasKey item hc, hnot c (by rw [hl]; exact List.mem_cons_self)]
            rfl
        | cons d rest =>
            show (walk _ _ _ _ _).bind _ = _
            rw [h.walk_none hi hne hnot]
            rfl
      · refine .inr ⟨b, ?_⟩
        have hq : t.cells q = some ⟨some b, headPtr ys⟩ := by
          have hlinked := hchain.linked
          rw [hsplit] at hlinked
          exact hlinked.append_right.1
        have hwalk := h.walk_some hi hsplit hnot hhit
        have hnodup := hchain.nodup
        cases xs with
        | nil =>
            obtain rfl : q = .entry i := hchain.head q (by rw [hsplit]; rfl)
            obtain ⟨rfl, rfl⟩ := List.cons.inj (hl.symm.trans hsplit)
            cases rest with
            | nil =>
                -- the only cell
                refine ⟨Function.update t.cells (.entry i) (some ⟨none, none⟩), _, hfind, ?_,
                  h.removed hi hsplit [] ?_ ?_ ?_ rfl⟩
                · show (t.hasKey base item b).map _ = _
                  rw [h.hasKey item hc, hhit]
                  rfl
                · exact Chain.dropBucket trivial (fun _ => Function.update_self _ _ _)
                    (fun p hp => nomatch hp) (List.forall_mem_nil _) List.nodup_nil
                · exact fun p hp _ => Function.update_of_ne hp _ _
                · exact List.forall_mem_nil _
            | cons d ys =>
                -- the first cell takes over the second one
                obtain ⟨r, w⟩ := d
                have hlinked := hchain.linked
                have htail := hchain.tail
                rw [hsplit] at hlinked htail hnodup
                have hr : t.cells r = some ⟨some w, headPtr ys⟩ := hlinked.2.1
                have hentryNot : CellPtr.entry i ∉ ((r, w) :: ys).map Prod.fst :=
                  (List.nodup_cons.mp hnodup).1
                have hrNot : r ∉ ys.map Prod.fst :=
                  (List.nodup_cons.mp (List.nodup_cons.mp hnodup).2).1
                have hre : CellPtr.entry i ≠ r := fun heq => hentryNot (by simp [heq])
                refine ⟨Function.update (Function.update t.cells (.entry i)
                  (some ⟨some w, headPtr ys⟩)) r none, _, hfind, ?_,
                  h.removed hi hsplit ((.entry i, w) :: ys) ?_ ?_ ?_ rfl⟩
                · show (walk _ _ _ _ _).bind _ = _
                  rw [hwalk, Option.bind_some]
                  show (t.cells (.entry i)).bind _ = _
                  rw [hq, Option.bind_some]
                  show (t.cells r).bind _ = _
                  rw [hr, Option.bind_some]
                · refine Chain.dropBucket ⟨?_, ?_⟩ (fun hnil => nomatch hnil)
                    (fun p hp => (Option.some.inj hp).symm) (fun d hd => htail d (by simp [show d ∈ ys from hd])) ?_
                  · rw [Function.update_of_ne hre, Function.update_self]
                  · refine (hlinked.2.2.update ?_ _).update hrNot _
                    exact fun hmem => hentryNot (List.mem_cons_of_mem _ hmem)
                  · exact List.nodup_cons.mpr ⟨fun hmem => hentryNot (List.mem_cons_of_mem _ hmem),
                      (List.nodup_cons.mp (List.nodup_cons.mp hnodup).2).2⟩
                · intro p hp hmem
                  rw [hsplit] at hmem
                  have hpr : p ≠ r := fun heq => hmem (by simp [heq])
                  rw [Function.update_of_ne hpr, Function.update_of_ne hp]
                · intro d hd
                  rw [hsplit]
                  rcases List.mem_cons.mp hd with rfl | hd
                  · exact List.mem_cons_self
                  · exact List.mem_map_of_mem (List.mem_cons_of_mem _ (List.mem_cons_of_mem _ hd))
        | cons e xs =>
            -- the cell before points past the removed one
            obtain ⟨zs, ⟨r, u⟩, hzs⟩ : ∃ zs last, e :: xs = zs ++ [last] :=
              ⟨(e :: xs).dropLast, (e :: xs).getLast (List.cons_ne_nil _ _), by
                rw [List.dropLast_append_getLast]⟩
            rw [hzs] at hsplit hwalk
            have hlinked := hchain.linked
            have hhead := hchain.head
            have htail := hchain.tail
            rw [hsplit] at hlinked hnodup hhead htail
            have hrq : t.cells r = some ⟨some u, some q⟩ := by
              have hlinked' := hlinked
              rw [List.append_assoc] at hlinked'
              exact hlinked'.append_right.1
            have hnodup' := hnodup
            rw [List.map_append, List.map_cons] at hnodup'
            have hq1 : q ∉ (zs ++ [(r, u)]).map Prod.fst := fun hmem =>
              (List.nodup_append.mp hnodup').2.2 q hmem q (by simp) rfl
            have hq2 : q ∉ ys.map Prod.fst := (List.nodup_cons.mp (List.nodup_append.mp hnodup').2.1).1
            have hr1 : r ∉ (zs ++ ys).map Prod.fst := by
              rw [List.append_assoc, List.map_append, List.singleton_append, List.map_cons] at hnodup
              rw [List.map_append, List.mem_append, not_or]
              refine ⟨fun hmem => (List.nodup_append.mp hnodup).2.2 r hmem r (by simp) rfl, fun hmem => ?_⟩
              exact (List.nodup_cons.mp (List.nodup_append.mp hnodup).2.1).1 (by simp [hmem])
            have hrest : rest ≠ [] := by
              rintro rfl
              have hlength := congrArg List.length (hl.symm.trans hsplit)
              simp only [List.length_append, List.length_cons, List.length_nil] at hlength
              omega
            refine ⟨Function.update (Function.update t.cells r (some ⟨some u, headPtr ys⟩)) q none, _,
              hfind, ?_, h.removed hi hsplit (zs ++ (r, u) :: ys) ?_ ?_ ?_ ?_⟩
            · cases rest with
              | nil => exact absurd rfl hrest
              | cons d rest =>
                  have hlast : (zs ++ [(r, u)]).getLast?.map Prod.fst = some r := by simp
                  rw [hlast] at hwalk
                  show (walk _ _ _ _ _).bind _ = _
                  rw [hwalk, Option.bind_some]
                  show (t.cells q).bind _ = _
                  rw [hq, Option.bind_some]
                  show (t.cells r).bind _ = _
                  rw [hrq, Option.bind_some]
            · have hlinked' := hlinked
              rw [List.append_assoc] at hlinked'
              refine Chain.dropBucket ?_ (fun hnil => absurd hnil (by simp)) (fun p hp => hhead p ?_)
                (fun d hd => htail d ?_) ?_
              · refine (Linked.relink hlinked' hr1 hlinked.append_right.2).update ?_ _
                rw [← List.singleton_append, ← List.append_assoc, List.map_append, List.mem_append, not_or]
                exact ⟨hq1, hq2⟩
              · rw [← hp]
                cases zs <;> rfl
              · cases zs with
                | nil => exact List.mem_cons_of_mem _ hd
                | cons f zs =>
                    have hd : d ∈ zs ++ (r, u) :: ys := hd
                    show d ∈ zs ++ [(r, u)] ++ (q, b) :: ys
                    simp only [List.mem_append, List.mem_cons] at hd ⊢
                    tauto
              · have hperm : (zs ++ (r, u) :: ys).map Prod.fst =
                    (zs ++ [(r, u)]).map Prod.fst ++ ys.map Prod.fst := by simp
                rw [hperm]
                refine List.nodup_append.mpr ⟨(List.nodup_append.mp hnodup').1,
                  (List.nodup_cons.mp (List.nodup_append.mp hnodup').2.1).2, fun a ha c hc => ?_⟩
                exact (List.nodup_append.mp hnodup').2.2 a ha c (List.mem_cons_of_mem _ hc)
            · intro p _ hmem
              rw [hsplit] at hmem
              have hpq : p ≠ q := fun heq => hmem (by simp [heq])
              have hpr : p ≠ r := fun heq => hmem (by simp [heq])
              rw [Function.update_of_ne hpq, Function.update_of_ne hpr]
            · intro d hd
              rw [hsplit]
              refine List.mem_map_of_mem ?_
              simp only [List.mem_append, List.mem_cons] at hd ⊢
              tauto
            · simp

end Remove

/-! ## Right operations -/

section Right

variable {base : VHashArrayBase} {t : VHashArray} {chains : ℕ → List (CellPtr × ℕ)}

/-- Every bucket is reached through the chain of its hash. -/
theorem WF.settled (h : WF base t chains) : Settled base t := by
  refine ⟨h.count, fun b hb => ?_⟩
  obtain ⟨-, i, hi, hhash⟩ := h.live b hb
  have hmem : b ∈ (chains i).map Prod.snd := by
    rw [h.values i hi, List.mem_filter]
    exact ⟨hb, decide_eq_true hhash⟩
  have hne : chains i ≠ [] := by
    intro hnil
    rw [hnil] at hmem
    cases hmem
  exact ⟨i, hhash, (h.chain i hi).linked.reaches ((h.chain i hi).headPtr_eq hne) hmem⟩

/-- The first item with one property among those with another is the first with it at all
exactly if that one has the other property. -/
theorem find?_filter_eq_iff {l : List ℕ} {p q : ℕ → Bool} :
    (l.filter p).find? q = l.find? q ↔ ∀ b ∈ l.find? q, p b = true := by
  induction l with
  | nil => exact iff_of_true rfl fun b hb => nomatch hb
  | cons a rest ih =>
      cases hq : q a with
      | true =>
          rw [List.find?_cons_of_pos hq]
          cases hp : p a with
          | true =>
              rw [List.filter_cons_of_pos hp, List.find?_cons_of_pos hq]
              exact iff_of_true rfl fun b hb => Option.some.inj hb ▸ hp
          | false =>
              rw [List.filter_cons_of_neg (ne_true_of_eq_false hp)]
              refine iff_of_false (fun hfind => ?_) fun hall => ?_
              · have hmem := List.mem_of_find?_eq_some hfind
                exact absurd ((List.mem_filter.mp hmem).2) (ne_true_of_eq_false hp)
              · exact absurd (hall a rfl) (ne_true_of_eq_false hp)
      | false =>
          rw [List.find?_cons_of_neg (ne_true_of_eq_false hq), ← ih]
          cases hp : p a with
          | true =>
              rw [List.filter_cons_of_pos hp, List.find?_cons_of_neg (ne_true_of_eq_false hq)]
          | false => rw [List.filter_cons_of_neg (ne_true_of_eq_false hp)]

/-- What the chain of an item gives is what the list gives, exactly if the earliest bucket
with the key has the hash of the item. -/
theorem find_eq_earliest_iff {item : Mem} {i : ℕ} (hhash : base.hashFunc item = some i) :
    (t.lb.filter fun b => t.hashOf base b = some i).find? (t.matching base item) =
        t.earliest base item ↔
      ∀ b ∈ t.earliest base item, t.hashOf base b = base.hashFunc item := by
  rw [VHashArray.earliest, find?_filter_eq_iff, hhash]
  simp only [decide_eq_true_eq]

theorem right_find_iff (h : WF base t chains) (item : Mem) :
    RightOp base t (.find item) ↔ SoundOp base t (.find item) := by
  cases hhash : base.hashFunc item with
  | none =>
      refine iff_of_false ?_ fun hsound => hsound.1 (hashFunc_eq_none_iff.mp hhash)
      rintro ⟨t', result, hstep, -⟩
      rw [hashStep, vHashArrayFindItem, hhash] at hstep
      cases hstep
  | some i =>
      have hkey : base.keySize ≠ 0 := fun h0 => by
        rw [hashFunc_eq_none_iff.mpr h0] at hhash
        cases hhash
      have hfind := vHashArrayFindItem_eq h hhash
      rw [SoundOp, ← find_eq_earliest_iff hhash]
      constructor
      · rintro ⟨t', result, hstep, ⟨hanswer, -⟩, -⟩
        rw [hashStep, hfind] at hstep
        have hresult := (Prod.mk.inj (Option.some.inj hstep)).2
        exact ⟨hkey, HashResult.bucket.inj (hresult.trans hanswer)⟩
      · rintro ⟨-, heq⟩
        refine ⟨t, _, ?_, ⟨rfl, rfl⟩, h.settled⟩
        rw [hashStep, hfind, heq]
        rfl

theorem right_add_iff (h : WF base t chains) (item : Mem) (itemSize : UInt16) :
    RightOp base t (.add item itemSize) ↔ SoundOp base t (.add item itemSize) := by
  cases hhash : base.hashFunc item with
  | none =>
      refine iff_of_false ?_ fun hsound => hsound.1 (hashFunc_eq_none_iff.mp hhash)
      rintro ⟨t', result, hstep, -⟩
      rw [hashStep, vHashArrayAddItem, hhash] at hstep
      split at hstep <;> cases hstep
  | some i =>
      have hkey : base.keySize ≠ 0 := fun h0 => by
        rw [hashFunc_eq_none_iff.mpr h0] at hhash
        cases hhash
      by_cases hsize : base.keyOffset.toNat + base.keySize.toNat ≤ itemSize.toNat
      case neg =>
        refine iff_of_false ?_ fun hsound => hsize hsound.2.1
        rintro ⟨t', result, hstep, -⟩
        rw [hashStep, vHashArrayAddItem, if_pos (Nat.lt_of_not_le hsize)] at hstep
        cases hstep
      case pos =>
        obtain ⟨cells, nextCell, hadd, hwf⟩ := vHashArrayAddItem_spec h hhash hsize
        constructor
        · rintro ⟨t', result, hstep, -, hsettled⟩
          rw [hashStep, hadd] at hstep
          obtain ⟨rfl, -⟩ := Prod.mk.inj (Option.some.inj hstep)
          refine ⟨hkey, hsize, ?_⟩
          -- a counter that wraps is not the number of buckets
          have hcount : inc32 t.count = (t.lb ++ [t.nextBucket]).length := hsettled.count
          rw [h.count, List.length_append, List.length_singleton, inc32] at hcount
          rw [← hcount]
          exact Nat.mod_lt _ (Nat.two_pow_pos 32)
        · rintro ⟨-, -, hsmall⟩
          obtain ⟨chains', hwf⟩ := hwf hsmall
          refine ⟨_, _, ?_, ⟨t.nextBucket, h.next_not_mem, rfl, rfl, rfl⟩, hwf.settled⟩
          rw [hashStep, hadd]
          rfl

theorem right_remove_iff (h : WF base t chains) (item : Mem) :
    RightOp base t (.remove item) ↔ SoundOp base t (.remove item) := by
  cases hhash : base.hashFunc item with
  | none =>
      refine iff_of_false ?_ fun hsound => hsound.1 (hashFunc_eq_none_iff.mp hhash)
      rintro ⟨t', result, hstep, -⟩
      rw [hashStep, vHashArrayRemoveItem, hhash] at hstep
      cases hstep
  | some i =>
      have hkey : base.keySize ≠ 0 := fun h0 => by
        rw [hashFunc_eq_none_iff.mpr h0] at hhash
        cases hhash
      have hearliest : ∀ b ∈ t.earliest base item, b ∈ t.lb := fun b hb => List.mem_of_find?_eq_some hb
      rw [SoundOp, ← find_eq_earliest_iff hhash]
      rcases vHashArrayRemoveItem_spec h hhash with ⟨hfind, hremove⟩ | ⟨b, cells, chains', hfind, hremove, hwf⟩
      · rw [hfind]
        constructor
        · rintro ⟨t', result, hstep, hanswer, -⟩
          rw [hashStep, hremove] at hstep
          obtain ⟨-, rfl⟩ := Prod.mk.inj (Option.some.inj hstep)
          refine ⟨hkey, ?_⟩
          cases hgoal : t.earliest base item with
          | none => rfl
          | some b =>
              rw [Answer, hgoal] at hanswer
              exact absurd (HashResult.removed.inj hanswer.1) (by decide)
        · rintro ⟨-, heq⟩
          refine ⟨t, .removed 0, ?_, ?_, h.settled⟩
          · rw [hashStep, hremove]
            rfl
          · rw [Answer, ← heq]
            exact ⟨rfl, rfl⟩
      · rw [hfind]
        have hb : b ∈ t.lb := (List.mem_filter.mp (List.mem_of_find?_eq_some hfind)).1
        constructor
        · rintro ⟨t', result, hstep, hanswer, -⟩
          rw [hashStep, hremove] at hstep
          obtain ⟨rfl, rfl⟩ := Prod.mk.inj (Option.some.inj hstep)
          refine ⟨hkey, ?_⟩
          cases hgoal : t.earliest base item with
          | none =>
              rw [Answer, hgoal] at hanswer
              exact absurd (HashResult.removed.inj hanswer.1) (by decide)
          | some b' =>
              rw [Answer, hgoal] at hanswer
              have herase : t.lb.erase b = t.lb.erase b' := hanswer.2.1
              -- the list has lost only one bucket
              by_contra hne
              have hmem : b ∈ t.lb.erase b' :=
                (List.mem_erase_of_ne fun heq => hne (congrArg some heq)).mpr hb
              rw [← herase] at hmem
              exact h.nodup.not_mem_erase hmem
        · rintro ⟨-, heq⟩
          refine ⟨_, .removed 1, ?_, ?_, hwf.settled⟩
          · rw [hashStep, hremove]
            rfl
          · rw [Answer, ← heq]
            exact ⟨rfl, rfl, rfl⟩

theorem rightOp_iff (h : WF base t chains) (op : HashOp) : RightOp base t op ↔ SoundOp base t op := by
  cases op with
  | find item => exact right_find_iff h item
  | add item itemSize => exact right_add_iff h item itemSize
  | remove item => exact right_remove_iff h item

/-- A right operation keeps the invariant. -/
theorem WF.step (h : WF base t chains) {op : HashOp} (hright : RightOp base t op) {t' : VHashArray}
    (hstep : hashRun base t op = some t') : ∃ chains', WF base t' chains' := by
  have hsound := (rightOp_iff h op).mp hright
  have hhash : ∀ item, ∃ i, base.hashFunc item = some i := by
    intro item
    refine Option.ne_none_iff_exists'.mp fun hnone => ?_
    have hkey := hashFunc_eq_none_iff.mp hnone
    cases op with
    | find item => exact hsound.1 hkey
    | add item itemSize => exact hsound.1 hkey
    | remove item => exact hsound.1 hkey
  unfold hashRun at hstep
  cases op with
  | find item =>
      obtain ⟨i, hi⟩ := hhash item
      rw [hashStep, vHashArrayFindItem_eq h hi] at hstep
      obtain rfl := Option.some.inj hstep
      exact ⟨chains, h⟩
  | add item itemSize =>
      obtain ⟨i, hi⟩ := hhash item
      obtain ⟨cells, nextCell, hadd, hwf⟩ := vHashArrayAddItem_spec h hi hsound.2.1
      rw [hashStep, hadd] at hstep
      obtain rfl := Option.some.inj hstep
      exact hwf hsound.2.2
  | remove item =>
      obtain ⟨i, hi⟩ := hhash item
      rcases vHashArrayRemoveItem_spec h hi with ⟨-, hremove⟩ | ⟨b, cells, chains', -, hremove, hwf⟩
      · rw [hashStep, hremove] at hstep
        obtain rfl := Option.some.inj hstep
        exact ⟨chains, h⟩
      · rw [hashStep, hremove] at hstep
        obtain rfl := Option.some.inj hstep
        exact ⟨chains', hwf⟩

end Right

/-! ## Hashes of keys -/

theorem number_congr {data data' : Mem} {bound off width : ℕ} (hagree : Agree bound data data')
    (hend : off + width ≤ bound) : number data off width = number data' off width := by
  unfold number
  congr 1
  refine List.map_congr_left fun i hi => ?_
  rw [List.mem_range] at hi
  exact hagree _ (by omega)

theorem sumWords_congr {data data' : Mem} {bound width n : ℕ} (hagree : Agree bound data data')
    (hend : width * n ≤ bound) : sumWords data width n = sumWords data' width n := by
  unfold sumWords
  congr 1
  refine List.map_congr_left fun j hj => number_congr hagree ?_
  rw [List.mem_range] at hj
  calc width * j + width = width * (j + 1) := (Nat.mul_succ _ _).symm
    _ ≤ width * n := Nat.mul_le_mul_left _ hj
    _ ≤ bound := hend

/-- `memcmp` compares the bytes of the keys. -/
theorem sameKey_iff {base : VHashArrayBase} {item data : Mem} :
    base.sameKey item data = true ↔
      Agree base.keySize.toNat (item.shift base.keyOffset.toNat) (data.shift base.keyOffset.toNat) := by
  unfold VHashArrayBase.sameKey Agree
  simp only [List.all_eq_true, List.mem_range, beq_iff_eq, shift_apply]

/-- **The hash depends on the key only** with `HASH_MOD_256`, and with `HASH_MOD_65536` if the
size of the key is a multiple of four. -/
theorem hashFunc_congr {base : VHashArrayBase} {item data : Mem}
    (hbase : base.hashMod = .mod256 ∨ base.keySize.toNat % 4 = 0)
    (hkey : base.sameKey item data = true) : base.hashFunc item = base.hashFunc data := by
  have hagree := sameKey_iff.mp hkey
  unfold VHashArrayBase.hashFunc
  cases hmod : base.hashMod with
  | mod256 =>
      simp only [vHashFuncUint16]
      by_cases hzero : base.keySize.toNat = 0
      · rw [if_pos hzero, if_pos hzero]
      by_cases heven : base.keySize.toNat % 2 = 0
      · have hwords : 2 * passes 2 base.keySize.toNat ≤ base.keySize.toNat := by
          unfold passes
          omega
        rw [if_neg hzero, if_neg hzero, if_pos heven, if_pos heven, sumWords_congr hagree hwords]
      · have hwords : 2 * passes 2 (base.keySize.toNat - 1) + 1 ≤ base.keySize.toNat := by
          unfold passes
          omega
        rw [if_neg hzero, if_neg hzero, if_neg heven, if_neg heven,
          sumWords_congr hagree (Nat.le_of_succ_le hwords), number_congr hagree hwords]
  | mod65536 =>
      have hfour : base.keySize.toNat % 4 = 0 := by
        rcases hbase with h | h
        · rw [hmod] at h
          cases h
        · exact h
      simp only [vHashFuncUint32]
      by_cases hzero : base.keySize.toNat = 0
      · rw [if_pos hzero, if_pos hzero]
      · have hwords : 4 * passes 4 base.keySize.toNat ≤ base.keySize.toNat := by
          unfold passes
          omega
        rw [if_neg hzero, if_neg hzero, if_pos hfour, if_pos hfour, sumWords_congr hagree hwords]

/-- With such a hash function every search is sound. -/
theorem sound_of_hashMod {base : VHashArrayBase} (hkey : base.keySize ≠ 0)
    (hbase : base.hashMod = .mod256 ∨ base.keySize.toNat % 4 = 0) (t : VHashArray) (item : Mem) :
    SoundOp base t (.find item) ∧ SoundOp base t (.remove item) := by
  have hsound : ∀ b ∈ t.earliest base item, t.hashOf base b = base.hashFunc item := by
    intro b hb
    have hmatch : t.matching base item b = true := List.find?_some hb
    unfold VHashArray.matching at hmatch
    unfold VHashArray.hashOf
    cases hdata : t.data b with
    | none =>
        rw [hdata] at hmatch
        cases hmatch
    | some data =>
        rw [hdata] at hmatch
        exact (hashFunc_congr hbase hmatch).symm
  exact ⟨⟨hkey, hsound⟩, ⟨hkey, hsound⟩⟩

/-- **A hashed list is an insertion-ordered multimap** in a run from `v_hash_array_init` on
exactly if all its operations meet the condition. -/
theorem hashArray_right_iff (base : VHashArrayBase) (ops : List HashOp) :
    Admissible (hashRun base) (RightOp base) (vHashArrayInit base) ops ↔
      Admissible (hashRun base) (SoundOp base) (vHashArrayInit base) ops := by
  refine @admissible_congr_of_invariant _ _ (hashRun base) (RightOp base) (SoundOp base)
    (fun t => ∃ chains, WF base t chains) ?_ ?_ _ ⟨_, wf_init base⟩ ops
  · rintro t op ⟨chains, h⟩
    exact rightOp_iff h op
  · rintro t op t' ⟨chains, h⟩ hright hstep
    exact h.step hright hstep

/-- Keys of one byte with `HASH_MOD_65536`. -/
def byteKeys : VHashArrayBase := ⟨.mod65536, 0, 1⟩

/-- Two items with the same key, the first of which is not found with the second. -/
theorem not_hashArray_right :
    ¬ ∀ (base : VHashArrayBase) (ops : List HashOp), base.keySize ≠ 0 →
      Admissible (hashRun base) (RightOp base) (vHashArrayInit base) ops := by
  intro hall
  have hadm := hall byteKeys [.add (ofBytes [1, 2, 3]) 3, .find (ofBytes [1, 9, 9])] (by decide)
  obtain ⟨t, hadd⟩ : ∃ t, hashRun byteKeys (vHashArrayInit byteKeys) (.add (ofBytes [1, 2, 3]) 3) =
      some t := ⟨_, rfl⟩
  obtain ⟨t', result, hstep, ⟨hanswer, -⟩, -⟩ := (hadm.2 t hadd).1
  have hnull : ((hashRun byteKeys (vHashArrayInit byteKeys) (.add (ofBytes [1, 2, 3]) 3)).bind fun t =>
      (hashStep byteKeys t (.find (ofBytes [1, 9, 9]))).map Prod.snd) = some (.bucket none) := by
    decide +kernel
  have hfirst : ((hashRun byteKeys (vHashArrayInit byteKeys) (.add (ofBytes [1, 2, 3]) 3)).map fun t =>
      t.earliest byteKeys (ofBytes [1, 9, 9])) = some (some 0) := by
    decide +kernel
  rw [hadd, Option.bind_some, hstep, Option.map_some] at hnull
  rw [hadd, Option.map_some] at hfirst
  rw [hanswer, Option.some.inj hfirst] at hnull
  exact absurd (HashResult.bucket.inj (Option.some.inj hnull)) (by decide)

end Verse.HashedList
