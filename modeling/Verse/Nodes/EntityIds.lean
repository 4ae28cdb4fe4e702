import Mathlib.Data.Finset.Card
import Verse.Lib.Chains
import Verse.Lib.Run
import Verse.Nodes.Layers
import Verse.Nodes.TagGroups
import Verse.Queues.HashArray

/-!
# Ids of tag groups, tags and layers

`vs_taggroup_create`, `vs_tag_create` and `vs_layer_create` look for a free id in the hashed
linked list of the items: an id is counted up until no item has it, and after the last id the
first one is next.

* The list finds an item by its id in one of its chains (`EntityArray.findItem_eq`).
* There are more ids than items, so that one of them is free, and the search meets it
  (`searchId_cycle`).
* The search for the id of a tag group or of a tag starts at the last id that was given out.
  The search for the id of a layer starts one past it, which after the last id is the reserved
  one.  It is tested like any other id, and taken (`layer_ids_fresh_iff`).
-/

namespace Verse

open Lib

/-! ## Hashed linked lists of items with an id -/

/-- `VHashArrayBase` of tag groups, tags or layers: the ids and addresses of the items in the
order in which they were added, and again in chains.  An item keeps its id. -/
structure EntityArray where
  lb : HashTable
  buckets : ℕ → HashTable
  count : ℕ

namespace EntityArray

/-- `v_hash_array_init`. -/
def init : EntityArray := ⟨[], fun _ => [], 0⟩

/-- `v_hash_func_uint16`, where the key is one `uint16`. -/
def index (id : ℕ) : ℕ := id % hashLength

/-- `v_hash_array_find_item`. -/
def findItem (t : EntityArray) (id : ℕ) : Option (ℕ × ℕ) :=
  (t.buckets (index id)).find? fun b => b.1 == id

/-- `v_hash_array_add_item`. -/
def addItem (t : EntityArray) (b : ℕ × ℕ) : EntityArray where
  lb := t.lb ++ [b]
  buckets := Function.update t.buckets (index b.1) (t.buckets (index b.1) ++ [b])
  count := inc32 t.count

/-- `v_hash_array_remove_item`. -/
def removeItem (t : EntityArray) (id : ℕ) : EntityArray :=
  match t.findItem id with
  | none => t
  | some b =>
      { lb := t.lb.erase b
        buckets := Function.update t.buckets (index id) ((t.buckets (index id)).erase b)
        count := dec32 t.count }

/-- The ids of the items. -/
def ids (t : EntityArray) : List ℕ := t.lb.map Prod.fst

/-- No id is used twice, and the chains are those of the list. -/
structure WF (t : EntityArray) : Prop where
  keys : t.ids.Nodup
  split : SplitBy (fun b : ℕ × ℕ => index b.1) t.lb t.buckets
  count : t.count = t.lb.length % 2 ^ 32

theorem wf_init : init.WF where
  keys := List.nodup_nil
  split _ := rfl
  count := rfl

variable {t : EntityArray} {id : ℕ} {b : ℕ × ℕ}

/-- An item is found by its id wherever it stands in the list. -/
theorem findItem_eq (h : t.WF) (id : ℕ) : t.findItem id = t.lb.find? fun b => b.1 == id := by
  apply h.split.find?
  intro b _ hb
  rw [beq_iff_eq.mp hb]

theorem findItem_isSome_iff (h : t.WF) : (t.findItem id).isSome ↔ id ∈ t.ids := by
  rw [findItem_eq h, List.find?_isSome, ids, List.mem_map]
  constructor
  · rintro ⟨b, hb, hid⟩
    exact ⟨b, hb, beq_iff_eq.mp hid⟩
  · rintro ⟨b, hb, rfl⟩
    exact ⟨b, hb, beq_self_eq_true b.1⟩

theorem nodup_lb (h : t.WF) : t.lb.Nodup := h.keys.of_map

theorem WF.addItem (h : t.WF) (hfree : b.1 ∉ t.ids) : (t.addItem b).WF where
  keys := by
    simp only [ids, EntityArray.addItem, List.map_append, List.map_cons, List.map_nil]
    refine List.Nodup.append h.keys (List.nodup_singleton b.1) ?_
    rw [List.disjoint_singleton]
    exact hfree
  split := h.split.append b
  count := by
    simp only [EntityArray.addItem, h.count, inc32_mod, List.length_append, List.length_singleton]

theorem findItem_eq_some (h : t.WF) (hb : t.findItem id = some b) : b ∈ t.lb ∧ b.1 = id := by
  rw [findItem_eq h] at hb
  exact ⟨List.mem_of_find?_eq_some hb, by simpa using List.find?_some hb⟩

theorem WF.removeItem (h : t.WF) (id : ℕ) : (t.removeItem id).WF := by
  unfold EntityArray.removeItem
  split
  · exact h
  rename_i b hb
  obtain ⟨hmem, rfl⟩ := findItem_eq_some h hb
  refine ⟨h.keys.sublist (List.erase_sublist.map _), h.split.erase (nodup_lb h) b, ?_⟩
  simp only [h.count, List.length_erase_of_mem hmem]
  exact dec32_mod (List.length_pos_of_mem hmem)

theorem removeItem_length_le (t : EntityArray) (id : ℕ) :
    (t.removeItem id).lb.length ≤ t.lb.length := by
  unfold removeItem
  split
  · exact Nat.le_refl _
  · exact List.erase_sublist.length_le

/-- Removing an item from the hashed linked list removes it from the table. -/
theorem removeItem_lb (h : t.WF) (id : ℕ) :
    (t.removeItem id).lb = t.lb.removeItem id := by
  unfold removeItem HashTable.removeItem
  split
  · rename_i hnone
    rw [findItem_eq h, List.find?_eq_none] at hnone
    exact (List.eraseP_of_forall_not hnone).symm
  · rename_i b hb
    rw [findItem_eq h, List.find?_eq_some_iff_append] at hb
    obtain ⟨hid, before, after, hlb, hbefore⟩ := hb
    have hnotin : b ∉ before := by
      intro hmem
      have hne := hbefore b hmem
      rw [hid] at hne
      cases hne
    have hnone : ∀ c ∈ before, ¬ (c.1 == id) = true := fun c hc => by simpa using hbefore c hc
    simp only [hlb]
    rw [List.erase_append_right _ hnotin, List.erase_cons_head,
      List.eraseP_append_right _ hnone]
    simp only [List.eraseP_cons, hid, cond_true]

end EntityArray

/-! ## The search -/

/-- The ids of the tag groups or of the layers of a node, or of the tags of a tag group: the
items, and the id the next search starts with. -/
structure IdTable where
  items : EntityArray
  hint : ℕ

/-- The loop of the search.  The number of the ids bounds the number of its steps. -/
def searchId (t : EntityArray) : ℕ → ℕ → Option ℕ
  | 0, _ => none
  | fuel + 1, id =>
      if (t.findItem id).isSome then
        let id := (id + 1) % 65536
        searchId t fuel (if lastEntityId < id then firstEntityId else id)
      else some id

/-- Creating an item at address `a` with the reserved id: `allowed` is the test of the number of
items, and `next` what is kept for the next search.  The result is the new table and the id,
and there is none when the search does not end. -/
def createId (allowed : ℕ → Bool) (next : ℕ → ℕ) (t : IdTable) (a : ℕ) :
    Option (Option (IdTable × ℕ)) :=
  if allowed t.items.count then
    (searchId t.items 131072 t.hint).map fun id => some (⟨t.items.addItem (id, a), next id⟩, id)
  else some none

/-- `vs_taggroup_create`. -/
def taggroupCreateId : IdTable → ℕ → Option (Option (IdTable × ℕ)) :=
  createId (fun count => count < maxEntityCount) fun id => id

/-- `vs_tag_create`, with the test of `vs_handle_tag_create`. -/
def tagCreateId : IdTable → ℕ → Option (Option (IdTable × ℕ)) :=
  createId (fun count => count ≤ maxEntityCount) fun id => id

/-- `vs_layer_create`, with the test of `vs_handle_layer_create`. -/
def layerCreateId : IdTable → ℕ → Option (Option (IdTable × ℕ)) :=
  createId (fun count => count ≤ maxEntityCount) fun id => (id + 1) % 65536

variable {t : EntityArray} {fuel : ℕ}

theorem searchId_of_free (h : t.WF) {start : ℕ} (hfree : start ∉ t.ids) :
    searchId t (fuel + 1) start = some start := by
  have hnone : ¬ (t.findItem start).isSome := fun hsome =>
    hfree ((EntityArray.findItem_isSome_iff h).mp hsome)
  rw [searchId, if_neg hnone]

/-- The first ids are in use up to one that is free. -/
theorem searchId_cycle (h : t.WF) {k start : ℕ} (hstart : start ≤ lastEntityId) (hfuel : k < fuel)
    (hfree : (start + k) % (lastEntityId + 1) ∉ t.ids) :
    ∃ id, searchId t fuel start = some id ∧ id ≤ lastEntityId ∧ id ∉ t.ids := by
  induction k generalizing start fuel with
  | zero =>
      obtain ⟨fuel, rfl⟩ : ∃ f, fuel = f + 1 := ⟨fuel - 1, by omega⟩
      have hstart' : start % (lastEntityId + 1) = start :=
        Nat.mod_eq_of_lt (Nat.lt_succ_of_le hstart)
      rw [Nat.add_zero, hstart'] at hfree
      exact ⟨start, searchId_of_free h hfree, hstart, hfree⟩
  | succ k ih =>
      obtain ⟨fuel, rfl⟩ : ∃ f, fuel = f + 1 := ⟨fuel - 1, by omega⟩
      by_cases hsome : (t.findItem start).isSome
      · rw [searchId, if_pos hsome]
        -- the next id, where the first one follows the last one
        have hnext : (if lastEntityId < (start + 1) % 65536 then firstEntityId
            else (start + 1) % 65536) = (start + 1) % (lastEntityId + 1) := by
          rcases Nat.lt_or_eq_of_le hstart with hlt | rfl
          · have hsucc : (start + 1) % 65536 = start + 1 := by
              simp only [lastEntityId] at hlt
              omega
            rw [hsucc, if_neg (Nat.not_lt.mpr hlt), Nat.mod_eq_of_lt (Nat.succ_lt_succ hlt)]
          · rfl
        simp only [hnext]
        apply ih
        · exact Nat.le_of_lt_succ (Nat.mod_lt _ (Nat.succ_pos _))
        · omega
        · rw [Nat.mod_add_mod]
          have heq : start + 1 + k = start + (k + 1) := by omega
          rw [heq]
          exact hfree
      · have hfree : start ∉ t.ids := fun hmem =>
          hsome ((EntityArray.findItem_isSome_iff h).mpr hmem)
        exact ⟨start, searchId_of_free h hfree, hstart, hfree⟩

/-- There are more ids than items, so that one is free. -/
theorem exists_free_id (hlen : t.lb.length ≤ maxEntityCount) :
    ∃ id, id ≤ lastEntityId ∧ id ∉ t.ids := by
  have hcard : t.ids.toFinset.card < (Finset.range (lastEntityId + 1)).card := by
    rw [Finset.card_range]
    calc t.ids.toFinset.card ≤ t.ids.length := List.toFinset_card_le t.ids
      _ = t.lb.length := List.length_map _
      _ ≤ maxEntityCount := hlen
      _ < lastEntityId + 1 := by decide
  obtain ⟨id, hid, hfree⟩ := Finset.exists_mem_notMem_of_card_lt_card hcard
  exact ⟨id, Nat.le_of_lt_succ (Finset.mem_range.mp hid), by simpa using hfree⟩

/-- The search that starts with an id for use ends with a free one. -/
theorem searchId_valid (fuel : ℕ) (h : t.WF) (hlen : t.lb.length ≤ maxEntityCount) {start : ℕ}
    (hstart : start ≤ lastEntityId) (hfuel : lastEntityId < fuel) :
    ∃ id, searchId t fuel start = some id ∧ id ≤ lastEntityId ∧ id ∉ t.ids := by
  obtain ⟨id, hid, hfree⟩ := exists_free_id hlen
  -- so many steps after the start
  refine searchId_cycle h hstart (k := (id + (lastEntityId + 1) - start) % (lastEntityId + 1)) ?_ ?_
  · exact Nat.lt_of_le_of_lt (Nat.le_of_lt_succ (Nat.mod_lt _ (Nat.succ_pos _))) hfuel
  · have heq : (start + (id + (lastEntityId + 1) - start) % (lastEntityId + 1)) %
        (lastEntityId + 1) = id := by
      simp only [lastEntityId] at hid hstart ⊢
      omega
    rw [heq]
    exact hfree

/-- The search that starts with the reserved id takes it when no item has it. -/
theorem searchId_reserved (fuel : ℕ) (h : t.WF) (hlen : t.lb.length ≤ maxEntityCount)
    (hfuel : lastEntityId + 1 < fuel) :
    ∃ id, searchId t fuel reservedEntityId = some id ∧ id ∉ t.ids ∧
      (id ≤ lastEntityId ↔ reservedEntityId ∈ t.ids) := by
  obtain ⟨fuel, rfl⟩ : ∃ f, fuel = f + 1 := ⟨fuel - 1, by omega⟩
  by_cases hsome : (t.findItem reservedEntityId).isSome
  · obtain ⟨id, hsearch, hid, hfree⟩ :=
      searchId_valid fuel h hlen (Nat.zero_le lastEntityId) (Nat.lt_of_succ_lt_succ hfuel)
    refine ⟨id, ?_, hfree, fun _ => (EntityArray.findItem_isSome_iff h).mp hsome, fun _ => hid⟩
    rw [searchId, if_pos hsome]
    exact hsearch
  · have hfree : reservedEntityId ∉ t.ids := fun hmem =>
      hsome ((EntityArray.findItem_isSome_iff h).mpr hmem)
    refine ⟨reservedEntityId, searchId_of_free h hfree, hfree, fun hle => ?_, fun hmem =>
      absurd hmem hfree⟩
    exact absurd hle (by decide)

/-! ## Creations and removals -/

/-- An item is created at an address, or the item with an id is removed. -/
inductive IdEvent where
  | create (a : ℕ)
  | remove (id : ℕ)
  deriving DecidableEq, Repr

namespace IdTable

/-- A new node, or a new tag group. -/
def init : IdTable := ⟨EntityArray.init, 0⟩

/-- An item that may not be created leaves the table as it is. -/
def step (create : IdTable → ℕ → Option (Option (IdTable × ℕ))) (t : IdTable) :
    IdEvent → Option IdTable
  | .create a => (create t a).map fun created => (created.map Prod.fst).getD t
  | .remove id => some { t with items := t.items.removeItem id }

/-- The result of a creation is a new item with an id for use that no other item has. -/
def GivesFreshId (t : IdTable) (a : ℕ) (result : Option (Option (IdTable × ℕ))) : Prop :=
  ∃ t' id, result = some (some (t', id)) ∧ t'.items.lb = t.items.lb ++ [(id, a)] ∧
    id ∉ t.items.ids ∧ firstEntityId ≤ id ∧ id ≤ lastEntityId

/-- The count is exact, and the next search starts below `bound`. -/
structure Valid (bound : ℕ) (t : IdTable) : Prop where
  wf : t.items.WF
  length_le : t.items.lb.length ≤ maxEntityCount + 1
  hint : t.hint < bound

variable {t t' : IdTable} {bound : ℕ}

theorem valid_init (hbound : 0 < bound) : init.Valid bound :=
  ⟨EntityArray.wf_init, Nat.zero_le _, hbound⟩

theorem Valid.count (h : t.Valid bound) : t.items.count = t.items.lb.length := by
  rw [h.wf.count]
  apply Nat.mod_eq_of_lt
  exact Nat.lt_of_le_of_lt h.length_le (by decide)

theorem Valid.remove (h : t.Valid bound) (id : ℕ) :
    Valid bound { t with items := t.items.removeItem id } where
  wf := h.wf.removeItem id
  length_le := Nat.le_trans (EntityArray.removeItem_length_le t.items id) h.length_le
  hint := h.hint

theorem Valid.add (h : t.Valid bound) {id a hint : ℕ} (hlen : t.items.lb.length ≤ maxEntityCount)
    (hfree : id ∉ t.items.ids) (hhint : hint < bound) :
    Valid bound ⟨t.items.addItem (id, a), hint⟩ where
  wf := h.wf.addItem hfree
  length_le := by
    simp only [EntityArray.addItem, List.length_append, List.length_singleton]
    exact Nat.succ_le_succ hlen
  hint := hhint

/-- A run of a table ends, and keeps what every creation keeps. -/
theorem run_valid {create : IdTable → ℕ → Option (Option (IdTable × ℕ))}
    (hcreate : ∀ t a, Valid bound t → ∃ created, create t a = some created ∧
      Valid bound ((created.map Prod.fst).getD t))
    (events : List IdEvent) (h : Valid bound t) :
    ∃ t', run (step create) t events = some t' ∧ Valid bound t' := by
  induction events generalizing t with
  | nil => exact ⟨t, rfl, h⟩
  | cons event rest ih =>
      obtain ⟨t₁, hstep, ht₁⟩ : ∃ t₁, step create t event = some t₁ ∧ Valid bound t₁ := by
        cases event with
        | create a =>
            obtain ⟨created, hcreated, hvalid⟩ := hcreate t a h
            exact ⟨_, by rw [step, hcreated, Option.map_some], hvalid⟩
        | remove id => exact ⟨_, rfl, h.remove id⟩
      rw [run_cons hstep]
      exact ih ht₁

/-! ### Tag groups and tags -/

/-- The search starts at an id for use, whatever the limit is, and the next one does. -/
theorem Valid.createId_fresh (h : t.Valid (lastEntityId + 1)) (allowed : ℕ → Bool) {a : ℕ}
    (hallowed : allowed t.items.count) (hlimit : t.items.count ≤ maxEntityCount) :
    ∃ t' id, createId allowed (fun id => id) t a = some (some (t', id)) ∧
      t'.Valid (lastEntityId + 1) ∧ GivesFreshId t a (some (some (t', id))) := by
  rw [h.count] at hlimit
  obtain ⟨id, hsearch, hid, hfree⟩ :=
    searchId_valid 131072 h.wf hlimit (Nat.le_of_lt_succ h.hint) (by decide)
  refine ⟨_, id, ?_, h.add hlimit hfree (Nat.lt_succ_of_le hid), _, id, rfl, rfl, hfree,
    Nat.zero_le id, hid⟩
  rw [createId, if_pos hallowed, hsearch, Option.map_some]

/-- **Ids of tag groups and tags.**  After any creations and removals, the creation of a tag
group or of a tag that the limit allows ends, and gives an id for use that is free. -/
theorem taggroup_and_tag_ids_fresh (events : List IdEvent) :
    (∃ t, run (step taggroupCreateId) init events = some t ∧
      (t.items.count < maxEntityCount → ∀ a, GivesFreshId t a (taggroupCreateId t a))) ∧
    ∃ t, run (step tagCreateId) init events = some t ∧
      (t.items.count ≤ maxEntityCount → ∀ a, GivesFreshId t a (tagCreateId t a)) := by
  have hinit : init.Valid (lastEntityId + 1) := valid_init (Nat.succ_pos _)
  -- the limit holds for what is allowed
  have hcreate : ∀ allowed : ℕ → Bool, (∀ count, allowed count → count ≤ maxEntityCount) →
      ∀ t a, Valid (lastEntityId + 1) t → ∃ created,
        createId allowed (fun id => id) t a = some created ∧
          Valid (lastEntityId + 1) ((created.map Prod.fst).getD t) := by
    intro allowed hlimit t a ht
    by_cases hallowed : allowed t.items.count
    · obtain ⟨t', id, hcreated, ht', -⟩ := ht.createId_fresh allowed (a := a) hallowed
        (hlimit _ hallowed)
      exact ⟨_, hcreated, ht'⟩
    · exact ⟨none, by rw [createId, if_neg hallowed], ht⟩
  constructor
  · obtain ⟨t, hrun, ht⟩ := run_valid (hcreate (fun count => count < maxEntityCount)
      fun count hcount => Nat.le_of_lt (of_decide_eq_true hcount)) events hinit
    refine ⟨t, hrun, fun hlimit a => ?_⟩
    obtain ⟨t', id, hcreated, -, hfresh⟩ := ht.createId_fresh
      (fun count => count < maxEntityCount) (a := a) (decide_eq_true hlimit) (Nat.le_of_lt hlimit)
    rw [taggroupCreateId, hcreated]
    exact hfresh
  · obtain ⟨t, hrun, ht⟩ := run_valid (hcreate (fun count => count ≤ maxEntityCount)
      fun count hcount => of_decide_eq_true hcount) events hinit
    refine ⟨t, hrun, fun hlimit a => ?_⟩
    obtain ⟨t', id, hcreated, -, hfresh⟩ := ht.createId_fresh
      (fun count => count ≤ maxEntityCount) (a := a) (decide_eq_true hlimit) hlimit
    rw [tagCreateId, hcreated]
    exact hfresh

/-! ### Layers -/

/-- The search for the id of a layer ends, and its result is free. -/
theorem Valid.layerCreateId_free (h : t.Valid 65536) {a : ℕ}
    (hlimit : t.items.count ≤ maxEntityCount) :
    ∃ id, layerCreateId t a = some (some (⟨t.items.addItem (id, a), (id + 1) % 65536⟩, id)) ∧
      id ∉ t.items.ids ∧
      (id ≤ lastEntityId ↔ t.hint ≤ lastEntityId ∨ reservedEntityId ∈ t.items.ids) := by
  have hallowed : decide (t.items.count ≤ maxEntityCount) = true := decide_eq_true hlimit
  rw [h.count] at hlimit
  rcases Nat.lt_or_ge lastEntityId t.hint with hlast | hhint
  · -- the search starts with the reserved id
    have hreserved : t.hint = reservedEntityId := by
      have hlt := h.hint
      simp only [lastEntityId, reservedEntityId] at hlast ⊢
      omega
    obtain ⟨id, hsearch, hfree, hid⟩ := searchId_reserved 131072 h.wf hlimit (by decide)
    refine ⟨id, ?_, hfree, hid.trans ?_⟩
    · rw [layerCreateId, createId, if_pos hallowed, hreserved, hsearch, Option.map_some]
    · simp [Nat.not_le.mpr hlast]
  · obtain ⟨id, hsearch, hid, hfree⟩ :=
      searchId_valid 131072 h.wf hlimit hhint (by decide)
    refine ⟨id, ?_, hfree, by simp [hid, hhint]⟩
    rw [layerCreateId, createId, if_pos hallowed, hsearch, Option.map_some]

theorem layer_run_valid (events : List IdEvent) :
    ∃ t, run (step layerCreateId) init events = some t ∧ t.Valid 65536 := by
  refine run_valid (fun t a ht => ?_) events (valid_init (by decide))
  by_cases hlimit : t.items.count ≤ maxEntityCount
  · obtain ⟨id, hcreated, hfree, -⟩ := ht.layerCreateId_free (a := a) hlimit
    rw [ht.count] at hlimit
    exact ⟨_, hcreated, ht.add hlimit hfree (Nat.mod_lt _ (by decide))⟩
  · refine ⟨none, ?_, ht⟩
    rw [layerCreateId, createId, if_neg (by simpa using hlimit)]

/-- **Ids of layers.**  After any creations and removals, the creation of a layer that the
limit allows ends with an id that is free.  The id is one for use unless the search starts
with the reserved id and no layer has it. -/
theorem layer_ids_fresh_iff (events : List IdEvent) :
    ∃ t, run (step layerCreateId) init events = some t ∧ (t.items.count ≤ maxEntityCount → ∀ a,
      (∃ t' id, layerCreateId t a = some (some (t', id)) ∧ id ∉ t.items.ids) ∧
      (GivesFreshId t a (layerCreateId t a) ↔
        t.hint ≤ lastEntityId ∨ reservedEntityId ∈ t.items.ids)) := by
  obtain ⟨t, hrun, ht⟩ := layer_run_valid events
  refine ⟨t, hrun, fun hlimit a => ?_⟩
  obtain ⟨id, hcreated, hfree, hid⟩ := ht.layerCreateId_free (a := a) hlimit
  refine ⟨⟨_, id, hcreated, hfree⟩, ?_⟩
  rw [← hid, hcreated]
  constructor
  · rintro ⟨t', id', heq, -, -, -, hlast⟩
    obtain ⟨-, rfl⟩ := Prod.mk.inj (Option.some.inj (Option.some.inj heq))
    exact hlast
  · exact fun hlast => ⟨_, id, rfl, rfl, hfree, Nat.zero_le id, hlast⟩

/-- A layer gets the id the search starts with when it is free. -/
theorem Valid.layerCreateId_of_free (h : t.Valid bound) {a : ℕ}
    (hlimit : t.items.count ≤ maxEntityCount) (hfree : t.hint ∉ t.items.ids) :
    layerCreateId t a =
      some (some (⟨t.items.addItem (t.hint, a), (t.hint + 1) % 65536⟩, t.hint)) := by
  have hallowed : decide (t.items.count ≤ maxEntityCount) = true := decide_eq_true hlimit
  have hsearch : searchId t.items 131072 t.hint = some t.hint := searchId_of_free h.wf hfree
  rw [layerCreateId, createId, if_pos hallowed, hsearch, Option.map_some]

/-- Layers are created and removed again, one after the other. -/
def layersInTurn (k : ℕ) : List IdEvent :=
  (List.range k).flatMap fun id => [.create 0, .remove id]

/-- The table is empty again, and the search has come to the next id. -/
theorem run_layersInTurn {k : ℕ} (hk : k ≤ reservedEntityId) :
    ∃ t, run (step layerCreateId) init (layersInTurn k) = some t ∧ t.Valid 65536 ∧
      t.items.lb = [] ∧ t.hint = k := by
  induction k with
  | zero => exact ⟨init, rfl, valid_init (by decide), rfl, rfl⟩
  | succ k ih =>
      obtain ⟨t, hrun, ht, hempty, hhint⟩ := ih (Nat.le_of_succ_le hk)
      have hfree : t.hint ∉ t.items.ids := by simp [EntityArray.ids, hempty]
      have hmod : (k + 1) % 65536 = k + 1 := by
        simp only [reservedEntityId] at hk
        omega
      have hcount : t.items.count ≤ maxEntityCount := by
        rw [ht.count, hempty]
        exact Nat.zero_le _
      have hcreate : step layerCreateId t (.create 0) =
          some ⟨t.items.addItem (t.hint, 0), (t.hint + 1) % 65536⟩ := by
        rw [step, ht.layerCreateId_of_free hcount hfree]
        rfl
      have hadded := ht.add (a := 0) (by simp [hempty]) hfree (Nat.mod_lt (t.hint + 1) (by decide))
      -- the new layer is the only one, and is removed
      have hremoved : ((t.items.addItem (t.hint, 0)).removeItem k).lb = [] := by
        rw [EntityArray.removeItem_lb hadded.wf]
        simp [EntityArray.addItem, HashTable.removeItem, hempty, hhint]
      refine ⟨⟨(t.items.addItem (t.hint, 0)).removeItem k, (t.hint + 1) % 65536⟩, ?_,
        hadded.remove k, hremoved, by rw [hhint, hmod]⟩
      have hlast : layersInTurn (k + 1) = layersInTurn k ++ [.create 0, .remove k] := by
        rw [layersInTurn, List.range_succ, List.flatMap_append, List.flatMap_singleton]
        rfl
      rw [hlast, run_append, hrun, Option.bind_some, run_cons hcreate]
      rfl

/-- After the last id was given out, the next layer gets the reserved id. -/
theorem layer_gets_reserved_id :
    ∃ t t', run (step layerCreateId) init (layersInTurn 65535) = some t ∧ t.items.count = 0 ∧
      layerCreateId t 0 = some (some (t', reservedEntityId)) ∧
      ¬ GivesFreshId t 0 (layerCreateId t 0) := by
  obtain ⟨t, hrun, ht, hempty, hhint⟩ := run_layersInTurn (k := 65535) (Nat.le_refl _)
  have hcount : t.items.count = 0 := by
    rw [ht.count, hempty]
    rfl
  have hcreate := ht.layerCreateId_of_free (a := 0) (by rw [hcount]; exact Nat.zero_le _)
    (by simp [EntityArray.ids, hempty])
  rw [hhint] at hcreate
  refine ⟨t, _, hrun, hcount, hcreate, ?_⟩
  rw [hcreate]
  rintro ⟨t', id, heq, -, -, -, hlast⟩
  obtain ⟨-, rfl⟩ := Prod.mk.inj (Option.some.inj (Option.some.inj heq))
  exact absurd hlast (by decide)

end IdTable

/-! ## The tables of nodes and tag groups -/

theorem searchId_eq {t : EntityArray} (h : t.WF) (fuel id : ℕ) :
    searchId t fuel id = freeEntityId t.lb fuel id := by
  induction fuel generalizing id with
  | zero => rfl
  | succ fuel ih =>
      have hfind : (t.findItem id).isSome = (t.lb.findItem id).isSome := by
        rw [EntityArray.findItem_eq h, HashTable.findItem, Option.isSome_map]
      simp only [searchId, freeEntityId, hfind]
      split
      · exact ih _
      · rfl

namespace VSData

variable {d : VSData} {t t' : IdTable} {bound id : ℕ}

/-- The search of `vs_taggroup_create` is the one over the hashed linked list of tag groups. -/
theorem vsTaggroupCreate_id {n customType : ℕ} {node : VSNode} (ht : t.Valid bound)
    (hnode : d.node n = some node) (hitems : t.items.lb = node.tagGroups)
    (hhint : t.hint = node.lastTgId)
    (hcreate : taggroupCreateId t d.next = some (some (t', id))) :
    ∃ d', d.vsTaggroupCreate n customType = some (d', some d.next) ∧
      (d'.tagGroup d.next).map VSTagGroup.id = some id ∧
      d'.node n = some { node with tagGroups := t'.items.lb, lastTgId := t'.hint } := by
  unfold taggroupCreateId createId at hcreate
  split at hcreate
  swap
  · cases hcreate
  rename_i hlimit
  obtain ⟨id', hsearch, heq⟩ := Option.map_eq_some_iff.mp hcreate
  obtain ⟨rfl, rfl⟩ := Prod.mk.inj (Option.some.inj heq)
  have hlimit : node.tagGroups.length < maxEntityCount := by
    rw [← hitems, ← ht.count]
    exact of_decide_eq_true hlimit
  rw [searchId_eq ht.wf, hitems, hhint] at hsearch
  simp only [vsTaggroupCreate, hnode, Option.bind_eq_bind, Option.bind_some, if_pos hlimit, hsearch]
  refine ⟨_, rfl, ?_, (Function.update_self _ _ _).trans ?_⟩
  · simp [setNode, setEntity, setTagGroup]
  · rw [EntityArray.addItem, hitems]

/-- The search of `vs_tag_create` is the one over the hashed linked list of tags. -/
theorem vsTagCreate_id {g dataType count customType : ℕ} {tg : VSTagGroup} (ht : t.Valid bound)
    (htg : d.tagGroup g = some tg) (hitems : t.items.lb = tg.tags) (hhint : t.hint = tg.lastTagId)
    (hcreate : tagCreateId t d.next = some (some (t', id))) :
    ∃ d', d.vsTagCreate g dataType count customType = some (d', d.next) ∧
      (d'.tag d.next).map VSTag.id = some id ∧
      d'.tagGroup g = some { tg with tags := t'.items.lb, lastTagId := t'.hint } := by
  unfold tagCreateId createId at hcreate
  split at hcreate
  swap
  · cases hcreate
  obtain ⟨id', hsearch, heq⟩ := Option.map_eq_some_iff.mp hcreate
  obtain ⟨rfl, rfl⟩ := Prod.mk.inj (Option.some.inj heq)
  rw [searchId_eq ht.wf, hitems, hhint] at hsearch
  simp only [vsTagCreate, htg, Option.bind_eq_bind, Option.bind_some, hsearch]
  refine ⟨_, rfl, ?_, (Function.update_self _ _ _).trans ?_⟩
  · simp [setEntity, setTagGroup, setTag]
  · rw [EntityArray.addItem, hitems]

/-- The search of `vs_layer_create` is the one over the hashed linked list of layers. -/
theorem vsLayerCreate_id {n dataType count type : ℕ} {parent : Option ℕ} {node : VSNode}
    (ht : t.Valid bound) (hnode : d.node n = some node) (hitems : t.items.lb = node.layers)
    (hhint : t.hint = node.firstFreeLayerId)
    (hcreate : layerCreateId t d.next = some (some (t', id))) :
    ∃ d', d.vsLayerCreate n parent dataType count type = some (d', d.next) ∧
      (d'.layer d.next).map VSLayer.id = some id ∧
      d'.node n = some { node with layers := t'.items.lb, firstFreeLayerId := t'.hint } := by
  unfold layerCreateId createId at hcreate
  split at hcreate
  swap
  · cases hcreate
  obtain ⟨id', hsearch, heq⟩ := Option.map_eq_some_iff.mp hcreate
  obtain ⟨rfl, rfl⟩ := Prod.mk.inj (Option.some.inj heq)
  rw [searchId_eq ht.wf, hitems, hhint] at hsearch
  simp only [vsLayerCreate, hnode, Option.bind_eq_bind, Option.bind_some, hsearch]
  refine ⟨_, rfl, ?_, (Function.update_self _ _ _).trans ?_⟩
  · simp [setNode, setEntity, setLayer]
  · rw [EntityArray.addItem, hitems]

end VSData

end Verse
