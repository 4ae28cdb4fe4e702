import Mathlib.Data.List.Nodup
import Verse.Nodes.NodeEffects

/-!
# Ids of nodes

`vs_node_create_linked` picks the id of a new node, and `vs_node_destroy` gives up
the id of an old one.  The id that is picked is meant to be the first one behind
`last_common_node_id` that no node has, in the range of the common ids.  The search
for it hands the address of the pointer to the new node to `v_hash_array_find_item`,
where a pointer to the node is expected; so it compares the ids of the nodes with one
half of an address, and either takes the first candidate, in use or not, or never
ends.

The ids are right as long as the candidate and that half of the address are free and
the candidate is in the range.  Nothing wraps the counter, as the line that would do it
stands in the body of the search.
-/

namespace Verse

open Lib

/-! ## Hashed lists with distinct keys -/

namespace HashTable

variable {t : HashTable} {key a : ℕ} {b : ℕ × ℕ}

theorem findItem_eq_none : t.findItem key = none ↔ ∀ b ∈ t, b.1 ≠ key := by
  simp [findItem]

theorem findItem_eq_some (h : t.findItem key = some a) : (key, a) ∈ t := by
  obtain ⟨b, hb, rfl⟩ := Option.map_eq_some_iff.mp h
  have hkey : b.1 = key := by simpa using List.find?_some hb
  exact hkey ▸ List.mem_of_find?_eq_some hb

/-- Two items with the same key are the same item. -/
theorem eq_of_mem {a' : ℕ} (hkeys : (t.map Prod.fst).Nodup) (h : (key, a) ∈ t)
    (h' : (key, a') ∈ t) : a = a' :=
  congrArg Prod.snd (List.inj_on_of_nodup_map hkeys h h' rfl)

theorem findItem_of_mem (hkeys : (t.map Prod.fst).Nodup) (h : (key, a) ∈ t) :
    t.findItem key = some a := by
  cases hfind : t.findItem key with
  | none => exact absurd rfl (findItem_eq_none.mp hfind _ h)
  | some a' => rw [eq_of_mem hkeys (findItem_eq_some hfind) h]

theorem mem_removeItem (hkeys : (t.map Prod.fst).Nodup) :
    b ∈ t.removeItem key ↔ b ∈ t ∧ b.1 ≠ key := by
  induction t with
  | nil => simp [removeItem]
  | cons x rest ih =>
      rw [List.map_cons, List.nodup_cons] at hkeys
      by_cases hx : x.1 = key
      · rw [removeItem, List.eraseP_cons_of_pos (by simp [hx])]
        have hrest : b ∈ rest → b.1 ≠ key := fun hb hkey =>
          hkeys.1 (List.mem_map.mpr ⟨b, hb, hkey.trans hx.symm⟩)
        constructor
        · exact fun hb => ⟨List.mem_cons_of_mem x hb, hrest hb⟩
        · rintro ⟨hb, hkey⟩
          rcases List.mem_cons.mp hb with rfl | hb
          · exact absurd hx hkey
          · exact hb
      · rw [removeItem, List.eraseP_cons_of_neg (by simp [hx]), List.mem_cons, List.mem_cons]
        have ih := ih hkeys.2
        rw [removeItem] at ih
        rw [ih]
        constructor
        · rintro (rfl | ⟨hb, hkey⟩)
          · exact ⟨Or.inl rfl, hx⟩
          · exact ⟨Or.inr hb, hkey⟩
        · rintro ⟨rfl | hb, hkey⟩
          · exact Or.inl rfl
          · exact Or.inr ⟨hb, hkey⟩

theorem removeItem_keys (hkeys : (t.map Prod.fst).Nodup) :
    ((t.removeItem key).map Prod.fst).Nodup :=
  hkeys.sublist (List.eraseP_sublist.map Prod.fst)

end HashTable

/-! ## Creating and destroying -/

/-- A node is created with the reserved id below the node `parent`, or the node at an
address is destroyed.  `heap` is the address `calloc` returns. -/
inductive NodeIdEvent where
  | create (heap parent owner customType : ℕ)
  | destroy (n : ℕ)
  deriving DecidableEq, Repr

namespace VSData

variable {d d' : VSData}

/-- The id of the node at an address. -/
def idAt (d : VSData) (n : ℕ) : Option ℕ := (d.node n).map VSNode.id

/-- What the callers of the two functions do: the parent and the node that is destroyed
are nodes. -/
def nodeIdStep (d : VSData) : NodeIdEvent → Option VSData
  | .create heap parent owner customType =>
      if (d.node parent).isSome then
        (d.vsNodeCreateLinked heap (some parent) owner vrsReservedNodeId customType).map Prod.fst
      else some d
  | .destroy n => if (d.node n).isSome ∧ (d.entity n).isSome then d.vsNodeDestroy n else some d

/-- A node that is created has an id of its own in the range of the common ids, and
`vs_node_find` returns it. -/
def GivesId (d : VSData) : NodeIdEvent → Prop
  | .create heap parent owner customType =>
      (d.node parent).isSome → d.nodes.length < vrsMaxCommonNodeCount →
        ∃ d' n id,
          d.vsNodeCreateLinked heap (some parent) owner vrsReservedNodeId customType =
            some (d', some n) ∧
          d'.idAt n = some id ∧ vrsFirstCommonNodeId ≤ id ∧ id ≤ vrsLastCommonNodeId ∧
          (∀ m, m ≠ n → d'.idAt m ≠ some id) ∧ d'.vsNodeFind id = some n
  | .destroy _ => True

/-- The id behind `last_common_node_id` is common and free, and no node has the lower
half of the address of the new node for its id. -/
def IdIsFree (d : VSData) : NodeIdEvent → Prop
  | .create heap parent _ _ =>
      (d.node parent).isSome → d.nodes.length < vrsMaxCommonNodeCount →
        d.vsNodeFind (heap % 2 ^ 32) = none ∧ d.lastCommonNodeId < vrsLastCommonNodeId ∧
          d.vsNodeFind (d.lastCommonNodeId + 1) = none
  | .destroy _ => True

/-- The hashed list of nodes holds the nodes, each under its id, and every node is
found by its id. -/
structure NodeTable (d : VSData) : Prop where
  mem_nodes : ∀ i n, (i, n) ∈ d.nodes ↔ d.idAt n = some i
  keys : (d.nodes.map Prod.fst).Nodup
  fresh : ∀ a, d.next ≤ a → d.node a = none
  first_le : vrsFirstCommonNodeId ≤ d.lastCommonNodeId
  le_last : d.lastCommonNodeId ≤ vrsLastCommonNodeId

theorem NodeTable.vsNodeFind (h : d.NodeTable) {n id : ℕ} (hid : d.idAt n = some id) :
    d.vsNodeFind id = some n :=
  HashTable.findItem_of_mem h.keys ((h.mem_nodes id n).mpr hid)

/-- A free id is the id of no node. -/
theorem NodeTable.idAt_ne (h : d.NodeTable) {id : ℕ} (hfree : d.vsNodeFind id = none) (n : ℕ) :
    d.idAt n ≠ some id := fun hid =>
  HashTable.findItem_eq_none.mp hfree _ ((h.mem_nodes id n).mpr hid) rfl

theorem NodeTable.idAt_next (h : d.NodeTable) : d.idAt d.next = none := by
  rw [idAt, h.fresh d.next (Nat.le_refl _), Option.map_none]

/-- The search takes the first candidate, or it does not end. -/
theorem newNodeId_reserved (heap : ℕ) :
    d.newNodeId heap vrsReservedNodeId =
      if d.vsNodeFind (heap % 2 ^ 32) = none then some ((d.lastCommonNodeId + 1) % 2 ^ 32)
      else none := by
  rw [newNodeId, if_pos rfl, freeNodeId, vsNodeFind]
  cases d.nodes.findItem (heap % 2 ^ 32) <;> rfl

theorem succ_last_mod (hlast : d.lastCommonNodeId ≤ vrsLastCommonNodeId) :
    (d.lastCommonNodeId + 1) % 2 ^ 32 = d.lastCommonNodeId + 1 := by
  apply Nat.mod_eq_of_lt
  rw [vrsLastCommonNodeId] at hlast
  omega

/-- What creating a node does to the ids. -/
theorem vsNodeCreateLinked_ids {heap parent owner nodeId customType n : ℕ}
    (hfresh : ∀ a, d.next ≤ a → d.node a = none)
    (h : d.vsNodeCreateLinked heap (some parent) owner nodeId customType = some (d', some n)) :
    ∃ id, d.newNodeId heap nodeId = some id ∧ n = d.next ∧ d'.next = d.next + 2 ∧
      d'.nodes = d.nodes ++ [(id, n)] ∧ d'.idAt = Function.update d.idAt n (some id) ∧
      d'.lastCommonNodeId = (if nodeId = vrsReservedNodeId then id else d.lastCommonNodeId) ∧
      ∀ a, d'.next ≤ a → d'.node a = none := by
  rcases vsNodeCreateLinked_eq h with ⟨-, hnone⟩ | ⟨id, last, d₁, hid, rfl, hd₁, hn, rfl⟩
  · cases hnone
  obtain rfl := Option.some.inj hn
  rcases createLinked_eq hd₁ with ⟨hnone, -⟩ | ⟨p, pnode, hp, hpnode, rfl⟩
  · cases hnone
  have hp : p < d.next := by
    by_contra hge
    rw [hfresh p (by omega)] at hpnode
    cases hpnode
  refine ⟨id, hid, rfl, rfl, rfl, funext fun m => ?_, rfl, fun a ha => ?_⟩
  · by_cases hm : m = d.next
    · subst hm
      simp [idAt, vsNodeInit]
    · by_cases hmp : m = p
      · subst hmp
        simp [idAt, Function.update_of_ne hm, hpnode]
      · simp [idAt, Function.update_of_ne hm, Function.update_of_ne hmp]
  · have ha : d.next + 2 ≤ a := ha
    have ham : a ≠ d.next := by omega
    have hap : a ≠ p := by omega
    simpa [Function.update_of_ne ham, Function.update_of_ne hap] using hfresh a (by omega)

/-- A node below an existing one is created unless the search for its id does not
end. -/
theorem vsNodeCreateLinked_isSome {heap parent nodeId id : ℕ} (owner customType : ℕ)
    (hparent : (d.node parent).isSome) (hcount : d.nodes.length < vrsMaxCommonNodeCount)
    (hid : d.newNodeId heap nodeId = some id) :
    ∃ d', d.vsNodeCreateLinked heap (some parent) owner nodeId customType =
      some (d', some d.next) := by
  obtain ⟨pnode, hpnode⟩ := Option.isSome_iff_exists.mp hparent
  have hlinked : ∃ d₁, d.createLinked (some parent) owner id customType = some d₁ := by
    simp only [createLinked, hpnode]
    exact ⟨_, rfl⟩
  obtain ⟨d₁, hd₁⟩ := hlinked
  simp only [vsNodeCreateLinked, if_pos hcount, hid, Option.bind_eq_bind, Option.bind_some, hd₁]
  exact ⟨_, rfl⟩

/-- **One creation.**  A new node gets an id as it should just when the candidate and
what the search compares the ids with are free. -/
theorem NodeTable.givesId_iff (h : d.NodeTable) (event : NodeIdEvent) :
    d.GivesId event ↔ d.IdIsFree event := by
  cases event with
  | destroy n => exact Iff.rfl
  | create heap parent owner customType =>
      refine forall_congr' fun hparent => forall_congr' fun hcount => ?_
      constructor
      · rintro ⟨d', n, id, hcreate, hid, hfirst, hlast, hunique, hfind⟩
        obtain ⟨id', hid', rfl, -, hnodes, hids, -⟩ := vsNodeCreateLinked_ids h.fresh hcreate
        rw [newNodeId_reserved] at hid'
        split at hid'
        · rename_i hheap
          rw [succ_last_mod h.le_last] at hid'
          obtain rfl := Option.some.inj hid'
          obtain rfl : d.lastCommonNodeId + 1 = id := by
            rw [hids, Function.update_self] at hid
            exact Option.some.inj hid
          refine ⟨hheap, Nat.lt_of_succ_le hlast, ?_⟩
          -- a node with the candidate for its id would still be there
          cases hused : d.vsNodeFind (d.lastCommonNodeId + 1) with
          | none => rfl
          | some m =>
              have hm : d.idAt m = some (d.lastCommonNodeId + 1) :=
                (h.mem_nodes _ _).mp (HashTable.findItem_eq_some hused)
              have hne : m ≠ d.next := by
                rintro rfl
                rw [h.idAt_next] at hm
                cases hm
              refine absurd ?_ (hunique m hne)
              rw [hids, Function.update_of_ne hne]
              exact hm
        · cases hid'
      · rintro ⟨hheap, hlast, hfree⟩
        have hnew : d.newNodeId heap vrsReservedNodeId = some (d.lastCommonNodeId + 1) := by
          rw [newNodeId_reserved, if_pos hheap, succ_last_mod h.le_last]
        obtain ⟨d', hcreate⟩ := vsNodeCreateLinked_isSome owner customType hparent hcount hnew
        obtain ⟨id', hid', -, -, hnodes, hids, -⟩ := vsNodeCreateLinked_ids h.fresh hcreate
        obtain rfl := Option.some.inj (hnew.symm.trans hid')
        refine ⟨d', d.next, d.lastCommonNodeId + 1, hcreate, ?_, ?_, hlast, fun m hm => ?_, ?_⟩
        · rw [hids, Function.update_self]
        · exact Nat.le_succ_of_le h.first_le
        · rw [hids, Function.update_of_ne hm]
          exact h.idAt_ne hfree m
        · have hfree' : d.nodes.findItem (d.lastCommonNodeId + 1) = none := hfree
          simp only [HashTable.findItem, Option.map_eq_none_iff] at hfree'
          simp [VSData.vsNodeFind, HashTable.findItem, hnodes, hfree']

theorem NodeTable.create (h : d.NodeTable) {heap parent owner customType n : ℕ}
    (hguard : d.IdIsFree (.create heap parent owner customType))
    (hparent : (d.node parent).isSome) (hcount : d.nodes.length < vrsMaxCommonNodeCount)
    (hcreate : d.vsNodeCreateLinked heap (some parent) owner vrsReservedNodeId customType =
      some (d', some n)) : d'.NodeTable := by
  obtain ⟨hheap, hlast, hfree⟩ := hguard hparent hcount
  obtain ⟨id, hid, rfl, hnext, hnodes, hids, hlast', hfresh⟩ :=
    vsNodeCreateLinked_ids h.fresh hcreate
  rw [newNodeId_reserved, if_pos hheap, succ_last_mod h.le_last] at hid
  obtain rfl := Option.some.inj hid
  rw [if_pos rfl] at hlast'
  refine ⟨fun i m => ?_, ?_, hfresh, ?_, ?_⟩
  · rw [hnodes, hids, List.mem_append, List.mem_singleton, Prod.mk.injEq, h.mem_nodes]
    by_cases hm : m = d.next
    · subst hm
      simp [h.idAt_next, eq_comm]
    · simp [hm]
  · rw [hnodes, List.map_append, List.nodup_append]
    refine ⟨h.keys, by simp, fun i hi j hj => ?_⟩
    obtain ⟨b, hb, rfl⟩ := List.mem_map.mp hi
    obtain rfl : j = d.lastCommonNodeId + 1 := by simpa using hj
    exact HashTable.findItem_eq_none.mp hfree b hb
  · rw [hlast']
    exact Nat.le_succ_of_le h.first_le
  · rw [hlast']
    exact hlast

theorem unlink_idAt {node : VSNode} (h : d.unlink node = some d') : d'.idAt = d.idAt := by
  rcases unlink_cases h with ⟨-, rfl⟩ | ⟨l, link, pnode, -, -, hpnode, rfl⟩
  · rfl
  · funext m
    by_cases hm : m = link.parent
    · subst hm
      simp [idAt, setLink, setNode, hpnode]
    · simp [idAt, setLink, setNode, Function.update_of_ne hm]

theorem unlink_kept {node : VSNode} (h : d.unlink node = some d') :
    d' = { d with node := d'.node, link := d'.link } := by
  rcases unlink_cases h with ⟨-, rfl⟩ | ⟨l, link, pnode, -, -, -, rfl⟩ <;> rfl

/-- What destroying a node does to the ids. -/
theorem vsNodeDestroy_ids {n : ℕ} (h : d.vsNodeDestroy n = some d') :
    d' = d ∨ ∃ id, d.idAt n = some id ∧ d'.nodes = d.nodes.removeItem id ∧
      d'.idAt = Function.update d.idAt n none ∧ d'.next = d.next ∧
      d'.lastCommonNodeId = d.lastCommonNodeId := by
  rcases vsNodeDestroy_cases h with rfl | ⟨node, e, d₁, d₂, hnode, -, -, -, hd₁, hd₂, rfl⟩
  · exact Or.inl rfl
  refine Or.inr ⟨node.id, by rw [idAt, hnode, Option.map_some], ?_, funext fun m => ?_, ?_, ?_⟩
  · rw [hd₂.kept, unlink_kept hd₁]
  · have hids : d₂.idAt m = d.idAt m := by
      rw [← unlink_idAt hd₁, idAt, idAt, hd₂.kept]
    by_cases hm : m = n
    · subst hm
      simp [idAt, setNode, setEntity]
    · rw [Function.update_of_ne hm, ← hids]
      simp [idAt, setNode, setEntity, Function.update_of_ne hm]
  · rw [hd₂.kept, unlink_kept hd₁]
    rfl
  · rw [hd₂.kept, unlink_kept hd₁]
    rfl

theorem NodeTable.destroy (h : d.NodeTable) {n : ℕ} (hdestroy : d.vsNodeDestroy n = some d') :
    d'.NodeTable := by
  rcases vsNodeDestroy_ids hdestroy with rfl | ⟨id, hid, hnodes, hids, hnext, hlast⟩
  · exact h
  have hmem : (id, n) ∈ d.nodes := (h.mem_nodes id n).mpr hid
  refine ⟨fun i m => ?_, ?_, fun a ha => ?_, ?_, ?_⟩
  · rw [hnodes, HashTable.mem_removeItem h.keys, h.mem_nodes, hids]
    by_cases hm : m = n
    · subst hm
      simp [hid, eq_comm]
    · rw [Function.update_of_ne hm]
      refine ⟨fun hi => hi.1, fun hi => ⟨hi, ?_⟩⟩
      rintro rfl
      exact hm (HashTable.eq_of_mem h.keys ((h.mem_nodes i m).mpr hi) hmem)
  · rw [hnodes]
    exact HashTable.removeItem_keys h.keys
  · have hnone : d'.idAt a = none := by
      rw [hids]
      by_cases han : a = n
      · rw [han, Function.update_self]
      · rw [Function.update_of_ne han, idAt, h.fresh a (hnext ▸ ha), Option.map_none]
    exact Option.map_eq_none_iff.mp hnone
  · rw [hlast]
    exact h.first_le
  · rw [hlast]
    exact h.le_last

theorem NodeTable.step (h : d.NodeTable) {event : NodeIdEvent} (hguard : d.IdIsFree event)
    (hstep : d.nodeIdStep event = some d') : d'.NodeTable := by
  cases event with
  | create heap parent owner customType =>
      rcases ite_cases hstep with rfl | ⟨hparent, hstep⟩
      · exact h
      obtain ⟨⟨d₁, created⟩, hcreate, rfl⟩ := Option.map_eq_some_iff.mp hstep
      cases created with
      | none =>
          rcases vsNodeCreateLinked_eq hcreate with ⟨rfl, -⟩ | ⟨_, _, _, -, -, -, hnone, -⟩
          · exact h
          · cases hnone
      | some n =>
          have hcount : d.nodes.length < vrsMaxCommonNodeCount := by
            by_contra hfull
            rw [vsNodeCreateLinked, if_neg hfull] at hcreate
            cases hcreate
          exact h.create hguard hparent hcount hcreate
  | destroy n =>
      rcases ite_cases hstep with rfl | ⟨-, hstep⟩
      · exact h
      · exact h.destroy hstep

/-! ## Runs -/

/-- **Ids of nodes.**  From any nodes, each found by its id, and any last id in the
range of the common ids: all nodes that a sequence of creations and destructions
creates get ids as they should if and only if the candidate and the half of the
address it is compared with are free at every creation.  Then every node is found by
its id at the end of the sequence. -/
theorem node_ids_unique (h : d.NodeTable) (events : List NodeIdEvent) :
    (Admissible nodeIdStep GivesId d events ↔ Admissible nodeIdStep IdIsFree d events) ∧
      ∀ d', Admissible nodeIdStep IdIsFree d events → run nodeIdStep d events = some d' →
        ∀ n id, d'.idAt n = some id → d'.vsNodeFind id = some n := by
  constructor
  · apply admissible_congr_of_invariant
    · exact fun d event (hd : d.NodeTable) => hd.givesId_iff event
    · exact fun d event d' hd hguard hstep => hd.step ((hd.givesId_iff event).mp hguard) hstep
    · exact h
  · intro d' hadm hrun n id hid
    have htable : d'.NodeTable :=
      run_invariant (fun _ _ _ hd hguard hstep => hd.step hguard hstep) h hadm hrun
    exact htable.vsNodeFind hid

/-- The root alone, with the last id that was given out. -/
def rootOnly (last : ℕ) : VSData :=
  { empty [] 0 0 with
    node := Function.update (fun _ => none) 1 (some (vsNodeInit vrsRootNodeId 0 0))
    entity := Function.update (fun _ => none) 1 (some ⟨.created, []⟩)
    nodes := [(vrsRootNodeId, 1)]
    lastCommonNodeId := last
    next := 2 }

theorem rootOnly_nodeTable {last : ℕ} (hfirst : vrsFirstCommonNodeId ≤ last)
    (hlast : last ≤ vrsLastCommonNodeId) : (rootOnly last).NodeTable where
  mem_nodes i n := by
    by_cases hn : n = 1
    · subst hn
      simp [rootOnly, idAt, vsNodeInit, eq_comm]
    · simp [rootOnly, idAt, hn]
  keys := by simp [rootOnly]
  fresh a ha := by
    have ha : a ≠ 1 := by
      rintro rfl
      exact absurd ha (by simp [rootOnly])
    simp [rootOnly, Function.update_of_ne ha]
  first_le := hfirst
  le_last := hlast

theorem node_ids_unique_rootOnly :
    ((rootOnly vrsFirstCommonNodeId).NodeTable) ∧
      ((Admissible nodeIdStep GivesId (rootOnly vrsFirstCommonNodeId) [.create 4096 1 0 40] ↔
        Admissible nodeIdStep IdIsFree (rootOnly vrsFirstCommonNodeId) [.create 4096 1 0 40]) ∧
      ∀ d', Admissible nodeIdStep IdIsFree (rootOnly vrsFirstCommonNodeId) [.create 4096 1 0 40] →
        run nodeIdStep (rootOnly vrsFirstCommonNodeId) [.create 4096 1 0 40] = some d' →
        ∀ n id, d'.idAt n = some id → d'.vsNodeFind id = some n) :=
  have htable := rootOnly_nodeTable (Nat.le_refl _) (by decide)
  ⟨htable, node_ids_unique htable [.create 4096 1 0 40]⟩

/-- Behind the last common id the next node is given the id that stands for no node. -/
theorem create_after_last_common_id :
    (rootOnly vrsLastCommonNodeId).NodeTable ∧
      ((rootOnly vrsLastCommonNodeId).vsNodeCreateLinked 4096 (some 1) 0 vrsReservedNodeId 40).bind
        (fun x => x.2.bind x.1.idAt) = some vrsReservedNodeId ∧
      ¬ (rootOnly vrsLastCommonNodeId).GivesId (.create 4096 1 0 40) := by
  have htable : (rootOnly vrsLastCommonNodeId).NodeTable :=
    rootOnly_nodeTable (by decide) (Nat.le_refl _)
  refine ⟨htable, by decide +kernel, fun hgives => ?_⟩
  have hfree := htable.givesId_iff _ |>.mp hgives (by decide +kernel) (by decide +kernel)
  exact absurd hfree.2.1 (by decide)

end VSData

end Verse
