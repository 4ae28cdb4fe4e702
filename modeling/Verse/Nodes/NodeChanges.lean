import Verse.Nodes.Changes
import Verse.Nodes.Links

/-!
# Changes of nodes

What one change does to what is stored of a node.  Every kind of change is about one
part of it: its place in the tree, its tag groups, its layers, its subscribers, its lock,
its permissions or its owner.
-/

namespace Verse

open Lib

namespace VSData

variable {d d' : VSData} {k : EffectKind}

/-! ## Sessions and commands -/

theorem vsNodeDestroy_quiet {n : ℕ} (h : d.vsNodeDestroy n = some d') :
    d'.session = d.session ∧ d'.pushed = d.pushed := by
  rcases vsNodeDestroy_cases h with rfl | ⟨node, e, d₁, d₂, -, -, -, -, hd₁, hfreed, rfl⟩
  · exact ⟨rfl, rfl⟩
  have hunlink : d₁.session = d.session ∧ d₁.pushed = d.pushed := by
    rcases unlink_cases hd₁ with ⟨-, rfl⟩ | ⟨l, link, pnode, -, -, -, rfl⟩ <;> exact ⟨rfl, rfl⟩
  rw [hfreed.kept]
  exact hunlink

/-- A change that pushes nothing and is not about a session keeps both. -/
theorem Effect.quiet (he : Effect k d d') (hpush : k ≠ .push) (hset : k ≠ .pushSet)
    (hsession : k ≠ .session) : d'.session = d.session ∧ d'.pushed = d.pushed := by
  cases he with
  | push => exact absurd rfl hpush
  | pushSet => exact absurd rfl hset
  | session => exact absurd rfl hsession
  | unfollow hfree =>
      obtain ⟨e, -, rfl⟩ := freeFollower_eq_some hfree
      exact ⟨rfl, rfl⟩
  | newTag hcreate =>
      obtain ⟨tg, id, tag, -, -, -, rfl⟩ := vsTagCreate_eq hcreate
      exact ⟨rfl, rfl⟩
  | newTagGroup hcreate =>
      rcases vsTaggroupCreate_eq hcreate with ⟨rfl, -⟩ | ⟨node, id, tg, -, -, -, -, -, rfl⟩ <;>
        exact ⟨rfl, rfl⟩
  | newLayer _ _ hcreate =>
      obtain ⟨node, id, layer, layers, -, -, -, -, -, -, -, -, rfl⟩ := vsLayerCreate_eq hcreate
      exact ⟨rfl, rfl⟩
  | newNode hcreate | newRoot hcreate =>
      rcases vsNodeCreateLinked_eq hcreate with ⟨rfl, -⟩ | ⟨id, last, d₁, -, -, hd₁, -, rfl⟩
      · exact ⟨rfl, rfl⟩
      · rcases createLinked_eq hd₁ with ⟨-, rfl⟩ | ⟨p, pnode, -, -, rfl⟩ <;> exact ⟨rfl, rfl⟩
  | freeSub _ hfree =>
      obtain ⟨sub, node, -, -, rfl⟩ := freeSub_eq_some hfree
      exact ⟨rfl, rfl⟩
  | dropNode _ _ _ _ hremove => exact ⟨(vsNodeDestroy_quiet hremove).1, (vsNodeDestroy_quiet hremove).2⟩
  | removeTag _ _ _ _ _ hremove =>
      obtain ⟨tg, tag, -, -, rfl⟩ := vsTagDestroy_cases hremove
      exact ⟨rfl, rfl⟩
  | removeTagGroup _ _ _ _ _ hremove =>
      obtain ⟨tg, d₁, node, -, hfreed, -, -, rfl⟩ := vsTaggroupDestroy_cases hremove
      rw [hfreed.kept]
      exact ⟨rfl, rfl⟩
  | removeLayer _ _ _ _ _ hremove =>
      obtain ⟨layer, d₁, node, -, hsame, -, rfl⟩ := vsLayerDestroy_cases hremove
      rw [hsame.kept]
      exact ⟨rfl, rfl⟩
  | removeNode hremove => exact vsNodeDestroy_quiet hremove
  | move _ hmove =>
      obtain ⟨onode, d₁, pnode, d₂, -, rfl, -, rfl, hlevels⟩ := moveLink_cases hmove
      rw [hlevels.kept]
      exact ⟨rfl, rfl⟩
  | _ => exact ⟨rfl, rfl⟩

/-! ## Nodes -/

theorem setNode_node (d : VSData) (n : ℕ) (node : Option VSNode) : (d.setNode n node).node n = node :=
  Function.update_self _ _ _

theorem setNode_node_of_ne {m n : ℕ} (hm : m ≠ n) (d : VSData) (node : Option VSNode) :
    (d.setNode n node).node m = d.node m := Function.update_of_ne hm _ _

/-- What a change makes of what is stored of a node. -/
inductive NodeChange (d : VSData) : EffectKind → VSNode → VSNode → Prop
  | tree {k : EffectKind} {node : VSNode} (hk : k ∈ treeChanges) (childrenLinks : List ℕ)
      (level : ℕ) : NodeChange d k node { node with childrenLinks, level }
  | tagGroups {k : EffectKind} {node : VSNode} (hk : k = .create ∨ k = .remove)
      (tagGroups : HashTable) (lastTgId : ℕ) : NodeChange d k node { node with tagGroups, lastTgId }
  | layers {k : EffectKind} {node : VSNode} (hk : k = .createLayer ∨ k = .removeLayer) (layers : HashTable)
      (firstFreeLayerId : ℕ) : NodeChange d k node { node with layers, firstFreeLayerId }
  | subs {k : EffectKind} {node : VSNode} (hk : (∃ s, k = .subscribe s) ∨ ∃ s, k = .freeSub s)
      (nodeSubs : List ℕ) : NodeChange d k node { node with nodeSubs }
  | lock {s : ℕ} {node : VSNode} {lock : Option ℕ}
      (hlock : lock = node.lock ∨ (node.lock = some s ∧ lock = none) ∨
        (node.lock = none ∧ lock = some s ∧ d.vsNodeCanWrite s node)) :
      NodeChange d (.lock s) node { node with lock }
  | permit {node : VSNode} {permissions : List VSNodePermission} (hlock : node.lock = none) :
      NodeChange d .permit node { node with permissions }
  | access {node : VSNode} {permissions : List VSNodePermission} {lock : Option ℕ}
      (hlock : (lock = node.lock ∧
          ∀ s, lock = some s → d.vsNodeCanWrite s { node with permissions }) ∨
        (lock = none ∧ ∃ s, node.lock = some s ∧
          d.vsNodeCanWrite s { node with permissions } = false)) :
      NodeChange d .access node { node with permissions, lock }
  | owner {node : VSNode} (owner : ℕ) : NodeChange d .owner node { node with owner }

/-- A node that was just created. -/
structure IsNewNode (node : VSNode) : Prop where
  childrenLinks : node.childrenLinks = []
  tagGroups : node.tagGroups = []
  layers : node.layers = []
  nodeSubs : node.nodeSubs = []
  lock : node.lock = none

/-- What a change makes of an address: a node is kept, removed, new, or changed. -/
def NodeAfter (k : EffectKind) (d d' : VSData) (n : ℕ) : Prop :=
  d'.node n = d.node n ∨ (d'.node n = none ∧ (k = .dropNode ∨ k = .removeNode)) ∨
    (d.next ≤ n ∧ ∃ node', d'.node n = some node' ∧ IsNewNode node') ∨
      ∃ node node', d.node n = some node ∧ d'.node n = some node' ∧ NodeChange d k node node'

theorem nodeAfter_update {m : ℕ} {node node' : VSNode} (hnode : d.node m = some node)
    (h : NodeChange d k node node') (hset : d'.node = Function.update d.node m (some node'))
    (n : ℕ) : NodeAfter k d d' n := by
  by_cases hn : n = m
  · subst hn
    exact Or.inr (Or.inr (Or.inr ⟨node, node', hnode, by rw [hset, Function.update_self], h⟩))
  · exact Or.inl (by rw [hset, Function.update_of_ne hn])

/-- What is stored of entities does not matter. -/
theorem NodeAfter.of_setEntity {a n : ℕ} {e : Option VSEntity}
    (h : NodeAfter k (d.setEntity a e) d' n) : NodeAfter k d d' n := by
  rcases h with hsame | hnone | hnew | ⟨node, node', hnode, hnode', hchange⟩
  · exact Or.inl hsame
  · exact Or.inr (Or.inl hnone)
  · exact Or.inr (Or.inr (Or.inl hnew))
  · refine Or.inr (Or.inr (Or.inr ⟨node, node', hnode, hnode', ?_⟩))
    cases hchange with
    | tree hk => exact .tree hk _ _
    | tagGroups hk => exact .tagGroups hk _ _
    | layers hk => exact .layers hk _ _
    | subs hk => exact .subs hk _
    | lock hlock => exact .lock hlock
    | permit hlock => exact .permit hlock
    | access hlock => exact .access hlock
    | owner => exact .owner _

theorem vsNodeCreateLinked_nodeAfter {parent : Option ℕ}
    {heap owner nodeId customType n : ℕ} (hk : k ∈ treeChanges)
    (h : d.vsNodeCreateLinked heap parent owner nodeId customType = some (d', some n)) (m : ℕ) :
    NodeAfter k d d' m := by
  rcases vsNodeCreateLinked_eq h with ⟨-, hnone⟩ | ⟨id, last, d₁, -, -, hd₁, -, rfl⟩
  · cases hnone
  rcases createLinked_eq hd₁ with ⟨-, rfl⟩ | ⟨p, pnode, -, hpnode, rfl⟩
  · by_cases hm : m = d.next
    · subst hm
      exact Or.inr (Or.inr (Or.inl ⟨Nat.le_refl _, _, Function.update_self _ _ _,
        ⟨rfl, rfl, rfl, rfl, rfl⟩⟩))
    · exact Or.inl (Function.update_of_ne hm _ _)
  · by_cases hm : m = d.next
    · subst hm
      exact Or.inr (Or.inr (Or.inl ⟨Nat.le_refl _, _, Function.update_self _ _ _,
        ⟨rfl, rfl, rfl, rfl, rfl⟩⟩))
    · by_cases hmp : m = p
      · subst hmp
        refine Or.inr (Or.inr (Or.inr ⟨pnode, _, hpnode, ?_,
          .tree hk (pnode.childrenLinks ++ [d.next + 1]) pnode.level⟩))
        exact (Function.update_of_ne hm _ _).trans (Function.update_self _ _ _)
      · exact Or.inl ((Function.update_of_ne hm _ _).trans (Function.update_of_ne hmp _ _))

theorem vsNodeDestroy_nodeAfter {n : ℕ} (hk : k = .dropNode ∨ k = .removeNode)
    (h : d.vsNodeDestroy n = some d') (m : ℕ) : NodeAfter k d d' m := by
  have htree : k ∈ treeChanges := by
    rcases hk with rfl | rfl
    · exact Or.inr (Or.inr (Or.inl rfl))
    · exact Or.inr (Or.inr (Or.inr (Or.inl rfl)))
  rcases vsNodeDestroy_cases h with rfl | ⟨node, e, d₁, d₂, hnode, -, -, -, hd₁, hfreed, rfl⟩
  · exact Or.inl rfl
  by_cases hm : m = n
  · subst hm
    exact Or.inr (Or.inl ⟨Function.update_self _ _ _, hk⟩)
  have hother : ({ (d₂.setNode n none).setEntity n none with
      nodes := d₂.nodes.removeItem node.id } : VSData).node m = d₁.node m := by
    refine (Function.update_of_ne hm _ _).trans ?_
    rw [hfreed.kept]
  rcases unlink_cases hd₁ with ⟨-, rfl⟩ | ⟨l, link, pnode, -, -, hpnode, rfl⟩
  · exact Or.inl hother
  · by_cases hmp : m = link.parent
    · subst hmp
      exact Or.inr (Or.inr (Or.inr ⟨pnode, _, hpnode,
        hother.trans (Function.update_self _ _ _),
        .tree htree (pnode.childrenLinks.erase l) pnode.level⟩))
    · exact Or.inl (hother.trans (Function.update_of_ne hmp _ _))

theorem moveLink_nodeAfter {l old parent child : ℕ}
    (h : d.moveLink l old parent child = some d') (m : ℕ) : NodeAfter .move d d' m := by
  obtain ⟨onode, d₁, pnode, d₂, honode, rfl, hpnode, rfl, hlevels⟩ := moveLink_cases h
  have hk : EffectKind.move ∈ treeChanges := Or.inr (Or.inr (Or.inr (Or.inr rfl)))
  -- before the levels are set, only the lists of children differ
  have hlinks : ∀ mnode, d.node m = some mnode → ∃ links,
      (((d.setNode old (some { onode with childrenLinks := onode.childrenLinks.erase l })).setNode
        parent (some { pnode with childrenLinks := pnode.childrenLinks ++ [l] })).setLink l
          (some ⟨parent, child⟩)).node m = some { mnode with childrenLinks := links } := by
    intro mnode hmnode
    by_cases hmp : m = parent
    · subst hmp
      have hpnode' := hpnode
      by_cases hmo : m = old
      · subst hmo
        simp only [setNode, Function.update_self] at hpnode'
        obtain rfl := Option.some.inj hpnode'
        obtain rfl := Option.some.inj (honode.symm.trans hmnode)
        exact ⟨_, Function.update_self _ _ _⟩
      · simp only [setNode, Function.update_of_ne hmo] at hpnode'
        obtain rfl := Option.some.inj (hpnode'.symm.trans hmnode)
        exact ⟨_, Function.update_self _ _ _⟩
    · by_cases hmo : m = old
      · subst hmo
        obtain rfl := Option.some.inj (honode.symm.trans hmnode)
        exact ⟨_, (Function.update_of_ne hmp _ _).trans (Function.update_self _ _ _)⟩
      · exact ⟨mnode.childrenLinks,
          (Function.update_of_ne hmp _ _).trans ((Function.update_of_ne hmo _ _).trans hmnode)⟩
  cases hm : d.node m with
  | none =>
      refine Or.inl (map_none_of_none (hlevels.node m) ?_ |>.trans hm.symm)
      exact update_some_of_none hpnode m (update_some_of_none honode m hm)
  | some mnode =>
      obtain ⟨links, hmid⟩ := hlinks mnode hm
      obtain ⟨level, hend⟩ := hlevels.exists_level hmid
      exact Or.inr (Or.inr (Or.inr ⟨mnode, _, hm, hend, .tree hk links level⟩))

/-- **One change.**  What a change makes of the node at an address. -/
theorem Effect.node_after (he : Effect k d d') (hfresh : d.Fresh) (n : ℕ) : NodeAfter k d d' n := by
  cases he with
  | push hpush _ _ | pushSet hpush _ _ =>
      obtain ⟨sub, -, rfl⟩ := push_eq_some.mp hpush
      exact Or.inl rfl
  | unfollow hfree =>
      obtain ⟨e, -, rfl⟩ := freeFollower_eq_some hfree
      exact Or.inl rfl
  | newTag hcreate =>
      obtain ⟨tg, id, tag, -, -, -, rfl⟩ := vsTagCreate_eq hcreate
      exact Or.inl rfl
  | newTagGroup hcreate =>
      rcases vsTaggroupCreate_eq hcreate with ⟨rfl, -⟩ | ⟨node, id, tg, hnode, -, -, -, -, rfl⟩
      · exact Or.inl rfl
      · exact nodeAfter_update hnode (.tagGroups (Or.inl rfl) _ _) rfl n
  | newLayer _ _ hcreate =>
      obtain ⟨node, id, layer, layers, hnode, -, -, -, -, -, -, -, rfl⟩ := vsLayerCreate_eq hcreate
      exact nodeAfter_update hnode (.layers (Or.inl rfl) _ _) rfl n
  | newNode hcreate => exact vsNodeCreateLinked_nodeAfter (Or.inl rfl) hcreate n
  | newRoot hcreate => exact vsNodeCreateLinked_nodeAfter (Or.inr (Or.inl rfl)) hcreate n
  | subscribe hnode => exact nodeAfter_update hnode (.subs (Or.inl ⟨_, rfl⟩) _) rfl n
  | freeSub _ hfree =>
      obtain ⟨sub, node, -, hnode, rfl⟩ := freeSub_eq_some hfree
      exact nodeAfter_update hnode (.subs (Or.inr ⟨_, rfl⟩) _) rfl n
  | lock hnode hlock => exact nodeAfter_update hnode (.lock hlock) rfl n
  | permit hnode hlock => exact nodeAfter_update hnode (.permit hlock) rfl n
  | access hnode hlock => exact nodeAfter_update hnode (.access hlock) rfl n
  | owner hnode => exact nodeAfter_update hnode (.owner _) rfl n
  | dropNode _ _ _ _ hremove => exact (vsNodeDestroy_nodeAfter (Or.inl rfl) hremove n).of_setEntity
  | removeTag _ _ _ _ _ hremove =>
      obtain ⟨tg, tag, -, -, rfl⟩ := vsTagDestroy_cases hremove
      exact Or.inl rfl
  | removeTagGroup _ _ _ _ _ hremove =>
      obtain ⟨tg, d₁, node, -, hfreed, -, hnode, rfl⟩ := vsTaggroupDestroy_cases hremove
      refine NodeAfter.of_setEntity (nodeAfter_update hnode
        (.tagGroups (Or.inr rfl) (node.tagGroups.removeItem tg.id) node.lastTgId) ?_ n)
      rw [hfreed.kept]
      rfl
  | removeLayer _ _ _ _ _ hremove =>
      obtain ⟨layer, d₁, node, -, hsame, hnode, rfl⟩ := vsLayerDestroy_cases hremove
      refine NodeAfter.of_setEntity (nodeAfter_update hnode
        (.layers (Or.inr rfl) (node.layers.removeItem layer.id) node.firstFreeLayerId) ?_ n)
      rw [hsame.kept]
      rfl
  | removeNode hremove => exact vsNodeDestroy_nodeAfter (Or.inr rfl) hremove n
  | move _ hmove => exact moveLink_nodeAfter hmove n
  | _ => exact Or.inl rfl

end VSData

end Verse
