import Verse.Lib.Forest
import Verse.Nodes.LayerValues
import Verse.Nodes.Ownership

/-!
# Trees of layers

The layers of a node form a forest: a layer with a parent is once in its list of child
layers and in no other list.  This holds in every run.  When a layer is destroyed, the
layers below are destroyed with it, and when it is removed, they are left without a parent.
-/

namespace Verse

open Lib

namespace VSData

variable {d d' : VSData} {k : EffectKind}

/-! ## The forest -/

def layerParent (d : VSData) (c : ℕ) : Option ℕ := (d.layer c).bind VSLayer.parent
def layerChildren (d : VSData) (p : ℕ) : List ℕ := ((d.layer p).map VSLayer.childLayers).getD []

/-- Layers form a forest, and the layers of a tree belong to one node. -/
structure LayerForest (d : VSData) : Prop where
  forest : Forest d.layerParent d.layerChildren
  sameNode : ∀ {n t c p}, d.layersOf n = some t → d.layerParent c = some p →
    (c ∈ t.map Prod.snd ↔ p ∈ t.map Prod.snd)

/-- The place of a layer in its tree. -/
def layerPlace (d : VSData) (a : ℕ) : Option (Option ℕ × List ℕ) :=
  (d.layer a).map fun l => (l.parent, l.childLayers)

theorem layerParent_eq (d : VSData) (c : ℕ) : d.layerParent c = (d.layerPlace c).bind Prod.fst := by
  rw [layerParent, layerPlace]
  cases d.layer c <;> rfl

theorem layerChildren_eq (d : VSData) (p : ℕ) :
    d.layerChildren p = ((d.layerPlace p).map Prod.snd).getD [] := by
  rw [layerChildren, layerPlace]
  cases d.layer p <;> rfl

theorem isChildLayer_iff {p c : ℕ} : d.IsChildLayer p c ↔ c ∈ d.layerChildren p := by
  rw [IsChildLayer, layerChildren]
  cases d.layer p <;> simp

theorem LayerForest.same (h : d.LayerForest) (hplace : d'.layerPlace = d.layerPlace)
    (hlayers : ∀ n t, d'.layersOf n = some t → t = [] ∨ d.layersOf n = some t) :
    d'.LayerForest := by
  have hparent : d'.layerParent = d.layerParent := by
    funext c
    rw [layerParent_eq, layerParent_eq, hplace]
  have hchildren : d'.layerChildren = d.layerChildren := by
    funext p
    rw [layerChildren_eq, layerChildren_eq, hplace]
  refine ⟨by rw [hparent, hchildren]; exact h.forest, fun {n t c p} ht hp => ?_⟩
  rw [hparent] at hp
  rcases hlayers n t ht with rfl | ht
  · simp
  · exact h.sameNode ht hp

/-- A change of another kind leaves the places of layers as they are. -/
theorem Effect.layerPlace_kept (he : Effect k d d') (hk : k ∉ contentChanges) :
    d'.layerPlace = d.layerPlace := by
  cases he with
  | push hpush _ _ | pushSet hpush _ _ =>
      obtain ⟨sub, -, rfl⟩ := push_eq_some.mp hpush
      rfl
  | unfollow hfree =>
      obtain ⟨e, -, rfl⟩ := freeFollower_eq_some hfree
      rfl
  | freeSub _ hfree =>
      obtain ⟨sub, node, -, -, rfl⟩ := freeSub_eq_some hfree
      rfl
  | layerValue hlayer | joinLayer _ _ hlayer _ | leaveLayer hlayer _ =>
      exact map_update_same hlayer rfl
  | move _ hmove =>
      obtain ⟨onode, d₁, pnode, d₂, -, rfl, -, rfl, hlevels⟩ := moveLink_cases hmove
      rw [hlevels.kept]
      rfl
  | newTag | newTagGroup | newLayer | newNode | newRoot | dropNode | removeTag | removeTagGroup
  | removeLayer | removeNode => exact absurd (by simp [contentChanges]) hk
  | _ => rfl

theorem layerPlace_of_layer (h : d'.layer = d.layer) : d'.layerPlace = d.layerPlace := by
  funext a
  rw [layerPlace, layerPlace, h]

/-! ### New layers -/

theorem LayerForest.newLayer (h : d.LayerForest) (hfresh : d.Fresh) (howned : d.ContentOwned)
    {n dataType count type a : ℕ} {parent : Option ℕ} {node : VSNode}
    (hnode : d.node n = some node)
    (hparent : ∀ p, parent = some p → p ∈ node.layers.map Prod.snd)
    (hcreate : d.vsLayerCreate n parent dataType count type = some (d', a)) :
    d'.LayerForest := by
  obtain ⟨node', key, layer, hnode', -, -, -, hlparent, hlchildren, -, hself, hothers, heq⟩ :=
    vsLayerCreate_layers hcreate
  obtain rfl := Option.some.inj (hnode.symm.trans hnode')
  have hnone := hfresh.layer d.next (Nat.le_refl _)
  have hlayers : d.layersOf n = some node.layers := by rw [layersOf, hnode, Option.map_some]
  have hlayersOf : d'.layersOf =
      Function.update d.layersOf n (some (node.layers ++ [(key, d.next)])) := by
    rw [heq]
    exact map_update _ _ _ _
  have hparentNext : d.layerParent d.next = none := by rw [layerParent, hnone, Option.bind_none]
  have hchildrenNext : d.layerChildren d.next = [] := by
    rw [layerChildren, hnone, Option.map_none, Option.getD_none]
  have hlayerParent : d'.layerParent = Function.update d.layerParent d.next parent := by
    funext c
    by_cases hc : c = d.next
    · subst hc
      rw [Function.update_self, layerParent, hself, Option.bind_some, hlparent]
    · rw [Function.update_of_ne hc, layerParent, layerParent, hothers c hc]
      split
      · cases d.layer c <;> rfl
      · rfl
  have hchildren : ∀ b, d'.layerChildren b =
      if parent = some b then d.layerChildren b ++ [d.next] else d.layerChildren b := by
    intro b
    by_cases hb : b = d.next
    · subst hb
      have hne : parent ≠ some d.next := by
        intro hp
        obtain ⟨id, hid, -⟩ := howned.layers.stored_of_mem hlayers (hparent _ hp)
        rw [layerId, hnone] at hid
        cases hid
      rw [if_neg hne, hchildrenNext, layerChildren, hself, Option.map_some, Option.getD_some,
        hlchildren]
    · rw [layerChildren, layerChildren, hothers b hb]
      split
      · rename_i hp
        obtain ⟨id, hid, -⟩ := howned.layers.stored_of_mem hlayers (hparent _ hp)
        obtain ⟨l, hl, -⟩ := Option.map_eq_some_iff.mp hid
        simp [hl]
      · rfl
  have hnot : ∀ {m t}, d.layersOf m = some t → d.next ∉ t.map Prod.snd := by
    intro m t ht hmem
    obtain ⟨id, hid, -⟩ := howned.layers.stored_of_mem ht hmem
    rw [layerId, hnone] at hid
    cases hid
  refine ⟨?_, fun {m t c q} ht hq => ?_⟩
  · cases parent with
    | none =>
        have hsame : d'.layerParent = d.layerParent := by
          rw [hlayerParent, ← hparentNext, Function.update_eq_self]
        have hsame' : d'.layerChildren = d.layerChildren := by
          funext b
          rw [hchildren b, if_neg (by simp)]
        rw [hsame, hsame']
        exact h.forest
    | some p =>
        have hp := hparent p rfl
        have hchildren' : d'.layerChildren =
            Function.update d.layerChildren p (d.layerChildren p ++ [d.next]) := by
          funext b
          rw [hchildren b]
          by_cases hb : b = p
          · subst hb
            rw [if_pos rfl, Function.update_self]
          · rw [if_neg fun h => hb (Option.some.inj h).symm, Function.update_of_ne hb]
        obtain ⟨id, hid, -⟩ := howned.layers.stored_of_mem hlayers hp
        have hlt : p < d.next := by
          by_contra hge
          rw [layerId, hfresh.layer p (Nat.le_of_not_lt hge)] at hid
          cases hid
        rw [hlayerParent, hchildren']
        exact h.forest.addLeaf hparentNext hchildrenNext hlt
  · rw [hlayerParent] at hq
    rw [hlayersOf] at ht
    by_cases hc : c = d.next
    · subst hc
      rw [Function.update_self] at hq
      by_cases hm : m = n
      · subst hm
        rw [Function.update_self] at ht
        obtain rfl := Option.some.inj ht
        simp [hparent q hq]
      · rw [Function.update_of_ne hm] at ht
        refine iff_of_false (hnot ht) fun hmem => hm ?_
        exact howned.layers.owner ht hlayers hmem (hparent q hq)
    · rw [Function.update_of_ne hc] at hq
      have hqne : q ≠ d.next := by
        rintro rfl
        have hmem := h.forest.mem_children hq
        rw [hchildrenNext] at hmem
        cases hmem
      by_cases hm : m = n
      · subst hm
        rw [Function.update_self] at ht
        obtain rfl := Option.some.inj ht
        have hsame := h.sameNode hlayers hq
        simp only [List.map_append, List.mem_append, List.map_cons, List.map_nil,
          List.mem_singleton, hc, hqne, or_false]
        exact hsame
      · rw [Function.update_of_ne hm] at ht
        exact h.sameNode ht hq

/-! ### Removed layers -/

theorem LayerForest.removeLayer (h : d.LayerForest) (howned : d.ContentOwned) {n a : ℕ}
    {node : VSNode} (hnode : d.node n = some node) (ha : a ∈ node.layers.map Prod.snd)
    (hdestroy : d.vsLayerDestroy n a = some d') : d'.LayerForest := by
  obtain ⟨layer, node', hlayer, hnode', hothers, hself, heq⟩ := vsLayerDestroy_layers hdestroy
  obtain rfl := Option.some.inj (hnode.symm.trans hnode')
  have hlayers : d.layersOf n = some node.layers := by rw [layersOf, hnode, Option.map_some]
  have hid : d.layerId a = some layer.id := by rw [layerId, hlayer, Option.map_some]
  have hlayersOf : d'.layersOf =
      Function.update d.layersOf n (some (node.layers.removeItem layer.id)) := by
    rw [heq]
    exact map_update _ _ _ _
  have hchildrenA : d.layerChildren a = layer.childLayers := by
    rw [layerChildren, hlayer, Option.map_some, Option.getD_some]
  have hparentA : d.layerParent a = layer.parent := by rw [layerParent, hlayer, Option.bind_some]
  have hparent : ∀ c, c ≠ a →
      d'.layerParent c = if c ∈ d.layerChildren a then none else d.layerParent c := by
    intro c hc
    rw [layerParent, layerParent, hothers c hc, hchildrenA]
    cases d.layer c with
    | none => simp
    | some l => simp [withoutLayer]
  have hchildren : ∀ p, p ≠ a → d'.layerChildren p =
      if d.layerParent a = some p then (d.layerChildren p).erase a else d.layerChildren p := by
    intro p hp
    rw [layerChildren, layerChildren, hothers p hp, hparentA]
    cases d.layer p with
    | none => simp
    | some l =>
        simp only [Option.map_some, Option.getD_some, withoutLayer]
  have hselfParent : d'.layerParent a = none := by rw [layerParent, hself, Option.bind_none]
  refine ⟨h.forest.removeItem hselfParent ?_ hparent hchildren, fun {m t c p} ht hp => ?_⟩
  · rw [layerChildren, hself, Option.map_none, Option.getD_none]
  · have hca : c ≠ a := by
      rintro rfl
      rw [hselfParent] at hp
      cases hp
    rw [hparent c hca] at hp
    split at hp
    · cases hp
    rename_i hnot
    have hpa : p ≠ a := by
      rintro rfl
      exact hnot (h.forest.mem_children hp)
    rw [hlayersOf] at ht
    by_cases hm : m = n
    · subst hm
      rw [Function.update_self] at ht
      obtain rfl := Option.some.inj ht
      have hmem : ∀ b, b ≠ a → (b ∈ (node.layers.removeItem layer.id).map Prod.snd ↔
          b ∈ node.layers.map Prod.snd) := by
        intro b hb
        simp only [List.mem_map]
        refine exists_congr fun x => ?_
        rw [HashTable.removeItem, howned.layers.mem_remove_iff hlayers ha hid]
        constructor
        · rintro ⟨⟨hx, -⟩, hxb⟩
          exact ⟨hx, hxb⟩
        · rintro ⟨hx, hxb⟩
          exact ⟨⟨hx, fun h => hb (hxb.symm.trans h)⟩, hxb⟩
      rw [hmem c hca, hmem p hpa]
      exact h.sameNode hlayers hp
    · rw [Function.update_of_ne hm] at ht
      exact h.sameNode ht hp

theorem LayerForest.destroyNode (h : d.LayerForest) {n : ℕ} (hdestroy : d.vsNodeDestroy n = some d') :
    d'.LayerForest := by
  rcases vsNodeDestroy_content hdestroy with rfl | ⟨node, hnode, hgone, hothers, hfreed⟩
  · exact h
  have hlayers : d.layersOf n = some node.layers := by rw [layersOf, hnode, Option.map_some]
  have hforest := h.forest.removeTrees (S := fun a => a ∈ node.layers.map Prod.snd)
    fun hp => h.sameNode hlayers hp
  have hparent : d'.layerParent =
      fun c => if c ∈ node.layers.map Prod.snd then none else d.layerParent c := by
    funext c
    rw [layerParent, layerParent, hfreed.layer c]
    split <;> rfl
  have hchildren : d'.layerChildren =
      fun p => if p ∈ node.layers.map Prod.snd then [] else d.layerChildren p := by
    funext p
    rw [layerChildren, layerChildren, hfreed.layer p]
    split <;> rfl
  refine ⟨by rw [hparent, hchildren]; exact hforest, fun {m t c p} ht hp => ?_⟩
  rw [hparent] at hp
  have hp : (if c ∈ node.layers.map Prod.snd then none else d.layerParent c) = some p := hp
  split at hp
  · cases hp
  · by_cases hm : m = n
    · rw [hm, layersOf, hgone] at ht
      cases ht
    · rw [(hothers m hm).2] at ht
      exact h.sameNode ht hp

/-! ### Runs -/

theorem LayerForest.setEntity {a : ℕ} {e : Option VSEntity} (h : d.LayerForest) :
    (d.setEntity a e).LayerForest := h.same rfl fun _ _ ht => Or.inr ht

theorem Effect.layerForest (he : Effect k d d') (hfresh : d.Fresh) (howned : d.ContentOwned)
    (h : d.LayerForest) : d'.LayerForest := by
  by_cases hk : k ∈ contentChanges
  swap
  · refine h.same (he.layerPlace_kept hk) fun n t ht => Or.inr ?_
    rwa [(he.sameContent hk).layersOf] at ht
  cases he with
  | newTag hcreate =>
      obtain ⟨tg, id, tag, -, -, -, rfl⟩ := vsTagCreate_eq hcreate
      exact h.same rfl fun _ _ ht => Or.inr ht
  | newTagGroup hcreate =>
      rcases vsTaggroupCreate_eq hcreate with ⟨-, hnone⟩ | ⟨node, id, tg, hnode, -, -, -, -, heq⟩
      · cases hnone
      · have hlayersOf : d'.layersOf = d.layersOf := by
          rw [heq]
          exact map_update_same hnode rfl
        refine h.same (layerPlace_of_layer (by rw [heq])) fun n t ht => Or.inr ?_
        rwa [hlayersOf] at ht
  | newLayer hnode hparent hcreate => exact h.newLayer hfresh howned hnode hparent hcreate
  | newNode hcreate | newRoot hcreate =>
      obtain ⟨-, hlayersOf, -, -, hlayer, -⟩ := vsNodeCreateLinked_tables hcreate
      refine h.same (layerPlace_of_layer hlayer) fun n t ht => ?_
      rw [hlayersOf] at ht
      by_cases hn : n = d.next
      · subst hn
        rw [Function.update_self] at ht
        exact Or.inl (Option.some.inj ht).symm
      · rw [Function.update_of_ne hn] at ht
        exact Or.inr ht
  | dropNode _ _ _ _ hremove => exact h.setEntity.destroyNode hremove
  | removeTag _ _ _ _ _ hremove =>
      obtain ⟨tg, tag, -, -, rfl⟩ := vsTagDestroy_cases hremove
      exact h.same rfl fun _ _ ht => Or.inr ht
  | removeTagGroup _ _ _ _ _ hremove =>
      obtain ⟨hlayersOf, hlayer⟩ := vsTaggroupDestroy_layers hremove
      refine h.same (layerPlace_of_layer hlayer) fun n t ht => Or.inr ?_
      rw [hlayersOf] at ht
      exact ht
  | removeLayer hnode ha _ _ _ hremove =>
      exact h.setEntity.removeLayer howned.setEntity hnode ha hremove
  | removeNode hremove => exact h.destroyNode hremove
  | _ => simp [contentChanges] at hk

theorem Effects.layerForest {S : Set EffectKind} (h : Effects S d d') (hfresh : d.Fresh)
    (howned : d.ContentOwned) (hforest : d.LayerForest) : d'.LayerForest := by
  have hall : d'.Fresh ∧ d'.ContentOwned ∧ d'.LayerForest := by
    refine h.invariant (fun k d d' _ he (hd : d.Fresh ∧ d.ContentOwned ∧ d.LayerForest) => ?_)
      ⟨hfresh, howned, hforest⟩
    obtain ⟨hfresh, howned, hforest⟩ := hd
    exact ⟨he.fresh hfresh, he.contentOwned hfresh howned, he.layerForest hfresh howned hforest⟩
  exact hall.2.2

theorem layerForest_of_layer (h : ∀ a, d.layer a = none) : d.LayerForest := by
  have hparent : d.layerParent = fun _ => none := by
    funext c
    rw [layerParent, h c, Option.bind_none]
  have hchildren : d.layerChildren = fun _ => [] := by
    funext p
    rw [layerChildren, h p, Option.map_none, Option.getD_none]
  refine ⟨by rw [hparent, hchildren]; exact Forest.empty, fun {n t c p} _ hp => ?_⟩
  rw [hparent] at hp
  cases hp

/-- The trees of layers in memory: a layer with a parent is once in its list of child layers
and in no other list, all that is listed is a layer, and there are no cycles. -/
structure LayerTrees (d : VSData) : Prop where
  listed : ∀ c layer p, d.layer c = some layer → layer.parent = some p →
    ∃ parent, d.layer p = some parent ∧ parent.childLayers.count c = 1
  only : ∀ b parent c, d.layer b = some parent → c ∈ parent.childLayers →
    ∃ layer, d.layer c = some layer ∧ layer.parent = some b
  acyclic : ∀ c, ¬ Relation.TransGen (fun c p => d.layerParent c = some p) c c

theorem LayerForest.trees (h : d.LayerForest) : d.LayerTrees where
  listed c layer p hlayer hp := by
    have hparent : d.layerParent c = some p := by rw [layerParent, hlayer, Option.bind_some, hp]
    have hmem := h.forest.mem_children hparent
    obtain ⟨parent, hparent', -⟩ := isChildLayer_iff.mpr hmem
    have hcount := h.forest.count_eq_one hparent
    rw [layerChildren, hparent', Option.map_some, Option.getD_some] at hcount
    exact ⟨parent, hparent', hcount⟩
  only b parent c hparent hc := by
    have hmem := isChildLayer_iff.mp ⟨parent, hparent, hc⟩
    exact Option.bind_eq_some_iff.mp (h.forest.parent_of_mem hmem)
  acyclic := h.forest.acyclic

end VSData

end Verse
