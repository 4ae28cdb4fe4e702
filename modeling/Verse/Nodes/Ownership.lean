import Verse.Lib.Tables
import Verse.Nodes.NodeIds
import Verse.Nodes.Removal

/-!
# Whose content it is

Every tag group and every layer belongs to one node, and every tag to one tag group, under
its own id.  A command that names a node can thus only reach what belongs to that node.
The tables and their items are those of `Owned`; nodes, tag groups, tags and layers never
share an address.
-/

namespace Verse

open Lib

theorem HashTable.freeEntityId_free {t : HashTable} {fuel id id' : ℕ}
    (h : freeEntityId t fuel id = some id') : ∀ b ∈ t, b.1 ≠ id' := by
  induction fuel generalizing id with
  | zero => cases h
  | succ fuel ih =>
      unfold freeEntityId at h
      split at h
      · exact ih h
      · rename_i hfree
        obtain rfl := Option.some.inj h
        exact HashTable.findItem_eq_none.mp (by simpa using hfree)

namespace VSData

variable {d d' : VSData} {k : EffectKind}

/-! ## Tables and ids -/

def tagGroupsOf (d : VSData) (n : ℕ) : Option HashTable := (d.node n).map VSNode.tagGroups
def layersOf (d : VSData) (n : ℕ) : Option HashTable := (d.node n).map VSNode.layers
def tagsOf (d : VSData) (g : ℕ) : Option HashTable := (d.tagGroup g).map VSTagGroup.tags
def tagGroupId (d : VSData) (g : ℕ) : Option ℕ := (d.tagGroup g).map VSTagGroup.id
def tagId (d : VSData) (a : ℕ) : Option ℕ := (d.tag a).map VSTag.id
def layerId (d : VSData) (a : ℕ) : Option ℕ := (d.layer a).map VSLayer.id

/-- What is stored at an address is of one kind. -/
structure OneKind (d : VSData) (a : ℕ) : Prop where
  node : (d.node a).isSome → ¬ d.IsContent a
  tag : (d.tag a).isSome → d.tagGroup a = none
  layer : (d.layer a).isSome → d.tagGroup a = none ∧ d.tag a = none

structure ContentOwned (d : VSData) : Prop where
  tagGroups : Owned d.tagGroupsOf d.tagGroupId
  layers : Owned d.layersOf d.layerId
  tags : Owned d.tagsOf d.tagId
  apart : ∀ a, d.OneKind a

theorem ContentOwned.exists_tagGroup (h : d.ContentOwned) {n g : ℕ} {node : VSNode}
    (hnode : d.node n = some node) (hg : g ∈ node.tagGroups.map Prod.snd) :
    ∃ tg, d.tagGroup g = some tg := by
  have htable : d.tagGroupsOf n = some node.tagGroups := by rw [tagGroupsOf, hnode, Option.map_some]
  obtain ⟨key, hkey, -⟩ := h.tagGroups.stored_of_mem htable hg
  obtain ⟨tg, htg, -⟩ := Option.map_eq_some_iff.mp hkey
  exact ⟨tg, htg⟩

theorem ContentOwned.exists_layer (h : d.ContentOwned) {n a : ℕ} {node : VSNode}
    (hnode : d.node n = some node) (ha : a ∈ node.layers.map Prod.snd) :
    ∃ layer, d.layer a = some layer := by
  have htable : d.layersOf n = some node.layers := by rw [layersOf, hnode, Option.map_some]
  obtain ⟨key, hkey, -⟩ := h.layers.stored_of_mem htable ha
  obtain ⟨layer, hlayer, -⟩ := Option.map_eq_some_iff.mp hkey
  exact ⟨layer, hlayer⟩

theorem ContentOwned.exists_tag (h : d.ContentOwned) {g a : ℕ} {tg : VSTagGroup}
    (htg : d.tagGroup g = some tg) (ha : a ∈ tg.tags.map Prod.snd) :
    ∃ tag, d.tag a = some tag := by
  have htable : d.tagsOf g = some tg.tags := by rw [tagsOf, htg, Option.map_some]
  obtain ⟨key, hkey, -⟩ := h.tags.stored_of_mem htable ha
  obtain ⟨tag, htag, -⟩ := Option.map_eq_some_iff.mp hkey
  exact ⟨tag, htag⟩

/-- Tables and ids are the same. -/
structure SameContent (d d' : VSData) : Prop where
  tagGroupsOf : d'.tagGroupsOf = d.tagGroupsOf
  layersOf : d'.layersOf = d.layersOf
  tagsOf : d'.tagsOf = d.tagsOf
  tagGroupId : d'.tagGroupId = d.tagGroupId
  tagId : d'.tagId = d.tagId
  layerId : d'.layerId = d.layerId

theorem SameContent.of_eq (hnode : d'.node = d.node) (htg : d'.tagGroup = d.tagGroup)
    (htag : d'.tag = d.tag) (hlayer : d'.layer = d.layer) : SameContent d d' := by
  refine ⟨?_, ?_, ?_, ?_, ?_, ?_⟩ <;> funext a
  · rw [VSData.tagGroupsOf, VSData.tagGroupsOf, hnode]
  · rw [VSData.layersOf, VSData.layersOf, hnode]
  · rw [VSData.tagsOf, VSData.tagsOf, htg]
  · rw [VSData.tagGroupId, VSData.tagGroupId, htg]
  · rw [VSData.tagId, VSData.tagId, htag]
  · rw [VSData.layerId, VSData.layerId, hlayer]

theorem SameContent.refl (d : VSData) : SameContent d d := .of_eq rfl rfl rfl rfl

theorem SameContent.trans {d'' : VSData} (h : SameContent d d') (h' : SameContent d' d'') :
    SameContent d d'' where
  tagGroupsOf := h'.tagGroupsOf.trans h.tagGroupsOf
  layersOf := h'.layersOf.trans h.layersOf
  tagsOf := h'.tagsOf.trans h.tagsOf
  tagGroupId := h'.tagGroupId.trans h.tagGroupId
  tagId := h'.tagId.trans h.tagId
  layerId := h'.layerId.trans h.layerId

theorem isSome_of_map_eq {α β : Type*} {f g : ℕ → Option α} {p : α → β}
    (h : (fun a => (f a).map p) = fun a => (g a).map p) (a : ℕ) : (f a).isSome = (g a).isSome := by
  have ha := congrArg Option.isSome (congrFun h a)
  simpa using ha

/-- An item is replaced by one with the same part. -/
theorem map_update_same {α β : Type*} {f : ℕ → Option α} {p : α → β} {a : ℕ} {x y : α}
    (ha : f a = some x) (hp : p y = p x) :
    (fun b => (Function.update f a (some y) b).map p) = fun b => (f b).map p := by
  funext b
  by_cases hb : b = a
  · subst hb
    rw [Function.update_self, ha, Option.map_some, Option.map_some, hp]
  · rw [Function.update_of_ne hb]

theorem map_update {α β : Type*} (f : ℕ → Option α) (p : α → β) (a : ℕ) (v : Option α) :
    (fun b => (Function.update f a v b).map p) = Function.update (fun b => (f b).map p) a (v.map p) := by
  funext b
  by_cases hb : b = a
  · subst hb
    rw [Function.update_self, Function.update_self]
  · rw [Function.update_of_ne hb, Function.update_of_ne hb]

theorem sameContent_setNode {n : ℕ} {node node' : VSNode} (hnode : d.node n = some node)
    (htagGroups : node'.tagGroups = node.tagGroups) (hlayers : node'.layers = node.layers) :
    SameContent d (d.setNode n (some node')) :=
  ⟨map_update_same hnode htagGroups, map_update_same hnode hlayers, rfl, rfl, rfl, rfl⟩

theorem sameContent_setTagGroup {g : ℕ} {tg tg' : VSTagGroup} (htg : d.tagGroup g = some tg)
    (htags : tg'.tags = tg.tags) (hid : tg'.id = tg.id) :
    SameContent d (d.setTagGroup g (some tg')) :=
  ⟨rfl, rfl, map_update_same htg htags, map_update_same htg hid, rfl, rfl⟩

theorem sameContent_setTag {a : ℕ} {tag tag' : VSTag} (htag : d.tag a = some tag)
    (hid : tag'.id = tag.id) : SameContent d (d.setTag a (some tag')) :=
  ⟨rfl, rfl, rfl, rfl, map_update_same htag hid, rfl⟩

theorem sameContent_setLayer {a : ℕ} {layer layer' : VSLayer} (hlayer : d.layer a = some layer)
    (hid : layer'.id = layer.id) : SameContent d (d.setLayer a (some layer')) :=
  ⟨rfl, rfl, rfl, rfl, rfl, map_update_same hlayer hid⟩

/-- Nothing else is stored at an address than before. -/
structure StoresLess (d d' : VSData) (a : ℕ) : Prop where
  node : (d'.node a).isSome → (d.node a).isSome
  tagGroup : (d'.tagGroup a).isSome → (d.tagGroup a).isSome
  tag : (d'.tag a).isSome → (d.tag a).isSome
  layer : (d'.layer a).isSome → (d.layer a).isSome

theorem OneKind.less {a : ℕ} (h : d.OneKind a) (hless : StoresLess d d' a) : d'.OneKind a := by
  have hnone : ∀ {α : Type} {x y : Option α}, (y.isSome → x.isSome) → x = none → y = none := by
    intro α x y hxy hx
    rw [← Option.not_isSome_iff_eq_none] at hx ⊢
    exact fun hy => hx (hxy hy)
  refine ⟨fun hnode => ?_, fun htag => ?_, fun hlayer => ?_⟩
  · obtain ⟨hg, ht, hl⟩ := not_isContent.mp (h.node (hless.node hnode))
    exact not_isContent.mpr ⟨hnone hless.tagGroup hg, hnone hless.tag ht, hnone hless.layer hl⟩
  · exact hnone hless.tagGroup (h.tag (hless.tag htag))
  · obtain ⟨hg, ht⟩ := h.layer (hless.layer hlayer)
    exact ⟨hnone hless.tagGroup hg, hnone hless.tag ht⟩

theorem SameContent.storesLess (h : SameContent d d') (a : ℕ) : StoresLess d d' a where
  node ha := by rwa [← isSome_of_map_eq h.tagGroupsOf]
  tagGroup ha := by rwa [← isSome_of_map_eq h.tagsOf]
  tag ha := by rwa [← isSome_of_map_eq h.tagId]
  layer ha := by rwa [← isSome_of_map_eq h.layerId]

theorem ContentOwned.same (h : d.ContentOwned) (hsame : SameContent d d') : d'.ContentOwned where
  tagGroups := by
    rw [hsame.tagGroupsOf, hsame.tagGroupId]
    exact h.tagGroups
  layers := by
    rw [hsame.layersOf, hsame.layerId]
    exact h.layers
  tags := by
    rw [hsame.tagsOf, hsame.tagId]
    exact h.tags
  apart a := (h.apart a).less (hsame.storesLess a)

/-! ## Changes -/

/-- The kinds of changes that add or remove content. -/
def contentChanges : Set EffectKind :=
  {.create, .createLayer, .newNode, .newRoot, .remove, .removeLayer, .dropNode, .removeNode}

theorem SameButLevels.sameContent (h : SameButLevels d d') : SameContent d d' := by
  have hkept : d'.tagGroup = d.tagGroup ∧ d'.tag = d.tag ∧ d'.layer = d.layer := by
    rw [h.kept]
    exact ⟨rfl, rfl, rfl⟩
  have hrest : SameContent { d with node := d'.node } d' :=
    .of_eq rfl hkept.1 hkept.2.1 hkept.2.2
  have hnodes : SameContent d { d with node := d'.node } := by
    refine ⟨?_, ?_, rfl, rfl, rfl, rfl⟩ <;> funext n
    · have hn := congrArg (Option.map VSNode.tagGroups) (h.node n)
      rw [Option.map_map, Option.map_map] at hn
      exact hn
    · have hn := congrArg (Option.map VSNode.layers) (h.node n)
      rw [Option.map_map, Option.map_map] at hn
      exact hn
  exact hnodes.trans hrest

theorem moveLink_sameContent {l old parent child : ℕ}
    (h : d.moveLink l old parent child = some d') : SameContent d d' := by
  obtain ⟨onode, d₁, pnode, d₂, honode, rfl, hpnode, rfl, hlevels⟩ := moveLink_cases h
  refine SameContent.trans ?_ hlevels.sameContent
  have hold : SameContent d (d.setNode old (some { onode with
      childrenLinks := onode.childrenLinks.erase l })) := sameContent_setNode honode rfl rfl
  have hparent : SameContent _ (_ : VSData) := sameContent_setNode hpnode
    (show ({ pnode with childrenLinks := pnode.childrenLinks ++ [l] } : VSNode).tagGroups =
      pnode.tagGroups from rfl) rfl
  exact (hold.trans hparent).trans (.of_eq rfl rfl rfl rfl)

/-- A change of another kind leaves the tables and ids as they are. -/
theorem Effect.sameContent (he : Effect k d d') (hk : k ∉ contentChanges) : SameContent d d' := by
  cases he with
  | push hpush _ _ | pushSet hpush _ _ =>
      obtain ⟨sub, -, rfl⟩ := push_eq_some.mp hpush
      exact .of_eq rfl rfl rfl rfl
  | unfollow hfree =>
      obtain ⟨e, -, rfl⟩ := freeFollower_eq_some hfree
      exact .of_eq rfl rfl rfl rfl
  | freeSub _ hfree =>
      obtain ⟨sub, node, -, hnode, rfl⟩ := freeSub_eq_some hfree
      rename_i n r _ _
      have hset : SameContent d (d.setNode n (some { node with
          nodeSubs := node.nodeSubs.erase r })) := sameContent_setNode hnode rfl rfl
      exact hset.trans (.of_eq rfl rfl rfl rfl)
  | tagValue htag => exact sameContent_setTag htag rfl
  | layerValue hlayer | joinLayer _ _ hlayer _ | leaveLayer hlayer _ =>
      exact sameContent_setLayer hlayer rfl
  | joinTagGroup _ _ htg _ | leaveTagGroup htg _ => exact sameContent_setTagGroup htg rfl rfl
  | subscribe hnode =>
      exact ⟨map_update_same hnode rfl, map_update_same hnode rfl, rfl, rfl, rfl, rfl⟩
  | lock hnode _ | permit hnode _ | access hnode _ | owner hnode => exact sameContent_setNode hnode rfl rfl
  | move _ hmove => exact moveLink_sameContent hmove
  | follow | tellNode | tellContent | tellLayer | mark | prio | session | ack | drop =>
      exact .of_eq rfl rfl rfl rfl
  | newTag | newTagGroup | newLayer | newNode | newRoot | dropNode | removeTag | removeTagGroup
  | removeLayer | removeNode => exact absurd (by simp [contentChanges]) hk

/-! ### New content -/

theorem isSome_update_of_some {α : Type*} {f : ℕ → Option α} {a : ℕ} {x y : α} (ha : f a = some x)
    (b : ℕ) : (Function.update f a (some y) b).isSome = (f b).isSome := by
  by_cases hb : b = a
  · subst hb
    rw [Function.update_self, ha]
    rfl
  · rw [Function.update_of_ne hb]

theorem none_of_isSome_eq {α : Type*} {x y : Option α} (h : y.isSome = x.isSome) (hx : x = none) :
    y = none := by
  rw [hx] at h
  exact Option.not_isSome_iff_eq_none.mp (by simp [h])

/-- One more thing is stored at the next address. -/
theorem oneKind_of_next (hapart : ∀ a, d.OneKind a)
    (hold : ∀ a, a ≠ d.next → StoresLess d d' a) (hnext : d'.OneKind d.next) (a : ℕ) :
    d'.OneKind a := by
  by_cases ha : a = d.next
  · rw [ha]
    exact hnext
  · exact (hapart a).less (hold a ha)

theorem ContentOwned.newTag (h : d.ContentOwned) (hfresh : d.Fresh)
    {g dataType count customType a : ℕ}
    (hcreate : d.vsTagCreate g dataType count customType = some (d', a)) : d'.ContentOwned := by
  simp only [vsTagCreate, Option.bind_eq_bind, Option.bind_eq_some_iff] at hcreate
  obtain ⟨tg, htg, key, hkey, hcreate⟩ := hcreate
  obtain ⟨heq, -⟩ := Prod.mk.inj (Option.some.inj hcreate)
  have htagGroupId : d'.tagGroupId = d.tagGroupId := by
    rw [← heq]
    exact map_update_same htg rfl
  have htagsOf : d'.tagsOf = Function.update d.tagsOf g (some (tg.tags ++ [(key, d.next)])) := by
    rw [← heq]
    exact map_update _ _ _ _
  have htagId : d'.tagId = Function.update d.tagId d.next (some key) := by
    rw [← heq]
    exact map_update _ _ _ _
  have htags : d.tagsOf g = some tg.tags := by rw [tagsOf, htg, Option.map_some]
  have hnew : d.tagId d.next = none := by rw [tagId, hfresh.tag _ (Nat.le_refl _), Option.map_none]
  have hnode : d'.node = d.node := by rw [← heq]; rfl
  have hlayer : d'.layer = d.layer := by rw [← heq]; rfl
  have htagGroup : ∀ b, (d'.tagGroup b).isSome = (d.tagGroup b).isSome := by
    intro b
    rw [← heq]
    exact isSome_update_of_some htg b
  have htag : ∀ b, b ≠ d.next → d'.tag b = d.tag b := by
    intro b hb
    rw [← heq]
    exact Function.update_of_ne hb _ _
  refine ⟨?_, ?_, ?_, oneKind_of_next h.apart (fun b hb => ?_) ⟨fun hn => ?_, fun _ => ?_, fun hl => ?_⟩⟩
  · rw [htagGroupId, ← heq]
    exact h.tagGroups
  · rw [← heq]
    exact h.layers
  · rw [htagsOf, htagId]
    exact h.tags.add htags (HashTable.freeEntityId_free hkey) hnew
  · exact ⟨by rw [hnode]; exact fun h => h, by rw [htagGroup]; exact fun h => h,
      by rw [htag b hb]; exact fun h => h, by rw [hlayer]; exact fun h => h⟩
  · rw [hnode, hfresh.node _ (Nat.le_refl _)] at hn
    cases hn
  · exact none_of_isSome_eq (htagGroup _) (hfresh.tagGroup _ (Nat.le_refl _))
  · rw [hlayer, hfresh.layer _ (Nat.le_refl _)] at hl
    cases hl

theorem ContentOwned.newTagGroup (h : d.ContentOwned) (hfresh : d.Fresh) {n customType g : ℕ}
    (hcreate : d.vsTaggroupCreate n customType = some (d', some g)) : d'.ContentOwned := by
  simp only [vsTaggroupCreate, Option.bind_eq_bind, Option.bind_eq_some_iff] at hcreate
  obtain ⟨node, hnode, hcreate⟩ := hcreate
  split at hcreate
  swap
  · cases hcreate
  obtain ⟨key, hkey, hcreate⟩ := Option.bind_eq_some_iff.mp hcreate
  obtain ⟨heq, -⟩ := Prod.mk.inj (Option.some.inj hcreate)
  have htagGroupsOf : d'.tagGroupsOf =
      Function.update d.tagGroupsOf n (some (node.tagGroups ++ [(key, d.next)])) := by
    rw [← heq]
    exact map_update _ _ _ _
  have hlayersOf : d'.layersOf = d.layersOf := by
    rw [← heq]
    exact map_update_same hnode rfl
  have htagGroupId : d'.tagGroupId = Function.update d.tagGroupId d.next (some key) := by
    rw [← heq]
    exact map_update _ _ _ _
  have htagsOf : d'.tagsOf = Function.update d.tagsOf d.next (some []) := by
    rw [← heq]
    exact map_update _ _ _ _
  have hgroups : d.tagGroupsOf n = some node.tagGroups := by rw [tagGroupsOf, hnode, Option.map_some]
  have hnone := hfresh.tagGroup d.next (Nat.le_refl _)
  have hnodes : ∀ b, (d'.node b).isSome = (d.node b).isSome := by
    intro b
    rw [← heq]
    exact isSome_update_of_some hnode b
  have htag : d'.tag = d.tag := by rw [← heq]; rfl
  have hlayer : d'.layer = d.layer := by rw [← heq]; rfl
  have htagGroup : ∀ b, b ≠ d.next → d'.tagGroup b = d.tagGroup b := by
    intro b hb
    rw [← heq]
    exact Function.update_of_ne hb _ _
  refine ⟨?_, ?_, ?_, oneKind_of_next h.apart (fun b hb => ?_) ⟨fun hn => ?_, fun ht => ?_, fun hl => ?_⟩⟩
  · rw [htagGroupsOf, htagGroupId]
    exact h.tagGroups.add hgroups (HashTable.freeEntityId_free hkey)
      (by rw [tagGroupId, hnone, Option.map_none])
  · rw [hlayersOf, ← heq]
    exact h.layers
  · rw [htagsOf, ← heq]
    exact h.tags.newTable (by rw [tagsOf, hnone, Option.map_none])
  · exact ⟨by rw [hnodes]; exact fun h => h, by rw [htagGroup b hb]; exact fun h => h,
      by rw [htag]; exact fun h => h, by rw [hlayer]; exact fun h => h⟩
  · rw [hnodes, hfresh.node _ (Nat.le_refl _)] at hn
    cases hn
  · rw [htag, hfresh.tag _ (Nat.le_refl _)] at ht
    cases ht
  · rw [hlayer, hfresh.layer _ (Nat.le_refl _)] at hl
    cases hl

/-! ### Layers -/

theorem modifyLayer_layer (d : VSData) (a : ℕ) (f : VSLayer → VSLayer) (b : ℕ) :
    (d.modifyLayer a f).layer b = if b = a then (d.layer b).map f else d.layer b := by
  by_cases hb : b = a
  · subst hb
    rw [if_pos rfl]
    exact Function.update_self _ _ _
  · rw [if_neg hb]
    exact Function.update_of_ne hb _ _

/-- A layer is created behind the child layers of its parent. -/
theorem vsLayerCreate_layers {n dataType count type a : ℕ} {parent : Option ℕ}
    (h : d.vsLayerCreate n parent dataType count type = some (d', a)) :
    ∃ node key layer, d.node n = some node ∧ (∀ b ∈ node.layers, b.1 ≠ key) ∧ a = d.next ∧
      layer.id = key ∧ layer.parent = parent ∧ layer.childLayers = [] ∧ layer.subs = [] ∧
      d'.layer d.next = some layer ∧
      (∀ b, b ≠ d.next → d'.layer b = if parent = some b then
        (d.layer b).map fun l => { l with childLayers := l.childLayers ++ [d.next] }
        else d.layer b) ∧
      d' = { d with
        next := d.next + 1
        layer := d'.layer
        entity := Function.update d.entity d.next (some ⟨.reserved, []⟩)
        node := Function.update d.node n (some { node with
          layers := node.layers ++ [(key, d.next)], firstFreeLayerId := (key + 1) % 65536 }) } := by
  simp only [vsLayerCreate, Option.bind_eq_bind, Option.bind_eq_some_iff] at h
  obtain ⟨node, hnode, key, hkey, h⟩ := h
  obtain ⟨rfl, rfl⟩ := Prod.mk.inj (Option.some.inj h)
  refine ⟨node, key, _, hnode, HashTable.freeEntityId_free hkey, rfl, rfl, rfl, rfl, rfl,
    Function.update_self _ _ _, fun b hb => (Function.update_of_ne hb _ _).trans ?_, ?_⟩
  · cases parent with
    | none => rfl
    | some p =>
        refine (modifyLayer_layer _ p _ b).trans ?_
        by_cases hbp : b = p
        · subst hbp
          rw [if_pos rfl, if_pos rfl]
        · rw [if_neg hbp, if_neg fun h => hbp (Option.some.inj h).symm]
  · cases parent <;> rfl

/-- What is left of a layer when the layer `a` is removed. -/
def withoutLayer (a : ℕ) (layer : VSLayer) (b : ℕ) (l : VSLayer) : VSLayer :=
  { l with
    parent := if b ∈ layer.childLayers then none else l.parent
    childLayers := if layer.parent = some b then l.childLayers.erase a else l.childLayers }

theorem orphan_layer (d : VSData) (cs : List ℕ) (b : ℕ) :
    (cs.foldl (fun d c => d.modifyLayer c fun l => { l with parent := none }) d).layer b =
      (d.layer b).map fun l => { l with parent := if b ∈ cs then none else l.parent } := by
  induction cs generalizing d with
  | nil => cases h : d.layer b <;> simp [h]
  | cons c rest ih =>
      rw [List.foldl_cons, ih, modifyLayer_layer]
      by_cases hbc : b = c
      · subst hbc
        cases h : d.layer b <;> simp
      · rw [if_neg hbc]
        simp [hbc]

theorem vsLayerDestroy_layers {n a : ℕ} (h : d.vsLayerDestroy n a = some d') :
    ∃ layer node, d.layer a = some layer ∧ d.node n = some node ∧
      (∀ b, b ≠ a → d'.layer b = (d.layer b).map (withoutLayer a layer b)) ∧ d'.layer a = none ∧
      d' = { d with
        layer := d'.layer
        entity := Function.update d.entity a none
        node := Function.update d.node n
          (some { node with layers := node.layers.removeItem layer.id }) } := by
  obtain ⟨layer, d₁, node, hlayer, hsame, hnode, heq⟩ := vsLayerDestroy_cases h
  have hkept : d' = { d with
      layer := d'.layer
      entity := Function.update d.entity a none
      node := Function.update d.node n
        (some { node with layers := node.layers.removeItem layer.id }) } := by
    rw [heq, hsame.kept]
    rfl
  obtain ⟨layer', hlayer', h⟩ := Option.bind_eq_some_iff.mp h
  obtain rfl := Option.some.inj (hlayer.symm.trans hlayer')
  obtain ⟨node', -, rfl⟩ := modifyNode_eq_some h
  refine ⟨layer, node, hlayer, hnode, fun b hb => ?_, Function.update_self _ _ _, hkept⟩
  refine (Function.update_of_ne hb _ _).trans ?_
  cases hparent : layer.parent with
  | none =>
      refine (orphan_layer d layer.childLayers b).trans ?_
      cases hl : d.layer b <;> simp [withoutLayer, hparent]
  | some p =>
      refine (modifyLayer_layer _ p _ b).trans ?_
      rw [orphan_layer]
      by_cases hbp : b = p
      · subst hbp
        cases hl : d.layer b <;> simp [withoutLayer, hparent]
      · have hne : p ≠ b := fun h => hbp h.symm
        cases hl : d.layer b <;> simp [withoutLayer, hparent, hbp, hne]

theorem ContentOwned.newLayer (h : d.ContentOwned) (hfresh : d.Fresh)
    {n dataType count type a : ℕ} {parent : Option ℕ}
    (hcreate : d.vsLayerCreate n parent dataType count type = some (d', a)) :
    d'.ContentOwned := by
  obtain ⟨node, key, layer, hnode, hkey, -, hid, -, -, -, hself, hothers, heq⟩ :=
    vsLayerCreate_layers hcreate
  have htagGroupsOf : d'.tagGroupsOf = d.tagGroupsOf := by
    rw [heq]
    exact map_update_same hnode rfl
  have hlayersOf : d'.layersOf =
      Function.update d.layersOf n (some (node.layers ++ [(key, d.next)])) := by
    rw [heq]
    exact map_update _ _ _ _
  have hlayerId : d'.layerId = Function.update d.layerId d.next (some key) := by
    funext b
    by_cases hb : b = d.next
    · subst hb
      rw [Function.update_self, layerId, hself, Option.map_some, hid]
    · rw [Function.update_of_ne hb, layerId, layerId, hothers b hb]
      split
      · rw [Option.map_map]
        rfl
      · rfl
  have hlayers : d.layersOf n = some node.layers := by rw [layersOf, hnode, Option.map_some]
  have hnone := hfresh.layer d.next (Nat.le_refl _)
  have hnodes : ∀ b, (d'.node b).isSome = (d.node b).isSome := by
    intro b
    rw [heq]
    exact isSome_update_of_some hnode b
  have htagGroup : d'.tagGroup = d.tagGroup := by rw [heq]
  have htag : d'.tag = d.tag := by rw [heq]
  have hlayer : ∀ b, b ≠ d.next → (d'.layer b).isSome = (d.layer b).isSome := by
    intro b hb
    rw [hothers b hb]
    split
    · exact Option.isSome_map
    · rfl
  refine ⟨?_, ?_, ?_, oneKind_of_next h.apart (fun b hb => ?_) ⟨fun hn => ?_, fun ht => ?_, fun _ => ⟨?_, ?_⟩⟩⟩
  · rw [htagGroupsOf, heq]
    exact h.tagGroups
  · rw [hlayersOf, hlayerId]
    exact h.layers.add hlayers hkey (by rw [layerId, hnone, Option.map_none])
  · rw [heq]
    exact h.tags
  · exact ⟨by rw [hnodes]; exact fun h => h, by rw [htagGroup]; exact fun h => h,
      by rw [htag]; exact fun h => h, by rw [hlayer b hb]; exact fun h => h⟩
  · rw [hnodes, hfresh.node _ (Nat.le_refl _)] at hn
    cases hn
  · rw [htag, hfresh.tag _ (Nat.le_refl _)] at ht
    cases ht
  · rw [htagGroup]
    exact hfresh.tagGroup _ (Nat.le_refl _)
  · rw [htag]
    exact hfresh.tag _ (Nat.le_refl _)

/-! ### New nodes -/

/-- The new node has no content, and its parent keeps its own. -/
theorem vsNodeCreateLinked_tables {parent : Option ℕ} {heap owner nodeId customType n : ℕ}
    (hcreate : d.vsNodeCreateLinked heap parent owner nodeId customType = some (d', some n)) :
    d'.tagGroupsOf = Function.update d.tagGroupsOf d.next (some []) ∧
      d'.layersOf = Function.update d.layersOf d.next (some []) ∧
      d'.tagGroup = d.tagGroup ∧ d'.tag = d.tag ∧ d'.layer = d.layer ∧
      ∀ b, b ≠ d.next → (d'.node b).isSome = (d.node b).isSome := by
  rcases vsNodeCreateLinked_eq hcreate with ⟨-, hcreated⟩ | ⟨id, last, d₁, -, -, hd₁, -, rfl⟩
  · cases hcreated
  rcases createLinked_eq hd₁ with ⟨-, rfl⟩ | ⟨p, pnode, -, hpnode, rfl⟩
  · refine ⟨map_update _ _ _ _, map_update _ _ _ _, rfl, rfl, rfl, fun b hb => ?_⟩
    exact congrArg Option.isSome (Function.update_of_ne hb _ _)
  · refine ⟨(map_update _ _ _ _).trans (congrArg₂ (fun f v => Function.update f d.next v)
      (map_update_same hpnode rfl) rfl), (map_update _ _ _ _).trans
      (congrArg₂ (fun f v => Function.update f d.next v) (map_update_same hpnode rfl) rfl),
      rfl, rfl, rfl, fun b hb => ?_⟩
    exact (congrArg Option.isSome (Function.update_of_ne hb _ _)).trans
      (isSome_update_of_some hpnode b)

theorem ContentOwned.createNode (h : d.ContentOwned) (hfresh : d.Fresh) {parent : Option ℕ}
    {heap owner nodeId customType n : ℕ}
    (hcreate : d.vsNodeCreateLinked heap parent owner nodeId customType = some (d', some n)) :
    d'.ContentOwned := by
  have hnone := hfresh.node d.next (Nat.le_refl _)
  obtain ⟨htagGroupsOf, hlayersOf, htagGroup, htag, hlayer, hnodes⟩ :=
    vsNodeCreateLinked_tables hcreate
  have hgroupIds : d'.tagGroupId = d.tagGroupId := by
    funext b
    rw [tagGroupId, tagGroupId, htagGroup]
  have hlayerIds : d'.layerId = d.layerId := by
    funext b
    rw [layerId, layerId, hlayer]
  have htags : d'.tagsOf = d.tagsOf ∧ d'.tagId = d.tagId := by
    constructor <;> funext b
    · rw [tagsOf, tagsOf, htagGroup]
    · rw [tagId, tagId, htag]
  refine ⟨?_, ?_, ?_, oneKind_of_next h.apart (fun b hb => ?_) ⟨fun _ => ?_, fun ht => ?_, fun hl => ?_⟩⟩
  · rw [htagGroupsOf, hgroupIds]
    exact h.tagGroups.newTable (by rw [tagGroupsOf, hnone, Option.map_none])
  · rw [hlayersOf, hlayerIds]
    exact h.layers.newTable (by rw [layersOf, hnone, Option.map_none])
  · rw [htags.1, htags.2]
    exact h.tags
  · exact ⟨by rw [hnodes b hb]; exact fun h => h, by rw [htagGroup]; exact fun h => h,
      by rw [htag]; exact fun h => h, by rw [hlayer]; exact fun h => h⟩
  · rw [not_isContent, htagGroup, htag, hlayer]
    exact ⟨hfresh.tagGroup _ (Nat.le_refl _), hfresh.tag _ (Nat.le_refl _),
      hfresh.layer _ (Nat.le_refl _)⟩
  · rw [htag, hfresh.tag _ (Nat.le_refl _)] at ht
    cases ht
  · rw [hlayer, hfresh.layer _ (Nat.le_refl _)] at hl
    cases hl

/-! ### Removed content -/

theorem isSome_of_same_or_none {α : Type*} {x y : Option α} (h : y = x ∨ y = none) (hy : y.isSome) :
    x.isSome := by
  rcases h with rfl | rfl
  · exact hy
  · cases hy

theorem isSome_update_none {α : Type*} {f : ℕ → Option α} {a b : ℕ}
    (h : (Function.update f a none b).isSome) : (f b).isSome :=
  isSome_of_same_or_none (update_none_cases f a b) h

theorem ContentOwned.removeTag (h : d.ContentOwned) {g a : ℕ} {tg : VSTagGroup}
    (htg : d.tagGroup g = some tg) (ha : a ∈ tg.tags.map Prod.snd)
    (hdestroy : d.vsTagDestroy g a = some d') : d'.ContentOwned := by
  obtain ⟨tg', tag, htg', htag, heq⟩ := vsTagDestroy_cases hdestroy
  obtain rfl := Option.some.inj (htg.symm.trans htg')
  have htags : d.tagsOf g = some tg.tags := by rw [tagsOf, htg, Option.map_some]
  have hid : d.tagId a = some tag.id := by rw [tagId, htag, Option.map_some]
  have htagGroupId : d'.tagGroupId = d.tagGroupId := by
    rw [heq]
    exact map_update_same htg rfl
  have htagsOf : d'.tagsOf = Function.update d.tagsOf g (some (tg.tags.removeItem tag.id)) := by
    rw [heq]
    exact map_update _ _ _ _
  have htagId : d'.tagId = Function.update d.tagId a none := by
    rw [heq]
    exact map_update _ _ _ _
  refine ⟨?_, ?_, ?_, fun b => (h.apart b).less ⟨?_, fun hg => ?_, fun ht => ?_, ?_⟩⟩
  · rw [htagGroupId, heq]
    exact h.tagGroups
  · rw [heq]
    exact h.layers
  · rw [htagsOf, htagId]
    exact h.tags.remove htags ha hid
  · rw [heq]
    exact fun h => h
  · rw [heq] at hg
    exact isSome_update_of_some htg b ▸ hg
  · rw [heq] at ht
    exact isSome_update_none ht
  · rw [heq]
    exact fun h => h

theorem freeTags_kept (d : VSData) (tags : HashTable) :
    d.freeTags tags =
      { d with tag := (d.freeTags tags).tag, entity := (d.freeTags tags).entity } := by
  unfold freeTags
  induction tags generalizing d with
  | nil => rfl
  | cons b rest ih =>
      rw [List.foldl_cons, ih]
      rfl

theorem freeTags_tag (d : VSData) (tags : HashTable) (a : ℕ) :
    (d.freeTags tags).tag a = if a ∈ tags.map Prod.snd then none else d.tag a := by
  unfold freeTags
  induction tags generalizing d with
  | nil => rfl
  | cons b rest ih =>
      rw [List.foldl_cons, ih]
      have hmem : a ∈ (b :: rest).map Prod.snd ↔ a = b.2 ∨ a ∈ rest.map Prod.snd := by simp
      by_cases ha : a ∈ rest.map Prod.snd
      · rw [if_pos ha, if_pos (hmem.mpr (Or.inr ha))]
      · rw [if_neg ha]
        by_cases hab : a = b.2
        · rw [if_pos (hmem.mpr (Or.inl hab)), hab]
          exact Function.update_self _ _ _
        · rw [if_neg fun h => (hmem.mp h).elim hab ha]
          exact Function.update_of_ne hab _ _

theorem vsTaggroupDestroy_layers {n g : ℕ} (h : d.vsTaggroupDestroy n g = some d') :
    d'.layersOf = d.layersOf ∧ d'.layer = d.layer := by
  obtain ⟨tg, -, h⟩ := Option.bind_eq_some_iff.mp h
  obtain ⟨node, hnode, rfl⟩ := modifyNode_eq_some h
  rw [freeTags_kept] at hnode ⊢
  have hnode : d.node n = some node := hnode
  exact ⟨map_update_same hnode rfl, rfl⟩

theorem ContentOwned.removeTagGroup (h : d.ContentOwned) {n g : ℕ} {node : VSNode}
    (hnode : d.node n = some node) (hg : g ∈ node.tagGroups.map Prod.snd)
    (hdestroy : d.vsTaggroupDestroy n g = some d') : d'.ContentOwned := by
  obtain ⟨tg, htg, hdestroy⟩ := Option.bind_eq_some_iff.mp hdestroy
  obtain ⟨node', hnode', heq⟩ := modifyNode_eq_some hdestroy
  have hkept := freeTags_kept d tg.tags
  rw [hkept] at hnode'
  obtain rfl := Option.some.inj (hnode.symm.trans hnode')
  have hgroups : d.tagGroupsOf n = some node.tagGroups := by rw [tagGroupsOf, hnode, Option.map_some]
  have hid : d.tagGroupId g = some tg.id := by rw [tagGroupId, htg, Option.map_some]
  have htags : d.tagsOf g = some tg.tags := by rw [tagsOf, htg, Option.map_some]
  have htag : d'.tag = (d.freeTags tg.tags).tag := by rw [heq]; rfl
  rw [hkept] at heq
  have htagGroupsOf : d'.tagGroupsOf =
      Function.update d.tagGroupsOf n (some (node.tagGroups.removeItem tg.id)) := by
    rw [heq]
    exact map_update _ _ _ _
  have hlayersOf : d'.layersOf = d.layersOf := by
    rw [heq]
    exact map_update_same hnode rfl
  have htagGroup : d'.tagGroup = Function.update d.tagGroup g none := by rw [heq]; rfl
  have htagGroupId : d'.tagGroupId = Function.update d.tagGroupId g none := by
    rw [heq]
    exact map_update _ _ _ _
  have htagsOf : d'.tagsOf = Function.update d.tagsOf g none := by
    rw [heq]
    exact map_update _ _ _ _
  have hfreed : ∀ a, d'.tagId a = d.tagId a ∨ (d'.tagId a = none ∧ a ∈ tg.tags.map Prod.snd) := by
    intro a
    rw [tagId, htag, freeTags_tag]
    split
    · exact Or.inr ⟨rfl, ‹_›⟩
    · exact Or.inl rfl
  refine ⟨?_, ?_, ?_, fun b => (h.apart b).less ⟨fun hn => ?_, fun hb => ?_, fun ht => ?_, ?_⟩⟩
  · rw [htagGroupsOf, htagGroupId]
    exact h.tagGroups.remove hgroups hg hid
  · rw [hlayersOf, heq]
    exact h.layers
  · rw [htagsOf]
    refine h.tags.free (update_none_cases _ g) fun a => (hfreed a).imp_right fun ha => ?_
    exact ⟨ha.1, g, tg.tags, htags, Function.update_self _ _ _, ha.2⟩
  · rw [heq] at hn
    exact isSome_update_of_some hnode b ▸ hn
  · rw [htagGroup] at hb
    exact isSome_update_none hb
  · rw [htag, freeTags_tag] at ht
    split at ht
    · cases ht
    · exact ht
  · rw [heq]
    exact fun h => h

theorem ContentOwned.removeLayer (h : d.ContentOwned) {n a : ℕ} {node : VSNode}
    (hnode : d.node n = some node) (ha : a ∈ node.layers.map Prod.snd)
    (hdestroy : d.vsLayerDestroy n a = some d') : d'.ContentOwned := by
  obtain ⟨layer, node', hlayer, hnode', hothers, hself, heq⟩ := vsLayerDestroy_layers hdestroy
  obtain rfl := Option.some.inj (hnode.symm.trans hnode')
  have hlayers : d.layersOf n = some node.layers := by rw [layersOf, hnode, Option.map_some]
  have hid : d.layerId a = some layer.id := by rw [layerId, hlayer, Option.map_some]
  have htagGroupsOf : d'.tagGroupsOf = d.tagGroupsOf := by
    rw [heq]
    exact map_update_same hnode rfl
  have hlayersOf : d'.layersOf =
      Function.update d.layersOf n (some (node.layers.removeItem layer.id)) := by
    rw [heq]
    exact map_update _ _ _ _
  have hlayerId : d'.layerId = Function.update d.layerId a none := by
    funext b
    by_cases hb : b = a
    · subst hb
      rw [Function.update_self, layerId, hself, Option.map_none]
    · rw [Function.update_of_ne hb, layerId, layerId, hothers b hb, Option.map_map]
      rfl
  refine ⟨?_, ?_, ?_, fun b => (h.apart b).less ⟨fun hn => ?_, ?_, ?_, fun hl => ?_⟩⟩
  · rw [htagGroupsOf, heq]
    exact h.tagGroups
  · rw [hlayersOf, hlayerId]
    exact h.layers.remove hlayers ha hid
  · rw [heq]
    exact h.tags
  · rw [heq] at hn
    exact isSome_update_of_some hnode b ▸ hn
  · rw [heq]
    exact fun h => h
  · rw [heq]
    exact fun h => h
  · by_cases hb : b = a
    · rw [hb, hself] at hl
      cases hl
    · rw [hothers b hb, Option.isSome_map] at hl
      exact hl

/-- What the removal of a node frees of its content. -/
structure ContentFreed (d : VSData) (node : VSNode) (d' : VSData) : Prop where
  tagGroup : ∀ g, d'.tagGroup g = if g ∈ node.tagGroups.map Prod.snd then none else d.tagGroup g
  tag : ∀ a, d'.tag a = d.tag a ∨ (d'.tag a = none ∧ ∃ g tg, g ∈ node.tagGroups.map Prod.snd ∧
    d.tagGroup g = some tg ∧ a ∈ tg.tags.map Prod.snd)
  layer : ∀ a, d'.layer a = if a ∈ node.layers.map Prod.snd then none else d.layer a

theorem vsNodeTaggroupsDestroy_kept (d : VSData) (node : VSNode) :
    d.vsNodeTaggroupsDestroy node = { d with
      tagGroup := (d.vsNodeTaggroupsDestroy node).tagGroup
      tag := (d.vsNodeTaggroupsDestroy node).tag
      entity := (d.vsNodeTaggroupsDestroy node).entity } := by
  unfold vsNodeTaggroupsDestroy
  generalize node.tagGroups = tagGroups
  induction tagGroups generalizing d with
  | nil => rfl
  | cons b rest ih =>
      rw [List.foldl_cons, ih, freeTags_kept]
      rfl

theorem vsNodeTaggroupsDestroy_tagGroup (d : VSData) (node : VSNode) (g : ℕ) :
    (d.vsNodeTaggroupsDestroy node).tagGroup g =
      if g ∈ node.tagGroups.map Prod.snd then none else d.tagGroup g := by
  unfold vsNodeTaggroupsDestroy
  generalize node.tagGroups = tagGroups
  induction tagGroups generalizing d with
  | nil => rfl
  | cons b rest ih =>
      rw [List.foldl_cons, ih]
      have hmem : g ∈ (b :: rest).map Prod.snd ↔ g = b.2 ∨ g ∈ rest.map Prod.snd := by simp
      by_cases hg : g ∈ rest.map Prod.snd
      · rw [if_pos hg, if_pos (hmem.mpr (Or.inr hg))]
      · rw [if_neg hg]
        by_cases hgb : g = b.2
        · rw [if_pos (hmem.mpr (Or.inl hgb)), hgb]
          exact Function.update_self _ _ _
        · rw [if_neg fun h => (hmem.mp h).elim hgb hg]
          refine (Function.update_of_ne hgb _ _).trans ?_
          rw [freeTags_kept]

theorem vsNodeTaggroupsDestroy_tag (d : VSData) (node : VSNode) (a : ℕ) :
    (d.vsNodeTaggroupsDestroy node).tag a = d.tag a ∨
      ((d.vsNodeTaggroupsDestroy node).tag a = none ∧ ∃ g tg, g ∈ node.tagGroups.map Prod.snd ∧
        d.tagGroup g = some tg ∧ a ∈ tg.tags.map Prod.snd) := by
  suffices hloop : ((d.vsNodeTaggroupsDestroy node).tag a = d.tag a ∨
      ((d.vsNodeTaggroupsDestroy node).tag a = none ∧ ∃ g tg, g ∈ node.tagGroups.map Prod.snd ∧
        d.tagGroup g = some tg ∧ a ∈ tg.tags.map Prod.snd)) ∧
      ∀ g, (d.vsNodeTaggroupsDestroy node).tagGroup g = d.tagGroup g ∨
        (d.vsNodeTaggroupsDestroy node).tagGroup g = none from hloop.1
  refine List.foldlRecOn (motive := fun u : VSData =>
    (u.tag a = d.tag a ∨ (u.tag a = none ∧ ∃ g tg, g ∈ node.tagGroups.map Prod.snd ∧
      d.tagGroup g = some tg ∧ a ∈ tg.tags.map Prod.snd)) ∧
      ∀ g, u.tagGroup g = d.tagGroup g ∨ u.tagGroup g = none) node.tagGroups _
    ⟨Or.inl rfl, fun g => Or.inl rfl⟩ fun u hu b hb => ⟨?_, fun g => ?_⟩
  · have hfree := freeTags_tag u (((u.tagGroup b.2).map VSTagGroup.tags).getD []) a
    by_cases ha : a ∈ (((u.tagGroup b.2).map VSTagGroup.tags).getD []).map Prod.snd
    · rw [if_pos ha] at hfree
      refine Or.inr ⟨hfree, b.2, ?_⟩
      cases hg : u.tagGroup b.2 with
      | none => simp [hg] at ha
      | some tg =>
          rw [hg] at ha
          refine ⟨tg, List.mem_map_of_mem hb, ?_, ha⟩
          rcases hu.2 b.2 with hsame | hnone
          · rw [← hsame, hg]
          · rw [hg] at hnone
            cases hnone
    · rw [if_neg ha] at hfree
      exact hu.1.imp (fun h => hfree.trans h) fun h => ⟨hfree.trans h.1, h.2⟩
  · have hfreed := (freeTags_freed u (((u.tagGroup b.2).map VSTagGroup.tags).getD [])).trans
      ((freed_setTagGroup _ b.2).trans (freed_setEntity _ b.2))
    exact same_or_none_trans (hu.2 g) (hfreed.tagGroup g)

theorem vsNodeLayersDestroy_kept (d : VSData) (node : VSNode) :
    d.vsNodeLayersDestroy node = { d with
      layer := (d.vsNodeLayersDestroy node).layer
      entity := (d.vsNodeLayersDestroy node).entity } := by
  unfold vsNodeLayersDestroy
  generalize node.layers = layers
  induction layers generalizing d with
  | nil => rfl
  | cons b rest ih =>
      rw [List.foldl_cons, ih]
      rfl

theorem vsNodeLayersDestroy_layer (d : VSData) (node : VSNode) (a : ℕ) :
    (d.vsNodeLayersDestroy node).layer a =
      if a ∈ node.layers.map Prod.snd then none else d.layer a := by
  unfold vsNodeLayersDestroy
  generalize node.layers = layers
  induction layers generalizing d with
  | nil => rfl
  | cons b rest ih =>
      rw [List.foldl_cons, ih]
      have hmem : a ∈ (b :: rest).map Prod.snd ↔ a = b.2 ∨ a ∈ rest.map Prod.snd := by simp
      by_cases ha : a ∈ rest.map Prod.snd
      · rw [if_pos ha, if_pos (hmem.mpr (Or.inr ha))]
      · rw [if_neg ha]
        by_cases hab : a = b.2
        · rw [if_pos (hmem.mpr (Or.inl hab)), hab]
          exact Function.update_self _ _ _
        · rw [if_neg fun h => (hmem.mp h).elim hab ha]
          exact Function.update_of_ne hab _ _

/-- What is left of the nodes and their content when a node is removed. -/
theorem vsNodeDestroy_content {n : ℕ} (h : d.vsNodeDestroy n = some d') :
    d' = d ∨ ∃ node, d.node n = some node ∧ d'.node n = none ∧
      (∀ m, m ≠ n → d'.tagGroupsOf m = d.tagGroupsOf m ∧ d'.layersOf m = d.layersOf m) ∧
      ContentFreed d node d' := by
  simp only [vsNodeDestroy, Option.bind_eq_bind, Option.bind_eq_some_iff] at h
  obtain ⟨node, hnode, e, he, h⟩ := h
  split at h
  swap
  · exact Or.inl (Option.some.inj h).symm
  obtain ⟨d₁, hd₁, h⟩ := Option.bind_eq_some_iff.mp h
  obtain rfl := Option.some.inj h
  have hunlink : SameContent d d₁ ∧ d₁.tagGroup = d.tagGroup ∧ d₁.tag = d.tag ∧
      d₁.layer = d.layer := by
    rcases unlink_cases hd₁ with ⟨-, rfl⟩ | ⟨l, link, pnode, -, -, hpnode, rfl⟩
    · exact ⟨SameContent.refl _, rfl, rfl, rfl⟩
    · have hset : SameContent d (d.setNode link.parent
          (some { pnode with childrenLinks := pnode.childrenLinks.erase l })) :=
        sameContent_setNode hpnode rfl rfl
      exact ⟨hset.trans (.of_eq rfl rfl rfl rfl), rfl, rfl, rfl⟩
  obtain ⟨hsame, htagGroup, htag, hlayer⟩ := hunlink
  have hkept : ((d₁.vsNodeTaggroupsDestroy node).vsNodeLayersDestroy node).node = d₁.node ∧
      ((d₁.vsNodeTaggroupsDestroy node).vsNodeLayersDestroy node).tagGroup =
        (d₁.vsNodeTaggroupsDestroy node).tagGroup ∧
      ((d₁.vsNodeTaggroupsDestroy node).vsNodeLayersDestroy node).tag =
        (d₁.vsNodeTaggroupsDestroy node).tag ∧
      (d₁.vsNodeTaggroupsDestroy node).layer = d₁.layer := by
    rw [vsNodeLayersDestroy_kept, vsNodeTaggroupsDestroy_kept]
    exact ⟨rfl, rfl, rfl, rfl⟩
  obtain ⟨hnodes, htagGroups, htags, hlayers⟩ := hkept
  refine Or.inr ⟨node, hnode, Function.update_self _ _ _, fun m hm => ?_, fun g => ?_,
    fun a => ?_, fun a => ?_⟩
  · have hm' : Function.update ((d₁.vsNodeTaggroupsDestroy node).vsNodeLayersDestroy node).node n
        none m = d₁.node m := by rw [Function.update_of_ne hm, hnodes]
    exact ⟨(congrArg (Option.map VSNode.tagGroups) hm').trans (congrFun hsame.tagGroupsOf m),
      (congrArg (Option.map VSNode.layers) hm').trans (congrFun hsame.layersOf m)⟩
  · refine (congrFun htagGroups g).trans ?_
    rw [vsNodeTaggroupsDestroy_tagGroup, htagGroup]
  · have htag' := vsNodeTaggroupsDestroy_tag d₁ node a
    rw [← htags, htag, htagGroup] at htag'
    exact htag'
  · refine (vsNodeLayersDestroy_layer _ node a).trans ?_
    rw [hlayers, hlayer]

theorem ContentOwned.destroyNode (h : d.ContentOwned) {n : ℕ}
    (hdestroy : d.vsNodeDestroy n = some d') : d'.ContentOwned := by
  rcases vsNodeDestroy_content hdestroy with rfl | ⟨node, hnode, hgone, hothers, hfreed⟩
  · exact h
  have hgroups : d.tagGroupsOf n = some node.tagGroups := by rw [tagGroupsOf, hnode, Option.map_some]
  have hlayers : d.layersOf n = some node.layers := by rw [layersOf, hnode, Option.map_some]
  have hnone : d'.tagGroupsOf n = none ∧ d'.layersOf n = none := by
    rw [tagGroupsOf, layersOf, hgone]
    exact ⟨rfl, rfl⟩
  have hcases : ∀ m, d'.tagGroupsOf m = d.tagGroupsOf m ∧ d'.layersOf m = d.layersOf m ∨
      d'.tagGroupsOf m = none ∧ d'.layersOf m = none := by
    intro m
    by_cases hm : m = n
    · rw [hm]
      exact Or.inr hnone
    · exact Or.inl (hothers m hm)
  have htagGroup : ∀ g, d'.tagGroup g = d.tagGroup g ∨
      (d'.tagGroup g = none ∧ g ∈ node.tagGroups.map Prod.snd) := by
    intro g
    rw [hfreed.tagGroup g]
    split
    · exact Or.inr ⟨rfl, ‹_›⟩
    · exact Or.inl rfl
  have hlayer : ∀ a, d'.layer a = d.layer a ∨
      (d'.layer a = none ∧ a ∈ node.layers.map Prod.snd) := by
    intro a
    rw [hfreed.layer a]
    split
    · exact Or.inr ⟨rfl, ‹_›⟩
    · exact Or.inl rfl
  refine ⟨?_, ?_, ?_, fun b => (h.apart b).less ⟨fun hn => ?_, fun hg => ?_, fun ht => ?_, fun hl => ?_⟩⟩
  · refine h.tagGroups.free (fun m => (hcases m).imp And.left And.left) fun g => ?_
    rcases htagGroup g with hsame | ⟨hg, hmem⟩
    · exact Or.inl (congrArg (Option.map VSTagGroup.id) hsame)
    · exact Or.inr ⟨congrArg (Option.map VSTagGroup.id) hg, n, _, hgroups, hnone.1, hmem⟩
  · refine h.layers.free (fun m => (hcases m).imp And.right And.right) fun a => ?_
    rcases hlayer a with hsame | ⟨ha, hmem⟩
    · exact Or.inl (congrArg (Option.map VSLayer.id) hsame)
    · exact Or.inr ⟨congrArg (Option.map VSLayer.id) ha, n, _, hlayers, hnone.2, hmem⟩
  · refine h.tags.free (fun g => ?_) fun a => ?_
    · rcases htagGroup g with hsame | ⟨hg, -⟩
      · exact Or.inl (congrArg (Option.map VSTagGroup.tags) hsame)
      · exact Or.inr (congrArg (Option.map VSTagGroup.tags) hg)
    · rcases hfreed.tag a with hsame | ⟨ha, g, tg, hg, htg, hmem⟩
      · exact Or.inl (congrArg (Option.map VSTag.id) hsame)
      · refine Or.inr ⟨congrArg (Option.map VSTag.id) ha, g, tg.tags, ?_, ?_, hmem⟩
        · rw [tagsOf, htg, Option.map_some]
        · rw [tagsOf, hfreed.tagGroup g, if_pos hg, Option.map_none]
  · -- a node is one of the tables
    have hn' : (d'.tagGroupsOf b).isSome := by rwa [tagGroupsOf, Option.isSome_map]
    rcases hcases b with ⟨hsame, -⟩ | ⟨hb, -⟩
    · rwa [hsame, tagGroupsOf, Option.isSome_map] at hn'
    · rw [hb] at hn'
      cases hn'
  · exact isSome_of_same_or_none ((htagGroup b).imp_right And.left) hg
  · exact isSome_of_same_or_none ((hfreed.tag b).imp_right And.left) ht
  · exact isSome_of_same_or_none ((hlayer b).imp_right And.left) hl

/-! ## Runs -/

theorem ContentOwned.setEntity {a : ℕ} {e : Option VSEntity} (h : d.ContentOwned) :
    (d.setEntity a e).ContentOwned := h.same (.of_eq rfl rfl rfl rfl)

theorem Effect.contentOwned (he : Effect k d d') (hfresh : d.Fresh) (h : d.ContentOwned) :
    d'.ContentOwned := by
  by_cases hk : k ∈ contentChanges
  swap
  · exact h.same (he.sameContent hk)
  cases he with
  | newTag hcreate => exact h.newTag hfresh hcreate
  | newTagGroup hcreate => exact h.newTagGroup hfresh hcreate
  | newLayer _ _ hcreate => exact h.newLayer hfresh hcreate
  | newNode hcreate | newRoot hcreate => exact h.createNode hfresh hcreate
  | dropNode _ _ _ _ hremove => exact h.setEntity.destroyNode hremove
  | removeTag htg ha _ _ _ hremove => exact h.setEntity.removeTag htg ha hremove
  | removeTagGroup hnode hg _ _ _ hremove => exact h.setEntity.removeTagGroup hnode hg hremove
  | removeLayer hnode ha _ _ _ hremove => exact h.setEntity.removeLayer hnode ha hremove
  | removeNode hremove => exact h.destroyNode hremove
  | _ => simp [contentChanges] at hk

theorem Effects.contentOwned {S : Set EffectKind} (h : Effects S d d') (hfresh : d.Fresh)
    (howned : d.ContentOwned) : d'.ContentOwned := by
  have hboth : d'.Fresh ∧ d'.ContentOwned := by
    refine h.rel (R := fun d d' => d.Fresh ∧ d.ContentOwned → d'.Fresh ∧ d'.ContentOwned)
      (fun _ h => h) (fun h₁ h₂ h => h₂ (h₁ h)) ?_ ⟨hfresh, howned⟩
    rintro k d d' - he ⟨hfresh, howned⟩
    exact ⟨he.fresh hfresh, he.contentOwned hfresh howned⟩
  exact hboth.2

/-- A node without content is all there is. -/
theorem firstNode_contentOwned (users : List VSUser) (superUser otherUsers : ℕ) :
    (firstNode users superUser otherUsers).ContentOwned := by
  have hone : Owned (Function.update (fun _ : ℕ => (none : Option HashTable)) 1 (some []))
      (fun _ : ℕ => (none : Option ℕ)) := Owned.empty.newTable rfl
  have hempty : ∀ p : VSNode → HashTable, p (vsNodeInit vrsRootNodeId 0 superUser) = [] →
      (fun n => ((firstNode users superUser otherUsers).node n).map p) =
        Function.update (fun _ : ℕ => none) 1 (some []) := by
    intro p hp
    refine (map_update _ _ _ _).trans ?_
    rw [Option.map_some, hp]
    rfl
  have hgroups : (firstNode users superUser otherUsers).tagGroupsOf =
      Function.update (fun _ : ℕ => none) 1 (some []) := hempty VSNode.tagGroups rfl
  have hlayers : (firstNode users superUser otherUsers).layersOf =
      Function.update (fun _ : ℕ => none) 1 (some []) := hempty VSNode.layers rfl
  refine ⟨?_, ?_, Owned.empty, fun a => ⟨fun _ => not_isContent.mpr ⟨rfl, rfl, rfl⟩,
    fun ht => (by cases ht), fun hl => (by cases hl)⟩⟩
  · rw [hgroups]
    exact hone
  · rw [hlayers]
    exact hone

theorem vsNodesInit_contentOwned {users : List VSUser} {superUser otherUsers : ℕ}
    {realname : ℕ → List UInt8} (h : vsNodesInit users superUser otherUsers realname = some d) :
    d.Fresh ∧ d.ContentOwned := by
  refine vsNodesInit_invariant VSData.ContentOwned (firstNode_contentOwned _ _ _) ?_ ?_ h
  · intro d avatar howned
    exact howned.same (.of_eq rfl rfl rfl rfl)
  · intro k d d' hk hfresh he howned
    exact he.contentOwned hfresh howned

/-- **Whose content it is.**  In every state of a run, the content of the nodes is owned. -/
theorem run_contentOwned {events : List NodeEvent} (hfresh : d.Fresh) (howned : d.ContentOwned)
    (hrun : run step d events = some d') : d'.ContentOwned := by
  have hboth : d'.Fresh ∧ d'.ContentOwned := by
    refine run_keeps (fun (d : VSData) event d' (hd : d.Fresh ∧ d.ContentOwned) hstep => ?_)
      (⟨hfresh, howned⟩ : d.Fresh ∧ d.ContentOwned) hrun
    exact ⟨step_fresh hd.1 hstep, (step_effects hd.1 hstep).contentOwned hd.1 hd.2⟩
  exact hboth.2

end VSData

end Verse
