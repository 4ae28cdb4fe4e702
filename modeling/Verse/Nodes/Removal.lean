import Mathlib.Data.List.Induction
import Verse.Nodes.LifeCycle
import Verse.Nodes.Locks

/-!
# What is removed

Destroy acknowledgements name an entity by ids that are used again, and the handlers look
neither at the state of the entity nor at the state of the follower.  What they make sure
of is that no session but the one that acknowledges still follows the entity.  The entity
is then removed with everything that is part of it, whether a destroy was accepted for the
parts or not: the tags of a tag group, and the tag groups and layers of a node.  When a
client disconnects, the nodes below its avatar that nobody follows are removed as well.

A follower that waits for a destroy acknowledgement was told, so that the entity was being
destroyed at some earlier time of the run: this is `told_after_destroy`.
-/

namespace Verse

open Lib

namespace VSData

variable {d d' : VSData}

/-! ## Parts and branches -/

/-- The entity at `a` is a tag group or a layer of the node, or a tag of the tag group,
at `x`. -/
inductive IsPart (d : VSData) : ℕ → ℕ → Prop
  | tagGroup {n g : ℕ} {node : VSNode} (hnode : d.node n = some node)
      (hg : g ∈ node.tagGroups.map Prod.snd) : IsPart d n g
  | layer {n a : ℕ} {node : VSNode} (hnode : d.node n = some node)
      (ha : a ∈ node.layers.map Prod.snd) : IsPart d n a
  | tag {g a : ℕ} {tg : VSTagGroup} (htg : d.tagGroup g = some tg)
      (ha : a ∈ tg.tags.map Prod.snd) : IsPart d g a

/-- The entity at `a` is the one at `x`, or belongs to it. -/
def BelongsTo (d : VSData) : ℕ → ℕ → Prop := Relation.ReflTransGen d.IsPart

/-- The node at `c` is a child of the node at `n`. -/
def IsChild (d : VSData) (n c : ℕ) : Prop :=
  ∃ node l link, d.node n = some node ∧ l ∈ node.childrenLinks ∧ d.link l = some link ∧
    link.child = c

/-- The node at `m` is in the branch of the node at `n`. -/
def InBranch (d : VSData) : ℕ → ℕ → Prop := Relation.ReflTransGen d.IsChild

/-- Nothing gets new parts or children. -/
structure Shrinking (d d' : VSData) : Prop where
  part : ∀ x a, d'.IsPart x a → d.IsPart x a
  child : ∀ n c, d'.IsChild n c → d.IsChild n c
  link : ∀ l link, d'.link l = some link → d.link l = some link

theorem Shrinking.refl (d : VSData) : Shrinking d d :=
  ⟨fun _ _ h => h, fun _ _ h => h, fun _ _ h => h⟩

theorem Shrinking.trans {d'' : VSData} (h : Shrinking d d') (h' : Shrinking d' d'') :
    Shrinking d d'' where
  part x a hpart := h.part x a (h'.part x a hpart)
  child n c hchild := h.child n c (h'.child n c hchild)
  link l link hlink := h.link l link (h'.link l link hlink)

theorem Shrinking.belongsTo (h : Shrinking d d') {x a : ℕ} (ha : d'.BelongsTo x a) :
    d.BelongsTo x a := Relation.ReflTransGen.mono h.part _ _ ha

theorem Shrinking.inBranch (h : Shrinking d d') {n m : ℕ} (hm : d'.InBranch n m) :
    d.InBranch n m := Relation.ReflTransGen.mono h.child _ _ hm

/-- What is stored of the nodes and tag groups that are left has no more parts. -/
theorem shrinking_of_stored
    (hnode : ∀ n node', d'.node n = some node' → ∃ node, d.node n = some node ∧
      node'.tagGroups = node.tagGroups ∧ node'.layers = node.layers ∧
      node'.childrenLinks ⊆ node.childrenLinks)
    (htg : ∀ g tg', d'.tagGroup g = some tg' → ∃ tg, d.tagGroup g = some tg ∧ tg'.tags = tg.tags)
    (hlink : ∀ l link, d'.link l = some link → d.link l = some link) : Shrinking d d' where
  part x a h := by
    cases h with
    | tagGroup hnode' hg =>
        obtain ⟨node, hnode, htgs, -, -⟩ := hnode _ _ hnode'
        exact .tagGroup hnode (htgs ▸ hg)
    | layer hnode' ha =>
        obtain ⟨node, hnode, -, hlayers, -⟩ := hnode _ _ hnode'
        exact .layer hnode (hlayers ▸ ha)
    | tag htg' ha =>
        obtain ⟨tg, htg, htags⟩ := htg _ _ htg'
        exact .tag htg (htags ▸ ha)
  child n c h := by
    obtain ⟨node', l, link, hnode', hl, hlink', rfl⟩ := h
    obtain ⟨node, hnode, -, -, hlinks⟩ := hnode n node' hnode'
    exact ⟨node, l, link, hnode, hlinks hl, hlink l link hlink', rfl⟩
  link := hlink

/-! ## Destroying -/

/-- Besides what belongs to the entity at `x`, all entities are kept. -/
def OnlyRemoves (d d' : VSData) (x : ℕ) : Prop :=
  ∀ a, d'.entity a = d.entity a ∨ (d'.entity a = none ∧ d.BelongsTo x a)

theorem setEntity_none_cases (d : VSData) (a : ℕ) (b : ℕ) :
    (d.setEntity a none).entity b = d.entity b ∨ (d.setEntity a none).entity b = none ∧ b = a := by
  by_cases hb : b = a
  · subst hb
    exact Or.inr ⟨Function.update_self _ _ _, rfl⟩
  · exact Or.inl (Function.update_of_ne hb _ _)

theorem freeTags_cases (d : VSData) (tags : HashTable) (a : ℕ) :
    (d.freeTags tags).entity a = d.entity a ∨
      ((d.freeTags tags).entity a = none ∧ a ∈ tags.map Prod.snd) := by
  refine List.foldlRecOn (motive := fun t : VSData =>
    t.entity a = d.entity a ∨ (t.entity a = none ∧ a ∈ tags.map Prod.snd)) tags _ (Or.inl rfl)
    fun t ht b hb => ?_
  rcases setEntity_none_cases (t.setTag b.2 none) b.2 a with hsame | ⟨hnone, rfl⟩
  · rw [hsame]
    exact ht
  · exact Or.inr ⟨hnone, List.mem_map_of_mem hb⟩

theorem vsNodeTaggroupsDestroy_onlyRemoves {n : ℕ} {node : VSNode} (hnode : d.node n = some node)
    {t : VSData} (htg : t.tagGroup = d.tagGroup) (ht : t.entity = d.entity) :
    OnlyRemoves d (t.vsNodeTaggroupsDestroy node) n := by
  intro a
  -- a tag group is as it was, or it was freed before
  suffices hloop : ((t.vsNodeTaggroupsDestroy node).entity a = d.entity a ∨
      ((t.vsNodeTaggroupsDestroy node).entity a = none ∧ d.BelongsTo n a)) ∧
      ∀ g, (t.vsNodeTaggroupsDestroy node).tagGroup g = d.tagGroup g ∨
        (t.vsNodeTaggroupsDestroy node).tagGroup g = none from hloop.1
  refine List.foldlRecOn (motive := fun u : VSData =>
    (u.entity a = d.entity a ∨ (u.entity a = none ∧ d.BelongsTo n a)) ∧
      ∀ g, u.tagGroup g = d.tagGroup g ∨ u.tagGroup g = none) node.tagGroups _
    ⟨Or.inl (by rw [ht]), fun g => Or.inl (by rw [htg])⟩ fun u hu b hb => ?_
  have hpart : d.IsPart n b.2 := .tagGroup hnode (List.mem_map_of_mem hb)
  refine ⟨?_, fun g => ?_⟩
  · rcases setEntity_none_cases ((u.freeTags (((u.tagGroup b.2).map VSTagGroup.tags).getD
      [])).setTagGroup b.2 none) b.2 a with hsame | ⟨hnone, rfl⟩
    · rw [hsame]
      rcases freeTags_cases u (((u.tagGroup b.2).map VSTagGroup.tags).getD []) a with
        hsame' | ⟨hnone, ha⟩
      · refine (hu.1).imp (fun h => hsame'.trans h) fun h => ⟨hsame'.trans h.1, h.2⟩
      · refine Or.inr ⟨hnone, ?_⟩
        cases hg : u.tagGroup b.2 with
        | none => simp [hg] at ha
        | some tg =>
            have htags : d.tagGroup b.2 = some tg := by
              rcases hu.2 b.2 with hsame'' | hfreed
              · rw [← hsame'', hg]
              · rw [hg] at hfreed
                cases hfreed
            rw [hg] at ha
            exact (Relation.ReflTransGen.single hpart).tail (.tag htags ha)
    · exact Or.inr ⟨hnone, Relation.ReflTransGen.single hpart⟩
  · have hfreed := (freeTags_freed u (((u.tagGroup b.2).map VSTagGroup.tags).getD [])).trans
      ((freed_setTagGroup _ b.2).trans (freed_setEntity _ b.2))
    exact same_or_none_trans (hu.2 g) (hfreed.tagGroup g)

theorem vsNodeLayersDestroy_onlyRemoves {n : ℕ} {node : VSNode} (hnode : d.node n = some node)
    {t : VSData} (ht : OnlyRemoves d t n) : OnlyRemoves d (t.vsNodeLayersDestroy node) n := by
  refine List.foldlRecOn (motive := fun u : VSData => OnlyRemoves d u n) node.layers _ ht
    fun u hu b hb a => ?_
  rcases setEntity_none_cases (u.setLayer b.2 none) b.2 a with hsame | ⟨hnone, rfl⟩
  · rw [hsame]
    exact hu a
  · exact Or.inr ⟨hnone, Relation.ReflTransGen.single (.layer hnode (List.mem_map_of_mem hb))⟩

/-- A node is removed with its tag groups, tags and layers. -/
theorem vsNodeDestroy_onlyRemoves {n : ℕ} (h : d.vsNodeDestroy n = some d') :
    OnlyRemoves d d' n := by
  simp only [vsNodeDestroy, Option.bind_eq_bind, Option.bind_eq_some_iff] at h
  obtain ⟨node, hnode, e, he, h⟩ := h
  split at h
  · obtain ⟨d₁, hd₁, h⟩ := Option.bind_eq_some_iff.mp h
    obtain rfl := Option.some.inj h
    have hunlink : d₁.tagGroup = d.tagGroup ∧ d₁.entity = d.entity := by
      rcases unlink_cases hd₁ with ⟨-, rfl⟩ | ⟨l, link, pnode, -, -, -, rfl⟩ <;> exact ⟨rfl, rfl⟩
    have hparts := vsNodeLayersDestroy_onlyRemoves hnode
      (vsNodeTaggroupsDestroy_onlyRemoves hnode hunlink.1 hunlink.2)
    intro a
    rcases setEntity_none_cases (((d₁.vsNodeTaggroupsDestroy node).vsNodeLayersDestroy
      node).setNode n none) n a with hsame | ⟨hnone, rfl⟩
    · exact (hparts a).imp (fun h => hsame.trans h) fun h => ⟨hsame.trans h.1, h.2⟩
    · exact Or.inr ⟨hnone, Relation.ReflTransGen.refl⟩
  · obtain rfl := Option.some.inj h
    exact fun a => Or.inl rfl

theorem vsTagDestroy_onlyRemoves {g a : ℕ} (h : d.vsTagDestroy g a = some d') :
    OnlyRemoves d d' a := by
  obtain ⟨tg, tag, -, -, rfl⟩ := vsTagDestroy_cases h
  intro b
  rcases setEntity_none_cases ((d.setTagGroup g (some { tg with
    tags := tg.tags.removeItem tag.id })).setTag a none) a b with hsame | ⟨hnone, rfl⟩
  · exact Or.inl hsame
  · exact Or.inr ⟨hnone, Relation.ReflTransGen.refl⟩

/-- A tag group is removed with its tags. -/
theorem vsTaggroupDestroy_onlyRemoves {n g : ℕ} (h : d.vsTaggroupDestroy n g = some d') :
    OnlyRemoves d d' g := by
  obtain ⟨tg, htg, h⟩ := Option.bind_eq_some_iff.mp h
  obtain ⟨node, -, rfl⟩ := modifyNode_eq_some h
  intro a
  rcases setEntity_none_cases ((d.freeTags tg.tags).setTagGroup g none) g a with
    hsame | ⟨hnone, rfl⟩
  · rcases freeTags_cases d tg.tags a with hkept | ⟨hnone, ha⟩
    · exact Or.inl (hsame.trans hkept)
    · exact Or.inr ⟨hsame.trans hnone, Relation.ReflTransGen.single (.tag htg ha)⟩
  · exact Or.inr ⟨hnone, Relation.ReflTransGen.refl⟩

/-- A layer is removed alone. -/
theorem vsLayerDestroy_onlyRemoves {n a : ℕ} (h : d.vsLayerDestroy n a = some d') :
    OnlyRemoves d d' a := by
  obtain ⟨layer, d₁, node, -, hsame, -, rfl⟩ := vsLayerDestroy_cases h
  intro b
  rcases setEntity_none_cases (d₁.setLayer a none) a b with hkept | ⟨hnone, rfl⟩
  · refine Or.inl (hkept.trans ?_)
    rw [hsame.kept]
    rfl
  · exact Or.inr ⟨hnone, Relation.ReflTransGen.refl⟩

/-! ## Acknowledged destroys -/

section Acks

variable {s a : ℕ} {cmd : NodeCmd} {kind : EntityKind}

/-- The entity whose destruction a command acknowledges. -/
def destroyTarget (d : VSData) : NodeCmd → Option (EntityKind × ℕ)
  | .nodeDestroyAck nodeId => do
      let n ← d.vsNodeFind nodeId
      pure (.node, n)
  | .taggroupDestroyAck nodeId taggroupId => do
      let n ← d.vsNodeFind nodeId
      let node ← d.node n
      let g ← node.tagGroups.findItem taggroupId
      pure (.tagGroup, g)
  | .tagDestroyAck nodeId taggroupId tagId => do
      let n ← d.vsNodeFind nodeId
      let node ← d.node n
      let g ← node.tagGroups.findItem taggroupId
      let tg ← d.tagGroup g
      let a ← tg.tags.findItem tagId
      pure (.tag, a)
  | .layerDestroyAck nodeId layerId => do
      let n ← d.vsNodeFind nodeId
      let node ← d.node n
      let a ← node.layers.findItem layerId
      pure (.layer, a)
  | _ => none

/-- What the acknowledgement of a destroy makes of the entity at `a`: followers of the
session are freed, and when no other is left, the entity is removed. -/
structure DestroyAcked (d : VSData) (s : ℕ) (kind : EntityKind) (a : ℕ) (d' : VSData) : Prop where
  acked : ∃ e e', d.entity a = some e ∧ e.destroyAck d.subSession s kind = some e' ∧
    (d' = d.setEntity a (some e') ∨
      (e'.folls = [] ∧ OnlyRemoves (d.setEntity a (some e')) d' a))

theorem destroyAcked_of_destroy {destroy : VSData → Option VSData}
    (h : d.destroyAck kind a s destroy = some d')
    (hdestroy : ∀ t, destroy t = some d' → OnlyRemoves t d' a) : DestroyAcked d s kind a d' := by
  obtain ⟨e, e', he, hack, ⟨hempty, h⟩ | ⟨-, rfl⟩⟩ := destroyAck_cases h
  · exact ⟨e, e', he, hack, Or.inr ⟨hempty, hdestroy _ h⟩⟩
  · exact ⟨e, e', he, hack, Or.inl rfl⟩

/-- The handlers acknowledge the destruction of the entity that a command names. -/
theorem destroyTarget_acked (htarget : d.destroyTarget cmd = some (kind, a))
    (h : d.vsHandleNodeCmd s cmd = some d') : DestroyAcked d s kind a d' := by
  cases cmd with
  | nodeDestroyAck nodeId =>
      obtain ⟨n, hn, htarget⟩ := Option.bind_eq_some_iff.mp htarget
      obtain ⟨rfl, rfl⟩ := Prod.mk.inj (Option.some.inj htarget)
      obtain ⟨node, -, h⟩ := withNode_of_find hn h
      exact destroyAcked_of_destroy h fun t ht => vsNodeDestroy_onlyRemoves ht
  | taggroupDestroyAck nodeId taggroupId =>
      simp only [destroyTarget, Option.bind_eq_bind, Option.bind_eq_some_iff] at htarget
      obtain ⟨n, hn, node, hnode, g, hg, htarget⟩ := htarget
      obtain ⟨rfl, rfl⟩ := Prod.mk.inj (Option.some.inj htarget)
      obtain ⟨node', hnode', h⟩ := withNode_of_find hn h
      obtain rfl := Option.some.inj (hnode.symm.trans hnode')
      obtain ⟨tg, -, h⟩ := withTagGroup_of_find hg h
      exact destroyAcked_of_destroy h fun t ht => vsTaggroupDestroy_onlyRemoves ht
  | tagDestroyAck nodeId taggroupId tagId =>
      simp only [destroyTarget, Option.bind_eq_bind, Option.bind_eq_some_iff] at htarget
      obtain ⟨n, hn, node, hnode, g, hg, tg, htg, b, hb, htarget⟩ := htarget
      obtain ⟨rfl, rfl⟩ := Prod.mk.inj (Option.some.inj htarget)
      obtain ⟨node', hnode', h⟩ := withNode_of_find hn h
      obtain rfl := Option.some.inj (hnode.symm.trans hnode')
      obtain ⟨tg', htg', h⟩ := withTagGroup_of_find hg h
      obtain rfl := Option.some.inj (htg.symm.trans htg')
      obtain ⟨tag, -, h⟩ := withTag_of_find hb h
      exact destroyAcked_of_destroy h fun t ht => vsTagDestroy_onlyRemoves ht
  | layerDestroyAck nodeId layerId =>
      simp only [destroyTarget, Option.bind_eq_bind, Option.bind_eq_some_iff] at htarget
      obtain ⟨n, hn, node, hnode, b, hb, htarget⟩ := htarget
      obtain ⟨rfl, rfl⟩ := Prod.mk.inj (Option.some.inj htarget)
      obtain ⟨node', hnode', h⟩ := withNode_of_find hn h
      obtain rfl := Option.some.inj (hnode.symm.trans hnode')
      obtain ⟨layer, -, h⟩ := withLayer_of_find hb h
      exact destroyAcked_of_destroy h fun t ht => vsLayerDestroy_onlyRemoves ht
  | _ => cases htarget

/-- The kinds of changes that remove entities. -/
def removals : Set EffectKind := {.drop, .dropNode, .remove, .removeLayer, .removeNode}

/-- Without a target, an acknowledgement does nothing, and other commands remove nothing. -/
theorem not_removals_of_destroyTarget (htarget : d.destroyTarget cmd = none)
    (h : d.vsHandleNodeCmd s cmd = some d') : d' = d ∨ ∀ k ∈ cmd.kinds s, k ∉ removals := by
  cases cmd with
  | nodeDestroyAck =>
      rcases withNode_cases h with rfl | ⟨n, node, hn, -, -⟩
      · exact Or.inl rfl
      · simp [destroyTarget, hn] at htarget
  | taggroupDestroyAck =>
      rcases withNode_cases h with rfl | ⟨n, node, hn, hnode, h⟩
      · exact Or.inl rfl
      rcases withTagGroup_cases h with rfl | ⟨g, tg, hg, -, -⟩
      · exact Or.inl rfl
      · simp [destroyTarget, hn, hnode, hg] at htarget
  | tagDestroyAck =>
      rcases withNode_cases h with rfl | ⟨n, node, hn, hnode, h⟩
      · exact Or.inl rfl
      rcases withTagGroup_cases h with rfl | ⟨g, tg, hg, htg, h⟩
      · exact Or.inl rfl
      rcases withTag_cases h with rfl | ⟨b, tag, hb, -, -⟩
      · exact Or.inl rfl
      · simp [destroyTarget, hn, hnode, hg, htg, hb] at htarget
  | layerDestroyAck =>
      rcases withNode_cases h with rfl | ⟨n, node, hn, hnode, h⟩
      · exact Or.inl rfl
      rcases withLayer_cases h with rfl | ⟨b, layer, hb, -, -⟩
      · exact Or.inl rfl
      · simp [destroyTarget, hn, hnode, hb] at htarget
  | _ => exact Or.inr (by simp [NodeCmd.kinds, leaves, removals])

end Acks

theorem none_of_update_some {α : Type*} {f : ℕ → Option α} {a b : ℕ} {v : α}
    (h : Function.update f a (some v) b = none) : f b = none := by
  by_cases hb : b = a
  · subst hb
    rw [Function.update_self] at h
    cases h
  · rwa [Function.update_of_ne hb] at h

/-- A change of another kind removes no entity. -/
theorem Effect.keeps_entities {k : EffectKind} (he : Effect k d d') (hk : k ∉ removals) {a : ℕ}
    (ha : d'.entity a = none) : d.entity a = none := by
  cases he with
  | push hpush _ _ | pushSet hpush _ _ =>
      obtain ⟨sub, -, rfl⟩ := push_eq_some.mp hpush
      exact ha
  | follow | tellNode | tellContent | tellLayer | ack => exact none_of_update_some ha
  | unfollow hfree =>
      obtain ⟨e, he, rfl⟩ := freeFollower_eq_some hfree
      exact none_of_update_some ha
  | mark he _ =>
      rw [setState, he] at ha
      exact none_of_update_some ha
  | newTag hcreate =>
      obtain ⟨tg, id, tag, -, -, -, rfl⟩ := vsTagCreate_eq hcreate
      exact none_of_update_some ha
  | newTagGroup hcreate =>
      rcases vsTaggroupCreate_eq hcreate with ⟨-, hnone⟩ | ⟨node, id, tg, -, -, -, -, -, rfl⟩
      · cases hnone
      · exact none_of_update_some ha
  | newLayer _ _ hcreate =>
      obtain ⟨node, id, layer, layers, -, -, -, -, -, -, -, -, rfl⟩ := vsLayerCreate_eq hcreate
      exact none_of_update_some ha
  | newNode hcreate | newRoot hcreate =>
      rw [vsNodeCreateLinked_entity hcreate] at ha
      exact none_of_update_some ha
  | freeSub _ hfree =>
      obtain ⟨sub, node, -, -, rfl⟩ := freeSub_eq_some hfree
      exact ha
  | move _ hmove =>
      obtain ⟨onode, d₁, pnode, d₂, -, rfl, -, rfl, hlevels⟩ := moveLink_cases hmove
      rw [hlevels.kept] at ha
      exact ha
  | drop | dropNode | removeTag | removeTagGroup | removeLayer | removeNode =>
      exact absurd (by simp [removals]) hk
  | _ => exact ha

theorem Effects.keeps_entities {S : Set EffectKind} (h : Effects S d d')
    (hS : ∀ k ∈ S, k ∉ removals) {a : ℕ} (ha : d'.entity a = none) : d.entity a = none :=
  h.rel (R := fun d d' => d'.entity a = none → d.entity a = none) (fun _ h => h)
    (fun h₁ h₂ h => h₁ (h₂ h)) (fun k _ _ hk he h => he.keeps_entities (hS k hk) h) ha

/-! ## Disconnecting -/

/-- The kinds of changes that are made when a client disconnects. -/
def parting (s : ℕ) : Set EffectKind := departs s ∪ {.push, .tell, .removeNode}

/-- A node that is replaced by one with the same parts and children. -/
theorem shrinking_setNode {n : ℕ} {node node' : VSNode} (hnode : d.node n = some node)
    (htagGroups : node'.tagGroups = node.tagGroups) (hlayers : node'.layers = node.layers)
    (hlinks : node'.childrenLinks ⊆ node.childrenLinks) :
    Shrinking d (d.setNode n (some node')) := by
  refine shrinking_of_stored (fun m mnode hm => ?_) (fun _ tg htg => ⟨tg, htg, rfl⟩)
    fun _ _ hlink => hlink
  by_cases hmn : m = n
  · subst hmn
    rw [setNode_node] at hm
    obtain rfl := Option.some.inj hm
    exact ⟨node, hnode, htagGroups, hlayers, hlinks⟩
  · rw [setNode_node_of_ne hmn] at hm
    exact ⟨mnode, hm, rfl, rfl, List.Subset.refl _⟩

theorem some_of_update_none {α : Type*} {f : ℕ → Option α} {a b : ℕ} {v : α}
    (h : Function.update f a none b = some v) : f b = some v := by
  by_cases hb : b = a
  · subst hb
    rw [Function.update_self] at h
    cases h
  · rwa [Function.update_of_ne hb] at h

theorem vsNodeDestroy_shrinking {n : ℕ} (h : d.vsNodeDestroy n = some d') : Shrinking d d' := by
  rcases vsNodeDestroy_cases h with rfl | ⟨node, e, d₁, d₂, -, -, -, -, hd₁, hfreed, rfl⟩
  · exact Shrinking.refl _
  have hunlink : Shrinking d d₁ := by
    rcases unlink_cases hd₁ with ⟨-, heq⟩ | ⟨l, link, pnode, -, -, hpnode, rfl⟩
    · rw [heq]
      exact Shrinking.refl d
    · have hparent : Shrinking d (d.setNode link.parent
          (some { pnode with childrenLinks := pnode.childrenLinks.erase l })) :=
        shrinking_setNode hpnode rfl rfl List.erase_subset
      exact hparent.trans
        (shrinking_of_stored (fun m mnode hm => ⟨mnode, hm, rfl, rfl, List.Subset.refl _⟩)
          (fun _ tg htg => ⟨tg, htg, rfl⟩) fun _ _ hlink => some_of_update_none hlink)
  refine hunlink.trans (shrinking_of_stored (fun m mnode hm => ?_) (fun g tg htg => ?_)
    fun l link hlink => ?_)
  · have hm₂ : d₂.node m = some mnode := some_of_update_none hm
    rw [hfreed.kept] at hm₂
    exact ⟨mnode, hm₂, rfl, rfl, List.Subset.refl _⟩
  · have htg₂ : d₂.tagGroup g = some tg := htg
    rcases hfreed.tagGroup g with hsame | hnone
    · exact ⟨tg, hsame.symm.trans htg₂, rfl⟩
    · rw [hnone] at htg₂
      cases htg₂
  · have hlink₂ : d₂.link l = some link := hlink
    rw [hfreed.kept] at hlink₂
    exact hlink₂

/-- Without nodes, tag groups and links that change, nothing gets new parts. -/
theorem shrinking_of_eq (hnode : d'.node = d.node) (htg : d'.tagGroup = d.tagGroup)
    (hlink : d'.link = d.link) : Shrinking d d' :=
  shrinking_of_stored
    (fun _ node h => ⟨node, by rw [← hnode]; exact h, rfl, rfl, List.Subset.refl _⟩)
    (fun _ tg h => ⟨tg, by rw [← htg]; exact h, rfl⟩) fun _ _ h => by rw [← hlink]; exact h

theorem Effect.shrinking {k : EffectKind} {s : ℕ} (he : Effect k d d') (hk : k ∈ parting s) :
    Shrinking d d' := by
  cases he with
  | push hpush _ _ =>
      obtain ⟨sub, -, rfl⟩ := push_eq_some.mp hpush
      exact shrinking_of_eq rfl rfl rfl
  | tellNode | tellContent | tellLayer | leaveLayer => exact shrinking_of_eq rfl rfl rfl
  | unfollow hfree =>
      obtain ⟨e, -, rfl⟩ := freeFollower_eq_some hfree
      exact shrinking_of_eq rfl rfl rfl
  | leaveTagGroup htg hr =>
      rename_i g r t tg
      refine shrinking_of_stored (fun m mnode hm => ⟨mnode, hm, rfl, rfl, List.Subset.refl _⟩)
        (fun b tg' hb => ?_) fun _ _ hlink => hlink
      by_cases hbg : b = g
      · subst hbg
        have hb' : Function.update d.tagGroup b (some { tg with subs := tg.subs.erase r }) b =
          some tg' := hb
        rw [Function.update_self] at hb'
        exact ⟨tg, htg, by rw [← Option.some.inj hb']⟩
      · exact ⟨tg', (Function.update_of_ne hbg _ _).symm.trans hb, rfl⟩
  | freeSub _ hfree =>
      obtain ⟨sub, node, -, hnode, rfl⟩ := freeSub_eq_some hfree
      rename_i n r _ _
      have hsubs : Shrinking d (d.setNode n
          (some { node with nodeSubs := node.nodeSubs.erase r })) :=
        shrinking_setNode hnode rfl rfl (List.Subset.refl _)
      exact hsubs.trans (shrinking_of_eq rfl rfl rfl)
  | lock hnode _ => exact shrinking_setNode hnode rfl rfl (List.Subset.refl _)
  | removeNode hremove => exact vsNodeDestroy_shrinking hremove
  | _ => simp [parting, departs] at hk

theorem Effects.shrinking {s : ℕ} (h : Effects (parting s) d d') : Shrinking d d' :=
  h.rel Shrinking.refl Shrinking.trans fun _ _ _ hk he => he.shrinking hk

/-- All nodes stay in the table. -/
theorem Effects.departs_nodes {s : ℕ} (h : Effects (departs s) d d') : d'.nodes = d.nodes := by
  apply h.rel (R := fun d d' => d'.nodes = d.nodes) (fun _ => rfl)
  · intro d d' d'' h h'
    exact h'.trans h
  · intro k d d' hk he
    cases he with
    | push hpush _ _ =>
        obtain ⟨sub, -, rfl⟩ := push_eq_some.mp hpush
        rfl
    | unfollow hfree =>
        obtain ⟨e, -, rfl⟩ := freeFollower_eq_some hfree
        rfl
    | leaveTagGroup | leaveLayer | lock => rfl
    | freeSub _ hfree =>
        obtain ⟨sub, node, -, -, rfl⟩ := freeSub_eq_some hfree
        rfl
    | _ => simp [departs] at hk

theorem vsNodeDestroyBranch_shrinking {fuel n : ℕ} (h : vsNodeDestroyBranch fuel d n = some d') :
    Shrinking d d' :=
  Effects.shrinking (s := 0) ((vsNodeDestroyBranch_effects h).mono fun _ hk => Or.inr hk)

/-- What is removed with a branch belongs to its nodes. -/
theorem vsNodeDestroyBranch_removed {fuel n : ℕ} (h : vsNodeDestroyBranch fuel d n = some d')
    {a : ℕ} {e : VSEntity} (ha : d.entity a = some e) (hnone : d'.entity a = none) :
    ∃ m, d.InBranch n m ∧ d.BelongsTo m a := by
  induction fuel generalizing d d' n e with
  | zero => cases h
  | succ fuel ih =>
      simp only [vsNodeDestroyBranch, Option.bind_eq_bind, Option.bind_eq_some_iff] at h
      obtain ⟨node, hnode, d₁, hd₁, e₁, he₁, h⟩ := h
      -- what is removed in the loop is in the branch of a child
      have hloop : Shrinking d d₁ ∧
          (d₁.entity a = none → ∃ m, d.InBranch n m ∧ d.BelongsTo m a) := by
        have hfirst : d.entity a = none → ∃ m, d.InBranch n m ∧ d.BelongsTo m a := by
          rw [ha]
          intro hgone
          cases hgone
        refine foldlM_rel (R := fun t u =>
          (Shrinking d t ∧ (t.entity a = none → ∃ m, d.InBranch n m ∧ d.BelongsTo m a)) →
            Shrinking d u ∧ (u.entity a = none → ∃ m, d.InBranch n m ∧ d.BelongsTo m a))
          (fun _ h => h) (fun h₁ h₂ h => h₂ (h₁ h)) (fun t l t' hl _ hbody ht => ?_) hd₁
          ⟨Shrinking.refl d, hfirst⟩
        obtain ⟨link, hlink, hbody⟩ := Option.bind_eq_some_iff.mp hbody
        refine ⟨ht.1.trans (vsNodeDestroyBranch_shrinking hbody), fun hgone => ?_⟩
        cases hta : t.entity a with
        | none => exact ht.2 hta
        | some et =>
            obtain ⟨m, hm, hma⟩ := ih hbody hta hgone
            have hchild : d.IsChild n link.child :=
              ⟨node, l, link, hnode, hl, ht.1.link l link hlink, rfl⟩
            exact ⟨m, (ht.1.inBranch hm).head hchild, ht.1.belongsTo hma⟩
      cases hgone : d₁.entity a with
      | none => exact hloop.2 hgone
      | some ea =>
          split at h
          · rcases vsNodeDestroy_onlyRemoves h a with hsame | ⟨-, hbelongs⟩
            · rw [hnone, hgone] at hsame
              cases hsame
            · exact ⟨n, Relation.ReflTransGen.refl, hloop.1.belongsTo hbelongs⟩
          · rename_i hfolls
            have htold : Effects {.push, .tell} d₁ d' := by
              refine vsNodeSendDestroy_effects (fun e' he' => Or.inr ?_) h
              obtain rfl := Option.some.inj (he₁.symm.trans he')
              exact hfolls
            rw [htold.keeps_entities (by simp [removals]) hnone] at hgone
            cases hgone

/-- What is removed when a client disconnects belongs to the nodes below its avatar. -/
theorem disconnect_removed {s a : ℕ} {e : VSEntity}
    (h : d.disconnect s = some d') (ha : d.entity a = some e) (hnone : d'.entity a = none) :
    ∃ n m, d.vsNodeFind (d.session s).avatarId = some n ∧ d.InBranch n m ∧ d.BelongsTo m a := by
  simp only [disconnect, Option.bind_eq_bind, Option.bind_eq_some_iff] at h
  obtain ⟨d₁, hd₁, d₂, hd₂, h⟩ := h
  obtain rfl := Option.some.inj h
  have hdeparts := vsNodeFreeAvatarReference_departs hd₁
  have hshrinking : Shrinking d d₁ := Effects.shrinking (hdeparts.mono fun _ hk => Or.inl hk)
  have hkept : ∃ e₁, d₁.entity a = some e₁ := by
    refine Option.ne_none_iff_exists'.mp fun hgone => ?_
    rw [hdeparts.keeps_entities (by simp [departs, removals]) hgone] at ha
    cases ha
  obtain ⟨e₁, he₁⟩ := hkept
  have hsession : d₁.session = d.session := hdeparts.session_kept (by simp [departs])
  have hfind : d₁.vsNodeFind (d.session s).avatarId = d.vsNodeFind (d.session s).avatarId := by
    rw [vsNodeFind, vsNodeFind, hdeparts.departs_nodes]
  unfold vsNodeDestroyAvatarNode at hd₂
  rw [hsession, hfind] at hd₂
  split at hd₂
  · obtain rfl := Option.some.inj hd₂
    have hnone₁ : d₁.entity a = none := hnone
    rw [he₁] at hnone₁
    cases hnone₁
  · rename_i n hn
    obtain ⟨m, hm, hma⟩ := vsNodeDestroyBranch_removed hd₂ he₁ hnone
    exact ⟨n, m, hn, hshrinking.inBranch hm, hshrinking.belongsTo hma⟩

/-! ## Followers that wait -/

/-- The entity is being destroyed. -/
def Destroying (d : VSData) (a : ℕ) : Prop := ∃ e, d.entity a = some e ∧ e.state = .deleting

/-- A follower of the entity was told that it is destroyed, and did not acknowledge it. -/
def HasTold (d : VSData) (a : ℕ) : Prop :=
  ∃ e, d.entity a = some e ∧ ∃ f ∈ e.folls, f.state = .deleting

/-- Followers are only told while the entity is being destroyed. -/
structure Tells (d d' : VSData) : Prop where
  told : ∀ a, d'.HasTold a → d.HasTold a ∨ d'.Destroying a
  destroying : ∀ a, d.Destroying a → d'.HasTold a → d'.Destroying a

theorem Tells.refl (d : VSData) : Tells d d := ⟨fun _ => Or.inl, fun _ h _ => h⟩

theorem Tells.trans {d'' : VSData} (h : Tells d d') (h' : Tells d' d'') : Tells d d'' where
  told a htold := by
    rcases h'.told a htold with htold' | hdestroying
    · exact (h.told a htold').imp_right fun hdestroying => h'.destroying a hdestroying htold
    · exact Or.inr hdestroying
  destroying a hdestroying htold := by
    rcases h'.told a htold with htold' | hdestroying'
    · exact h'.destroying a (h.destroying a hdestroying htold') htold
    · exact hdestroying'

/-- What a change that is not an acknowledgement does to the followers that wait. -/
theorem EntityChange.tells {a : ℕ} {e e' : VSEntity} (h : EntityChange d a e e')
    (htold : ∃ f ∈ e'.folls, f.state = .deleting) :
    ((∃ f ∈ e.folls, f.state = .deleting) ∨ e'.state = .deleting) ∧
      (e.state = .deleting → e'.state = .deleting) := by
  obtain ⟨f, hf, hstate⟩ := htold
  cases h with
  | follow =>
      rcases List.mem_append.mp hf with hf | hf
      · exact ⟨Or.inl ⟨f, hf, hstate⟩, id⟩
      · obtain rfl := List.mem_singleton.mp hf
        cases hstate
  | free hsub => exact ⟨Or.inl ⟨f, hsub.subset hf, hstate⟩, id⟩
  | tell => exact ⟨Or.inr rfl, fun _ => rfl⟩
  | mark he =>
      subst he
      cases hf
  | last => cases hf

theorem Effect.tells {k : EffectKind} (he : Effect k d d') (hk : k ≠ .ack) : Tells d d' := by
  have hchange : ∀ a, d'.HasTold a → (d.HasTold a ∨ d'.Destroying a) ∧
      (d.Destroying a → d'.Destroying a) := by
    rintro a ⟨e', he', htold⟩
    rcases he.entity_after hk a with hsame | hnone | ⟨-, hnew⟩ | ⟨e, e₁, he₀, he₁, hchange⟩
    · have he₀ : d.entity a = some e' := hsame.symm.trans he'
      refine ⟨Or.inl ⟨e', he₀, htold⟩, ?_⟩
      rintro ⟨e, he, hstate⟩
      obtain rfl := Option.some.inj (he₀.symm.trans he)
      exact ⟨e', he', hstate⟩
    · rw [hnone] at he'
      cases he'
    · obtain rfl := Option.some.inj (hnew.symm.trans he')
      obtain ⟨f, hf, -⟩ := htold
      cases hf
    · obtain rfl := Option.some.inj (he'.symm.trans he₁)
      obtain ⟨hbefore, hstays⟩ := hchange.tells htold
      refine ⟨hbefore.imp (fun h => ⟨e, he₀, h⟩) fun h => ⟨e', he', h⟩, ?_⟩
      rintro ⟨e₂, he₂, hstate⟩
      obtain rfl := Option.some.inj (he₀.symm.trans he₂)
      exact ⟨e', he', hstays hstate⟩
  exact ⟨fun a h => (hchange a h).1, fun a hdestroying h => (hchange a h).2 hdestroying⟩

theorem Effects.tells {S : Set EffectKind} (h : Effects S d d') (hS : .ack ∉ S) : Tells d d' := by
  apply h.rel Tells.refl Tells.trans
  intro k d d' hk he
  apply he.tells
  rintro rfl
  exact hS hk

theorem ackState_ne_deleting {kind : EntityKind} {entity foll : EntityState}
    (hentity : entity ≠ .deleting) (hfoll : foll ≠ .deleting) :
    VSEntity.ackState kind entity foll ≠ .deleting := by
  cases kind <;> cases entity <;> cases foll <;> simp_all [VSEntity.ackState]

/-- A follower that waits after a creation was acknowledged waited before, or the entity was
being destroyed. -/
theorem Acked.hasTold {kind : EntityKind} {s b a : ℕ} (h : Acked kind s b d d')
    (htold : d'.HasTold a) : d.HasTold a ∨ d.Destroying a := by
  obtain ⟨e, e', he, hack, heq⟩ := h.eq
  obtain ⟨e₁, he₁, f, hf, hstate⟩ := htold
  rw [heq] at he₁
  have he₁ : Function.update d.entity b (some e') a = some e₁ := he₁
  by_cases hab : a = b
  · subst hab
    rw [Function.update_self] at he₁
    obtain rfl := Option.some.inj he₁
    rw [createAck_eq hack] at hf
    obtain ⟨f₀, hf₀, rfl⟩ := List.mem_map.mp hf
    by_cases hdestroying : e.state = .deleting
    · exact Or.inr ⟨e, he, hdestroying⟩
    · refine Or.inl ⟨e, he, f₀, hf₀, ?_⟩
      by_contra hfoll
      split at hstate
      · exact ackState_ne_deleting hdestroying hfoll hstate
      · exact hfoll hstate
  · rw [Function.update_of_ne hab] at he₁
    exact Or.inl ⟨e₁, he₁, f, hf, hstate⟩

/-- **One step.**  A follower that waits waited before, or the entity is being destroyed
before or after the step. -/
theorem step_hasTold {event : NodeEvent} {a : ℕ} (hfresh : d.Fresh)
    (hstep : d.step event = some d') (htold : d'.HasTold a) :
    d.HasTold a ∨ d.Destroying a ∨ d'.Destroying a := by
  have hothers : .ack ∉ event.kinds → d.HasTold a ∨ d.Destroying a ∨ d'.Destroying a := by
    intro hkinds
    exact (((step_effects hfresh hstep).tells hkinds).told a htold).imp_right Or.inr
  cases event with
  | login =>
      apply hothers
      simp [NodeEvent.kinds, builds]
  | disconnect =>
      apply hothers
      simp [NodeEvent.kinds, departs]
  | command s cmd =>
      rcases ite_cases hstep with rfl | ⟨-, hhandle⟩
      · exact Or.inl htold
      cases htarget : d.ackTarget cmd with
      | none =>
          rcases not_ack_of_ackTarget htarget hhandle with rfl | hkinds
          · exact Or.inl htold
          · exact hothers hkinds
      | some target =>
          obtain ⟨kind, b⟩ := target
          exact ((ackTarget_acked htarget hhandle).hasTold htold).imp_right Or.inl

/-- A destroy of the entity was accepted in the run: at some time it was being destroyed. -/
def WasDestroying (d₀ : VSData) (events : List NodeEvent) (a : ℕ) : Prop :=
  ∃ earlier later d, events = earlier ++ later ∧ run step d₀ earlier = some d ∧ d.Destroying a

theorem WasDestroying.append {d₀ : VSData} {events : List NodeEvent} {a : ℕ}
    (h : WasDestroying d₀ events a) (more : List NodeEvent) :
    WasDestroying d₀ (events ++ more) a := by
  obtain ⟨earlier, later, d, rfl, hrun, hd⟩ := h
  exact ⟨earlier, later ++ more, d, by rw [List.append_assoc], hrun, hd⟩

theorem vsNodesInit_not_hasTold {users : List VSUser} {superUser otherUsers : ℕ}
    {realname : ℕ → List UInt8} (h : vsNodesInit users superUser otherUsers realname = some d)
    (a : ℕ) : ¬ d.HasTold a := by
  have hnone := (vsNodesInit_invariant (fun d => ∀ a, ¬ d.HasTold a) ?_ (fun _ _ h => h) ?_ h).2
  · exact hnone a
  · rintro a ⟨e, he, f, hf, -⟩
    by_cases ha : a = 1
    · subst ha
      obtain rfl : e = ⟨.reserved, []⟩ := by simpa [firstNode] using he.symm
      cases hf
    · simp [firstNode, Function.update_of_ne ha] at he
  · intro k d d' hk hfresh he hnone a htold
    obtain ⟨e', he', f, hf, hstate⟩ := htold
    -- what is built has no followers, and nothing else changes
    have hnew : d'.entity = Function.update d.entity d.next (some ⟨.reserved, []⟩) → False := by
      intro hentity
      rw [hentity] at he'
      by_cases hnext : a = d.next
      · subst hnext
        rw [Function.update_self] at he'
        obtain rfl := Option.some.inj he'
        cases hf
      · rw [Function.update_of_ne hnext] at he'
        exact hnone a ⟨e', he', f, hf, hstate⟩
    cases he with
    | mark hreserved hcreated =>
        rename_i b state
        rw [setState, hreserved] at he'
        by_cases hab : a = b
        · subst hab
          have he' : Function.update d.entity a (some ⟨state, []⟩) a = some e' := he'
          rw [Function.update_self] at he'
          obtain rfl := Option.some.inj he'
          cases hf
        · exact hnone a ⟨e', (Function.update_of_ne hab _ _).symm.trans he', f, hf, hstate⟩
    | newTag hcreate =>
        obtain ⟨tg, id, tag, -, -, -, rfl⟩ := vsTagCreate_eq hcreate
        exact hnew rfl
    | newTagGroup hcreate =>
        rcases vsTaggroupCreate_eq hcreate with ⟨-, hcreated⟩ | ⟨node, id, tg, -, -, -, -, -, rfl⟩
        · cases hcreated
        · exact hnew rfl
    | newLayer _ _ hcreate =>
        obtain ⟨node, id, layer, layers, -, -, -, -, -, -, -, -, rfl⟩ := vsLayerCreate_eq hcreate
        exact hnew rfl
    | newNode hcreate => exact hnew (vsNodeCreateLinked_entity hcreate)
    | permit | tagValue | layerValue => exact hnone a ⟨e', he', f, hf, hstate⟩
    | _ => simp [builds] at hk

/-- A follower that waits for the acknowledgement of a destroy follows an entity that was
being destroyed. -/
theorem told_after_destroy {users : List VSUser} {superUser otherUsers : ℕ}
    {realname : ℕ → List UInt8} {d₀ d₁ : VSData}
    (hinit : vsNodesInit users superUser otherUsers realname = some d₀)
    {events : List NodeEvent} (hrun : run step d₀ events = some d₁) {a : ℕ}
    (htold : d₁.HasTold a) : WasDestroying d₀ events a := by
  induction events using List.reverseRecOn generalizing d₁ with
  | nil =>
      obtain rfl := Option.some.inj hrun
      exact absurd htold (vsNodesInit_not_hasTold hinit a)
  | append_singleton events event ih =>
      have hwhole := hrun
      rw [run_append] at hrun
      obtain ⟨d, hd, hlast⟩ := Option.bind_eq_some_iff.mp hrun
      obtain ⟨d', hstep, hend⟩ := Option.bind_eq_some_iff.mp hlast
      obtain rfl := Option.some.inj hend
      have hfresh : d.Fresh := run_fresh (vsNodesInit_fresh hinit) hd
      rcases step_hasTold hfresh hstep htold with hbefore | hbefore | hafter
      · exact (ih hd hbefore).append [event]
      · exact ⟨events, [event], d, rfl, hd, hbefore⟩
      · exact ⟨events ++ [event], [], d', by rw [List.append_nil], hwhole, hafter⟩

/-! ## Runs -/

/-- Followers of other sessions stay when a destroy is acknowledged. -/
theorem destroyAck_keeps {session : ℕ → Option ℕ} {s : ℕ} {kind : EntityKind} {e e' : VSEntity}
    {f : VSEntityFollower} (h : e.destroyAck session s kind = some e') (hf : f ∈ e.folls)
    (hother : f.ofSession session s = false) : f ∈ e'.folls := by
  obtain ⟨folls, hfolls, rfl⟩ := Option.map_eq_some_iff.mp h
  cases kind with
  | node | tag =>
      rw [freeFollower_eq hfolls]
      exact (List.mem_eraseP_of_neg (by simp [hother])).mpr hf
  | tagGroup | layer =>
      rw [freeFollowers_eq hfolls]
      exact List.mem_filter.mpr ⟨hf, by simp [hother]⟩

/-- **No premature removal.**  A step of any run removes an entity only when it acknowledges a
destroy for an entity that only the acknowledging session follows, with everything that
belongs to it, or when a client disconnects, below its avatar.  The acknowledgement frees
followers of that session and of that entity only; and where a follower waits for it, the
entity was being destroyed earlier in the run. -/
theorem removed_after_destroy {users : List VSUser} {superUser otherUsers : ℕ}
    {realname : ℕ → List UInt8} {d₀ d₁ d₂ : VSData} {events : List NodeEvent} {event : NodeEvent}
    (hinit : vsNodesInit users superUser otherUsers realname = some d₀)
    (hrun : run step d₀ events = some d₁) (hstep : d₁.step event = some d₂) :
    (∀ a e, d₁.entity a = some e → d₂.entity a = none →
      (∃ s cmd kind x ex, event = .command s cmd ∧ d₁.destroyTarget cmd = some (kind, x) ∧
        d₁.entity x = some ex ∧ d₁.BelongsTo x a ∧
        (∀ f ∈ ex.folls, f.ofSession d₁.subSession s) ∧
        ((∃ f ∈ ex.folls, f.state = .deleting) → WasDestroying d₀ events x)) ∨
      ∃ s n m, event = .disconnect s ∧ d₁.vsNodeFind (d₁.session s).avatarId = some n ∧
        d₁.InBranch n m ∧ d₁.BelongsTo m a) ∧
    ∀ s cmd kind x, event = .command s cmd → d₁.destroyTarget cmd = some (kind, x) →
      ∀ a e e', d₁.entity a = some e → d₂.entity a = some e' → ∀ f ∈ e.folls, f ∉ e'.folls →
        a = x ∧ f.ofSession d₁.subSession s ∧
          (f.state = .deleting → WasDestroying d₀ events x) := by
  have hfresh : d₁.Fresh := run_fresh (vsNodesInit_fresh hinit) hrun
  have hothers : ∀ {a : ℕ} {e : VSEntity}, d₁.entity a = some e → d₂.entity a = none →
      ¬ ∀ k ∈ event.kinds, k ∉ removals := by
    intro a e he hnone hkinds
    rw [(step_effects hfresh hstep).keeps_entities hkinds hnone] at he
    cases he
  refine ⟨fun a e he hnone => ?_, fun s cmd kind x hevent htarget a e e' he he' f hf hfreed => ?_⟩
  · cases event with
    | login =>
        refine absurd (fun k hk => ?_) (hothers he hnone)
        rintro hremoves
        simp only [NodeEvent.kinds, builds, Set.mem_union, Set.mem_insert_iff,
          Set.mem_singleton_iff] at hk
        simp only [removals, Set.mem_insert_iff, Set.mem_singleton_iff] at hremoves
        rcases hremoves with rfl | rfl | rfl | rfl | rfl <;> simp at hk
    | disconnect s =>
        rcases ite_cases hstep with rfl | ⟨-, hdisconnect⟩
        · rw [he] at hnone
          cases hnone
        · obtain ⟨n, m, hn, hm, ha⟩ := disconnect_removed hdisconnect he hnone
          exact Or.inr ⟨s, n, m, rfl, hn, hm, ha⟩
    | command s cmd =>
        rcases ite_cases hstep with rfl | ⟨-, hhandle⟩
        · rw [he] at hnone
          cases hnone
        cases htarget : d₁.destroyTarget cmd with
        | none =>
            rcases not_removals_of_destroyTarget htarget hhandle with rfl | hkinds
            · rw [he] at hnone
              cases hnone
            · exact absurd hkinds (hothers he hnone)
        | some target =>
            obtain ⟨kind, x⟩ := target
            obtain ⟨ex, ex', hex, hack, hafter⟩ := (destroyTarget_acked htarget hhandle).acked
            have hdoomed : (∃ f ∈ ex.folls, f.state = .deleting) → WasDestroying d₀ events x :=
              fun htold => told_after_destroy hinit hrun ⟨ex, hex, htold⟩
            rcases hafter with rfl | ⟨hempty, hremoves⟩
            · rw [none_of_update_some hnone] at he
              cases he
            · refine Or.inl ⟨s, cmd, kind, x, ex, rfl, htarget, hex, ?_, fun f hf => ?_, hdoomed⟩
              · rcases hremoves a with hsame | ⟨-, ha⟩
                · rw [none_of_update_some (hsame.symm.trans hnone)] at he
                  cases he
                · have hshape : Shrinking d₁ (d₁.setEntity x (some ex')) :=
                    shrinking_of_eq rfl rfl rfl
                  exact hshape.belongsTo ha
              · -- a follower of another session would be left
                cases hown : f.ofSession d₁.subSession s with
                | true => rfl
                | false =>
                    have hleft := destroyAck_keeps hack hf hown
                    rw [hempty] at hleft
                    cases hleft
  · subst hevent
    rcases ite_cases hstep with rfl | ⟨-, hhandle⟩
    · obtain rfl := Option.some.inj (he.symm.trans he')
      exact absurd hf hfreed
    obtain ⟨ex, ex', hex, hack, hafter⟩ := (destroyTarget_acked htarget hhandle).acked
    have hkept : Function.update d₁.entity x (some ex') a = some e' := by
      rcases hafter with rfl | ⟨-, hremoves⟩
      · exact he'
      · rcases hremoves a with hsame | ⟨hnone, -⟩
        · exact hsame.symm.trans he'
        · rw [hnone] at he'
          cases he'
    by_cases hax : a = x
    · subst hax
      rw [Function.update_self] at hkept
      obtain rfl := Option.some.inj hkept
      obtain rfl := Option.some.inj (he.symm.trans hex)
      refine ⟨rfl, ?_, fun hstate => told_after_destroy hinit hrun ⟨e, he, f, hf, hstate⟩⟩
      by_contra hother
      exact hfreed (destroyAck_keeps hack hf (by simpa using hother))
    · rw [Function.update_of_ne hax] at hkept
      obtain rfl := Option.some.inj (he.symm.trans hkept)
      exact absurd hf hfreed

/-- A client creates a tag group with a tag, acknowledges both, and destroys the tag group. -/
def tagGroupEvents : List NodeEvent :=
  [.login 0 10 10 1001 false sampleInfo, .command 0 (.nodeSubscribe 65537),
    .command 0 (.nodeCreate 10 1001 65537 0xFFFFFFFF 40), .command 0 (.nodeSubscribe 65539),
    .command 0 (.taggroupCreate 65539 0xFFFF 7), .command 0 (.taggroupSubscribe 65539 0),
    .command 0 (.tagCreate 65539 0 0xFFFF 1 1 9), .command 0 (.taggroupCreateAck 65539 0),
    .command 0 (.tagCreateAck 65539 0 0), .command 0 (.taggroupDestroy 65539 0)]

theorem removed_after_destroy_sample :
    ∃ d₀ d₁ d₂, sampleInit = some d₀ ∧ run step d₀ tagGroupEvents = some d₁ ∧
      d₁.step (.command 0 (.taggroupDestroyAck 65539 0)) = some d₂ ∧ d₂.entity 37 = none ∧
      d₁.BelongsTo 36 37 ∧ WasDestroying d₀ tagGroupEvents 36 := by
  have hrun : (sampleInit.bind fun d₀ => (run step d₀ tagGroupEvents).bind fun d₁ =>
      (d₁.step (.command 0 (.taggroupDestroyAck 65539 0))).bind fun d₂ =>
        (d₁.entity 37).bind fun _ => (d₁.entity 36).map fun e =>
          (d₁.destroyTarget (.taggroupDestroyAck 65539 0), (d₂.entity 37).isNone,
            e.folls.any fun f => f.state == .deleting)) =
      some (some (.tagGroup, 36), true, true) := by
    decide +kernel
  obtain ⟨d₀, hinit, hrun⟩ := Option.bind_eq_some_iff.mp hrun
  obtain ⟨d₁, hd₁, hrun⟩ := Option.bind_eq_some_iff.mp hrun
  obtain ⟨d₂, hd₂, hrun⟩ := Option.bind_eq_some_iff.mp hrun
  obtain ⟨e, he, hrun⟩ := Option.bind_eq_some_iff.mp hrun
  obtain ⟨eg, heg, hrun⟩ := Option.map_eq_some_iff.mp hrun
  simp only [Prod.mk.injEq] at hrun
  obtain ⟨htarget, hnone, htold⟩ := hrun
  have hnone : d₂.entity 37 = none := by simpa using hnone
  obtain ⟨f, hf, hstate⟩ := List.any_eq_true.mp htold
  refine ⟨d₀, d₁, d₂, hinit, hd₁, hd₂, hnone, ?_⟩
  rcases (removed_after_destroy hinit hd₁ hd₂).1 37 e he hnone with
    ⟨s, cmd, kind, x, ex, hevent, hx, hex, hbelongs, -, hdestroyed⟩ | ⟨s, n, m, hevent, -⟩
  · obtain ⟨-, rfl⟩ := NodeEvent.command.inj hevent
    obtain ⟨-, rfl⟩ := Prod.mk.inj (Option.some.inj (htarget.symm.trans hx))
    obtain rfl := Option.some.inj (heg.symm.trans hex)
    exact ⟨hbelongs, hdestroyed ⟨f, hf, by simpa using hstate⟩⟩
  · cases hevent

/-- The tag goes with its tag group, although nobody destroyed the tag. -/
theorem tag_removed_with_tag_group :
    ∃ d₀ d₁ d₂ e, sampleInit = some d₀ ∧ run step d₀ tagGroupEvents = some d₁ ∧
      d₁.step (.command 0 (.taggroupDestroyAck 65539 0)) = some d₂ ∧ d₁.entity 37 = some e ∧
      e.state = .created ∧ d₂.entity 37 = none ∧ ¬ WasDestroying d₀ tagGroupEvents 37 := by
  have hrun : (sampleInit.bind fun d₀ => (run step d₀ tagGroupEvents).bind fun d₁ =>
      (d₁.step (.command 0 (.taggroupDestroyAck 65539 0))).bind fun d₂ =>
        (d₁.entity 37).map fun e => (e.state, (d₂.entity 37).isNone,
          (List.range 11).all fun k => (run step d₀ (tagGroupEvents.take k)).all fun d =>
            (d.entity 37).all fun e => e.state != .deleting)) = some (.created, true, true) := by
    decide +kernel
  obtain ⟨d₀, hinit, hrun⟩ := Option.bind_eq_some_iff.mp hrun
  obtain ⟨d₁, hd₁, hrun⟩ := Option.bind_eq_some_iff.mp hrun
  obtain ⟨d₂, hd₂, hrun⟩ := Option.bind_eq_some_iff.mp hrun
  obtain ⟨e, he, hrun⟩ := Option.map_eq_some_iff.mp hrun
  simp only [Prod.mk.injEq] at hrun
  obtain ⟨hstate, hnone, hnever⟩ := hrun
  refine ⟨d₀, d₁, d₂, e, hinit, hd₁, hd₂, he, hstate, by simpa using hnone, ?_⟩
  rintro ⟨earlier, later, d, hsplit, hd, e', he', hdeleting⟩
  have htake : earlier = tagGroupEvents.take earlier.length := by
    rw [hsplit, List.take_left]
  have hlength : earlier.length < 11 := by
    have hle := congrArg List.length hsplit
    rw [List.length_append] at hle
    have hten : tagGroupEvents.length = 10 := rfl
    omega
  have hk := List.all_eq_true.mp hnever earlier.length (List.mem_range.mpr hlength)
  rw [← htake, hd] at hk
  simp [he', hdeleting] at hk

end VSData

end Verse
