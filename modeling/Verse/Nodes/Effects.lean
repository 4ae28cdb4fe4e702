import Verse.Lib.Loops
import Verse.Nodes.SysNodes

/-!
# What the handlers do to the data

Every handler is a sequence of a few kinds of changes, and each of them comes with
what the handler has tested before.  `VSData.Effect` lists the changes, and
`VSData.Effects` are sequences of changes of given kinds.  What holds along the runs
of the server is proved for the changes; that the handlers consist of them is proved
once, in the next module.
-/

namespace Verse

open Lib

theorem HashTable.findItem_mem {t : HashTable} {key a : ℕ} (h : t.findItem key = some a) :
    a ∈ t.map Prod.snd := by
  obtain ⟨b, hb, rfl⟩ := Option.map_eq_some_iff.mp h
  exact List.mem_map_of_mem (List.mem_of_find?_eq_some hb)

namespace VSData

variable {d d' d'' : VSData}

/-! ## Where subscribers are referred to -/

/-- The node `n`, or one of its tag groups, tags or layers, refers to the subscriber
`r`. -/
def Informed (d : VSData) (n r : ℕ) : Prop :=
  ∃ node, d.node n = some node ∧
    (r ∈ node.nodeSubs ∨
      (∃ g tg, g ∈ node.tagGroups.map Prod.snd ∧ d.tagGroup g = some tg ∧
        (r ∈ tg.subs ∨
          ∃ t e, t ∈ tg.tags.map Prod.snd ∧ d.entity t = some e ∧
            ∃ f ∈ e.folls, f.nodeSub = r)) ∨
      ∃ a layer, a ∈ node.layers.map Prod.snd ∧ d.layer a = some layer ∧ r ∈ layer.subs)

/-- A client whose subscriber is `r` may follow the entity at `a`: it is a child node,
a tag group or a layer of a node with the subscriber `r`, or a tag of a tag group
that `r` is subscribed to. -/
def MayFollow (d : VSData) (a r : ℕ) : Prop :=
  (∃ p pnode l link, d.node p = some pnode ∧ l ∈ pnode.childrenLinks ∧ d.link l = some link ∧
    link.child = a ∧ r ∈ pnode.nodeSubs) ∨
  (∃ n node, d.node n = some node ∧
    (a ∈ node.tagGroups.map Prod.snd ∨ a ∈ node.layers.map Prod.snd) ∧ r ∈ node.nodeSubs) ∨
  ∃ g tg, d.tagGroup g = some tg ∧ a ∈ tg.tags.map Prod.snd ∧ r ∈ tg.subs

/-! ## Changes -/

/-- Nothing is stored at the addresses that are not used yet. -/
structure Fresh (d : VSData) : Prop where
  entity : ∀ a, d.next ≤ a → d.entity a = none
  node : ∀ a, d.next ≤ a → d.node a = none
  link : ∀ a, d.next ≤ a → d.link a = none
  tagGroup : ∀ a, d.next ≤ a → d.tagGroup a = none
  tag : ∀ a, d.next ≤ a → d.tag a = none
  layer : ∀ a, d.next ≤ a → d.layer a = none
  sub : ∀ a, d.next ≤ a → d.sub a = none

theorem Fresh.entity_lt {d : VSData} (h : d.Fresh) {a : ℕ} {e : VSEntity}
    (he : d.entity a = some e) : a < d.next := by
  by_contra hge
  rw [h.entity a (by omega)] at he
  cases he

theorem Fresh.node_lt {d : VSData} (h : d.Fresh) {n : ℕ} {node : VSNode}
    (hnode : d.node n = some node) : n < d.next := by
  by_contra hge
  rw [h.node n (by omega)] at hnode
  cases hnode

/-- The kinds of changes.  Where it matters, the session on whose behalf it is made
is a part of the kind. -/
inductive EffectKind where
  | push
  | pushSet
  | follow
  | unfollow (s : ℕ)
  | tell
  | mark
  | create
  | createLayer
  | newNode
  | newRoot
  | value
  | join
  | leave (s : ℕ)
  | subscribe (s : ℕ)
  | freeSub (s : ℕ)
  | lock (s : ℕ)
  | permit
  | access
  | owner
  | prio
  | session
  | ack
  | drop
  | dropNode
  | remove
  | removeLayer
  | removeNode
  | move

/-- One change. -/
inductive Effect : EffectKind → VSData → VSData → Prop
  /-- A command is sent; content only to a subscriber the node refers to. -/
  | push {d d' : VSData} {r a n : ℕ} {cmd : OutCmd} (h : d.push r cmd a n = some d')
      (hset : cmd.isTagSet = false) (hcontent : cmd.isContent → d.Informed n r) : Effect .push d d'
  /-- The value of a tag is sent. -/
  | pushSet {d d' : VSData} {r a n : ℕ} {cmd : OutCmd} (h : d.push r cmd a n = some d')
      (hset : cmd.isTagSet) (hinformed : d.Informed n r) : Effect .pushSet d d'
  /-- A client that does not know about an entity follows it. -/
  | follow {d : VSData} {r a : ℕ} {e : VSEntity} {sub : VSNodeSubscriber}
      {known : EntityState → Bool} (hsub : d.sub r = some sub) (he : d.entity a = some e)
      (hcreated : e.state.isCreated)
      (hnew : findFollower d.subSession sub.session known e.folls = some false)
      (hknown : ∀ state, state.isCreated → known state) (hmay : d.MayFollow a r) :
      Effect .follow d (d.setEntity a (some (e.addFollower r)))
  /-- A follower of the session is freed. -/
  | unfollow {d d' : VSData} {a s : ℕ} (h : d.freeFollower a s = some d') :
      Effect (.unfollow s) d d'
  /-- The followers are told that a node without created child nodes is destroyed. -/
  | tellNode {d : VSData} {n : ℕ} {e : VSEntity} {node : VSNode} (hnode : d.node n = some node)
      (he : d.entity n = some e) (hlive : e.state.isCreated ∨ e.folls ≠ [])
      (hchildren : ∀ l ∈ node.childrenLinks, ∀ link, d.link l = some link →
        d.isCreated link.child = false) :
      Effect .tell d (d.setEntity n (some e.sendDestroy))
  /-- The followers are told that a tag group or a tag is destroyed. -/
  | tellContent {d : VSData} {a : ℕ} {e : VSEntity}
      (hcontent : (d.tagGroup a).isSome ∨ (d.tag a).isSome)
      (he : d.entity a = some e) : Effect .tell d (d.setEntity a (some e.sendDestroy))
  /-- The followers are told that a layer is destroyed, as its child layers are. -/
  | tellLayer {d : VSData} {a : ℕ} {e : VSEntity} {layer : VSLayer}
      (hlayer : d.layer a = some layer) (he : d.entity a = some e)
      (hchildren : ∀ c ∈ layer.childLayers, ∀ e', d.entity c = some e' → e'.state = .deleting) :
      Effect .tell d (d.setEntity a (some e.sendDestroy))
  /-- A new entity gets its first state. -/
  | mark {d : VSData} {a : ℕ} {state : EntityState} (he : d.entity a = some ⟨.reserved, []⟩)
      (hstate : state.isCreated) : Effect .mark d (d.setState a state)
  | newTag {d d' : VSData} {g dataType count customType a : ℕ}
      (h : d.vsTagCreate g dataType count customType = some (d', a)) : Effect .create d d'
  | newTagGroup {d d' : VSData} {n customType g : ℕ}
      (h : d.vsTaggroupCreate n customType = some (d', some g)) : Effect .create d d'
  | newLayer {d d' : VSData} {n dataType count type a : ℕ} {parent : Option ℕ} {node : VSNode}
      (hnode : d.node n = some node)
      (hparent : ∀ p, parent = some p → p ∈ node.layers.map Prod.snd)
      (h : d.vsLayerCreate n parent dataType count type = some (d', a)) : Effect .createLayer d d'
  | newNode {d d' : VSData} {heap owner nodeId customType n p : ℕ}
      (h : d.vsNodeCreateLinked heap (some p) owner nodeId customType = some (d', some n)) :
      Effect .newNode d d'
  | newRoot {d d' : VSData} {heap owner nodeId customType n : ℕ}
      (h : d.vsNodeCreateLinked heap none owner nodeId customType = some (d', some n)) :
      Effect .newRoot d d'
  | tagValue {d : VSData} {a : ℕ} {tag : VSTag} (htag : d.tag a = some tag) (value : List UInt8) :
      Effect .value d (d.setTag a (some (setTagValue tag value)))
  | layerValue {d : VSData} {a : ℕ} {layer : VSLayer} (hlayer : d.layer a = some layer)
      (values : List (ℕ × List UInt8)) :
      Effect .value d (d.setLayer a (some { layer with values }))
  /-- A subscriber of the node is subscribed to a tag group. -/
  | joinTagGroup {d : VSData} {n g r : ℕ} {node : VSNode} {tg : VSTagGroup}
      (hnode : d.node n = some node) (hg : g ∈ node.tagGroups.map Prod.snd)
      (htg : d.tagGroup g = some tg) (hr : r ∈ node.nodeSubs) :
      Effect .join d (d.setTagGroup g (some { tg with subs := tg.subs ++ [r] }))
  | joinLayer {d : VSData} {n a r : ℕ} {node : VSNode} {layer : VSLayer}
      (hnode : d.node n = some node) (ha : a ∈ node.layers.map Prod.snd)
      (hlayer : d.layer a = some layer) (hr : r ∈ node.nodeSubs) :
      Effect .join d (d.setLayer a (some { layer with subs := layer.subs ++ [r] }))
  | leaveTagGroup {d : VSData} {g r s : ℕ} {tg : VSTagGroup} (htg : d.tagGroup g = some tg)
      (hr : d.subSession r = some s) :
      Effect (.leave s) d (d.setTagGroup g (some { tg with subs := tg.subs.erase r }))
  | leaveLayer {d : VSData} {a r s : ℕ} {layer : VSLayer} (hlayer : d.layer a = some layer)
      (hr : d.subSession r = some s) :
      Effect (.leave s) d (d.setLayer a (some { layer with subs := layer.subs.erase r }))
  /-- A new subscriber of a node. -/
  | subscribe {d : VSData} {n s : ℕ} {node : VSNode} (hnode : d.node n = some node) :
      Effect (.subscribe s) d
        ((({ d with next := d.next + 1 }).setSub d.next (some ⟨s, defaultSubscriberPrio⟩)).setNode n
          (some { node with nodeSubs := node.nodeSubs ++ [d.next] }))
  /-- A subscriber of the session is freed. -/
  | freeSub {d d' : VSData} {n r s : ℕ} (hr : d.subSession r = some s)
      (h : d.freeSub n r = some d') : Effect (.freeSub s) d d'
  /-- The session unlocks a node, or locks one that it can write and nobody locked. -/
  | lock {d : VSData} {n s : ℕ} {node : VSNode} {lock : Option ℕ} (hnode : d.node n = some node)
      (hlock : lock = node.lock ∨ (node.lock = some s ∧ lock = none) ∨
        (node.lock = none ∧ lock = some s ∧ d.vsNodeCanWrite s node)) :
      Effect (.lock s) d (d.setNode n (some { node with lock }))
  /-- A node that nobody locked gets its permissions. -/
  | permit {d : VSData} {n : ℕ} {node : VSNode} {permissions : List VSNodePermission}
      (hnode : d.node n = some node) (hlock : node.lock = none) :
      Effect .permit d (d.setNode n (some { node with permissions }))
  /-- The permissions of a node change; it is unlocked when the client that locked it
  cannot write it any more. -/
  | access {d : VSData} {n : ℕ} {node : VSNode} {permissions : List VSNodePermission}
      {lock : Option ℕ} (hnode : d.node n = some node)
      (hlock : (lock = node.lock ∧
          ∀ s, lock = some s → d.vsNodeCanWrite s { node with permissions }) ∨
        (lock = none ∧ ∃ s, node.lock = some s ∧
          d.vsNodeCanWrite s { node with permissions } = false)) :
      Effect .access d (d.setNode n (some { node with permissions, lock }))
  | owner {d : VSData} {n owner : ℕ} {node : VSNode} (hnode : d.node n = some node) :
      Effect .owner d (d.setNode n (some { node with owner }))
  | prio {d : VSData} {r prio : ℕ} : Effect .prio d (d.setSubPrio r prio)
  | session {d : VSData} (session : ℕ → SessionInfo) : Effect .session d { d with session }
  /-- The creation of an entity is acknowledged. -/
  | ack {d : VSData} {kind : EntityKind} {a s : ℕ} {e e' : VSEntity} (he : d.entity a = some e)
      (h : e.createAck d.subSession s kind = some e') :
      Effect .ack d (d.setEntity a (some e'))
  /-- The destruction of an entity is acknowledged, but not yet by all followers. -/
  | drop {d : VSData} {kind : EntityKind} {a s : ℕ} {e e' : VSEntity} (he : d.entity a = some e)
      (h : e.destroyAck d.subSession s kind = some e') (hfolls : e'.folls ≠ []) :
      Effect .drop d (d.setEntity a (some e'))
  /-- The destruction of a node is acknowledged by its last follower. -/
  | dropNode {d d' : VSData} {n s : ℕ} {e e' : VSEntity} {node : VSNode}
      (hnode : d.node n = some node) (he : d.entity n = some e)
      (h : e.destroyAck d.subSession s .node = some e') (hfolls : e'.folls = [])
      (hremove : (d.setEntity n (some e')).vsNodeDestroy n = some d') : Effect .dropNode d d'
  | removeTag {d d' : VSData} {g a s : ℕ} {e e' : VSEntity} {tg : VSTagGroup}
      (htg : d.tagGroup g = some tg) (ha : a ∈ tg.tags.map Prod.snd) (he : d.entity a = some e)
      (h : e.destroyAck d.subSession s .tag = some e') (hfolls : e'.folls = [])
      (hremove : (d.setEntity a (some e')).vsTagDestroy g a = some d') : Effect .remove d d'
  | removeTagGroup {d d' : VSData} {n g s : ℕ} {e e' : VSEntity} {node : VSNode}
      (hnode : d.node n = some node) (hg : g ∈ node.tagGroups.map Prod.snd)
      (he : d.entity g = some e)
      (h : e.destroyAck d.subSession s .tagGroup = some e') (hfolls : e'.folls = [])
      (hremove : (d.setEntity g (some e')).vsTaggroupDestroy n g = some d') : Effect .remove d d'
  | removeLayer {d d' : VSData} {n a s : ℕ} {e e' : VSEntity} {node : VSNode}
      (hnode : d.node n = some node) (ha : a ∈ node.layers.map Prod.snd) (he : d.entity a = some e)
      (h : e.destroyAck d.subSession s .layer = some e') (hfolls : e'.folls = [])
      (hremove : (d.setEntity a (some e')).vsLayerDestroy n a = some d') : Effect .removeLayer d d'
  | removeNode {d d' : VSData} {n : ℕ} (h : d.vsNodeDestroy n = some d') :
      Effect .removeNode d d'
  /-- A node that passed the tests is moved. -/
  | move {d d' : VSData} {s parentId l old parent child : ℕ}
      (htests : d.linkChangeTests s child parentId = some (some (l, old, parent)))
      (h : d.moveLink l old parent child = some d') : Effect .move d d'

/-- A sequence of changes of the kinds in `S`. -/
def Effects (S : Set EffectKind) : VSData → VSData → Prop :=
  Relation.ReflTransGen fun d d' => ∃ k ∈ S, Effect k d d'

theorem Effects.refl {S : Set EffectKind} (d : VSData) : Effects S d d := Relation.ReflTransGen.refl

theorem Effects.trans {S : Set EffectKind} (h : Effects S d d') (h' : Effects S d' d'') :
    Effects S d d'' := Relation.ReflTransGen.trans h h'

theorem Effect.effects {S : Set EffectKind} {k : EffectKind} (h : Effect k d d') (hk : k ∈ S) :
    Effects S d d' := Relation.ReflTransGen.single ⟨k, hk, h⟩

/-- A reflexive and transitive relation that holds for every change of the kinds in
`S` holds for sequences of them. -/
theorem Effects.rel {S : Set EffectKind} {R : VSData → VSData → Prop} (hrefl : ∀ d, R d d)
    (htrans : ∀ {d d' d''}, R d d' → R d' d'' → R d d'')
    (hstep : ∀ k d d', k ∈ S → Effect k d d' → R d d') (h : Effects S d d') : R d d' := by
  induction h with
  | refl => exact hrefl d
  | tail _ hlast ih =>
      obtain ⟨k, hk, he⟩ := hlast
      exact htrans ih (hstep k _ _ hk he)

/-- A property that every change of the kinds in `S` keeps is kept by sequences of
them. -/
theorem Effects.invariant {S : Set EffectKind} {inv : VSData → Prop}
    (hstep : ∀ k d d', k ∈ S → Effect k d d' → inv d → inv d') (h : Effects S d d')
    (hinit : inv d) : inv d' :=
  h.rel (R := fun d d' => inv d → inv d') (fun _ h => h) (fun h₁ h₂ h => h₂ (h₁ h)) hstep hinit

theorem Effects.mono {S T : Set EffectKind} (hST : S ⊆ T) (h : Effects S d d') : Effects T d d' :=
  h.rel Effects.refl Effects.trans fun _ _ _ hk he => he.effects (hST hk)

end VSData

end Verse
