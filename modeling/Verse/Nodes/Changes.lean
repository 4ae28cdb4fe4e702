import Verse.Nodes.Runs

/-!
# Changes of entities and of records

What one change does to an entity, and what it does to the record of a subscriber.
Only the acknowledgement of a creation changes an entity in another way than listed in
`EntityChange`; it is left to the module about the life cycle.
-/

namespace Verse

open Lib

namespace VSData

variable {d d' : VSData}

/-! ## What is stored at an address -/

/-- There is a tag group, a tag or a layer at the address. -/
def IsContent (d : VSData) (a : ℕ) : Prop :=
  (d.tagGroup a).isSome ∨ (d.tag a).isSome ∨ (d.layer a).isSome

/-- Nothing is stored at an old address where nothing was stored, and there is not both
a node and something else at a new one. -/
structure KeepsKinds (d d' : VSData) : Prop where
  node : ∀ a, a < d.next → d.node a = none → d'.node a = none
  content : ∀ a, a < d.next → ¬ d.IsContent a → ¬ d'.IsContent a
  apart : ∀ a, d.next ≤ a → d'.node a = none ∨ ¬ d'.IsContent a

theorem not_isContent {a : ℕ} :
    ¬ d.IsContent a ↔ d.tagGroup a = none ∧ d.tag a = none ∧ d.layer a = none := by
  simp [IsContent]

/-- Nothing new is stored. -/
theorem keepsKinds_of_none (hfresh : d.Fresh)
    (hnode : ∀ a, d.node a = none → d'.node a = none)
    (htagGroup : ∀ a, d.tagGroup a = none → d'.tagGroup a = none)
    (htag : ∀ a, d.tag a = none → d'.tag a = none)
    (hlayer : ∀ a, d.layer a = none → d'.layer a = none) : KeepsKinds d d' := by
  refine ⟨fun a _ h => hnode a h, fun a _ h => ?_, fun a ha => Or.inl (hnode a (hfresh.node a ha))⟩
  obtain ⟨hg, ht, hl⟩ := not_isContent.mp h
  exact not_isContent.mpr ⟨htagGroup a hg, htag a ht, hlayer a hl⟩

theorem update_none_of_none {α : Type*} {f : ℕ → Option α} {a : ℕ} {v : Option α}
    (ha : f a = none → v = none) (m : ℕ) (hm : f m = none) : Function.update f a v m = none := by
  by_cases hma : m = a
  · subst hma
    rw [Function.update_self, ha hm]
  · rw [Function.update_of_ne hma, hm]

theorem update_some_of_none {α : Type*} {f : ℕ → Option α} {a : ℕ} {v w : α} (ha : f a = some v)
    (m : ℕ) (hm : f m = none) : Function.update f a (some w) m = none :=
  update_none_of_none (by simp [ha]) m hm

theorem map_none_of_none {α β : Type*} {x y : Option α} {f : α → β} (h : y.map f = x.map f)
    (hx : x = none) : y = none := by
  rw [hx, Option.map_none] at h
  exact Option.map_eq_none_iff.mp h

theorem vsNodeDestroy_keepsKinds (hfresh : d.Fresh) {n : ℕ} (h : d.vsNodeDestroy n = some d') :
    KeepsKinds d d' := by
  rcases vsNodeDestroy_cases h with rfl | ⟨node, e, d₁, d₂, -, -, -, -, hd₁, hfreed, rfl⟩
  · exact keepsKinds_of_none hfresh (fun _ h => h) (fun _ h => h) (fun _ h => h) fun _ h => h
  have hunlink : (∀ a, d.node a = none → d₁.node a = none) ∧ d₁.tagGroup = d.tagGroup ∧
      d₁.tag = d.tag ∧ d₁.layer = d.layer := by
    rcases unlink_cases hd₁ with ⟨-, rfl⟩ | ⟨l, link, pnode, -, -, hpnode, rfl⟩
    · exact ⟨fun _ h => h, rfl, rfl, rfl⟩
    · exact ⟨update_some_of_none hpnode, rfl, rfl, rfl⟩
  obtain ⟨hnode, htg, htag, hlayer⟩ := hunlink
  refine keepsKinds_of_none hfresh (fun a ha => ?_)
    (fun a ha => none_of_same_or_none (hfreed.tagGroup a) (by rw [htg, ha]))
    (fun a ha => none_of_same_or_none (hfreed.tag a) (by rw [htag, ha]))
    (fun a ha => none_of_same_or_none (hfreed.layer a) (by rw [hlayer, ha]))
  refine update_none_of_none (fun _ => rfl) a ?_
  rw [hfreed.kept]
  exact hnode a ha

theorem vsNodeCreateLinked_keepsKinds (hfresh : d.Fresh) {parent created : Option ℕ}
    {heap owner nodeId customType : ℕ}
    (h : d.vsNodeCreateLinked heap parent owner nodeId customType = some (d', created)) :
    KeepsKinds d d' := by
  rcases vsNodeCreateLinked_eq h with ⟨rfl, -⟩ | ⟨id, last, d₁, -, -, hd₁, -, rfl⟩
  · exact keepsKinds_of_none hfresh (fun _ h => h) (fun _ h => h) (fun _ h => h) fun _ h => h
  have hcontent : d₁.tagGroup = d.tagGroup ∧ d₁.tag = d.tag ∧ d₁.layer = d.layer ∧
      ∀ a, a < d.next → d.node a = none → d₁.node a = none := by
    rcases createLinked_eq hd₁ with ⟨-, rfl⟩ | ⟨p, pnode, -, hpnode, rfl⟩
    · refine ⟨rfl, rfl, rfl, fun a ha hnone => ?_⟩
      exact (Function.update_of_ne (Nat.ne_of_lt ha) _ _).trans hnone
    · refine ⟨rfl, rfl, rfl, fun a ha hnone => ?_⟩
      exact (Function.update_of_ne (Nat.ne_of_lt ha) _ _).trans
        (update_some_of_none hpnode a hnone)
  obtain ⟨htg, htag, hlayer, hnode⟩ := hcontent
  have hsame : ∀ a, d₁.IsContent a ↔ d.IsContent a := by
    intro a
    rw [IsContent, IsContent, htg, htag, hlayer]
  refine ⟨hnode, fun a _ hnot => (hsame a).not.mpr hnot, fun a ha => Or.inr ((hsame a).not.mpr ?_)⟩
  exact not_isContent.mpr ⟨hfresh.tagGroup a ha, hfresh.tag a ha, hfresh.layer a ha⟩

theorem Effect.keepsKinds {k : EffectKind} (he : Effect k d d') (hfresh : d.Fresh) :
    KeepsKinds d d' := by
  -- where a tag group, a tag or a layer is created, no node is
  have hnew : ∀ {n : ℕ} {node node' : VSNode}, d.node n = some node →
      ∀ a, d.next ≤ a → Function.update d.node n (some node') a = none :=
    fun hnode a ha => update_some_of_none hnode a (hfresh.node a ha)
  cases he with
  | push hpush _ _ | pushSet hpush _ _ =>
      obtain ⟨sub, -, rfl⟩ := push_eq_some.mp hpush
      exact keepsKinds_of_none hfresh (fun _ h => h) (fun _ h => h) (fun _ h => h) fun _ h => h
  | unfollow hfree =>
      obtain ⟨e, -, rfl⟩ := freeFollower_eq_some hfree
      exact keepsKinds_of_none hfresh (fun _ h => h) (fun _ h => h) (fun _ h => h) fun _ h => h
  | newTag hcreate =>
      obtain ⟨tg, id, tag, htg, -, -, rfl⟩ := vsTagCreate_eq hcreate
      refine ⟨fun a _ h => h, fun a ha hnot => ?_, fun a ha => Or.inl (hfresh.node a ha)⟩
      obtain ⟨hg, ht, hl⟩ := not_isContent.mp hnot
      exact not_isContent.mpr ⟨update_some_of_none htg a hg,
        (Function.update_of_ne (Nat.ne_of_lt ha) _ _).trans ht, hl⟩
  | newTagGroup hcreate =>
      rcases vsTaggroupCreate_eq hcreate with ⟨-, hnone⟩ | ⟨node, id, tg, hnode, -, -, -, -, rfl⟩
      · cases hnone
      refine ⟨fun a _ h => update_some_of_none hnode a h, fun a ha hnot => ?_,
        fun a ha => Or.inl (hnew hnode a ha)⟩
      obtain ⟨hg, ht, hl⟩ := not_isContent.mp hnot
      exact not_isContent.mpr ⟨(Function.update_of_ne (Nat.ne_of_lt ha) _ _).trans hg, ht, hl⟩
  | newLayer _ _ hcreate =>
      obtain ⟨node, id, layer, layers, hnode, -, -, -, -, -, hsubs, -, rfl⟩ :=
        vsLayerCreate_eq hcreate
      refine ⟨fun a _ h => update_some_of_none hnode a h, fun a ha hnot => ?_,
        fun a ha => Or.inl (hnew hnode a ha)⟩
      obtain ⟨hg, ht, hl⟩ := not_isContent.mp hnot
      exact not_isContent.mpr ⟨hg, ht, map_none_of_none (hsubs a (Nat.ne_of_lt ha)) hl⟩
  | newNode hcreate => exact vsNodeCreateLinked_keepsKinds hfresh hcreate
  | newRoot hcreate => exact vsNodeCreateLinked_keepsKinds hfresh hcreate
  | tagValue htag =>
      exact keepsKinds_of_none hfresh (fun _ h => h) (fun _ h => h) (update_some_of_none htag)
        fun _ h => h
  | layerValue hlayer =>
      exact keepsKinds_of_none hfresh (fun _ h => h) (fun _ h => h) (fun _ h => h)
        (update_some_of_none hlayer)
  | joinTagGroup _ _ htg =>
      exact keepsKinds_of_none hfresh (fun _ h => h) (update_some_of_none htg) (fun _ h => h)
        fun _ h => h
  | joinLayer _ _ hlayer =>
      exact keepsKinds_of_none hfresh (fun _ h => h) (fun _ h => h) (fun _ h => h)
        (update_some_of_none hlayer)
  | leaveTagGroup htg =>
      exact keepsKinds_of_none hfresh (fun _ h => h) (update_some_of_none htg) (fun _ h => h)
        fun _ h => h
  | leaveLayer hlayer =>
      exact keepsKinds_of_none hfresh (fun _ h => h) (fun _ h => h) (fun _ h => h)
        (update_some_of_none hlayer)
  | subscribe hnode =>
      exact keepsKinds_of_none hfresh (update_some_of_none hnode) (fun _ h => h) (fun _ h => h)
        fun _ h => h
  | freeSub _ hfree =>
      obtain ⟨sub, node, -, hnode, rfl⟩ := freeSub_eq_some hfree
      exact keepsKinds_of_none hfresh (update_some_of_none hnode) (fun _ h => h) (fun _ h => h)
        fun _ h => h
  | lock hnode =>
      exact keepsKinds_of_none hfresh (update_some_of_none hnode) (fun _ h => h) (fun _ h => h)
        fun _ h => h
  | permit hnode | access hnode =>
      exact keepsKinds_of_none hfresh (update_some_of_none hnode) (fun _ h => h) (fun _ h => h)
        fun _ h => h
  | owner hnode =>
      exact keepsKinds_of_none hfresh (update_some_of_none hnode) (fun _ h => h) (fun _ h => h)
        fun _ h => h
  | dropNode _ he _ _ hremove =>
      obtain ⟨hnode, hcontent, hapart⟩ :=
        vsNodeDestroy_keepsKinds (hfresh.replaceEntity he _) hremove
      exact ⟨hnode, hcontent, hapart⟩
  | removeTag _ _ he _ _ hremove =>
      obtain ⟨tg, tag, htg, -, rfl⟩ := vsTagDestroy_cases hremove
      exact keepsKinds_of_none hfresh (fun _ h => h) (update_some_of_none htg)
        (update_none_of_none fun _ => rfl) fun _ h => h
  | removeTagGroup _ _ he _ _ hremove =>
      obtain ⟨tg, d₁, node, -, hfreed, -, hnode, rfl⟩ := vsTaggroupDestroy_cases hremove
      refine keepsKinds_of_none hfresh (fun a ha => ?_)
        (fun a => none_of_same_or_none (hfreed.tagGroup a))
        (fun a => none_of_same_or_none (hfreed.tag a))
        fun a => none_of_same_or_none (hfreed.layer a)
      rw [hfreed.kept]
      exact update_some_of_none hnode a ha
  | removeLayer _ _ he _ _ hremove =>
      obtain ⟨layer, d₁, node, -, hsame, hnode, rfl⟩ := vsLayerDestroy_cases hremove
      refine keepsKinds_of_none hfresh (fun a ha => ?_) (fun a ha => ?_) (fun a ha => ?_)
        fun a ha => update_none_of_none (fun _ => rfl) a (map_none_of_none (hsame.subs a) ha)
      · rw [hsame.kept]
        exact update_some_of_none hnode a ha
      · rw [hsame.kept]
        exact ha
      · rw [hsame.kept]
        exact ha
  | removeNode hremove => exact vsNodeDestroy_keepsKinds hfresh hremove
  | move _ hmove =>
      obtain ⟨onode, d₁, pnode, d₂, honode, rfl, hpnode, rfl, hlevels⟩ := moveLink_cases hmove
      refine keepsKinds_of_none hfresh (fun a ha => map_none_of_none (hlevels.node a) ?_)
        (fun a ha => ?_) (fun a ha => ?_) fun a ha => ?_
      · exact update_some_of_none hpnode a (update_some_of_none honode a ha)
      · rw [hlevels.kept]
        exact ha
      · rw [hlevels.kept]
        exact ha
      · rw [hlevels.kept]
        exact ha
  | _ => exact keepsKinds_of_none hfresh (fun _ h => h) (fun _ h => h) (fun _ h => h) fun _ h => h

/-! ## Records of subscribers -/

theorem vsNodeDestroy_sub {n : ℕ} (h : d.vsNodeDestroy n = some d') : d'.sub = d.sub := by
  rcases vsNodeDestroy_cases h with rfl | ⟨node, e, d₁, d₂, -, -, -, -, hd₁, hfreed, rfl⟩
  · rfl
  have hunlink : d₁.sub = d.sub := by
    rcases unlink_cases hd₁ with ⟨-, rfl⟩ | ⟨l, link, pnode, -, -, -, rfl⟩ <;> rfl
  rw [hfreed.kept]
  exact hunlink

theorem vsNodeCreateLinked_sub {parent created : Option ℕ} {heap owner nodeId customType : ℕ}
    (h : d.vsNodeCreateLinked heap parent owner nodeId customType = some (d', created)) :
    d'.sub = d.sub := by
  rcases vsNodeCreateLinked_eq h with ⟨rfl, -⟩ | ⟨id, last, d₁, -, -, hd₁, -, rfl⟩
  · rfl
  · rcases createLinked_eq hd₁ with ⟨-, rfl⟩ | ⟨p, pnode, -, -, rfl⟩ <;> rfl

/-- The changes that make or free the record of a subscriber, or change its priority. -/
theorem Effect.sub_kept {k : EffectKind} (he : Effect k d d') (hsubscribe : ∀ s, k ≠ .subscribe s)
    (hfree : ∀ s, k ≠ .freeSub s) (hprio : k ≠ .prio) : d'.sub = d.sub := by
  cases he with
  | push hpush _ _ | pushSet hpush _ _ =>
      obtain ⟨sub, -, rfl⟩ := push_eq_some.mp hpush
      rfl
  | unfollow hfollower =>
      obtain ⟨e, -, rfl⟩ := freeFollower_eq_some hfollower
      rfl
  | newTag hcreate =>
      obtain ⟨tg, id, tag, -, -, -, rfl⟩ := vsTagCreate_eq hcreate
      rfl
  | newTagGroup hcreate =>
      rcases vsTaggroupCreate_eq hcreate with ⟨rfl, -⟩ | ⟨node, id, tg, -, -, -, -, -, rfl⟩ <;> rfl
  | newLayer _ _ hcreate =>
      obtain ⟨node, id, layer, layers, -, -, -, -, -, -, -, -, rfl⟩ := vsLayerCreate_eq hcreate
      rfl
  | newNode hcreate => exact vsNodeCreateLinked_sub hcreate
  | newRoot hcreate => exact vsNodeCreateLinked_sub hcreate
  | subscribe => exact absurd rfl (hsubscribe _)
  | freeSub => exact absurd rfl (hfree _)
  | prio => exact absurd rfl hprio
  | dropNode _ _ _ _ hremove => exact (vsNodeDestroy_sub hremove).trans rfl
  | removeTag _ _ _ _ _ hremove =>
      obtain ⟨tg, tag, -, -, rfl⟩ := vsTagDestroy_cases hremove
      rfl
  | removeTagGroup _ _ _ _ _ hremove =>
      obtain ⟨tg, d₁, node, -, hfreed, -, -, rfl⟩ := vsTaggroupDestroy_cases hremove
      rw [hfreed.kept]
      rfl
  | removeLayer _ _ _ _ _ hremove =>
      obtain ⟨layer, d₁, node, -, hsame, -, rfl⟩ := vsLayerDestroy_cases hremove
      rw [hsame.kept]
      rfl
  | removeNode hremove => exact vsNodeDestroy_sub hremove
  | move _ hmove =>
      obtain ⟨onode, d₁, pnode, d₂, -, rfl, -, rfl, hlevels⟩ := moveLink_cases hmove
      rw [hlevels.kept]
      rfl
  | _ => rfl

/-- The other changes keep the sessions of the records. -/
theorem Effect.subSession_kept {k : EffectKind} (he : Effect k d d')
    (hsubscribe : ∀ s, k ≠ .subscribe s) (hfree : ∀ s, k ≠ .freeSub s) :
    d'.subSession = d.subSession := by
  by_cases hprio : k = .prio
  · subst hprio
    cases he with
    | prio =>
        rename_i r' prio
        funext r
        by_cases hrr : r = r'
        · subst hrr
          simp only [subSession, setSubPrio, setSub, Function.update_self, Option.map_map]
          rfl
        · simp [subSession, setSubPrio, setSub, Function.update_of_ne hrr]
  · funext r
    rw [subSession, subSession, he.sub_kept hsubscribe hfree hprio]

/-- A record keeps its session until it is freed. -/
theorem Effect.subSession_old {k : EffectKind} (he : Effect k d d') {r : ℕ} (hr : r < d.next) :
    d'.subSession r = d.subSession r ∨ d'.subSession r = none := by
  by_cases hk : (∃ s, k = .subscribe s) ∨ ∃ s, k = .freeSub s
  · rcases hk with ⟨s, rfl⟩ | ⟨s, rfl⟩
    · cases he with
      | subscribe =>
          refine Or.inl ?_
          simp [subSession, setSub, setNode, Function.update_of_ne (Nat.ne_of_lt hr)]
    · cases he with
      | freeSub hs hfree =>
          rename_i n r'
          obtain ⟨sub, node, -, -, rfl⟩ := freeSub_eq_some hfree
          by_cases hrr : r = r'
          · subst hrr
            exact Or.inr (by simp [subSession, setSub])
          · exact Or.inl (by simp [subSession, setSub, setNode, Function.update_of_ne hrr])
  · simp only [not_or, not_exists] at hk
    exact Or.inl (congrFun (he.subSession_kept hk.1 hk.2) r)

/-! ## Entities -/

/-- What a change makes of the entity at an address. -/
inductive EntityChange (d : VSData) (a : ℕ) (e : VSEntity) : VSEntity → Prop
  /-- A client follows the entity whose session has no follower that knows about it. -/
  | follow {r : ℕ} {sub : VSNodeSubscriber} (hsub : d.sub r = some sub)
      (hcreated : e.state.isCreated)
      (hnew : ∀ f ∈ e.folls, d.subSession f.nodeSub = some sub.session →
        f.state.isCreated = false)
      (hmay : d.MayFollow a r) : EntityChange d a e (e.addFollower r)
  /-- Followers are freed. -/
  | free {folls : List VSEntityFollower} (h : folls.Sublist e.folls) :
      EntityChange d a e { e with folls }
  /-- The followers are told. -/
  | tell (h : e.state.isCreated ∨ e.folls ≠ [] ∨ d.IsContent a) :
      EntityChange d a e e.sendDestroy
  /-- A new entity gets its first state. -/
  | mark {state : EntityState} (he : e = ⟨.reserved, []⟩) (hstate : state.isCreated) :
      EntityChange d a e { e with state }
  /-- The last follower of a node acknowledged that it is destroyed. -/
  | last (hnode : (d.node a).isSome) : EntityChange d a e ⟨.deleted, []⟩

/-- What a change makes of an address: an entity is kept, changed, freed, or new. -/
def EntityAfter (d d' : VSData) (a : ℕ) : Prop :=
  d'.entity a = d.entity a ∨ d'.entity a = none ∨
    (d.next ≤ a ∧ d'.entity a = some ⟨.reserved, []⟩) ∨
    ∃ e e', d.entity a = some e ∧ d'.entity a = some e' ∧ EntityChange d a e e'

theorem entityAfter_setEntity {b : ℕ} {e e' : VSEntity} (he : d.entity b = some e)
    (h : EntityChange d b e e') (a : ℕ) : EntityAfter d (d.setEntity b (some e')) a := by
  by_cases ha : a = b
  · subst ha
    exact Or.inr (Or.inr (Or.inr ⟨e, e', he, Function.update_self _ _ _, h⟩))
  · exact Or.inl (Function.update_of_ne ha _ _)

/-- A new entity at the next address. -/
theorem entityAfter_new (hentity : d'.entity = Function.update d.entity d.next (some ⟨.reserved, []⟩))
    (a : ℕ) : EntityAfter d d' a := by
  by_cases ha : a = d.next
  · subst ha
    exact Or.inr (Or.inr (Or.inl ⟨Nat.le_refl _, by rw [hentity, Function.update_self]⟩))
  · exact Or.inl (by rw [hentity, Function.update_of_ne ha])

theorem vsNodeDestroy_entity {n : ℕ} (h : d.vsNodeDestroy n = some d') (a : ℕ) :
    d'.entity a = d.entity a ∨ d'.entity a = none := by
  rcases vsNodeDestroy_cases h with rfl | ⟨node, e, d₁, d₂, -, -, -, -, hd₁, hfreed, rfl⟩
  · exact Or.inl rfl
  have hunlink : d₁.entity = d.entity := by
    rcases unlink_cases hd₁ with ⟨-, rfl⟩ | ⟨l, link, pnode, -, -, -, rfl⟩ <;> rfl
  refine same_or_none_trans ?_ (update_none_cases _ n a)
  rw [← hunlink]
  exact hfreed.entity a

theorem vsNodeCreateLinked_entity {parent : Option ℕ} {heap owner nodeId customType n : ℕ}
    (h : d.vsNodeCreateLinked heap parent owner nodeId customType = some (d', some n)) :
    d'.entity = Function.update d.entity d.next (some ⟨.reserved, []⟩) := by
  rcases vsNodeCreateLinked_eq h with ⟨-, hnone⟩ | ⟨id, last, d₁, -, -, hd₁, -, rfl⟩
  · cases hnone
  · rcases createLinked_eq hd₁ with ⟨-, rfl⟩ | ⟨p, pnode, -, -, rfl⟩ <;> rfl

/-- An entity that loses followers when its destruction is acknowledged. -/
theorem destroyAck_sublist {kind : EntityKind} {session : ℕ → Option ℕ} {s : ℕ} {e e' : VSEntity}
    (h : e.destroyAck session s kind = some e') :
    e'.folls.Sublist e.folls ∧ e'.state = if e'.folls = [] then .deleted else e.state := by
  obtain ⟨folls, hfolls, rfl⟩ := Option.map_eq_some_iff.mp h
  refine ⟨?_, rfl⟩
  cases kind with
  | node | tag =>
      rw [freeFollower_eq hfolls]
      exact List.eraseP_sublist
  | tagGroup | layer =>
      rw [freeFollowers_eq hfolls]
      exact List.filter_sublist

/-- **One change.**  What a change that is not the acknowledgement of a creation makes of
an entity. -/
theorem Effect.entity_after {k : EffectKind} (he : Effect k d d') (hk : k ≠ .ack) (a : ℕ) :
    EntityAfter d d' a := by
  cases he with
  | push hpush _ _ | pushSet hpush _ _ =>
      obtain ⟨sub, -, rfl⟩ := push_eq_some.mp hpush
      exact Or.inl rfl
  | follow hsub he hcreated hnew hknown hmay =>
      refine entityAfter_setEntity he (.follow hsub hcreated (fun f hf hs => ?_) hmay) a
      have hnone := findFollower_eq hnew
      have hf' := List.any_eq_false.mp hnone.symm f hf
      by_contra hstate
      have hstate : f.state.isCreated := by simpa using hstate
      exact hf' (by simp [VSEntityFollower.ofSession, hs, hknown _ hstate])
  | unfollow hfree =>
      obtain ⟨e, he, rfl⟩ := freeFollower_eq_some hfree
      exact entityAfter_setEntity he (.free List.eraseP_sublist) a
  | tellNode _ he hlive _ =>
      exact entityAfter_setEntity he
        (.tell (hlive.elim Or.inl fun hfolls => Or.inr (Or.inl hfolls))) a
  | tellContent hcontent he =>
      exact entityAfter_setEntity he (.tell (Or.inr (Or.inr (hcontent.imp_right Or.inl)))) a
  | tellLayer hlayer he _ =>
      exact entityAfter_setEntity he (.tell (Or.inr (Or.inr (Or.inr (Or.inr (by simp [hlayer])))))) a
  | mark he hstate =>
      have hset := entityAfter_setEntity he (.mark rfl hstate) a
      rw [setState, he]
      exact hset
  | newTag hcreate =>
      obtain ⟨tg, id, tag, -, -, -, rfl⟩ := vsTagCreate_eq hcreate
      exact entityAfter_new rfl a
  | newTagGroup hcreate =>
      rcases vsTaggroupCreate_eq hcreate with ⟨-, hnone⟩ | ⟨node, id, tg, -, -, -, -, -, rfl⟩
      · cases hnone
      · exact entityAfter_new rfl a
  | newLayer _ _ hcreate =>
      obtain ⟨node, id, layer, layers, -, -, -, -, -, -, -, -, rfl⟩ := vsLayerCreate_eq hcreate
      exact entityAfter_new rfl a
  | newNode hcreate => exact entityAfter_new (vsNodeCreateLinked_entity hcreate) a
  | newRoot hcreate => exact entityAfter_new (vsNodeCreateLinked_entity hcreate) a
  | freeSub _ hfree =>
      obtain ⟨sub, node, -, -, rfl⟩ := freeSub_eq_some hfree
      exact Or.inl rfl
  | ack => exact absurd rfl hk
  | drop he hack hfolls =>
      obtain ⟨hsub, hstate⟩ := destroyAck_sublist hack
      rw [if_neg hfolls] at hstate
      rename_i e e'
      have heq : e' = { e with folls := e'.folls } := by
        cases e'
        simp_all
      rw [heq]
      exact entityAfter_setEntity he (.free hsub) a
  | dropNode hnode he hack hfolls hremove =>
      rename_i n s e e' node
      obtain ⟨-, hstate⟩ := destroyAck_sublist hack
      rw [if_pos hfolls] at hstate
      obtain rfl : e' = ⟨.deleted, []⟩ := by
        cases e'
        simp_all
      rcases vsNodeDestroy_entity hremove a with hsame | hnone
      · have hlast := entityAfter_setEntity he (.last (by simp [hnode])) a
        unfold EntityAfter
        rw [hsame]
        exact hlast
      · exact Or.inr (Or.inl hnone)
  | removeTag htg₀ ha he hack hfolls hremove =>
      rename_i g b s e e' _
      obtain ⟨tg, tag, -, -, rfl⟩ := vsTagDestroy_cases hremove
      by_cases hab : a = b
      · subst hab
        exact Or.inr (Or.inl (Function.update_self _ _ _))
      · exact Or.inl ((Function.update_of_ne hab _ _).trans (Function.update_of_ne hab _ _))
  | removeTagGroup hnode₀ hg he hack hfolls hremove =>
      rename_i n b s e e' _
      obtain ⟨tg, d₁, node, -, hfreed, hnone, -, rfl⟩ := vsTaggroupDestroy_cases hremove
      by_cases hab : a = b
      · subst hab
        exact Or.inr (Or.inl hnone)
      · rcases hfreed.entity a with hsame | hnone
        · exact Or.inl (hsame.trans (Function.update_of_ne hab _ _))
        · exact Or.inr (Or.inl hnone)
  | removeLayer hnode₀ ha he hack hfolls hremove =>
      rename_i n b s e e' _
      obtain ⟨layer, d₁, node, -, hsame, -, rfl⟩ := vsLayerDestroy_cases hremove
      by_cases hab : a = b
      · subst hab
        exact Or.inr (Or.inl (Function.update_self _ _ _))
      · refine Or.inl ((Function.update_of_ne hab _ _).trans ?_)
        rw [hsame.kept]
        exact Function.update_of_ne hab _ _
  | removeNode hremove =>
      rcases vsNodeDestroy_entity hremove a with hsame | hnone
      · exact Or.inl hsame
      · exact Or.inr (Or.inl hnone)
  | move _ hmove =>
      obtain ⟨onode, d₁, pnode, d₂, -, rfl, -, rfl, hlevels⟩ := moveLink_cases hmove
      rw [hlevels.kept]
      exact Or.inl rfl
  | _ => exact Or.inl rfl

end VSData

end Verse
