import Verse.Nodes.HandlerTests
import Verse.Nodes.LayerTrees

/-!
# What a removed layer leaves

When a layer is destroyed, the layers below it are destroyed first, so that nothing below a
layer that is being destroyed stays.  A layer may yet be left that is not being destroyed.
`vs_handle_layer_create` does not ask whether the parent is being destroyed, the
acknowledgement of a creation makes a layer that is being destroyed created again, and the
acknowledgement of a destroy removes a layer that is not being destroyed.  In the runs
without these three (`LayersInOrder`), everything that was ever below a layer that is
removed is removed or being destroyed.
-/

namespace Verse

open Lib

namespace VSData

variable {d d' : VSData} {k : EffectKind}

/-! ## Entities of layers -/

theorem ContentOwned.isContent_of_isPart (h : d.ContentOwned) {x a : ℕ} (ha : d.IsPart x a) :
    d.IsContent a := by
  cases ha with
  | tagGroup hnode hg =>
      obtain ⟨tg, htg⟩ := h.exists_tagGroup hnode hg
      exact Or.inl (by simp [htg])
  | layer hnode hl =>
      obtain ⟨layer, hlayer⟩ := h.exists_layer hnode hl
      exact Or.inr (Or.inr (by simp [hlayer]))
  | tag htg ht =>
      obtain ⟨tag, htag⟩ := h.exists_tag htg ht
      exact Or.inr (Or.inl (by simp [htag]))

/-- A layer that belongs to the entity at `x` is this entity, or a layer of the node at
`x`. -/
theorem ContentOwned.layer_of_belongsTo (h : d.ContentOwned) {x a : ℕ}
    (hbelongs : d.BelongsTo x a) (ha : (d.layer a).isSome) :
    a = x ∨ ∃ node, d.node x = some node ∧ a ∈ node.layers.map Prod.snd := by
  obtain ⟨hnotg, hnotag⟩ := (h.apart a).layer ha
  cases hbelongs with
  | refl => exact Or.inl rfl
  | @tail y _ hxy hya =>
      right
      cases hya with
      | tagGroup hnode hg =>
          obtain ⟨tg, htg⟩ := h.exists_tagGroup hnode hg
          rw [hnotg] at htg
          cases htg
      | layer hnode hl =>
          -- the node at `y` is no part of anything
          cases hxy with
          | refl => exact ⟨_, hnode, hl⟩
          | tail _ hzy =>
              exact absurd (h.isContent_of_isPart hzy) ((h.apart y).node (by simp [hnode]))
      | tag htg ht =>
          obtain ⟨tag, htag⟩ := h.exists_tag htg ht
          rw [hnotag] at htag
          cases htag

/-- A change neither makes a layer begin nor stop to be destroyed. -/
structure SameDoom (d d' : VSData) (a : ℕ) : Prop where
  isSome : (d'.entity a).isSome = (d.entity a).isSome
  destroying : d'.Destroying a ↔ d.Destroying a

theorem sameDoom_of_eq {a : ℕ} (h : d'.entity a = d.entity a) : SameDoom d d' a :=
  ⟨by rw [h], by rw [Destroying, Destroying, h]⟩

/-- An entity is replaced by one that is being destroyed if the old one is. -/
theorem sameDoom_setEntity {a : ℕ} {e e' : VSEntity} (he : d.entity a = some e)
    (hstate : e'.state = .deleting ↔ e.state = .deleting) (b : ℕ) :
    SameDoom d (d.setEntity a (some e')) b := by
  by_cases hb : b = a
  · subst hb
    have he' : (d.setEntity b (some e')).entity b = some e' := Function.update_self _ _ _
    refine ⟨by rw [he, he']; rfl, ?_⟩
    simp [Destroying, he, he', hstate]
  · exact sameDoom_of_eq (Function.update_of_ne hb _ _)

/-- What a change leaves of a layer: it is removed, it is told and so are its child layers,
or its entity is as it was. -/
inductive LayerAfter (d d' : VSData) (a : ℕ) : Prop
  | removed (h : d'.layer a = none)
  | told (h : d'.Destroying a) (hchildren : ∀ c, d.IsChildLayer a c → d.OnlyDestroying c)
  | same (h : SameDoom d d' a)

/-- A layer is removed with the entity it belongs to, or its entity is kept. -/
theorem ContentOwned.layer_of_onlyRemoves (h : d.ContentOwned) {x a : ℕ}
    (ha : (d.layer a).isSome) (hremoves : OnlyRemoves d d' x) (hself : a = x → d'.layer a = none)
    (hnode : ∀ node, d.node x = some node → a ∈ node.layers.map Prod.snd → d'.layer a = none) :
    d'.layer a = none ∨ d'.entity a = d.entity a := by
  rcases hremoves a with hsame | ⟨-, hbelongs⟩
  · exact Or.inr hsame
  · rcases h.layer_of_belongsTo hbelongs ha with hax | ⟨node, hx, hmem⟩
    · exact Or.inl (hself hax)
    · exact Or.inl (hnode node hx hmem)

/-- A layer is removed with its node, or its entity is kept. -/
theorem ContentOwned.layer_of_vsNodeDestroy (h : d.ContentOwned) {n a : ℕ}
    (ha : (d.layer a).isSome) (hdestroy : d.vsNodeDestroy n = some d') :
    d'.layer a = none ∨ d'.entity a = d.entity a := by
  rcases vsNodeDestroy_content hdestroy with rfl | ⟨node, hnode, -, -, hfreed⟩
  · exact Or.inr rfl
  refine h.layer_of_onlyRemoves ha (vsNodeDestroy_onlyRemoves hdestroy) ?_ ?_
  · rintro rfl
    exact absurd (Or.inr (Or.inr ha)) ((h.apart a).node (by simp [hnode]))
  · intro node' hnode' hmem
    obtain rfl := Option.some.inj (hnode.symm.trans hnode')
    rw [hfreed.layer a, if_pos hmem]

/-- **One change.**  What a change that is not an acknowledged creation leaves of a layer. -/
theorem Effect.layer_after (he : Effect k d d') (hk : k ≠ .ack) (hfresh : d.Fresh)
    (howned : d.ContentOwned) {a : ℕ} (ha : (d.layer a).isSome) : LayerAfter d d' a := by
  obtain ⟨hnotg, hnotag⟩ := (howned.apart a).layer ha
  have hnonode : d.node a = none := by
    by_contra hnode
    exact (howned.apart a).node (Option.isSome_iff_ne_none.mpr hnode) (Or.inr (Or.inr ha))
  have hnext : a ≠ d.next := by
    rintro rfl
    simp [hfresh.layer d.next (Nat.le_refl _)] at ha
  have hother : ∀ {b : ℕ} {e : VSEntity}, a ≠ b → LayerAfter d (d.setEntity b (some e)) a :=
    fun hb => .same (sameDoom_of_eq (Function.update_of_ne hb _ _))
  have hnew : d'.entity = Function.update d.entity d.next (some ⟨.reserved, []⟩) →
      LayerAfter d d' a :=
    fun h => .same (sameDoom_of_eq (by rw [h, Function.update_of_ne hnext]))
  cases he with
  | push hpush _ _ | pushSet hpush _ _ =>
      obtain ⟨sub, -, rfl⟩ := push_eq_some.mp hpush
      exact .same (sameDoom_of_eq rfl)
  | follow _ he => exact .same (sameDoom_setEntity he (by rfl) a)
  | unfollow hfree =>
      obtain ⟨e, he, rfl⟩ := freeFollower_eq_some hfree
      exact .same (sameDoom_setEntity he (by rfl) a)
  | tellNode hnode =>
      apply hother
      rintro rfl
      simp [hnonode] at hnode
  | tellContent hcontent =>
      apply hother
      rintro rfl
      simp [hnotg, hnotag] at hcontent
  | tellLayer hlayer he hchildren =>
      rename_i b e layer
      by_cases hab : a = b
      · subst hab
        refine .told ⟨_, Function.update_self _ _ _, rfl⟩ fun c hc => ?_
        obtain ⟨layer', hlayer', hmem⟩ := hc
        obtain rfl := Option.some.inj (hlayer.symm.trans hlayer')
        exact hchildren c hmem
      · exact hother hab
  | mark he hstate =>
      rename_i b state
      have hset : d.setState b state = d.setEntity b (some ⟨state, []⟩) := by
        rw [setState, he]
        rfl
      rw [hset]
      refine .same (sameDoom_setEntity he ?_ a)
      cases state <;> simp_all [EntityState.isCreated]
  | newTag hcreate =>
      obtain ⟨tg, id, tag, -, -, -, rfl⟩ := vsTagCreate_eq hcreate
      exact hnew rfl
  | newTagGroup hcreate =>
      rcases vsTaggroupCreate_eq hcreate with ⟨-, hnone⟩ | ⟨node, id, tg, -, -, -, -, -, rfl⟩
      · cases hnone
      · exact hnew rfl
  | newLayer _ _ hcreate =>
      obtain ⟨node, id, layer, layers, -, -, -, -, -, -, -, -, rfl⟩ := vsLayerCreate_eq hcreate
      exact hnew rfl
  | newNode hcreate | newRoot hcreate => exact hnew (vsNodeCreateLinked_entity hcreate)
  | freeSub _ hfree =>
      obtain ⟨sub, node, -, -, rfl⟩ := freeSub_eq_some hfree
      exact .same (sameDoom_of_eq rfl)
  | ack => exact absurd rfl hk
  | drop he hack hfolls =>
      obtain ⟨-, hstate⟩ := destroyAck_sublist hack
      rw [if_neg hfolls] at hstate
      exact .same (sameDoom_setEntity he (by rw [hstate]) a)
  | dropNode hnode he hack hfolls hremove =>
      rename_i n s e e' node
      have hset : (d.setEntity n (some e')).entity a = d.entity a := by
        refine Function.update_of_ne ?_ _ _
        rintro rfl
        simp [hnonode] at hnode
      rcases howned.setEntity.layer_of_vsNodeDestroy ha hremove with hnone | hsame
      · exact .removed hnone
      · exact .same (sameDoom_of_eq (hsame.trans hset))
  | removeTag htg ht he hack hfolls hremove =>
      rename_i g b s e e' tg
      have hab : a ≠ b := by
        rintro rfl
        obtain ⟨tag, htag⟩ := howned.exists_tag htg ht
        simp [hnotag] at htag
      obtain ⟨tg', tag, -, -, rfl⟩ := vsTagDestroy_cases hremove
      exact .same (sameDoom_of_eq ((Function.update_of_ne hab _ _).trans
        (Function.update_of_ne hab _ _)))
  | removeTagGroup hnode hg he hack hfolls hremove =>
      rename_i n g s e e' node
      have hag : a ≠ g := by
        rintro rfl
        obtain ⟨tg, htg⟩ := howned.exists_tagGroup hnode hg
        simp [hnotg] at htg
      have hset : (d.setEntity g (some e')).entity a = d.entity a := Function.update_of_ne hag _ _
      have hnot : d.node g = none := by
        obtain ⟨tg, htg⟩ := howned.exists_tagGroup hnode hg
        by_contra hsome
        exact (howned.apart g).node (Option.isSome_iff_ne_none.mpr hsome) (Or.inl (by simp [htg]))
      rcases howned.setEntity.layer_of_onlyRemoves ha (vsTaggroupDestroy_onlyRemoves hremove)
        (fun h => absurd h hag) (fun node' hnode' => absurd (hnot.symm.trans hnode') (by simp))
        with hnone | hsame
      · exact .removed hnone
      · exact .same (sameDoom_of_eq (hsame.trans hset))
  | removeLayer hnode hl he hack hfolls hremove =>
      rename_i n b s e e' node
      obtain ⟨layer, node', -, -, -, hself, heq⟩ := vsLayerDestroy_layers hremove
      by_cases hab : a = b
      · rw [hab]
        exact .removed hself
      · refine .same (sameDoom_of_eq ?_)
        rw [heq]
        exact (Function.update_of_ne hab _ _).trans (Function.update_of_ne hab _ _)
  | removeNode hremove =>
      rcases howned.layer_of_vsNodeDestroy ha hremove with hnone | hsame
      · exact .removed hnone
      · exact .same (sameDoom_of_eq hsame)
  | move _ hmove =>
      obtain ⟨onode, d₁, pnode, d₂, -, rfl, -, rfl, hlevels⟩ := moveLink_cases hmove
      refine .same (sameDoom_of_eq ?_)
      rw [hlevels.kept]
      rfl
  | _ => exact .same (sameDoom_of_eq rfl)

/-! ## What stays below a layer -/

/-- There is no layer at `c`, or it is being destroyed. -/
def LayerGone (d : VSData) (c : ℕ) : Prop := d.layer c = none ∨ d.Destroying c

/-- Layers that are gone stay so, and a child layer stays one or is gone. -/
structure LayersFollow (d d' : VSData) : Prop where
  next_le : d.next ≤ d'.next
  gone : ∀ c, c < d.next → d.LayerGone c → d'.LayerGone c
  child : ∀ b c, c < d.next → d.IsChildLayer b c → d'.IsChildLayer b c ∨ d'.LayerGone c

theorem LayersFollow.refl (d : VSData) : LayersFollow d d :=
  ⟨Nat.le_refl _, fun _ _ h => h, fun _ _ _ h => Or.inl h⟩

theorem LayersFollow.trans {d'' : VSData} (h : LayersFollow d d') (h' : LayersFollow d' d'') :
    LayersFollow d d'' := by
  refine ⟨Nat.le_trans h.next_le h'.next_le, fun c hc hgone => ?_, fun b c hc hchild => ?_⟩
  · exact h'.gone c (Nat.lt_of_lt_of_le hc h.next_le) (h.gone c hc hgone)
  · have hc' := Nat.lt_of_lt_of_le hc h.next_le
    rcases h.child b c hc hchild with hchild' | hgone
    · exact h'.child b c hc' hchild'
    · exact Or.inr (h'.gone c hc' hgone)

/-- Every layer has its entity, and what is below a layer that is being destroyed is being
destroyed. -/
structure LayersOrdered (d : VSData) : Prop where
  entity : ∀ c, (d.layer c).isSome → (d.entity c).isSome
  destroying : ∀ b c, d.IsChildLayer b c → d.Destroying b → d.Destroying c

theorem LayerForest.layer_of_isChildLayer (h : d.LayerForest) {b c : ℕ}
    (hc : d.IsChildLayer b c) : (d.layer c).isSome := by
  have hparent := h.forest.parent_of_mem (isChildLayer_iff.mp hc)
  obtain ⟨layer, hlayer, -⟩ := Option.bind_eq_some_iff.mp hparent
  simp [hlayer]

theorem Fresh.layer_lt (h : d.Fresh) {c : ℕ} (hc : (d.layer c).isSome) : c < d.next := by
  by_contra hge
  rw [h.layer c (Nat.le_of_not_lt hge)] at hc
  cases hc

/-- Where everything follows and nothing is out of order, all that was below a layer that is
gone is gone. -/
theorem LayersOrdered.gone_below (h : d'.LayersOrdered) (hfollow : LayersFollow d d')
    (hfresh : d.Fresh) (hforest : d.LayerForest) {a c : ℕ} (hbelow : d.LayerBelow a c)
    (ha : d'.LayerGone a) : d'.LayerGone c := by
  induction hbelow with
  | refl => exact ha
  | @tail b c _ hchild ih =>
      have hc := hfresh.layer_lt (hforest.layer_of_isChildLayer hchild)
      rcases hfollow.child b c hc hchild with hchild' | hgone
      · rcases ih with hnone | hb
        · obtain ⟨layer, hlayer, -⟩ := hchild'
          rw [hnone] at hlayer
          cases hlayer
        · exact Or.inr (h.destroying b c hchild' hb)
      · exact hgone

/-! ### Changes that move no layer -/

theorem isSome_layerPlace (d : VSData) (c : ℕ) : (d.layerPlace c).isSome = (d.layer c).isSome := by
  rw [layerPlace, Option.isSome_map]

theorem isChildLayer_congr {b c : ℕ} (h : d'.layerPlace b = d.layerPlace b) :
    d'.IsChildLayer b c ↔ d.IsChildLayer b c := by
  rw [isChildLayer_iff, isChildLayer_iff, layerChildren_eq, layerChildren_eq, h]

/-- A change that neither creates nor removes a single layer removes whole trees, and leaves
the other layers where they are. -/
theorem Effect.layerPlace_after (he : Effect k d d') (hk : k ≠ .createLayer ∧ k ≠ .removeLayer)
    (hforest : d.LayerForest) : ∃ S : ℕ → Prop, (∀ {c p}, d.layerParent c = some p → (S c ↔ S p)) ∧
      (∀ c, S c → d'.layer c = none) ∧ ∀ c, ¬ S c → d'.layerPlace c = d.layerPlace c := by
  have hall : d'.layerPlace = d.layerPlace →
      ∃ S : ℕ → Prop, (∀ {c p}, d.layerParent c = some p → (S c ↔ S p)) ∧
        (∀ c, S c → d'.layer c = none) ∧ ∀ c, ¬ S c → d'.layerPlace c = d.layerPlace c :=
    fun h => ⟨fun _ => False, fun _ => Iff.rfl, fun _ => False.elim, fun c _ => by rw [h]⟩
  have hnode : ∀ {t : VSData} {n : ℕ}, t.LayerForest → t.layerParent = d.layerParent →
      t.layerPlace = d.layerPlace → t.vsNodeDestroy n = some d' →
      ∃ S : ℕ → Prop, (∀ {c p}, d.layerParent c = some p → (S c ↔ S p)) ∧
        (∀ c, S c → d'.layer c = none) ∧ ∀ c, ¬ S c → d'.layerPlace c = d.layerPlace c := by
    intro t n ht hparent hplace hdestroy
    rcases vsNodeDestroy_content hdestroy with rfl | ⟨node, hnode, -, -, hfreed⟩
    · exact hall hplace
    have hlayers : t.layersOf n = some node.layers := by rw [layersOf, hnode, Option.map_some]
    refine ⟨fun c => c ∈ node.layers.map Prod.snd, fun {c p} hp => ?_, fun c hc => ?_, fun c hc => ?_⟩
    · rw [← hparent] at hp
      exact ht.sameNode hlayers hp
    · rw [hfreed.layer c, if_pos hc]
    · rw [← hplace, layerPlace, layerPlace, hfreed.layer c, if_neg hc]
  by_cases hcontent : k ∈ contentChanges
  swap
  · exact hall (he.layerPlace_kept hcontent)
  cases he with
  | newTag hcreate =>
      obtain ⟨tg, id, tag, -, -, -, rfl⟩ := vsTagCreate_eq hcreate
      exact hall rfl
  | newTagGroup hcreate =>
      rcases vsTaggroupCreate_eq hcreate with ⟨-, hnone⟩ | ⟨node, id, tg, -, -, -, -, -, heq⟩
      · cases hnone
      · exact hall (layerPlace_of_layer (by rw [heq]))
  | newLayer => exact absurd rfl hk.1
  | newNode hcreate | newRoot hcreate =>
      obtain ⟨-, -, -, -, hlayer, -⟩ := vsNodeCreateLinked_tables hcreate
      exact hall (layerPlace_of_layer hlayer)
  | dropNode _ _ _ _ hremove => exact hnode hforest.setEntity rfl rfl hremove
  | removeTag _ _ _ _ _ hremove =>
      obtain ⟨tg, tag, -, -, rfl⟩ := vsTagDestroy_cases hremove
      exact hall rfl
  | removeTagGroup _ _ _ _ _ hremove =>
      exact hall (layerPlace_of_layer (vsTaggroupDestroy_layers hremove).2)
  | removeLayer => exact absurd rfl hk.2
  | removeNode hremove => exact hnode hforest rfl rfl hremove
  | _ => simp [contentChanges] at hcontent

/-- **One change** that is neither an acknowledged creation nor the creation or the removal of
a layer. -/
theorem Effect.layersOrdered (he : Effect k d d')
    (hk : k ≠ .ack ∧ k ≠ .createLayer ∧ k ≠ .removeLayer) (hfresh : d.Fresh)
    (howned : d.ContentOwned) (hforest : d.LayerForest) (h : d.LayersOrdered) :
    d'.LayersOrdered ∧ LayersFollow d d' := by
  obtain ⟨S, hclosed, hremoved, hplace⟩ := he.layerPlace_after hk.2 hforest
  have hafter : ∀ c, (d.layer c).isSome → LayerAfter d d' c :=
    fun c hc => he.layer_after hk.1 hfresh howned hc
  -- what is left was there before, and in the same place
  have hleft : ∀ c, (d'.layer c).isSome → ¬ S c ∧ (d.layer c).isSome := by
    intro c hc
    have hS : ¬ S c := by
      intro hS
      rw [hremoved c hS] at hc
      cases hc
    refine ⟨hS, ?_⟩
    rw [← isSome_layerPlace, ← hplace c hS, isSome_layerPlace]
    exact hc
  have hnone : ∀ c, d.layer c = none → d'.layer c = none := by
    intro c hc
    by_contra hsome
    have hbefore := (hleft c (Option.isSome_iff_ne_none.mpr hsome)).2
    rw [hc] at hbefore
    cases hbefore
  have hdestroying : ∀ c, (d'.layer c).isSome → d.Destroying c → d'.Destroying c := by
    intro c hc hd
    rcases hafter c (hleft c hc).2 with hgone | ⟨hd', -⟩ | hsame
    · rw [hgone] at hc
      cases hc
    · exact hd'
    · exact hsame.destroying.mpr hd
  refine ⟨⟨fun c hc => ?_, fun b c hchild hb => ?_⟩, he.sameServer.next_le, fun c _ hgone => ?_,
    fun b c _ hchild => ?_⟩
  · rcases hafter c (hleft c hc).2 with hgone | ⟨⟨e, hentity, -⟩, -⟩ | hsame
    · rw [hgone] at hc
      cases hc
    · simp [hentity]
    · rw [hsame.isSome]
      exact h.entity c (hleft c hc).2
  · obtain ⟨layer, hlayer, hmem⟩ := hchild
    have hbsome : (d'.layer b).isSome := by simp [hlayer]
    obtain ⟨hSb, hbold⟩ := hleft b hbsome
    have hchild' : d.IsChildLayer b c := (isChildLayer_congr (hplace b hSb)).mp ⟨layer, hlayer, hmem⟩
    have hcold := hforest.layer_of_isChildLayer hchild'
    have hSc : ¬ S c := fun hS => hSb
      ((hclosed (hforest.forest.parent_of_mem (isChildLayer_iff.mp hchild'))).mp hS)
    have hcsome : (d'.layer c).isSome := by
      rw [← isSome_layerPlace, hplace c hSc, isSome_layerPlace]
      exact hcold
    apply hdestroying c hcsome
    rcases hafter b hbold with hgone | ⟨-, hchildren⟩ | hsame
    · rw [hgone] at hbsome
      cases hbsome
    · obtain ⟨e, he⟩ := Option.isSome_iff_exists.mp (h.entity c hcold)
      exact ⟨e, he, hchildren c hchild' e he⟩
    · exact h.destroying b c hchild' (hsame.destroying.mp hb)
  · rcases hgone with hc | hd
    · exact Or.inl (hnone c hc)
    · by_cases hc : d'.layer c = none
      · exact Or.inl hc
      · exact Or.inr (hdestroying c (Option.isSome_iff_ne_none.mpr hc) hd)
  · by_cases hSb : S b
    · have hSc := (hclosed (hforest.forest.parent_of_mem (isChildLayer_iff.mp hchild))).mpr hSb
      exact Or.inr (Or.inl (hremoved c hSc))
    · exact Or.inl ((isChildLayer_congr (hplace b hSb)).mpr hchild)

theorem Effects.layersOrdered {S : Set EffectKind} (heffects : Effects S d d')
    (hS : .ack ∉ S ∧ .createLayer ∉ S ∧ .removeLayer ∉ S) (hfresh : d.Fresh)
    (howned : d.ContentOwned) (hforest : d.LayerForest) (h : d.LayersOrdered) :
    d'.LayersOrdered ∧ LayersFollow d d' := by
  suffices hall : d.Fresh ∧ d.ContentOwned ∧ d.LayerForest ∧ d.LayersOrdered →
      (d'.Fresh ∧ d'.ContentOwned ∧ d'.LayerForest ∧ d'.LayersOrdered) ∧ LayersFollow d d' from
    ⟨(hall ⟨hfresh, howned, hforest, h⟩).1.2.2.2, (hall ⟨hfresh, howned, hforest, h⟩).2⟩
  apply heffects.rel (R := fun d d' => d.Fresh ∧ d.ContentOwned ∧ d.LayerForest ∧ d.LayersOrdered →
    (d'.Fresh ∧ d'.ContentOwned ∧ d'.LayerForest ∧ d'.LayersOrdered) ∧ LayersFollow d d')
  · exact fun d h => ⟨h, LayersFollow.refl d⟩
  · intro d d' d'' h h' hd
    obtain ⟨hd', hfollow⟩ := h hd
    obtain ⟨hd'', hfollow'⟩ := h' hd'
    exact ⟨hd'', hfollow.trans hfollow'⟩
  · rintro k d d' hk he ⟨hfresh, howned, hforest, h⟩
    have hkind : k ≠ .ack ∧ k ≠ .createLayer ∧ k ≠ .removeLayer := by
      refine ⟨?_, ?_, ?_⟩ <;> rintro rfl
      · exact hS.1 hk
      · exact hS.2.1 hk
      · exact hS.2.2 hk
    obtain ⟨h', hfollow⟩ := he.layersOrdered hkind hfresh howned hforest h
    exact ⟨⟨he.fresh hfresh, he.contentOwned hfresh howned, he.layerForest hfresh howned hforest, h'⟩,
      hfollow⟩

/-! ### New and removed layers -/

/-- A layer is created below one that is not being destroyed. -/
theorem LayersOrdered.newLayer (h : d.LayersOrdered) (hfresh : d.Fresh)
    {n dataType count type a : ℕ} {parent : Option ℕ}
    (hstays : ∀ p, parent = some p → ¬ d.Destroying p)
    (hcreate : d.vsLayerCreate n parent dataType count type = some (d', a)) :
    d'.LayersOrdered ∧ LayersFollow d d' := by
  obtain ⟨node, key, layer, -, -, -, -, -, hlchildren, -, hself, hothers, heq⟩ :=
    vsLayerCreate_layers hcreate
  have hentity : ∀ c, c ≠ d.next → d'.entity c = d.entity c := by
    intro c hc
    rw [heq]
    exact Function.update_of_ne hc _ _
  have hold : ∀ c, c ≠ d.next → (d'.layer c).isSome = (d.layer c).isSome := by
    intro c hc
    rw [hothers c hc]
    split
    · rw [Option.isSome_map]
    · rfl
  have hdestroying : ∀ c, c ≠ d.next → (d'.Destroying c ↔ d.Destroying c) := by
    intro c hc
    rw [Destroying, Destroying, hentity c hc]
  -- the new layer is the only new child
  have hchild : ∀ b c, d'.IsChildLayer b c →
      b ≠ d.next ∧ (d.IsChildLayer b c ∨ parent = some b ∧ c = d.next) := by
    rintro b c ⟨l, hl, hmem⟩
    have hb : b ≠ d.next := by
      rintro rfl
      obtain rfl := Option.some.inj (hself.symm.trans hl)
      rw [hlchildren] at hmem
      cases hmem
    refine ⟨hb, ?_⟩
    rw [hothers b hb] at hl
    split at hl
    · rename_i hp
      obtain ⟨l₀, hl₀, rfl⟩ := Option.map_eq_some_iff.mp hl
      rcases List.mem_append.mp hmem with hmem | hmem
      · exact Or.inl ⟨l₀, hl₀, hmem⟩
      · exact Or.inr ⟨hp, List.mem_singleton.mp hmem⟩
    · exact Or.inl ⟨l, hl, hmem⟩
  refine ⟨⟨fun c hc => ?_, fun b c hbc hb => ?_⟩, ?_, fun c hc hgone => ?_, fun b c _ hbc => ?_⟩
  · by_cases hcn : c = d.next
    · rw [heq, hcn]
      simp
    · rw [hentity c hcn]
      rw [hold c hcn] at hc
      exact h.entity c hc
  · obtain ⟨hbn, hbc | ⟨hp, rfl⟩⟩ := hchild b c hbc
    · have hb := (hdestroying b hbn).mp hb
      have hc := h.destroying b c hbc hb
      refine (hdestroying c ?_).mpr hc
      rintro rfl
      obtain ⟨e, he, -⟩ := hc
      rw [hfresh.entity d.next (Nat.le_refl _)] at he
      cases he
    · exact absurd ((hdestroying b hbn).mp hb) (hstays b hp)
  · rw [heq]
    exact Nat.le_succ _
  · have hcn : c ≠ d.next := Nat.ne_of_lt hc
    rcases hgone with hnone | hd
    · left
      have hsame := hold c hcn
      rw [hnone] at hsame
      exact Option.not_isSome_iff_eq_none.mp (by simp [hsame])
    · exact Or.inr ((hdestroying c hcn).mpr hd)
  · left
    obtain ⟨l, hl, hmem⟩ := hbc
    have hbn : b ≠ d.next := by
      rintro rfl
      rw [hfresh.layer d.next (Nat.le_refl _)] at hl
      cases hl
    by_cases hp : parent = some b
    · refine ⟨{ l with childLayers := l.childLayers ++ [d.next] }, ?_, by simp [hmem]⟩
      rw [hothers b hbn, if_pos hp, hl, Option.map_some]
    · refine ⟨l, ?_, hmem⟩
      rw [hothers b hbn, if_neg hp, hl]

/-- A layer is removed that is being destroyed, or has no layers below. -/
theorem LayersOrdered.removeLayer (h : d.LayersOrdered) (hforest : d.LayerForest)
    (howned : d.ContentOwned) {n a : ℕ} {node : VSNode} {e : Option VSEntity}
    (hnode : d.node n = some node) (ha : a ∈ node.layers.map Prod.snd)
    (hstays : d.Destroying a ∨ d.layerChildren a = [])
    (hdestroy : (d.setEntity a e).vsLayerDestroy n a = some d') :
    d'.LayersOrdered ∧ LayersFollow d d' := by
  obtain ⟨layer, node', hlayer, -, hothers, hself, heq⟩ := vsLayerDestroy_layers hdestroy
  have hforest' : d'.LayerForest := hforest.setEntity.removeLayer howned.setEntity hnode ha hdestroy
  have hentity : ∀ c, c ≠ a → d'.entity c = d.entity c := by
    intro c hc
    rw [heq]
    exact (Function.update_of_ne hc _ _).trans (Function.update_of_ne hc _ _)
  have hold : ∀ c, c ≠ a → (d'.layer c).isSome = (d.layer c).isSome := by
    intro c hc
    rw [hothers c hc, Option.isSome_map]
    rfl
  have hdestroying : ∀ c, c ≠ a → (d'.Destroying c ↔ d.Destroying c) := by
    intro c hc
    rw [Destroying, Destroying, hentity c hc]
  have hne : ∀ c, (d'.layer c).isSome → c ≠ a := by
    rintro c hc rfl
    rw [hself] at hc
    cases hc
  have hchild : ∀ b c, d'.IsChildLayer b c → d.IsChildLayer b c := by
    rintro b c ⟨l, hl, hmem⟩
    rw [hothers b (hne b (by simp [hl]))] at hl
    obtain ⟨l₀, hl₀, rfl⟩ := Option.map_eq_some_iff.mp hl
    refine ⟨l₀, hl₀, ?_⟩
    simp only [withoutLayer] at hmem
    split at hmem
    · exact List.mem_of_mem_erase hmem
    · exact hmem
  refine ⟨⟨fun c hc => ?_, fun b c hbc hb => ?_⟩, ?_, fun c _ hgone => ?_, fun b c _ hbc => ?_⟩
  · rw [hentity c (hne c hc)]
    rw [hold c (hne c hc)] at hc
    exact h.entity c hc
  · have hc := hne c (hforest'.layer_of_isChildLayer hbc)
    obtain ⟨l, hl, -⟩ := id hbc
    have hb' := (hdestroying b (hne b (by simp [hl]))).mp hb
    exact (hdestroying c hc).mpr (h.destroying b c (hchild b c hbc) hb')
  · rw [heq]
    exact Nat.le_refl _
  · by_cases hca : c = a
    · rw [hca]
      exact Or.inl hself
    · rcases hgone with hnone | hd
      · left
        rw [hothers c hca]
        exact Option.map_eq_none_iff.mpr hnone
      · exact Or.inr ((hdestroying c hca).mpr hd)
  · by_cases hca : c = a
    · rw [hca]
      exact Or.inr (Or.inl hself)
    by_cases hba : b = a
    · -- the children of the layer that is removed
      subst hba
      right
      rcases hstays with hd | hnil
      · exact Or.inr ((hdestroying c hca).mpr (h.destroying b c hbc hd))
      · rw [isChildLayer_iff, hnil] at hbc
        cases hbc
    · left
      obtain ⟨l, hl, hmem⟩ := hbc
      refine ⟨withoutLayer a layer b l, ?_, ?_⟩
      · rw [hothers b hba]
        exact Option.map_eq_some_iff.mpr ⟨l, hl, rfl⟩
      · simp only [withoutLayer]
        split
        · exact (List.mem_erase_of_ne hca).mpr hmem
        · exact hmem

/-- The creation of something that is no layer being destroyed is acknowledged. -/
theorem Acked.layersOrdered {kind : EntityKind} {s a : ℕ} (hack : Acked kind s a d d')
    (hstays : (d.layer a).isSome → ¬ d.Destroying a) (hforest : d.LayerForest)
    (h : d.LayersOrdered) : d'.LayersOrdered ∧ LayersFollow d d' := by
  obtain ⟨e, e', he, hcreate, heq⟩ := hack.eq
  have hlayer : d'.layer = d.layer := by rw [heq]
  have hentity : ∀ c, c ≠ a → d'.entity c = d.entity c := by
    intro c hc
    rw [heq]
    exact Function.update_of_ne hc _ _
  have hself : d'.entity a = some e' := by
    rw [heq]
    exact Function.update_self _ _ _
  have hchild : ∀ b c, d'.IsChildLayer b c ↔ d.IsChildLayer b c := by
    intro b c
    rw [IsChildLayer, IsChildLayer, hlayer]
  -- a layer whose creation is acknowledged is not being destroyed, neither before nor after
  have hdestroying : ∀ c, (d.layer c).isSome → (d'.Destroying c ↔ d.Destroying c) := by
    intro c hc
    by_cases hca : c = a
    · subst hca
      refine iff_of_false ?_ (hstays hc)
      rintro ⟨e₁, he₁, hstate⟩
      refine hstays hc ⟨e, he, ?_⟩
      obtain rfl := Option.some.inj (hself.symm.trans he₁)
      rw [createAck_eq hcreate] at hstate
      split at hstate
      · cases hstate
      · exact hstate
    · rw [Destroying, Destroying, hentity c hca]
  refine ⟨⟨fun c hc => ?_, fun b c hbc hb => ?_⟩, ?_, fun c _ hgone => ?_, fun b c _ hbc => ?_⟩
  · by_cases hca : c = a
    · rw [hca, hself]
      rfl
    · rw [hentity c hca]
      exact h.entity c (by rwa [hlayer] at hc)
  · have hbc := (hchild b c).mp hbc
    have hc := hforest.layer_of_isChildLayer hbc
    obtain ⟨l, hl, -⟩ := id hbc
    exact (hdestroying c hc).mpr (h.destroying b c hbc ((hdestroying b (by simp [hl])).mp hb))
  · rw [heq]
  · rw [LayerGone, hlayer]
    by_cases hc : d.layer c = none
    · exact Or.inl hc
    · exact Or.inr ((hdestroying c (Option.isSome_iff_ne_none.mpr hc)).mpr (hgone.resolve_left hc))
  · exact Or.inl ((hchild b c).mpr hbc)

/-! ## Events -/

/-- The command leaves no layer behind.  A layer is not created below one that is being
destroyed, the creation of a layer that is being destroyed is not acknowledged, and the last
followers of a layer acknowledge only a destroy that was begun, or the layer has no child
layers. -/
def LeavesNoLayer (d : VSData) (s : ℕ) : NodeCmd → Prop
  | .layerCreate nodeId parentLayerId layerId dataType _ type => ∀ n node p,
      d.vsNodeFind nodeId = some n → d.node n = some node →
      (d.vsHandleLayerCreateTests s n node parentLayerId layerId dataType type).pass →
      parentLayerId ≠ reservedEntityId → node.layers.findItem parentLayerId = some p →
      ¬ d.Destroying p
  | .layerCreateAck nodeId layerId => ∀ n node a, d.vsNodeFind nodeId = some n →
      d.node n = some node → node.layers.findItem layerId = some a → ¬ d.Destroying a
  | .layerDestroyAck nodeId layerId => ∀ n node a e, d.vsNodeFind nodeId = some n →
      d.node n = some node → node.layers.findItem layerId = some a → d.entity a = some e →
      (∀ f ∈ e.folls, f.ofSession d.subSession s) → d.Destroying a ∨ d.layerChildren a = []
  | _ => True

def LayersInOrder (d : VSData) : NodeEvent → Prop
  | .command s cmd => (d.session s).connected → d.LeavesNoLayer s cmd
  | _ => True

section Handlers

variable {s nodeId layerId : ℕ} {cmd : NodeCmd} {kind : EntityKind}

/-- Only `Layer_Create_Ack` acknowledges the creation of a layer. -/
theorem ackTarget_layer {a : ℕ} (howned : d.ContentOwned)
    (htarget : d.ackTarget cmd = some (kind, a)) (h : d.vsHandleNodeCmd s cmd = some d')
    (ha : (d.layer a).isSome) : ∃ nodeId layerId n node, cmd = .layerCreateAck nodeId layerId ∧
      d.vsNodeFind nodeId = some n ∧ d.node n = some node ∧
      node.layers.findItem layerId = some a := by
  obtain ⟨hnotg, hnotag⟩ := (howned.apart a).layer ha
  cases cmd with
  | nodeCreateAck nodeId =>
      obtain ⟨n, hn, htarget⟩ := Option.bind_eq_some_iff.mp htarget
      obtain ⟨-, rfl⟩ := Prod.mk.inj (Option.some.inj htarget)
      obtain ⟨node, hnode, -⟩ := withNode_of_find hn h
      exact absurd (Or.inr (Or.inr ha)) ((howned.apart n).node (by simp [hnode]))
  | taggroupCreateAck nodeId taggroupId =>
      simp only [ackTarget, Option.bind_eq_bind, Option.bind_eq_some_iff] at htarget
      obtain ⟨n, hn, node, hnode, g, hg, htarget⟩ := htarget
      obtain ⟨-, rfl⟩ := Prod.mk.inj (Option.some.inj htarget)
      obtain ⟨tg, htg⟩ := howned.exists_tagGroup hnode (HashTable.findItem_mem hg)
      rw [hnotg] at htg
      cases htg
  | tagCreateAck nodeId taggroupId tagId =>
      simp only [ackTarget, Option.bind_eq_bind, Option.bind_eq_some_iff] at htarget
      obtain ⟨n, hn, node, hnode, g, hg, tg, htg, a, ha', htarget⟩ := htarget
      obtain ⟨-, rfl⟩ := Prod.mk.inj (Option.some.inj htarget)
      obtain ⟨tag, htag⟩ := howned.exists_tag htg (HashTable.findItem_mem ha')
      rw [hnotag] at htag
      cases htag
  | layerCreateAck nodeId layerId =>
      simp only [ackTarget, Option.bind_eq_bind, Option.bind_eq_some_iff] at htarget
      obtain ⟨n, hn, node, hnode, a, ha', htarget⟩ := htarget
      obtain ⟨-, rfl⟩ := Prod.mk.inj (Option.some.inj htarget)
      exact ⟨nodeId, layerId, n, node, rfl, hn, hnode, ha'⟩
  | _ => cases htarget

theorem LayersOrdered.vsHandleLayerCreate (h : d.LayersOrdered) (hfresh : d.Fresh)
    (howned : d.ContentOwned) (hforest : d.LayerForest) {parentLayerId dataType count type : ℕ}
    (horder : d.LeavesNoLayer s (.layerCreate nodeId parentLayerId layerId dataType count type))
    (hhandle : d.vsHandleLayerCreate s nodeId parentLayerId layerId dataType count type = some d') :
    d'.LayersOrdered ∧ LayersFollow d d' := by
  obtain ⟨hpasses, hcases⟩ :=
    And.intro (vsHandleLayerCreate_passes hhandle) (vsHandleLayerCreate_cases hhandle)
  rcases hcases with rfl | ⟨n, node, parent, d₁, a, hn, hnode, -, hparent, hcreate, heffects⟩
  · exact ⟨h, LayersFollow.refl d'⟩
  rcases hpasses with rfl | hpass
  · exact ⟨h, LayersFollow.refl d'⟩
  have htests : (d.vsHandleLayerCreateTests s n node parentLayerId layerId dataType type).pass :=
    hpass nodeId n node rfl hn hnode
  have hmem : ∀ p, parent = some p → p ∈ node.layers.map Prod.snd :=
    fun p hp => HashTable.findItem_mem (hparent p hp).2
  obtain ⟨h₁, hfollow⟩ := h.newLayer hfresh (fun p hp =>
    horder n node p hn hnode htests (hparent p hp).1 (hparent p hp).2) hcreate
  obtain ⟨h', hfollow'⟩ := heffects.layersOrdered (by simp) (hfresh.vsLayerCreate hcreate)
    (howned.newLayer hfresh hcreate) (hforest.newLayer hfresh howned hnode hmem hcreate) h₁
  exact ⟨h', hfollow.trans hfollow'⟩

theorem LayersOrdered.vsHandleLayerDestroyAck (h : d.LayersOrdered) (hfresh : d.Fresh)
    (howned : d.ContentOwned) (hforest : d.LayerForest)
    (horder : d.LeavesNoLayer s (.layerDestroyAck nodeId layerId))
    (hhandle : d.vsHandleLayerDestroyAck s nodeId layerId = some d') :
    d'.LayersOrdered ∧ LayersFollow d d' := by
  rcases withNode_cases hhandle with rfl | ⟨n, node, hn, hnode, hhandle⟩
  · exact ⟨h, LayersFollow.refl d'⟩
  rcases withLayer_cases hhandle with rfl | ⟨a, layer, ha, -, hhandle⟩
  · exact ⟨h, LayersFollow.refl d'⟩
  obtain ⟨e, e', he, hack, ⟨hnil, hremove⟩ | ⟨hfolls, rfl⟩⟩ := destroyAck_cases hhandle
  · refine h.removeLayer hforest howned hnode (HashTable.findItem_mem ha) ?_ hremove
    refine horder n node a e hn hnode ha he fun f hf => ?_
    obtain ⟨folls, hfree, rfl⟩ := Option.map_eq_some_iff.mp hack
    rw [freeFollowers_eq hfree] at hnil
    simpa using List.filter_eq_nil_iff.mp hnil f hf
  · exact (Effect.drop he hack hfolls).layersOrdered (by simp) hfresh howned hforest h

end Handlers

/-- **One step in order.** -/
theorem LayersOrdered.step (h : d.LayersOrdered) (hfresh : d.Fresh) (howned : d.ContentOwned)
    (hforest : d.LayerForest) {event : NodeEvent} (horder : d.LayersInOrder event)
    (hstep : d.step event = some d') : d'.LayersOrdered ∧ LayersFollow d d' := by
  have hothers : .ack ∉ event.kinds ∧ .createLayer ∉ event.kinds ∧ .removeLayer ∉ event.kinds →
      d'.LayersOrdered ∧ LayersFollow d d' :=
    fun hkinds => (step_effects hfresh hstep).layersOrdered hkinds hfresh howned hforest h
  cases event with
  | login =>
      apply hothers
      simp [NodeEvent.kinds, builds]
  | disconnect =>
      apply hothers
      simp [NodeEvent.kinds, departs]
  | command s cmd =>
      rcases ite_cases hstep with rfl | ⟨hconnected, hhandle⟩
      · exact ⟨h, LayersFollow.refl d'⟩
      replace horder := horder hconnected
      cases htarget : d.ackTarget cmd with
      | some target =>
          obtain ⟨kind, a⟩ := target
          refine (ackTarget_acked htarget hhandle).layersOrdered (fun ha => ?_) hforest h
          obtain ⟨nodeId, layerId, n, node, rfl, hn, hnode, hfind⟩ :=
            ackTarget_layer howned htarget hhandle ha
          exact horder n node a hn hnode hfind
      | none =>
          rcases not_ack_of_ackTarget htarget hhandle with rfl | hkinds
          · exact ⟨h, LayersFollow.refl d'⟩
          cases cmd with
          | layerCreate => exact h.vsHandleLayerCreate hfresh howned hforest horder hhandle
          | layerDestroyAck => exact h.vsHandleLayerDestroyAck hfresh howned hforest horder hhandle
          | _ => exact hothers ⟨hkinds, by simp [NodeEvent.kinds, NodeCmd.kinds, leaves],
              by simp [NodeEvent.kinds, NodeCmd.kinds, leaves]⟩

/-! ## Runs -/

theorem vsNodesInit_layersOrdered {users : List VSUser} {superUser otherUsers : ℕ}
    {realname : ℕ → List UInt8} (h : vsNodesInit users superUser otherUsers realname = some d) :
    d.LayerForest ∧ d.LayersOrdered := by
  have hinit : d.Fresh ∧ d.ContentOwned ∧ d.LayerForest ∧ d.LayersOrdered := by
    refine vsNodesInit_invariant
      (fun d => d.ContentOwned ∧ d.LayerForest ∧ d.LayersOrdered) ?_ ?_ ?_ h
    · refine ⟨firstNode_contentOwned _ _ _, layerForest_of_layer fun _ => rfl, fun c hc => ?_,
        fun b c hchild => ?_⟩
      · cases hc
      · obtain ⟨l, hl, -⟩ := hchild
        cases hl
    · rintro d avatar ⟨howned, hforest, horder⟩
      exact ⟨howned.same (.of_eq rfl rfl rfl rfl), hforest.same rfl fun _ _ ht => Or.inr ht,
        horder.entity, horder.destroying⟩
    · rintro k d d' hk hfresh he ⟨howned, hforest, horder⟩
      have hkind : k ≠ .ack ∧ k ≠ .createLayer ∧ k ≠ .removeLayer := by
        rcases hk with rfl | rfl | rfl | rfl | rfl <;> simp
      exact ⟨he.contentOwned hfresh howned, he.layerForest hfresh howned hforest,
        (he.layersOrdered hkind hfresh howned hforest horder).1⟩
  exact hinit.2.2

/-- **Trees of layers.**  In every state of a run the layers form forests. -/
theorem run_layerForest {events : List NodeEvent} (hfresh : d.Fresh) (howned : d.ContentOwned)
    (hforest : d.LayerForest) (hrun : run step d events = some d') : d'.LayerForest := by
  have hall : d'.Fresh ∧ d'.ContentOwned ∧ d'.LayerForest := by
    refine run_keeps (fun (d : VSData) event d' (hd : d.Fresh ∧ d.ContentOwned ∧ d.LayerForest)
      hstep => ?_) (⟨hfresh, howned, hforest⟩ : d.Fresh ∧ d.ContentOwned ∧ d.LayerForest) hrun
    obtain ⟨hfresh, howned, hforest⟩ := hd
    have heffects := step_effects hfresh hstep
    exact ⟨step_fresh hfresh hstep, heffects.contentOwned hfresh howned,
      heffects.layerForest hfresh howned hforest⟩
  exact hall.2.2

/-- In a run in order, layers follow from its first state to its last. -/
theorem run_layersFollow {events : List NodeEvent} (hfresh : d.Fresh) (howned : d.ContentOwned)
    (hforest : d.LayerForest) (horder : d.LayersOrdered)
    (hadm : Admissible step LayersInOrder d events) (hrun : run step d events = some d') :
    d'.LayersOrdered ∧ LayersFollow d d' := by
  have hkeeps : ∀ (e : VSData) event e', e.Fresh →
      (e.ContentOwned ∧ e.LayerForest ∧ e.LayersOrdered ∧ LayersFollow d e) →
      e.LayersInOrder event → e.step event = some e' →
      e'.ContentOwned ∧ e'.LayerForest ∧ e'.LayersOrdered ∧ LayersFollow d e' := by
    rintro e event e' hefresh ⟨heowned, heforest, heorder, hfollow⟩ hguard hstep
    have heffects := step_effects hefresh hstep
    obtain ⟨horder', hfollow'⟩ := heorder.step hefresh heowned heforest hguard hstep
    exact ⟨heffects.contentOwned hefresh heowned, heffects.layerForest hefresh heowned heforest,
      horder', hfollow.trans hfollow'⟩
  obtain ⟨-, -, -, horder', hfollow⟩ :=
    run_step_invariant hkeeps hfresh ⟨howned, hforest, horder, LayersFollow.refl d⟩ hadm hrun
  exact ⟨horder', hfollow⟩

/-- **Layers below.**  From the nodes the server starts with, and for any events of any
clients, the layers in memory form trees.  In a run in order, whatever was below a layer in
some state of the run is removed or being destroyed when the layer is removed. -/
theorem layer_trees_consistent {d₀ : VSData} {users : List VSUser} {superUser otherUsers : ℕ}
    {realname : ℕ → List UInt8} {events : List NodeEvent}
    (hinit : vsNodesInit users superUser otherUsers realname = some d₀)
    (hrun : run step d₀ events = some d) :
    d.LayerTrees ∧ (Admissible step LayersInOrder d₀ events → ∀ earlier later d₁,
      events = earlier ++ later → run step d₀ earlier = some d₁ → ∀ a c, d₁.LayerBelow a c →
        d.layer a = none → d.layer c = none ∨ d.Destroying c) := by
  obtain ⟨hfresh, howned⟩ := vsNodesInit_contentOwned hinit
  obtain ⟨hforest, horder⟩ := vsNodesInit_layersOrdered hinit
  refine ⟨(run_layerForest hfresh howned hforest hrun).trees, ?_⟩
  rintro hadm earlier later d₁ rfl hrun₁ a c hbelow hgone
  have hfresh₁ : d₁.Fresh := run_fresh hfresh hrun₁
  have howned₁ : d₁.ContentOwned := run_contentOwned hfresh howned hrun₁
  have hforest₁ : d₁.LayerForest := run_layerForest hfresh howned hforest hrun₁
  obtain ⟨horder₁, -⟩ := run_layersFollow hfresh howned hforest horder hadm.append_left hrun₁
  rw [run_append, hrun₁] at hrun
  obtain ⟨horder', hfollow⟩ := run_layersFollow hfresh₁ howned₁ hforest₁ horder₁
    (hadm.append_right hrun₁) hrun
  exact horder'.gone_below hfollow hfresh₁ hforest₁ hbelow (Or.inl hgone)

/-- A client creates a layer, which is one layer without a parent. -/
def newLayerEvents : List NodeEvent :=
  [.login 0 10 10 1001 false sampleInfo, .command 0 (.nodeSubscribe 65537),
    .command 0 (.nodeCreate 10 1001 65537 0xFFFFFFFF 40), .command 0 (.nodeSubscribe 65539),
    .command 0 (.layerCreate 65539 0xFFFF 0xFFFF 1 1 7)]

theorem layer_trees_consistent_sample :
    ∃ d₀ d, sampleInit = some d₀ ∧ run step d₀ newLayerEvents = some d ∧ (d.layer 36).isSome ∧
      d.LayerTrees ∧ ∀ earlier later d₁, newLayerEvents = earlier ++ later →
        run step d₀ earlier = some d₁ → ∀ a c, d₁.LayerBelow a c → d.layer a = none →
          d.layer c = none ∨ d.Destroying c := by
  have hrun : (sampleInit.bind fun d₀ => (run step d₀ newLayerEvents).map fun d =>
      (d.layer 36).isSome) = some true := by decide +kernel
  obtain ⟨d₀, hinit, hrun⟩ := Option.bind_eq_some_iff.mp hrun
  obtain ⟨d, hd, hlayer⟩ := Option.map_eq_some_iff.mp hrun
  obtain ⟨htrees, hbelow⟩ := layer_trees_consistent hinit hd
  refine ⟨d₀, d, hinit, hd, hlayer, htrees, hbelow ?_⟩
  exact ⟨trivial, fun _ _ => ⟨fun _ => trivial, fun _ _ => ⟨fun _ => trivial, fun _ _ =>
    ⟨fun _ => trivial, fun _ _ => ⟨fun _ _ _ _ _ _ _ hparent => absurd rfl hparent,
      fun _ _ => trivial⟩⟩⟩⟩⟩

/-- The client destroys the layer, creates another one below it, and acknowledges the
destroy: the other layer is left. -/
theorem layer_below_is_left :
    ∃ d₀ d₁ d e, sampleInit = some d₀ ∧
      run step d₀ (newLayerEvents ++ [.command 0 (.layerCreateAck 65539 0),
        .command 0 (.layerDestroy 65539 0), .command 0 (.layerCreate 65539 0 0xFFFF 1 1 8)]) =
          some d₁ ∧
      d₁.step (.command 0 (.layerDestroyAck 65539 0)) = some d ∧ d₁.LayerBelow 36 37 ∧
      d.layer 36 = none ∧ (d.layer 37).isSome ∧ d.entity 37 = some e ∧ e.state = .creating ∧
      ¬ (d.layer 37 = none ∨ d.Destroying 37) := by
  have hrun : (sampleInit.bind fun d₀ => (run step d₀ (newLayerEvents ++
      [.command 0 (.layerCreateAck 65539 0), .command 0 (.layerDestroy 65539 0),
        .command 0 (.layerCreate 65539 0 0xFFFF 1 1 8)])).bind fun d₁ =>
      (d₁.step (.command 0 (.layerDestroyAck 65539 0))).bind fun d => (d.entity 37).bind fun e =>
        (d₁.layer 36).map fun layer => (layer.childLayers, (d.layer 36).isNone,
          (d.layer 37).isSome, e.state)) = some ([37], true, true, .creating) := by
    decide +kernel
  obtain ⟨d₀, hinit, hrun⟩ := Option.bind_eq_some_iff.mp hrun
  obtain ⟨d₁, hd₁, hrun⟩ := Option.bind_eq_some_iff.mp hrun
  obtain ⟨d, hd, hrun⟩ := Option.bind_eq_some_iff.mp hrun
  obtain ⟨e, he, hrun⟩ := Option.bind_eq_some_iff.mp hrun
  obtain ⟨layer, hlayer, hrun⟩ := Option.map_eq_some_iff.mp hrun
  simp only [Prod.mk.injEq] at hrun
  obtain ⟨hchildren, hnone, hsome, hstate⟩ := hrun
  refine ⟨d₀, d₁, d, e, hinit, hd₁, hd, Relation.ReflTransGen.single ⟨layer, hlayer, ?_⟩,
    by simpa using hnone, hsome, he, hstate, ?_⟩
  · simp [hchildren]
  rintro (hgone | ⟨e', he', hdeleting⟩)
  · rw [hgone] at hsome
    cases hsome
  · obtain rfl := Option.some.inj (he.symm.trans he')
    rw [hstate] at hdeleting
    cases hdeleting

end VSData

end Verse
