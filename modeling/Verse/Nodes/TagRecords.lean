import Verse.Nodes.LifeCycle
import Verse.Nodes.Ownership
import Verse.Nodes.TagValues

/-!
# The records of the followers of tags

A session that follows a tag has a record among the followers of the tag, and one among the
subscribers of the tag group, which are the same subscriber of the node.  `vs_handle_tag_set`
sends a new value to the subscribers of the tag group, and the server takes a session to know
the value when its follower record says so (`HoldsTag`).  The two agree as long as

* every follower of a tag is a subscriber of its tag group (`TagRecords.attend`), and
* no session follows a tag twice (`TagRecords.once`), so that the one follower that
  `vs_taggroup_unsubscribe` frees is the only one.

## Strategy

Most of what the server does is `Quiet`: the records stay in order, and no session knows the
value of a tag that it did not know before.  For one change that follows from what is left of
each tag and each tag group (`Fades`).  Quiet are all kinds of changes but a few
(`Effect.quiet_of_kind`), telling a client about anything but a tag, and leaving a tag group:
between the two loops of that the records are not in order.
-/

namespace Verse

open Lib

namespace VSData

variable {d d' d'' : VSData} {s a : ℕ} {k : EffectKind}

/-! ## What a session knows of tags -/

/-- The follower belongs to the session, which acknowledged that the entity was created, or
uses a stream. -/
def Hears (d : VSData) (s : ℕ) (f : VSEntityFollower) : Prop :=
  d.subSession f.nodeSub = some s ∧ (f.state ≠ .creating ∨ (d.session s).stream)

/-- The session follows the tag, and is to know its value. -/
def HoldsTag (d : VSData) (s a : ℕ) (v : List UInt8) : Prop :=
  ∃ tag e f, d.tag a = some tag ∧ tag.initialized ∧ tag.value = some v ∧ d.entity a = some e ∧
    f ∈ e.folls ∧ d.Hears s f

/-- The records of the followers of tags are in order. -/
structure TagRecords (d : VSData) : Prop where
  fresh : d.Fresh
  owned : d.ContentOwned
  used : ∀ a e, (d.tag a).isSome → d.entity a = some e → ∀ f ∈ e.folls, f.nodeSub < d.next
  once : ∀ a e, (d.tag a).isSome → d.entity a = some e → (d.followers e).Nodup
  attend : ∀ g tg a e f, d.tagGroup g = some tg → a ∈ tg.tags.map Prod.snd → d.entity a = some e →
    f ∈ e.folls → (d.sub f.nodeSub).isSome → f.nodeSub ∈ tg.subs

/-- The records of tags stay in order, and the session knows no other values. -/
structure Quiet (s : ℕ) (d d' : VSData) : Prop where
  stream : (d'.session s).stream = (d.session s).stream
  records : d.TagRecords → d'.TagRecords
  holds : d.TagRecords → ∀ a v, d'.HoldsTag s a v → d.HoldsTag s a v

theorem Quiet.refl (s : ℕ) (d : VSData) : Quiet s d d := ⟨rfl, id, fun _ _ _ => id⟩

theorem Quiet.trans (h : Quiet s d d') (h' : Quiet s d' d'') : Quiet s d d'' where
  stream := h'.stream.trans h.stream
  records hd := h'.records (h.records hd)
  holds hd a v hv := h.holds hd a v (h'.holds (h.records hd) a v hv)

/-- A step may be looked at when the records are in order before it. -/
theorem quiet_of_records (hstream : (d'.session s).stream = (d.session s).stream)
    (h : d.TagRecords → Quiet s d d') : Quiet s d d' where
  stream := hstream
  records hd := (h hd).records hd
  holds hd := (h hd).holds hd

/-! ## Followers that are left -/

/-- The followers of an entity that are left, which know no more than before. -/
structure Dims (e e' : VSEntity) : Prop where
  subs : (e'.folls.map VSEntityFollower.nodeSub).Sublist (e.folls.map VSEntityFollower.nodeSub)
  foll : ∀ f' ∈ e'.folls, ∃ f ∈ e.folls, f'.nodeSub = f.nodeSub ∧
    (f'.state ≠ .creating → f.state ≠ .creating)

theorem dims_of_sublist {e e' : VSEntity} (h : e'.folls.Sublist e.folls) : Dims e e' where
  subs := h.map _
  foll f hf := ⟨f, h.subset hf, rfl, id⟩

theorem dims_sendDestroy (e : VSEntity) : Dims e e.sendDestroy where
  subs := by
    rw [VSEntity.sendDestroy, List.map_map]
    refine (List.map_congr_left fun f _ => ?_).symm ▸ List.Sublist.refl _
    simp only [Function.comp]
    split <;> rfl
  foll f' hf' := by
    obtain ⟨f, hf, rfl⟩ := List.mem_map.mp hf'
    refine ⟨f, hf, ?_, fun hne => ?_⟩
    · split <;> rfl
    · split at hne
      · rename_i hcreated
        rw [hcreated]
        decide
      · exact hne

/-- What is left of an entity, unless it has no follower. -/
def FollsFade (d d' : VSData) (a : ℕ) : Prop :=
  ∀ e', d'.entity a = some e' → e'.folls = [] ∨ ∃ e, d.entity a = some e ∧ Dims e e'

theorem follsFade_of_eq (h : d'.entity a = d.entity a) : FollsFade d d' a :=
  fun e' he' => Or.inr ⟨e', by rw [← h, he'], dims_of_sublist (List.Sublist.refl _)⟩

theorem follsFade_of_same_or_none (h : d'.entity a = d.entity a ∨ d'.entity a = none) :
    FollsFade d d' a := by
  rcases h with h | h
  · exact follsFade_of_eq h
  · intro e' he'
    rw [h] at he'
    cases he'

theorem follsFade_update {b : ℕ} {e e' : VSEntity} (he : d.entity b = some e) (hdims : Dims e e')
    (hentity : d'.entity = Function.update d.entity b (some e')) (a : ℕ) : FollsFade d d' a := by
  by_cases hab : a = b
  · subst hab
    intro e₁ he₁
    rw [hentity, Function.update_self] at he₁
    obtain rfl := Option.some.inj he₁
    exact Or.inr ⟨e, he, hdims⟩
  · exact follsFade_of_eq (by rw [hentity, Function.update_of_ne hab])

theorem follsFade_new {b : ℕ} (hentity : d'.entity = Function.update d.entity b (some ⟨.reserved, []⟩))
    (a : ℕ) : FollsFade d d' a := by
  by_cases hab : a = b
  · subst hab
    intro e₁ he₁
    rw [hentity, Function.update_self] at he₁
    rw [← Option.some.inj he₁]
    exact Or.inl rfl
  · exact follsFade_of_eq (by rw [hentity, Function.update_of_ne hab])

/-! ## Quiet changes -/

/-- What a quiet change leaves of tags, their followers and the subscribers of tag groups. -/
structure Fades (s : ℕ) (d d' : VSData) : Prop where
  fresh : d'.Fresh
  owned : d'.ContentOwned
  stream : (d'.session s).stream = (d.session s).stream
  next : d.next ≤ d'.next
  sub : ∀ r, r < d.next → d'.subSession r = d.subSession r ∨ d'.subSession r = none
  tag : ∀ a tag' e', d'.tag a = some tag' → d'.entity a = some e' → e'.folls = [] ∨
    (d.tag a = some tag' ∧ ∃ e, d.entity a = some e ∧ Dims e e')
  attend : ∀ g tg' a e f, d'.tagGroup g = some tg' → a ∈ tg'.tags.map Prod.snd →
    (d.tag a).isSome → d.entity a = some e → f ∈ e.folls → (d'.sub f.nodeSub).isSome →
    ∃ g₀ tg, d.tagGroup g₀ = some tg ∧ a ∈ tg.tags.map Prod.snd ∧
      (f.nodeSub ∈ tg.subs → f.nodeSub ∈ tg'.subs)

theorem isSome_sub_iff {r : ℕ} : (d.sub r).isSome ↔ (d.subSession r).isSome := by
  rw [subSession, Option.isSome_map]

theorem followers_eq_filterMap (d : VSData) (e : VSEntity) :
    d.followers e = (e.folls.map VSEntityFollower.nodeSub).filterMap d.subSession := by
  rw [List.filterMap_map]
  rfl

theorem Fades.records (h : Fades s d d') (hd : d.TagRecords) : d'.TagRecords := by
  have hlive : ∀ {r}, r < d.next → (d'.sub r).isSome → (d.sub r).isSome := by
    intro r hr hsub
    rw [isSome_sub_iff] at hsub ⊢
    rcases h.sub r hr with hsame | hnone
    · rwa [← hsame]
    · rw [hnone] at hsub
      cases hsub
  refine ⟨h.fresh, h.owned, fun a e' htag' he' => ?_, fun a e' htag' he' => ?_,
    fun g tg' a e' f' htg' ha he' hf' hsub => ?_⟩
  · obtain ⟨tag', htag'⟩ := Option.isSome_iff_exists.mp htag'
    intro f' hf'
    rcases h.tag a tag' e' htag' he' with hnil | ⟨htag, e, he, hdims⟩
    · rw [hnil] at hf'
      cases hf'
    · obtain ⟨f, hf, hsub, -⟩ := hdims.foll f' hf'
      rw [hsub]
      exact Nat.lt_of_lt_of_le (hd.used a e (by simp [htag]) he f hf) h.next
  · obtain ⟨tag', htag'⟩ := Option.isSome_iff_exists.mp htag'
    rcases h.tag a tag' e' htag' he' with hnil | ⟨htag, e, he, hdims⟩
    · rw [followers, hnil]
      exact List.nodup_nil
    · have hold : ((e.folls.map VSEntityFollower.nodeSub).filterMap d'.subSession).Sublist
          (d.followers e) := by
        rw [followers_eq_filterMap]
        refine filterMap_sublist_of_none fun r hr => ?_
        obtain ⟨f, hf, rfl⟩ := List.mem_map.mp hr
        exact h.sub _ (hd.used a e (by simp [htag]) he f hf)
      rw [followers_eq_filterMap]
      exact (hd.once a e (by simp [htag]) he).sublist ((hdims.subs.filterMap _).trans hold)
  · obtain ⟨tag', htag'⟩ := h.owned.exists_tag htg' ha
    rcases h.tag a tag' e' htag' he' with hnil | ⟨htag, e, he, hdims⟩
    · rw [hnil] at hf'
      cases hf'
    · obtain ⟨f, hf, heq, -⟩ := hdims.foll f' hf'
      rw [heq] at hsub ⊢
      obtain ⟨g₀, tg, htg, hold, hattend⟩ := h.attend g tg' a e f htg' ha (by simp [htag]) he hf hsub
      have hused := hd.used a e (by simp [htag]) he f hf
      exact hattend (hd.attend g₀ tg a e f htg hold he hf (hlive hused hsub))

theorem Fades.holds (h : Fades s d d') (hd : d.TagRecords) {v : List UInt8}
    (hv : d'.HoldsTag s a v) : d.HoldsTag s a v := by
  obtain ⟨tag', e', f', htag', hinit, hvalue, he', hf', hsession, hstate⟩ := hv
  rcases h.tag a tag' e' htag' he' with hnil | ⟨htag, e, he, hdims⟩
  · rw [hnil] at hf'
    cases hf'
  obtain ⟨f, hf, heq, hknown⟩ := hdims.foll f' hf'
  refine ⟨tag', e, f, htag, hinit, hvalue, he, hf, ?_, ?_⟩
  · rw [heq] at hsession
    rcases h.sub _ (hd.used a e (by simp [htag]) he f hf) with hsame | hnone
    · exact hsame.symm.trans hsession
    · rw [hnone] at hsession
      cases hsession
  · rw [h.stream] at hstate
    exact hstate.imp_left hknown

theorem quiet_of_fades (hstream : (d'.session s).stream = (d.session s).stream)
    (h : d.TagRecords → Fades s d d') : Quiet s d d' where
  stream := hstream
  records hd := (h hd).records hd
  holds hd _ _ hv := (h hd).holds hd hv

/-- A change of any kind is quiet when it fades what belongs to tags. -/
theorem Effect.quiet_of (he : Effect k d d') (hk : k ≠ .session)
    (htag : d.TagRecords → ∀ a tag' e', d'.tag a = some tag' → d'.entity a = some e' →
      e'.folls = [] ∨ d.tag a = some tag')
    (hfolls : d.TagRecords → ∀ a, FollsFade d d' a)
    (hattend : d.TagRecords → ∀ g tg' a e f, d'.tagGroup g = some tg' → a ∈ tg'.tags.map Prod.snd →
      (d.tag a).isSome → d.entity a = some e → f ∈ e.folls → (d'.sub f.nodeSub).isSome →
      ∃ g₀ tg, d.tagGroup g₀ = some tg ∧ a ∈ tg.tags.map Prod.snd ∧
        (f.nodeSub ∈ tg.subs → f.nodeSub ∈ tg'.subs)) : Quiet s d d' := by
  have hstream : (d'.session s).stream = (d.session s).stream := by rw [he.session_kept hk]
  refine quiet_of_fades hstream fun hd => ⟨he.fresh hd.fresh, he.contentOwned hd.fresh hd.owned,
    hstream, he.sameServer.next_le, fun r hr => he.subSession_old hr, fun a tag' e' htag' he' => ?_,
    hattend hd⟩
  rcases htag hd a tag' e' htag' he' with hnil | hold
  · exact Or.inl hnil
  · exact (hfolls hd a e' he').imp_right fun hdims => ⟨hold, hdims⟩

/-! ### Kinds of changes -/

theorem vsNodeDestroy_tags {n : ℕ} (h : d.vsNodeDestroy n = some d') (a : ℕ) :
    (d'.tag a = d.tag a ∨ d'.tag a = none) ∧ (d'.tagGroup a = d.tagGroup a ∨ d'.tagGroup a = none) := by
  rcases vsNodeDestroy_cases h with rfl | ⟨node, e, d₁, d₂, -, -, -, -, hd₁, hfreed, rfl⟩
  · exact ⟨Or.inl rfl, Or.inl rfl⟩
  have hunlink : d₁.tag = d.tag ∧ d₁.tagGroup = d.tagGroup := by
    rcases unlink_cases hd₁ with ⟨-, rfl⟩ | ⟨l, link, pnode, -, -, -, rfl⟩ <;> exact ⟨rfl, rfl⟩
  rw [← hunlink.1, ← hunlink.2]
  exact ⟨hfreed.tag a, hfreed.tagGroup a⟩

/-- A tag that is there after a change was there before, or is new. -/
theorem Effect.tag_after (he : Effect k d d') (hk : k ≠ .value) (a : ℕ) :
    d'.tag a = d.tag a ∨ d'.tag a = none ∨ d'.entity a = some ⟨.reserved, []⟩ := by
  cases he with
  | push hpush _ _ | pushSet hpush _ _ =>
      obtain ⟨sub, -, rfl⟩ := push_eq_some.mp hpush
      exact Or.inl rfl
  | unfollow hfree =>
      obtain ⟨e, -, rfl⟩ := freeFollower_eq_some hfree
      exact Or.inl rfl
  | newTag hcreate =>
      obtain ⟨tg, id, tag, -, -, -, rfl⟩ := vsTagCreate_eq hcreate
      by_cases ha : a = d.next
      · rw [ha]
        exact Or.inr (Or.inr (Function.update_self _ _ _))
      · exact Or.inl (Function.update_of_ne ha _ _)
  | newTagGroup hcreate =>
      rcases vsTaggroupCreate_eq hcreate with ⟨rfl, -⟩ | ⟨node, id, tg, -, -, -, -, -, rfl⟩ <;>
        exact Or.inl rfl
  | newLayer _ _ hcreate =>
      obtain ⟨node, id, layer, layers, -, -, -, -, -, -, -, -, rfl⟩ := vsLayerCreate_eq hcreate
      exact Or.inl rfl
  | newNode hcreate | newRoot hcreate =>
      obtain ⟨-, -, -, htag, -⟩ := vsNodeCreateLinked_tables hcreate
      exact Or.inl (congrFun htag a)
  | tagValue | layerValue => exact absurd rfl hk
  | freeSub _ hfree =>
      obtain ⟨sub, node, -, -, rfl⟩ := freeSub_eq_some hfree
      exact Or.inl rfl
  | dropNode _ _ _ _ hremove =>
      exact (vsNodeDestroy_tags hremove a).1.imp_right Or.inl
  | removeTag _ _ _ _ _ hremove =>
      obtain ⟨tg, tag, -, -, rfl⟩ := vsTagDestroy_cases hremove
      exact (update_none_cases _ _ a).imp_right Or.inl
  | removeTagGroup _ _ _ _ _ hremove =>
      obtain ⟨tg, d₁, node, -, hfreed, -, -, rfl⟩ := vsTaggroupDestroy_cases hremove
      exact (hfreed.tag a).imp_right Or.inl
  | removeLayer _ _ _ _ _ hremove =>
      obtain ⟨layer, d₁, node, -, hsame, -, rfl⟩ := vsLayerDestroy_cases hremove
      rw [hsame.kept]
      exact Or.inl rfl
  | removeNode hremove => exact (vsNodeDestroy_tags hremove a).1.imp_right Or.inl
  | move _ hmove =>
      obtain ⟨onode, d₁, pnode, d₂, -, rfl, -, rfl, hlevels⟩ := moveLink_cases hmove
      rw [hlevels.kept]
      exact Or.inl rfl
  | _ => exact Or.inl rfl

/-- Only new followers know about more entities, and those that acknowledge. -/
theorem Effect.follsFade (he : Effect k d d') (hfollow : k ≠ .follow) (hack : k ≠ .ack) (a : ℕ) :
    FollsFade d d' a := by
  have hdestroyed : ∀ {kind : EntityKind} {b t : ℕ} {e e' : VSEntity} {d₁ : VSData},
      d.entity b = some e → e.destroyAck d.subSession t kind = some e' →
      (d₁.entity a = (d.setEntity b (some e')).entity a ∨ d₁.entity a = none) →
      FollsFade d d₁ a := by
    intro kind b t e e' d₁ he hfree hentity e₁ he₁
    rcases hentity with hsame | hnone
    · exact follsFade_update he (dims_of_sublist (destroyAck_sublist hfree).1) rfl a e₁ (by rw [← hsame, he₁])
    · rw [hnone] at he₁
      cases he₁
  cases he with
  | push hpush _ _ | pushSet hpush _ _ =>
      obtain ⟨sub, -, rfl⟩ := push_eq_some.mp hpush
      exact follsFade_of_eq rfl
  | follow => exact absurd rfl hfollow
  | ack => exact absurd rfl hack
  | unfollow hfree =>
      obtain ⟨e, he, rfl⟩ := freeFollower_eq_some hfree
      exact follsFade_update he (dims_of_sublist List.eraseP_sublist) rfl a
  | tellNode _ he | tellContent _ he | tellLayer _ he =>
      exact follsFade_update he (dims_sendDestroy _) rfl a
  | mark he hstate =>
      rename_i b state
      have hmark : (d.setState b state).entity = Function.update d.entity b (some ⟨state, []⟩) := by
        rw [setState, he]
        rfl
      have hdims : Dims ⟨.reserved, []⟩ ⟨state, []⟩ := dims_of_sublist (List.Sublist.refl _)
      exact follsFade_update he hdims hmark a
  | newTag hcreate =>
      obtain ⟨tg, id, tag, -, -, -, rfl⟩ := vsTagCreate_eq hcreate
      exact follsFade_new rfl a
  | newTagGroup hcreate =>
      rcases vsTaggroupCreate_eq hcreate with ⟨rfl, -⟩ | ⟨node, id, tg, -, -, -, -, -, rfl⟩
      · exact follsFade_of_eq rfl
      · exact follsFade_new rfl a
  | newLayer _ _ hcreate =>
      obtain ⟨node, id, layer, layers, -, -, -, -, -, -, -, -, rfl⟩ := vsLayerCreate_eq hcreate
      exact follsFade_new rfl a
  | newNode hcreate | newRoot hcreate => exact follsFade_new (vsNodeCreateLinked_entity hcreate) a
  | freeSub _ hfree =>
      obtain ⟨sub, node, -, -, rfl⟩ := freeSub_eq_some hfree
      exact follsFade_of_eq rfl
  | drop he hfree _ => exact hdestroyed he hfree (Or.inl rfl)
  | dropNode _ he hfree _ hremove =>
      exact hdestroyed he hfree (vsNodeDestroy_entity hremove a)
  | removeTag _ _ he hfree _ hremove =>
      obtain ⟨tg, tag, -, -, rfl⟩ := vsTagDestroy_cases hremove
      exact hdestroyed he hfree (update_none_cases _ _ a)
  | removeTagGroup _ _ he hfree _ hremove =>
      obtain ⟨tg, d₁, node, -, hfreed, -, -, rfl⟩ := vsTaggroupDestroy_cases hremove
      exact hdestroyed he hfree (hfreed.entity a)
  | removeLayer _ _ he hfree _ hremove =>
      obtain ⟨layer, d₁, node, -, hsame, -, rfl⟩ := vsLayerDestroy_cases hremove
      refine hdestroyed he hfree (same_or_none_trans (Or.inl ?_) (update_none_cases d₁.entity _ a))
      rw [hsame.kept]
  | removeNode hremove => exact follsFade_of_same_or_none (vsNodeDestroy_entity hremove a)
  | move _ hmove =>
      obtain ⟨onode, d₁, pnode, d₂, -, rfl, -, rfl, hlevels⟩ := moveLink_cases hmove
      rw [hlevels.kept]
      exact follsFade_of_eq rfl
  | _ => exact follsFade_of_eq rfl

/-- What a tag group was before: it had all of its tags but a new one, and no subscriber that
it does not have any more. -/
def TagGroupBefore (d : VSData) (g : ℕ) (tg' : VSTagGroup) : Prop :=
  tg'.tags = [] ∨ ∃ tg, d.tagGroup g = some tg ∧ tg.subs ⊆ tg'.subs ∧
    ∀ b ∈ tg'.tags, b ∈ tg.tags ∨ b.2 = d.next

theorem tagGroupBefore_of_same_or_none {g : ℕ} {tg' : VSTagGroup}
    (h : d'.tagGroup g = d.tagGroup g ∨ d'.tagGroup g = none) (htg' : d'.tagGroup g = some tg') :
    TagGroupBefore d g tg' := by
  rcases h with h | h
  · exact Or.inr ⟨tg', by rw [← h, htg'], List.Subset.refl _, fun b hb => Or.inl hb⟩
  · rw [h] at htg'
    cases htg'

theorem tagGroupBefore_update {g c : ℕ} {tg tg' tg₁ : VSTagGroup} (htg' : d'.tagGroup g = some tg')
    (hgroups : d'.tagGroup = Function.update d.tagGroup c (some tg₁)) (htg : d.tagGroup c = some tg)
    (hsubs : tg.subs ⊆ tg₁.subs) (htags : ∀ b ∈ tg₁.tags, b ∈ tg.tags ∨ b.2 = d.next) :
    TagGroupBefore d g tg' := by
  rw [hgroups] at htg'
  by_cases hg : g = c
  · subst hg
    rw [Function.update_self] at htg'
    obtain rfl := Option.some.inj htg'
    exact Or.inr ⟨tg, htg, hsubs, htags⟩
  · rw [Function.update_of_ne hg] at htg'
    exact Or.inr ⟨tg', htg', List.Subset.refl _, fun b hb => Or.inl hb⟩

theorem removeItem_subset (t : HashTable) (key : ℕ) : t.removeItem key ⊆ t := List.eraseP_subset

theorem Effect.tagGroup_before (he : Effect k d d') (hk : ∀ s, k ≠ .leave s) {g : ℕ}
    {tg' : VSTagGroup} (htg' : d'.tagGroup g = some tg') : TagGroupBefore d g tg' := by
  cases he with
  | push hpush _ _ | pushSet hpush _ _ =>
      obtain ⟨sub, -, rfl⟩ := push_eq_some.mp hpush
      exact tagGroupBefore_of_same_or_none (Or.inl rfl) htg'
  | unfollow hfree =>
      obtain ⟨e, -, rfl⟩ := freeFollower_eq_some hfree
      exact tagGroupBefore_of_same_or_none (Or.inl rfl) htg'
  | newTag hcreate =>
      obtain ⟨tg, id, tag, htg, -, -, rfl⟩ := vsTagCreate_eq hcreate
      refine tagGroupBefore_update htg' rfl htg (List.Subset.refl _) fun b hb => ?_
      rcases List.mem_append.mp hb with hb | hb
      · exact Or.inl hb
      · rw [List.mem_singleton.mp hb]
        exact Or.inr rfl
  | newTagGroup hcreate =>
      rcases vsTaggroupCreate_eq hcreate with ⟨rfl, -⟩ | ⟨node, id, tg, -, -, htags, -, -, rfl⟩
      · exact tagGroupBefore_of_same_or_none (Or.inl rfl) htg'
      by_cases hg : g = d.next
      · subst hg
        have hnew : Function.update d.tagGroup d.next (some tg) d.next = some tg' := htg'
        rw [Function.update_self] at hnew
        rw [← Option.some.inj hnew]
        exact Or.inl htags
      · exact tagGroupBefore_of_same_or_none (Or.inl (Function.update_of_ne hg _ _)) htg'
  | newLayer _ _ hcreate =>
      obtain ⟨node, id, layer, layers, -, -, -, -, -, -, -, -, rfl⟩ := vsLayerCreate_eq hcreate
      exact tagGroupBefore_of_same_or_none (Or.inl rfl) htg'
  | newNode hcreate | newRoot hcreate =>
      obtain ⟨-, -, htagGroup, -⟩ := vsNodeCreateLinked_tables hcreate
      exact tagGroupBefore_of_same_or_none (Or.inl (congrFun htagGroup g)) htg'
  | joinTagGroup _ _ htg _ =>
      exact tagGroupBefore_update htg' rfl htg (List.subset_append_left _ _) fun b hb => Or.inl hb
  | leaveTagGroup | leaveLayer => exact absurd rfl (hk _)
  | freeSub _ hfree =>
      obtain ⟨sub, node, -, -, rfl⟩ := freeSub_eq_some hfree
      exact tagGroupBefore_of_same_or_none (Or.inl rfl) htg'
  | dropNode _ _ _ _ hremove =>
      have hless := (vsNodeDestroy_tags hremove g).2
      exact tagGroupBefore_of_same_or_none hless htg'
  | removeTag _ _ _ _ _ hremove =>
      obtain ⟨tg, tag, htg, -, rfl⟩ := vsTagDestroy_cases hremove
      exact tagGroupBefore_update htg' rfl htg (List.Subset.refl _) fun b hb =>
        Or.inl (removeItem_subset _ _ hb)
  | removeTagGroup _ _ _ _ _ hremove =>
      obtain ⟨tg, d₁, node, -, hfreed, -, -, rfl⟩ := vsTaggroupDestroy_cases hremove
      exact tagGroupBefore_of_same_or_none (hfreed.tagGroup g) htg'
  | removeLayer _ _ _ _ _ hremove =>
      obtain ⟨layer, d₁, node, -, hsame, -, rfl⟩ := vsLayerDestroy_cases hremove
      refine tagGroupBefore_of_same_or_none (Or.inl ?_) htg'
      rw [hsame.kept]
      rfl
  | removeNode hremove => exact tagGroupBefore_of_same_or_none (vsNodeDestroy_tags hremove g).2 htg'
  | move _ hmove =>
      obtain ⟨onode, d₁, pnode, d₂, -, rfl, -, rfl, hlevels⟩ := moveLink_cases hmove
      refine tagGroupBefore_of_same_or_none (Or.inl ?_) htg'
      rw [hlevels.kept]
      rfl
  | _ => exact tagGroupBefore_of_same_or_none (Or.inl rfl) htg'

/-- An old tag was in the tag group before, and its followers are no further from it. -/
theorem TagGroupBefore.attend (hd : d.TagRecords) {g : ℕ} {tg' : VSTagGroup}
    (h : TagGroupBefore d g tg') (ha : a ∈ tg'.tags.map Prod.snd) (htag : (d.tag a).isSome) :
    ∃ g₀ tg, d.tagGroup g₀ = some tg ∧ a ∈ tg.tags.map Prod.snd ∧ tg.subs ⊆ tg'.subs := by
  obtain ⟨b, hb, rfl⟩ := List.mem_map.mp ha
  rcases h with hnil | ⟨tg, htg, hsubs, htags⟩
  · rw [hnil] at hb
    cases hb
  · rcases htags b hb with hold | hnew
    · exact ⟨g, tg, htg, List.mem_map_of_mem hold, hsubs⟩
    · rw [hnew, hd.fresh.tag _ (Nat.le_refl _)] at htag
      cases htag

/-- The kinds of changes that may be loud. -/
def loudKinds : Set EffectKind :=
  {k | k = .follow ∨ k = .ack ∨ k = .value ∨ k = .session ∨ ∃ s, k = .leave s}

/-- **Quiet changes.** -/
theorem Effect.quiet_of_kind (he : Effect k d d') (hk : k ∉ loudKinds) : Quiet s d d' := by
  simp only [loudKinds, Set.mem_ofPred_eq, not_or, not_exists] at hk
  obtain ⟨hfollow, hack, hvalue, hsession, hleave⟩ := hk
  apply he.quiet_of hsession
  · intro _ a tag' e' htag' he'
    rcases he.tag_after hvalue a with hsame | hnone | hnew
    · exact Or.inr (by rw [← hsame, htag'])
    · rw [hnone] at htag'
      cases htag'
    · rw [hnew] at he'
      rw [← Option.some.inj he']
      exact Or.inl rfl
  · intro _ a
    exact he.follsFade hfollow hack a
  · intro hd g tg' a e f htg' ha htag _ _ _
    obtain ⟨g₀, tg, htg, hold, hsubs⟩ := (he.tagGroup_before hleave htg').attend hd ha htag
    exact ⟨g₀, tg, htg, hold, fun hmem => hsubs hmem⟩

theorem Effects.quiet_of_kinds {S : Set EffectKind} (h : Effects S d d')
    (hS : ∀ k ∈ S, k ∉ loudKinds) : Quiet s d d' :=
  h.rel (Quiet.refl s) Quiet.trans fun k _ _ hk he => he.quiet_of_kind (hS k hk)

/-! ### Changes of other things -/

/-- A change that leaves tags, tag groups and subscribers alone, and adds no follower of a
tag. -/
theorem quiet_of_same (hfresh : d.Fresh → d'.Fresh) (hcontent : SameContent d d')
    (hsession : d'.session = d.session) (hnext : d'.next = d.next) (hsub : d'.sub = d.sub)
    (htag : d'.tag = d.tag) (htagGroup : d'.tagGroup = d.tagGroup)
    (hfolls : d.TagRecords → ∀ a, (d.tag a).isSome → FollsFade d d' a) : Quiet s d d' := by
  have hstream : (d'.session s).stream = (d.session s).stream := by rw [hsession]
  refine quiet_of_fades hstream fun hd => ⟨hfresh hd.fresh, hd.owned.same hcontent, hstream,
    Nat.le_of_eq hnext.symm, fun r _ => Or.inl ?_, fun a tag' e' htag' he' => ?_,
    fun g tg' a e f htg' ha _ _ _ _ => ⟨g, tg', by rw [← htagGroup, htg'], ha, id⟩⟩
  · rw [subSession, subSession, hsub]
  · rw [htag] at htag'
    exact (hfolls hd a (by simp [htag']) e' he').imp_right fun hdims => ⟨htag', hdims⟩

theorem push_quiet {r n : ℕ} {cmd : OutCmd} (h : d.push r cmd a n = some d') : Quiet s d d' := by
  obtain ⟨sub, -, rfl⟩ := push_eq_some.mp h
  exact quiet_of_same (fun h => ⟨h.entity, h.node, h.link, h.tagGroup, h.tag, h.layer, h.sub⟩)
    (.of_eq rfl rfl rfl rfl) rfl rfl rfl rfl rfl fun _ _ _ => follsFade_of_eq rfl

theorem pushSome_quiet {r n : ℕ} {cmd : Option OutCmd} (h : d.pushSome r cmd a n = some d') :
    Quiet s d d' := by
  cases cmd with
  | none =>
      obtain rfl := Option.some.inj h
      exact Quiet.refl s d
  | some c => exact push_quiet h

/-- Nothing but the entities changes, and not that of a tag. -/
theorem quiet_of_entity (hkept : d' = { d with entity := d'.entity, pushed := d'.pushed })
    (hnone : ∀ a, d.entity a = none → d'.entity a = none)
    (hfolls : d.TagRecords → ∀ a, (d.tag a).isSome → FollsFade d d' a) : Quiet s d d' := by
  refine quiet_of_same (fun h => ?_) ?_ ?_ ?_ ?_ ?_ ?_ hfolls
  · rw [hkept]
    exact ⟨fun m hm => hnone m (h.entity m hm), h.node, h.link, h.tagGroup, h.tag, h.layer, h.sub⟩
  · rw [hkept]
    exact .of_eq rfl rfl rfl rfl
  · rw [hkept]
  · rw [hkept]
  · rw [hkept]
  · rw [hkept]
  · rw [hkept]

/-- The entity at an address where there is no tag. -/
theorem quiet_of_update {e e' : VSEntity} (he : d.entity a = some e)
    (hkept : d' = { d with entity := Function.update d.entity a (some e'), pushed := d'.pushed })
    (htag : d.TagRecords → d.tag a = none) : Quiet s d d' := by
  have hentity : d'.entity = Function.update d.entity a (some e') := by rw [hkept]
  refine quiet_of_entity (by rw [hentity]; exact hkept) (fun b hb => ?_) fun hd b hb => ?_
  · rw [hentity]
    exact update_some_of_none he b hb
  · have hne : b ≠ a := by
      rintro rfl
      rw [htag hd] at hb
      cases hb
    exact follsFade_of_eq (by rw [hentity, Function.update_of_ne hne])

theorem setState_quiet (d : VSData) (a : ℕ) (state : EntityState) : Quiet s d (d.setState a state) := by
  cases he : d.entity a with
  | none =>
      refine quiet_of_entity rfl (fun b hb => ?_) fun _ b _ => ?_
      · exact update_none_of_none (fun _ => by rw [he]; rfl) b hb
      · exact follsFade_of_same_or_none ((update_none_cases d.entity a b).imp
          (fun h => by rw [setState, he]; exact h) fun h => by rw [setState, he]; exact h)
  | some e =>
      have hentity : (d.setState a state).entity =
          Function.update d.entity a (some { e with state }) := by
        rw [setState, he]
        rfl
      have hdims : Dims e { e with state } := dims_of_sublist (List.Sublist.refl _)
      refine quiet_of_entity rfl (fun b hb => ?_) fun _ b _ => follsFade_update he hdims hentity b
      rw [hentity]
      exact update_some_of_none he b hb

theorem modifyNode_quiet {n : ℕ} {f : VSNode → VSNode} (h : d.modifyNode n f = some d')
    (hf : ∀ node, (f node).tagGroups = node.tagGroups ∧ (f node).layers = node.layers) :
    Quiet s d d' := by
  obtain ⟨node, hnode, rfl⟩ := modifyNode_eq_some h
  exact quiet_of_same (fun h => h.setNode (by simp [hnode]))
    (sameContent_setNode hnode (hf node).1 (hf node).2) rfl rfl rfl rfl rfl
    fun _ _ _ => follsFade_of_eq rfl

theorem setLayer_quiet {layer layer' : VSLayer} (hlayer : d.layer a = some layer)
    (hid : layer'.id = layer.id) : Quiet s d (d.setLayer a (some layer')) :=
  quiet_of_same (fun h => h.setLayer (by simp [hlayer])) (sameContent_setLayer hlayer hid)
    rfl rfl rfl rfl rfl fun _ _ _ => follsFade_of_eq rfl

/-- A tag that nobody follows gets a value. -/
theorem setTag_quiet {tag : VSTag} {value : List UInt8} (htag : d.tag a = some tag)
    (hnone : ∀ e, d.entity a = some e → e.folls = []) :
    Quiet s d (d.setTag a (some (setTagValue tag value))) := by
  have hvalue : Effect .value d (d.setTag a (some (setTagValue tag value))) := Effect.tagValue htag value
  apply hvalue.quiet_of (by simp)
  · intro _ b tag' e' htag' he'
    by_cases hba : b = a
    · subst hba
      exact Or.inl (hnone e' he')
    · exact Or.inr ((Function.update_of_ne hba _ _).symm.trans htag')
  · intro _ b
    exact follsFade_of_eq rfl
  · intro _ g tg' b e f htg' hb _ _ _ _
    exact ⟨g, tg', htg', hb, id⟩

/-! ### Telling clients about entities -/

theorem sendCreate_quiet {r n : ℕ} {known : EntityState → Bool} {cmd : Option OutCmd}
    (htag : d.TagRecords → d.tag a = none) (h : d.sendCreate known r a n cmd = some d') :
    Quiet s d d' := by
  rcases sendCreate_cases h with rfl | ⟨sub, e, c, -, he, -, -, -, rfl⟩
  · exact Quiet.refl s _
  · exact quiet_of_update he rfl htag

theorem TagRecords.not_tag_of_node (hd : d.TagRecords) {n : ℕ} {node : VSNode}
    (hnode : d.node n = some node) : d.tag n = none :=
  (not_isContent.mp ((hd.owned.apart n).node (by simp [hnode]))).2.1

theorem TagRecords.not_tag_of_tagGroup (hd : d.TagRecords) {g : ℕ} {tg : VSTagGroup}
    (htg : d.tagGroup g = some tg) : d.tag g = none := by
  by_contra hsome
  have hnone := (hd.owned.apart g).tag (Option.isSome_iff_ne_none.mpr hsome)
  rw [htg] at hnone
  cases hnone

theorem TagRecords.not_tag_of_layer (hd : d.TagRecords) {layer : VSLayer}
    (hlayer : d.layer a = some layer) : d.tag a = none :=
  ((hd.owned.apart a).layer (by simp [hlayer])).2

theorem vsNodeSendCreate_quiet {r n p : ℕ} {avatar : Option ℕ}
    (h : d.vsNodeSendCreate r n avatar p = some d') : Quiet s d d' := by
  obtain ⟨node, hnode, h⟩ := Option.bind_eq_some_iff.mp h
  exact sendCreate_quiet (fun hd => hd.not_tag_of_node hnode) h

theorem vsTaggroupSendCreate_quiet {r n g : ℕ} (h : d.vsTaggroupSendCreate r n g = some d') :
    Quiet s d d' := by
  obtain ⟨node, -, h⟩ := Option.bind_eq_some_iff.mp h
  obtain ⟨tg, htg, h⟩ := Option.bind_eq_some_iff.mp h
  exact sendCreate_quiet (fun hd => hd.not_tag_of_tagGroup htg) h

theorem vsLayerSendCreate_quiet {r n : ℕ} (h : d.vsLayerSendCreate r n a = some d') :
    Quiet s d d' := by
  obtain ⟨node, -, h⟩ := Option.bind_eq_some_iff.mp h
  obtain ⟨layer, hlayer, h⟩ := Option.bind_eq_some_iff.mp h
  exact sendCreate_quiet (fun hd => hd.not_tag_of_layer hlayer) h

theorem vsNodeSendData_quiet {n r : ℕ} (h : d.vsNodeSendData n r = some d') : Quiet s d d' := by
  simp only [vsNodeSendData, Option.bind_eq_bind, Option.bind_eq_some_iff] at h
  obtain ⟨node, -, d₁, hd₁, d₂, hd₂, h⟩ := h
  have hchildren : Quiet s d d₁ := by
    refine foldlM_rel (Quiet.refl s) Quiet.trans (fun t l t' _ _ hbody => ?_) hd₁
    obtain ⟨link, -, hbody⟩ := Option.bind_eq_some_iff.mp hbody
    exact vsNodeSendCreate_quiet hbody
  have htagGroups : Quiet s d₁ d₂ :=
    foldlM_rel (Quiet.refl s) Quiet.trans
      (fun t b t' _ _ hbody => vsTaggroupSendCreate_quiet hbody) hd₂
  have hlayers : Quiet s d₂ d' :=
    foldlM_rel (Quiet.refl s) Quiet.trans (fun t b t' _ _ hbody => vsLayerSendCreate_quiet hbody) h
  exact hchildren.trans (htagGroups.trans hlayers)

/-- An acknowledged creation of anything but a tag. -/
theorem Acked.quiet {kind : EntityKind} {t : ℕ} (h : Acked kind t a d d')
    (htag : d.TagRecords → d.tag a = none) : Quiet s d d' := by
  obtain ⟨e, e', he, -, hkept⟩ := h.eq
  exact quiet_of_update he hkept htag

/-! ### Leaving -/

theorem freeFollower_quiet {t : ℕ} (h : d.freeFollower a t = some d') : Quiet s d d' :=
  (Effect.unfollow h).quiet_of_kind (by simp [loudKinds])

/-- Without the only follower of a session, there is none. -/
theorem not_mem_eraseP_follower {session : ℕ → Option ℕ} {folls : List VSEntityFollower} {t : ℕ}
    (hnodup : (folls.filterMap fun f => session f.nodeSub).Nodup) :
    ∀ f ∈ folls.eraseP (VSEntityFollower.ofSession session t), session f.nodeSub ≠ some t := by
  induction folls with
  | nil =>
      intro f hf
      cases hf
  | cons f₀ rest ih =>
      intro f hf
      by_cases hown : session f₀.nodeSub = some t
      · -- the session is not among the others
        have hrest : f ∈ rest := by
          rwa [List.eraseP_cons_of_pos (by simp [VSEntityFollower.ofSession, hown])] at hf
        rw [List.filterMap_cons, hown] at hnodup
        intro hf'
        exact (List.nodup_cons.mp hnodup).1 (List.mem_filterMap.mpr ⟨f, hrest, hf'⟩)
      · rw [List.eraseP_cons_of_neg (by simp [VSEntityFollower.ofSession, hown])] at hf
        have hnodup' : (rest.filterMap fun f => session f.nodeSub).Nodup := by
          rw [List.filterMap_cons] at hnodup
          cases hsession : session f₀.nodeSub with
          | none =>
              rw [hsession] at hnodup
              exact hnodup
          | some u =>
              rw [hsession] at hnodup
              exact (List.nodup_cons.mp hnodup).2
        rcases List.mem_cons.mp hf with rfl | hf
        · exact hown
        · exact ih hnodup' f hf

/-- No follower of the entity belongs to the session. -/
def NotFollowed (d : VSData) (t a : ℕ) : Prop :=
  ∀ e f, d.entity a = some e → f ∈ e.folls → d.subSession f.nodeSub ≠ some t

theorem freeFollower_notFollowed {t : ℕ} (hd : d.TagRecords) (htag : (d.tag a).isSome)
    (h : d.freeFollower a t = some d') : d'.NotFollowed t a := by
  obtain ⟨e, he, rfl⟩ := freeFollower_eq_some h
  intro e' f he' hf
  have hentity : (d.setEntity a (some { e with
      folls := e.folls.eraseP (VSEntityFollower.ofSession d.subSession t) })).entity a =
        some { e with folls := e.folls.eraseP (VSEntityFollower.ofSession d.subSession t) } :=
    Function.update_self _ _ _
  rw [hentity] at he'
  rw [← Option.some.inj he'] at hf
  exact not_mem_eraseP_follower (hd.once a e htag he) f hf

theorem freeFollower_keeps_notFollowed {t u b : ℕ} (h : d.freeFollower b u = some d')
    (hnot : d.NotFollowed t a) : d'.NotFollowed t a := by
  obtain ⟨e, he, rfl⟩ := freeFollower_eq_some h
  intro e' f he' hf
  by_cases hab : a = b
  · subst hab
    have hentity : (d.setEntity a (some { e with
        folls := e.folls.eraseP (VSEntityFollower.ofSession d.subSession u) })).entity a =
          some { e with folls := e.folls.eraseP (VSEntityFollower.ofSession d.subSession u) } :=
      Function.update_self _ _ _
    rw [hentity] at he'
    rw [← Option.some.inj he'] at hf
    exact hnot e f he (List.eraseP_subset hf)
  · exact hnot e' f ((Function.update_of_ne hab _ _).symm.trans he') hf

/-- The loop over the tags of a tag group leaves none that the session follows. -/
theorem freeTagFollowers {g t : ℕ} {tg : VSTagGroup} (hd : d.TagRecords)
    (htg : d.tagGroup g = some tg)
    (h : tg.tags.foldlM (fun d b => d.freeFollower b.2 t) d = some d') :
    ∀ b ∈ tg.tags, d'.NotFollowed t b.2 := by
  have hloop := foldlM_all
    (R := fun d₁ d₂ : VSData => Quiet t d₁ d₂ ∧ d₂.tag = d₁.tag ∧
      ∀ b, d₁.NotFollowed t b → d₂.NotFollowed t b)
    (P := fun b (d₁ : VSData) => d₁.NotFollowed t b.2)
    (fun d₁ => ⟨Quiet.refl t d₁, rfl, fun _ hb => hb⟩)
    (fun h₁ h₂ => ⟨h₁.1.trans h₂.1, h₂.2.1.trans h₁.2.1, fun b hb => h₂.2.2 b (h₁.2.2 b hb)⟩)
    (fun b d₁ d₂ hlater hb => hlater.2.2 b.2 hb) (fun d₁ b d₂ hb hd₁ hbody => ?_) h
  · exact hloop.2
  · obtain ⟨hquiet, htags, -⟩ := hd₁
    have htag : (d₁.tag b.2).isSome := by
      obtain ⟨tag, htag⟩ := hd.owned.exists_tag htg (List.mem_map_of_mem hb)
      rw [htags, htag]
      rfl
    refine ⟨⟨freeFollower_quiet hbody, ?_, fun c hc => freeFollower_keeps_notFollowed hbody hc⟩,
      freeFollower_notFollowed (hquiet.records hd) htag hbody⟩
    obtain ⟨e, -, rfl⟩ := freeFollower_eq_some hbody
    rfl

/-- A subscriber leaves a tag group when its session follows none of the tags. -/
theorem leaveTagGroup_quiet {g r t : ℕ} {tg : VSTagGroup} (htg : d.tagGroup g = some tg)
    (hr : d.subSession r = some t) (hnot : d.TagRecords → ∀ b ∈ tg.tags, d.NotFollowed t b.2) :
    Quiet s d (d.setTagGroup g (some { tg with subs := tg.subs.erase r })) := by
  have hleave : Effect (.leave t) d (d.setTagGroup g (some { tg with subs := tg.subs.erase r })) :=
    Effect.leaveTagGroup htg hr
  apply hleave.quiet_of (by simp)
  · intro _ b tag' e' htag' _
    exact Or.inr htag'
  · intro _ b
    exact follsFade_of_eq rfl
  · intro hd c tg' b e f htg' hb _ he hf _
    by_cases hc : c = g
    · subst hc
      have hnew : (d.setTagGroup c (some { tg with subs := tg.subs.erase r })).tagGroup c =
          some { tg with subs := tg.subs.erase r } := Function.update_self _ _ _
      obtain rfl := Option.some.inj (hnew.symm.trans htg')
      obtain ⟨b', hb', rfl⟩ := List.mem_map.mp hb
      refine ⟨c, tg, htg, hb, fun hmem => (List.mem_erase_of_ne ?_).mpr hmem⟩
      rintro rfl
      exact hnot hd b' hb' e f he hf hr
    · exact ⟨c, tg', (Function.update_of_ne hc _ _).symm.trans htg', hb, id⟩

theorem vsTaggroupUnsubscribe_quiet {g t : ℕ} (h : d.vsTaggroupUnsubscribe g t = some d') :
    Quiet s d d' := by
  simp only [vsTaggroupUnsubscribe, Option.bind_eq_bind, Option.bind_eq_some_iff] at h
  obtain ⟨tg, htg, found, hfound, h⟩ := h
  cases found with
  | none =>
      obtain rfl := Option.some.inj h
      exact Quiet.refl s _
  | some r =>
      obtain ⟨d₁, hd₁, h⟩ := Option.bind_eq_some_iff.mp h
      obtain rfl := Option.some.inj h
      have hkept := (foldlM_freeFollower_kept hd₁).2
      have htg₁ : d₁.tagGroup g = some tg := by
        rw [hkept]
        exact htg
      have hr₁ : d₁.subSession r = some t := by
        rw [hkept]
        exact (findSub_some hfound).2
      have hfree : Quiet s d d₁ :=
        foldlM_rel (Quiet.refl s) Quiet.trans (fun _ _ _ _ _ hbody => freeFollower_quiet hbody) hd₁
      have hleave : d.TagRecords → Quiet s d₁ (d₁.setTagGroup g (some { tg with subs := tg.subs.erase r })) :=
        fun hd => leaveTagGroup_quiet htg₁ hr₁ fun _ => freeTagFollowers hd htg hd₁
      exact quiet_of_records hfree.stream fun hd => hfree.trans (hleave hd)

theorem freeFollower_setTagGroup (d : VSData) (g b t : ℕ) (tg : Option VSTagGroup) :
    (d.setTagGroup g tg).freeFollower b t = (d.freeFollower b t).map fun d => d.setTagGroup g tg := by
  cases he : d.entity b with
  | none => simp [VSData.freeFollower, setTagGroup, he]
  | some e =>
      have hsub : (d.setTagGroup g tg).subSession = d.subSession := rfl
      have he' : (d.setTagGroup g tg).entity b = some e := he
      cases hfree : Verse.freeFollower d.subSession t e.folls with
      | none => simp [VSData.freeFollower, he, he', hsub, hfree]
      | some folls =>
          simp only [VSData.freeFollower, he, he', hsub, hfree, Option.bind_eq_bind,
            Option.bind_some, Option.pure_def, Option.map_some]
          rfl

theorem vsTagFreeAvatarReference_setTagGroup (tags : HashTable) (d : VSData) (g t : ℕ)
    (tg : Option VSTagGroup) :
    (d.setTagGroup g tg).vsTagFreeAvatarReference tags t =
      (d.vsTagFreeAvatarReference tags t).map fun d => d.setTagGroup g tg := by
  induction tags generalizing d with
  | nil => rfl
  | cons b rest ih =>
      simp only [vsTagFreeAvatarReference, List.foldlM_cons, Option.bind_eq_bind,
        freeFollower_setTagGroup] at ih ⊢
      cases d.freeFollower b.2 t with
      | none => rfl
      | some d₁ => exact ih d₁

/-- A session that ends leaves a tag group in the other order. -/
theorem vsTgFreeAvatarReference_eq (d : VSData) (g t : ℕ) :
    d.vsTgFreeAvatarReference g t = (d.freeFollower g t).bind fun d => d.vsTaggroupUnsubscribe g t := by
  simp only [vsTgFreeAvatarReference, vsTaggroupUnsubscribe, Option.bind_eq_bind]
  refine Option.bind_congr fun d₁ _ => Option.bind_congr fun tg _ => Option.bind_congr fun found _ => ?_
  cases found with
  | none => rfl
  | some r =>
      exact (vsTagFreeAvatarReference_setTagGroup tg.tags d₁ g t _).trans Option.map_eq_bind

theorem vsTgFreeAvatarReference_quiet {g t : ℕ} (h : d.vsTgFreeAvatarReference g t = some d') :
    Quiet s d d' := by
  rw [vsTgFreeAvatarReference_eq] at h
  obtain ⟨d₁, hd₁, h⟩ := Option.bind_eq_some_iff.mp h
  exact (freeFollower_quiet hd₁).trans (vsTaggroupUnsubscribe_quiet h)

theorem vsLayerUnsubscribe_quiet {t : ℕ} (h : d.vsLayerUnsubscribe a t = some d') : Quiet s d d' := by
  simp only [vsLayerUnsubscribe, Option.bind_eq_bind, Option.bind_eq_some_iff] at h
  obtain ⟨layer, hlayer, found, -, h⟩ := h
  cases found with
  | none =>
      obtain rfl := Option.some.inj h
      exact Quiet.refl s _
  | some r =>
      obtain rfl := Option.some.inj h
      exact setLayer_quiet hlayer rfl

theorem freeSub_quiet {n r : ℕ} (h : d.freeSub n r = some d') : Quiet s d d' := by
  obtain ⟨sub, node, hsub, -, -⟩ := freeSub_eq_some h
  exact (Effect.freeSub (subSession_of_sub hsub) h).quiet_of_kind (by simp [loudKinds])

end VSData

end Verse
