import Verse.Nodes.Changes

/-!
# The life cycle of entities

A node, a tag group, a tag or a layer is created, is known to all of its followers, is
being destroyed, and is gone, in this order.  Two handlers of acknowledgements break
it.  The handlers of nodes, tag groups and tags take every follower of the session that
acknowledges the creation for one that knows about the entity, also when the entity is
being destroyed: if it has no other follower, it is created again.  The handler of layers
does not look at the followers of other sessions at all.

Everything else follows the order.  `Life` is what holds of every entity as long as
acknowledgements come in order: all followers of an entity that is used are told about
it, so that no session follows it twice.
-/

namespace Verse

open Lib

namespace VSData

variable {d d' : VSData}

/-! ## The properties -/

/-- Entities only go forward in a step, and one that becomes created is known to all of
its followers. -/
def Forward (d d' : VSData) : Prop :=
  ∀ a e e', d.entity a = some e → d'.entity a = some e' → e.state.rank ≤ e'.state.rank ∧
    (e.state = .creating → e'.state = .created → ∀ f ∈ e'.folls, f.state = .created)

/-- The sessions that follow an entity, as far as their records are in memory. -/
def followers (d : VSData) (e : VSEntity) : List ℕ :=
  e.folls.filterMap fun f => d.subSession f.nodeSub

/-- No session follows an entity twice. -/
def FollowsOnce (d : VSData) : Prop := ∀ a e, d.entity a = some e → (d.followers e).Nodup

/-- The life cycle is kept by a step. -/
def KeepsLifeCycle (d : VSData) (event : NodeEvent) : Prop :=
  ∀ d', d.step event = some d' → Forward d d' ∧ d'.FollowsOnce

/-- Entities go forward between two states of a run, and none that is gone comes back. -/
structure Onward (d d' : VSData) : Prop where
  rank : ∀ a e e', d.entity a = some e → d'.entity a = some e' → e.state.rank ≤ e'.state.rank
  gone : ∀ a, a < d.next → d.entity a = none → d'.entity a = none
  next_le : d.next ≤ d'.next

theorem Onward.refl (d : VSData) : Onward d d where
  rank a e e' he he' := by
    obtain rfl := Option.some.inj (he.symm.trans he')
    exact Nat.le_refl _
  gone _ _ h := h
  next_le := Nat.le_refl _

theorem Onward.trans {d'' : VSData} (h : Onward d d') (h' : Onward d' d'') (hfresh : d.Fresh) :
    Onward d d'' where
  rank a e e'' he he'' := by
    cases hmid : d'.entity a with
    | none =>
        have ha := Nat.lt_of_lt_of_le (hfresh.entity_lt he) h.next_le
        rw [h'.gone a ha hmid] at he''
        cases he''
    | some e' => exact Nat.le_trans (h.rank a e e' he hmid) (h'.rank a e' e'' hmid he'')
  gone a ha h₀ := h'.gone a (Nat.lt_of_lt_of_le ha h.next_le) (h.gone a ha h₀)
  next_le := Nat.le_trans h.next_le h'.next_le

/-! ## Acknowledgements -/

/-- The entity whose creation a command acknowledges. -/
def ackTarget (d : VSData) : NodeCmd → Option (EntityKind × ℕ)
  | .nodeCreateAck nodeId => do
      let n ← d.vsNodeFind nodeId
      pure (.node, n)
  | .taggroupCreateAck nodeId taggroupId => do
      let n ← d.vsNodeFind nodeId
      let node ← d.node n
      let g ← node.tagGroups.findItem taggroupId
      pure (.tagGroup, g)
  | .tagCreateAck nodeId taggroupId tagId => do
      let n ← d.vsNodeFind nodeId
      let node ← d.node n
      let g ← node.tagGroups.findItem taggroupId
      let tg ← d.tagGroup g
      let a ← tg.tags.findItem tagId
      pure (.tag, a)
  | .layerCreateAck nodeId layerId => do
      let n ← d.vsNodeFind nodeId
      let node ← d.node n
      let a ← node.layers.findItem layerId
      pure (.layer, a)
  | _ => none

/-- The creation of the entity may be acknowledged by the session: a node, a tag group or
a tag that is being destroyed has a follower of another session that is not waiting for
the command that destroys it, and a layer is not being destroyed, and is known to all
other followers. -/
def AckInOrder (d : VSData) (s : ℕ) (kind : EntityKind) (e : VSEntity) : Prop :=
  if kind = .layer then
    e.state.isDeleted = false ∧ (e.state = .creating → ∀ f ∈ e.folls,
      f.ofSession d.subSession s = false → f.state = .created)
  else
    e.state.isDeleted → ∃ f ∈ e.folls, f.ofSession d.subSession s = false ∧ f.state ≠ .created

/-- Creations are only acknowledged in order. -/
def AcksInOrder (d : VSData) : NodeEvent → Prop
  | .command s cmd => (d.session s).connected → (d.vsHandleNodeCmd s cmd).isSome →
      ∀ kind a e, d.ackTarget cmd = some (kind, a) → d.entity a = some e → d.AckInOrder s kind e
  | _ => True

/-! ## What holds of entities -/

structure Life (d : VSData) : Prop where
  known : ∀ a e, d.entity a = some e → e.state.isCreated → ∀ f ∈ e.folls, f.state.isCreated
  reserved : ∀ a e, d.entity a = some e → e.state = .reserved → e.folls = []
  deleted : ∀ a e, d.entity a = some e → e.state = .deleted → e.folls = [] ∧ ¬ d.IsContent a
  used : ∀ a e, d.entity a = some e → ∀ f ∈ e.folls, f.nodeSub < d.next
  once : d.FollowsOnce
  apart : ∀ a, (d.node a).isSome → ¬ d.IsContent a

/-- The followers that are left when some records are freed. -/
theorem filterMap_sublist_of_none {α β : Type*} {f g : α → Option β} {l : List α}
    (h : ∀ x ∈ l, g x = f x ∨ g x = none) : (l.filterMap g).Sublist (l.filterMap f) := by
  induction l with
  | nil => exact List.Sublist.refl _
  | cons x rest ih =>
      have hrest := ih fun y hy => h y (List.mem_cons_of_mem x hy)
      rw [List.filterMap_cons, List.filterMap_cons]
      rcases h x (by simp) with hx | hx
      · rw [hx]
        cases f x with
        | none => exact hrest
        | some y => exact hrest.cons_cons y
      · rw [hx]
        cases f x with
        | none => exact hrest
        | some y => exact hrest.cons y

theorem mem_followers {e : VSEntity} {s : ℕ} :
    s ∈ d.followers e ↔ ∃ f ∈ e.folls, d.subSession f.nodeSub = some s := List.mem_filterMap

/-- What a change that is not an acknowledgement keeps of one entity. -/
theorem EntityChange.life {a : ℕ} {e e' : VSEntity} (h : EntityChange d a e e')
    (he : d.entity a = some e) (hlife : d.Life) (hfresh : d.Fresh) :
    (e'.state.isCreated → ∀ f ∈ e'.folls, f.state.isCreated) ∧
      (e'.state = .reserved → e'.folls = []) ∧
      (e'.state = .deleted → e'.folls = [] ∧ ¬ d.IsContent a) ∧
      (∀ f ∈ e'.folls, f.nodeSub < d.next) ∧ (d.followers e').Nodup ∧
      e.state.rank ≤ e'.state.rank ∧ (e.state = .creating → e'.state ≠ .created) := by
  have hused := hlife.used a e he
  have honce := hlife.once a e he
  have hknown := hlife.known a e he
  cases h with
  | follow hsub hcreated hnew hmay =>
      rename_i r sub
      refine ⟨fun _ f hf => ?_, fun hstate => ?_, fun hstate => ?_, fun f hf => ?_, ?_,
        Nat.le_refl _, fun hcreating => ?_⟩
      · rcases List.mem_append.mp hf with hf | hf
        · exact hknown hcreated f hf
        · obtain rfl := List.mem_singleton.mp hf
          rfl
      · have hstate : e.state = .reserved := hstate
        rw [hstate] at hcreated
        cases hcreated
      · have hstate : e.state = .deleted := hstate
        rw [hstate] at hcreated
        cases hcreated
      · rcases List.mem_append.mp hf with hf | hf
        · exact hused f hf
        · obtain rfl := List.mem_singleton.mp hf
          by_contra hge
          have hnone := hfresh.sub r (Nat.le_of_not_lt hge)
          rw [hsub] at hnone
          cases hnone
      · -- a follower of the session would know about the entity
        have hnone : sub.session ∉ d.followers e := by
          intro hmem
          obtain ⟨f, hf, hs⟩ := mem_followers.mp hmem
          have hcontra := hnew f hf hs
          rw [hknown hcreated f hf] at hcontra
          cases hcontra
        have hadd : d.followers (e.addFollower r) = d.followers e ++ [sub.session] := by
          simp [followers, VSEntity.addFollower, List.filterMap_append, subSession, hsub]
        rw [hadd]
        refine List.nodup_append.mpr ⟨honce, by simp, fun x hx y hy => ?_⟩
        obtain rfl : y = sub.session := by simpa using hy
        rintro rfl
        exact hnone hx
      · have hstate : (e.addFollower r).state = .creating := hcreating
        rw [hstate]
        decide
  | free hsub =>
      rename_i folls
      refine ⟨fun hcreated f hf => hknown hcreated f (hsub.subset hf), fun hstate => ?_,
        fun hstate => ?_, fun f hf => hused f (hsub.subset hf), ?_, Nat.le_refl _,
        fun hcreating => ?_⟩
      · have hnil := hlife.reserved a e he hstate
        rw [hnil] at hsub
        exact List.sublist_nil.mp hsub
      · obtain ⟨hnil, hcontent⟩ := hlife.deleted a e he hstate
        rw [hnil] at hsub
        exact ⟨List.sublist_nil.mp hsub, hcontent⟩
      · exact honce.sublist (hsub.filterMap _)
      · have hstate : e.state = .creating := hcreating
        rw [hstate]
        decide
  | tell htell =>
      refine ⟨fun hcreated => (by cases hcreated), fun hstate => (by cases hstate),
        fun hstate => (by cases hstate), fun f hf => ?_, ?_, ?_, fun _ => by simp [VSEntity.sendDestroy]⟩
      · obtain ⟨f', hf', rfl⟩ := List.mem_map.mp hf
        split
        · exact hused f' hf'
        · exact hused f' hf'
      · have hsame : d.followers e.sendDestroy = d.followers e := by
          rw [followers, followers, VSEntity.sendDestroy, List.filterMap_map]
          refine List.filterMap_congr fun f _ => ?_
          simp only [Function.comp]
          split <;> rfl
        rw [hsame]
        exact honce
      · -- only a node that has no followers is deleted, and none such is told
        have hne : e.state ≠ .deleted := by
          intro hstate
          obtain ⟨hnil, hcontent⟩ := hlife.deleted a e he hstate
          rcases htell with hcreated | hfolls | hiscontent
          · rw [hstate] at hcreated
            cases hcreated
          · exact hfolls hnil
          · exact hcontent hiscontent
        rw [VSEntity.sendDestroy]
        cases hstate : e.state <;> simp_all [EntityState.rank]
  | mark hreserved hstate =>
      rename_i state
      subst hreserved
      refine ⟨fun _ f hf => (by cases hf), fun _ => rfl, fun hdeleted => ?_,
        fun f hf => (by cases hf), List.nodup_nil, Nat.zero_le _, fun hcreating => (by cases hcreating)⟩
      have hdeleted : state = .deleted := hdeleted
      rw [hdeleted] at hstate
      cases hstate
  | last hnode =>
      refine ⟨fun hcreated => (by cases hcreated), fun hstate => (by cases hstate),
        fun _ => ⟨rfl, hlife.apart a hnode⟩, fun f hf => (by cases hf), List.nodup_nil, ?_,
        fun _ => by decide⟩
      cases e.state <;> simp [EntityState.rank]

/-! ## Changes that are not acknowledgements -/

/-- What other changes than acknowledgements keep in addition: no entity that is being
created becomes created. -/
structure Ahead (d d' : VSData) : Prop extends Onward d d' where
  waits : ∀ a e e', d.entity a = some e → d'.entity a = some e' → e.state = .creating →
    e'.state ≠ .created

theorem Ahead.refl (d : VSData) : Ahead d d where
  toOnward := Onward.refl d
  waits a e e' he he' h := by
    obtain rfl := Option.some.inj (he.symm.trans he')
    rw [h]
    decide

theorem Ahead.trans {d'' : VSData} (h : Ahead d d') (h' : Ahead d' d'') (hfresh : d.Fresh) :
    Ahead d d'' where
  toOnward := h.toOnward.trans h'.toOnward hfresh
  waits a e e'' he he'' hcreating hstate := by
    cases hmid : d'.entity a with
    | none =>
        have ha := Nat.lt_of_lt_of_le (hfresh.entity_lt he) h.next_le
        rw [h'.gone a ha hmid] at he''
        cases he''
    | some e' =>
        have hrank := h.rank a e e' he hmid
        have hrank' := h'.rank a e' e'' hmid he''
        have hne := h.waits a e e' he hmid hcreating
        have hne' := h'.waits a e' e'' hmid he''
        rw [hcreating] at hrank
        rw [hstate] at hrank'
        -- between creating and created there is no other state
        cases hstate' : e'.state <;> simp_all [EntityState.rank]

theorem Effect.life {k : EffectKind} (he : Effect k d d') (hk : k ≠ .ack) (hfresh : d.Fresh)
    (hlife : d.Life) : d'.Life ∧ Ahead d d' := by
  have hnext := he.sameServer.next_le
  have hkinds := he.keepsKinds hfresh
  have hlt : ∀ {a e}, d.entity a = some e → a < d.next := fun he => hfresh.entity_lt he
  -- an entity of the new state is new, or comes from one of the old state
  have hentity : ∀ a e', d'.entity a = some e' → e' = ⟨.reserved, []⟩ ∨ ∃ e, d.entity a = some e ∧
      (e' = e ∨ EntityChange d a e e') := by
    intro a e' he'
    rcases he.entity_after hk a with hsame | hnone | ⟨-, hnew⟩ | ⟨e, e₁, he, he₁, hchange⟩
    · exact Or.inr ⟨e', hsame.symm.trans he', Or.inl rfl⟩
    · rw [hnone] at he'
      cases he'
    · exact Or.inl (Option.some.inj (he'.symm.trans hnew))
    · obtain rfl := Option.some.inj (he'.symm.trans he₁)
      exact Or.inr ⟨e, he, Or.inr hchange⟩
  have hall : ∀ a e', d'.entity a = some e' →
      (e'.state.isCreated → ∀ f ∈ e'.folls, f.state.isCreated) ∧
      (e'.state = .reserved → e'.folls = []) ∧
      (e'.state = .deleted → e'.folls = [] ∧ ¬ d'.IsContent a) ∧
      (∀ f ∈ e'.folls, f.nodeSub < d'.next) ∧ (d'.followers e').Nodup := by
    intro a e' he'
    rcases hentity a e' he' with rfl | ⟨e, hea, hchange⟩
    · exact ⟨fun hcreated => (by cases hcreated), fun _ => rfl, fun hstate => (by cases hstate),
        fun f hf => (by cases hf), List.nodup_nil⟩
    · have hold : (e'.state.isCreated → ∀ f ∈ e'.folls, f.state.isCreated) ∧
          (e'.state = .reserved → e'.folls = []) ∧
          (e'.state = .deleted → e'.folls = [] ∧ ¬ d.IsContent a) ∧
          (∀ f ∈ e'.folls, f.nodeSub < d.next) ∧ (d.followers e').Nodup := by
        rcases hchange with rfl | hchange
        · exact ⟨hlife.known a e' hea, hlife.reserved a e' hea, hlife.deleted a e' hea,
            hlife.used a e' hea, hlife.once a e' hea⟩
        · obtain ⟨h₁, h₂, h₃, h₄, h₅, -⟩ := hchange.life hea hlife hfresh
          exact ⟨h₁, h₂, h₃, h₄, h₅⟩
      obtain ⟨h₁, h₂, h₃, h₄, h₅⟩ := hold
      refine ⟨h₁, h₂, fun hstate => ⟨(h₃ hstate).1, hkinds.content a (hlt hea) (h₃ hstate).2⟩,
        fun f hf => Nat.lt_of_lt_of_le (h₄ f hf) hnext, ?_⟩
      exact h₅.sublist (filterMap_sublist_of_none fun f hf => he.subSession_old (h₄ f hf))
  have hforward : ∀ a e e', d.entity a = some e → d'.entity a = some e' →
      e.state.rank ≤ e'.state.rank ∧ (e.state = .creating → e'.state ≠ .created) := by
    intro a e e' hea he'
    rcases he.entity_after hk a with hsame | hnone | ⟨hge, -⟩ | ⟨e₁, e₂, he₁, he₂, hchange⟩
    · obtain rfl := Option.some.inj (hea.symm.trans (hsame.symm.trans he'))
      exact ⟨Nat.le_refl _, fun h => by rw [h]; decide⟩
    · rw [hnone] at he'
      cases he'
    · exact absurd (hlt hea) (Nat.not_lt.mpr hge)
    · obtain rfl := Option.some.inj (hea.symm.trans he₁)
      obtain rfl := Option.some.inj (he'.symm.trans he₂)
      exact (hchange.life hea hlife hfresh).2.2.2.2.2
  refine ⟨⟨fun a e' he' => (hall a e' he').1, fun a e' he' => (hall a e' he').2.1,
    fun a e' he' => (hall a e' he').2.2.1, fun a e' he' => (hall a e' he').2.2.2.1,
    fun a e' he' => (hall a e' he').2.2.2.2, fun a ha => ?_⟩, ⟨⟨fun a e e' hea he' =>
    (hforward a e e' hea he').1, fun a ha hnone => ?_, hnext⟩, fun a e e' hea he' =>
    (hforward a e e' hea he').2⟩⟩
  · by_cases hold : a < d.next
    · refine hkinds.content a hold (hlife.apart a ?_)
      by_contra hnone
      have hnone : d.node a = none := by simpa using hnone
      rw [hkinds.node a hold hnone] at ha
      cases ha
    · rcases hkinds.apart a (Nat.le_of_not_lt hold) with hnone | hcontent
      · rw [hnone] at ha
        cases ha
      · exact hcontent
  · rcases he.entity_after hk a with hsame | hgone | ⟨hge, -⟩ | ⟨e, e', he, -⟩
    · rw [hsame, hnone]
    · exact hgone
    · exact absurd ha (Nat.not_lt.mpr hge)
    · rw [hnone] at he
      cases he

theorem Effects.life {S : Set EffectKind} (h : Effects S d d') (hS : .ack ∉ S) (hfresh : d.Fresh)
    (hlife : d.Life) : d'.Life ∧ Ahead d d' := by
  induction h with
  | refl => exact ⟨hlife, Ahead.refl d⟩
  | tail hbefore hlast ih =>
      obtain ⟨k, hk, he⟩ := hlast
      have hne : k ≠ .ack := by
        rintro rfl
        exact hS hk
      have hmid : Effects S d _ := hbefore
      obtain ⟨hlife', hahead⟩ := he.life hne (hmid.fresh hfresh) ih.1
      exact ⟨hlife', ih.2.trans hahead hfresh⟩

/-! ## Acknowledged creations -/

section Acks

variable {s a : ℕ} {e e' : VSEntity} {kind : EntityKind}

theorem createAck_eq {session : ℕ → Option ℕ} (h : e.createAck session s kind = some e') :
    e' = { state :=
             if e.folls.all fun f =>
               VSEntity.leavesAllCreated kind (f.ofSession session s) e.state f.state
             then .created else e.state
           folls := e.folls.map fun f => if f.ofSession session s then
             { f with state := VSEntity.ackState kind e.state f.state } else f } := by
  unfold VSEntity.createAck at h
  split at h
  · exact (Option.some.inj h).symm
  · cases h

/-- Followers that are told about an entity that is used know about it or will. -/
theorem ackState_isCreated {entity foll : EntityState} (hentity : entity.isCreated)
    (hfoll : foll.isCreated) : VSEntity.ackState kind entity foll = .created := by
  cases entity <;> cases hentity <;> cases foll <;> cases hfoll <;> cases kind <;> rfl

/-- **Acknowledgements in order.**  What an acknowledged creation makes of an entity. -/
theorem AckInOrder.life (h : d.AckInOrder s kind e) (hlife : d.Life) (he : d.entity a = some e)
    (hack : e.createAck d.subSession s kind = some e') :
    (e'.state.isCreated → ∀ f ∈ e'.folls, f.state.isCreated) ∧
      (e'.state = .reserved → e'.folls = []) ∧ (e'.state = .deleted → e'.folls = [] ∧ e = e') ∧
      e'.folls.map VSEntityFollower.nodeSub = e.folls.map VSEntityFollower.nodeSub ∧
      e.state.rank ≤ e'.state.rank ∧
      (e.state = .creating → e'.state = .created → ∀ f ∈ e'.folls, f.state = .created) := by
  have hnodeSubs : e'.folls.map VSEntityFollower.nodeSub = e.folls.map VSEntityFollower.nodeSub := by
    rw [createAck_eq hack, List.map_map]
    refine List.map_congr_left fun f _ => ?_
    simp only [Function.comp]
    split <;> rfl
  -- the entity is as it was, or becomes created and was not being destroyed
  have hstate : e'.state = e.state ∨ (e'.state = .created ∧ e.state.isDeleted = false) := by
    rw [createAck_eq hack]
    simp only
    split
    · rename_i hall
      by_cases hlayer : kind = .layer
      · rw [AckInOrder, if_pos hlayer] at h
        exact Or.inr ⟨rfl, h.1⟩
      · rw [AckInOrder, if_neg hlayer] at h
        cases hdeleted : e.state.isDeleted with
        | false => exact Or.inr ⟨rfl, rfl⟩
        | true =>
            obtain ⟨f, hf, hown, hne⟩ := h hdeleted
            have hleaves := List.all_eq_true.mp hall f hf
            rw [hown] at hleaves
            cases kind <;> simp_all [VSEntity.leavesAllCreated]
    · exact Or.inl rfl
  have hrank : e.state.rank ≤ e'.state.rank := by
    rcases hstate with hstate | ⟨hstate, hnot⟩
    · rw [hstate]
    · rw [hstate]
      cases hes : e.state <;> simp_all [EntityState.rank, EntityState.isDeleted]
  have hsame : e.folls = [] → e'.folls = [] := by
    intro hnil
    rw [hnil] at hnodeSubs
    simpa using hnodeSubs
  refine ⟨fun hcreated f hf => ?_, fun hreserved => ?_, fun hdeleted => ?_, hnodeSubs, hrank,
    fun hcreating hcreated f hf => ?_⟩
  · -- the entity was used before, or it had no followers
    rw [createAck_eq hack] at hf
    obtain ⟨f₀, hf₀, rfl⟩ := List.mem_map.mp hf
    have hbefore : e.state.isCreated := by
      rcases hstate with hstate | ⟨-, hnot⟩
      · rwa [hstate] at hcreated
      · cases hes : e.state with
        | reserved => simp [hlife.reserved a e he hes] at hf₀
        | creating | created => rfl
        | deleting | deleted => simp [hes, EntityState.isDeleted] at hnot
    have hfoll := hlife.known a e he hbefore f₀ hf₀
    split
    · simp [ackState_isCreated hbefore hfoll, EntityState.isCreated]
    · exact hfoll
  · rcases hstate with hstate | ⟨hstate, -⟩
    · exact hsame (hlife.reserved a e he (hstate.symm.trans hreserved))
    · rw [hstate] at hreserved
      cases hreserved
  · rcases hstate with hstate | ⟨hstate, -⟩
    · have hnil := (hlife.deleted a e he (hstate.symm.trans hdeleted)).1
      refine ⟨hsame hnil, ?_⟩
      have hnil' := hsame hnil
      cases e
      cases e'
      simp_all
    · rw [hstate] at hdeleted
      cases hdeleted
  · rw [createAck_eq hack] at hcreated hf
    obtain ⟨f₀, hf₀, rfl⟩ := List.mem_map.mp hf
    have hfoll := hlife.known a e he (by rw [hcreating]; rfl) f₀ hf₀
    split
    · exact ackState_isCreated (by rw [hcreating]; rfl) hfoll
    · rename_i hown
      have hown : f₀.ofSession d.subSession s = false := by simpa using hown
      by_cases hlayer : kind = .layer
      · rw [AckInOrder, if_pos hlayer] at h
        exact h.2 hcreating f₀ hf₀ hown
      · simp only [hcreating] at hcreated
        split at hcreated
        · rename_i hall
          have hleaves := List.all_eq_true.mp hall f₀ hf₀
          rw [hown] at hleaves
          cases kind <;> simp_all [VSEntity.leavesAllCreated]
        · cases hcreated

/-- An acknowledgement out of order creates an entity that is being destroyed, or one that
not all of its followers know about. -/
theorem not_forward_of_not_ackInOrder (h : ¬ d.AckInOrder s kind e) (hlife : d.Life)
    (he : d.entity a = some e) (hack : e.createAck d.subSession s kind = some e') :
    e'.state.rank < e.state.rank ∨
      (e.state = .creating ∧ e'.state = .created ∧ ∃ f ∈ e'.folls, f.state ≠ .created) := by
  have hcreated : (∀ f ∈ e.folls, VSEntity.leavesAllCreated kind (f.ofSession d.subSession s)
      e.state f.state) → e'.state = .created := by
    intro hall
    rw [createAck_eq hack]
    exact if_pos (List.all_eq_true.mpr hall)
  have hback : e.state.isDeleted → e'.state = .created → e'.state.rank < e.state.rank := by
    intro hdeleted hstate
    rw [hstate]
    cases hes : e.state <;> simp_all [EntityState.rank, EntityState.isDeleted]
  by_cases hlayer : kind = .layer
  · subst hlayer
    rw [AckInOrder, if_pos rfl] at h
    by_cases hdeleted : e.state.isDeleted
    · refine Or.inl (hback hdeleted (hcreated fun f hf => ?_))
      cases hes : e.state with
      | deleting => simp [VSEntity.leavesAllCreated]
      | deleted => simp [(hlife.deleted a e he hes).1] at hf
      | _ => simp [hes, EntityState.isDeleted] at hdeleted
    · simp only [hdeleted, true_and] at h
      push Not at h
      obtain ⟨hcreating, f, hf, hown, hne⟩ := h
      have hbefore : e.state.isCreated := by rw [hcreating]; rfl
      refine Or.inr ⟨hcreating, hcreated fun g hg => ?_, f, ?_, hne⟩
      · have hknown : VSEntity.ackState .layer e.state g.state = .created :=
          ackState_isCreated hbefore (hlife.known a e he hbefore g hg)
        simp [VSEntity.leavesAllCreated, hknown]
      · rw [createAck_eq hack]
        exact List.mem_map.mpr ⟨f, hf, by simp [hown]⟩
  · rw [AckInOrder, if_neg hlayer] at h
    push Not at h
    refine Or.inl (hback h.1 (hcreated fun f hf => ?_))
    have hothers := h.2 f hf
    cases hown : f.ofSession d.subSession s with
    | true => cases kind <;> simp_all [VSEntity.leavesAllCreated]
    | false =>
        have hstate := hothers hown
        cases kind <;> simp_all [VSEntity.leavesAllCreated]

end Acks

/-! ### The handlers of acknowledgements -/

section Targets

variable {s a : ℕ} {cmd : NodeCmd} {kind : EntityKind}

theorem withNode_of_find {nodeId n : ℕ} {f : ℕ → VSNode → Option VSData}
    (hn : d.vsNodeFind nodeId = some n) (h : d.withNode nodeId f = some d') :
    ∃ node, d.node n = some node ∧ f n node = some d' := by
  rw [withNode, hn] at h
  exact Option.bind_eq_some_iff.mp h

theorem withTagGroup_of_find {node : VSNode} {taggroupId g : ℕ}
    {f : ℕ → VSTagGroup → Option VSData} (hg : node.tagGroups.findItem taggroupId = some g)
    (h : d.withTagGroup node taggroupId f = some d') :
    ∃ tg, d.tagGroup g = some tg ∧ f g tg = some d' := by
  rw [withTagGroup, hg] at h
  exact Option.bind_eq_some_iff.mp h

theorem withTag_of_find {tg : VSTagGroup} {tagId : ℕ} {f : ℕ → VSTag → Option VSData}
    (ha : tg.tags.findItem tagId = some a) (h : d.withTag tg tagId f = some d') :
    ∃ tag, d.tag a = some tag ∧ f a tag = some d' := by
  rw [withTag, ha] at h
  exact Option.bind_eq_some_iff.mp h

theorem withLayer_of_find {node : VSNode} {layerId : ℕ} {f : ℕ → VSLayer → Option VSData}
    (ha : node.layers.findItem layerId = some a) (h : d.withLayer node layerId f = some d') :
    ∃ layer, d.layer a = some layer ∧ f a layer = some d' := by
  rw [withLayer, ha] at h
  exact Option.bind_eq_some_iff.mp h

/-- The handlers acknowledge the entity that a command names. -/
theorem ackTarget_acked (htarget : d.ackTarget cmd = some (kind, a))
    (h : d.vsHandleNodeCmd s cmd = some d') : Acked kind s a d d' := by
  cases cmd with
  | nodeCreateAck nodeId =>
      obtain ⟨n, hn, htarget⟩ := Option.bind_eq_some_iff.mp htarget
      obtain ⟨rfl, rfl⟩ := Prod.mk.inj (Option.some.inj htarget)
      obtain ⟨node, -, h⟩ := withNode_of_find hn h
      exact ⟨createAck_effects rfl (by simp) h⟩
  | taggroupCreateAck nodeId taggroupId =>
      simp only [ackTarget, Option.bind_eq_bind, Option.bind_eq_some_iff] at htarget
      obtain ⟨n, hn, node, hnode, g, hg, htarget⟩ := htarget
      obtain ⟨rfl, rfl⟩ := Prod.mk.inj (Option.some.inj htarget)
      obtain ⟨node', hnode', h⟩ := withNode_of_find hn h
      obtain rfl := Option.some.inj (hnode.symm.trans hnode')
      obtain ⟨tg, -, h⟩ := withTagGroup_of_find hg h
      exact ⟨createAck_effects rfl (by simp) h⟩
  | tagCreateAck nodeId taggroupId tagId =>
      simp only [ackTarget, Option.bind_eq_bind, Option.bind_eq_some_iff] at htarget
      obtain ⟨n, hn, node, hnode, g, hg, tg, htg, a, ha, htarget⟩ := htarget
      obtain ⟨rfl, rfl⟩ := Prod.mk.inj (Option.some.inj htarget)
      obtain ⟨node', hnode', h⟩ := withNode_of_find hn h
      obtain rfl := Option.some.inj (hnode.symm.trans hnode')
      obtain ⟨tg', htg', h⟩ := withTagGroup_of_find hg h
      obtain rfl := Option.some.inj (htg.symm.trans htg')
      obtain ⟨tag, -, h⟩ := withTag_of_find ha h
      refine ⟨createAck_effects rfl (fun c hc => ⟨rfl, ?_, fun e he f hf => ?_⟩) h⟩
      · split at hc
        · rw [← Option.some.inj hc]
          rfl
        · cases hc
      exact ⟨node, hnode, Or.inr (Or.inl ⟨g, tg, HashTable.findItem_mem hg, htg,
        Or.inr ⟨a, e, HashTable.findItem_mem ha, he, f, hf, rfl⟩⟩)⟩
  | layerCreateAck nodeId layerId =>
      simp only [ackTarget, Option.bind_eq_bind, Option.bind_eq_some_iff] at htarget
      obtain ⟨n, hn, node, hnode, a, ha, htarget⟩ := htarget
      obtain ⟨rfl, rfl⟩ := Prod.mk.inj (Option.some.inj htarget)
      obtain ⟨node', hnode', h⟩ := withNode_of_find hn h
      obtain rfl := Option.some.inj (hnode.symm.trans hnode')
      obtain ⟨layer, -, h⟩ := withLayer_of_find ha h
      exact ⟨createAck_effects rfl (by simp) h⟩
  | _ => cases htarget

/-- A command that names no entity to acknowledge makes other changes, or none. -/
theorem not_ack_of_ackTarget (htarget : d.ackTarget cmd = none)
    (h : d.vsHandleNodeCmd s cmd = some d') : d' = d ∨ .ack ∉ cmd.kinds s := by
  cases cmd with
  | nodeCreateAck =>
      rcases vsHandleNodeCreateAck_acked h with rfl | ⟨n, hn, -⟩
      · exact Or.inl rfl
      · simp [ackTarget, hn] at htarget
  | taggroupCreateAck =>
      rcases vsHandleTaggroupCreateAck_acked h with rfl | ⟨n, node, g, hn, hnode, hg, -⟩
      · exact Or.inl rfl
      · simp [ackTarget, hn, hnode, hg] at htarget
  | tagCreateAck =>
      rcases vsHandleTagCreateAck_acked h with
        rfl | ⟨n, node, g, tg, a, hn, hnode, hg, htg, ha, -⟩
      · exact Or.inl rfl
      · simp [ackTarget, hn, hnode, hg, htg, ha] at htarget
  | layerCreateAck =>
      rcases vsHandleLayerCreateAck_acked h with rfl | ⟨n, node, a, hn, hnode, ha, -⟩
      · exact Or.inl rfl
      · simp [ackTarget, hn, hnode, ha] at htarget
  | _ => exact Or.inr (by simp [NodeCmd.kinds, leaves])

end Targets

/-! ## Steps -/

theorem Ahead.forward (h : Ahead d d') : Forward d d' := by
  intro a e e' he he'
  exact ⟨h.rank a e e' he he', fun hcreating hstate =>
    absurd hstate (h.waits a e e' he he' hcreating)⟩

theorem Forward.refl (d : VSData) : Forward d d := (Ahead.refl d).forward

/-- What an acknowledged creation changes. -/
theorem Acked.eq {kind : EntityKind} {s a : ℕ} (h : Acked kind s a d d') :
    ∃ e e', d.entity a = some e ∧ e.createAck d.subSession s kind = some e' ∧
      d' = { d with entity := Function.update d.entity a (some e'), pushed := d'.pushed } := by
  obtain ⟨e, e', d₁, he, hack, hpush, rfl⟩ := h.exists_entity
  refine ⟨e, e', he, hack, ?_⟩
  rw [hpush.ackPushes_kept]
  rfl

theorem Acked.life {kind : EntityKind} {s a : ℕ} {e : VSEntity} (h : Acked kind s a d d')
    (he : d.entity a = some e) (horder : d.AckInOrder s kind e) (hlife : d.Life) :
    d'.Life ∧ Forward d d' ∧ Onward d d' := by
  obtain ⟨e₁, e', he₁, hack, heq⟩ := h.eq
  obtain rfl := Option.some.inj (he.symm.trans he₁)
  obtain ⟨hknown, hreserved, hdeleted, hnodeSubs, hrank, hcreated⟩ := horder.life hlife he hack
  have hentity : d'.entity = Function.update d.entity a (some e') := by rw [heq]
  have hfollowers : ∀ f : VSEntity, d'.followers f = d.followers f := by
    intro f
    rw [heq]
    rfl
  have hsame : d.followers e' = d.followers e := by
    have hmap : ∀ f : VSEntity, d.followers f =
        (f.folls.map VSEntityFollower.nodeSub).filterMap d.subSession := by
      intro f
      rw [List.filterMap_map]
      rfl
    rw [hmap, hmap, hnodeSubs]
  have hcontent : ∀ b, ¬ d.IsContent b → ¬ d'.IsContent b := by
    intro b hb
    rw [heq]
    exact hb
  -- an entity of the new state is the one that was acknowledged, or an old one
  have hcases : ∀ b e'', d'.entity b = some e'' → (b = a ∧ e'' = e') ∨ d.entity b = some e'' := by
    intro b e'' hb
    rw [hentity] at hb
    by_cases hba : b = a
    · subst hba
      rw [Function.update_self] at hb
      exact Or.inl ⟨rfl, (Option.some.inj hb).symm⟩
    · rw [Function.update_of_ne hba] at hb
      exact Or.inr hb
  have hnext : d'.next = d.next := by rw [heq]
  have hforward : Forward d d' := by
    intro b e₀ e'' hb hb'
    rcases hcases b e'' hb' with ⟨rfl, rfl⟩ | hb'
    · obtain rfl := Option.some.inj (he.symm.trans hb)
      exact ⟨hrank, hcreated⟩
    · obtain rfl := Option.some.inj (hb.symm.trans hb')
      exact Forward.refl d b e₀ e₀ hb hb
  refine ⟨⟨fun b e'' hb => ?_, fun b e'' hb => ?_, fun b e'' hb => ?_, fun b e'' hb => ?_,
    fun b e'' hb => ?_, fun b hb => ?_⟩, hforward, fun b e₀ e'' hb hb' =>
    (hforward b e₀ e'' hb hb').1, fun b _ hb => ?_, Nat.le_of_eq hnext.symm⟩
  · rcases hcases b e'' hb with ⟨rfl, rfl⟩ | hb
    · exact hknown
    · exact hlife.known b e'' hb
  · rcases hcases b e'' hb with ⟨rfl, rfl⟩ | hb
    · exact hreserved
    · exact hlife.reserved b e'' hb
  · intro hstate
    rcases hcases b e'' hb with ⟨rfl, rfl⟩ | hb
    · obtain ⟨hnil, rfl⟩ := hdeleted hstate
      exact ⟨hnil, hcontent b (hlife.deleted b e he hstate).2⟩
    · obtain ⟨hnil, hnot⟩ := hlife.deleted b e'' hb hstate
      exact ⟨hnil, hcontent b hnot⟩
  · rw [hnext]
    rcases hcases b e'' hb with ⟨rfl, rfl⟩ | hb
    · intro f hf
      have hmem : f.nodeSub ∈ e''.folls.map VSEntityFollower.nodeSub :=
        List.mem_map_of_mem hf
      rw [hnodeSubs] at hmem
      obtain ⟨f₀, hf₀, hsub⟩ := List.mem_map.mp hmem
      rw [← hsub]
      exact hlife.used b e he f₀ hf₀
    · exact hlife.used b e'' hb
  · rw [hfollowers]
    rcases hcases b e'' hb with ⟨rfl, rfl⟩ | hb
    · rw [hsame]
      exact hlife.once b e he
    · exact hlife.once b e'' hb
  · refine hcontent b (hlife.apart b ?_)
    have hnode : d'.node = d.node := by rw [heq]
    rwa [hnode] at hb
  · rw [hentity]
    exact update_none_of_none (fun hnone => absurd (he.symm.trans hnone) (by simp)) b hb

/-- **One step in order.** -/
theorem Life.step (hfresh : d.Fresh) (hlife : d.Life) {event : NodeEvent}
    (horder : d.AcksInOrder event) (hstep : d.step event = some d') :
    d'.Life ∧ Forward d d' ∧ Onward d d' := by
  have hothers : .ack ∉ event.kinds → d'.Life ∧ Forward d d' ∧ Onward d d' := by
    intro hkinds
    obtain ⟨hlife', hahead⟩ := (step_effects hfresh hstep).life hkinds hfresh hlife
    exact ⟨hlife', hahead.forward, hahead.toOnward⟩
  cases event with
  | login =>
      refine hothers ?_
      simp [NodeEvent.kinds, builds]
  | disconnect =>
      refine hothers ?_
      simp [NodeEvent.kinds, departs]
  | command s cmd =>
      rcases ite_cases hstep with rfl | ⟨hconnected, hhandle⟩
      · exact ⟨hlife, Forward.refl _, Onward.refl _⟩
      cases htarget : d.ackTarget cmd with
      | none =>
          rcases not_ack_of_ackTarget htarget hhandle with rfl | hkinds
          · exact ⟨hlife, Forward.refl _, Onward.refl _⟩
          · exact hothers hkinds
      | some target =>
          obtain ⟨kind, a⟩ := target
          have hack := ackTarget_acked htarget hhandle
          obtain ⟨e, -, he, -, -⟩ := hack.eq
          exact hack.life he (horder hconnected (by simp [hhandle]) kind a e htarget he) hlife

/-- A step keeps the life cycle exactly when it does not acknowledge out of order. -/
theorem keepsLifeCycle_iff (hfresh : d.Fresh) (hlife : d.Life) (event : NodeEvent) :
    d.KeepsLifeCycle event ↔ d.AcksInOrder event := by
  refine ⟨fun hkeeps => ?_, fun horder d' hstep => ?_⟩
  · cases event with
    | login | disconnect => trivial
    | command s cmd =>
        intro hconnected hhandle kind a e htarget he
        obtain ⟨d', hhandle⟩ := Option.isSome_iff_exists.mp hhandle
        obtain ⟨e₁, e', he₁, hack, heq⟩ := (ackTarget_acked htarget hhandle).eq
        obtain rfl := Option.some.inj (he.symm.trans he₁)
        have hstep : d.step (.command s cmd) = some d' := (if_pos hconnected).trans hhandle
        have he' : d'.entity a = some e' := by
          rw [heq]
          exact Function.update_self _ _ _
        obtain ⟨hrank, hcreated⟩ := (hkeeps d' hstep).1 a e e' he he'
        by_contra hnot
        rcases not_forward_of_not_ackInOrder hnot hlife he hack with
          hback | ⟨hcreating, hstate, f, hf, hne⟩
        · exact absurd hrank (Nat.not_le.mpr hback)
        · exact hne (hcreated hcreating hstate f hf)
  · obtain ⟨hlife', hforward, -⟩ := hlife.step hfresh horder hstep
    exact ⟨hforward, hlife'.once⟩

/-! ## Runs -/

theorem firstNode_life (users : List VSUser) (superUser otherUsers : ℕ) :
    (firstNode users superUser otherUsers).Life := by
  have hone : ∀ a e, (firstNode users superUser otherUsers).entity a = some e →
      e = ⟨.reserved, []⟩ := by
    intro a e he
    by_cases ha : a = 1
    · subst ha
      simpa [firstNode] using he.symm
    · simp [firstNode, Function.update_of_ne ha] at he
  refine ⟨fun a e he hcreated => ?_, fun a e he _ => by rw [hone a e he], fun a e he hstate => ?_,
    fun a e he f hf => ?_, fun a e he => ?_, fun a _ => not_isContent.mpr ⟨rfl, rfl, rfl⟩⟩
  · rw [hone a e he] at hcreated
    cases hcreated
  · rw [hone a e he] at hstate
    cases hstate
  · rw [hone a e he] at hf
    cases hf
  · rw [hone a e he]
    exact List.nodup_nil

theorem vsNodesInit_life {users : List VSUser} {superUser otherUsers : ℕ}
    {realname : ℕ → List UInt8} (h : vsNodesInit users superUser otherUsers realname = some d) :
    d.Fresh ∧ d.Life := by
  refine vsNodesInit_invariant VSData.Life (firstNode_life _ _ _) ?_ ?_ h
  · rintro d avatar ⟨hknown, hreserved, hdeleted, hused, honce, hapart⟩
    exact ⟨hknown, hreserved, hdeleted, hused, honce, hapart⟩
  · rintro k d d' hk hfresh he hlife
    refine (he.life ?_ hfresh hlife).1
    rcases hk with rfl | rfl | rfl | rfl | rfl <;> simp

/-- What holds between the start of a run in order and its end. -/
theorem run_onward (hfresh : d.Fresh) (hlife : d.Life) {events : List NodeEvent}
    (hadm : Admissible step AcksInOrder d events) (hrun : run step d events = some d') :
    d'.Fresh ∧ d'.Life ∧ Onward d d' := by
  have hkeeps : ∀ (e : VSData) event e', e.Fresh → (e.Life ∧ Onward d e) → e.AcksInOrder event →
      e.step event = some e' → e'.Life ∧ Onward d e' := by
    rintro e event e' hefresh ⟨helife, honward⟩ horder hstep
    obtain ⟨hlife', -, honward'⟩ := helife.step hefresh horder hstep
    exact ⟨hlife', honward.trans honward' hfresh⟩
  exact run_step_invariant hkeeps hfresh ⟨hlife, Onward.refl d⟩ hadm hrun

/-- **The life cycle.**  From the nodes the server starts with, and for any events of any
clients: the steps of a run keep the life cycle exactly when no creation is acknowledged
out of order.  In such a run no session follows an entity twice, and entities only go
forward from any state of the run to any later one. -/
theorem life_cycle_one_way {users : List VSUser} {superUser otherUsers : ℕ}
    {realname : ℕ → List UInt8} (hinit : vsNodesInit users superUser otherUsers realname = some d)
    (events : List NodeEvent) :
    (Admissible step KeepsLifeCycle d events ↔ Admissible step AcksInOrder d events) ∧
      (Admissible step AcksInOrder d events → ∀ earlier later d₁ d₂, events = earlier ++ later →
        run step d earlier = some d₁ → run step d₁ later = some d₂ → d₁.FollowsOnce ∧
          ∀ a e e', d₁.entity a = some e → d₂.entity a = some e' → e.state.rank ≤ e'.state.rank) := by
  obtain ⟨hfresh, hlife⟩ := vsNodesInit_life hinit
  refine ⟨?_, ?_⟩
  · have hiff : ∀ (e : VSData) event, (e.Fresh ∧ e.Life) → (e.KeepsLifeCycle event ↔ e.AcksInOrder event) :=
      fun e event he => keepsLifeCycle_iff he.1 he.2 event
    refine admissible_congr_of_invariant hiff ?_ ⟨hfresh, hlife⟩ events
    intro e event e' he hkeeps hstep
    have horder := (hiff e event he).mp hkeeps
    exact ⟨step_fresh he.1 hstep, (he.2.step he.1 horder hstep).1⟩
  · rintro hadm earlier later d₁ d₂ rfl hrun₁ hrun₂
    obtain ⟨hfresh₁, hlife₁, -⟩ := run_onward hfresh hlife hadm.append_left hrun₁
    obtain ⟨-, -, honward⟩ := run_onward hfresh₁ hlife₁ (hadm.append_right hrun₁) hrun₂
    exact ⟨hlife₁.once, honward.rank⟩

theorem life_cycle_one_way_sample :
    ∃ d, sampleInit = some d ∧ Admissible step KeepsLifeCycle d
      [.login 0 10 10 1001 false sampleInfo, .command 0 (.nodeSubscribe 65537),
        .command 0 (.nodeCreate 10 1001 65537 0xFFFFFFFF 40), .command 0 (.nodeDestroy 65539),
        .command 0 (.nodeDestroyAck 65539)] := by
  obtain ⟨d, hinit⟩ : ∃ d, sampleInit = some d :=
    Option.isSome_iff_exists.mp (by decide +kernel)
  refine ⟨d, hinit, (life_cycle_one_way hinit _).1.mpr ?_⟩
  exact ⟨trivial, fun _ _ => ⟨fun _ _ _ _ _ h => (by cases h), fun _ _ =>
    ⟨fun _ _ _ _ _ h => (by cases h), fun _ _ => ⟨fun _ _ _ _ _ h => (by cases h), fun _ _ =>
      ⟨fun _ _ _ _ _ h => (by cases h), fun _ _ => trivial⟩⟩⟩⟩⟩

/-- A client logs in, creates a node below its avatar, destroys it, and only then
acknowledges that it was created. -/
def destroyingEvents : List NodeEvent :=
  [.login 0 10 10 1001 false sampleInfo, .command 0 (.nodeSubscribe 65537),
    .command 0 (.nodeCreate 10 1001 65537 0xFFFFFFFF 40), .command 0 (.nodeDestroy 65539)]

/-- The late acknowledgement creates the node again. -/
theorem destroyed_node_is_created_again :
    ∃ d d₁ d₂ e e', sampleInit = some d ∧ run step d destroyingEvents = some d₁ ∧
      d₁.step (.command 0 (.nodeCreateAck 65539)) = some d₂ ∧ d₁.entity 33 = some e ∧
      d₂.entity 33 = some e' ∧ e.state = .deleting ∧ e'.state = .created ∧
      ¬ d₁.KeepsLifeCycle (.command 0 (.nodeCreateAck 65539)) := by
  have hrun : (sampleInit.bind fun d => (run step d destroyingEvents).bind fun d₁ =>
      (d₁.step (.command 0 (.nodeCreateAck 65539))).bind fun d₂ =>
        (d₁.entity 33).bind fun e => (d₂.entity 33).map fun e' => (e.state, e'.state)) =
      some (.deleting, .created) := by decide +kernel
  obtain ⟨d, hinit, hrun⟩ := Option.bind_eq_some_iff.mp hrun
  obtain ⟨d₁, hd₁, hrun⟩ := Option.bind_eq_some_iff.mp hrun
  obtain ⟨d₂, hd₂, hrun⟩ := Option.bind_eq_some_iff.mp hrun
  obtain ⟨e, he, hrun⟩ := Option.bind_eq_some_iff.mp hrun
  obtain ⟨e', he', hstates⟩ := Option.map_eq_some_iff.mp hrun
  obtain ⟨hdeleting, hcreated⟩ := Prod.mk.inj hstates
  refine ⟨d, d₁, d₂, e, e', hinit, hd₁, hd₂, he, he', hdeleting, hcreated, fun hkeeps => ?_⟩
  have hrank := ((hkeeps d₂ hd₂).1 33 e e' he he').1
  rw [hdeleting, hcreated] at hrank
  exact absurd hrank (by decide)

end VSData

end Verse
