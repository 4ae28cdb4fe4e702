import Mathlib.Data.Set.Insert
import Verse.Nodes.SysEffects

/-!
# Runs of the server

The states the server reaches from the nodes it starts with.  Along its runs nothing
is stored at addresses that are not used yet, so that what an event changes is always
given by `step_effects`.  A property of the states the server reaches is proved for
the nodes it starts with, which nobody is subscribed to, and for the changes an event
makes (`run_invariant_of_effects`).
-/

namespace Verse

open Lib

namespace VSData

variable {d d' : VSData}

/-! ## Addresses that are not used -/

theorem update_fresh {α : Type*} {f : ℕ → Option α} {a b c : ℕ} {v : Option α}
    (hf : ∀ m, b ≤ m → f m = none) (hbc : b ≤ c) (ha : a < c ∨ (f a = none → v = none)) :
    ∀ m, c ≤ m → Function.update f a v m = none := by
  intro m hm
  by_cases hma : m = a
  · subst hma
    rw [Function.update_self]
    rcases ha with hlt | hnone
    · exact absurd hm (Nat.not_le_of_lt hlt)
    · exact hnone (hf m (Nat.le_trans hbc hm))
  · rw [Function.update_of_ne hma]
    exact hf m (Nat.le_trans hbc hm)

section Fresh

variable {a : ℕ}

theorem Fresh.setEntity (h : d.Fresh) {e : Option VSEntity} (he : d.entity a = none → e = none) :
    (d.setEntity a e).Fresh :=
  ⟨update_fresh h.entity (Nat.le_refl _) (Or.inr he), h.node, h.link, h.tagGroup, h.tag, h.layer,
    h.sub⟩

theorem Fresh.replaceEntity (h : d.Fresh) {e : VSEntity} (he : d.entity a = some e)
    (e' : VSEntity) : (d.setEntity a (some e')).Fresh := h.setEntity (by simp [he])

theorem Fresh.setNode (h : d.Fresh) {node : Option VSNode} (hnode : d.node a = none → node = none) :
    (d.setNode a node).Fresh :=
  ⟨h.entity, update_fresh h.node (Nat.le_refl _) (Or.inr hnode), h.link, h.tagGroup, h.tag,
    h.layer, h.sub⟩

theorem Fresh.setLink (h : d.Fresh) {link : Option VSLink} (hlink : d.link a = none → link = none) :
    (d.setLink a link).Fresh :=
  ⟨h.entity, h.node, update_fresh h.link (Nat.le_refl _) (Or.inr hlink), h.tagGroup, h.tag,
    h.layer, h.sub⟩

theorem Fresh.setTagGroup (h : d.Fresh) {tg : Option VSTagGroup}
    (htg : d.tagGroup a = none → tg = none) : (d.setTagGroup a tg).Fresh :=
  ⟨h.entity, h.node, h.link, update_fresh h.tagGroup (Nat.le_refl _) (Or.inr htg), h.tag,
    h.layer, h.sub⟩

theorem Fresh.setTag (h : d.Fresh) {tag : Option VSTag} (htag : d.tag a = none → tag = none) :
    (d.setTag a tag).Fresh :=
  ⟨h.entity, h.node, h.link, h.tagGroup, update_fresh h.tag (Nat.le_refl _) (Or.inr htag),
    h.layer, h.sub⟩

theorem Fresh.setLayer (h : d.Fresh) {layer : Option VSLayer}
    (hlayer : d.layer a = none → layer = none) : (d.setLayer a layer).Fresh :=
  ⟨h.entity, h.node, h.link, h.tagGroup, h.tag,
    update_fresh h.layer (Nat.le_refl _) (Or.inr hlayer), h.sub⟩

theorem Fresh.setSub (h : d.Fresh) {sub : Option VSNodeSubscriber}
    (hsub : d.sub a = none → sub = none) : (d.setSub a sub).Fresh :=
  ⟨h.entity, h.node, h.link, h.tagGroup, h.tag, h.layer,
    update_fresh h.sub (Nat.le_refl _) (Or.inr hsub)⟩

theorem Fresh.freed (h : d.Fresh) (hfreed : Freed d d') : d'.Fresh := by
  have hnext : d'.next = d.next := by rw [hfreed.kept]
  refine ⟨fun a ha => none_of_same_or_none (hfreed.entity a) (h.entity a (hnext ▸ ha)),
    fun a ha => ?_, fun a ha => ?_,
    fun a ha => none_of_same_or_none (hfreed.tagGroup a) (h.tagGroup a (hnext ▸ ha)),
    fun a ha => none_of_same_or_none (hfreed.tag a) (h.tag a (hnext ▸ ha)),
    fun a ha => none_of_same_or_none (hfreed.layer a) (h.layer a (hnext ▸ ha)), fun a ha => ?_⟩
  · rw [hfreed.kept]
    exact h.node a (hnext ▸ ha)
  · rw [hfreed.kept]
    exact h.link a (hnext ▸ ha)
  · rw [hfreed.kept]
    exact h.sub a (hnext ▸ ha)

theorem Fresh.sameLayers (h : d.Fresh) (hsame : SameLayers d d') : d'.Fresh := by
  have hlayer : ∀ a, d.next ≤ a → d'.layer a = none := by
    intro a ha
    have hsubs := hsame.subs a
    rw [h.layer a ha, Option.map_none] at hsubs
    exact Option.map_eq_none_iff.mp hsubs
  rw [hsame.kept]
  exact ⟨h.entity, h.node, h.link, h.tagGroup, h.tag, hlayer, h.sub⟩

theorem Fresh.sameButLevels (h : d.Fresh) (hsame : SameButLevels d d') : d'.Fresh := by
  have hnode : ∀ a, d.next ≤ a → d'.node a = none := by
    intro a ha
    have hnodes := hsame.node a
    rw [h.node a ha, Option.map_none] at hnodes
    exact Option.map_eq_none_iff.mp hnodes
  rw [hsame.kept]
  exact ⟨h.entity, hnode, h.link, h.tagGroup, h.tag, h.layer, h.sub⟩

theorem Fresh.createLinked (h : d.Fresh) {parent : Option ℕ} {owner id customType : ℕ}
    (hcreate : d.createLinked parent owner id customType = some d') : d'.Fresh := by
  have hle : d.next ≤ d.next + 2 := Nat.le_add_right _ _
  have hlt : d.next < d.next + 2 := by omega
  have hlt' : d.next + 1 < d.next + 2 := by omega
  rcases createLinked_eq hcreate with ⟨-, rfl⟩ | ⟨p, pnode, -, hpnode, rfl⟩
  · exact ⟨update_fresh h.entity hle (Or.inl hlt), update_fresh h.node hle (Or.inl hlt),
      fun m hm => h.link m (Nat.le_trans hle hm), fun m hm => h.tagGroup m (Nat.le_trans hle hm),
      fun m hm => h.tag m (Nat.le_trans hle hm), fun m hm => h.layer m (Nat.le_trans hle hm),
      fun m hm => h.sub m (Nat.le_trans hle hm)⟩
  · refine ⟨update_fresh h.entity hle (Or.inl hlt), ?_,
      update_fresh h.link hle (Or.inl hlt'), fun m hm => h.tagGroup m (Nat.le_trans hle hm),
      fun m hm => h.tag m (Nat.le_trans hle hm), fun m hm => h.layer m (Nat.le_trans hle hm),
      fun m hm => h.sub m (Nat.le_trans hle hm)⟩
    have hparent := update_fresh h.node (Nat.le_refl _) (Or.inr (fun hnone =>
      absurd hpnode (by simp [hnone]))) (a := p)
      (v := some { pnode with childrenLinks := pnode.childrenLinks ++ [d.next + 1] })
    exact update_fresh hparent hle (Or.inl hlt)

theorem Fresh.vsNodeCreateLinked (h : d.Fresh) {parent created : Option ℕ}
    {heap owner nodeId customType : ℕ}
    (hcreate : d.vsNodeCreateLinked heap parent owner nodeId customType = some (d', created)) :
    d'.Fresh := by
  rcases vsNodeCreateLinked_eq hcreate with ⟨rfl, -⟩ | ⟨id, last, d₁, -, -, hd₁, -, rfl⟩
  · exact h
  · have hd₁ := h.createLinked hd₁
    exact ⟨hd₁.entity, hd₁.node, hd₁.link, hd₁.tagGroup, hd₁.tag, hd₁.layer, hd₁.sub⟩

theorem Fresh.vsTagCreate (h : d.Fresh) {g dataType count customType : ℕ}
    (hcreate : d.vsTagCreate g dataType count customType = some (d', a)) : d'.Fresh := by
  have hle : d.next ≤ d.next + 1 := Nat.le_succ _
  have hlt : d.next < d.next + 1 := Nat.lt_succ_self _
  obtain ⟨tg, id, tag, htg, -, -, rfl⟩ := vsTagCreate_eq hcreate
  exact ⟨update_fresh h.entity hle (Or.inl hlt), fun m hm => h.node m (Nat.le_trans hle hm),
    fun m hm => h.link m (Nat.le_trans hle hm),
    update_fresh h.tagGroup hle (Or.inr fun hnone => absurd htg (by simp [hnone])),
    update_fresh h.tag hle (Or.inl hlt), fun m hm => h.layer m (Nat.le_trans hle hm),
    fun m hm => h.sub m (Nat.le_trans hle hm)⟩

theorem Fresh.vsTaggroupCreate (h : d.Fresh) {n customType : ℕ} {created : Option ℕ}
    (hcreate : d.vsTaggroupCreate n customType = some (d', created)) : d'.Fresh := by
  have hle : d.next ≤ d.next + 1 := Nat.le_succ _
  have hlt : d.next < d.next + 1 := Nat.lt_succ_self _
  rcases vsTaggroupCreate_eq hcreate with ⟨rfl, -⟩ | ⟨node, id, tg, hnode, -, -, -, -, rfl⟩
  · exact h
  exact ⟨update_fresh h.entity hle (Or.inl hlt),
    update_fresh h.node hle (Or.inr fun hnone => absurd hnode (by simp [hnone])),
    fun m hm => h.link m (Nat.le_trans hle hm), update_fresh h.tagGroup hle (Or.inl hlt),
    fun m hm => h.tag m (Nat.le_trans hle hm), fun m hm => h.layer m (Nat.le_trans hle hm),
    fun m hm => h.sub m (Nat.le_trans hle hm)⟩

theorem Fresh.vsLayerCreate (h : d.Fresh) {n dataType count type : ℕ} {parent : Option ℕ}
    (hcreate : d.vsLayerCreate n parent dataType count type = some (d', a)) : d'.Fresh := by
  have hle : d.next ≤ d.next + 1 := Nat.le_succ _
  have hlt : d.next < d.next + 1 := Nat.lt_succ_self _
  obtain ⟨node, id, layer, layers, hnode, -, -, -, -, -, hsubs, -, rfl⟩ := vsLayerCreate_eq hcreate
  refine ⟨update_fresh h.entity hle (Or.inl hlt),
    update_fresh h.node hle (Or.inr fun hnone => absurd hnode (by simp [hnone])),
    fun m hm => h.link m (Nat.le_trans hle hm), fun m hm => h.tagGroup m (Nat.le_trans hle hm),
    fun m hm => h.tag m (Nat.le_trans hle hm), fun m hm => ?_,
    fun m hm => h.sub m (Nat.le_trans hle hm)⟩
  have hm : d.next + 1 ≤ m := hm
  have hsame := hsubs m (by omega)
  rw [h.layer m (by omega), Option.map_none] at hsame
  exact Option.map_eq_none_iff.mp hsame

theorem Fresh.freeFollower (h : d.Fresh) {s : ℕ} (hfree : d.freeFollower a s = some d') :
    d'.Fresh := by
  obtain ⟨e, he, rfl⟩ := freeFollower_eq_some hfree
  exact h.setEntity (by simp [he])

theorem Fresh.vsNodeDestroy (h : d.Fresh) {n : ℕ} (hdestroy : d.vsNodeDestroy n = some d') :
    d'.Fresh := by
  rcases vsNodeDestroy_cases hdestroy with rfl | ⟨node, e, d₁, d₂, -, -, -, -, hd₁, hd₂, rfl⟩
  · exact h
  have hd₁ : d₁.Fresh := by
    rcases unlink_cases hd₁ with ⟨-, rfl⟩ | ⟨l, link, pnode, -, -, hpnode, rfl⟩
    · exact h
    · exact (h.setNode (by simp [hpnode])).setLink (by simp)
  have hd := ((hd₁.freed hd₂).setNode (a := n) (fun _ => rfl)).setEntity (a := n) (fun _ => rfl)
  exact ⟨hd.entity, hd.node, hd.link, hd.tagGroup, hd.tag, hd.layer, hd.sub⟩

theorem Fresh.moveLink (h : d.Fresh) {l old parent child : ℕ} {link : VSLink}
    (hlink : d.link l = some link) (hmove : d.moveLink l old parent child = some d') :
    d'.Fresh := by
  obtain ⟨onode, d₁, pnode, d₂, honode, rfl, hpnode, rfl, hlevels⟩ := moveLink_cases hmove
  refine Fresh.sameButLevels ?_ hlevels
  refine ((h.setNode (by simp [honode])).setNode (by simp [hpnode])).setLink fun hnone => ?_
  have hlink' : d.link l = none := hnone
  simp [hlink] at hlink'

/-- What the tests of a move have found when they pass. -/
theorem linkChangeTests_passed {s child parentId l old parent : ℕ}
    (h : d.linkChangeTests s child parentId = some (some (l, old, parent))) :
    ∃ cnode link onode pnode, d.node child = some cnode ∧ d.isCreated child ∧
      d.vsNodeCanWrite s cnode ∧ cnode.parentLink = some l ∧ d.link l = some link ∧
      link.parent = old ∧ d.node old = some onode ∧ d.vsNodeCanWrite s onode ∧
      d.node parent = some pnode ∧ d.isCreated parent ∧ parent ≠ old ∧
      d.vsNodeCanWrite s pnode := by
  simp only [linkChangeTests, Option.bind_eq_bind, Option.bind_eq_some_iff] at h
  obtain ⟨cnode, hcnode, h⟩ := h
  split at h
  · rename_i hchild
    simp only [Option.bind_eq_some_iff] at h
    obtain ⟨l', hl', link, hlink, onode, honode, h⟩ := h
    split at h
    · rename_i hold
      split at h
      · cases h
      · rename_i p _
        simp only [Option.bind_eq_some_iff] at h
        obtain ⟨pnode, hpnode, h⟩ := h
        split at h
        · rename_i hparent
          obtain ⟨avoids, -, h⟩ := Option.bind_eq_some_iff.mp h
          split at h
          · obtain ⟨rfl, rfl, rfl⟩ : l' = l ∧ link.parent = old ∧ p = parent := by
              simpa using h
            exact ⟨cnode, link, onode, pnode, hcnode, hchild.1, hchild.2, hl', hlink, rfl, honode,
              hold, hpnode, hparent.1, hparent.2.1, hparent.2.2⟩
          · cases h
        · cases h
    · cases h
  · cases h

/-- What the tests of a move say about the nodes and the link that is moved. -/
structure Movable (d : VSData) (l old parent child : ℕ) : Prop where
  child_created : d.isCreated child
  parent_created : d.isCreated parent
  parent_ne : parent ≠ old
  exists_link : ∃ cnode link, d.node child = some cnode ∧ cnode.parentLink = some l ∧
    d.link l = some link ∧ link.parent = old

theorem linkChangeTests_movable {s child parentId l old parent : ℕ}
    (h : d.linkChangeTests s child parentId = some (some (l, old, parent))) :
    Movable d l old parent child := by
  obtain ⟨cnode, link, onode, pnode, hcnode, hchild, -, hl, hlink, hold, -, -, -, hparent, hne, -⟩ :=
    linkChangeTests_passed h
  exact ⟨hchild, hparent, hne, cnode, link, hcnode, hl, hlink, hold⟩

/-- Every change keeps the addresses that are not used free. -/
theorem Effect.fresh {k : EffectKind} (he : Effect k d d') (h : d.Fresh) : d'.Fresh := by
  cases he with
  | push hpush _ _ | pushSet hpush _ _ =>
      obtain ⟨sub, -, rfl⟩ := push_eq_some.mp hpush
      exact ⟨h.entity, h.node, h.link, h.tagGroup, h.tag, h.layer, h.sub⟩
  | follow _ he => exact h.replaceEntity he _
  | unfollow hfree => exact h.freeFollower hfree
  | tellNode _ he => exact h.replaceEntity he _
  | tellContent _ he | tellLayer _ he _ => exact h.replaceEntity he _
  | mark he => exact h.setEntity fun hnone => by rw [hnone, Option.map_none]
  | newTag hcreate => exact h.vsTagCreate hcreate
  | newTagGroup hcreate => exact h.vsTaggroupCreate hcreate
  | newLayer _ _ hcreate => exact h.vsLayerCreate hcreate
  | newNode hcreate => exact h.vsNodeCreateLinked hcreate
  | newRoot hcreate => exact h.vsNodeCreateLinked hcreate
  | tagValue htag => exact h.setTag (by simp [htag])
  | layerValue hlayer => exact h.setLayer (by simp [hlayer])
  | joinTagGroup _ _ htg => exact h.setTagGroup (by simp [htg])
  | joinLayer _ _ hlayer => exact h.setLayer (by simp [hlayer])
  | leaveTagGroup htg => exact h.setTagGroup (by simp [htg])
  | leaveLayer hlayer => exact h.setLayer (by simp [hlayer])
  | subscribe hnode =>
      have hle : d.next ≤ d.next + 1 := Nat.le_succ _
      refine ⟨fun m hm => h.entity m (Nat.le_trans hle hm),
        update_fresh h.node hle (Or.inr fun hnone => ?_),
        fun m hm => h.link m (Nat.le_trans hle hm), fun m hm => h.tagGroup m (Nat.le_trans hle hm),
        fun m hm => h.tag m (Nat.le_trans hle hm), fun m hm => h.layer m (Nat.le_trans hle hm),
        update_fresh h.sub hle (Or.inl (Nat.lt_succ_self _))⟩
      exact absurd (hnode.symm.trans hnone) (by simp)
  | freeSub _ hfree =>
      obtain ⟨sub, node, hsub, hnode, rfl⟩ := freeSub_eq_some hfree
      exact (h.setNode (by simp [hnode])).setSub fun _ => rfl
  | lock hnode => exact h.setNode (by simp [hnode])
  | permit hnode | access hnode => exact h.setNode (by simp [hnode])
  | owner hnode => exact h.setNode (by simp [hnode])
  | prio => exact h.setSub fun hnone => by rw [hnone, Option.map_none]
  | session => exact ⟨h.entity, h.node, h.link, h.tagGroup, h.tag, h.layer, h.sub⟩
  | ack he => exact h.replaceEntity he _
  | drop he => exact h.replaceEntity he _
  | dropNode _ he _ _ hremove => exact (h.replaceEntity he _).vsNodeDestroy hremove
  | removeTag htg₀ ha he hack hfolls hremove =>
      rename_i e' _
      have hd := h.replaceEntity he e'
      obtain ⟨tg, tag, htg, -, rfl⟩ := vsTagDestroy_cases hremove
      exact ((hd.setTagGroup (by simp [htg])).setTag fun _ => rfl).setEntity fun _ => rfl
  | removeTagGroup hnode₀ hg he hack hfolls hremove =>
      rename_i e' _
      have hd := h.replaceEntity he e'
      obtain ⟨tg, d₁, node, -, hfreed, -, hnode, rfl⟩ := vsTaggroupDestroy_cases hremove
      refine (hd.freed hfreed).setNode fun hnone => ?_
      rw [hfreed.kept] at hnone
      simp [hnode] at hnone
  | removeLayer hnode₀ ha he hack hfolls hremove =>
      rename_i e' _
      have hd := h.replaceEntity he e'
      obtain ⟨layer, d₁, node, -, hsame, hnode, rfl⟩ := vsLayerDestroy_cases hremove
      refine (((hd.sameLayers hsame).setLayer fun _ => rfl).setEntity fun _ => rfl).setNode
        fun hnone => ?_
      have hnone' : d₁.node _ = none := hnone
      rw [hsame.kept] at hnone'
      simp [hnode] at hnone'
  | removeNode hremove => exact h.vsNodeDestroy hremove
  | move htests hmove =>
      obtain ⟨cnode, link, -, -, hlink, -⟩ := (linkChangeTests_movable htests).exists_link
      exact h.moveLink hlink hmove

theorem Effects.fresh {S : Set EffectKind} (h : Effects S d d') (hfresh : d.Fresh) : d'.Fresh :=
  h.invariant (fun _ _ _ _ he hd => he.fresh hd) hfresh

end Fresh

/-! ## What no change touches -/

/-- The users, the root and the parent of the avatars are the same, and addresses are not
used again. -/
structure SameServer (d d' : VSData) : Prop where
  users : d'.users = d.users
  otherUsers : d'.otherUsers = d.otherUsers
  rootNode : d'.rootNode = d.rootNode
  avatarNode : d'.avatarNode = d.avatarNode
  next_le : d.next ≤ d'.next

theorem SameServer.refl (d : VSData) : SameServer d d := ⟨rfl, rfl, rfl, rfl, Nat.le_refl _⟩

theorem SameServer.trans {d'' : VSData} (h : SameServer d d') (h' : SameServer d' d'') :
    SameServer d d'' :=
  ⟨h'.users.trans h.users, h'.otherUsers.trans h.otherUsers, h'.rootNode.trans h.rootNode,
    h'.avatarNode.trans h.avatarNode, Nat.le_trans h.next_le h'.next_le⟩

theorem sameServer_setEntity (d : VSData) (a : ℕ) (e : Option VSEntity) :
    SameServer d (d.setEntity a e) :=
  ⟨rfl, rfl, rfl, rfl, Nat.le_refl _⟩

theorem sameServer_setTagGroup (d : VSData) (g : ℕ) (tg : Option VSTagGroup) :
    SameServer d (d.setTagGroup g tg) :=
  ⟨rfl, rfl, rfl, rfl, Nat.le_refl _⟩

theorem sameServer_setTag (d : VSData) (a : ℕ) (tag : Option VSTag) :
    SameServer d (d.setTag a tag) :=
  ⟨rfl, rfl, rfl, rfl, Nat.le_refl _⟩

theorem Freed.sameServer (h : Freed d d') : SameServer d d' := by
  rw [h.kept]
  exact ⟨rfl, rfl, rfl, rfl, Nat.le_refl _⟩

theorem SameLayers.sameServer (h : SameLayers d d') : SameServer d d' := by
  rw [h.kept]
  exact ⟨rfl, rfl, rfl, rfl, Nat.le_refl _⟩

theorem SameButLevels.sameServer (h : SameButLevels d d') : SameServer d d' := by
  rw [h.kept]
  exact ⟨rfl, rfl, rfl, rfl, Nat.le_refl _⟩

theorem createLinked_sameServer {parent : Option ℕ} {owner id customType : ℕ}
    (h : d.createLinked parent owner id customType = some d') : SameServer d d' := by
  rcases createLinked_eq h with ⟨-, rfl⟩ | ⟨p, pnode, -, -, rfl⟩ <;>
    exact ⟨rfl, rfl, rfl, rfl, Nat.le_add_right _ _⟩

theorem vsNodeCreateLinked_sameServer {parent created : Option ℕ}
    {heap owner nodeId customType : ℕ}
    (h : d.vsNodeCreateLinked heap parent owner nodeId customType = some (d', created)) :
    SameServer d d' := by
  rcases vsNodeCreateLinked_eq h with ⟨rfl, -⟩ | ⟨id, last, d₁, -, -, hd₁, -, rfl⟩
  · exact SameServer.refl _
  · obtain ⟨husers, hother, hroot, havatar, hnext⟩ := createLinked_sameServer hd₁
    exact ⟨husers, hother, hroot, havatar, hnext⟩

theorem vsNodeDestroy_sameServer {n : ℕ} (h : d.vsNodeDestroy n = some d') : SameServer d d' := by
  rcases vsNodeDestroy_cases h with rfl | ⟨node, e, d₁, d₂, -, -, -, -, hd₁, hfreed, rfl⟩
  · exact SameServer.refl _
  have hunlink : SameServer d d₁ := by
    rcases unlink_cases hd₁ with ⟨-, rfl⟩ | ⟨l, link, pnode, -, -, -, rfl⟩
    · exact SameServer.refl _
    · exact ⟨rfl, rfl, rfl, rfl, Nat.le_refl _⟩
  obtain ⟨husers, hother, hroot, havatar, hnext⟩ := hunlink.trans hfreed.sameServer
  exact ⟨husers, hother, hroot, havatar, hnext⟩

theorem vsTagDestroy_sameServer {g a : ℕ} (h : d.vsTagDestroy g a = some d') : SameServer d d' := by
  obtain ⟨tg, tag, -, -, rfl⟩ := vsTagDestroy_cases h
  exact (sameServer_setTagGroup d g _).trans
    ((sameServer_setTag _ a none).trans (sameServer_setEntity _ a none))

theorem Effect.sameServer {k : EffectKind} (he : Effect k d d') : SameServer d d' := by
  cases he with
  | push hpush _ _ | pushSet hpush _ _ =>
      obtain ⟨sub, -, rfl⟩ := push_eq_some.mp hpush
      exact ⟨rfl, rfl, rfl, rfl, Nat.le_refl _⟩
  | unfollow hfree =>
      obtain ⟨e, -, rfl⟩ := freeFollower_eq_some hfree
      exact ⟨rfl, rfl, rfl, rfl, Nat.le_refl _⟩
  | newTag hcreate =>
      obtain ⟨tg, id, tag, -, -, -, rfl⟩ := vsTagCreate_eq hcreate
      exact ⟨rfl, rfl, rfl, rfl, Nat.le_succ _⟩
  | newTagGroup hcreate =>
      rcases vsTaggroupCreate_eq hcreate with ⟨rfl, -⟩ | ⟨node, id, tg, -, -, -, -, -, rfl⟩
      · exact SameServer.refl _
      · exact ⟨rfl, rfl, rfl, rfl, Nat.le_succ _⟩
  | newLayer _ _ hcreate =>
      obtain ⟨node, id, layer, layers, -, -, -, -, -, -, -, -, rfl⟩ := vsLayerCreate_eq hcreate
      exact ⟨rfl, rfl, rfl, rfl, Nat.le_succ _⟩
  | newNode hcreate => exact vsNodeCreateLinked_sameServer hcreate
  | newRoot hcreate => exact vsNodeCreateLinked_sameServer hcreate
  | subscribe => exact ⟨rfl, rfl, rfl, rfl, Nat.le_succ _⟩
  | freeSub _ hfree =>
      obtain ⟨sub, node, -, -, rfl⟩ := freeSub_eq_some hfree
      exact ⟨rfl, rfl, rfl, rfl, Nat.le_refl _⟩
  | dropNode _ _ _ _ hremove =>
      obtain ⟨husers, hother, hroot, havatar, hnext⟩ := vsNodeDestroy_sameServer hremove
      exact ⟨husers, hother, hroot, havatar, hnext⟩
  | removeTag _ _ _ _ _ hremove =>
      exact (sameServer_setEntity d _ _).trans (vsTagDestroy_sameServer hremove)
  | removeTagGroup _ _ _ _ _ hremove =>
      obtain ⟨tg, d₁, node, -, hfreed, -, -, rfl⟩ := vsTaggroupDestroy_cases hremove
      obtain ⟨husers, hother, hroot, havatar, hnext⟩ := hfreed.sameServer
      exact ⟨husers, hother, hroot, havatar, hnext⟩
  | removeLayer _ _ _ _ _ hremove =>
      obtain ⟨layer, d₁, node, -, hsame, -, rfl⟩ := vsLayerDestroy_cases hremove
      obtain ⟨husers, hother, hroot, havatar, hnext⟩ := hsame.sameServer
      exact ⟨husers, hother, hroot, havatar, hnext⟩
  | removeNode hremove => exact vsNodeDestroy_sameServer hremove
  | move _ hmove =>
      obtain ⟨onode, d₁, pnode, d₂, -, rfl, -, rfl, hlevels⟩ := moveLink_cases hmove
      obtain ⟨husers, hother, hroot, havatar, hnext⟩ := hlevels.sameServer
      exact ⟨husers, hother, hroot, havatar, hnext⟩
  | _ => exact ⟨rfl, rfl, rfl, rfl, Nat.le_refl _⟩

theorem Effects.sameServer {S : Set EffectKind} (h : Effects S d d') : SameServer d d' :=
  h.rel SameServer.refl SameServer.trans fun _ _ _ _ he => he.sameServer

/-! ## The nodes the server starts with -/

theorem firstNode_fresh (users : List VSUser) (superUser otherUsers : ℕ) :
    (firstNode users superUser otherUsers).Fresh := by
  have hold : ∀ m, 3 ≤ m → m ≠ 1 := by omega
  exact ⟨fun m hm => by simp [firstNode, Function.update_of_ne (hold m hm)],
    fun m hm => by simp [firstNode, Function.update_of_ne (hold m hm)], fun _ _ => rfl, fun _ _ => rfl,
    fun _ _ => rfl, fun _ _ => rfl, fun _ _ => rfl⟩

/-- **Starting.**  What holds of the root alone, of whatever place of the root and of the
parent of the avatars, and is kept by the changes that build nodes, holds of the nodes the
server starts with. -/
theorem vsNodesInit_invariant (inv : VSData → Prop) {users : List VSUser}
    {superUser otherUsers : ℕ} {realname : ℕ → List UInt8}
    (hfirst : inv (firstNode users superUser otherUsers))
    (hroot : ∀ d avatar, inv d → inv { d with rootNode := 1, avatarNode := avatar })
    (hbuilds : ∀ k d d', k ∈ builds → d.Fresh → Effect k d d' → inv d → inv d')
    (h : vsNodesInit users superUser otherUsers realname = some d') : d'.Fresh ∧ inv d' := by
  have hkeeps : ∀ {d d'}, Effects builds d d' → d.Fresh ∧ inv d → d'.Fresh ∧ inv d' := by
    intro d d' heffects hd
    exact heffects.invariant
      (fun k d d' hk he (hd : d.Fresh ∧ inv d) => ⟨he.fresh hd.1, hbuilds k d d' hk hd.1 he hd.2⟩) hd
  obtain ⟨d₁, avatar, hd₁, hd'⟩ := vsNodesInit_cases h
  obtain ⟨hfresh₁, hinv₁⟩ := hkeeps hd₁ ⟨firstNode_fresh _ _ _, hfirst⟩
  refine hkeeps hd' ⟨?_, hroot d₁ avatar hinv₁⟩
  exact ⟨hfresh₁.entity, hfresh₁.node, hfresh₁.link, hfresh₁.tagGroup, hfresh₁.tag, hfresh₁.layer,
    hfresh₁.sub⟩

theorem vsNodesInit_fresh {users : List VSUser} {superUser otherUsers : ℕ}
    {realname : ℕ → List UInt8} (h : vsNodesInit users superUser otherUsers realname = some d') :
    d'.Fresh :=
  (vsNodesInit_invariant (fun _ => True) trivial (fun _ _ _ => trivial)
    (fun _ _ _ _ _ _ _ => trivial) h).1

/-- The root stands at the first address. -/
theorem vsNodesInit_rootNode {users : List VSUser} {superUser otherUsers : ℕ}
    {realname : ℕ → List UInt8} (h : vsNodesInit users superUser otherUsers realname = some d') :
    d'.rootNode = 1 := by
  obtain ⟨d₁, avatar, -, hd'⟩ := vsNodesInit_cases h
  exact hd'.sameServer.rootNode

/-- A server with a superuser, two other users and the user that stands for all others. -/
def sampleUsers : List VSUser := [⟨100, true⟩, ⟨1001, false⟩, ⟨1002, false⟩, ⟨65535, true⟩]

/-- The nodes such a server starts with. -/
def sampleInit : Option VSData := vsNodesInit sampleUsers 0 3 fun _ => [117]

/-- What is known about a client that logs in. -/
def sampleInfo : ClientInfo := ⟨[104], [], none, none⟩

/-! ## Runs -/

theorem step_fresh {event : NodeEvent} (h : d.Fresh) (hstep : d.step event = some d') :
    d'.Fresh := (step_effects h hstep).fresh h

theorem run_fresh {events : List NodeEvent} (hfresh : d.Fresh)
    (hrun : run step d events = some d') : d'.Fresh :=
  run_keeps (fun _ _ _ h hstep => step_fresh h hstep) hfresh hrun

/-- **Runs of the server.**  A property that steps within the guard keep holds at the
end of an admissible run. -/
theorem run_step_invariant {guard : VSData → NodeEvent → Prop} {inv : VSData → Prop}
    (hstep : ∀ d event d', d.Fresh → inv d → guard d event → d.step event = some d' → inv d')
    {events : List NodeEvent} (hfresh : d.Fresh) (hinit : inv d)
    (hadm : Admissible step guard d events) (hrun : run step d events = some d') :
    d'.Fresh ∧ inv d' :=
  run_invariant
    (fun d event d' (hd : d.Fresh ∧ inv d) hguard h => ⟨step_fresh hd.1 h, hstep d event d' hd.1 hd.2 hguard h⟩)
    ⟨hfresh, hinit⟩ hadm hrun

/-- No event creates another root, and only `Node_Link` moves a node. -/
theorem kinds_cases {event : NodeEvent} {k : EffectKind} (hk : k ∈ event.kinds) :
    k ≠ .newRoot ∧ (k = .move → ∃ s parentId childId,
      event = .command s (.nodeLink parentId childId)) := by
  cases event with
  | command s cmd =>
      cases cmd <;> simp only [NodeEvent.kinds, NodeCmd.kinds, leaves, Set.mem_insert_iff,
        Set.mem_singleton_iff] at hk <;> constructor <;> rintro rfl <;> simp_all
  | login =>
      simp only [NodeEvent.kinds, builds, Set.mem_union, Set.mem_insert_iff,
        Set.mem_singleton_iff] at hk
      constructor <;> rintro rfl <;> simp_all
  | disconnect =>
      simp only [NodeEvent.kinds, departs, Set.mem_union, Set.mem_insert_iff,
        Set.mem_singleton_iff] at hk
      constructor <;> rintro rfl <;> simp_all

end VSData

end Verse
