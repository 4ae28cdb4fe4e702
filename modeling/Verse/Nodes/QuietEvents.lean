import Verse.Nodes.TagRecords

/-!
# Events that tell no value of a tag

For every handler but those of tags and of subscriptions to tag groups, and for a login and
the end of a session: it is quiet (`Quiet`).  Handlers that tell a client about an entity, take
a session out of tag groups or write a value are followed through their loops; the others
consist of quiet kinds of changes.
-/

namespace Verse

open Lib

/-- One of the commands by which a client may learn, or be owed, the value of a tag. -/
def NodeEvent.OfTags : NodeEvent → Prop
  | .command _ (.tagSet ..) | .command _ (.tagCreate ..) | .command _ (.tagCreateAck ..) => True
  | .command _ (.taggroupSubscribe ..) => True
  | _ => False

/-- The event gives the session to a client. -/
def NodeEvent.LogsIn (s : ℕ) : NodeEvent → Prop
  | .login t .. => t = s
  | _ => False

namespace VSData

variable {d d' : VSData} {s t a n r : ℕ}

/-! ## Nodes -/

theorem vsNodeCreateLinked_quiet {heap p owner nodeId customType : ℕ} {created : Option ℕ}
    (h : d.vsNodeCreateLinked heap (some p) owner nodeId customType = some (d', created)) :
    Quiet s d d' := by
  rcases vsNodeCreateLinked_eq h with ⟨rfl, -⟩ | ⟨id, last, d₁, -, -, -, rfl, -⟩
  · exact Quiet.refl s _
  · have hnew : Effect .newNode d d' := Effect.newNode h
    exact hnew.quiet_of_kind (by simp [loudKinds])

theorem vsNodeNew_quiet {heap type : ℕ} (h : d.vsNodeNew t heap type = some d') : Quiet s d d' := by
  unfold vsNodeNew at h
  split at h
  · obtain rfl := Option.some.inj h
    exact Quiet.refl s _
  obtain ⟨⟨d₁, created⟩, hcreate, h⟩ := Option.bind_eq_some_iff.mp h
  have hnew : Quiet s d d₁ := vsNodeCreateLinked_quiet hcreate
  cases created with
  | none =>
      obtain rfl := Option.some.inj h
      exact hnew
  | some n =>
      obtain ⟨d₂, hd₂, h⟩ := Option.bind_eq_some_iff.mp h
      obtain ⟨pnode, -, h⟩ := Option.bind_eq_some_iff.mp h
      have hperm : Quiet s (d₁.setState n .creating) d₂ := modifyNode_quiet hd₂ fun _ => ⟨rfl, rfl⟩
      have hsend : Quiet s d₂ d' :=
        foldlM_rel (Quiet.refl s) Quiet.trans (fun _ _ _ _ _ hbody => vsNodeSendCreate_quiet hbody) h
      exact hnew.trans ((setState_quiet d₁ n .creating).trans (hperm.trans hsend))

theorem vsHandleNodeCreate_quiet {heap userId parentId nodeId customType : ℕ}
    (h : d.vsHandleNodeCreate t heap userId parentId nodeId customType = some d') : Quiet s d d' := by
  rcases ite_cases h with rfl | ⟨-, h⟩
  · exact Quiet.refl s _
  · exact vsNodeNew_quiet h

theorem vsNodeSubscribe_quiet (h : d.vsNodeSubscribe t n = some d') : Quiet s d d' := by
  simp only [vsNodeSubscribe, Option.bind_eq_bind, Option.bind_eq_some_iff] at h
  obtain ⟨node, hnode, d₁, hd₁, d₂, hd₂, h⟩ := h
  have hsubscribe : Quiet s d ((({ d with next := d.next + 1 }).setSub d.next
      (some ⟨t, defaultSubscriberPrio⟩)).setNode n
        (some { node with nodeSubs := node.nodeSubs ++ [d.next] })) :=
    (Effect.subscribe hnode).quiet_of_kind (by simp [loudKinds])
  have hperms : Quiet s d₁ d₂ :=
    foldlM_rel (Quiet.refl s) Quiet.trans (fun _ _ _ _ _ hbody => push_quiet hbody) hd₂
  refine hsubscribe.trans ((pushSome_quiet hd₁).trans (hperms.trans ?_))
  split at h
  · exact vsNodeSendData_quiet h
  · obtain rfl := Option.some.inj h
    exact Quiet.refl s _

theorem vsHandleNodeSubscribe_quiet {nodeId : ℕ} (h : d.vsHandleNodeSubscribe t nodeId = some d') :
    Quiet s d d' := by
  rcases withNode_cases h with rfl | ⟨n, node, -, -, h⟩
  · exact Quiet.refl s _
  rcases ite_cases h with rfl | ⟨-, h⟩
  · exact Quiet.refl s _
  obtain ⟨found, -, h⟩ := Option.bind_eq_some_iff.mp h
  split at h
  · obtain rfl := Option.some.inj h
    exact Quiet.refl s _
  · exact vsNodeSubscribe_quiet h

theorem freeFollowerBelow_quiet {below : Bool} (h : d.freeFollowerBelow below n t = some d') :
    Quiet s d d' := by
  rcases ite_cases h with rfl | ⟨-, h⟩
  · exact Quiet.refl s _
  · exact freeFollower_quiet h

theorem vsNodeUnsubscribe_quiet {fuel : ℕ} {below : Bool}
    (h : vsNodeUnsubscribe fuel d n r below = some d') : Quiet s d d' := by
  induction fuel generalizing d d' n r below with
  | zero => cases h
  | succ fuel ih =>
      simp only [vsNodeUnsubscribe, Option.bind_eq_bind, Option.bind_eq_some_iff] at h
      obtain ⟨node, -, sub, -, d₁, hd₁, d₂, hd₂, d₃, hd₃, d₄, hd₄, h⟩ := h
      have hchildren : Quiet s d d₁ := by
        refine foldlM_rel (Quiet.refl s) Quiet.trans (fun t l t' _ _ hbody => ?_) hd₁
        obtain ⟨link, -, hbody⟩ := Option.bind_eq_some_iff.mp hbody
        obtain ⟨child, -, hbody⟩ := Option.bind_eq_some_iff.mp hbody
        obtain ⟨found, -, hbody⟩ := Option.bind_eq_some_iff.mp hbody
        cases found with
        | none =>
            obtain rfl := Option.some.inj hbody
            exact Quiet.refl s _
        | some r' => exact ih hbody
      have htagGroups : Quiet s d₁ d₂ := by
        refine foldlM_rel (Quiet.refl s) Quiet.trans (fun t b t' _ _ hbody => ?_) hd₂
        obtain ⟨t₁, ht₁, hbody⟩ := Option.bind_eq_some_iff.mp hbody
        exact (vsTaggroupUnsubscribe_quiet ht₁).trans (freeFollower_quiet hbody)
      have hlayers : Quiet s d₂ d₃ := by
        refine foldlM_rel (Quiet.refl s) Quiet.trans (fun t b t' _ _ hbody => ?_) hd₃
        obtain ⟨t₁, ht₁, hbody⟩ := Option.bind_eq_some_iff.mp hbody
        exact (vsLayerUnsubscribe_quiet ht₁).trans (freeFollower_quiet hbody)
      exact hchildren.trans (htagGroups.trans (hlayers.trans
        ((freeFollowerBelow_quiet hd₄).trans (freeSub_quiet h))))

theorem vsHandleNodeUnsubscribe_quiet {nodeId : ℕ}
    (h : d.vsHandleNodeUnsubscribe t nodeId = some d') : Quiet s d d' := by
  rcases withNode_cases h with rfl | ⟨n, node, -, -, h⟩
  · exact Quiet.refl s _
  rcases ite_cases h with rfl | ⟨-, h⟩
  · exact Quiet.refl s _
  obtain ⟨found, -, h⟩ := Option.bind_eq_some_iff.mp h
  cases found with
  | none =>
      obtain rfl := Option.some.inj h
      exact Quiet.refl s _
  | some r => exact vsNodeUnsubscribe_quiet h

theorem sendLinkChange_quiet {old parent child : ℕ}
    (h : d.sendLinkChange old parent child = some d') : Quiet s d d' := by
  simp only [sendLinkChange, Option.bind_eq_bind, Option.bind_eq_some_iff] at h
  obtain ⟨onode, -, pnode, -, cnode, -, e, -, x, hx, y, hy, h⟩ := h
  -- the first two loops carry the sessions that were told
  have hold : Quiet s d x.1 := by
    refine foldlM_rel (R := fun x y : VSData × List ℕ => Quiet s x.1 y.1)
      (fun x => Quiet.refl s x.1) Quiet.trans (fun t r t' _ _ hbody => ?_) hx
    obtain ⟨sub, -, hbody⟩ := Option.bind_eq_some_iff.mp hbody
    split at hbody
    · obtain ⟨t₁, ht₁, hbody⟩ := Option.bind_eq_some_iff.mp hbody
      obtain rfl := Option.some.inj hbody
      exact push_quiet ht₁
    · obtain rfl := Option.some.inj hbody
      exact Quiet.refl s _
  have hfolls : Quiet s x.1 y.1 := by
    refine foldlM_rel (R := fun x y : VSData × List ℕ => Quiet s x.1 y.1)
      (fun x => Quiet.refl s x.1) Quiet.trans (fun t f t' _ _ hbody => ?_) hy
    obtain ⟨sub, -, hbody⟩ := Option.bind_eq_some_iff.mp hbody
    split at hbody
    · obtain rfl := Option.some.inj hbody
      exact Quiet.refl s _
    · obtain ⟨t₁, ht₁, hbody⟩ := Option.bind_eq_some_iff.mp hbody
      obtain rfl := Option.some.inj hbody
      exact push_quiet ht₁
  have hnew : Quiet s y.1 d' := by
    refine foldlM_rel (Quiet.refl s) Quiet.trans (fun t r t' _ _ hbody => ?_) h
    obtain ⟨sub, -, hbody⟩ := Option.bind_eq_some_iff.mp hbody
    split at hbody
    · exact vsNodeSendCreate_quiet hbody
    · obtain rfl := Option.some.inj hbody
      exact Quiet.refl s _
  exact hold.trans (hfolls.trans hnew)

theorem vsHandleLinkChange_quiet {parentId childId : ℕ}
    (h : d.vsHandleLinkChange t parentId childId = some d') : Quiet s d d' := by
  unfold vsHandleLinkChange at h
  split at h
  · obtain rfl := Option.some.inj h
    exact Quiet.refl s _
  obtain ⟨tests, htests, h⟩ := Option.bind_eq_some_iff.mp h
  cases tests with
  | none =>
      obtain rfl := Option.some.inj h
      exact Quiet.refl s _
  | some x =>
      obtain ⟨l, old, parent⟩ := x
      obtain ⟨d₁, hd₁, h⟩ := Option.bind_eq_some_iff.mp h
      have hmove : Quiet s d d₁ := (Effect.move htests hd₁).quiet_of_kind (by simp [loudKinds])
      exact hmove.trans (sendLinkChange_quiet h)

theorem vsHandleNodePerm_quiet {userId permissions nodeId : ℕ}
    (h : d.vsHandleNodePerm t userId permissions nodeId = some d') : Quiet s d d' := by
  rcases withNode_cases h with rfl | ⟨n, node, -, hnode, h⟩
  · exact Quiet.refl s _
  split at h
  · obtain rfl := Option.some.inj h
    exact Quiet.refl s _
  rename_i user _
  rcases ite_cases h with rfl | ⟨-, h⟩
  · exact Quiet.refl s _
  obtain ⟨perms, lock, hperm, hlock⟩ := permittedNode_eq (d := d) node user permissions
  simp only [hperm] at h
  have haccess : Quiet s d (d.setNode n (some { node with permissions := perms, lock := lock })) :=
    (Effect.access hnode hlock).quiet_of_kind (by simp [loudKinds])
  refine haccess.trans (foldlM_rel (Quiet.refl s) Quiet.trans (fun t x t' _ _ hbody => ?_) h)
  obtain ⟨t₁, ht₁, hbody⟩ := Option.bind_eq_some_iff.mp hbody
  obtain ⟨t₂, ht₂, hbody⟩ := Option.bind_eq_some_iff.mp hbody
  obtain ⟨sub, -, hbody⟩ := Option.bind_eq_some_iff.mp hbody
  refine (push_quiet ht₁).trans ((pushSome_quiet ht₂).trans ?_)
  split at hbody
  · exact vsNodeSendData_quiet hbody
  · obtain rfl := Option.some.inj hbody
    exact Quiet.refl s _

/-! ## Tag groups and layers -/

theorem vsTaggroupCreate_quiet {customType : ℕ} {created : Option ℕ}
    (h : d.vsTaggroupCreate n customType = some (d', created)) : Quiet s d d' := by
  cases created with
  | none =>
      rcases vsTaggroupCreate_eq h with ⟨rfl, -⟩ | ⟨node, id, tg, -, -, -, -, hnone, -⟩
      · exact Quiet.refl s _
      · cases hnone
  | some g =>
      have hnew : Effect .create d d' := Effect.newTagGroup h
      exact hnew.quiet_of_kind (by simp [loudKinds])

theorem vsHandleTaggroupCreate_quiet {nodeId taggroupId type : ℕ}
    (h : d.vsHandleTaggroupCreate t nodeId taggroupId type = some d') : Quiet s d d' := by
  unfold vsHandleTaggroupCreate at h
  rcases ite_cases h with rfl | ⟨-, h⟩
  · exact Quiet.refl s _
  rcases withNode_cases h with rfl | ⟨n, node, -, -, h⟩
  · exact Quiet.refl s _
  rcases ite_cases h with rfl | ⟨-, h⟩
  · exact Quiet.refl s _
  obtain ⟨⟨d₁, created⟩, hcreate, h⟩ := Option.bind_eq_some_iff.mp h
  have hnew : Quiet s d d₁ := vsTaggroupCreate_quiet hcreate
  cases created with
  | none =>
      obtain rfl := Option.some.inj h
      exact hnew
  | some g =>
      refine hnew.trans ((setState_quiet d₁ g .creating).trans
        (foldlM_rel (Quiet.refl s) Quiet.trans (fun t x t' _ _ hbody => ?_) h))
      obtain ⟨sub, -, hbody⟩ := Option.bind_eq_some_iff.mp hbody
      split at hbody
      · exact vsTaggroupSendCreate_quiet hbody
      · obtain rfl := Option.some.inj hbody
        exact Quiet.refl s _

theorem vsHandleTaggroupUnsubscribe_quiet {nodeId taggroupId : ℕ}
    (h : d.vsHandleTaggroupUnsubscribe t nodeId taggroupId = some d') : Quiet s d d' := by
  rcases withNode_cases h with rfl | ⟨n, node, -, -, h⟩
  · exact Quiet.refl s _
  rcases ite_cases h with rfl | ⟨-, h⟩
  · exact Quiet.refl s _
  rcases withTagGroup_cases h with rfl | ⟨g, tg, -, -, h⟩
  · exact Quiet.refl s _
  exact vsTaggroupUnsubscribe_quiet h

theorem vsHandleLayerCreate_quiet {nodeId parentLayerId layerId dataType count type : ℕ}
    (h : d.vsHandleLayerCreate t nodeId parentLayerId layerId dataType count type = some d') :
    Quiet s d d' := by
  rcases withNode_cases h with rfl | ⟨n, node, -, hnode, h⟩
  · exact Quiet.refl s _
  rcases ite_cases h with rfl | ⟨-, h⟩
  · exact Quiet.refl s _
  obtain ⟨⟨d₁, a⟩, hcreate, h⟩ := Option.bind_eq_some_iff.mp h
  have hparent : ∀ p, (if parentLayerId = reservedEntityId then none
      else node.layers.findItem parentLayerId) = some p → p ∈ node.layers.map Prod.snd := by
    intro p hp
    split at hp
    · cases hp
    · exact HashTable.findItem_mem hp
  have hnew : Effect .createLayer d d₁ := Effect.newLayer hnode hparent hcreate
  have hsend : Quiet s (d₁.setState a .creating) d' :=
    foldlM_rel (Quiet.refl s) Quiet.trans (fun _ _ _ _ _ hbody => vsLayerSendCreate_quiet hbody) h
  have hnew : Quiet s d d₁ := hnew.quiet_of_kind (by simp [loudKinds])
  exact hnew.trans ((setState_quiet d₁ a .creating).trans hsend)

theorem vsHandleLayerUnsubscribe_quiet {nodeId layerId : ℕ}
    (h : d.vsHandleLayerUnsubscribe t nodeId layerId = some d') : Quiet s d d' := by
  rcases withNode_cases h with rfl | ⟨n, node, -, -, h⟩
  · exact Quiet.refl s _
  rcases withLayer_cases h with rfl | ⟨a, layer, -, -, h⟩
  · exact Quiet.refl s _
  exact vsLayerUnsubscribe_quiet h

theorem vsHandleLayerSetValue_quiet {nodeId layerId itemId dataType count : ℕ} {value : List UInt8}
    (h : d.vsHandleLayerSetValue t nodeId layerId itemId dataType count value = some d') :
    Quiet s d d' := by
  rcases withNode_cases h with rfl | ⟨n, node, -, -, h⟩
  · exact Quiet.refl s _
  rcases ite_cases h with rfl | ⟨-, h⟩
  · exact Quiet.refl s _
  rcases withLayer_cases h with rfl | ⟨a, layer, -, hlayer, h⟩
  · exact Quiet.refl s _
  rcases ite_cases h with rfl | ⟨-, h⟩
  · exact Quiet.refl s _
  have hvalue : Quiet s d (d.setLayer a (some { layer with
      values := setItem layer.values itemId value })) := setLayer_quiet hlayer rfl
  exact hvalue.trans
    (foldlM_rel (Quiet.refl s) Quiet.trans (fun _ _ _ _ _ hbody => push_quiet hbody) h)

theorem vsLayerUnsetValue_quiet {nodeId itemId fuel : ℕ} {send : Bool}
    (h : vsLayerUnsetValue n nodeId itemId fuel d a send = some d') : Quiet s d d' := by
  induction fuel generalizing d d' a send with
  | zero => cases h
  | succ fuel ih =>
      simp only [vsLayerUnsetValue, Option.bind_eq_bind, Option.bind_eq_some_iff] at h
      obtain ⟨layer, hlayer, h⟩ := h
      rcases ite_cases h with rfl | ⟨-, h⟩
      · exact Quiet.refl s _
      obtain ⟨d₁, hd₁, h⟩ := Option.bind_eq_some_iff.mp h
      have htold : Quiet s d d₁ ∧ d₁.layer = d.layer := by
        refine foldlM_rel (R := fun d d' : VSData => Quiet s d d' ∧ d'.layer = d.layer)
          (fun d => ⟨Quiet.refl s d, rfl⟩) (fun h₁ h₂ => ⟨h₁.1.trans h₂.1, h₂.2.trans h₁.2⟩)
          (fun t x t' _ _ hbody => ⟨push_quiet hbody, ?_⟩) hd₁
        obtain ⟨sub, -, rfl⟩ := push_eq_some.mp hbody
        rfl
      have hlayer₁ : d₁.layer a = some layer := by rw [htold.2, hlayer]
      refine htold.1.trans (Quiet.trans (setLayer_quiet hlayer₁ (by rfl))
        (foldlM_rel (Quiet.refl s) Quiet.trans (fun _ _ _ _ _ hbody => ih hbody) h))

theorem vsHandleLayerUnsetValue_quiet {nodeId layerId itemId : ℕ}
    (h : d.vsHandleLayerUnsetValue t nodeId layerId itemId = some d') : Quiet s d d' := by
  rcases withNode_cases h with rfl | ⟨n, node, -, -, h⟩
  · exact Quiet.refl s _
  rcases ite_cases h with rfl | ⟨-, h⟩
  · exact Quiet.refl s _
  rcases withLayer_cases h with rfl | ⟨a, layer, -, -, h⟩
  · exact Quiet.refl s _
  exact vsLayerUnsetValue_quiet h

/-! ## Acknowledgements -/

theorem vsHandleNodeCreateAck_quiet {nodeId : ℕ} (h : d.vsHandleNodeCreateAck t nodeId = some d') :
    Quiet s d d' := by
  rcases withNode_cases h with rfl | ⟨n, node, -, hnode, h⟩
  · exact Quiet.refl s _
  have hack : Acked .node t n d d' := ⟨createAck_effects rfl (by simp) h⟩
  exact hack.quiet fun hd => hd.not_tag_of_node hnode

theorem vsHandleTaggroupCreateAck_quiet {nodeId taggroupId : ℕ}
    (h : d.vsHandleTaggroupCreateAck t nodeId taggroupId = some d') : Quiet s d d' := by
  rcases withNode_cases h with rfl | ⟨n, node, -, -, h⟩
  · exact Quiet.refl s _
  rcases withTagGroup_cases h with rfl | ⟨g, tg, -, htg, h⟩
  · exact Quiet.refl s _
  have hack : Acked .tagGroup t g d d' := ⟨createAck_effects rfl (by simp) h⟩
  exact hack.quiet fun hd => hd.not_tag_of_tagGroup htg

theorem vsHandleLayerCreateAck_quiet {nodeId layerId : ℕ}
    (h : d.vsHandleLayerCreateAck t nodeId layerId = some d') : Quiet s d d' := by
  rcases withNode_cases h with rfl | ⟨n, node, -, -, h⟩
  · exact Quiet.refl s _
  rcases withLayer_cases h with rfl | ⟨a, layer, -, hlayer, h⟩
  · exact Quiet.refl s _
  have hack : Acked .layer t a d d' := ⟨createAck_effects rfl (by simp) h⟩
  exact hack.quiet fun hd => hd.not_tag_of_layer hlayer

/-! ## Sessions -/

/-- What is known of the sessions changes, but not whether this one uses a stream. -/
theorem quiet_of_session {session : ℕ → SessionInfo}
    (hstream : (session s).stream = (d.session s).stream) : Quiet s d { d with session } := by
  have hsession : Effect .session d { d with session } := Effect.session session
  refine quiet_of_fades hstream fun hd => ⟨hsession.fresh hd.fresh, hsession.contentOwned hd.fresh hd.owned,
    hstream, Nat.le_refl _, fun _ _ => Or.inl rfl, fun a tag' e' htag' he' => Or.inr ⟨htag', e', he', ?_⟩,
    fun g tg' a e f htg' ha _ _ _ _ => ⟨g, tg', htg', ha, id⟩⟩
  exact dims_of_sublist (List.Sublist.refl _)

theorem freeAvatarSubs_quiet {node : VSNode} {wasLocked : Bool} {subs : List ℕ}
    (h : freeAvatarSubs n node t wasLocked d subs = some d') : Quiet s d d' := by
  induction subs generalizing d with
  | nil =>
      obtain rfl := Option.some.inj h
      exact Quiet.refl s _
  | cons r rest ih =>
      simp only [freeAvatarSubs, Option.bind_eq_bind, Option.bind_eq_some_iff] at h
      obtain ⟨sub, -, h⟩ := h
      split at h
      · obtain ⟨d₁, hd₁, h⟩ := Option.bind_eq_some_iff.mp h
        split at h
        · exact (freeSub_quiet hd₁).trans (ih h)
        · obtain rfl := Option.some.inj h
          exact freeSub_quiet hd₁
      · obtain ⟨d₁, hd₁, h⟩ := Option.bind_eq_some_iff.mp h
        exact (pushSome_quiet hd₁).trans (ih h)

theorem vsFreeAvatarReference_quiet {fuel : ℕ} (h : vsFreeAvatarReference t fuel d n = some d') :
    Quiet s d d' := by
  induction fuel generalizing d d' n with
  | zero => cases h
  | succ fuel ih =>
      simp only [vsFreeAvatarReference, Option.bind_eq_bind, Option.bind_eq_some_iff] at h
      obtain ⟨node, -, d₁, hd₁, d₂, hd₂, d₃, hd₃, node₃, hnode₃, h⟩ := h
      have htagGroups : Quiet s d d₁ :=
        foldlM_rel (Quiet.refl s) Quiet.trans
          (fun _ _ _ _ _ hbody => vsTgFreeAvatarReference_quiet hbody) hd₁
      have hlayers : Quiet s d₁ d₂ := by
        refine foldlM_rel (Quiet.refl s) Quiet.trans (fun _ _ _ _ _ hbody => ?_) hd₂
        obtain ⟨t₁, ht₁, hbody⟩ := Option.bind_eq_some_iff.mp hbody
        exact (freeFollower_quiet ht₁).trans (vsLayerUnsubscribe_quiet hbody)
      have hchildren : Quiet s d₂ d₃ := by
        refine foldlM_rel (Quiet.refl s) Quiet.trans (fun _ _ _ _ _ hbody => ?_) hd₃
        obtain ⟨link, -, hbody⟩ := Option.bind_eq_some_iff.mp hbody
        obtain ⟨t₁, ht₁, hbody⟩ := Option.bind_eq_some_iff.mp hbody
        exact (ih ht₁).trans (freeFollower_quiet hbody)
      have hunlock : Quiet s d₃ (d₃.setNode n (some { node₃ with
          lock := if node₃.lock == some t then none else node₃.lock })) := by
        refine modifyNode_quiet (n := n) (f := fun node => { node with
          lock := if node.lock == some t then none else node.lock }) ?_ fun _ => ⟨rfl, rfl⟩
        rw [modifyNode, hnode₃]
        rfl
      exact htagGroups.trans (hlayers.trans (hchildren.trans (hunlock.trans (freeAvatarSubs_quiet h))))

theorem disconnect_quiet (h : d.disconnect t = some d') : Quiet s d d' := by
  simp only [disconnect, Option.bind_eq_bind, Option.bind_eq_some_iff] at h
  obtain ⟨d₁, hd₁, d₂, hd₂, h⟩ := h
  have hfree : Quiet s d d₁ := by
    unfold vsNodeFreeAvatarReference at hd₁
    split at hd₁
    · obtain rfl := Option.some.inj hd₁
      exact Quiet.refl s _
    · exact vsFreeAvatarReference_quiet hd₁
  have hdestroy : Quiet s d₁ d₂ :=
    (vsNodeDestroyAvatarNode_effects hd₂).quiet_of_kinds (by simp [loudKinds])
  obtain rfl := Option.some.inj h
  refine hfree.trans (hdestroy.trans (quiet_of_session ?_))
  by_cases hst : s = t
  · subst hst
    rw [Function.update_self]
  · rw [Function.update_of_ne hst]

/-- The tags of the nodes that the server makes for a client are new when they get their
values. -/
theorem createSysTag_quiet {g dataType customType : ℕ} {value : List UInt8}
    (h : d.createSysTag g dataType customType value = some d') : Quiet s d d' := by
  simp only [createSysTag, Option.bind_eq_bind, Option.bind_eq_some_iff] at h
  obtain ⟨⟨d₁, a⟩, hcreate, tag, htag, h⟩ := h
  obtain rfl := Option.some.inj h
  have hcreated : Effect .create d d₁ := Effect.newTag hcreate
  have hnew : Quiet s d d₁ := hcreated.quiet_of_kind (by simp [loudKinds])
  have hentity : d₁.entity a = some ⟨.reserved, []⟩ := by
    obtain ⟨tg, id, tag', -, -, rfl, rfl⟩ := vsTagCreate_eq hcreate
    exact Function.update_self _ _ _
  refine hnew.trans (Quiet.trans (setTag_quiet htag fun e he => ?_) (setState_quiet _ a .created))
  rw [← Option.some.inj (hentity.symm.trans he)]

theorem elim_createSysTag_quiet {g dataType customType : ℕ} {value : Option (List UInt8)}
    (h : value.elim (pure d) (d.createSysTag g dataType customType) = some d') : Quiet s d d' := by
  cases value with
  | none =>
      obtain rfl := Option.some.inj h
      exact Quiet.refl s _
  | some value => exact createSysTag_quiet h

theorem vsCreateClientInfoNode_quiet {heap avatar : ℕ} {info : ClientInfo}
    (h : d.vsCreateClientInfoNode heap avatar info = some d') : Quiet s d d' := by
  simp only [vsCreateClientInfoNode, Option.bind_eq_bind, Option.bind_eq_some_iff] at h
  obtain ⟨⟨d₁, created⟩, hcreate, h⟩ := h
  have hnew : Quiet s d d₁ := vsNodeCreateLinked_quiet hcreate
  cases created with
  | none =>
      obtain rfl := Option.some.inj h
      exact hnew
  | some n =>
      obtain ⟨d₂, hd₂, h⟩ := Option.bind_eq_some_iff.mp h
      obtain ⟨⟨d₃, tg⟩, hd₃, h⟩ := Option.bind_eq_some_iff.mp h
      have hperm : Quiet s d₁ d₂ := modifyNode_quiet hd₂ fun _ => ⟨rfl, rfl⟩
      have hsofar : Quiet s d d₃ := hnew.trans (hperm.trans
        ((setState_quiet d₂ n .created).trans (vsTaggroupCreate_quiet hd₃)))
      cases tg with
      | none =>
          obtain rfl := Option.some.inj h
          exact hsofar
      | some g =>
          obtain ⟨d₄, hd₄, h⟩ := Option.bind_eq_some_iff.mp h
          obtain ⟨d₅, hd₅, h⟩ := Option.bind_eq_some_iff.mp h
          obtain ⟨d₆, hd₆, h⟩ := Option.bind_eq_some_iff.mp h
          exact hsofar.trans ((setState_quiet d₃ g .created).trans ((createSysTag_quiet hd₄).trans
            ((createSysTag_quiet hd₅).trans ((elim_createSysTag_quiet hd₆).trans
              (elim_createSysTag_quiet h)))))

theorem vsCreateAvatarNode_quiet {heap heap' userId : ℕ} {info : ClientInfo} {created : Option ℕ}
    (h : d.vsCreateAvatarNode heap heap' userId info = some (d', created)) : Quiet s d d' := by
  unfold vsCreateAvatarNode at h
  split at h
  · obtain ⟨rfl, -⟩ := Prod.mk.inj (Option.some.inj h)
    exact Quiet.refl s _
  obtain ⟨⟨d₁, avatar⟩, hcreate, h⟩ := Option.bind_eq_some_iff.mp h
  have hnew : Quiet s d d₁ := vsNodeCreateLinked_quiet hcreate
  cases avatar with
  | none =>
      obtain ⟨rfl, -⟩ := Prod.mk.inj (Option.some.inj h)
      exact hnew
  | some n =>
      obtain ⟨d₂, hd₂, h⟩ := Option.bind_eq_some_iff.mp h
      obtain ⟨d₃, hd₃, h⟩ := Option.bind_eq_some_iff.mp h
      obtain ⟨pnode, -, h⟩ := Option.bind_eq_some_iff.mp h
      obtain ⟨d₄, hd₄, h⟩ := Option.bind_eq_some_iff.mp h
      obtain ⟨rfl, -⟩ := Prod.mk.inj (Option.some.inj h)
      have hperm : Quiet s d₁ d₂ := modifyNode_quiet hd₂ fun _ => ⟨rfl, rfl⟩
      have hsend := foldlM_rel (Quiet.refl s) Quiet.trans
        (fun _ _ _ _ _ hbody => vsNodeSendCreate_quiet hbody) hd₄
      exact hnew.trans (hperm.trans ((vsCreateClientInfoNode_quiet hd₃).trans
        ((setState_quiet d₃ n _).trans hsend)))

/-- Another session logs in. -/
theorem login_quiet {heap heap' userId : ℕ} {stream : Bool} {info : ClientInfo} (hst : s ≠ t)
    (h : d.login t heap heap' userId stream info = some d') : Quiet s d d' := by
  obtain ⟨⟨d₁, created⟩, hcreate, h⟩ := Option.bind_eq_some_iff.mp h
  have hnew : Quiet s d d₁ := vsCreateAvatarNode_quiet hcreate
  simp only at h
  split at h
  · obtain ⟨node, -, h⟩ := Option.bind_eq_some_iff.mp h
    obtain rfl := Option.some.inj h
    exact hnew.trans (quiet_of_session (by rw [Function.update_of_ne hst]))
  · obtain rfl := Option.some.inj h
    exact hnew

/-! ## Events -/

/-- **Quiet events.** -/
theorem step_quiet {event : NodeEvent} (hfresh : d.Fresh) (hlogin : ¬ event.LogsIn s)
    (hevent : ¬ event.OfTags) (hstep : d.step event = some d') : Quiet s d d' := by
  have hkinds : (∀ k ∈ event.kinds, k ∉ loudKinds) → Quiet s d d' :=
    fun h => (step_effects hfresh hstep).quiet_of_kinds h
  cases event with
  | login t heap heap' userId stream info =>
      simp only [step] at hstep
      split at hstep
      · obtain rfl := Option.some.inj hstep
        exact Quiet.refl s _
      · exact login_quiet (fun hst => hlogin hst.symm) hstep
  | disconnect t =>
      rcases ite_cases hstep with rfl | ⟨-, h⟩
      · exact Quiet.refl s _
      · exact disconnect_quiet h
  | command t cmd =>
      rcases ite_cases hstep with rfl | ⟨-, h⟩
      · exact Quiet.refl s _
      cases cmd with
      | nodeCreate => exact vsHandleNodeCreate_quiet h
      | nodeCreateAck => exact vsHandleNodeCreateAck_quiet h
      | nodeSubscribe => exact vsHandleNodeSubscribe_quiet h
      | nodeUnsubscribe => exact vsHandleNodeUnsubscribe_quiet h
      | nodeLink => exact vsHandleLinkChange_quiet h
      | nodePerm => exact vsHandleNodePerm_quiet h
      | taggroupCreate => exact vsHandleTaggroupCreate_quiet h
      | taggroupCreateAck => exact vsHandleTaggroupCreateAck_quiet h
      | taggroupUnsubscribe => exact vsHandleTaggroupUnsubscribe_quiet h
      | layerCreate => exact vsHandleLayerCreate_quiet h
      | layerCreateAck => exact vsHandleLayerCreateAck_quiet h
      | layerUnsubscribe => exact vsHandleLayerUnsubscribe_quiet h
      | layerSetValue => exact vsHandleLayerSetValue_quiet h
      | layerUnsetValue => exact vsHandleLayerUnsetValue_quiet h
      | tagSet | tagCreate | tagCreateAck | taggroupSubscribe => exact absurd trivial hevent
      | _ => exact hkinds (by simp [NodeEvent.kinds, NodeCmd.kinds, loudKinds])

end VSData

end Verse
