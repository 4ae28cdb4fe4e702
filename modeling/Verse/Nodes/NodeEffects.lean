import Verse.Nodes.ContentEffects

/-!
# Changes made by the handlers of nodes

For every function of `vs_node.c`, `vs_link.c` and `vs_node_access.c`: which kinds of
changes it consists of.
-/

namespace Verse

open Lib

namespace VSData

variable {d d' : VSData} {n r s a : ℕ}

/-! ## Nodes -/

section Nodes

variable {nodeId p l : ℕ} {node pnode : VSNode} {link : VSLink}

/-- A subscriber of a node is told about a child node. -/
theorem vsNodeSendCreate_sends {avatar : Option ℕ} (hpnode : d.node p = some pnode)
    (hl : l ∈ pnode.childrenLinks) (hlink : d.link l = some link) (hchild : link.child = a)
    (hr : r ∈ pnode.nodeSubs) (h : d.vsNodeSendCreate r a avatar p = some d') :
    Effects sends d d' := by
  simp only [vsNodeSendCreate, Option.bind_eq_bind, Option.bind_eq_some_iff] at h
  obtain ⟨node, -, h⟩ := h
  refine sendCreate_sends ?_ (fun _ hstate => hstate) ?_ (informed_of_nodeSubs hpnode hr) h
  · intro c hc
    obtain ⟨parent, -, hc⟩ := Option.bind_eq_some_iff.mp hc
    obtain ⟨pnode, -, hc⟩ := Option.bind_eq_some_iff.mp hc
    rw [← Option.some.inj hc]
    rfl
  exact Or.inl ⟨p, pnode, l, link, hpnode, hl, hlink, hchild, hr⟩

theorem vsNodeSendData_sends (hnode : d.node n = some node) (hr : r ∈ node.nodeSubs)
    (h : d.vsNodeSendData n r = some d') : Effects sends d d' := by
  simp only [vsNodeSendData, Option.bind_eq_bind, Option.bind_eq_some_iff] at h
  obtain ⟨node₁, hnode₁, d₁, hd₁, d₂, hd₂, h⟩ := h
  obtain rfl := Option.some.inj (hnode.symm.trans hnode₁)
  have hchildren : Effects sends d d₁ := by
    refine foldlM_sends (fun t l t' hl ht hbody => ?_) hd₁
    obtain ⟨link, hlink, hbody⟩ := Option.bind_eq_some_iff.mp hbody
    have hnode' : t.node n = some node := by
      rw [ht]
      exact hnode
    exact vsNodeSendCreate_sends hnode' hl hlink rfl hr hbody
  have hnode_d₁ : d₁.node n = some node := by
    rw [hchildren.sends_kept]
    exact hnode
  have htagGroups : Effects sends d₁ d₂ := by
    refine foldlM_sends (fun t b t' hb ht hbody => ?_) hd₂
    have hnode' : t.node n = some node := by
      rw [ht]
      exact hnode_d₁
    exact vsTaggroupSendCreate_sends hnode' (List.mem_map_of_mem hb) hr hbody
  have hnode_d₂ : d₂.node n = some node := by
    rw [htagGroups.sends_kept]
    exact hnode_d₁
  refine hchildren.trans (htagGroups.trans (foldlM_sends (fun t b t' hb ht hbody => ?_) h))
  have hnode' : t.node n = some node := by
    rw [ht]
    exact hnode_d₂
  exact vsLayerSendCreate_sends hnode' (List.mem_map_of_mem hb) hr hbody

theorem modifyNode_eq_some {f : VSNode → VSNode} (h : d.modifyNode n f = some d') :
    ∃ node, d.node n = some node ∧ d' = d.setNode n (some (f node)) := by
  obtain ⟨node, hnode, rfl⟩ := Option.map_eq_some_iff.mp h
  exact ⟨node, hnode, rfl⟩

theorem vsNodeNew_effects {heap type : ℕ} (hfresh : d.Fresh)
    (h : d.vsNodeNew s heap type = some d') :
    Effects {.newNode, .mark, .permit, .push, .follow} d d' := by
  unfold vsNodeNew at h
  split at h
  · obtain rfl := Option.some.inj h
    exact Effects.refl _
  rename_i p _
  obtain ⟨⟨d₁, created⟩, hcreate, h⟩ := Option.bind_eq_some_iff.mp h
  rcases vsNodeCreateLinked_eq hcreate with
    ⟨rfl, rfl⟩ | ⟨id, last, d₀, -, -, hd₀, rfl, hd₁⟩
  · obtain rfl := Option.some.inj h
    exact Effects.refl _
  have hnew : Effect .newNode d d₁ := Effect.newNode hcreate
  have hmark : d₁.entity d.next = some ⟨.reserved, []⟩ →
      Effect .mark d₁ (d₁.setState d.next .creating) := fun he => Effect.mark he rfl
  rcases createLinked_eq hd₀ with ⟨hnone, -⟩ | ⟨p', pnode, hp', hpnode, rfl⟩
  · cases hnone
  obtain rfl := Option.some.inj hp'
  subst hd₁
  have hne : p ≠ d.next := Nat.ne_of_lt (hfresh.node_lt hpnode)
  obtain ⟨d₂, hd₂, h⟩ := Option.bind_eq_some_iff.mp h
  obtain ⟨node₂, hnode₂, rfl⟩ := modifyNode_eq_some hd₂
  obtain ⟨pnode', hpnode', h⟩ := Option.bind_eq_some_iff.mp h
  have hunlocked : node₂.lock = none := by
    have hnew₂ := hnode₂
    simp only [setState, setEntity, Function.update_self] at hnew₂
    rw [← Option.some.inj hnew₂]
    rfl
  have hpnode₂ : pnode' = { pnode with childrenLinks := pnode.childrenLinks ++ [d.next + 1] } := by
    simpa [setNode, setState, setEntity, Function.update_of_ne hne] using hpnode'.symm
  subst hpnode₂
  refine (hnew.effects (Or.inl rfl)).trans (((hmark (Function.update_self _ _ _)).effects
    (Or.inr (Or.inl rfl))).trans (((Effect.permit hnode₂ hunlocked).effects (Or.inr (Or.inr (Or.inl rfl)))).trans
      (Effects.mono (fun _ hk => Or.inr (Or.inr (Or.inr hk)))
        (foldlM_sends (fun t x t' hx ht hbody => ?_) h))))
  · have hp : t.node p = some { pnode with childrenLinks := pnode.childrenLinks ++ [d.next + 1] } := by
      rw [ht]
      exact hpnode'
    have hl : t.link (d.next + 1) = some ⟨p, d.next⟩ := by
      rw [ht]
      exact Function.update_self _ _ _
    exact vsNodeSendCreate_sends hp (by simp) hl rfl hx hbody

theorem vsHandleNodeCreate_effects {heap userId parentId customType : ℕ} (hfresh : d.Fresh)
    (h : d.vsHandleNodeCreate s heap userId parentId nodeId customType = some d') :
    Effects {.newNode, .mark, .permit, .push, .follow} d d' := by
  rcases ite_cases h with rfl | ⟨-, h⟩
  · exact Effects.refl _
  exact vsNodeNew_effects hfresh h

theorem vsHandleNodeCreateAck_acked (h : d.vsHandleNodeCreateAck s nodeId = some d') :
    d' = d ∨ ∃ n, d.vsNodeFind nodeId = some n ∧ Acked .node s n d d' := by
  rcases withNode_cases h with rfl | ⟨n, node, hn, -, h⟩
  · exact Or.inl rfl
  exact Or.inr ⟨n, hn, ⟨createAck_effects rfl (by simp) h⟩⟩

/-- The followers of a node that is used, or that has followers, are told that it is
destroyed, unless one of its child nodes is created. -/
theorem vsNodeSendDestroy_effects
    (hlive : ∀ e, d.entity n = some e → e.state.isCreated ∨ e.folls ≠ [])
    (h : d.vsNodeSendDestroy n = some d') : Effects {.push, .tell} d d' := by
  simp only [vsNodeSendDestroy, Option.bind_eq_bind, Option.bind_eq_some_iff] at h
  obtain ⟨node, hnode, children, hchildren, h⟩ := h
  split at h
  · obtain rfl := Option.some.inj h
    exact Effects.refl _
  · rename_i hnone
    refine sendDestroy_effects rfl (fun d₁ e hkept he he₁ => ?_) h
    have hnode₁ : d₁.node n = some node := by
      rw [hkept]
      exact hnode
    refine Effect.tellNode hnode₁ he₁ (hlive e he) fun l hl link hlink => ?_
    rw [hkept] at hlink ⊢
    have hlink : d.link l = some link := hlink
    obtain ⟨c, hc, hlinkc⟩ := mem_of_mapM_eq_some hchildren hl
    obtain rfl : link.child = c := by simpa [hlink] using hlinkc
    have hnotcreated : d.isCreated link.child = false := by
      simpa using (List.any_eq_false.mp (Bool.eq_false_iff.mpr hnone)) _ hc
    exact hnotcreated

theorem vsNodeDestroyBranch_effects {fuel : ℕ} (h : vsNodeDestroyBranch fuel d n = some d') :
    Effects {.push, .tell, .removeNode} d d' := by
  induction fuel generalizing d d' n with
  | zero => cases h
  | succ fuel ih =>
      simp only [vsNodeDestroyBranch, Option.bind_eq_bind, Option.bind_eq_some_iff] at h
      obtain ⟨node, -, d₁, hd₁, e, he, h⟩ := h
      have hchildren : Effects {.push, .tell, .removeNode} d d₁ := by
        refine foldlM_rel Effects.refl Effects.trans (fun t l t' _ _ hbody => ?_) hd₁
        obtain ⟨link, -, hbody⟩ := Option.bind_eq_some_iff.mp hbody
        exact ih hbody
      refine hchildren.trans ?_
      split at h
      · exact (Effect.removeNode h).effects (Or.inr (Or.inr rfl))
      · rename_i hfolls
        refine (vsNodeSendDestroy_effects (fun e' he' => Or.inr ?_) h).mono fun k hk => ?_
        · obtain rfl := Option.some.inj (he.symm.trans he')
          exact hfolls
        · rcases hk with rfl | rfl
          · exact Or.inl rfl
          · exact Or.inr (Or.inl rfl)

theorem vsHandleNodeDestroyAck_effects (h : d.vsHandleNodeDestroyAck s nodeId = some d') :
    Effects {.drop, .dropNode} d d' := by
  rcases withNode_cases h with rfl | ⟨n, node, -, hnode, h⟩
  · exact Effects.refl _
  obtain ⟨e, e', he, hack, ⟨hempty, h⟩ | ⟨hfolls, rfl⟩⟩ := destroyAck_cases h
  · exact (Effect.dropNode hnode he hack hempty h).effects (Or.inr rfl)
  · exact (Effect.drop he hack hfolls).effects (Or.inl rfl)

theorem vsHandleNodeDestroy_effects (h : d.vsHandleNodeDestroy s nodeId = some d') :
    Effects {.push, .tell} d d' := by
  rcases withNode_cases h with rfl | ⟨n, node, -, -, h⟩
  · exact Effects.refl _
  rcases ite_cases h with rfl | ⟨⟨hcreated, -⟩, h⟩
  · exact Effects.refl _
  refine vsNodeSendDestroy_effects (fun e he => Or.inl ?_) h
  rw [isCreated, he] at hcreated
  exact hcreated

/-! ### Subscribing -/

/-- Behind the new subscriber, `vs_node_subscribe` only sends. -/
theorem vsNodeSubscribe_sends (hnode : d.node n = some node) (h : d.vsNodeSubscribe s n = some d') :
    Effects sends ((({ d with next := d.next + 1 }).setSub d.next
      (some ⟨s, defaultSubscriberPrio⟩)).setNode n
        (some { node with nodeSubs := node.nodeSubs ++ [d.next] })) d' := by
  simp only [vsNodeSubscribe, Option.bind_eq_bind, Option.bind_eq_some_iff] at h
  obtain ⟨node₁, hnode₁, d₁, hd₁, d₂, hd₂, h⟩ := h
  obtain rfl := Option.some.inj (hnode.symm.trans hnode₁)
  have hlock := pushSome_pushes (fun c hc => by
    obtain ⟨locker, -, rfl⟩ := Option.map_eq_some_iff.mp hc
    rfl) hd₁
  have hperms : Effects pushes d₁ d₂ :=
    foldlM_pushes (fun t x t' _ _ hbody => push_pushes rfl hbody) hd₂
  refine (hlock.trans hperms).sends_of_pushes.trans ?_
  split at h
  · have hnode₂ : d₂.node n = some { node with nodeSubs := node.nodeSubs ++ [d.next] } := by
      rw [(hlock.trans hperms).pushes_kept]
      exact Function.update_self _ _ _
    exact vsNodeSendData_sends hnode₂ (by simp) h
  · obtain rfl := Option.some.inj h
    exact Effects.refl _

theorem vsNodeSubscribe_effects (h : d.vsNodeSubscribe s n = some d') :
    Effects {.subscribe s, .push, .follow} d d' := by
  obtain ⟨node, hnode, -⟩ := Option.bind_eq_some_iff.mp h
  exact ((Effect.subscribe (s := s) hnode).effects (Or.inl rfl)).trans
    (Effects.mono (fun _ hk => Or.inr hk) (vsNodeSubscribe_sends hnode h))

theorem vsHandleNodeSubscribe_effects (h : d.vsHandleNodeSubscribe s nodeId = some d') :
    Effects {.subscribe s, .push, .follow} d d' := by
  rcases withNode_cases h with rfl | ⟨n, node, -, -, h⟩
  · exact Effects.refl _
  rcases ite_cases h with rfl | ⟨-, h⟩
  · exact Effects.refl _
  obtain ⟨found, -, h⟩ := Option.bind_eq_some_iff.mp h
  split at h
  · obtain rfl := Option.some.inj h
    exact Effects.refl _
  · exact vsNodeSubscribe_effects h

theorem freeSub_eq_some (h : d.freeSub n r = some d') :
    ∃ sub node, d.sub r = some sub ∧ d.node n = some node ∧
      d' = (d.setNode n (some { node with nodeSubs := node.nodeSubs.erase r })).setSub r none := by
  simp only [freeSub, Option.bind_eq_bind, Option.bind_eq_some_iff] at h
  obtain ⟨sub, hsub, d₁, hd₁, h⟩ := h
  obtain ⟨node, hnode, rfl⟩ := modifyNode_eq_some hd₁
  exact ⟨sub, node, hsub, hnode, (Option.some.inj h).symm⟩

/-- A subscriber keeps its session until it is freed. -/
theorem Effects.leaves_subSession (h : Effects (leaves s) d d') (r : ℕ) :
    d'.subSession r = d.subSession r ∨ d'.subSession r = none := by
  refine h.rel (R := fun d d' => d'.subSession r = d.subSession r ∨ d'.subSession r = none)
    (fun _ => Or.inl rfl) (fun h₁ h₂ => ?_) fun k d d' hk he => ?_
  · rcases h₂ with h₂ | h₂
    · rw [h₂]
      exact h₁
    · exact Or.inr h₂
  · rcases hk with rfl | rfl | rfl
    · cases he with
      | unfollow h =>
          obtain ⟨e, -, rfl⟩ := freeFollower_eq_some h
          exact Or.inl rfl
    · cases he <;> exact Or.inl rfl
    · cases he with
      | freeSub hr h =>
          rename_i n r'
          obtain ⟨sub, node, -, -, rfl⟩ := freeSub_eq_some h
          by_cases hrr : r = r'
          · subst hrr
            exact Or.inr (by simp [subSession, setSub])
          · exact Or.inl (by simp [subSession, setSub, setNode, Function.update_of_ne hrr])

theorem subSession_of_sub {sub : VSNodeSubscriber} (hsub : d.sub r = some sub) :
    d.subSession r = some sub.session := by
  simp [subSession, hsub]

/-- A subscriber that is freed after some of what belongs to the session is removed is
still the session's. -/
theorem freeSub_leaves {d₁ : VSData} (hs : d.subSession r = some s)
    (hleaves : Effects (leaves s) d d₁) (h : d₁.freeSub n r = some d') :
    Effects (leaves s) d₁ d' := by
  obtain ⟨sub, node, hsub, -, -⟩ := freeSub_eq_some h
  have hs₁ : d₁.subSession r = some s := by
    rcases hleaves.leaves_subSession r with hsame | hnone
    · rw [hsame, hs]
    · rw [subSession_of_sub hsub] at hnone
      cases hnone
  exact (Effect.freeSub hs₁ h).effects (Or.inr (Or.inr rfl))

theorem freeFollowerBelow_detaches {below : Bool}
    (h : d.freeFollowerBelow below n s = some d') : Effects (detaches s) d d' := by
  rcases ite_cases h with rfl | ⟨-, h⟩
  · exact Effects.refl _
  · exact freeFollower_detaches h

/-- The client leaves the child nodes it is subscribed to, then the tag groups and layers of the
node, and then the node. -/
theorem vsNodeUnsubscribe_cases {fuel : ℕ} {below : Bool}
    (h : vsNodeUnsubscribe (fuel + 1) d n r below = some d') :
    ∃ (node : VSNode) (sub : VSNodeSubscriber) (d₁ d₂ : VSData), d.node n = some node ∧
      d.sub r = some sub ∧
      node.childrenLinks.foldlM (fun d l => do
        let link ← d.link l
        let child ← d.node link.child
        let found ← d.findSub sub.session child.nodeSubs
        match found with
        | none => pure d
        | some r' => vsNodeUnsubscribe fuel d link.child r' true) d = some d₁ ∧
      Effects (detaches sub.session) d₁ d₂ ∧ d₂.freeSub n r = some d' := by
  simp only [vsNodeUnsubscribe, Option.bind_eq_bind, Option.bind_eq_some_iff] at h
  obtain ⟨node, hnode, sub, hsub, d₁, hd₁, d₂, hd₂, d₃, hd₃, d₄, hd₄, h⟩ := h
  refine ⟨node, sub, d₁, d₄, hnode, hsub, hd₁, ?_, h⟩
  have htagGroups : Effects (detaches sub.session) d₁ d₂ := by
    refine foldlM_rel Effects.refl Effects.trans (fun t b t' _ _ hbody => ?_) hd₂
    obtain ⟨t₁, ht₁, hbody⟩ := Option.bind_eq_some_iff.mp hbody
    exact (vsTaggroupUnsubscribe_detaches ht₁).trans (freeFollower_detaches hbody)
  have hlayers : Effects (detaches sub.session) d₂ d₃ := by
    refine foldlM_rel Effects.refl Effects.trans (fun t b t' _ _ hbody => ?_) hd₃
    obtain ⟨t₁, ht₁, hbody⟩ := Option.bind_eq_some_iff.mp hbody
    exact (vsLayerUnsubscribe_detaches ht₁).trans (freeFollower_detaches hbody)
  exact htagGroups.trans (hlayers.trans (freeFollowerBelow_detaches hd₄))

theorem vsNodeUnsubscribe_leaves {fuel : ℕ} {below : Bool} (hs : d.subSession r = some s)
    (h : vsNodeUnsubscribe fuel d n r below = some d') : Effects (leaves s) d d' := by
  induction fuel generalizing d d' n r below with
  | zero => cases h
  | succ fuel ih =>
      obtain ⟨node, sub, d₁, d₂, -, hsub, hloop, hdetaches, h⟩ := vsNodeUnsubscribe_cases h
      obtain rfl : sub.session = s := by
        rw [subSession_of_sub hsub] at hs
        exact Option.some.inj hs
      have hchildren : Effects (leaves sub.session) d d₁ := by
        refine foldlM_rel Effects.refl Effects.trans (fun t l t' _ _ hbody => ?_) hloop
        obtain ⟨link, -, hbody⟩ := Option.bind_eq_some_iff.mp hbody
        obtain ⟨child, -, hbody⟩ := Option.bind_eq_some_iff.mp hbody
        obtain ⟨found, hfound, hbody⟩ := Option.bind_eq_some_iff.mp hbody
        cases found with
        | none =>
            obtain rfl := Option.some.inj hbody
            exact Effects.refl _
        | some r' => exact ih (findSub_some hfound).2 hbody
      have hall := hchildren.trans hdetaches.leaves_of_detaches
      exact hall.trans (freeSub_leaves hs hall h)

theorem vsHandleNodeUnsubscribe_leaves (h : d.vsHandleNodeUnsubscribe s nodeId = some d') :
    Effects (leaves s) d d' := by
  rcases withNode_cases h with rfl | ⟨n, node, -, -, h⟩
  · exact Effects.refl _
  rcases ite_cases h with rfl | ⟨-, h⟩
  · exact Effects.refl _
  obtain ⟨found, hfound, h⟩ := Option.bind_eq_some_iff.mp h
  cases found with
  | none =>
      obtain rfl := Option.some.inj h
      exact Effects.refl _
  | some r => exact vsNodeUnsubscribe_leaves (findSub_some hfound).2 h

theorem vsNodePrio_effects {prio fuel : ℕ} (h : vsNodePrio s prio fuel d n = some d') :
    Effects {.prio} d d' := by
  induction fuel generalizing d d' n with
  | zero => cases h
  | succ fuel ih =>
      simp only [vsNodePrio, Option.bind_eq_bind, Option.bind_eq_some_iff] at h
      obtain ⟨node, -, found, -, h⟩ := h
      cases found with
      | none =>
          obtain rfl := Option.some.inj h
          exact Effects.refl _
      | some r =>
          have hset : Effects {.prio} d (d.setSubPrio r prio) := Effect.prio.effects rfl
          refine hset.trans
            (foldlM_rel Effects.refl Effects.trans (fun t l t' _ _ hbody => ?_) h)
          obtain ⟨link, -, hbody⟩ := Option.bind_eq_some_iff.mp hbody
          exact ih hbody

theorem vsHandleNodePrio_effects {prio : ℕ} (h : d.vsHandleNodePrio s prio nodeId = some d') :
    Effects {.prio} d d' := by
  rcases withNode_cases h with rfl | ⟨n, node, -, -, h⟩
  · exact Effects.refl _
  rcases ite_cases h with rfl | ⟨-, h⟩
  · exact Effects.refl _
  exact vsNodePrio_effects h

/-! ### Access -/

theorem vsHandleNodeUnlock_effects {avatarId : ℕ}
    (h : d.vsHandleNodeUnlock s avatarId nodeId = some d') : Effects {.lock s, .push} d d' := by
  rcases withNode_cases h with rfl | ⟨n, node, -, hnode, h⟩
  · exact Effects.refl _
  rcases ite_cases h with rfl | ⟨⟨-, -, hlock⟩, h⟩
  · exact Effects.refl _
  exact ((Effect.lock hnode (Or.inr (Or.inl ⟨hlock, rfl⟩))).effects (Or.inl rfl)).trans (Effects.mono
    (fun _ hk => Or.inr hk) (foldlM_pushes (fun t x t' _ _ hbody => push_pushes rfl hbody) h))

theorem vsHandleNodeLock_effects {avatarId : ℕ}
    (h : d.vsHandleNodeLock s avatarId nodeId = some d') : Effects {.lock s, .push} d d' := by
  rcases withNode_cases h with rfl | ⟨n, node, -, hnode, h⟩
  · exact Effects.refl _
  rcases ite_cases h with rfl | ⟨⟨-, hwrite, hlock⟩, h⟩
  · exact Effects.refl _
  exact ((Effect.lock hnode (Or.inr (Or.inr ⟨hlock, rfl, hwrite⟩))).effects (Or.inl rfl)).trans (Effects.mono
    (fun _ hk => Or.inr hk) (foldlM_pushes (fun t x t' _ _ hbody => push_pushes rfl hbody) h))

theorem vsHandleNodeOwner_effects {userId : ℕ}
    (h : d.vsHandleNodeOwner s userId nodeId = some d') : Effects {.owner, .push} d d' := by
  rcases withNode_cases h with rfl | ⟨n, node, -, hnode, h⟩
  · exact Effects.refl _
  rcases ite_cases h with rfl | ⟨-, h⟩
  · exact Effects.refl _
  split at h
  · obtain rfl := Option.some.inj h
    exact Effects.refl _
  split at h
  · obtain rfl := Option.some.inj h
    exact Effects.refl _
  obtain ⟨e, -, h⟩ := Option.bind_eq_some_iff.mp h
  exact ((Effect.owner hnode).effects (Or.inl rfl)).trans (Effects.mono
    (fun _ hk => Or.inr hk) (foldlM_pushes (fun t x t' _ _ hbody => push_pushes rfl hbody) h))

/-- Changing the permissions leaves the rest of the node, but for the lock of a client that
cannot write it any more. -/
theorem permittedNode_eq (node : VSNode) (user permissions : ℕ) :
    ∃ perms lock, d.permittedNode node user permissions =
        { node with permissions := perms, lock := lock } ∧
      ((lock = node.lock ∧
          ∀ s, lock = some s → d.vsNodeCanWrite s { node with permissions := perms }) ∨
        (lock = none ∧ ∃ s, node.lock = some s ∧
          d.vsNodeCanWrite s { node with permissions := perms } = false)) := by
  simp only [permittedNode]
  split
  · rename_i hlost
    refine ⟨_, _, rfl, Or.inr ⟨rfl, ?_⟩⟩
    obtain ⟨s, hs, hwrite⟩ := (Option.any_eq_true _ _).mp hlost
    have hwrite : d.vsNodeCanWrite s (vsNodeSetPerm node user permissions) = false := by
      simpa using hwrite
    exact ⟨s, hs, hwrite⟩
  · rename_i hkept
    refine ⟨_, _, rfl, Or.inl ⟨rfl, fun s hs => ?_⟩⟩
    have hlock : (vsNodeSetPerm node user permissions).lock = some s := hs
    rw [hlock] at hkept
    have hwrite : d.vsNodeCanWrite s (vsNodeSetPerm node user permissions) = true := by
      simpa using hkept
    exact hwrite

/-- The permissions of the node change, and some subscribers are sent its data. -/
theorem vsHandleNodePerm_cases {userId permissions : ℕ}
    (h : d.vsHandleNodePerm s userId permissions nodeId = some d') :
    d' = d ∨ ∃ n node perms lock, d.node n = some node ∧
      ((lock = node.lock ∧
          ∀ t, lock = some t → d.vsNodeCanWrite t { node with permissions := perms }) ∨
        (lock = none ∧ ∃ t, node.lock = some t ∧
          d.vsNodeCanWrite t { node with permissions := perms } = false)) ∧
      Effects sends (d.setNode n (some { node with permissions := perms, lock := lock })) d' := by
  rcases withNode_cases h with rfl | ⟨n, node, -, hnode, h⟩
  · exact Or.inl rfl
  split at h
  · exact Or.inl (Option.some.inj h).symm
  rename_i user _
  rcases ite_cases h with rfl | ⟨-, h⟩
  · exact Or.inl rfl
  obtain ⟨perms, lock, hperm, hlock⟩ := permittedNode_eq (d := d) node user permissions
  simp only [hperm] at h
  refine Or.inr ⟨n, node, perms, lock, hnode, hlock, foldlM_sends (fun t x t' hx ht hbody => ?_) h⟩
  obtain ⟨t₁, ht₁, hbody⟩ := Option.bind_eq_some_iff.mp hbody
  obtain ⟨t₂, ht₂, hbody⟩ := Option.bind_eq_some_iff.mp hbody
  obtain ⟨sub, -, hbody⟩ := Option.bind_eq_some_iff.mp hbody
  have hperms : Effects pushes t t₁ := push_pushes rfl ht₁
  have hunlock : Effects pushes t₁ t₂ := by
    apply pushSome_pushes _ ht₂
    intro c hc
    obtain ⟨locker, -, rfl⟩ := Option.map_eq_some_iff.mp hc
    rfl
  refine (hperms.trans hunlock).sends_of_pushes.trans ?_
  split at hbody
  · have hnode₂ : t₂.node n = some { node with permissions := perms, lock := lock } := by
      rw [(hperms.trans hunlock).pushes_kept, ht]
      exact Function.update_self _ _ _
    exact vsNodeSendData_sends hnode₂ hx hbody
  · obtain rfl := Option.some.inj hbody
    exact Effects.refl _

theorem vsHandleNodePerm_effects {userId permissions : ℕ}
    (h : d.vsHandleNodePerm s userId permissions nodeId = some d') :
    Effects {.access, .push, .follow} d d' := by
  rcases vsHandleNodePerm_cases h with rfl | ⟨n, node, perms, lock, hnode, hlock, hsends⟩
  · exact Effects.refl _
  exact ((Effect.access hnode hlock).effects (Or.inl rfl)).trans
    (hsends.mono fun _ hk => Or.inr hk)

/-! ### Removing -/

/-- Only tag groups, tags, layers and what they have of entities is freed. -/
structure Freed (d d' : VSData) : Prop where
  kept : d' = { d with
    entity := d'.entity, tagGroup := d'.tagGroup, tag := d'.tag, layer := d'.layer }
  entity : ∀ a, d'.entity a = d.entity a ∨ d'.entity a = none
  tagGroup : ∀ a, d'.tagGroup a = d.tagGroup a ∨ d'.tagGroup a = none
  tag : ∀ a, d'.tag a = d.tag a ∨ d'.tag a = none
  layer : ∀ a, d'.layer a = d.layer a ∨ d'.layer a = none

theorem Freed.refl (d : VSData) : Freed d d :=
  ⟨rfl, fun _ => Or.inl rfl, fun _ => Or.inl rfl, fun _ => Or.inl rfl, fun _ => Or.inl rfl⟩

theorem same_or_none_trans {α : Type*} {x y z : Option α} (h : y = x ∨ y = none)
    (h' : z = y ∨ z = none) : z = x ∨ z = none := by
  rcases h' with rfl | rfl
  · exact h
  · exact Or.inr rfl

theorem none_of_same_or_none {α : Type*} {x y : Option α} (h : y = x ∨ y = none) (hx : x = none) :
    y = none := h.elim (fun hsame => hsame.trans hx) id

theorem Freed.trans {d'' : VSData} (h : Freed d d') (h' : Freed d' d'') : Freed d d'' where
  kept := by rw [h'.kept, h.kept]
  entity a := same_or_none_trans (h.entity a) (h'.entity a)
  tagGroup a := same_or_none_trans (h.tagGroup a) (h'.tagGroup a)
  tag a := same_or_none_trans (h.tag a) (h'.tag a)
  layer a := same_or_none_trans (h.layer a) (h'.layer a)

theorem update_none_cases {α : Type*} (f : ℕ → Option α) (a b : ℕ) :
    Function.update f a none b = f b ∨ Function.update f a none b = none := by
  by_cases hb : b = a
  · subst hb
    exact Or.inr (Function.update_self _ _ _)
  · exact Or.inl (Function.update_of_ne hb _ _)

theorem freed_setEntity (d : VSData) (a : ℕ) : Freed d (d.setEntity a none) :=
  ⟨rfl, update_none_cases _ a, fun _ => Or.inl rfl, fun _ => Or.inl rfl, fun _ => Or.inl rfl⟩

theorem freed_setTagGroup (d : VSData) (a : ℕ) : Freed d (d.setTagGroup a none) :=
  ⟨rfl, fun _ => Or.inl rfl, update_none_cases _ a, fun _ => Or.inl rfl, fun _ => Or.inl rfl⟩

theorem freed_setTag (d : VSData) (a : ℕ) : Freed d (d.setTag a none) :=
  ⟨rfl, fun _ => Or.inl rfl, fun _ => Or.inl rfl, update_none_cases _ a, fun _ => Or.inl rfl⟩

theorem freed_setLayer (d : VSData) (a : ℕ) : Freed d (d.setLayer a none) :=
  ⟨rfl, fun _ => Or.inl rfl, fun _ => Or.inl rfl, fun _ => Or.inl rfl, update_none_cases _ a⟩

theorem freeTags_freed (d : VSData) (tags : HashTable) : Freed d (d.freeTags tags) :=
  foldl_rel Freed.refl Freed.trans
    (fun t b _ => (freed_setTag t b.2).trans (freed_setEntity _ b.2)) d

theorem vsNodeTaggroupsDestroy_freed (d : VSData) (node : VSNode) :
    Freed d (d.vsNodeTaggroupsDestroy node) :=
  foldl_rel Freed.refl Freed.trans (fun t b _ => (freeTags_freed t _).trans
    ((freed_setTagGroup _ b.2).trans (freed_setEntity _ b.2))) d

theorem vsNodeLayersDestroy_freed (d : VSData) (node : VSNode) :
    Freed d (d.vsNodeLayersDestroy node) :=
  foldl_rel Freed.refl Freed.trans
    (fun t b _ => (freed_setLayer t b.2).trans (freed_setEntity _ b.2)) d

theorem unlink_cases (h : d.unlink node = some d') :
    (node.parentLink = none ∧ d' = d) ∨ ∃ l link pnode, node.parentLink = some l ∧
      d.link l = some link ∧ d.node link.parent = some pnode ∧
      d' = (d.setNode link.parent
        (some { pnode with childrenLinks := pnode.childrenLinks.erase l })).setLink l none := by
  unfold unlink at h
  split at h
  · rename_i hnone
    exact Or.inl ⟨hnone, (Option.some.inj h).symm⟩
  · rename_i l hl
    simp only [Option.bind_eq_bind, Option.bind_eq_some_iff] at h
    obtain ⟨link, hlink, d₁, hd₁, h⟩ := h
    obtain ⟨pnode, hpnode, rfl⟩ := modifyNode_eq_some hd₁
    exact Or.inr ⟨l, link, pnode, hl, hlink, hpnode, (Option.some.inj h).symm⟩

/-- A node that is removed has no follower and no child node; with it, its content is
freed. -/
theorem vsNodeDestroy_cases (h : d.vsNodeDestroy n = some d') :
    d' = d ∨ ∃ node e d₁ d₂, d.node n = some node ∧ d.entity n = some e ∧ e.folls = [] ∧
      node.childrenLinks = [] ∧ d.unlink node = some d₁ ∧ Freed d₁ d₂ ∧
      d' = { (d₂.setNode n none).setEntity n none with nodes := d₂.nodes.removeItem node.id } := by
  simp only [vsNodeDestroy, Option.bind_eq_bind, Option.bind_eq_some_iff] at h
  obtain ⟨node, hnode, e, he, h⟩ := h
  split at h
  · rename_i hempty
    obtain ⟨d₁, hd₁, h⟩ := Option.bind_eq_some_iff.mp h
    exact Or.inr ⟨node, e, d₁, _, hnode, he, hempty.1, hempty.2, hd₁,
      (vsNodeTaggroupsDestroy_freed d₁ node).trans (vsNodeLayersDestroy_freed _ node),
      (Option.some.inj h).symm⟩
  · exact Or.inl (Option.some.inj h).symm

theorem vsTagDestroy_cases {g : ℕ} (h : d.vsTagDestroy g a = some d') :
    ∃ tg tag, d.tagGroup g = some tg ∧ d.tag a = some tag ∧ d' =
      ((d.setTagGroup g (some { tg with tags := tg.tags.removeItem tag.id })).setTag a
        none).setEntity a none := by
  simp only [vsTagDestroy, Option.bind_eq_bind, Option.bind_eq_some_iff] at h
  obtain ⟨tg, htg, tag, htag, h⟩ := h
  exact ⟨tg, tag, htg, htag, (Option.some.inj h).symm⟩

theorem vsTaggroupDestroy_cases {g : ℕ} (h : d.vsTaggroupDestroy n g = some d') :
    ∃ tg d₁ node, d.tagGroup g = some tg ∧ Freed d d₁ ∧ d₁.entity g = none ∧
      d.node n = some node ∧
      d' = d₁.setNode n (some { node with tagGroups := node.tagGroups.removeItem tg.id }) := by
  obtain ⟨tg, htg, h⟩ := Option.bind_eq_some_iff.mp h
  have hfreed : Freed d (((d.freeTags tg.tags).setTagGroup g none).setEntity g none) :=
    (freeTags_freed d _).trans ((freed_setTagGroup _ g).trans (freed_setEntity _ g))
  obtain ⟨node, hnode, rfl⟩ := modifyNode_eq_some h
  refine ⟨tg, _, node, htg, hfreed, Function.update_self _ _ _, ?_, rfl⟩
  rw [hfreed.kept] at hnode
  exact hnode

/-- Only the places of layers in their trees differ. -/
structure SameLayers (d d' : VSData) : Prop where
  kept : d' = { d with layer := d'.layer }
  subs : ∀ b, (d'.layer b).map VSLayer.subs = (d.layer b).map VSLayer.subs

theorem SameLayers.refl (d : VSData) : SameLayers d d := ⟨rfl, fun _ => rfl⟩

theorem SameLayers.trans {d'' : VSData} (h : SameLayers d d') (h' : SameLayers d' d'') :
    SameLayers d d'' where
  kept := by rw [h'.kept, h.kept]
  subs b := (h'.subs b).trans (h.subs b)

theorem modifyLayer_sameLayers {f : VSLayer → VSLayer} (hf : ∀ layer, (f layer).subs = layer.subs) :
    SameLayers d (d.modifyLayer a f) := by
  refine ⟨rfl, fun b => ?_⟩
  by_cases hb : b = a
  · subst hb
    cases hlayer : d.layer b with
    | none => simp [modifyLayer, setLayer, hlayer]
    | some layer => simp [modifyLayer, setLayer, hlayer, hf]
  · simp [modifyLayer, setLayer, Function.update_of_ne hb]

theorem vsLayerDestroy_cases (h : d.vsLayerDestroy n a = some d') :
    ∃ layer d₁ node, d.layer a = some layer ∧ SameLayers d d₁ ∧ d.node n = some node ∧
      d' = ((d₁.setLayer a none).setEntity a none).setNode n
        (some { node with layers := node.layers.removeItem layer.id }) := by
  obtain ⟨layer, hlayer, h⟩ := Option.bind_eq_some_iff.mp h
  have hchildren : SameLayers d (layer.childLayers.foldl (fun d c =>
      d.modifyLayer c fun l => { l with parent := none }) d) :=
    foldl_rel SameLayers.refl SameLayers.trans
      (fun t c _ => by exact modifyLayer_sameLayers fun _ => rfl) d
  generalize layer.childLayers.foldl (fun d c =>
      d.modifyLayer c fun l => { l with parent := none }) d = d₂ at hchildren h
  have hparent : SameLayers d (layer.parent.elim d₂ fun p =>
      d₂.modifyLayer p fun l => { l with childLayers := l.childLayers.erase a }) := by
    cases layer.parent with
    | none => exact hchildren
    | some p => exact hchildren.trans (modifyLayer_sameLayers fun _ => rfl)
  obtain ⟨node, hnode, rfl⟩ := modifyNode_eq_some h
  refine ⟨layer, _, node, hlayer, hparent, ?_, rfl⟩
  have hnode' : (layer.parent.elim d₂ fun p =>
      d₂.modifyLayer p fun l => { l with childLayers := l.childLayers.erase a }).node n =
        some node := hnode
  rw [hparent.kept] at hnode'
  exact hnode'

/-! ### Moving -/

/-- Only levels of nodes differ. -/
structure SameButLevels (d d' : VSData) : Prop where
  kept : d' = { d with node := d'.node }
  node : ∀ m, (d'.node m).map (fun node => { node with level := 0 }) =
    (d.node m).map fun node => { node with level := 0 }

theorem SameButLevels.refl (d : VSData) : SameButLevels d d := ⟨rfl, fun _ => rfl⟩

theorem SameButLevels.trans {d'' : VSData} (h : SameButLevels d d') (h' : SameButLevels d' d'') :
    SameButLevels d d'' where
  kept := by rw [h'.kept, h.kept]
  node m := (h'.node m).trans (h.node m)

theorem SameButLevels.exists_level (h : SameButLevels d d') (hnode : d.node n = some node) :
    ∃ level, d'.node n = some { node with level } := by
  have hn := h.node n
  rw [hnode] at hn
  obtain ⟨node', hnode', heq⟩ := Option.map_eq_some_iff.mp hn
  refine ⟨node'.level, ?_⟩
  rw [hnode']
  cases node'
  cases node
  simp_all

theorem modifyLevel_sameButLevels {level : ℕ}
    (h : d.modifyNode n (fun node => { node with level }) = some d') : SameButLevels d d' := by
  obtain ⟨node, hnode, rfl⟩ := modifyNode_eq_some h
  refine ⟨rfl, fun m => ?_⟩
  by_cases hm : m = n
  · subst hm
    simp [setNode, hnode]
  · simp [setNode, Function.update_of_ne hm]

theorem vsLinkUpdateChild_sameButLevels {fuel parent child : ℕ}
    (h : vsLinkUpdateChild fuel d parent child = some d') : SameButLevels d d' := by
  induction fuel generalizing d d' parent child with
  | zero => cases h
  | succ fuel ih =>
      simp only [vsLinkUpdateChild, Option.bind_eq_bind, Option.bind_eq_some_iff] at h
      obtain ⟨pnode, -, d₁, hd₁, pnode₁, -, h⟩ := h
      refine (modifyLevel_sameButLevels hd₁).trans
        (foldlM_rel SameButLevels.refl SameButLevels.trans (fun t l t' _ _ hbody => ?_) h)
      obtain ⟨link, -, hbody⟩ := Option.bind_eq_some_iff.mp hbody
      exact ih hbody

theorem moveLink_cases {old parent child : ℕ} (h : d.moveLink l old parent child = some d') :
    ∃ onode d₁ pnode d₂, d.node old = some onode ∧
      d₁ = d.setNode old (some { onode with childrenLinks := onode.childrenLinks.erase l }) ∧
      d₁.node parent = some pnode ∧
      d₂ = (d₁.setNode parent (some { pnode with
        childrenLinks := pnode.childrenLinks ++ [l] })).setLink l (some ⟨parent, child⟩) ∧
      SameButLevels d₂ d' := by
  simp only [moveLink, Option.bind_eq_bind, Option.bind_eq_some_iff] at h
  obtain ⟨d₁, hd₁, d₂, hd₂, h⟩ := h
  obtain ⟨onode, honode, rfl⟩ := modifyNode_eq_some hd₁
  obtain ⟨pnode, hpnode, rfl⟩ := modifyNode_eq_some hd₂
  exact ⟨onode, _, pnode, _, honode, rfl, hpnode, rfl, vsLinkUpdateChild_sameButLevels h⟩

/-- The link of a node that was moved is one of the children links of its new
parent. -/
theorem moveLink_linked {old parent child : ℕ} (h : d.moveLink l old parent child = some d') :
    ∃ pnode, d'.node parent = some pnode ∧ l ∈ pnode.childrenLinks ∧
      d'.link l = some ⟨parent, child⟩ := by
  obtain ⟨onode, d₁, pnode, d₂, -, -, hpnode, rfl, hlevels⟩ := moveLink_cases h
  have hpnode' : ((d₁.setNode parent
      (some { pnode with childrenLinks := pnode.childrenLinks ++ [l] })).setLink l
      (some ⟨parent, child⟩)).node parent =
        some { pnode with childrenLinks := pnode.childrenLinks ++ [l] } :=
    Function.update_self _ _ _
  obtain ⟨level, hlevel⟩ := hlevels.exists_level hpnode'
  refine ⟨_, hlevel, by simp, ?_⟩
  rw [hlevels.kept]
  exact Function.update_self _ _ _

theorem sendLinkChange_sends {old parent child : ℕ} (hpnode : d.node parent = some pnode)
    (hl : l ∈ pnode.childrenLinks) (hlink : d.link l = some ⟨parent, child⟩)
    (h : d.sendLinkChange old parent child = some d') : Effects sends d d' := by
  simp only [sendLinkChange, Option.bind_eq_bind, Option.bind_eq_some_iff] at h
  obtain ⟨onode, -, pnode₁, hpnode₁, cnode, -, e, -, x, hx, y, hy, h⟩ := h
  obtain rfl := Option.some.inj (hpnode.symm.trans hpnode₁)
  have hold : Effects pushes d x.1 := by
    refine foldlM_rel (R := fun x y : VSData × List ℕ => Effects pushes x.1 y.1)
      (fun x => Effects.refl x.1) Effects.trans (fun t r t' _ _ hbody => ?_) hx
    obtain ⟨sub, -, hbody⟩ := Option.bind_eq_some_iff.mp hbody
    split at hbody
    · obtain ⟨t₁, ht₁, hbody⟩ := Option.bind_eq_some_iff.mp hbody
      obtain rfl := Option.some.inj hbody
      exact push_pushes rfl ht₁
    · obtain rfl := Option.some.inj hbody
      exact Effects.refl _
  have hfolls : Effects pushes x.1 y.1 := by
    refine foldlM_rel (R := fun x y : VSData × List ℕ => Effects pushes x.1 y.1)
      (fun x => Effects.refl x.1) Effects.trans (fun t f t' _ _ hbody => ?_) hy
    obtain ⟨sub, -, hbody⟩ := Option.bind_eq_some_iff.mp hbody
    split at hbody
    · obtain rfl := Option.some.inj hbody
      exact Effects.refl _
    · obtain ⟨t₁, ht₁, hbody⟩ := Option.bind_eq_some_iff.mp hbody
      obtain rfl := Option.some.inj hbody
      exact push_pushes rfl ht₁
  have hkept := (hold.trans hfolls).pushes_kept
  refine (hold.trans hfolls).sends_of_pushes.trans
    (foldlM_sends (fun t r t' hr ht hbody => ?_) h)
  obtain ⟨sub, -, hbody⟩ := Option.bind_eq_some_iff.mp hbody
  split at hbody
  · have hpnode' : t.node parent = some pnode := by
      rw [ht, hkept]
      exact hpnode
    have hlink' : t.link l = some ⟨parent, child⟩ := by
      rw [ht, hkept]
      exact hlink
    exact vsNodeSendCreate_sends hpnode' hl hlink' rfl hr hbody
  · obtain rfl := Option.some.inj hbody
    exact Effects.refl _

theorem vsHandleLinkChange_effects {parentId childId : ℕ}
    (h : d.vsHandleLinkChange s parentId childId = some d') :
    Effects {.move, .push, .follow} d d' := by
  unfold vsHandleLinkChange at h
  split at h
  · obtain rfl := Option.some.inj h
    exact Effects.refl _
  obtain ⟨tests, htests, h⟩ := Option.bind_eq_some_iff.mp h
  cases tests with
  | none =>
      obtain rfl := Option.some.inj h
      exact Effects.refl _
  | some x =>
      obtain ⟨l, old, parent⟩ := x
      obtain ⟨d₁, hd₁, h⟩ := Option.bind_eq_some_iff.mp h
      obtain ⟨pnode, hpnode, hl, hlink⟩ := moveLink_linked hd₁
      exact ((Effect.move htests hd₁).effects (Or.inl rfl)).trans
        ((sendLinkChange_sends hpnode hl hlink h).mono fun _ hk => Or.inr hk)

end Nodes

end VSData

end Verse
