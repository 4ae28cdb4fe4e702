import Verse.Nodes.NodeEffects

/-!
# Changes made by the server itself

The functions of `vs_sys_nodes.c`: which kinds of changes they consist of.
`step_effects` puts them together with those of the handlers: `NodeEvent.kinds` are
the kinds of changes an event makes.
-/

namespace Verse

open Lib

namespace VSData

variable {d d' : VSData} {n r s a : ℕ}

/-! ## Disconnecting -/

section Disconnecting

/-- The changes made when a client disconnects, but for its avatar. -/
def departs (s : ℕ) : Set EffectKind := {.unfollow s, .leave s, .freeSub s, .lock s, .push}

theorem Effects.departs_of_leaves (h : Effects (leaves s) d d') : Effects (departs s) d d' := by
  refine h.mono fun k hk => ?_
  rcases hk with rfl | rfl | rfl
  · exact Or.inl rfl
  · exact Or.inr (Or.inl rfl)
  · exact Or.inr (Or.inr (Or.inl rfl))

theorem vsTgFreeAvatarReference_detaches {g : ℕ} (h : d.vsTgFreeAvatarReference g s = some d') :
    Effects (detaches s) d d' := by
  simp only [vsTgFreeAvatarReference, Option.bind_eq_bind, Option.bind_eq_some_iff] at h
  obtain ⟨d₁, hd₁, tg, htg, found, hfound, h⟩ := h
  refine (freeFollower_detaches hd₁).trans ?_
  cases found with
  | none =>
      obtain rfl := Option.some.inj h
      exact Effects.refl _
  | some r =>
      exact ((Effect.leaveTagGroup htg (findSub_some hfound).2).effects (Or.inr rfl)).trans
        (foldlM_freeFollower_kept h).1

theorem vsLayerFreeAvatarReference_detaches (h : d.vsLayerFreeAvatarReference a s = some d') :
    Effects (detaches s) d d' := by
  obtain ⟨d₁, hd₁, h⟩ := Option.bind_eq_some_iff.mp h
  exact (freeFollower_detaches hd₁).trans (vsLayerUnsubscribe_detaches h)

theorem freeAvatarSubs_departs {node : VSNode} {wasLocked : Bool} {subs : List ℕ}
    (h : freeAvatarSubs n node s wasLocked d subs = some d') : Effects (departs s) d d' := by
  induction subs generalizing d with
  | nil =>
      obtain rfl := Option.some.inj h
      exact Effects.refl _
  | cons r rest ih =>
      simp only [freeAvatarSubs, Option.bind_eq_bind, Option.bind_eq_some_iff] at h
      obtain ⟨sub, hsub, h⟩ := h
      split at h
      · rename_i hs
        obtain ⟨d₁, hd₁, h⟩ := Option.bind_eq_some_iff.mp h
        have hr : d.subSession r = some s := by rw [subSession_of_sub hsub, hs]
        have hfree : Effects (departs s) d d₁ :=
          ((Effect.freeSub hr hd₁).effects (Or.inr (Or.inr (Or.inl rfl))))
        split at h
        · exact hfree.trans (ih h)
        · obtain rfl := Option.some.inj h
          exact hfree
      · obtain ⟨d₁, hd₁, h⟩ := Option.bind_eq_some_iff.mp h
        have hpush : Effects pushes d d₁ := by
          apply pushSome_pushes _ hd₁
          intro c hc
          split at hc
          · rw [← Option.some.inj hc]
            rfl
          · cases hc
        refine (hpush.mono fun k hk => ?_).trans (ih h)
        exact Or.inr (Or.inr (Or.inr (Or.inr hk)))

/-- The session leaves the tag groups and layers of a node, then the branches of its children,
and then the node, which is unlocked when the session holds its lock. -/
theorem vsFreeAvatarReference_cases {fuel : ℕ}
    (h : vsFreeAvatarReference s (fuel + 1) d n = some d') :
    ∃ (node : VSNode) (d₁ d₂ : VSData) (node₂ : VSNode), Effects (detaches s) d d₁ ∧
      node.childrenLinks.foldlM (fun d l => do
        let link ← d.link l
        let d ← vsFreeAvatarReference s fuel d link.child
        d.freeFollower link.child s) d₁ = some d₂ ∧ d₂.node n = some node₂ ∧
      freeAvatarSubs n { node₂ with lock := if node₂.lock == some s then none else node₂.lock } s
        (node₂.lock == some s) (d₂.setNode n (some { node₂ with
          lock := if node₂.lock == some s then none else node₂.lock })) node₂.nodeSubs =
        some d' := by
  simp only [vsFreeAvatarReference, Option.bind_eq_bind, Option.bind_eq_some_iff] at h
  obtain ⟨node, -, d₁, hd₁, d₂, hd₂, d₃, hd₃, node₃, hnode₃, h⟩ := h
  have htagGroups : Effects (detaches s) d d₁ :=
    foldlM_rel Effects.refl Effects.trans
      (fun t b t' _ _ hbody => vsTgFreeAvatarReference_detaches hbody) hd₁
  have hlayers : Effects (detaches s) d₁ d₂ :=
    foldlM_rel Effects.refl Effects.trans
      (fun t b t' _ _ hbody => vsLayerFreeAvatarReference_detaches hbody) hd₂
  exact ⟨node, d₂, d₃, node₃, htagGroups.trans hlayers, hd₃, hnode₃, h⟩

theorem vsFreeAvatarReference_departs {fuel : ℕ}
    (h : vsFreeAvatarReference s fuel d n = some d') : Effects (departs s) d d' := by
  induction fuel generalizing d d' n with
  | zero => cases h
  | succ fuel ih =>
      obtain ⟨node, d₁, d₂, node₂, hdetaches, hloop, hnode₂, h⟩ := vsFreeAvatarReference_cases h
      have hchildren : Effects (departs s) d₁ d₂ := by
        refine foldlM_rel Effects.refl Effects.trans (fun t l t' _ _ hbody => ?_) hloop
        obtain ⟨link, -, hbody⟩ := Option.bind_eq_some_iff.mp hbody
        obtain ⟨t₁, ht₁, hbody⟩ := Option.bind_eq_some_iff.mp hbody
        exact (ih ht₁).trans (freeFollower_detaches hbody).leaves_of_detaches.departs_of_leaves
      have hlock : Effect (.lock s) d₂ (d₂.setNode n (some { node₂ with
          lock := if node₂.lock == some s then none else node₂.lock })) := by
        refine Effect.lock hnode₂ ?_
        by_cases hown : node₂.lock = some s <;> simp [hown]
      exact hdetaches.leaves_of_detaches.departs_of_leaves.trans (hchildren.trans
        ((hlock.effects (Or.inr (Or.inr (Or.inr (Or.inl rfl))))).trans (freeAvatarSubs_departs h)))

theorem vsNodeFreeAvatarReference_departs (h : d.vsNodeFreeAvatarReference s = some d') :
    Effects (departs s) d d' := by
  unfold vsNodeFreeAvatarReference at h
  split at h
  · obtain rfl := Option.some.inj h
    exact Effects.refl _
  · exact vsFreeAvatarReference_departs h

theorem vsNodeDestroyAvatarNode_effects (h : d.vsNodeDestroyAvatarNode s = some d') :
    Effects {.push, .tell, .removeNode} d d' := by
  unfold vsNodeDestroyAvatarNode at h
  split at h
  · obtain rfl := Option.some.inj h
    exact Effects.refl _
  · exact vsNodeDestroyBranch_effects h

/-- A client disconnects: what belongs to its session is removed, its avatar is
destroyed, and it is not connected any more. -/
theorem disconnect_cases (h : d.disconnect s = some d') :
    ∃ d₁ d₂ info, Effects (departs s) d d₁ ∧ Effects {.push, .tell, .removeNode} d₁ d₂ ∧
      info = { d₂.session s with connected := false } ∧
      d' = { d₂ with session := Function.update d₂.session s info } := by
  simp only [disconnect, Option.bind_eq_bind, Option.bind_eq_some_iff] at h
  obtain ⟨d₁, hd₁, d₂, hd₂, h⟩ := h
  exact ⟨d₁, d₂, _, vsNodeFreeAvatarReference_departs hd₁, vsNodeDestroyAvatarNode_effects hd₂,
    rfl, (Option.some.inj h).symm⟩

end Disconnecting

/-! ## Nodes of the server -/

section SysNodes

variable {g b x : ℕ} {info : ClientInfo}

/-- The changes that build the nodes of the server. -/
def builds : Set EffectKind := {.newNode, .mark, .permit, .create, .value}

/-- What is stored at the addresses below `b` stays, but for the node at `x`. -/
structure KeepsOld (b x : ℕ) (d d' : VSData) : Prop where
  next : d.next ≤ d'.next
  entity : ∀ m, m < b → d'.entity m = d.entity m
  link : ∀ m, m < b → d'.link m = d.link m
  node : ∀ m, m < b → m ≠ x → d'.node m = d.node m

theorem KeepsOld.refl (b x : ℕ) (d : VSData) : KeepsOld b x d d :=
  ⟨Nat.le_refl _, fun _ _ => rfl, fun _ _ => rfl, fun _ _ _ => rfl⟩

theorem KeepsOld.trans {d'' : VSData} (h : KeepsOld b x d d') (h' : KeepsOld b x d' d'') :
    KeepsOld b x d d'' where
  next := Nat.le_trans h.next h'.next
  entity m hm := (h'.entity m hm).trans (h.entity m hm)
  link m hm := (h'.link m hm).trans (h.link m hm)
  node m hm hx := (h'.node m hm hx).trans (h.node m hm hx)

/-- A change of an entity that is not old. -/
theorem keepsOld_setEntity {e : Option VSEntity} (ha : b ≤ a) :
    KeepsOld b x d (d.setEntity a e) where
  next := Nat.le_refl _
  entity m hm := Function.update_of_ne (by omega) _ _
  link m hm := rfl
  node m hm hx := rfl

theorem keepsOld_setNode {node : Option VSNode} (hn : b ≤ n ∨ n = x) :
    KeepsOld b x d (d.setNode n node) where
  next := Nat.le_refl _
  entity m hm := rfl
  link m hm := rfl
  node m hm hx := Function.update_of_ne (by omega) _ _

theorem createSysTag_builds {dataType customType : ℕ} {value : List UInt8} (hb : b ≤ d.next)
    (h : d.createSysTag g dataType customType value = some d') :
    Effects builds d d' ∧ KeepsOld b x d d' := by
  simp only [createSysTag, Option.bind_eq_bind, Option.bind_eq_some_iff] at h
  obtain ⟨⟨d₁, a⟩, hcreate, tag, htag, h⟩ := h
  obtain rfl := Option.some.inj h
  have hnew : Effect .create d d₁ := Effect.newTag hcreate
  obtain ⟨tg, id, tag', -, -, rfl, rfl⟩ := vsTagCreate_eq hcreate
  constructor
  · refine (hnew.effects (Or.inr (Or.inr (Or.inr (Or.inl rfl))))).trans
      (((Effect.tagValue htag value).effects (Or.inr (Or.inr (Or.inr (Or.inr rfl))))).trans
        ((Effect.mark ?_ rfl).effects (Or.inr (Or.inl rfl))))
    exact Function.update_self _ _ _
  · refine ⟨Nat.le_succ _, fun m hm => ?_, fun _ _ => rfl, fun _ _ _ => rfl⟩
    have hm' : m ≠ d.next := by omega
    simp [setState, setEntity, setTag, Function.update_of_ne hm']

/-- A new node below `p`: its entity is not marked yet. -/
theorem vsNodeCreateLinked_builds {heap owner nodeId customType p : ℕ} {created : Option ℕ}
    (hb : b ≤ d.next)
    (h : d.vsNodeCreateLinked heap (some p) owner nodeId customType = some (d', created)) :
    (d' = d ∧ created = none) ∨ (created = some d.next ∧ Effects builds d d' ∧
      KeepsOld b p d d' ∧ d.next < d'.next ∧ d'.entity d.next = some ⟨.reserved, []⟩ ∧
      d'.link (d.next + 1) = some ⟨p, d.next⟩ ∧
      (∀ node, d'.node d.next = some node → node.lock = none) ∧ ∃ pnode, d.node p = some pnode ∧
        (p ≠ d.next → d'.node p = some
          { pnode with childrenLinks := pnode.childrenLinks ++ [d.next + 1] })) := by
  rcases vsNodeCreateLinked_eq h with ⟨rfl, rfl⟩ | ⟨id, last, d₁, -, -, hd₁, rfl, hd'⟩
  · exact Or.inl ⟨rfl, rfl⟩
  have hnew : Effect .newNode d d' := Effect.newNode h
  rcases createLinked_eq hd₁ with ⟨hnone, -⟩ | ⟨p', pnode, hp', hpnode, rfl⟩
  · cases hnone
  obtain rfl := Option.some.inj hp'
  subst hd'
  refine Or.inr ⟨rfl, hnew.effects (Or.inl rfl), ?_, Nat.lt_add_of_pos_right (by omega),
    Function.update_self _ _ _, Function.update_self _ _ _, fun node hnode => ?_, pnode, hpnode,
    fun hne => ?_⟩
  · refine ⟨Nat.le_add_right _ _, fun m hm => Function.update_of_ne (by omega) _ _,
      fun m hm => Function.update_of_ne (by omega) _ _, fun m hm hmp => ?_⟩
    have hm' : m ≠ d.next := by omega
    simp [Function.update_of_ne hm', Function.update_of_ne hmp]
  · simp only [Function.update_self] at hnode
    rw [← Option.some.inj hnode]
    rfl
  · simp [Function.update_of_ne hne]

theorem vsTaggroupCreate_builds {customType : ℕ} {created : Option ℕ} (hb : b ≤ d.next)
    (hn : b ≤ n) (h : d.vsTaggroupCreate n customType = some (d', created)) :
    Effects builds d d' ∧ KeepsOld b x d d' ∧
      ∀ g, created = some g → b ≤ g ∧ d'.entity g = some ⟨.reserved, []⟩ := by
  rcases vsTaggroupCreate_eq h with ⟨rfl, rfl⟩ | ⟨node, id, tg, -, -, -, -, rfl, hd'⟩
  · exact ⟨Effects.refl _, KeepsOld.refl _ _ _, by simp⟩
  have hnew : Effect .create d d' := Effect.newTagGroup h
  subst hd'
  refine ⟨hnew.effects (Or.inr (Or.inr (Or.inr (Or.inl rfl)))), ?_, ?_⟩
  · exact ⟨Nat.le_succ _, fun m hm => Function.update_of_ne (by omega) _ _, fun _ _ => rfl,
      fun m hm _ => Function.update_of_ne (by omega) _ _⟩
  · rintro g ⟨⟩
    exact ⟨hb, Function.update_self _ _ _⟩

theorem mark_builds {state : EntityState} (he : d.entity a = some ⟨.reserved, []⟩)
    (hstate : state.isCreated) : Effects builds d (d.setState a state) :=
  (Effect.mark he hstate).effects (Or.inr (Or.inl rfl))

theorem modifyPerms_builds {f : VSNode → VSNode}
    (hf : ∀ node, ∃ permissions, f node = { node with permissions })
    (hlock : ∀ node, d.node n = some node → node.lock = none)
    (h : d.modifyNode n f = some d') : Effects builds d d' := by
  obtain ⟨node, hnode, rfl⟩ := modifyNode_eq_some h
  obtain ⟨permissions, hperm⟩ := hf node
  rw [hperm]
  have hpermit : Effect .permit d (d.setNode n (some { node with permissions })) :=
    Effect.permit hnode (hlock node hnode)
  exact hpermit.effects (Or.inr (Or.inr (Or.inl rfl)))

/-- The tags of the node with information about a client. -/
theorem createInfoTags_builds {d₁ : VSData} (hb : b ≤ d.next) (hkeeps : KeepsOld b x d₁ d)
    (h : ((d.createSysTag g valueTypeString8 0 info.hostname).bind fun d =>
      (d.createSysTag g 4 1 info.loginTime).bind fun d =>
        (info.clientName.elim (pure d) fun name =>
          d.createSysTag g valueTypeString8 2 name).bind fun d =>
            info.clientVersion.elim (pure d) fun version =>
              d.createSysTag g valueTypeString8 3 version) = some d') :
    Effects builds d d' ∧ KeepsOld b x d₁ d' := by
  obtain ⟨e₁, he₁, h⟩ := Option.bind_eq_some_iff.mp h
  obtain ⟨e₂, he₂, h⟩ := Option.bind_eq_some_iff.mp h
  obtain ⟨e₃, he₃, h⟩ := Option.bind_eq_some_iff.mp h
  obtain ⟨hb₁, hk₁⟩ := createSysTag_builds (x := x) hb he₁
  have hn₁ := Nat.le_trans hb hk₁.next
  obtain ⟨hb₂, hk₂⟩ := createSysTag_builds (x := x) hn₁ he₂
  have hn₂ := Nat.le_trans hn₁ hk₂.next
  have h₃ : Effects builds e₂ e₃ ∧ KeepsOld b x e₂ e₃ := by
    cases hname : info.clientName with
    | none =>
        rw [hname] at he₃
        obtain rfl := Option.some.inj he₃
        exact ⟨Effects.refl _, KeepsOld.refl _ _ _⟩
    | some name =>
        rw [hname] at he₃
        exact createSysTag_builds hn₂ he₃
  have hn₃ := Nat.le_trans hn₂ h₃.2.next
  have h₄ : Effects builds e₃ d' ∧ KeepsOld b x e₃ d' := by
    cases hversion : info.clientVersion with
    | none =>
        rw [hversion] at h
        obtain rfl := Option.some.inj h
        exact ⟨Effects.refl _, KeepsOld.refl _ _ _⟩
    | some version =>
        rw [hversion] at h
        exact createSysTag_builds hn₃ h
  exact ⟨hb₁.trans (hb₂.trans (h₃.1.trans h₄.1)),
    hkeeps.trans (hk₁.trans (hk₂.trans (h₃.2.trans h₄.2)))⟩

theorem vsNodeCreateLinked_next {heap owner nodeId customType : ℕ} {parent : Option ℕ}
    (h : d.vsNodeCreateLinked heap parent owner nodeId customType = some (d', some n)) :
    d'.next = d.next + 2 := by
  rcases vsNodeCreateLinked_eq h with ⟨-, hnone⟩ | ⟨id, last, d₁, -, -, hd₁, -, rfl⟩
  · cases hnone
  · rcases createLinked_eq hd₁ with ⟨-, rfl⟩ | ⟨p, pnode, -, -, rfl⟩ <;> rfl

/-- The node with information about a client is created below its avatar. -/
theorem vsCreateClientInfoNode_builds {heap avatar : ℕ} (hb : b ≤ d.next)
    (h : d.vsCreateClientInfoNode heap avatar info = some d') :
    Effects builds d d' ∧ KeepsOld b avatar d d' := by
  simp only [vsCreateClientInfoNode, Option.bind_eq_bind, Option.bind_eq_some_iff] at h
  obtain ⟨⟨d₁, created⟩, hcreate, h⟩ := h
  rcases vsNodeCreateLinked_builds hb hcreate with
    ⟨rfl, rfl⟩ | ⟨rfl, hbuild, hkeep, hnext, hentity, -, hlock, -⟩
  · obtain rfl := Option.some.inj h
    exact ⟨Effects.refl _, KeepsOld.refl _ _ _⟩
  obtain ⟨d₂, hd₂, h⟩ := Option.bind_eq_some_iff.mp h
  obtain ⟨⟨d₃, tg⟩, hd₃, h⟩ := Option.bind_eq_some_iff.mp h
  have hperm : Effects builds d₁ d₂ := modifyPerms_builds (fun _ => ⟨_, rfl⟩) hlock hd₂
  obtain ⟨node, hnode, rfl⟩ := modifyNode_eq_some hd₂
  have hmark : Effects builds
      (d₁.setNode d.next (some (vsNodeSetPerm node d.otherUsers permNodeRead)))
      ((d₁.setNode d.next (some (vsNodeSetPerm node d.otherUsers permNodeRead))).setState d.next
        .created) := mark_builds hentity rfl
  have hb₁ : b ≤ d₁.next := Nat.le_trans hb hkeep.next
  have hkeep₂ : KeepsOld b avatar d ((d₁.setNode d.next
      (some (vsNodeSetPerm node d.otherUsers permNodeRead))).setState d.next .created) :=
    hkeep.trans ((keepsOld_setNode (Or.inl hb)).trans (keepsOld_setEntity hb))
  obtain ⟨hbuild₃, hkeep₃, hg⟩ := vsTaggroupCreate_builds (x := avatar) (by exact hb₁) hb hd₃
  have hsofar := hbuild.trans (hperm.trans (hmark.trans hbuild₃))
  cases tg with
  | none =>
      obtain rfl := Option.some.inj h
      exact ⟨hsofar, hkeep₂.trans hkeep₃⟩
  | some g =>
      obtain ⟨hbg, heg⟩ := hg g rfl
      have hb₃ : b ≤ d₃.next := Nat.le_trans hb₁ hkeep₃.next
      have hkeep₄ : KeepsOld b avatar d (d₃.setState g .created) :=
        (hkeep₂.trans hkeep₃).trans (keepsOld_setEntity hbg)
      obtain ⟨htags, hkeep₅⟩ := createInfoTags_builds (by exact hb₃) hkeep₄ h
      exact ⟨hsofar.trans ((mark_builds heg rfl).trans htags), hkeep₅⟩

/-- The avatar of a client is built and then sent to the subscribers of its parent. -/
theorem vsCreateAvatarNode_effects {heap heap' userId : ℕ} {created : Option ℕ}
    (hfresh : d.Fresh)
    (h : d.vsCreateAvatarNode heap heap' userId info = some (d', created)) :
    ∃ d₁, Effects builds d d₁ ∧ Effects sends d₁ d' := by
  unfold vsCreateAvatarNode at h
  split at h
  · obtain ⟨rfl, -⟩ := Prod.mk.inj (Option.some.inj h)
    exact ⟨d, Effects.refl _, Effects.refl _⟩
  obtain ⟨⟨d₁, avatar⟩, hcreate, h⟩ := Option.bind_eq_some_iff.mp h
  rcases vsNodeCreateLinked_builds (Nat.le_refl _) hcreate with
    ⟨rfl, rfl⟩ | ⟨rfl, hbuild, hkeep, hnext, hentity, hlink, hlock, pnode, hpnode, hpnode₁⟩
  · obtain ⟨rfl, -⟩ := Prod.mk.inj (Option.some.inj h)
    exact ⟨d₁, Effects.refl _, Effects.refl _⟩
  obtain ⟨d₂, hd₂, h⟩ := Option.bind_eq_some_iff.mp h
  obtain ⟨d₃, hd₃, h⟩ := Option.bind_eq_some_iff.mp h
  obtain ⟨pnode₃, hpnode₃, h⟩ := Option.bind_eq_some_iff.mp h
  obtain ⟨d₄, hd₄, h⟩ := Option.bind_eq_some_iff.mp h
  obtain ⟨rfl, -⟩ := Prod.mk.inj (Option.some.inj h)
  have hp : d.avatarNode < d.next := hfresh.node_lt hpnode
  have hpne : d.avatarNode ≠ d.next := Nat.ne_of_lt hp
  have haccess : Effects builds d₁ d₂ := modifyPerms_builds (fun _ => ⟨_, rfl⟩) hlock hd₂
  obtain ⟨node₁, hnode₁, rfl⟩ := modifyNode_eq_some hd₂
  -- the avatar, its link and its parent are older than the node with the information
  obtain ⟨hinfo, hkeep₃⟩ := vsCreateClientInfoNode_builds (b := d₁.next) (by exact Nat.le_refl _) hd₃
  have hentity₃ : d₃.entity d.next = some ⟨.reserved, []⟩ := (hkeep₃.entity _ hnext).trans hentity
  have hpnode₃' : pnode₃ = { pnode with childrenLinks := pnode.childrenLinks ++ [d.next + 1] } := by
    have hkept := hkeep₃.node d.avatarNode (Nat.lt_trans hp hnext) hpne
    rw [hpnode₃] at hkept
    have hold : ∀ node, (d₁.setNode d.next node).node d.avatarNode = d₁.node d.avatarNode :=
      fun node => Function.update_of_ne hpne _ _
    exact Option.some.inj (hkept.trans ((hold _).trans (hpnode₁ hpne)))
  have hmark : ∀ state : EntityState, state.isCreated →
      Effects builds d₃ (d₃.setState d.next state) := fun _ => mark_builds hentity₃
  refine ⟨_, hbuild.trans (haccess.trans (hinfo.trans (hmark
    (if pnode₃.nodeSubs = [] then .created else .creating) (by split <;> rfl)))),
    foldlM_sends (fun t r t' hr ht hbody => ?_) hd₄⟩
  have hpnode' : t.node d.avatarNode = some pnode₃ := by
    rw [ht]
    exact hpnode₃
  have hlink' : t.link (d.next + 1) = some ⟨d.avatarNode, d.next⟩ := by
    rw [ht]
    by_cases hlt : d.next + 1 < d₁.next
    · exact (hkeep₃.link _ hlt).trans hlink
    · exact absurd hlt (by have := vsNodeCreateLinked_next hcreate; omega)
  exact vsNodeSendCreate_sends hpnode' (by simp [hpnode₃']) hlink' rfl hr hbody

/-- A client that logs in: its avatar is built and sent to the subscribers of the parent
of the avatars, and its session is filled in. -/
theorem login_cases {heap heap' userId : ℕ} {stream : Bool} (hfresh : d.Fresh)
    (h : d.login s heap heap' userId stream info = some d') :
    ∃ d₁ d₂, Effects builds d d₁ ∧ Effects sends d₁ d₂ ∧ (d' = d₂ ∨ ∃ user avatarId,
      d.vsUserFind userId = some user ∧ d' = { d₂ with
        session := Function.update d₂.session s ⟨user, userId, avatarId, stream, true⟩ }) := by
  obtain ⟨⟨d₂, created⟩, hcreate, h⟩ := Option.bind_eq_some_iff.mp h
  obtain ⟨d₁, hbuild, hsend⟩ := vsCreateAvatarNode_effects hfresh hcreate
  refine ⟨d₁, d₂, hbuild, hsend, ?_⟩
  simp only at h
  split at h
  · rename_i n user huser
    obtain ⟨node, -, h⟩ := Option.bind_eq_some_iff.mp h
    exact Or.inr ⟨user, node.id, huser, (Option.some.inj h).symm⟩
  · exact Or.inl (Option.some.inj h).symm

/-! ### Starting -/

theorem createSysNode_builds {id customType perm p : ℕ} {created : Option ℕ}
    (h : d.createSysNode (some p) id customType perm = some (d', created)) :
    Effects builds d d' := by
  obtain ⟨⟨d₁, n⟩, hcreate, h⟩ := Option.bind_eq_some_iff.mp h
  rcases vsNodeCreateLinked_builds (Nat.le_refl _) hcreate with
    ⟨rfl, rfl⟩ | ⟨rfl, hbuild, -, -, hentity, -, hlock, -⟩
  · obtain ⟨rfl, -⟩ := Prod.mk.inj (Option.some.inj h)
    exact Effects.refl _
  · obtain ⟨d₂, hd₂, h⟩ := Option.bind_eq_some_iff.mp h
    obtain ⟨rfl, -⟩ := Prod.mk.inj (Option.some.inj h)
    exact hbuild.trans ((mark_builds hentity rfl).trans
      (modifyPerms_builds (fun _ => ⟨_, rfl⟩) hlock hd₂))

theorem vsCreateUserNode_builds {parent userId : ℕ} {realname : List UInt8}
    (h : d.vsCreateUserNode parent userId realname = some d') : Effects builds d d' := by
  obtain ⟨⟨d₁, created⟩, hcreate, h⟩ := Option.bind_eq_some_iff.mp h
  have hnode := createSysNode_builds hcreate
  cases created with
  | none =>
      obtain rfl := Option.some.inj h
      exact hnode
  | some n =>
      obtain ⟨⟨d₂, tg⟩, hd₂, h⟩ := Option.bind_eq_some_iff.mp h
      obtain ⟨htg, -, hg⟩ := vsTaggroupCreate_builds (b := 0) (x := 0) (Nat.zero_le _)
        (Nat.zero_le _) hd₂
      cases tg with
      | none =>
          obtain rfl := Option.some.inj h
          exact hnode.trans htg
      | some g =>
          obtain ⟨htag, -⟩ := createSysTag_builds (b := 0) (x := 0) (Nat.zero_le _) h
          exact hnode.trans (htg.trans ((mark_builds (hg g rfl).2 rfl).trans htag))

/-- The root of the server before the other nodes are created. -/
def firstNode (users : List VSUser) (superUser otherUsers : ℕ) : VSData :=
  { empty users superUser otherUsers with
    next := 3
    nodes := [(vrsRootNodeId, 1)]
    entity := Function.update (fun _ => none) 1 (some ⟨.reserved, []⟩)
    node := Function.update (fun _ => none) 1 (some (vsNodeInit vrsRootNodeId 0 superUser)) }

/-- The nodes of the server are built below the root, which stands at the first
address. -/
theorem vsNodesInit_cases {users : List VSUser} {superUser otherUsers : ℕ}
    {realname : ℕ → List UInt8} (h : vsNodesInit users superUser otherUsers realname = some d') :
    ∃ d₁ avatar, Effects builds (firstNode users superUser otherUsers) d₁ ∧
      Effects builds { d₁ with rootNode := 1, avatarNode := avatar } d' := by
  simp only [vsNodesInit, Option.bind_eq_bind, Option.bind_eq_some_iff] at h
  obtain ⟨⟨d₁, root⟩, hd₁, ⟨d₂, avatar⟩, hd₂, ⟨d₃, userParent⟩, hd₃, ⟨d₄, _⟩, hd₄, root', hroot,
    avatar', -, userParent', -, h⟩ := h
  obtain rfl : root = some root' := hroot
  have hfirst : Effects builds (firstNode users superUser otherUsers) d₁ ∧ root' = 1 := by
    simp only [createSysNode, Option.bind_eq_bind, Option.bind_eq_some_iff] at hd₁
    obtain ⟨⟨e₁, n⟩, hcreate, hd₁⟩ := hd₁
    have hempty : (empty users superUser otherUsers).vsNodeCreateLinked 0 none superUser
        vrsRootNodeId 0 = some (firstNode users superUser otherUsers, some 1) := rfl
    obtain ⟨rfl, rfl⟩ := Prod.mk.inj (Option.some.inj (hempty.symm.trans hcreate))
    obtain ⟨e₂, he₂, hd₁⟩ := Option.bind_eq_some_iff.mp hd₁
    obtain ⟨rfl, hn⟩ := Prod.mk.inj (Option.some.inj hd₁)
    have hentity : (firstNode users superUser otherUsers).entity 1 = some ⟨.reserved, []⟩ := by
      simp [firstNode]
    have hlock : ∀ node, (firstNode users superUser otherUsers).node 1 = some node →
        node.lock = none := by
      intro node hnode
      simp only [firstNode, Function.update_self] at hnode
      rw [← Option.some.inj hnode]
      rfl
    exact ⟨(mark_builds hentity rfl).trans (modifyPerms_builds (fun _ => ⟨_, rfl⟩) (by exact hlock) he₂),
      (Option.some.inj hn).symm⟩
  obtain ⟨hfirst, rfl⟩ := hfirst
  refine ⟨d₄, avatar', hfirst.trans ((createSysNode_builds hd₂).trans
    ((createSysNode_builds hd₃).trans (createSysNode_builds hd₄))), ?_⟩
  exact foldlM_rel Effects.refl Effects.trans
    (fun t user t' _ _ hbody => vsCreateUserNode_builds hbody) h

end SysNodes

end VSData

/-! ## Steps of the server -/

/-- The kinds of changes a command makes. -/
def NodeCmd.kinds (s : ℕ) : NodeCmd → Set VSData.EffectKind
  | .nodeCreate .. => {.newNode, .mark, .permit, .push, .follow}
  | .nodeCreateAck .. | .taggroupCreateAck .. | .layerCreateAck .. => {.push, .ack}
  | .tagCreateAck .. => {.push, .pushSet, .ack}
  | .nodeDestroy .. | .taggroupDestroy .. | .tagDestroy .. | .layerDestroy .. => {.push, .tell}
  | .nodeDestroyAck .. => {.drop, .dropNode}
  | .taggroupDestroyAck .. | .tagDestroyAck .. => {.drop, .remove}
  | .layerDestroyAck .. => {.drop, .removeLayer}
  | .nodeSubscribe .. => {.subscribe s, .push, .follow}
  | .nodeUnsubscribe .. | .taggroupUnsubscribe .. | .layerUnsubscribe .. => VSData.leaves s
  | .nodeLink .. => {.move, .push, .follow}
  | .nodePerm .. => {.access, .push, .follow}
  | .nodeOwner .. => {.owner, .push}
  | .nodeLock .. | .nodeUnlock .. => {.lock s, .push}
  | .nodePrio .. => {.prio}
  | .taggroupCreate .. | .tagCreate .. => {.create, .mark, .push, .follow}
  | .layerCreate .. => {.createLayer, .mark, .push, .follow}
  | .taggroupSubscribe .. => {.join, .push, .follow, .pushSet}
  | .layerSubscribe .. => {.join, .push}
  | .tagSet .. => {.value, .pushSet}
  | .layerSetValue .. | .layerUnsetValue .. => {.value, .push}

/-- The kinds of changes an event makes. -/
def NodeEvent.kinds : NodeEvent → Set VSData.EffectKind
  | .command s cmd => cmd.kinds s
  | .login .. => VSData.builds ∪ {.push, .follow, .session}
  | .disconnect s => VSData.departs s ∪ {.push, .tell, .removeNode, .session}

namespace VSData

variable {d d' : VSData} {s : ℕ}

theorem Acked.effects {kind : EntityKind} {a : ℕ} (h : Acked kind s a d d') :
    Effects (ackPushes kind ∪ {.ack}) d d' := by
  obtain ⟨e, e', d₁, he, hack, hpush, rfl⟩ := h.exists_entity
  have hkept := hpush.ackPushes_kept
  have he₁ : d₁.entity a = some e := by
    rw [hkept]
    exact he
  have hack₁ : e.createAck d₁.subSession s kind = some e' := by
    rw [hkept]
    exact hack
  exact (hpush.mono fun _ hk => Or.inl hk).trans ((Effect.ack he₁ hack₁).effects (Or.inr rfl))

/-- Only tags have values that are sent. -/
theorem Acked.effects_of_ne_tag {kind : EntityKind} {a : ℕ} (h : Acked kind s a d d')
    (hkind : kind ≠ .tag) : Effects {.push, .ack} d d' := by
  refine h.effects.mono fun k hk => ?_
  rcases hk with (rfl | ⟨rfl, -⟩) | rfl
  · exact Or.inl rfl
  · exact absurd rfl hkind
  · exact Or.inr rfl

theorem vsHandleNodeCmd_effects {cmd : NodeCmd} (hfresh : d.Fresh)
    (h : d.vsHandleNodeCmd s cmd = some d') : Effects (cmd.kinds s) d d' := by
  cases cmd with
  | nodeCreate => exact vsHandleNodeCreate_effects hfresh h
  | nodeCreateAck =>
      rcases vsHandleNodeCreateAck_acked h with rfl | ⟨n, -, hack⟩
      · exact Effects.refl _
      · exact hack.effects_of_ne_tag (by simp)
  | nodeDestroy => exact vsHandleNodeDestroy_effects h
  | nodeDestroyAck => exact vsHandleNodeDestroyAck_effects h
  | nodeSubscribe => exact vsHandleNodeSubscribe_effects h
  | nodeUnsubscribe => exact vsHandleNodeUnsubscribe_leaves h
  | nodeLink => exact vsHandleLinkChange_effects h
  | nodePerm => exact vsHandleNodePerm_effects h
  | nodeOwner => exact vsHandleNodeOwner_effects h
  | nodeLock => exact vsHandleNodeLock_effects h
  | nodeUnlock => exact vsHandleNodeUnlock_effects h
  | nodePrio => exact vsHandleNodePrio_effects h
  | taggroupCreate => exact vsHandleTaggroupCreate_effects h
  | taggroupCreateAck =>
      rcases vsHandleTaggroupCreateAck_acked h with rfl | ⟨n, node, g, -, -, -, hack⟩
      · exact Effects.refl _
      · exact hack.effects_of_ne_tag (by simp)
  | taggroupDestroy => exact vsHandleTaggroupDestroy_effects h
  | taggroupDestroyAck => exact vsHandleTaggroupDestroyAck_effects h
  | taggroupSubscribe => exact vsHandleTaggroupSubscribe_effects h
  | taggroupUnsubscribe => exact (vsHandleTaggroupUnsubscribe_detaches h).leaves_of_detaches
  | tagCreate => exact vsHandleTagCreate_effects h
  | tagCreateAck =>
      rcases vsHandleTagCreateAck_acked h with rfl | ⟨n, node, g, tg, a, -, -, -, -, -, hack⟩
      · exact Effects.refl _
      · refine hack.effects.mono fun k hk => ?_
        rcases hk with (rfl | ⟨-, rfl⟩) | rfl
        · exact Or.inl rfl
        · exact Or.inr (Or.inl rfl)
        · exact Or.inr (Or.inr rfl)
  | tagDestroy => exact vsHandleTagDestroy_effects h
  | tagDestroyAck => exact vsHandleTagDestroyAck_cases h
  | tagSet => exact vsHandleTagSet_effects h
  | layerCreate => exact vsHandleLayerCreate_effects h
  | layerCreateAck =>
      rcases vsHandleLayerCreateAck_acked h with rfl | ⟨n, node, a, -, -, -, hack⟩
      · exact Effects.refl _
      · exact hack.effects_of_ne_tag (by simp)
  | layerDestroy => exact vsHandleLayerDestroy_effects h
  | layerDestroyAck => exact vsHandleLayerDestroyAck_effects h
  | layerSubscribe => exact vsHandleLayerSubscribe_effects h
  | layerUnsubscribe => exact (vsHandleLayerUnsubscribe_detaches h).leaves_of_detaches
  | layerSetValue => exact vsHandleLayerSetValue_effects h
  | layerUnsetValue => exact vsHandleLayerUnsetValue_effects h

/-- **One step.**  An event makes changes of its kinds only. -/
theorem step_effects {event : NodeEvent} (hfresh : d.Fresh) (h : d.step event = some d') :
    Effects event.kinds d d' := by
  cases event with
  | command s cmd =>
      rcases ite_cases h with rfl | ⟨-, h⟩
      · exact Effects.refl _
      · exact vsHandleNodeCmd_effects hfresh h
  | login s heap heap' userId stream info =>
      simp only [step] at h
      split at h
      · obtain rfl := Option.some.inj h
        exact Effects.refl _
      obtain ⟨d₁, d₂, hbuild, hsend, hsession⟩ := login_cases hfresh h
      have hsofar : Effects (NodeEvent.login s heap heap' userId stream info).kinds d d₂ := by
        refine (hbuild.mono fun _ hk => Or.inl hk).trans (hsend.mono fun k hk => Or.inr ?_)
        rcases hk with rfl | rfl
        · exact Or.inl rfl
        · exact Or.inr (Or.inl rfl)
      rcases hsession with rfl | ⟨user, avatarId, -, rfl⟩
      · exact hsofar
      · exact hsofar.trans ((Effect.session _).effects (Or.inr (Or.inr (Or.inr rfl))))
  | disconnect s =>
      rcases ite_cases h with rfl | ⟨-, h⟩
      · exact Effects.refl _
      obtain ⟨d₁, d₂, info, hdeparts, hbranch, -, rfl⟩ := disconnect_cases h
      refine (hdeparts.mono fun _ hk => Or.inl hk).trans ((hbranch.mono fun k hk => Or.inr ?_).trans
        ((Effect.session _).effects (Or.inr (Or.inr (Or.inr (Or.inr rfl))))))
      rcases hk with rfl | rfl | rfl
      · exact Or.inl rfl
      · exact Or.inr (Or.inl rfl)
      · exact Or.inr (Or.inr (Or.inl rfl))

end VSData

end Verse
