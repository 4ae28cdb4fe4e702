import Mathlib.Data.List.Nodup
import Verse.Nodes.NodeChanges

/-!
# Subscribers of nodes

`vs_handle_node_subscribe` refuses a client that is subscribed already, and a subscriber is freed
where it is taken out of the list of its node.  Along the runs of the server a client therefore
stands at most once in the list of a node, and every record in a list is in memory
(`run_subscribed`).

`freeSub` frees the record whatever lists it stands in.  What makes this right is that a record
never gets into the list of another node (`OnlyIn`), which the functions that unsubscribe a
client from a whole branch keep for the records they still have to free.
-/

namespace Verse

open Lib

namespace VSData

variable {d d' : VSData} {k : EffectKind} {n r s : ℕ}

/-- The records in the lists of nodes are in memory, no session stands twice in a list, and no
record stands in two lists. -/
structure Subscribed (d : VSData) : Prop where
  live : ∀ n node r, d.node n = some node → r ∈ node.nodeSubs → (d.subSession r).isSome
  once : ∀ n node, d.node n = some node → (node.nodeSubs.map d.subSession).Nodup
  apart : ∀ n m node mnode r, d.node n = some node → d.node m = some mnode →
    r ∈ node.nodeSubs → r ∈ mnode.nodeSubs → m = n

/-- The record stands in the list of no other node. -/
def OnlyIn (d : VSData) (n r : ℕ) : Prop :=
  ∀ m mnode, d.node m = some mnode → r ∈ mnode.nodeSubs → m = n

theorem Subscribed.onlyIn (h : Subscribed d) {node : VSNode} (hnode : d.node n = some node)
    (hr : r ∈ node.nodeSubs) : d.OnlyIn n r :=
  fun m mnode hmnode hmr => h.apart n m node mnode r hnode hmnode hr hmr

theorem Subscribed.lt_next (h : Subscribed d) (hfresh : d.Fresh) {node : VSNode}
    (hnode : d.node n = some node) (hr : r ∈ node.nodeSubs) : r < d.next := by
  have hlive := h.live n node r hnode hr
  by_contra hge
  rw [subSession, hfresh.sub r (Nat.le_of_not_lt hge)] at hlive
  cases hlive

/-! ## Changes that leave the lists alone -/

/-- Only two kinds of changes are about the list of subscribers of a node. -/
theorem Effect.nodeSubs_kept (he : Effect k d d') (hfresh : d.Fresh)
    (hsubscribe : ∀ s, k ≠ .subscribe s) (hfree : ∀ s, k ≠ .freeSub s) {node' : VSNode}
    (hnode' : d'.node n = some node') :
    node'.nodeSubs = [] ∨ ∃ node, d.node n = some node ∧ node'.nodeSubs = node.nodeSubs := by
  rcases he.node_after hfresh n with
    hsame | ⟨hnone, -⟩ | ⟨-, new, hnew, hisnew⟩ | ⟨node, node'', hnode, hnode'', hchange⟩
  · exact Or.inr ⟨node', by rw [← hsame, hnode'], rfl⟩
  · rw [hnone] at hnode'
    cases hnode'
  · obtain rfl := Option.some.inj (hnode'.symm.trans hnew)
    exact Or.inl hisnew.nodeSubs
  · obtain rfl := Option.some.inj (hnode'.symm.trans hnode'')
    refine Or.inr ⟨node, hnode, ?_⟩
    cases hchange with
    | subs hk =>
        rcases hk with ⟨s, rfl⟩ | ⟨s, rfl⟩
        · exact absurd rfl (hsubscribe s)
        · exact absurd rfl (hfree s)
    | _ => rfl

theorem Effect.subscribed (he : Effect k d d') (hfresh : d.Fresh)
    (hsubscribe : ∀ s, k ≠ .subscribe s) (hfree : ∀ s, k ≠ .freeSub s) (h : Subscribed d) :
    Subscribed d' := by
  have hsession := he.subSession_kept hsubscribe hfree
  -- a record in a list was in the list of the same node
  have hold : ∀ m mnode r, d'.node m = some mnode → r ∈ mnode.nodeSubs →
      ∃ node, d.node m = some node ∧ r ∈ node.nodeSubs := by
    intro m mnode r hmnode hr
    rcases he.nodeSubs_kept hfresh hsubscribe hfree hmnode with hnil | ⟨node, hnode, hsame⟩
    · rw [hnil] at hr
      cases hr
    · exact ⟨node, hnode, hsame ▸ hr⟩
  refine ⟨fun m mnode r hmnode hr => ?_, fun m mnode hmnode => ?_,
    fun m m' mnode mnode' r hmnode hmnode' hr hr' => ?_⟩
  · obtain ⟨node, hnode, hr⟩ := hold m mnode r hmnode hr
    rw [hsession]
    exact h.live m node r hnode hr
  · rw [hsession]
    rcases he.nodeSubs_kept hfresh hsubscribe hfree hmnode with hnil | ⟨node, hnode, hsame⟩
    · rw [hnil]
      exact List.nodup_nil
    · rw [hsame]
      exact h.once m node hnode
  · obtain ⟨node, hnode, hr⟩ := hold m mnode r hmnode hr
    obtain ⟨node', hnode', hr'⟩ := hold m' mnode' r hmnode' hr'
    exact h.apart m m' node node' r hnode hnode' hr hr'

theorem Effects.subscribed {S : Set EffectKind} (heffects : Effects S d d') (hfresh : d.Fresh)
    (hsubscribe : ∀ s, EffectKind.subscribe s ∉ S) (hfree : ∀ s, EffectKind.freeSub s ∉ S)
    (h : Subscribed d) : Subscribed d' := by
  have hkeeps : ∀ k d d', k ∈ S → Effect k d d' → d.Fresh ∧ Subscribed d →
      d'.Fresh ∧ Subscribed d' := by
    rintro k d d' hk he ⟨hfresh, h⟩
    refine ⟨he.fresh hfresh, he.subscribed hfresh ?_ ?_ h⟩
    · rintro s rfl
      exact hsubscribe s hk
    · rintro s rfl
      exact hfree s hk
  exact (heffects.invariant hkeeps ⟨hfresh, h⟩).2

/-! ## Subscribing -/

/-- The state with a new subscriber of a node. -/
def subscribed (d : VSData) (s n : ℕ) (node : VSNode) : VSData :=
  (({ d with next := d.next + 1 }).setSub d.next (some ⟨s, defaultSubscriberPrio⟩)).setNode n
    (some { node with nodeSubs := node.nodeSubs ++ [d.next] })

theorem subscribed_subSession {node : VSNode} (hr : r ≠ d.next) :
    (d.subscribed s n node).subSession r = d.subSession r := by
  simp [subscribed, subSession, setSub, setNode, Function.update_of_ne hr]

theorem subscribed_subSession_new {node : VSNode} :
    (d.subscribed s n node).subSession d.next = some s := by
  simp [subscribed, subSession, setSub, setNode]

/-- A session that is not subscribed to a node becomes a subscriber of it. -/
theorem Subscribed.subscribe (h : Subscribed d) (hfresh : d.Fresh) {node : VSNode}
    (hnode : d.node n = some node) (hnew : ∀ r ∈ node.nodeSubs, d.subSession r ≠ some s) :
    Subscribed (d.subscribed s n node) := by
  have hself : (d.subscribed s n node).node n =
      some { node with nodeSubs := node.nodeSubs ++ [d.next] } := setNode_node _ _ _
  have hother : ∀ {m}, m ≠ n → (d.subscribed s n node).node m = d.node m :=
    fun hm => setNode_node_of_ne hm _ _
  have hne : ∀ {m mnode r}, d.node m = some mnode → r ∈ mnode.nodeSubs → r ≠ d.next :=
    fun hmnode hr => Nat.ne_of_lt (h.lt_next hfresh hmnode hr)
  have hkept : ∀ {m mnode}, d.node m = some mnode →
      mnode.nodeSubs.map (d.subscribed s n node).subSession =
        mnode.nodeSubs.map d.subSession :=
    fun hmnode => List.map_congr_left fun r hr => subscribed_subSession (hne hmnode hr)
  -- a record in a list is an old one, or the new one in the list of the node
  have hold : ∀ {m mnode r}, (d.subscribed s n node).node m = some mnode → r ∈ mnode.nodeSubs →
      (∃ node, d.node m = some node ∧ r ∈ node.nodeSubs) ∨ (m = n ∧ r = d.next) := by
    intro m mnode r hmnode hr
    by_cases hm : m = n
    · subst hm
      obtain rfl := Option.some.inj (hself.symm.trans hmnode)
      rcases List.mem_append.mp hr with hr | hr
      · exact Or.inl ⟨node, hnode, hr⟩
      · exact Or.inr ⟨rfl, List.mem_singleton.mp hr⟩
    · rw [hother hm] at hmnode
      exact Or.inl ⟨mnode, hmnode, hr⟩
  refine ⟨fun m mnode r hmnode hr => ?_, fun m mnode hmnode => ?_,
    fun m m' mnode mnode' r hmnode hmnode' hr hr' => ?_⟩
  · rcases hold hmnode hr with ⟨node₀, hnode₀, hr⟩ | ⟨-, rfl⟩
    · rw [subscribed_subSession (hne hnode₀ hr)]
      exact h.live m node₀ r hnode₀ hr
    · rw [subscribed_subSession_new]
      rfl
  · by_cases hm : m = n
    · subst hm
      obtain rfl := Option.some.inj (hself.symm.trans hmnode)
      rw [List.map_append, hkept hnode, List.map_singleton, subscribed_subSession_new,
        List.nodup_append]
      refine ⟨h.once m node hnode, List.nodup_singleton _, fun t ht u hu htu => ?_⟩
      obtain ⟨r, hr, rfl⟩ := List.mem_map.mp ht
      exact hnew r hr (htu.trans (List.mem_singleton.mp hu))
    · rw [hother hm] at hmnode
      rw [hkept hmnode]
      exact h.once m mnode hmnode
  · rcases hold hmnode hr with ⟨node₀, hnode₀, hr₀⟩ | ⟨rfl, rfl⟩
    · rcases hold hmnode' hr' with ⟨node₁, hnode₁, hr₁⟩ | ⟨-, rfl⟩
      · exact h.apart m m' node₀ node₁ r hnode₀ hnode₁ hr₀ hr₁
      · exact absurd rfl (hne hnode₀ hr₀)
    · rcases hold hmnode' hr' with ⟨node₁, hnode₁, hr₁⟩ | ⟨rfl, -⟩
      · exact absurd rfl (hne hnode₁ hr₁)
      · rfl

theorem vsHandleNodeSubscribe_subscribed {nodeId : ℕ} (hfresh : d.Fresh) (h : Subscribed d)
    (hhandle : d.vsHandleNodeSubscribe s nodeId = some d') : Subscribed d' := by
  rcases withNode_cases hhandle with rfl | ⟨n, node, -, hnode, hhandle⟩
  · exact h
  rcases ite_cases hhandle with rfl | ⟨-, hhandle⟩
  · exact h
  obtain ⟨found, hfound, hhandle⟩ := Option.bind_eq_some_iff.mp hhandle
  cases found with
  | some r =>
      obtain rfl := Option.some.inj hhandle
      exact h
  | none =>
      have hsends := vsNodeSubscribe_sends hnode hhandle
      have hsubscribed := h.subscribe hfresh hnode (findSub_none hfound)
      have hfresh₁ := (Effect.subscribe (s := s) hnode).fresh hfresh
      exact hsends.subscribed hfresh₁ (by simp [sends]) (by simp [sends]) hsubscribed

/-! ## Unsubscribing -/

theorem freeSub_subSession (h : d.freeSub n r = some d') {r' : ℕ} (hr : r' ≠ r) :
    d'.subSession r' = d.subSession r' := by
  obtain ⟨sub, node, -, -, rfl⟩ := freeSub_eq_some h
  simp [subSession, setSub, setNode, Function.update_of_ne hr]

/-- A record that stands in no other list is freed. -/
theorem Subscribed.freeSub (h : Subscribed d) (honly : d.OnlyIn n r)
    (hfree : d.freeSub n r = some d') : Subscribed d' := by
  have hsession := fun r' (hr : r' ≠ r) => freeSub_subSession hfree hr
  obtain ⟨sub, node, -, hnode, rfl⟩ := freeSub_eq_some hfree
  have hself : ((d.setNode n (some { node with nodeSubs := node.nodeSubs.erase r })).setSub r
      none).node n = some { node with nodeSubs := node.nodeSubs.erase r } := setNode_node _ _ _
  have hother : ∀ {m}, m ≠ n → ((d.setNode n (some { node with
      nodeSubs := node.nodeSubs.erase r })).setSub r none).node m = d.node m :=
    fun hm => setNode_node_of_ne hm _ _
  have hnodup : node.nodeSubs.Nodup := List.Nodup.of_map _ (h.once n node hnode)
  generalize (d.setNode n (some { node with nodeSubs := node.nodeSubs.erase r })).setSub r none = d'
    at hself hother hsession ⊢
  -- a list has only old records, and the record that is freed is in none
  have hold : ∀ {m mnode}, d'.node m = some mnode →
      ∃ mnode₀, d.node m = some mnode₀ ∧ mnode.nodeSubs.Sublist mnode₀.nodeSubs ∧
        r ∉ mnode.nodeSubs := by
    intro m mnode hmnode
    by_cases hm : m = n
    · subst hm
      obtain rfl := Option.some.inj (hself.symm.trans hmnode)
      exact ⟨node, hnode, List.erase_sublist, hnodup.not_mem_erase⟩
    · rw [hother hm] at hmnode
      exact ⟨mnode, hmnode, List.Sublist.refl _, fun hr => hm (honly m mnode hmnode hr)⟩
  have hkept : ∀ {r' : ℕ} {l : List ℕ}, r' ∈ l → r ∉ l → d'.subSession r' = d.subSession r' := by
    intro r' l hr' hr
    apply hsession
    rintro rfl
    exact hr hr'
  refine ⟨fun m mnode r' hmnode hr' => ?_, fun m mnode hmnode => ?_,
    fun m m' mnode mnode' r' hmnode hmnode' hr hr' => ?_⟩
  · obtain ⟨mnode₀, hmnode₀, hsub, hr⟩ := hold hmnode
    rw [hkept hr' hr]
    exact h.live m mnode₀ r' hmnode₀ (hsub.subset hr')
  · obtain ⟨mnode₀, hmnode₀, hsub, hr⟩ := hold hmnode
    rw [List.map_congr_left fun r' hr' => hkept hr' hr]
    exact (h.once m mnode₀ hmnode₀).sublist (hsub.map _)
  · obtain ⟨mnode₀, hmnode₀, hsub, -⟩ := hold hmnode
    obtain ⟨mnode₁, hmnode₁, hsub', -⟩ := hold hmnode'
    exact h.apart m m' mnode₀ mnode₁ r' hmnode₀ hmnode₁ (hsub.subset hr) (hsub'.subset hr')

/-- A record gets into no list but that of a new subscriber. -/
theorem Effect.onlyIn (he : Effect k d d') (hfresh : d.Fresh) (hsubscribe : ∀ s, k ≠ .subscribe s)
    (h : d.OnlyIn n r) : d'.OnlyIn n r := by
  intro m mnode hmnode hr
  by_cases hfree : ∃ s, k = .freeSub s
  · obtain ⟨s, rfl⟩ := hfree
    cases he with
    | freeSub hs hfree =>
        rename_i m' r'
        obtain ⟨sub, node, -, hnode, rfl⟩ := freeSub_eq_some hfree
        by_cases hm : m = m'
        · subst hm
          have hself := (setNode_node d m _).symm.trans hmnode
          obtain rfl := Option.some.inj hself
          exact h m node hnode (List.mem_of_mem_erase hr)
        · have hold := (setNode_node_of_ne hm d _).symm.trans hmnode
          exact h m mnode hold hr
  · have hkept := he.nodeSubs_kept hfresh hsubscribe (fun s hk => hfree ⟨s, hk⟩) hmnode
    rcases hkept with hnil | ⟨node, hnode, hsame⟩
    · rw [hnil] at hr
      cases hr
    · exact h m node hnode (hsame ▸ hr)

theorem Effects.onlyIn {S : Set EffectKind} (heffects : Effects S d d') (hfresh : d.Fresh)
    (hsubscribe : ∀ s, EffectKind.subscribe s ∉ S) (h : d.OnlyIn n r) : d'.OnlyIn n r := by
  have hkeeps : ∀ k d d', k ∈ S → Effect k d d' → d.Fresh ∧ d.OnlyIn n r →
      d'.Fresh ∧ d'.OnlyIn n r := by
    rintro k d d' hk he ⟨hfresh, h⟩
    refine ⟨he.fresh hfresh, he.onlyIn hfresh ?_ h⟩
    rintro s rfl
    exact hsubscribe s hk
  exact (heffects.invariant hkeeps ⟨hfresh, h⟩).2

theorem vsNodeUnsubscribe_subscribed {fuel : ℕ} {below : Bool} (hfresh : d.Fresh)
    (h : Subscribed d) (honly : d.OnlyIn n r)
    (hleave : vsNodeUnsubscribe fuel d n r below = some d') : Subscribed d' := by
  induction fuel generalizing d d' n r below with
  | zero => cases hleave
  | succ fuel ih =>
      obtain ⟨node, sub, d₁, d₂, -, -, hloop, hdetaches, hleave⟩ := vsNodeUnsubscribe_cases hleave
      -- the branches of the children free their own records only
      have hchildren : d₁.Fresh ∧ Subscribed d₁ ∧ d₁.OnlyIn n r := by
        refine foldlM_invariant (P := fun t : VSData => t.Fresh ∧ Subscribed t ∧ t.OnlyIn n r)
          (fun t l t' _ ht hbody => ?_) ⟨hfresh, h, honly⟩ hloop
        obtain ⟨htfresh, ht, htonly⟩ := ht
        obtain ⟨link, -, hbody⟩ := Option.bind_eq_some_iff.mp hbody
        obtain ⟨child, hchild, hbody⟩ := Option.bind_eq_some_iff.mp hbody
        obtain ⟨found, hfound, hbody⟩ := Option.bind_eq_some_iff.mp hbody
        cases found with
        | none =>
            obtain rfl := Option.some.inj hbody
            exact ⟨htfresh, ht, htonly⟩
        | some r' =>
            obtain ⟨hr', hsession⟩ := findSub_some hfound
            have hleaves := vsNodeUnsubscribe_leaves hsession hbody
            exact ⟨hleaves.fresh htfresh, ih htfresh ht (ht.onlyIn hchild hr') hbody,
              hleaves.onlyIn htfresh (by simp [leaves]) htonly⟩
      obtain ⟨hfresh₁, h₁, honly₁⟩ := hchildren
      have h₂ := hdetaches.subscribed hfresh₁ (by simp [detaches]) (by simp [detaches]) h₁
      exact h₂.freeSub (hdetaches.onlyIn hfresh₁ (by simp [detaches]) honly₁) hleave

theorem vsHandleNodeUnsubscribe_subscribed {nodeId : ℕ} (hfresh : d.Fresh) (h : Subscribed d)
    (hhandle : d.vsHandleNodeUnsubscribe s nodeId = some d') : Subscribed d' := by
  rcases withNode_cases hhandle with rfl | ⟨n, node, -, hnode, hhandle⟩
  · exact h
  rcases ite_cases hhandle with rfl | ⟨-, hhandle⟩
  · exact h
  obtain ⟨found, hfound, hhandle⟩ := Option.bind_eq_some_iff.mp hhandle
  cases found with
  | none =>
      obtain rfl := Option.some.inj hhandle
      exact h
  | some r =>
      exact vsNodeUnsubscribe_subscribed hfresh h (h.onlyIn hnode (findSub_some hfound).1) hhandle

/-! ## Disconnecting -/

theorem freeAvatarSubs_subscribed {node : VSNode} {wasLocked : Bool} {subs : List ℕ}
    (hfresh : d.Fresh) (h : Subscribed d) (honly : ∀ r ∈ subs, d.OnlyIn n r)
    (hfree : freeAvatarSubs n node s wasLocked d subs = some d') : Subscribed d' := by
  induction subs generalizing d with
  | nil =>
      obtain rfl := Option.some.inj hfree
      exact h
  | cons r rest ih =>
      simp only [freeAvatarSubs, Option.bind_eq_bind, Option.bind_eq_some_iff] at hfree
      obtain ⟨sub, hsub, hfree⟩ := hfree
      have hrest : ∀ {S d₁}, Effects S d d₁ → (∀ s, EffectKind.subscribe s ∉ S) →
          d₁.Fresh ∧ ∀ r ∈ rest, d₁.OnlyIn n r := fun heffects hS =>
        ⟨heffects.fresh hfresh, fun r' hr' =>
          heffects.onlyIn hfresh hS (honly r' (List.mem_cons_of_mem r hr'))⟩
      split at hfree
      · obtain ⟨d₁, hd₁, hfree⟩ := Option.bind_eq_some_iff.mp hfree
        have h₁ := h.freeSub (honly r (by simp)) hd₁
        have hfreed := (Effect.freeSub (subSession_of_sub hsub) hd₁).effects
          (Set.mem_singleton _)
        obtain ⟨hfresh₁, honly₁⟩ := hrest hfreed (by simp)
        split at hfree
        · exact ih hfresh₁ h₁ honly₁ hfree
        · obtain rfl := Option.some.inj hfree
          exact h₁
      · obtain ⟨d₁, hd₁, hfree⟩ := Option.bind_eq_some_iff.mp hfree
        have hpush : Effects pushes d d₁ := by
          apply pushSome_pushes _ hd₁
          intro c hc
          split at hc
          · rw [← Option.some.inj hc]
            rfl
          · cases hc
        obtain ⟨hfresh₁, honly₁⟩ := hrest hpush (by simp [pushes])
        exact ih hfresh₁ (hpush.subscribed hfresh (by simp [pushes]) (by simp [pushes]) h) honly₁
          hfree

theorem vsFreeAvatarReference_subscribed {fuel : ℕ} (hfresh : d.Fresh) (h : Subscribed d)
    (hfree : vsFreeAvatarReference s fuel d n = some d') : Subscribed d' := by
  induction fuel generalizing d d' n with
  | zero => cases hfree
  | succ fuel ih =>
      obtain ⟨node, d₁, d₂, node₂, hdetaches, hloop, hnode₂, hfree⟩ :=
        vsFreeAvatarReference_cases hfree
      have hchildren : d₂.Fresh ∧ Subscribed d₂ := by
        refine foldlM_invariant (P := fun t : VSData => t.Fresh ∧ Subscribed t)
          (fun t l t' _ ht hbody => ?_)
          ⟨hdetaches.fresh hfresh,
            hdetaches.subscribed hfresh (by simp [detaches]) (by simp [detaches]) h⟩ hloop
        obtain ⟨link, -, hbody⟩ := Option.bind_eq_some_iff.mp hbody
        obtain ⟨t₁, ht₁, hbody⟩ := Option.bind_eq_some_iff.mp hbody
        have hfresh₁ := (vsFreeAvatarReference_departs ht₁).fresh ht.1
        have hfollower := freeFollower_detaches hbody
        exact ⟨hfollower.fresh hfresh₁, hfollower.subscribed hfresh₁ (by simp [detaches])
          (by simp [detaches]) (ih ht.1 ht.2 ht₁)⟩
      obtain ⟨hfresh₂, h₂⟩ := hchildren
      have hlock : Effect (.lock s) d₂ (d₂.setNode n (some { node₂ with
          lock := if node₂.lock == some s then none else node₂.lock })) := by
        refine Effect.lock hnode₂ ?_
        by_cases hown : node₂.lock = some s <;> simp [hown]
      refine freeAvatarSubs_subscribed (hlock.fresh hfresh₂)
        (hlock.subscribed hfresh₂ (by simp) (by simp) h₂) (fun r hr => ?_) hfree
      exact hlock.onlyIn hfresh₂ (by simp) (h₂.onlyIn hnode₂ hr)

theorem disconnect_subscribed (hfresh : d.Fresh) (h : Subscribed d)
    (hdisconnect : d.disconnect s = some d') : Subscribed d' := by
  simp only [disconnect, Option.bind_eq_bind, Option.bind_eq_some_iff] at hdisconnect
  obtain ⟨d₁, hd₁, d₂, hd₂, hdisconnect⟩ := hdisconnect
  obtain rfl := Option.some.inj hdisconnect
  have hfresh₁ := (vsNodeFreeAvatarReference_departs hd₁).fresh hfresh
  have h₁ : Subscribed d₁ := by
    unfold vsNodeFreeAvatarReference at hd₁
    split at hd₁
    · obtain rfl := Option.some.inj hd₁
      exact h
    · exact vsFreeAvatarReference_subscribed hfresh h hd₁
  have hbranch := vsNodeDestroyAvatarNode_effects hd₂
  have h₂ := hbranch.subscribed hfresh₁ (by simp) (by simp) h₁
  exact ⟨h₂.live, h₂.once, h₂.apart⟩

/-! ## Runs -/

theorem Subscribed.step (hfresh : d.Fresh) (h : Subscribed d) {event : NodeEvent}
    (hstep : d.step event = some d') : Subscribed d' := by
  have hkinds := step_effects hfresh hstep
  cases event with
  | command s cmd =>
      rcases ite_cases hstep with rfl | ⟨-, hstep⟩
      · exact h
      cases cmd with
      | nodeSubscribe => exact vsHandleNodeSubscribe_subscribed hfresh h hstep
      | nodeUnsubscribe => exact vsHandleNodeUnsubscribe_subscribed hfresh h hstep
      | taggroupUnsubscribe =>
          exact (vsHandleTaggroupUnsubscribe_detaches hstep).subscribed hfresh
            (by simp [detaches]) (by simp [detaches]) h
      | layerUnsubscribe =>
          exact (vsHandleLayerUnsubscribe_detaches hstep).subscribed hfresh
            (by simp [detaches]) (by simp [detaches]) h
      | _ =>
          exact hkinds.subscribed hfresh (by simp [NodeEvent.kinds, NodeCmd.kinds])
            (by simp [NodeEvent.kinds, NodeCmd.kinds]) h
  | login =>
      exact hkinds.subscribed hfresh (by simp [NodeEvent.kinds, builds])
        (by simp [NodeEvent.kinds, builds]) h
  | disconnect s =>
      rcases ite_cases hstep with rfl | ⟨-, hstep⟩
      · exact h
      · exact disconnect_subscribed hfresh h hstep

theorem vsNodesInit_subscribed {users : List VSUser} {superUser otherUsers : ℕ}
    {realname : ℕ → List UInt8} (h : vsNodesInit users superUser otherUsers realname = some d) :
    d.Fresh ∧ Subscribed d := by
  have hnil : ∀ n node, (firstNode users superUser otherUsers).node n = some node →
      node.nodeSubs = [] := by
    intro n node hnode
    by_cases hn : n = 1
    · subst hn
      obtain rfl : vsNodeInit vrsRootNodeId 0 superUser = node := by simpa [firstNode] using hnode
      rfl
    · simp [firstNode, Function.update_of_ne hn] at hnode
  have hfirst : Subscribed (firstNode users superUser otherUsers) := by
    refine ⟨fun n node r hnode hr => ?_, fun n node hnode => ?_,
      fun n m node mnode r hnode _ hr _ => ?_⟩
    · rw [hnil n node hnode] at hr
      cases hr
    · rw [hnil n node hnode]
      exact List.nodup_nil
    · rw [hnil n node hnode] at hr
      cases hr
  refine vsNodesInit_invariant Subscribed hfirst (fun d avatar h => ⟨h.live, h.once, h.apart⟩)
    (fun k d d' hk hfresh he h => ?_) h
  refine he.subscribed hfresh ?_ ?_ h
  · rintro s rfl
    simp [builds] at hk
  · rintro s rfl
    simp [builds] at hk

/-- **The subscribers in every run.**  From the nodes the server starts with, and for any events
of any clients, the records in the lists of nodes are in memory, and no session stands twice in a
list. -/
theorem run_subscribed {users : List VSUser} {superUser otherUsers : ℕ}
    {realname : ℕ → List UInt8} (hinit : vsNodesInit users superUser otherUsers realname = some d)
    {events : List NodeEvent} (hrun : run step d events = some d') : d'.Fresh ∧ Subscribed d' :=
  run_keeps (fun (d : VSData) _ _ (hd : d.Fresh ∧ Subscribed d) hstep =>
    ⟨step_fresh hd.1 hstep, Subscribed.step hd.1 hd.2 hstep⟩) (vsNodesInit_subscribed hinit) hrun

end VSData

end Verse
