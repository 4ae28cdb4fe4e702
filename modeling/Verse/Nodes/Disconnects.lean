import Verse.Nodes.PlaceWalks

/-!
# Leaving the whole tree

`vs_node_free_avatar_reference` is called when a connection ends.  It removes what the session
left in the tree, and unlocks the nodes it had locked.
-/

namespace Verse

open Lib

namespace VSData

variable {d : VSData} {s root : ℕ} {xs ys : List RecordPlace}

/-! ## Trees with records of sessions -/

/-- A tree of nodes in which every record of a session is in memory, and no session has two
records at one place.  The records at the tag groups, tags and layers of a node are those of
its subscribers; a follower of a node may be a subscriber of any node.  Nothing else is in
memory. -/
structure SessionTree (root : ℕ) (d : VSData) : Prop where
  found : d.vsNodeFind vrsRootNodeId = some root
  stored : (d.node root).isSome
  rooted : Rooted root d
  unused : ∀ a, d.next ≤ a → d.node a = none
  subscribed : Subscribed d
  owned : d.ContentOwned
  tagGroups : ∀ n node g, d.node n = some node → g ∈ node.tagGroups.map Prod.snd →
    ∃ tg, d.tagGroup g = some tg ∧ d.Attended node tg.subs ∧ d.FollowedFrom node g ∧
      ∀ b ∈ tg.tags, d.FollowedFrom node b.2 ∧
        ∀ e f, d.entity b.2 = some e → f ∈ e.folls → f.nodeSub ∈ tg.subs
  layers : ∀ n node a, d.node n = some node → a ∈ node.layers.map Prod.snd →
    ∃ layer, d.layer a = some layer ∧ d.Attended node layer.subs ∧ d.FollowedFrom node a
  nodes : ∀ n node, d.node n = some node → ∃ e, d.entity n = some e ∧
    (e.folls.map fun f => d.subSession f.nodeSub).Nodup ∧
    ∀ f ∈ e.folls, ∃ m mnode, d.node m = some mnode ∧ f.nodeSub ∈ mnode.nodeSubs
  unfollowed : ∀ e, d.entity root = some e → e.folls = []
  tagGroupPlaced : ∀ g tg, d.tagGroup g = some tg → ∃ n node, d.node n = some node ∧
    g ∈ node.tagGroups.map Prod.snd
  layerPlaced : ∀ a layer, d.layer a = some layer → ∃ n node, d.node n = some node ∧
    a ∈ node.layers.map Prod.snd
  entityPlaced : ∀ a e, d.entity a = some e → (d.node a).isSome ∨ ∃ x, d.IsPart x a

theorem Linked.inBranch_iff (h : Linked root d) {n m : ℕ} : d.InBranch n m ↔ d.UpTo m n := by
  rw [InBranch, UpTo, ← Relation.reflTransGen_swap]
  constructor
  · exact Relation.ReflTransGen.mono (fun _ _ => h.isChild_iff.mp) _ _
  · exact Relation.ReflTransGen.mono (fun _ _ => h.isChild_iff.mpr) _ _

/-- The branches of two children of a node have no node in common. -/
theorem Rooted.branches_apart (h : Rooted root d) {p c c' m : ℕ} (hc : d.IsChild p c)
    (hc' : d.IsChild p c') (hne : c ≠ c') (hm : d.InBranch c m) : ¬ d.InBranch c' m := by
  intro hm'
  -- one of the children would be above the other, and so above the node itself
  have hcycle : ∀ {a b}, d.IsChild p a → d.IsChild p b → a ≠ b → ¬ d.UpTo a b := by
    intro a b ha hb hab hup
    have hap := h.linked.isChild_iff.mp ha
    rcases Relation.ReflTransGen.cases_head hup with heq | ⟨q, hq, hup⟩
    · exact hab heq
    · obtain rfl := isParent_unique hap hq
      exact h.acyclic p (Relation.TransGen.tail' hup (h.linked.isChild_iff.mp hb))
  have hunique : Relator.RightUnique d.IsParent := fun _ _ _ => isParent_unique
  rcases Relation.ReflTransGen.total_of_right_unique hunique
    (h.linked.inBranch_iff.mp hm) (h.linked.inBranch_iff.mp hm') with hup | hup
  · exact hcycle hc hc' hne hup
  · exact hcycle hc' hc hne.symm hup

/-- A node is not below its child. -/
theorem Rooted.not_inBranch (h : Rooted root d) {p c : ℕ} (hc : d.IsChild p c) :
    ¬ d.InBranch c p := fun hp =>
  h.acyclic p (Relation.TransGen.tail' (h.linked.inBranch_iff.mp hp) (h.linked.isChild_iff.mp hc))

theorem mem_childrenOf {n c : ℕ} {node : VSNode} (hnode : d.node n = some node) :
    c ∈ d.childrenOf node ↔ d.IsChild n c := by
  rw [childrenOf, List.mem_filterMap]
  constructor
  · rintro ⟨l, hl, hc⟩
    obtain ⟨link, hlink, rfl⟩ := Option.map_eq_some_iff.mp hc
    exact ⟨node, l, link, hnode, hl, hlink, rfl⟩
  · rintro ⟨node', l, link, hnode', hl, hlink, rfl⟩
    obtain rfl := Option.some.inj (hnode.symm.trans hnode')
    exact ⟨l, hl, by rw [hlink, Option.map_some]⟩

/-- The links of a node lead to different children. -/
theorem Linked.links_nodup (h : Linked root d) {n : ℕ} {node : VSNode}
    (hnode : d.node n = some node) : node.childrenLinks.Nodup := by
  refine List.nodup_iff_count_le_one.mpr fun l => ?_
  by_cases hl : l ∈ node.childrenLinks
  · obtain ⟨c, cnode, hlink, hcnode, hparent⟩ := h.children n node l hnode hl
    have hc : c ≠ root := by
      rintro rfl
      rw [h.unlinked cnode hcnode] at hparent
      cases hparent
    obtain ⟨l', p, pnode, hl', hlink', hpnode, hcount⟩ := h.parent c cnode hcnode hc
    obtain rfl := Option.some.inj (hparent.symm.trans hl')
    obtain rfl : n = p := congrArg VSLink.parent (Option.some.inj (hlink.symm.trans hlink'))
    obtain rfl := Option.some.inj (hnode.symm.trans hpnode)
    exact hcount.le
  · rw [List.count_eq_zero_of_not_mem hl]
    exact Nat.zero_le 1

theorem Linked.link_unique (h : Linked root d) {n l l' c : ℕ} {node : VSNode}
    (hnode : d.node n = some node) (hl : l ∈ node.childrenLinks) (hl' : l' ∈ node.childrenLinks)
    (hc : (d.link l).map VSLink.child = some c) (hc' : (d.link l').map VSLink.child = some c) :
    l = l' := by
  have hparent : ∀ {k}, k ∈ node.childrenLinks → (d.link k).map VSLink.child = some c →
      ∃ cnode, d.node c = some cnode ∧ cnode.parentLink = some k := by
    intro k hk hkc
    obtain ⟨m, mnode, hlink, hmnode, hmk⟩ := h.children n node k hnode hk
    rw [hlink, Option.map_some] at hkc
    obtain rfl : m = c := Option.some.inj hkc
    exact ⟨mnode, hmnode, hmk⟩
  obtain ⟨cnode, hcnode, hcl⟩ := hparent hl hc
  obtain ⟨cnode', hcnode', hcl'⟩ := hparent hl' hc'
  obtain rfl := Option.some.inj (hcnode.symm.trans hcnode')
  exact Option.some.inj (hcl.symm.trans hcl')

/-! ## The places of a branch -/

theorem visits_succ {fuel n : ℕ} {node : VSNode} (hnode : d.node n = some node) :
    d.visits s (fuel + 1) n =
      (node.tagGroups.flatMap fun b => d.tagGroupVisits s b.2) ++
      (node.layers.flatMap fun b => layerVisits b.2) ++
      ((d.childrenOf node).flatMap fun c => d.visits s fuel c ++ [.followers c]) ++ [.node n] := by
  rw [visits, hnode]

theorem node_mem_visits {fuel n m : ℕ} (hm : .node m ∈ d.visits s fuel n) : d.InBranch n m := by
  induction fuel generalizing n with
  | zero => cases hm
  | succ fuel ih =>
      cases hnode : d.node n with
      | none =>
          rw [visits, hnode] at hm
          cases hm
      | some node =>
          rw [visits_succ hnode] at hm
          simp only [List.mem_append, List.mem_flatMap, List.mem_singleton] at hm
          rcases hm with ((⟨b, -, hm⟩ | ⟨b, -, hm⟩) | ⟨c, hc, hm | hm⟩) | hm
          · exact absurd hm (node_not_mem_tagGroupVisits m b.2)
          · simp [layerVisits] at hm
          · exact Relation.ReflTransGen.head ((mem_childrenOf hnode).mp hc) (ih hm)
          · cases hm
          · obtain rfl := RecordPlace.node.inj hm
            exact Relation.ReflTransGen.refl

theorem visits_complete (fuel n : ℕ) : d.Complete s (d.visits s fuel n) := by
  induction fuel generalizing n with
  | zero => exact complete_of_no_tagGroup (by simp [visits])
  | succ fuel ih =>
      cases hnode : d.node n with
      | none =>
          rw [visits, hnode]
          exact complete_of_no_tagGroup (by simp)
      | some node =>
          rw [visits_succ hnode]
          refine Complete.append (Complete.append (Complete.append ?_ ?_) ?_) ?_
          · exact Complete.flatMap fun b _ => tagGroupVisits_complete b.2
          · exact Complete.flatMap fun b _ => complete_of_no_tagGroup (by simp [layerVisits])
          · exact Complete.flatMap fun c _ => (ih c).append (complete_of_no_tagGroup (by simp))
          · exact complete_of_no_tagGroup (by simp)

theorem SessionTree.present (h : SessionTree root d) {n : ℕ} {node : VSNode}
    (hnode : d.node n = some node) (hn : .node n ∉ xs) : d.Present xs node := by
  refine fun r hr => ⟨h.subscribed.live n node r hnode hr, fun hmem => ?_⟩
  obtain ⟨x, hx, hrx⟩ := List.mem_flatMap.mp hmem
  cases x with
  | node m =>
      cases hmnode : d.node m with
      | none => simp [subsAt, hmnode] at hrx
      | some mnode =>
          obtain rfl := h.subscribed.apart n m node mnode r hnode hmnode hr
            ((mem_subsAt hmnode).mp hrx)
          exact hn hx
  | _ => cases hrx

/-! ## The walk -/

theorem SessionTree.lt_next (h : SessionTree root d) {n : ℕ} {node : VSNode}
    (hnode : d.node n = some node) : n < d.next := by
  by_contra hge
  rw [h.unused n (Nat.le_of_not_lt hge)] at hnode
  cases hnode

/-- The bound on the depth is enough: fewer nodes stand below a child. -/
theorem SessionTree.bound_pos (h : SessionTree root d) {n : ℕ} {node : VSNode}
    (hnode : d.node n = some node) : 0 < (d.below n).card :=
  Finset.card_pos.mpr ⟨n, mem_below.mpr ⟨h.lt_next hnode, Relation.ReflTransGen.refl⟩⟩

theorem SessionTree.exists_child (h : SessionTree root d) {n c : ℕ} (hc : d.IsChild n c) :
    ∃ cnode, d.node c = some cnode := by
  obtain ⟨node, -, -, hnode, -⟩ := h.rooted.linked.isParent (h.rooted.linked.isChild_iff.mp hc)
  exact ⟨node, hnode⟩

/-- Below a child stand fewer nodes than below the node. -/
theorem SessionTree.card_below_lt (h : SessionTree root d) {n c : ℕ} {node : VSNode}
    (hnode : d.node n = some node) (hc : d.IsChild n c) :
    (d.below c).card < (d.below n).card := by
  refine Finset.card_lt_card (Finset.ssubset_iff_of_subset ?_ |>.mpr ⟨n, ?_, ?_⟩)
  · intro m hm
    obtain ⟨hlt, hm⟩ := mem_below.mp hm
    exact mem_below.mpr ⟨hlt, Relation.ReflTransGen.tail hm (h.rooted.linked.isChild_iff.mp hc)⟩
  · exact mem_below.mpr ⟨h.lt_next hnode, Relation.ReflTransGen.refl⟩
  · intro hn
    exact h.rooted.not_inBranch hc (h.rooted.linked.inBranch_iff.mpr (mem_below.mp hn).2)

/-- The tag groups of a node. -/
theorem SessionTree.tagGroups_walk (h : SessionTree root d) {n : ℕ} {node : VSNode}
    (hnode : d.node n = some node) (hn : .node n ∉ xs) (hcomplete : d.Complete s xs) :
    Walks (d.after s) (d.CanVisit s)
      (fun t => node.tagGroups.foldlM (fun d b => d.vsTgFreeAvatarReference b.2 s) t) xs
      (node.tagGroups.flatMap fun b => d.tagGroupVisits s b.2) := by
  refine Walks.foldlM fun l₁ b l₂ hl => ?_
  obtain ⟨tg, htg, hsubs, hg, htags⟩ := h.tagGroups n node b.2 hnode
    (List.mem_map_of_mem (by rw [hl]; simp))
  refine vsTgFreeAvatarReference_walks htg hsubs hg (fun b hb => (htags b hb).1) (h.present hnode fun hmem => ?_)
    (hcomplete.append (Complete.flatMap fun b _ => tagGroupVisits_complete b.2))
  rcases List.mem_append.mp hmem with hmem | hmem
  · exact hn hmem
  · obtain ⟨b', -, hmem⟩ := List.mem_flatMap.mp hmem
    exact node_not_mem_tagGroupVisits n b'.2 hmem

/-- The layers of a node. -/
theorem SessionTree.layers_walk (h : SessionTree root d) {n : ℕ} {node : VSNode}
    (hnode : d.node n = some node) (hn : .node n ∉ xs) :
    Walks (d.after s) (d.CanVisit s)
      (fun t => node.layers.foldlM (fun d b => d.vsLayerFreeAvatarReference b.2 s) t) xs
      (node.layers.flatMap fun b => layerVisits b.2) := by
  refine Walks.foldlM fun l₁ b l₂ hl => ?_
  obtain ⟨layer, hlayer, hsubs, ha⟩ := h.layers n node b.2 hnode
    (List.mem_map_of_mem (by rw [hl]; simp))
  refine vsLayerFreeAvatarReference_walks hlayer hsubs ha (h.present hnode fun hmem => ?_)
  rcases List.mem_append.mp hmem with hmem | hmem
  · exact hn hmem
  · obtain ⟨b', -, hmem⟩ := List.mem_flatMap.mp hmem
    simp [layerVisits] at hmem

/-- The followers of a node. -/
theorem SessionTree.followers_walk (h : SessionTree root d) {n : ℕ} {node : VSNode}
    (hnode : d.node n = some node) :
    Walks (d.after s) (d.CanVisit s) (fun t => t.freeFollower n s) xs [.followers n] := by
  obtain ⟨e, he, honce, hfolls⟩ := h.nodes n node hnode
  refine freeFollower_walks he (fun f hf => ?_) honce
  obtain ⟨m, mnode, hm, hsub⟩ := hfolls f hf
  exact h.subscribed.live m mnode f.nodeSub hm hsub

/-- No node is in the places of the tag groups and layers. -/
theorem not_mem_content {node : VSNode} {m : ℕ} :
    RecordPlace.node m ∉ (node.tagGroups.flatMap fun b => d.tagGroupVisits s b.2) ++
      node.layers.flatMap fun b => layerVisits b.2 := by
  rw [List.mem_append, not_or]
  constructor
  · intro hmem
    obtain ⟨b, -, hmem⟩ := List.mem_flatMap.mp hmem
    exact node_not_mem_tagGroupVisits m b.2 hmem
  · intro hmem
    obtain ⟨b, -, hmem⟩ := List.mem_flatMap.mp hmem
    simp [layerVisits] at hmem

/-- What `vs_free_avatar_reference` does is the walk through the branch of the node. -/
theorem SessionTree.vsFreeAvatarReference_walks (h : SessionTree root d) {fuel n : ℕ}
    {node : VSNode} (hnode : d.node n = some node) (hfuel : (d.below n).card ≤ fuel)
    (hfar : ∀ m, d.InBranch n m → .node m ∉ xs) (hcomplete : d.Complete s xs) :
    Walks (d.after s) (d.CanVisit s) (fun t => vsFreeAvatarReference s fuel t n) xs
      (d.visits s fuel n) := by
  induction fuel generalizing n node xs with
  | zero => exact absurd hfuel (Nat.not_le_of_lt (h.bound_pos hnode))
  | succ fuel ih =>
      have hn : RecordPlace.node n ∉ xs := hfar n Relation.ReflTransGen.refl
      have hlook : ∀ l ∈ node.childrenLinks, ((d.link l).map VSLink.child).isSome := by
        intro l hl
        obtain ⟨c, cnode, hlink, -⟩ := h.rooted.linked.children n node l hnode hl
        simp [hlink]
      -- the tag groups and the layers
      have hcontent := (h.tagGroups_walk (s := s) hnode hn hcomplete).bind
        (h.layers_walk (s := s) hnode fun hmem => by
          rcases List.mem_append.mp hmem with hmem | hmem
          · exact hn hmem
          · exact not_mem_content (List.mem_append_left _ hmem))
      have hcontentComplete : d.Complete s ((node.tagGroups.flatMap fun b =>
          d.tagGroupVisits s b.2) ++ node.layers.flatMap fun b => layerVisits b.2) :=
        (Complete.flatMap fun b _ => tagGroupVisits_complete b.2).append
          (Complete.flatMap fun b _ => complete_of_no_tagGroup (by simp [layerVisits]))
      have hnocontent : ∀ m, RecordPlace.node m ∉ (node.tagGroups.flatMap fun b =>
          d.tagGroupVisits s b.2) ++ node.layers.flatMap fun b => layerVisits b.2 :=
        fun _ => not_mem_content
      rw [visits_succ hnode]
      generalize (node.tagGroups.flatMap fun b => d.tagGroupVisits s b.2) ++
        (node.layers.flatMap fun b => layerVisits b.2) = content at *
      -- the child nodes
      have hchildren : Walks (d.after s) (d.CanVisit s)
          (fun t => node.childrenLinks.foldlM (fun d l => do
            let link ← d.link l
            let d ← vsFreeAvatarReference s fuel d link.child
            d.freeFollower link.child s) t) (xs ++ content)
          ((d.childrenOf node).flatMap fun c => d.visits s fuel c ++ [.followers c]) := by
        refine Walks.foldlM_filterMap hlook fun l₁ l c l₂ hl hlc => ?_
        have hmem : l ∈ node.childrenLinks := by
          rw [hl]
          simp
        obtain ⟨link, hlink, rfl⟩ := Option.map_eq_some_iff.mp hlc
        have hchild : d.IsChild n link.child := ⟨node, l, link, hnode, hmem, hlink, rfl⟩
        obtain ⟨cnode, hcnode⟩ := h.exists_child hchild
        refine Walks.congr ((ih hcnode ?_ ?_ ?_).bind (h.followers_walk hcnode)) ?_
        · exact Nat.le_of_lt_succ (Nat.lt_of_lt_of_le (h.card_below_lt hnode hchild) hfuel)
        · intro m hm hvisited
          rw [List.mem_append, List.mem_append] at hvisited
          rcases hvisited with (hvisited | hvisited) | hvisited
          · exact hfar m (Relation.ReflTransGen.head hchild hm) hvisited
          · exact hnocontent m hvisited
          · -- the node would stand below another child, too
            obtain ⟨c, hc, hvisited⟩ := List.mem_flatMap.mp hvisited
            obtain ⟨l', hl', hc⟩ := List.mem_filterMap.mp hc
            have hmem' : l' ∈ node.childrenLinks := by
              rw [hl]
              exact List.mem_append_left _ hl'
            have hne : link.child ≠ c := by
              rintro rfl
              obtain rfl := h.rooted.linked.link_unique hnode hmem hmem' hlc hc
              have hnodup := h.rooted.linked.links_nodup hnode
              rw [hl] at hnodup
              exact List.disjoint_of_nodup_append hnodup hl' (List.mem_cons_self ..)
            obtain ⟨link', hlink', rfl⟩ := Option.map_eq_some_iff.mp hc
            have hchild' : d.IsChild n link'.child := ⟨node, l', link', hnode, hmem', hlink', rfl⟩
            rcases List.mem_append.mp hvisited with hvisited | hvisited
            · exact h.rooted.branches_apart hchild hchild' hne hm (node_mem_visits hvisited)
            · cases List.mem_singleton.mp hvisited
        · refine (hcomplete.append hcontentComplete).append (Complete.flatMap fun c _ => ?_)
          exact (visits_complete fuel c).append (complete_of_no_tagGroup (by simp))
        · show (d.link l).bind _ = _
          rw [hlink]
          rfl
      have hnochild : RecordPlace.node n ∉
          (d.childrenOf node).flatMap fun c => d.visits s fuel c ++ [.followers c] := by
        intro hmem
        obtain ⟨c, hc, hmem⟩ := List.mem_flatMap.mp hmem
        rcases List.mem_append.mp hmem with hmem | hmem
        · exact h.rooted.not_inBranch ((mem_childrenOf hnode).mp hc) (node_mem_visits hmem)
        · cases List.mem_singleton.mp hmem
      have hunvisited : RecordPlace.node n ∉ xs ++ (content ++
          (d.childrenOf node).flatMap fun c => d.visits s fuel c ++ [.followers c]) := by
        simp only [List.mem_append, not_or]
        exact ⟨hn, hnocontent n, hnochild⟩
      -- the subscribers of the node
      refine ((hcontent.bind hchildren).bind (leaveSubs_walks hnode
        (h.subscribed.once n node hnode) (h.present hnode hunvisited) hunvisited)).congr ?_
      rw [vsFreeAvatarReference, after_node hn, hnode]
      simp only [Option.bind_eq_bind, Option.bind_some, Option.bind_assoc]
      rfl

/-! ## Every place is visited -/

theorem SessionTree.mem_visits (h : SessionTree root d) {fuel n m : ℕ} {node : VSNode}
    {x : RecordPlace} (hnode : d.node n = some node) (hm : d.InBranch n m) (hfuel : (d.below n).card ≤ fuel)
    (hx : ∀ fuel', x ∈ d.visits s (fuel' + 1) m) :
    x ∈ d.visits s fuel n := by
  induction fuel generalizing n node with
  | zero => exact absurd hfuel (Nat.not_le_of_lt (h.bound_pos hnode))
  | succ fuel ih =>
      rcases Relation.ReflTransGen.cases_head hm with rfl | ⟨c, hc, hm⟩
      · exact hx fuel
      · obtain ⟨cnode, hcnode⟩ := h.exists_child hc
        have hmem := ih hcnode hm
          (Nat.le_of_lt_succ (Nat.lt_of_lt_of_le (h.card_below_lt hnode hc) hfuel))
        rw [visits_succ hnode]
        simp only [List.mem_append, List.mem_flatMap]
        exact Or.inl (Or.inr ⟨c, (mem_childrenOf hnode).mpr hc, Or.inl hmem⟩)

/-- The places that the walk through the whole tree comes to. -/
def treeVisits (d : VSData) (s root : ℕ) : List RecordPlace := d.visits s d.next root

theorem SessionTree.mem_treeVisits (h : SessionTree root d) {n : ℕ} {node : VSNode}
    {x : RecordPlace} (hnode : d.node n = some node)
    (hx : ∀ fuel, x ∈ d.visits s (fuel + 1) n) : x ∈ d.treeVisits s root := by
  obtain ⟨rnode, hrnode⟩ := Option.isSome_iff_exists.mp h.stored
  exact h.mem_visits hrnode
    (h.rooted.linked.inBranch_iff.mpr (h.rooted.reaches n node hnode)) (card_below_le d root) hx

theorem SessionTree.tagGroup_mem_treeVisits (h : SessionTree root d) {n g : ℕ} {node : VSNode}
    {x : RecordPlace} (hnode : d.node n = some node) (hg : g ∈ node.tagGroups.map Prod.snd)
    (hx : x ∈ d.tagGroupVisits s g) : x ∈ d.treeVisits s root := by
  refine h.mem_treeVisits hnode fun fuel => ?_
  obtain ⟨b, hb, rfl⟩ := List.mem_map.mp hg
  rw [visits_succ hnode]
  simp only [List.mem_append, List.mem_flatMap]
  exact Or.inl (Or.inl (Or.inl ⟨b, hb, hx⟩))

theorem SessionTree.layer_mem_treeVisits (h : SessionTree root d) {n a : ℕ} {node : VSNode}
    {x : RecordPlace} (hnode : d.node n = some node) (ha : a ∈ node.layers.map Prod.snd)
    (hx : x ∈ layerVisits a) : x ∈ d.treeVisits s root := by
  refine h.mem_treeVisits hnode fun fuel => ?_
  obtain ⟨b, hb, rfl⟩ := List.mem_map.mp ha
  rw [visits_succ hnode]
  simp only [List.mem_append, List.mem_flatMap]
  exact Or.inl (Or.inl (Or.inr ⟨b, hb, hx⟩))

theorem SessionTree.followers_mem_treeVisits (h : SessionTree root d) {n : ℕ} {node : VSNode}
    (hnode : d.node n = some node) (hn : n ≠ root) : .followers n ∈ d.treeVisits s root := by
  obtain ⟨l, p, pnode, hl, hlink, hpnode, hcount⟩ := h.rooted.linked.parent n node hnode hn
  have hc : d.IsChild p n := ⟨pnode, l, _, hpnode, List.count_pos_iff.mp (by omega), hlink, rfl⟩
  refine h.mem_treeVisits hpnode fun fuel => ?_
  rw [visits_succ hpnode]
  simp only [List.mem_append, List.mem_flatMap]
  exact Or.inl (Or.inr ⟨n, (mem_childrenOf hpnode).mpr hc, Or.inr (by simp)⟩)

/-! ## Once only -/

theorem SessionTree.walk (h : SessionTree root d) :
    Walks (d.after s) (d.CanVisit s) (fun t => vsFreeAvatarReference s d.next t root) []
      (d.treeVisits s root) := by
  obtain ⟨rnode, hrnode⟩ := Option.isSome_iff_exists.mp h.stored
  exact h.vsFreeAvatarReference_walks hrnode (card_below_le d root) (fun _ _ => by simp)
    (complete_of_no_tagGroup (by simp))

/-- Without a record of the session an entity stays as it is. -/
theorem entityWithout_eq_self {e : VSEntity} (h : ∀ f ∈ e.folls, ¬ d.owns s f.nodeSub) :
    d.entityWithout s e = e := by
  rw [entityWithout, List.filter_eq_self.mpr fun f hf => by simpa using h f hf]

/-- Followers that are not visited do not belong to the session. -/
theorem SessionTree.entity_after (h : SessionTree root d) (a : ℕ) :
    (d.after s (d.treeVisits s root)).entity a = (d.entity a).map (d.entityWithout s) := by
  have hvisited : .followers a ∈ d.treeVisits s root →
      (d.after s (d.treeVisits s root)).entity a = (d.entity a).map (d.entityWithout s) :=
    fun ha => if_pos ha
  by_cases ha : .followers a ∈ d.treeVisits s root
  · exact hvisited ha
  have hkept : (d.after s (d.treeVisits s root)).entity a = d.entity a := if_neg ha
  rw [hkept]
  cases he : d.entity a with
  | none => rfl
  | some e =>
      rw [Option.map_some, entityWithout_eq_self]
      rcases h.entityPlaced a e he with hnode | ⟨x, hpart⟩
      · obtain ⟨node, hnode⟩ := Option.isSome_iff_exists.mp hnode
        by_cases hroot : a = root
        · subst hroot
          rw [h.unfollowed e he]
          exact fun f hf => by cases hf
        · exact absurd (h.followers_mem_treeVisits hnode hroot) ha
      · cases hpart with
        | tagGroup hnode hg =>
            exact absurd (h.tagGroup_mem_treeVisits hnode hg (List.mem_cons_self ..)) ha
        | layer hnode hl =>
            exact absurd (h.layer_mem_treeVisits hnode hl (List.mem_cons_self ..)) ha
        | tag htg htag =>
            -- the session is not subscribed to the tag group
            obtain ⟨n, node, hnode, hg⟩ := h.tagGroupPlaced x _ htg
            obtain ⟨tg, htg', -, -, htags⟩ := h.tagGroups n node x hnode hg
            obtain rfl := Option.some.inj (htg.symm.trans htg')
            obtain ⟨b, hb, rfl⟩ := List.mem_map.mp htag
            intro f hf hown
            have hattends := List.any_eq_true.mpr ⟨_, (htags b hb).2 e f he hf, hown⟩
            exact ha (h.tagGroup_mem_treeVisits hnode hg (mem_tagGroupVisits.mpr
              (Or.inr (Or.inr ⟨_, b, htg, hattends, hb, rfl⟩))))

end VSData

end Verse
