import Verse.Nodes.Links

/-!
# The tree of nodes

Every node but the root hangs below its parent by one link, stands one level below it,
and is reached from the root.  Creating and removing nodes keeps this.  Moving a node
does not: `vs_link_update_child` sets the level of the node that is moved and then goes
on with the children of the new parent instead of those of the node, so that the node
itself and its new siblings get levels of nodes further below.
-/

namespace Verse

open Lib

namespace VSData

variable {d d' : VSData} {root : ℕ}

/-! ## The tree -/

/-- The nodes are a tree. -/
structure IsTree (d : VSData) : Prop where
  root : ∀ node, d.node d.rootNode = some node → node.parentLink = none
  parent : ∀ n node, d.node n = some node → n ≠ d.rootNode →
    ∃ l p pnode, node.parentLink = some l ∧ d.link l = some ⟨p, n⟩ ∧ d.node p = some pnode ∧
      pnode.childrenLinks.count l = 1 ∧ node.level = pnode.level + 1
  reaches_root : ∀ n node, d.node n = some node →
    Relation.ReflTransGen d.IsParent n d.rootNode

/-- A node stands one level below its parent. -/
def Leveled (d : VSData) : Prop :=
  ∀ n node l p pnode, d.node n = some node → node.parentLink = some l → d.link l = some ⟨p, n⟩ →
    d.node p = some pnode → node.level = pnode.level + 1

/-- What changes of the tree keep. -/
structure TreeBelow (root : ℕ) (d : VSData) : Prop where
  linked : Linked root d
  leveled : Leveled d

/-- The level falls with every step to a parent, so that the steps end, and they only
end at the root. -/
theorem TreeBelow.reaches_root (h : TreeBelow root d) {n : ℕ} {node : VSNode}
    (hnode : d.node n = some node) : Relation.ReflTransGen d.IsParent n root := by
  induction hlevel : node.level using Nat.strongRecOn generalizing n node with
  | ind level ih =>
      by_cases hn : n = root
      · rw [hn]
      · obtain ⟨l, p, pnode, hl, hlink, hpnode, -⟩ := h.linked.parent n node hnode hn
        have hsucc := h.leveled n node l p pnode hnode hl hlink hpnode
        have hstep : d.IsParent n p := ⟨node, l, ⟨p, n⟩, hnode, hl, hlink, rfl⟩
        exact (Relation.ReflTransGen.single hstep).trans
          (ih pnode.level (by omega) hpnode rfl)

theorem TreeBelow.isTree (h : TreeBelow d.rootNode d) : d.IsTree := by
  refine ⟨h.linked.unlinked, fun n node hnode hn => ?_, fun _ _ hnode => h.reaches_root hnode⟩
  obtain ⟨l, p, pnode, hl, hlink, hpnode, hcount⟩ := h.linked.parent n node hnode hn
  exact ⟨l, p, pnode, hl, hlink, hpnode, hcount, h.leveled n node l p pnode hnode hl hlink hpnode⟩

theorem Leveled.sameTree (h : Leveled d) (hsame : SameTree d d') : Leveled d' := by
  intro n node' l p pnode' hnode' hl hlink hpnode'
  obtain ⟨node, hnode, hplace⟩ := hsame.exists_node hnode'
  obtain ⟨pnode, hpnode, hpplace⟩ := hsame.exists_node hpnode'
  rw [(place_eq hplace).2.2, (place_eq hpplace).2.2]
  rw [(place_eq hplace).1] at hl
  rw [hsame.link] at hlink
  exact h n node l p pnode hnode hl hlink hpnode

theorem TreeBelow.sameTree (h : TreeBelow root d) (hsame : SameTree d d') : TreeBelow root d' :=
  ⟨h.linked.sameTree hsame, h.leveled.sameTree hsame⟩

theorem TreeBelow.newNode (h : TreeBelow root d) (hfresh : d.Fresh) (hroot : root < d.next)
    {heap owner nodeId customType n p : ℕ}
    (hcreate : d.vsNodeCreateLinked heap (some p) owner nodeId customType = some (d', some n)) :
    TreeBelow root d' := by
  refine ⟨h.linked.newNode hfresh hroot hcreate, fun m node' l q qnode' hnode' hl hlink hqnode' => ?_⟩
  obtain ⟨pnode, new, rfl, hpnode, hlinks, hnext, hnextlink, -, hnextlevel, hold, -⟩ :=
    vsNodeCreateLinked_tree hfresh hcreate
  have hp : p ≠ d.next := Nat.ne_of_lt (hfresh.node_lt hpnode)
  by_cases hm : m = d.next
  · subst hm
    obtain rfl := Option.some.inj (hnext.symm.trans hnode')
    obtain rfl : d.next + 1 = l := Option.some.inj (hnextlink.symm.trans hl)
    rw [hlinks, Function.update_self] at hlink
    obtain rfl : p = q := congrArg VSLink.parent (Option.some.inj hlink)
    obtain ⟨qnode, hqnode, hgrown⟩ := hold p qnode' hp hqnode'
    obtain rfl := Option.some.inj (hpnode.symm.trans hqnode)
    rw [hgrown.level, hnextlevel]
  · obtain ⟨node, hnode, hgrown⟩ := hold m node' hm hnode'
    rw [hgrown.parentLink] at hl
    have hne : l ≠ d.next + 1 := by
      rintro rfl
      rw [hlinks, Function.update_self] at hlink
      exact hm (congrArg VSLink.child (Option.some.inj hlink)).symm
    rw [hlinks, Function.update_of_ne hne] at hlink
    -- the parent of an old node is old
    have hq : q ≠ d.next := by
      by_cases hmroot : m = root
      · subst hmroot
        rw [h.linked.unlinked node hnode] at hl
        cases hl
      · obtain ⟨l', p', pnode', hl', hlink', hpnode', -⟩ := h.linked.parent m node hnode hmroot
        obtain rfl := Option.some.inj (hl.symm.trans hl')
        obtain rfl : q = p' := congrArg VSLink.parent (Option.some.inj (hlink.symm.trans hlink'))
        exact Nat.ne_of_lt (hfresh.node_lt hpnode')
    obtain ⟨qnode, hqnode, hqgrown⟩ := hold q qnode' hq hqnode'
    rw [hgrown.level, hqgrown.level]
    exact h.leveled m node l q qnode hnode hl hlink hqnode

theorem TreeBelow.removeNode (h : TreeBelow root d) {n : ℕ}
    (hremove : d.vsNodeDestroy n = some d') : TreeBelow root d' := by
  refine ⟨h.linked.removeNode hremove, fun m node' l p pnode' hnode' hl hlink hpnode' => ?_⟩
  rcases h.linked.vsNodeDestroy_tree hremove with
    rfl | ⟨node, hnode, hleaf, hnone, hlinks, hold, hnew⟩
  · exact h.leveled m node' l p pnode' hnode' hl hlink hpnode'
  obtain ⟨mnode, hmnode, hshrunk⟩ := hold m node' hnode'
  obtain ⟨pnode, hpnode, hpshrunk⟩ := hold p pnode' hpnode'
  rw [hshrunk.parentLink] at hl
  have hmroot : m ≠ root := by
    rintro rfl
    rw [h.linked.unlinked mnode hmnode] at hl
    cases hl
  have hmn : m ≠ n := by
    rintro rfl
    rw [hnone] at hnode'
    cases hnode'
  obtain ⟨l', q, qnode, hl', hlink', hqnode, -⟩ := h.linked.parent m mnode hmnode hmroot
  obtain rfl := Option.some.inj (hl.symm.trans hl')
  obtain rfl : q = p := congrArg VSLink.parent
    (Option.some.inj ((hlinks l q m hlink' hmn).symm.trans hlink))
  obtain rfl := Option.some.inj (hqnode.symm.trans hpnode)
  rw [hshrunk.level, hpshrunk.level]
  exact h.leveled m mnode l q qnode hmnode hl hlink' hqnode

/-! ## Runs -/

theorem Effect.treeBelow {k : EffectKind} (he : Effect k d d') (hk : k ≠ .newRoot ∧ k ≠ .move)
    (hfresh : d.Fresh) (hroot : root < d.next) (h : TreeBelow root d) : TreeBelow root d' := by
  by_cases hchange : k ∈ treeChanges
  · rcases hchange with rfl | rfl | rfl | rfl | rfl
    · cases he with
      | newNode hcreate => exact h.newNode hfresh hroot hcreate
    · exact absurd rfl hk.1
    · cases he with
      | dropNode _ _ _ _ hremove =>
          exact (h.sameTree (sameTree_setEntity d _ _)).removeNode hremove
    · cases he with
      | removeNode hremove => exact h.removeNode hremove
    · exact absurd rfl hk.2
  · exact h.sameTree (he.sameTree hchange)

/-- No node is moved: `Node_Link` fails one of the tests of `vs_handle_link_change`. -/
def MovesNothing (d : VSData) : NodeEvent → Prop
  | .command s (.nodeLink parentId childId) =>
      (d.session s).connected → ∀ child, d.vsNodeFind childId = some child →
        ∀ x, d.linkChangeTests s child parentId ≠ some (some x)
  | _ => True

theorem MovesNothing.nodeLink {s parentId childId : ℕ}
    (h : d.MovesNothing (.command s (.nodeLink parentId childId)))
    (hstep : d.step (.command s (.nodeLink parentId childId)) = some d') : d' = d := by
  rcases ite_cases hstep with rfl | ⟨hconnected, hstep⟩
  · rfl
  have hstep : d.vsHandleLinkChange s parentId childId = some d' := hstep
  unfold vsHandleLinkChange at hstep
  split at hstep
  · exact (Option.some.inj hstep).symm
  · rename_i child hchild
    obtain ⟨tests, htests, hstep⟩ := Option.bind_eq_some_iff.mp hstep
    cases tests with
    | none => exact (Option.some.inj hstep).symm
    | some x => exact absurd htests (h hconnected child hchild x)

theorem TreeBelow.step (hfresh : d.Fresh) (h : TreeBelow d.rootNode d ∧ d.rootNode < d.next)
    {event : NodeEvent} (hguard : d.MovesNothing event) (hstep : d.step event = some d') :
    TreeBelow d'.rootNode d' ∧ d'.rootNode < d'.next := by
  have hserver := (step_effects hfresh hstep).sameServer
  rw [hserver.rootNode]
  refine ⟨?_, Nat.lt_of_lt_of_le h.2 hserver.next_le⟩
  by_cases hmove : ∃ s parentId childId, event = .command s (.nodeLink parentId childId)
  · obtain ⟨s, parentId, childId, rfl⟩ := hmove
    obtain rfl := hguard.nodeLink hstep
    exact h.1
  · have hkeeps : ∀ k e e', k ∈ event.kinds → Effect k e e' →
        (e.Fresh ∧ d.rootNode < e.next ∧ TreeBelow d.rootNode e) →
        e'.Fresh ∧ d.rootNode < e'.next ∧ TreeBelow d.rootNode e' := by
      intro k e e' hk he ⟨hefresh, hnext, htree⟩
      have hkinds := kinds_cases hk
      exact ⟨he.fresh hefresh, Nat.lt_of_lt_of_le hnext he.sameServer.next_le,
        he.treeBelow ⟨hkinds.1, fun hkmove => hmove (hkinds.2 hkmove)⟩ hefresh hnext htree⟩
    exact ((step_effects hfresh hstep).invariant hkeeps ⟨hfresh, h.2, h.1⟩).2.2

theorem vsNodesInit_treeBelow {users : List VSUser} {superUser otherUsers : ℕ}
    {realname : ℕ → List UInt8} (h : vsNodesInit users superUser otherUsers realname = some d) :
    d.Fresh ∧ TreeBelow d.rootNode d ∧ d.rootNode < d.next := by
  rw [vsNodesInit_rootNode h]
  have hone : ∀ n node, (firstNode users superUser otherUsers).node n = some node →
      n = 1 ∧ node = vsNodeInit vrsRootNodeId 0 superUser := by
    intro n node hnode
    by_cases hn : n = 1
    · subst hn
      exact ⟨rfl, by simpa [firstNode] using hnode.symm⟩
    · simp [firstNode, Function.update_of_ne hn] at hnode
  have hfirst : TreeBelow 1 (firstNode users superUser otherUsers) := by
    refine ⟨⟨fun node hnode => ?_, fun n node hnode hn => absurd (hone n node hnode).1 hn,
      fun p pnode l hpnode hl => ?_⟩, fun n node l p pnode hnode hl _ _ => ?_⟩
    · rw [(hone 1 node hnode).2]
      rfl
    · rw [(hone p pnode hpnode).2] at hl
      cases hl
    · rw [(hone n node hnode).2] at hl
      cases hl
  refine vsNodesInit_invariant (fun d => TreeBelow 1 d ∧ 1 < d.next)
    ⟨hfirst, by simp [firstNode]⟩ ?_ ?_ h
  · rintro d avatar ⟨htree, hnext⟩
    exact ⟨⟨⟨htree.linked.unlinked, htree.linked.parent, htree.linked.children⟩, htree.leveled⟩,
      hnext⟩
  · rintro k d d' hk hfresh he ⟨htree, hnext⟩
    refine ⟨he.treeBelow ?_ hfresh hnext htree, Nat.lt_of_lt_of_le hnext he.sameServer.next_le⟩
    rcases hk with rfl | rfl | rfl | rfl | rfl <;> simp

/-- **The tree of nodes.**  From the nodes the server starts with, and for any events of
any clients: as long as no `Node_Link` is accepted, the nodes are a tree. -/
theorem nodes_form_tree {users : List VSUser} {superUser otherUsers : ℕ}
    {realname : ℕ → List UInt8} (hinit : vsNodesInit users superUser otherUsers realname = some d)
    {events : List NodeEvent} (hadm : Admissible step MovesNothing d events)
    (hrun : run step d events = some d') : d'.IsTree := by
  obtain ⟨hfresh, htree⟩ := vsNodesInit_treeBelow hinit
  have hend : d'.Fresh ∧ TreeBelow d'.rootNode d' ∧ d'.rootNode < d'.next :=
    run_step_invariant (fun d event d' hfresh htree => TreeBelow.step hfresh htree) hfresh htree
      hadm hrun
  exact hend.2.1.isTree

theorem nodes_form_tree_sample :
    ∃ d, sampleInit = some d ∧
      ∃ d', run step d [.login 0 10 10 1001 false sampleInfo] = some d' ∧ d'.IsTree := by
  obtain ⟨d, hinit⟩ : ∃ d, sampleInit = some d :=
    Option.isSome_iff_exists.mp (by decide +kernel)
  obtain ⟨d', hrun⟩ : ∃ d', run step d [.login 0 10 10 1001 false sampleInfo] = some d' := by
    have hsome : (sampleInit.bind fun d =>
        run step d [.login 0 10 10 1001 false sampleInfo]).isSome := by decide +kernel
    rw [hinit] at hsome
    exact Option.isSome_iff_exists.mp hsome
  have hadm : Admissible step MovesNothing d [.login 0 10 10 1001 false sampleInfo] :=
    ⟨trivial, fun _ _ => trivial⟩
  exact ⟨d, hinit, d', hrun, nodes_form_tree hinit hadm hrun⟩

/-- A client logs in, creates a node below its avatar and moves it to the parent of the
scenes. -/
def movingEvents : List NodeEvent :=
  [.login 0 10 10 1001 false sampleInfo, .command 0 (.nodeSubscribe 65537),
    .command 0 (.nodeCreate 10 1001 65537 0xFFFFFFFF 40), .command 0 (.nodeCreateAck 65539),
    .command 0 (.nodeLink 3 65539)]

/-- The node that is moved is put one level too low. -/
theorem moved_node_has_wrong_level :
    ∃ d d', sampleInit = some d ∧ run step d movingEvents = some d' ∧ ¬ d'.IsTree := by
  have hrun : (sampleInit.bind fun d => run step d movingEvents).isSome := by decide +kernel
  -- the node at 33 hangs below the node at 7, which is at level 1, but is at level 3
  have hplaces : (sampleInit.bind fun d => (run step d movingEvents).bind fun d' =>
      (d'.node 33).bind fun node => node.parentLink.bind fun l => (d'.link l).bind fun link =>
        (d'.node link.parent).map fun pnode => (d'.rootNode, node.level, pnode.level)) =
      some (1, 3, 1) := by decide +kernel
  obtain ⟨d, hinit, hrun⟩ := Option.bind_eq_some_iff.mp (Option.isSome_iff_exists.mp hrun).choose_spec
  rw [hinit, Option.bind_some, hrun, Option.bind_some] at hplaces
  refine ⟨d, _, hinit, hrun, fun htree => ?_⟩
  obtain ⟨node, hnode, hplaces⟩ := Option.bind_eq_some_iff.mp hplaces
  obtain ⟨l, hl, hplaces⟩ := Option.bind_eq_some_iff.mp hplaces
  obtain ⟨link, hlink, hplaces⟩ := Option.bind_eq_some_iff.mp hplaces
  obtain ⟨pnode, hpnode, hplaces⟩ := Option.map_eq_some_iff.mp hplaces
  simp only [Prod.mk.injEq] at hplaces
  obtain ⟨hroot, hlevel, hplevel⟩ := hplaces
  obtain ⟨l', p, pnode', hl', hlink', hpnode', -, hsucc⟩ :=
    htree.parent 33 node hnode (by rw [hroot]; decide)
  obtain rfl := Option.some.inj (hl.symm.trans hl')
  obtain rfl := Option.some.inj (hlink.symm.trans hlink')
  obtain rfl := Option.some.inj (hpnode.symm.trans hpnode')
  omega

end VSData

end Verse
