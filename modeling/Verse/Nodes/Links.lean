import Verse.Nodes.Runs

/-!
# Links between nodes

A node other than the root hangs below its parent by one link, which stands once among
the children of the parent.  Creating, removing and moving nodes keep this, whatever
happens to the levels.
-/

namespace Verse

open Lib

namespace VSData

variable {d d' : VSData} {root : ℕ}

/-- The parent of the node `n` is `p`. -/
def IsParent (d : VSData) (n p : ℕ) : Prop :=
  ∃ node l link, d.node n = some node ∧ node.parentLink = some l ∧ d.link l = some link ∧
    link.parent = p

/-- Every node but the one at `root` has a parent, and the links of a node lead to its
children. -/
structure Linked (root : ℕ) (d : VSData) : Prop where
  unlinked : ∀ node, d.node root = some node → node.parentLink = none
  parent : ∀ n node, d.node n = some node → n ≠ root →
    ∃ l p pnode, node.parentLink = some l ∧ d.link l = some ⟨p, n⟩ ∧ d.node p = some pnode ∧
      pnode.childrenLinks.count l = 1
  children : ∀ p pnode l, d.node p = some pnode → l ∈ pnode.childrenLinks →
    ∃ n node, d.link l = some ⟨p, n⟩ ∧ d.node n = some node ∧ node.parentLink = some l

/-! ## Changes that leave the tree alone -/

/-- The place of a node in the tree. -/
def place (node : VSNode) : Option ℕ × List ℕ × ℕ :=
  (node.parentLink, node.childrenLinks, node.level)

/-- The links and the places of the nodes are the same. -/
structure SameTree (d d' : VSData) : Prop where
  link : d'.link = d.link
  node : ∀ n, (d'.node n).map place = (d.node n).map place

theorem SameTree.of_nodes (hlink : d'.link = d.link) (hnode : d'.node = d.node) : SameTree d d' :=
  ⟨hlink, fun n => by rw [hnode]⟩

theorem sameTree_setEntity (d : VSData) (a : ℕ) (e : Option VSEntity) :
    SameTree d (d.setEntity a e) := .of_nodes rfl rfl

/-- Another node in the same place. -/
theorem map_place_update {n : ℕ} {node node' : VSNode} (hnode : d.node n = some node)
    (hplace : place node' = place node) (m : ℕ) :
    (Function.update d.node n (some node') m).map place = (d.node m).map place := by
  by_cases hm : m = n
  · subst hm
    simp [hnode, hplace]
  · rw [Function.update_of_ne hm]

theorem SameTree.exists_node (h : SameTree d d') {n : ℕ} {node' : VSNode}
    (hnode : d'.node n = some node') : ∃ node, d.node n = some node ∧ place node' = place node := by
  have hn := h.node n
  rw [hnode] at hn
  obtain ⟨node, hnode, heq⟩ := Option.map_eq_some_iff.mp hn.symm
  exact ⟨node, hnode, heq.symm⟩

theorem SameTree.symm (h : SameTree d d') : SameTree d' d := ⟨h.link.symm, fun n => (h.node n).symm⟩

theorem place_eq {node node' : VSNode} (h : place node' = place node) :
    node'.parentLink = node.parentLink ∧ node'.childrenLinks = node.childrenLinks ∧
      node'.level = node.level := by
  simpa [place] using h

theorem Linked.sameTree (h : Linked root d) (hsame : SameTree d d') : Linked root d' := by
  refine ⟨fun node' hnode' => ?_, fun n node' hnode' hn => ?_, fun p pnode' l hpnode' hl => ?_⟩
  · obtain ⟨node, hnode, hplace⟩ := hsame.exists_node hnode'
    rw [(place_eq hplace).1]
    exact h.unlinked node hnode
  · obtain ⟨node, hnode, hplace⟩ := hsame.exists_node hnode'
    obtain ⟨l, p, pnode, hl, hlink, hpnode, hcount⟩ := h.parent n node hnode hn
    obtain ⟨pnode', hpnode', hpplace⟩ := hsame.symm.exists_node hpnode
    exact ⟨l, p, pnode', by rw [(place_eq hplace).1, hl], by rw [hsame.link, hlink], hpnode',
      by rw [← (place_eq hpplace).2.1, hcount]⟩
  · obtain ⟨pnode, hpnode, hplace⟩ := hsame.exists_node hpnode'
    rw [(place_eq hplace).2.1] at hl
    obtain ⟨n, node, hlink, hnode, hparent⟩ := h.children p pnode l hpnode hl
    obtain ⟨node', hnode', hnplace⟩ := hsame.symm.exists_node hnode
    refine ⟨n, node', by rw [hsame.link, hlink], hnode', ?_⟩
    rw [← (place_eq hnplace).1, hparent]

/-- The changes that change the tree. -/
def treeChanges : Set EffectKind := {.newNode, .newRoot, .dropNode, .removeNode, .move}

theorem Effect.sameTree {k : EffectKind} (he : Effect k d d') (hk : k ∉ treeChanges) :
    SameTree d d' := by
  cases he with
  | push hpush _ _ | pushSet hpush _ _ =>
      obtain ⟨sub, -, rfl⟩ := push_eq_some.mp hpush
      exact .of_nodes rfl rfl
  | unfollow hfree =>
      obtain ⟨e, -, rfl⟩ := freeFollower_eq_some hfree
      exact .of_nodes rfl rfl
  | newTag hcreate =>
      obtain ⟨tg, id, tag, -, -, -, rfl⟩ := vsTagCreate_eq hcreate
      exact .of_nodes rfl rfl
  | newTagGroup hcreate =>
      rcases vsTaggroupCreate_eq hcreate with ⟨rfl, -⟩ | ⟨node, id, tg, hnode, -, -, -, -, rfl⟩
      · exact .of_nodes rfl rfl
      · exact ⟨rfl, map_place_update hnode (by rfl)⟩
  | newLayer _ _ hcreate =>
      obtain ⟨node, id, layer, layers, hnode, -, -, -, -, -, -, -, rfl⟩ := vsLayerCreate_eq hcreate
      exact ⟨rfl, map_place_update hnode (by rfl)⟩
  | newNode => exact absurd (Or.inl rfl) hk
  | newRoot => exact absurd (Or.inr (Or.inl rfl)) hk
  | subscribe hnode => exact ⟨rfl, map_place_update hnode (by rfl)⟩
  | freeSub _ hfree =>
      obtain ⟨sub, node, -, hnode, rfl⟩ := freeSub_eq_some hfree
      exact ⟨rfl, map_place_update hnode (by rfl)⟩
  | lock hnode => exact ⟨rfl, map_place_update hnode (by rfl)⟩
  | permit hnode | access hnode => exact ⟨rfl, map_place_update hnode (by rfl)⟩
  | owner hnode => exact ⟨rfl, map_place_update hnode (by rfl)⟩
  | dropNode => exact absurd (Or.inr (Or.inr (Or.inl rfl))) hk
  | removeTag _ _ _ _ _ hremove =>
      obtain ⟨tg, tag, -, -, rfl⟩ := vsTagDestroy_cases hremove
      exact .of_nodes rfl rfl
  | removeTagGroup _ _ _ _ _ hremove =>
      obtain ⟨tg, d₁, node, -, hfreed, -, hnode, rfl⟩ := vsTaggroupDestroy_cases hremove
      rw [hfreed.kept]
      have hnode : d.node _ = some node := hnode
      exact ⟨rfl, map_place_update hnode (by rfl)⟩
  | removeLayer _ _ _ _ _ hremove =>
      obtain ⟨layer, d₁, node, -, hsame, hnode, rfl⟩ := vsLayerDestroy_cases hremove
      rw [hsame.kept]
      have hnode : d.node _ = some node := hnode
      exact ⟨rfl, map_place_update hnode (by rfl)⟩
  | removeNode => exact absurd (Or.inr (Or.inr (Or.inr (Or.inl rfl)))) hk
  | move => exact absurd (Or.inr (Or.inr (Or.inr (Or.inr rfl)))) hk
  | _ => exact .of_nodes rfl rfl

/-! ## Creating and removing nodes -/

theorem Fresh.link_lt (h : d.Fresh) {l : ℕ} {link : VSLink} (hlink : d.link l = some link) :
    l < d.next := by
  by_contra hge
  rw [h.link l (by omega)] at hlink
  cases hlink

/-- A node that was there keeps its place but for its children: the parent of the new
node gets one more. -/
structure Grown (p l : ℕ) (m : ℕ) (node node' : VSNode) : Prop where
  parentLink : node'.parentLink = node.parentLink
  level : node'.level = node.level
  childrenLinks : node'.childrenLinks =
    if m = p then node.childrenLinks ++ [l] else node.childrenLinks

/-- What creating a node does to the tree. -/
theorem vsNodeCreateLinked_tree (hfresh : d.Fresh) {heap owner nodeId customType n p : ℕ}
    (hcreate : d.vsNodeCreateLinked heap (some p) owner nodeId customType = some (d', some n)) :
    ∃ pnode new, n = d.next ∧ d.node p = some pnode ∧
      d'.link = Function.update d.link (d.next + 1) (some ⟨p, d.next⟩) ∧
      d'.node d.next = some new ∧ new.parentLink = some (d.next + 1) ∧ new.childrenLinks = [] ∧
      new.level = pnode.level + 1 ∧
      (∀ m node', m ≠ d.next → d'.node m = some node' →
        ∃ node, d.node m = some node ∧ Grown p (d.next + 1) m node node') ∧
      ∀ m node, d.node m = some node →
        ∃ node', d'.node m = some node' ∧ Grown p (d.next + 1) m node node' := by
  rcases vsNodeCreateLinked_eq hcreate with ⟨-, hnone⟩ | ⟨id, last, d₁, -, -, hd₁, hn, rfl⟩
  · cases hnone
  obtain rfl := Option.some.inj hn
  rcases createLinked_eq hd₁ with ⟨hnone, -⟩ | ⟨p', pnode, hp', hpnode, rfl⟩
  · cases hnone
  obtain rfl := Option.some.inj hp'
  refine ⟨pnode, _, rfl, hpnode, rfl, Function.update_self _ _ _, rfl, rfl, rfl,
    fun m node' hm hnode' => ?_, fun m node hnode => ?_⟩
  · by_cases hmp : m = p
    · subst hmp
      simp only [Function.update_of_ne hm, Function.update_self] at hnode'
      obtain rfl := Option.some.inj hnode'
      exact ⟨pnode, hpnode, rfl, rfl, by simp⟩
    · simp only [Function.update_of_ne hm, Function.update_of_ne hmp] at hnode'
      exact ⟨node', hnode', rfl, rfl, by simp [hmp]⟩
  · have hm : m ≠ d.next := Nat.ne_of_lt (hfresh.node_lt hnode)
    by_cases hmp : m = p
    · subst hmp
      obtain rfl := Option.some.inj (hpnode.symm.trans hnode)
      refine ⟨{ pnode with childrenLinks := pnode.childrenLinks ++ [d.next + 1] }, ?_, rfl, rfl, ?_⟩
      · simp only [Function.update_of_ne hm, Function.update_self]
      · simp
    · refine ⟨node, ?_, rfl, rfl, ?_⟩
      · simp only [Function.update_of_ne hm, Function.update_of_ne hmp, hnode]
      · simp [hmp]

/-- A new node below an old one. -/
theorem Linked.newNode (h : Linked root d) (hfresh : d.Fresh) (hroot : root < d.next)
    {heap owner nodeId customType n p : ℕ}
    (hcreate : d.vsNodeCreateLinked heap (some p) owner nodeId customType = some (d', some n)) :
    Linked root d' := by
  obtain ⟨pnode, new, rfl, hpnode, hlinks, hnext, hnextlink, hnextchildren, -, hold, hnew⟩ :=
    vsNodeCreateLinked_tree hfresh hcreate
  have hrootne : root ≠ d.next := Nat.ne_of_lt hroot
  -- the new link is in no list of children yet
  have hnotin : ∀ q qnode, d.node q = some qnode → d.next + 1 ∉ qnode.childrenLinks := by
    intro q qnode hqnode hmem
    obtain ⟨n, node, hlink, -⟩ := h.children q qnode _ hqnode hmem
    rw [hfresh.link _ (Nat.le_succ _)] at hlink
    cases hlink
  have hlinkold : ∀ l link, d.link l = some link → d'.link l = some link ∧ l ≠ d.next + 1 := by
    intro l link hlink
    have hlt := hfresh.link_lt hlink
    have hne : l ≠ d.next + 1 := by omega
    exact ⟨by rw [hlinks, Function.update_of_ne hne, hlink], hne⟩
  refine ⟨fun node' hnode' => ?_, fun m node' hnode' hm => ?_, fun q qnode' l hqnode' hl => ?_⟩
  · obtain ⟨node, hnode, hgrown⟩ := hold root node' hrootne hnode'
    rw [hgrown.parentLink]
    exact h.unlinked node hnode
  · by_cases hmnext : m = d.next
    · subst hmnext
      obtain rfl := Option.some.inj (hnext.symm.trans hnode')
      obtain ⟨pnode', hpnode', hgrown⟩ := hnew p pnode hpnode
      refine ⟨d.next + 1, p, pnode', hnextlink, by rw [hlinks, Function.update_self], hpnode', ?_⟩
      rw [hgrown.childrenLinks, if_pos rfl, List.count_append,
        List.count_eq_zero_of_not_mem (hnotin p pnode hpnode)]
      simp
    · obtain ⟨node, hnode, hgrown⟩ := hold m node' hmnext hnode'
      obtain ⟨l, q, qnode, hl, hlink, hqnode, hcount⟩ := h.parent m node hnode hm
      obtain ⟨qnode', hqnode', hqgrown⟩ := hnew q qnode hqnode
      obtain ⟨hlink', hlne⟩ := hlinkold l _ hlink
      refine ⟨l, q, qnode', by rw [hgrown.parentLink, hl], hlink', hqnode', ?_⟩
      rw [hqgrown.childrenLinks]
      split
      · rw [List.count_append, hcount, List.count_singleton, if_neg]
        simpa using hlne.symm
      · exact hcount
  · by_cases hqnext : q = d.next
    · subst hqnext
      obtain rfl := Option.some.inj (hnext.symm.trans hqnode')
      rw [hnextchildren] at hl
      cases hl
    · obtain ⟨qnode, hqnode, hgrown⟩ := hold q qnode' hqnext hqnode'
      have hcases : l ∈ qnode.childrenLinks ∨ (q = p ∧ l = d.next + 1) := by
        rw [hgrown.childrenLinks] at hl
        split at hl
        · rename_i hqp
          rcases List.mem_append.mp hl with hl | hl
          · exact Or.inl hl
          · exact Or.inr ⟨hqp, List.mem_singleton.mp hl⟩
        · exact Or.inl hl
      rcases hcases with hl | ⟨rfl, rfl⟩
      · obtain ⟨m, node, hlink, hnode, hparent⟩ := h.children q qnode l hqnode hl
        obtain ⟨node', hnode', hngrown⟩ := hnew m node hnode
        exact ⟨m, node', (hlinkold l _ hlink).1, hnode', by rw [hngrown.parentLink, hparent]⟩
      · exact ⟨d.next, new, by rw [hlinks, Function.update_self], hnext, hnextlink⟩

/-- A node that stays when the node `n` is removed keeps its place, but for the links to
`n`. -/
structure Shrunk (d : VSData) (n : ℕ) (node node' : VSNode) : Prop where
  parentLink : node'.parentLink = node.parentLink
  level : node'.level = node.level
  subset : node'.childrenLinks ⊆ node.childrenLinks
  unlinked : ∀ l p, d.link l = some ⟨p, n⟩ → l ∉ node'.childrenLinks
  count : ∀ l p m, d.link l = some ⟨p, m⟩ → m ≠ n →
    node'.childrenLinks.count l = node.childrenLinks.count l

/-- A link among the children of a node that leads to `n` is the parent link of `n`. -/
theorem Linked.parentLink_eq (h : Linked root d) {q n l p : ℕ} {qnode node : VSNode}
    (hqnode : d.node q = some qnode) (hl : l ∈ qnode.childrenLinks) (hlink : d.link l = some ⟨p, n⟩)
    (hnode : d.node n = some node) : node.parentLink = some l ∧ q = p := by
  obtain ⟨m, mnode, hlink', hmnode, hparent⟩ := h.children q qnode l hqnode hl
  obtain ⟨rfl, rfl⟩ : q = p ∧ m = n := by
    simpa using hlink'.symm.trans hlink
  obtain rfl := Option.some.inj (hmnode.symm.trans hnode)
  exact ⟨hparent, rfl⟩

/-- What removing a node does to the tree. -/
theorem Linked.vsNodeDestroy_tree (h : Linked root d) {n : ℕ}
    (hremove : d.vsNodeDestroy n = some d') :
    d' = d ∨ ∃ node, d.node n = some node ∧ node.childrenLinks = [] ∧ d'.node n = none ∧
      (∀ l p m, d.link l = some ⟨p, m⟩ → m ≠ n → d'.link l = some ⟨p, m⟩) ∧
      (∀ m node', d'.node m = some node' → ∃ node, d.node m = some node ∧ Shrunk d n node node') ∧
      ∀ m node, d.node m = some node → m ≠ n →
        ∃ node', d'.node m = some node' ∧ Shrunk d n node node' := by
  rcases vsNodeDestroy_cases hremove with
    rfl | ⟨node, e, d₁, d₂, hnode, -, -, hleaf, hd₁, hfreed, rfl⟩
  · exact Or.inl rfl
  refine Or.inr ⟨node, hnode, hleaf, Function.update_self _ _ _, ?_⟩
  rw [hfreed.kept]
  have hother : ∀ m, m ≠ n → Function.update d₁.node n none m = d₁.node m :=
    fun m hm => Function.update_of_ne hm _ _
  rcases unlink_cases hd₁ with ⟨hunlinked, rfl⟩ | ⟨l, link, pnode, hl, hlink, hpnode, rfl⟩
  · -- no list of children has a link to a node without a parent link
    have hsame : ∀ m node', d₁.node m = some node' → Shrunk d₁ n node' node' := by
      refine fun m node' hnode' => ⟨rfl, rfl, List.Subset.refl _, fun l p hlink hl => ?_, fun _ _ _ _ _ => rfl⟩
      have hparent := (h.parentLink_eq hnode' hl hlink hnode).1
      rw [hunlinked] at hparent
      cases hparent
    refine ⟨fun _ _ _ hlink _ => hlink, fun m node' hnode' => ?_, fun m node' hnode' hm => ?_⟩
    · have hm : m ≠ n := by
        rintro rfl
        have hnone : Function.update d₁.node m none m = some node' := hnode'
        rw [Function.update_self] at hnone
        cases hnone
      have hnode' : d₁.node m = some node' := (hother m hm).symm.trans hnode'
      exact ⟨node', hnode', hsame m node' hnode'⟩
    · exact ⟨node', (hother m hm).trans hnode', hsame m node' hnode'⟩
  · have hn : n ≠ root := by
      rintro rfl
      rw [h.unlinked node hnode] at hl
      cases hl
    obtain ⟨l', p, pnode', hl', hlink', hpnode', hcount⟩ := h.parent n node hnode hn
    obtain rfl : l = l' := Option.some.inj (hl.symm.trans hl')
    obtain rfl := Option.some.inj (hlink.symm.trans hlink')
    obtain rfl := Option.some.inj (hpnode.symm.trans hpnode')
    -- the link is taken from the children of the parent, where it stands once
    have herased : Shrunk d n pnode { pnode with childrenLinks := pnode.childrenLinks.erase l } := by
      refine ⟨rfl, rfl, List.erase_subset, fun k q hk hmem => ?_, fun k q m hk hm => ?_⟩
      · obtain ⟨hkl, -⟩ := h.parentLink_eq hpnode (List.mem_of_mem_erase hmem) hk hnode
        obtain rfl : l = k := Option.some.inj (hl.symm.trans hkl)
        have hzero : (pnode.childrenLinks.erase l).count l = 0 := by
          rw [List.count_erase_self, hcount]
        exact absurd hmem (List.count_eq_zero.mp hzero)
      · refine List.count_erase_of_ne ?_
        rintro rfl
        rw [hlink] at hk
        exact hm (by simpa using hk.symm : q = p ∧ m = n).2
    have hsame : ∀ m node', d.node m = some node' → m ≠ p → Shrunk d n node' node' := by
      refine fun m node' hnode' hm =>
        ⟨rfl, rfl, List.Subset.refl _, fun k q hk hmem => ?_, fun _ _ _ _ _ => rfl⟩
      obtain ⟨hkl, rfl⟩ := h.parentLink_eq hnode' hmem hk hnode
      obtain rfl : l = k := Option.some.inj (hl.symm.trans hkl)
      rw [hlink] at hk
      exact hm (by simpa using hk.symm)
    refine ⟨fun k q m hk hm => ?_, fun m node' hnode' => ?_, fun m node' hnode' hm => ?_⟩
    · refine (Function.update_of_ne ?_ _ _).trans hk
      rintro rfl
      rw [hlink] at hk
      exact hm (by simpa using hk.symm : q = p ∧ m = n).2
    · have hm : m ≠ n := by
        rintro rfl
        simp [setNode, setEntity, setLink] at hnode'
      have hnode' := (hother m hm).symm.trans hnode'
      by_cases hmp : m = p
      · subst hmp
        simp only [setLink, setNode, Function.update_self] at hnode'
        obtain rfl := Option.some.inj hnode'
        exact ⟨pnode, hpnode, herased⟩
      · simp only [setLink, setNode, Function.update_of_ne hmp] at hnode'
        exact ⟨node', hnode', hsame m node' hnode' hmp⟩
    · by_cases hmp : m = p
      · subst hmp
        obtain rfl := Option.some.inj (hpnode.symm.trans hnode')
        refine ⟨_, (hother m hm).trans ?_, herased⟩
        simp only [setLink, setNode, Function.update_self]
      · refine ⟨node', (hother m hm).trans ?_, hsame m node' hnode' hmp⟩
        simp only [setLink, setNode, Function.update_of_ne hmp, hnode']

/-- Removing a node that has no child nodes. -/
theorem Linked.removeNode (h : Linked root d) {n : ℕ}
    (hremove : d.vsNodeDestroy n = some d') : Linked root d' := by
  rcases h.vsNodeDestroy_tree hremove with rfl | ⟨node, hnode, hleaf, hnone, hlinks, hold, hnew⟩
  · exact h
  refine ⟨fun node' hnode' => ?_, fun m node' hnode' hm => ?_, fun q qnode' l hqnode' hl => ?_⟩
  · obtain ⟨node, hnode, hshrunk⟩ := hold root node' hnode'
    rw [hshrunk.parentLink]
    exact h.unlinked node hnode
  · have hmn : m ≠ n := by
      rintro rfl
      rw [hnone] at hnode'
      cases hnode'
    obtain ⟨mnode, hmnode, hshrunk⟩ := hold m node' hnode'
    obtain ⟨l, p, pnode, hl, hlink, hpnode, hcount⟩ := h.parent m mnode hmnode hm
    -- the parent has a child, so that it is not the node that is removed
    have hpn : p ≠ n := by
      rintro rfl
      obtain rfl := Option.some.inj (hpnode.symm.trans hnode)
      rw [hleaf] at hcount
      cases hcount
    obtain ⟨pnode', hpnode', hpshrunk⟩ := hnew p pnode hpnode hpn
    exact ⟨l, p, pnode', by rw [hshrunk.parentLink, hl], hlinks l p m hlink hmn, hpnode',
      by rw [hpshrunk.count l p m hlink hmn, hcount]⟩
  · obtain ⟨qnode, hqnode, hshrunk⟩ := hold q qnode' hqnode'
    obtain ⟨m, mnode, hlink, hmnode, hparent⟩ := h.children q qnode l hqnode (hshrunk.subset hl)
    have hmn : m ≠ n := by
      rintro rfl
      exact hshrunk.unlinked l q hlink hl
    obtain ⟨mnode', hmnode', hmshrunk⟩ := hnew m mnode hmnode hmn
    exact ⟨m, mnode', hlinks l q m hlink hmn, hmnode', by rw [hmshrunk.parentLink, hparent]⟩

/-! ## Moving nodes -/

/-- A node keeps its parent link when a node is moved, and its children but for the link
that is moved. -/
structure Rehung (l old parent m : ℕ) (node node' : VSNode) : Prop where
  parentLink : node'.parentLink = node.parentLink
  childrenLinks : node'.childrenLinks =
    if m = parent then node.childrenLinks ++ [l]
    else if m = old then node.childrenLinks.erase l else node.childrenLinks
  others : ∃ level, node' = { node with childrenLinks := node'.childrenLinks, level }

/-- The link of a node is moved from one parent to another, and levels of nodes are set. -/
def Relinked (d : VSData) (l old parent child : ℕ) (d' : VSData) : Prop :=
  ∃ onode d₁ pnode d₂, d.node old = some onode ∧
    d₁ = d.setNode old (some { onode with childrenLinks := onode.childrenLinks.erase l }) ∧
    d₁.node parent = some pnode ∧
    d₂ = (d₁.setNode parent (some { pnode with
      childrenLinks := pnode.childrenLinks ++ [l] })).setLink l (some ⟨parent, child⟩) ∧
    SameButLevels d₂ d'

/-- What moving a node does to the tree. -/
theorem Relinked.tree {l old parent child : ℕ} (hne : parent ≠ old)
    (h : Relinked d l old parent child d') :
    d'.link = Function.update d.link l (some ⟨parent, child⟩) ∧
      (∃ onode pnode, d.node old = some onode ∧ d.node parent = some pnode) ∧
      (∀ m node', d'.node m = some node' →
        ∃ node, d.node m = some node ∧ Rehung l old parent m node node') ∧
      ∀ m node, d.node m = some node →
        ∃ node', d'.node m = some node' ∧ Rehung l old parent m node node' := by
  obtain ⟨onode, d₁, pnode, d₂, honode, rfl, hpnode, rfl, hlevels⟩ := h
  have hpnode : d.node parent = some pnode := by
    simpa [setNode, Function.update_of_ne hne] using hpnode
  -- every node of the state before the levels are set
  have hnode : ∀ m node, d.node m = some node → ∃ node₂, Function.update (Function.update d.node old
      (some { onode with childrenLinks := onode.childrenLinks.erase l })) parent
      (some { pnode with childrenLinks := pnode.childrenLinks ++ [l] }) m = some node₂ ∧
      node₂ = { node with childrenLinks :=
        if m = parent then node.childrenLinks ++ [l]
        else if m = old then node.childrenLinks.erase l else node.childrenLinks } := by
    intro m node hnode
    by_cases hmp : m = parent
    · subst hmp
      obtain rfl := Option.some.inj (hpnode.symm.trans hnode)
      exact ⟨_, Function.update_self _ _ _, by simp⟩
    · by_cases hmo : m = old
      · subst hmo
        obtain rfl := Option.some.inj (honode.symm.trans hnode)
        exact ⟨_, by rw [Function.update_of_ne hmp, Function.update_self], by simp [hmp]⟩
      · exact ⟨node, by rw [Function.update_of_ne hmp, Function.update_of_ne hmo, hnode],
          by simp [hmp, hmo]⟩
  have hnew : ∀ m node, d.node m = some node →
      ∃ node', d'.node m = some node' ∧ Rehung l old parent m node node' := by
    intro m node hm
    obtain ⟨node₂, hnode₂, rfl⟩ := hnode m node hm
    obtain ⟨level, hlevel⟩ := hlevels.exists_level (by exact hnode₂)
    exact ⟨_, hlevel, rfl, rfl, level, rfl⟩
  refine ⟨by rw [hlevels.kept]; rfl, ⟨onode, pnode, honode, hpnode⟩, fun m node' hnode' => ?_, hnew⟩
  have hsome : (d.node m).isSome := by
    have hlevel := hlevels.node m
    rw [hnode'] at hlevel
    by_contra hnone
    have hnone : d.node m = none := by simpa using hnone
    have hmp : m ≠ parent := by
      rintro rfl
      simp [hpnode] at hnone
    have hmo : m ≠ old := by
      rintro rfl
      simp [honode] at hnone
    simp [setLink, setNode, Function.update_of_ne hmp, Function.update_of_ne hmo, hnone] at hlevel
  obtain ⟨node, hm⟩ := Option.isSome_iff_exists.mp hsome
  obtain ⟨node'', hnode'', hrehung⟩ := hnew m node hm
  obtain rfl := Option.some.inj (hnode'.symm.trans hnode'')
  exact ⟨node, hm, hrehung⟩

theorem Linked.relinked (h : Linked root d) {l old parent child : ℕ}
    (hmovable : Movable d l old parent child)
    (hmove : Relinked d l old parent child d') : Linked root d' := by
  obtain ⟨hlinks, -, hold, hnew⟩ := hmove.tree hmovable.parent_ne
  obtain ⟨cnode, link, hcnode, hcl, hlink, rfl⟩ := hmovable.exists_link
  have hchild : child ≠ root := by
    rintro rfl
    rw [h.unlinked cnode hcnode] at hcl
    cases hcl
  obtain ⟨l', p, pnode, hl', hlink', hpnode, hcount⟩ := h.parent child cnode hcnode hchild
  obtain rfl := Option.some.inj (hcl.symm.trans hl')
  obtain rfl := Option.some.inj (hlink.symm.trans hlink')
  -- the link is only among the children of the old parent, and only once
  have hnotin : ∀ q qnode, d.node q = some qnode → q ≠ p → l ∉ qnode.childrenLinks := by
    intro q qnode hqnode hq hmem
    obtain ⟨n, node, hlinkq, -⟩ := h.children q qnode l hqnode hmem
    exact hq (congrArg VSLink.parent (Option.some.inj (hlink.symm.trans hlinkq))).symm
  have herased : l ∉ pnode.childrenLinks.erase l := by
    rw [← List.count_eq_zero, List.count_erase_self, hcount]
  refine ⟨fun node' hnode' => ?_, fun m node' hnode' hm => ?_, fun q qnode' k hqnode' hk => ?_⟩
  · obtain ⟨node, hnode, hrehung⟩ := hold root node' hnode'
    rw [hrehung.parentLink]
    exact h.unlinked node hnode
  · obtain ⟨node, hnode, hrehung⟩ := hold m node' hnode'
    obtain ⟨k, q, qnode, hk, hlinkk, hqnode, hcountk⟩ := h.parent m node hnode hm
    by_cases hkl : k = l
    · subst hkl
      obtain ⟨rfl, rfl⟩ : p = q ∧ child = m := by
        simpa using hlink.symm.trans hlinkk
      obtain ⟨-, hnewparent⟩ := hmove.tree hmovable.parent_ne
      obtain ⟨⟨onode, pnode₂, -, hpnode₂⟩, -⟩ := hnewparent
      obtain ⟨pnode', hpnode', hprehung⟩ := hnew parent pnode₂ hpnode₂
      refine ⟨k, parent, pnode', by rw [hrehung.parentLink, hk], ?_, hpnode', ?_⟩
      · rw [hlinks, Function.update_self]
      · rw [hprehung.childrenLinks, if_pos rfl, List.count_append,
          List.count_eq_zero_of_not_mem (hnotin parent pnode₂ hpnode₂ hmovable.parent_ne)]
        simp
    · obtain ⟨qnode', hqnode', hqrehung⟩ := hnew q qnode hqnode
      refine ⟨k, q, qnode', by rw [hrehung.parentLink, hk], ?_, hqnode', ?_⟩
      · rw [hlinks, Function.update_of_ne hkl, hlinkk]
      · rw [hqrehung.childrenLinks]
        split
        · rw [List.count_append, hcountk, List.count_singleton, if_neg]
          simpa using fun heq => hkl heq.symm
        · split
          · rw [List.count_erase_of_ne hkl, hcountk]
          · exact hcountk
  · obtain ⟨qnode, hqnode, hrehung⟩ := hold q qnode' hqnode'
    have hcases : (k ∈ qnode.childrenLinks ∧ k ≠ l) ∨ (q = parent ∧ k = l) := by
      rw [hrehung.childrenLinks] at hk
      split at hk
      · rename_i hqp
        rcases List.mem_append.mp hk with hfirst | hlast
        · refine Or.inl ⟨hfirst, ?_⟩
          rintro rfl
          exact hnotin q qnode hqnode (hqp ▸ hmovable.parent_ne) hfirst
        · exact Or.inr ⟨hqp, List.mem_singleton.mp hlast⟩
      · split at hk
        · rename_i hqo
          subst hqo
          obtain rfl := Option.some.inj (hpnode.symm.trans hqnode)
          refine Or.inl ⟨List.mem_of_mem_erase hk, ?_⟩
          rintro rfl
          exact herased hk
        · rename_i hqo
          refine Or.inl ⟨hk, ?_⟩
          rintro rfl
          exact hnotin q qnode hqnode hqo hk
    rcases hcases with ⟨hk, hkl⟩ | ⟨rfl, rfl⟩
    · obtain ⟨m, node, hlinkk, hnode, hparent⟩ := h.children q qnode k hqnode hk
      obtain ⟨node', hnode', hmrehung⟩ := hnew m node hnode
      exact ⟨m, node', by rw [hlinks, Function.update_of_ne hkl, hlinkk], hnode',
        by rw [hmrehung.parentLink, hparent]⟩
    · obtain ⟨cnode', hcnode', hcrehung⟩ := hnew child cnode hcnode
      exact ⟨child, cnode', by rw [hlinks, Function.update_self], hcnode',
        by rw [hcrehung.parentLink, hcl]⟩

/-- Every change but a second root keeps the links. -/
theorem Effect.linked {k : EffectKind} (he : Effect k d d') (hk : k ≠ .newRoot) (hfresh : d.Fresh)
    (hroot : root < d.next) (h : Linked root d) : Linked root d' := by
  by_cases hchange : k ∈ treeChanges
  · rcases hchange with rfl | rfl | rfl | rfl | rfl
    · cases he with
      | newNode hcreate => exact h.newNode hfresh hroot hcreate
    · exact absurd rfl hk
    · cases he with
      | dropNode _ _ _ _ hremove => exact (h.sameTree (sameTree_setEntity d _ _)).removeNode hremove
    · cases he with
      | removeNode hremove => exact h.removeNode hremove
    · cases he with
      | move htests hmove => exact h.relinked (linkChangeTests_movable htests) (moveLink_cases hmove)
  · exact h.sameTree (he.sameTree hchange)

/-! ## Runs -/

theorem Linked.step (hfresh : d.Fresh) (h : Linked d.rootNode d ∧ d.rootNode < d.next)
    {event : NodeEvent} (hstep : d.step event = some d') :
    Linked d'.rootNode d' ∧ d'.rootNode < d'.next := by
  have hserver := (step_effects hfresh hstep).sameServer
  rw [hserver.rootNode]
  refine ⟨?_, Nat.lt_of_lt_of_le h.2 hserver.next_le⟩
  have hkeeps : ∀ k e e', k ∈ event.kinds → Effect k e e' →
      (e.Fresh ∧ d.rootNode < e.next ∧ Linked d.rootNode e) →
      e'.Fresh ∧ d.rootNode < e'.next ∧ Linked d.rootNode e' := by
    intro k e e' hk he ⟨hefresh, hnext, hlinked⟩
    exact ⟨he.fresh hefresh, Nat.lt_of_lt_of_le hnext he.sameServer.next_le,
      he.linked (kinds_cases hk).1 hefresh hnext hlinked⟩
  exact ((step_effects hfresh hstep).invariant hkeeps ⟨hfresh, h.2, h.1⟩).2.2

end VSData

end Verse
