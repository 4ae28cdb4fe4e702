import Verse.Nodes.CycleTest
import Verse.Nodes.Removal

/-!
# Nodes below the root in every run

`vs_link_test_nodes` trusts the levels of the nodes, which `vs_link_update_child` sets wrongly,
so that a node may be accepted as a child of a node that stands below it.

* Such a move makes a cycle, and the update of the levels goes round in it and does not return
  (`update_in_cycle`).
* Any other move keeps the nodes below the root, and the update ends, as each round goes from a
  node to one of its children, and every second of them stands further down (`update_returns`).

In every state of a run all nodes are therefore reached from the root (`run_rooted`).
-/

namespace Verse

open Lib

namespace VSData

variable {d d' : VSData} {root : ℕ}

/-! ## Nodes below the root -/

/-- Every node but the one at `root` hangs below its parent, and is reached from the root. -/
structure Rooted (root : ℕ) (d : VSData) : Prop where
  linked : Linked root d
  reaches : ∀ n node, d.node n = some node → d.UpTo n root

/-- A node that has a parent hangs below it. -/
theorem Linked.isParent (h : Linked root d) {n p : ℕ} (hparent : d.IsParent n p) :
    ∃ node l pnode, d.node n = some node ∧ node.parentLink = some l ∧ d.link l = some ⟨p, n⟩ ∧
      d.node p = some pnode ∧ l ∈ pnode.childrenLinks := by
  obtain ⟨node, l, link, hnode, hl, hlink, rfl⟩ := hparent
  have hn : n ≠ root := by
    rintro rfl
    rw [h.unlinked node hnode] at hl
    cases hl
  obtain ⟨l', p, pnode, hl', hlink', hpnode, hcount⟩ := h.parent n node hnode hn
  obtain rfl := Option.some.inj (hl.symm.trans hl')
  obtain rfl := Option.some.inj (hlink.symm.trans hlink')
  exact ⟨node, l, pnode, hnode, hl, hlink, hpnode,
    List.count_pos_iff.mp (by rw [hcount]; exact Nat.one_pos)⟩

/-- A node has one parent. -/
theorem isParent_unique {n p q : ℕ} (hp : d.IsParent n p) (hq : d.IsParent n q) : p = q := by
  obtain ⟨node, l, link, hnode, hl, hlink, rfl⟩ := hp
  obtain ⟨node', l', link', hnode', hl', hlink', rfl⟩ := hq
  obtain rfl := Option.some.inj (hnode.symm.trans hnode')
  obtain rfl := Option.some.inj (hl.symm.trans hl')
  obtain rfl := Option.some.inj (hlink.symm.trans hlink')
  rfl

/-- The children of a node are the nodes whose parent it is. -/
theorem Linked.isChild_iff (h : Linked root d) {p n : ℕ} : d.IsChild p n ↔ d.IsParent n p := by
  constructor
  · rintro ⟨pnode, l, link, hpnode, hl, hlink, rfl⟩
    obtain ⟨n, node, hlink', hnode, hparent⟩ := h.children p pnode l hpnode hl
    obtain rfl := Option.some.inj (hlink.symm.trans hlink')
    exact ⟨node, l, _, hnode, hparent, hlink', rfl⟩
  · intro hparent
    obtain ⟨node, l, pnode, -, -, hlink, hpnode, hl⟩ := h.isParent hparent
    exact ⟨pnode, l, _, hpnode, hl, hlink, rfl⟩

/-- There are no cycles: a cycle goes through the only parent of each of its nodes, and so it
would go through the root, which has no parent. -/
theorem Rooted.acyclic (h : Rooted root d) (n : ℕ) : ¬ Relation.TransGen d.IsParent n n := by
  intro hcycle
  obtain ⟨p, hparent, -⟩ := Relation.TransGen.head'_iff.mp hcycle
  obtain ⟨node, -, -, hnode, -⟩ := h.linked.isParent hparent
  have hway := h.reaches n node hnode
  clear hparent hnode
  induction hway using Relation.ReflTransGen.head_induction_on with
  | refl =>
      obtain ⟨q, hroot, -⟩ := Relation.TransGen.head'_iff.mp hcycle
      obtain ⟨rootNode, l, -, hrootNode, hl, -⟩ := h.linked.isParent hroot
      rw [h.linked.unlinked rootNode hrootNode] at hl
      cases hl
  | head hparent _ ih =>
      obtain ⟨q, hq, hback⟩ := Relation.TransGen.head'_iff.mp hcycle
      obtain rfl := isParent_unique hparent hq
      exact ih (Relation.TransGen.tail' hback hparent)

/-- Where the climb of `vs_link_test_nodes` ends above the root, the child was not on the way. -/
theorem climbAvoids_sound {child fuel n : ℕ} (h : d.climbAvoids child fuel n = some true) :
    ¬ d.UpTo n child := by
  induction fuel generalizing n with
  | zero => cases h
  | succ fuel ih =>
      rw [climbAvoids] at h
      split at h
      · cases h
      rename_i hne
      intro hup
      rcases Relation.ReflTransGen.cases_head hup with rfl | ⟨p, hparent, hup⟩
      · exact hne rfl
      obtain ⟨node, l, link, hnode, hl, hlink, rfl⟩ := hparent
      simp only [hnode, hl, hlink] at h
      exact ih h hup

/-! ## Creating and removing nodes -/

theorem SameTree.isParent (h : SameTree d d') {n p : ℕ} (hparent : d.IsParent n p) :
    d'.IsParent n p := by
  obtain ⟨node, l, link, hnode, hl, hlink, rfl⟩ := hparent
  obtain ⟨node', hnode', hplace⟩ := h.symm.exists_node hnode
  exact ⟨node', l, link, hnode', by rw [← (place_eq hplace).1, hl], by rw [h.link, hlink], rfl⟩

theorem Rooted.sameTree (h : Rooted root d) (hsame : SameTree d d') : Rooted root d' := by
  refine ⟨h.linked.sameTree hsame, fun n node' hnode' => ?_⟩
  obtain ⟨node, hnode, -⟩ := hsame.exists_node hnode'
  exact Relation.ReflTransGen.mono (fun _ _ => hsame.isParent) _ _ (h.reaches n node hnode)

theorem Rooted.newNode (h : Rooted root d) (hfresh : d.Fresh) (hroot : root < d.next)
    {heap owner nodeId customType n p : ℕ}
    (hcreate : d.vsNodeCreateLinked heap (some p) owner nodeId customType = some (d', some n)) :
    Rooted root d' := by
  refine ⟨h.linked.newNode hfresh hroot hcreate, fun m node' hnode' => ?_⟩
  obtain ⟨pnode, new, rfl, hpnode, hlinks, hnext, hnextlink, -, -, hold, hnew⟩ :=
    vsNodeCreateLinked_tree hfresh hcreate
  -- the ways up from the old nodes are the same
  have hparents : ∀ a q, d.IsParent a q → d'.IsParent a q := by
    rintro a q ⟨node, l, link, hnode, hl, hlink, rfl⟩
    obtain ⟨node', hnode', hgrown⟩ := hnew a node hnode
    refine ⟨node', l, link, hnode', by rw [hgrown.parentLink, hl], ?_, rfl⟩
    have hlt := hfresh.link_lt hlink
    rw [hlinks, Function.update_of_ne (by omega), hlink]
  by_cases hm : m = d.next
  · subst hm
    have hparent : d'.IsParent d.next p :=
      ⟨new, d.next + 1, ⟨p, d.next⟩, hnext, hnextlink, by rw [hlinks, Function.update_self], rfl⟩
    exact Relation.ReflTransGen.head hparent
      (Relation.ReflTransGen.mono hparents _ _ (h.reaches p pnode hpnode))
  · obtain ⟨node, hnode, -⟩ := hold m node' hm hnode'
    exact Relation.ReflTransGen.mono hparents _ _ (h.reaches m node hnode)

theorem Rooted.removeNode (h : Rooted root d) {n : ℕ} (hremove : d.vsNodeDestroy n = some d') :
    Rooted root d' := by
  refine ⟨h.linked.removeNode hremove, fun m node' hnode' => ?_⟩
  rcases h.linked.vsNodeDestroy_tree hremove with
    rfl | ⟨node, hnode, hleaf, hnone, hlinks, hold, hnew⟩
  · exact h.reaches m node' hnode'
  have hmn : m ≠ n := by
    rintro rfl
    rw [hnone] at hnode'
    cases hnode'
  obtain ⟨mnode, hmnode, -⟩ := hold m node' hnode'
  -- the node that is removed has no children, so that no way up goes through it
  have hway : ∀ {a}, d.UpTo a root → a ≠ n → d'.UpTo a root := by
    intro a hup
    induction hup using Relation.ReflTransGen.head_induction_on with
    | refl => exact fun _ => Relation.ReflTransGen.refl
    | head hparent _ ih =>
        rename_i a q _
        intro ha
        obtain ⟨anode, l, qnode, hanode, hl, hlink, hqnode, hmem⟩ := h.linked.isParent hparent
        have hq : q ≠ n := by
          rintro rfl
          obtain rfl := Option.some.inj (hnode.symm.trans hqnode)
          rw [hleaf] at hmem
          cases hmem
        obtain ⟨anode', hanode', hshrunk⟩ := hnew a anode hanode ha
        have hparent' : d'.IsParent a q :=
          ⟨anode', l, _, hanode', by rw [hshrunk.parentLink, hl], hlinks l q a hlink ha, rfl⟩
        exact Relation.ReflTransGen.head hparent' (ih hq)
  exact hway (h.reaches m mnode hmnode) hmn

/-! ## Moving nodes -/

/-- The node that is moved hangs below the old parent, by the link that is moved. -/
theorem Linked.movable_link (h : Linked root d) {l old parent child : ℕ}
    (hmovable : Movable d l old parent child) :
    d.link l = some ⟨old, child⟩ ∧ d.IsParent child old := by
  obtain ⟨cnode, link, hcnode, hcl, hlink, rfl⟩ := hmovable.exists_link
  have hparent : d.IsParent child link.parent := ⟨cnode, l, link, hcnode, hcl, hlink, rfl⟩
  obtain ⟨cnode', l', -, hcnode', hcl', hlink', -⟩ := h.isParent hparent
  obtain rfl := Option.some.inj (hcnode.symm.trans hcnode')
  obtain rfl := Option.some.inj (hcl.symm.trans hcl')
  exact ⟨hlink', hparent⟩

/-- The parents after a node was moved. -/
theorem Relinked.isParent (h : Linked root d) {l old parent child : ℕ}
    (hmovable : Movable d l old parent child) (hmove : Relinked d l old parent child d') :
    d'.IsParent child parent ∧ ∀ a p, d.IsParent a p → a ≠ child → d'.IsParent a p := by
  obtain ⟨hlinks, -, -, hnew⟩ := hmove.tree hmovable.parent_ne
  obtain ⟨hlink, -⟩ := h.movable_link hmovable
  obtain ⟨cnode, -, hcnode, hcl, -⟩ := hmovable.exists_link
  constructor
  · obtain ⟨cnode', hcnode', hrehung⟩ := hnew child cnode hcnode
    exact ⟨cnode', l, ⟨parent, child⟩, hcnode', by rw [hrehung.parentLink, hcl],
      by rw [hlinks, Function.update_self], rfl⟩
  · intro a p hparent ha
    obtain ⟨anode, k, -, hanode, hk, hlinkk, -⟩ := h.isParent hparent
    obtain ⟨anode', hanode', hrehung⟩ := hnew a anode hanode
    have hkl : k ≠ l := by
      rintro rfl
      exact ha (congrArg VSLink.child (Option.some.inj (hlinkk.symm.trans hlink)))
    exact ⟨anode', k, _, hanode', by rw [hrehung.parentLink, hk],
      by rw [hlinks, Function.update_of_ne hkl, hlinkk], rfl⟩

/-- A move that does not hang a node below itself keeps the nodes below the root. -/
theorem Rooted.relinked (h : Rooted root d) {l old parent child : ℕ}
    (hmovable : Movable d l old parent child) (hmove : Relinked d l old parent child d')
    (hbelow : ¬ d.UpTo parent child) : Rooted root d' := by
  refine ⟨h.linked.relinked hmovable hmove, fun m node' hnode' => ?_⟩
  obtain ⟨hchild, hothers⟩ := hmove.isParent h.linked hmovable
  obtain ⟨-, ⟨onode, pnode, -, hpnode⟩, hold, -⟩ := hmove.tree hmovable.parent_ne
  -- the way up from the new parent does not go through the child
  have hparentWay : ∀ {a}, d.UpTo a root → ¬ d.UpTo a child → d'.UpTo a root := by
    intro a hup
    induction hup using Relation.ReflTransGen.head_induction_on with
    | refl => exact fun _ => Relation.ReflTransGen.refl
    | head hparent _ ih =>
        rename_i a p _
        intro hnot
        have ha : a ≠ child := by
          rintro rfl
          exact hnot Relation.ReflTransGen.refl
        exact Relation.ReflTransGen.head (hothers a p hparent ha)
          (ih fun hp => hnot (Relation.ReflTransGen.head hparent hp))
  -- and a way that goes through the child goes on from there to the new parent
  have hway : ∀ {a}, d.UpTo a root → d'.UpTo a root := by
    intro a hup
    induction hup using Relation.ReflTransGen.head_induction_on with
    | refl => exact Relation.ReflTransGen.refl
    | head hparent _ ih =>
        rename_i a p _
        by_cases ha : a = child
        · subst ha
          exact Relation.ReflTransGen.head hchild
            (hparentWay (h.reaches parent pnode hpnode) hbelow)
        · exact Relation.ReflTransGen.head (hothers a p hparent ha) ih
  obtain ⟨node, hnode, -⟩ := hold m node' hnode'
  exact hway (h.reaches m node hnode)

/-! ## The update of the levels -/

theorem SameButLevels.isChild (h : SameButLevels d d') {n c : ℕ} (hchild : d.IsChild n c) :
    d'.IsChild n c := by
  obtain ⟨node, l, link, hnode, hl, hlink, rfl⟩ := hchild
  obtain ⟨level, hnode'⟩ := h.exists_level hnode
  exact ⟨_, l, link, hnode', hl, by rw [h.kept, hlink], rfl⟩

/-- The update goes from a node and a child to the child and a child of the node. -/
theorem vsLinkUpdateChild_cases {fuel a b : ℕ} (h : vsLinkUpdateChild (fuel + 1) d a b = some d') :
    ∃ d₁ node, SameButLevels d d₁ ∧ d₁.node a = some node ∧
      node.childrenLinks.foldlM (fun d l => do
        let link ← d.link l
        vsLinkUpdateChild fuel d b link.child) d₁ = some d' := by
  simp only [vsLinkUpdateChild, Option.bind_eq_bind, Option.bind_eq_some_iff] at h
  obtain ⟨pnode, -, d₁, hd₁, pnode₁, hpnode₁, h⟩ := h
  exact ⟨d₁, pnode₁, modifyLevel_sameButLevels hd₁, hpnode₁, h⟩

/-- **Going round.**  Where every node of a set has a child in the set, the update does not
return from two of them. -/
theorem update_in_cycle {S : ℕ → Prop} (hS : ∀ a, S a → ∃ c, S c ∧ d.IsChild a c) (fuel : ℕ)
    {a b : ℕ} (ha : S a) (hb : S b) : vsLinkUpdateChild fuel d a b = none := by
  induction fuel generalizing d a b with
  | zero => rfl
  | succ fuel ih =>
      rw [Option.eq_none_iff_forall_ne_some]
      intro d' h
      obtain ⟨d₁, node, hsame, hnode, hloop⟩ := vsLinkUpdateChild_cases h
      obtain ⟨c, hc, hchild⟩ := hS a ha
      obtain ⟨node', l, link, hnode', hl, hlink, rfl⟩ := hsame.isChild hchild
      obtain rfl := Option.some.inj (hnode.symm.trans hnode')
      -- the round for the child in the set would have to return
      obtain ⟨t, t', ht, hround⟩ := foldlM_round SameButLevels.refl SameButLevels.trans
        (fun u k u' _ _ hbody => by
          obtain ⟨link, -, hbody⟩ := Option.bind_eq_some_iff.mp hbody
          exact vsLinkUpdateChild_sameButLevels hbody) hloop hl
      obtain ⟨link', hlink', hround⟩ := Option.bind_eq_some_iff.mp hround
      have hkept : t.link = d₁.link := by rw [ht.kept]
      rw [hkept, hlink] at hlink'
      obtain rfl := Option.some.inj hlink'
      have hSt : ∀ m, S m → ∃ c, S c ∧ t.IsChild m c := by
        intro m hm
        obtain ⟨c, hc, hmc⟩ := hS m hm
        exact ⟨c, hc, (hsame.trans ht).isChild hmc⟩
      rw [ih hSt hb hc] at hround
      cases hround

/-- **Coming to an end.**  Where children have a smaller rank, the update returns. -/
theorem update_returns (rank : ℕ → ℕ) (hrank : ∀ a c, d.IsChild a c → rank c < rank a)
    (hlinked : Linked root d) {fuel a b : ℕ} (ha : (d.node a).isSome) (hb : (d.node b).isSome)
    (hfuel : rank a + rank b < fuel) : ∃ d', vsLinkUpdateChild fuel d a b = some d' := by
  suffices hall : ∀ fuel a b t, SameButLevels d t → (d.node a).isSome → (d.node b).isSome →
      rank a + rank b < fuel → ∃ t', vsLinkUpdateChild fuel t a b = some t' from
    hall fuel a b d (SameButLevels.refl d) ha hb hfuel
  intro fuel
  induction fuel with
  | zero => exact fun _ _ _ _ _ _ hfuel => absurd hfuel (Nat.not_lt_zero _)
  | succ fuel ih =>
      intro a b t ht ha hb hfuel
      obtain ⟨anode, hanode⟩ := Option.isSome_iff_exists.mp ha
      obtain ⟨bnode, hbnode⟩ := Option.isSome_iff_exists.mp hb
      obtain ⟨alevel, hanode₁⟩ := ht.exists_level hanode
      obtain ⟨blevel, hbnode₁⟩ := ht.exists_level hbnode
      -- the level of the child is set
      have hset : t.modifyNode b (fun cnode => { cnode with level := alevel + 1 }) =
          some (t.setNode b (some { bnode with level := alevel + 1 })) := by
        rw [modifyNode, hbnode₁, Option.map_some]
      have ht₁ := ht.trans (modifyLevel_sameButLevels hset)
      obtain ⟨alevel', hanode₂⟩ := ht₁.exists_level hanode
      have hloop : ∃ t', anode.childrenLinks.foldlM (fun d l => do
          let link ← d.link l
          vsLinkUpdateChild fuel d b link.child)
          (t.setNode b (some { bnode with level := alevel + 1 })) = some t' ∧
            SameButLevels d t' := by
        refine foldlM_total (fun u l hl hu => ?_) ht₁
        obtain ⟨c, cnode, hlink, hcnode, -⟩ := hlinked.children a anode l hanode hl
        have hchild : d.IsChild a c := ⟨anode, l, _, hanode, hl, hlink, rfl⟩
        have hless := hrank a c hchild
        obtain ⟨u', hu'⟩ := ih b c u hu hb (by simp [hcnode]) (by omega)
        refine ⟨u', ?_, hu.trans (vsLinkUpdateChild_sameButLevels hu')⟩
        have hkept : u.link l = some ⟨a, c⟩ := by rw [hu.kept, hlink]
        simp [hkept, hu']
      obtain ⟨t', ht', -⟩ := hloop
      refine ⟨t', ?_⟩
      simp only [vsLinkUpdateChild, hanode₁, hset, hanode₂, Option.bind_eq_bind, Option.bind_some]
      exact ht'

/-! ## When a move returns -/

open Classical in
/-- The nodes from which the node `n` is met on the way up. -/
noncomputable def below (d : VSData) (n : ℕ) : Finset ℕ :=
  (Finset.range d.next).filter fun m => d.UpTo m n

theorem mem_below {m n : ℕ} : m ∈ d.below n ↔ m < d.next ∧ d.UpTo m n := by simp [below]

theorem card_below_le (d : VSData) (n : ℕ) : (d.below n).card ≤ d.next := by
  have hsub : d.below n ⊆ Finset.range d.next := fun m hm =>
    Finset.mem_range.mpr (mem_below.mp hm).1
  calc (d.below n).card ≤ (Finset.range d.next).card := Finset.card_le_card hsub
    _ = d.next := Finset.card_range d.next

/-- Fewer nodes stand below a child. -/
theorem Rooted.card_below_lt (h : Rooted root d) (hfresh : ∀ a, d.next ≤ a → d.node a = none)
    {a c : ℕ} (hchild : d.IsChild a c) : (d.below c).card < (d.below a).card := by
  have hparent := h.linked.isChild_iff.mp hchild
  obtain ⟨anode, -, -, hanode, -⟩ := hchild
  have hlt : a < d.next := by
    by_contra hge
    rw [hfresh a (Nat.le_of_not_lt hge)] at hanode
    cases hanode
  apply Finset.card_lt_card
  rw [Finset.ssubset_iff_of_subset]
  · exact ⟨a, mem_below.mpr ⟨hlt, Relation.ReflTransGen.refl⟩, fun hmem =>
      h.acyclic a (Relation.TransGen.tail' (mem_below.mp hmem).2 hparent)⟩
  · intro m hm
    obtain ⟨hm, hup⟩ := mem_below.mp hm
    exact mem_below.mpr ⟨hm, hup.tail hparent⟩

/-- The link is moved first, and then the levels are updated. -/
theorem moveLink_eq (l child : ℕ) {old parent : ℕ} {onode pnode : VSNode} (hne : parent ≠ old)
    (honode : d.node old = some onode) (hpnode : d.node parent = some pnode) :
    ∃ d₂, Relinked d l old parent child d₂ ∧ d₂.next = d.next ∧
      d.moveLink l old parent child = vsLinkUpdateChild (2 * d.next) d₂ parent child := by
  have hpnode₁ : (d.setNode old (some { onode with
      childrenLinks := onode.childrenLinks.erase l })).node parent = some pnode := by
    rw [setNode_node_of_ne hne, hpnode]
  refine ⟨_, ⟨onode, _, pnode, _, honode, rfl, hpnode₁, rfl, SameButLevels.refl _⟩, rfl, ?_⟩
  simp only [moveLink, modifyNode, honode, hpnode₁, Option.map_some, Option.bind_eq_bind,
    Option.bind_some]

/-- **When a move returns.**  The update of the levels returns exactly when the new parent is
not the node that is moved, nor below it. -/
theorem Rooted.moveLink_returns_iff (h : Rooted root d)
    (hfresh : ∀ a, d.next ≤ a → d.node a = none) {l old parent child : ℕ}
    (hmovable : Movable d l old parent child) (hpnode : (d.node parent).isSome) :
    (∃ d', d.moveLink l old parent child = some d') ↔ ¬ d.UpTo parent child := by
  obtain ⟨hlink, hold⟩ := h.linked.movable_link hmovable
  obtain ⟨cnode, -, onode, hcnode, -, -, honode, -⟩ := h.linked.isParent hold
  obtain ⟨pnode, hpnode⟩ := Option.isSome_iff_exists.mp hpnode
  obtain ⟨d₂, hrelinked, hnext, hmove⟩ := moveLink_eq l child hmovable.parent_ne honode hpnode
  obtain ⟨hchild, hothers⟩ := hrelinked.isParent h.linked hmovable
  have hlinked₂ := h.linked.relinked hmovable hrelinked
  rw [hmove]
  constructor
  · rintro ⟨d', hreturns⟩ hbelow
    -- the nodes from the new parent up to the child are a cycle now
    have hcycle : ∀ a, d.UpTo parent a ∧ d.UpTo a child →
        ∃ c, (d.UpTo parent c ∧ d.UpTo c child) ∧ d₂.IsChild a c := by
      rintro a ⟨hpa, hac⟩
      rcases Relation.ReflTransGen.cases_tail hpa with rfl | ⟨b, hpb, hba⟩
      · exact ⟨child, ⟨hbelow, Relation.ReflTransGen.refl⟩, hlinked₂.isChild_iff.mpr hchild⟩
      · have hb : b ≠ child := by
          rintro rfl
          exact h.acyclic b (Relation.TransGen.head' hba hac)
        exact ⟨b, ⟨hpb, Relation.ReflTransGen.head hba hac⟩,
          hlinked₂.isChild_iff.mpr (hothers b a hba hb)⟩
    rw [update_in_cycle hcycle _ ⟨Relation.ReflTransGen.refl, hbelow⟩
      ⟨hbelow, Relation.ReflTransGen.refl⟩] at hreturns
    cases hreturns
  · intro hbelow
    have hrooted₂ := h.relinked hmovable hrelinked hbelow
    obtain ⟨-, -, hold₂, hnew₂⟩ := hrelinked.tree hmovable.parent_ne
    obtain ⟨cnode₂, hcnode₂, -⟩ := hnew₂ child cnode hcnode
    obtain ⟨pnode₂, hpnode₂, -⟩ := hnew₂ parent pnode hpnode
    have hfresh₂ : ∀ a, d₂.next ≤ a → d₂.node a = none := by
      intro a ha
      rw [Option.eq_none_iff_forall_ne_some]
      intro node' hnode'
      obtain ⟨node, hnode, -⟩ := hold₂ a node' hnode'
      rw [hfresh a (hnext ▸ ha)] at hnode
      cases hnode
    have hless := hrooted₂.card_below_lt hfresh₂ (hlinked₂.isChild_iff.mpr hchild)
    have hle := card_below_le d₂ parent
    exact update_returns (fun a => (d₂.below a).card)
      (fun a c => hrooted₂.card_below_lt hfresh₂) hlinked₂ (by simp [hpnode₂]) (by simp [hcnode₂])
      (by omega)

/-! ## Runs -/

/-- Every change but a second root keeps the nodes below the root. -/
theorem Effect.rooted {k : EffectKind} (he : Effect k d d') (hk : k ≠ .newRoot) (hfresh : d.Fresh)
    (hroot : root < d.next) (h : Rooted root d) : Rooted root d' := by
  by_cases hchange : k ∈ treeChanges
  · rcases hchange with rfl | rfl | rfl | rfl | rfl
    · cases he with
      | newNode hcreate => exact h.newNode hfresh hroot hcreate
    · exact absurd rfl hk
    · cases he with
      | dropNode _ _ _ _ hremove =>
          exact (h.sameTree (sameTree_setEntity d _ _)).removeNode hremove
    · cases he with
      | removeNode hremove => exact h.removeNode hremove
    · cases he with
      | move htests hmove =>
          have hmovable := linkChangeTests_movable htests
          have hrelinked := moveLink_cases hmove
          obtain ⟨-, ⟨onode, pnode, -, hpnode⟩, -⟩ := Relinked.tree hmovable.parent_ne hrelinked
          exact h.relinked hmovable hrelinked
            ((h.moveLink_returns_iff hfresh.node hmovable (by simp [hpnode])).mp ⟨_, hmove⟩)
  · exact h.sameTree (he.sameTree hchange)

theorem Rooted.step (hfresh : d.Fresh) (h : Rooted d.rootNode d ∧ d.rootNode < d.next)
    {event : NodeEvent} (hstep : d.step event = some d') :
    Rooted d'.rootNode d' ∧ d'.rootNode < d'.next := by
  have hserver := (step_effects hfresh hstep).sameServer
  rw [hserver.rootNode]
  refine ⟨?_, Nat.lt_of_lt_of_le h.2 hserver.next_le⟩
  have hkeeps : ∀ k e e', k ∈ event.kinds → Effect k e e' →
      (e.Fresh ∧ d.rootNode < e.next ∧ Rooted d.rootNode e) →
      e'.Fresh ∧ d.rootNode < e'.next ∧ Rooted d.rootNode e' := by
    intro k e e' hk he ⟨hefresh, hnext, hrooted⟩
    exact ⟨he.fresh hefresh, Nat.lt_of_lt_of_le hnext he.sameServer.next_le,
      he.rooted (kinds_cases hk).1 hefresh hnext hrooted⟩
  exact ((step_effects hfresh hstep).invariant hkeeps ⟨hfresh, h.2, h.1⟩).2.2

/-- **The nodes in every run.**  From the nodes the server starts with, and for any events of
any clients, all nodes are reached from the root. -/
theorem run_rooted {users : List VSUser} {superUser otherUsers : ℕ} {realname : ℕ → List UInt8}
    (hinit : vsNodesInit users superUser otherUsers realname = some d) {events : List NodeEvent}
    (hrun : run step d events = some d') : Rooted d'.rootNode d' := by
  obtain ⟨hfresh, htree, hroot⟩ := vsNodesInit_treeBelow hinit
  have hrooted : Rooted d.rootNode d := ⟨htree.linked, fun _ _ hnode => htree.reaches_root hnode⟩
  have hall : d'.Fresh ∧ Rooted d'.rootNode d' ∧ d'.rootNode < d'.next :=
    run_keeps (fun (d : VSData) event d' (hd : d.Fresh ∧ Rooted d.rootNode d ∧
      d.rootNode < d.next) hstep => ⟨step_fresh hd.1 hstep, Rooted.step hd.1 hd.2 hstep⟩)
      ⟨hfresh, hrooted, hroot⟩ hrun
  exact hall.2.1

end VSData

end Verse
