import Mathlib.Data.Finset.Card
import Verse.Nodes.Tree

/-!
# The test against cycles

`vs_link_test_nodes` tells whether a node may become the parent of another one.  A parent
that stands above the child is accepted at once; otherwise the child is looked for on the way
from the parent up to the root.

* On the way up the levels fall, so that there are fewer and fewer nodes that stand as high or
  higher (`standing`), and the way ends (`climbAvoids_iff`).
* What is met on the way are the ancestors of the parent (`IsTree.level_le`), and none of them
  stands below it, so that both branches give the same answer.
-/

namespace Verse

open Lib

namespace VSData

variable {d : VSData}

/-! ## Ancestors -/

/-- `m` is the node at `n`, or one of its ancestors. -/
abbrev UpTo (d : VSData) (n m : ℕ) : Prop := Relation.ReflTransGen d.IsParent n m

/-- A parent is a node one level higher. -/
theorem IsTree.isParent (h : d.IsTree) {n p : ℕ} (hparent : d.IsParent n p) :
    ∃ node pnode, d.node n = some node ∧ d.node p = some pnode ∧ node.level = pnode.level + 1 := by
  obtain ⟨node, l, link, hnode, hl, hlink, rfl⟩ := hparent
  have hn : n ≠ d.rootNode := by
    rintro rfl
    rw [h.root node hnode] at hl
    cases hl
  obtain ⟨l', p, pnode, hl', hlink', hpnode, -, hlevel⟩ := h.parent n node hnode hn
  obtain rfl := Option.some.inj (hl.symm.trans hl')
  obtain rfl := Option.some.inj (hlink.symm.trans hlink')
  exact ⟨node, pnode, hnode, hpnode, hlevel⟩

/-- No ancestor stands below the node. -/
theorem IsTree.level_le (h : d.IsTree) {n m : ℕ} {node mnode : VSNode} (hup : d.UpTo n m)
    (hnode : d.node n = some node) (hmnode : d.node m = some mnode) : mnode.level ≤ node.level := by
  induction hup using Relation.ReflTransGen.head_induction_on generalizing node with
  | refl =>
      obtain rfl := Option.some.inj (hnode.symm.trans hmnode)
      exact Nat.le_refl _
  | head hparent _ ih =>
      obtain ⟨node', pnode, hnode', hpnode, hlevel⟩ := h.isParent hparent
      obtain rfl := Option.some.inj (hnode.symm.trans hnode')
      rw [hlevel]
      exact Nat.le_succ_of_le (ih hpnode)

/-! ## The way to the root -/

/-- The nodes that stand as high as `level` or higher. -/
def standing (d : VSData) (level : ℕ) : Finset ℕ :=
  (Finset.range d.next).filter fun m => (d.node m).any fun mnode => decide (mnode.level ≤ level)

theorem mem_standing {level m : ℕ} {mnode : VSNode} (hfresh : ∀ a, d.next ≤ a → d.node a = none)
    (hmnode : d.node m = some mnode) : m ∈ d.standing level ↔ mnode.level ≤ level := by
  have hlt : m < d.next := by
    by_contra hge
    rw [hfresh m (Nat.le_of_not_lt hge)] at hmnode
    cases hmnode
  simp [standing, hlt, hmnode]

theorem card_standing_le (level : ℕ) : (d.standing level).card ≤ d.next := by
  calc (d.standing level).card ≤ (Finset.range d.next).card := Finset.card_filter_le _ _
    _ = d.next := Finset.card_range d.next

/-- Fewer nodes stand as high as the parent. -/
theorem card_standing_lt (hfresh : ∀ a, d.next ≤ a → d.node a = none) {n level : ℕ} {node : VSNode}
    (hnode : d.node n = some node) (hlevel : node.level = level + 1) :
    (d.standing level).card < (d.standing node.level).card := by
  apply Finset.card_lt_card
  rw [Finset.ssubset_iff_of_subset]
  · refine ⟨n, (mem_standing hfresh hnode).mpr (Nat.le_refl _), fun hmem => ?_⟩
    have hle := (mem_standing hfresh hnode).mp hmem
    omega
  · intro m hm
    simp only [standing, Finset.mem_filter, Option.any_eq_true, decide_eq_true_eq] at hm ⊢
    obtain ⟨hrange, mnode, hmnode, hle⟩ := hm
    exact ⟨hrange, mnode, hmnode, by omega⟩

/-- The loop ends at the root, or where it meets the child. -/
theorem IsTree.climbAvoids_iff (h : d.IsTree) (hfresh : ∀ a, d.next ≤ a → d.node a = none)
    (child : ℕ) {fuel n : ℕ} {node : VSNode} (hnode : d.node n = some node)
    (hfuel : (d.standing node.level).card ≤ fuel) :
    ∃ avoids, d.climbAvoids child fuel n = some avoids ∧ (avoids = true ↔ ¬ d.UpTo n child) := by
  induction fuel generalizing n node with
  | zero =>
      have hmem := (mem_standing hfresh hnode).mpr (Nat.le_refl node.level)
      have hempty := Finset.card_eq_zero.mp (Nat.le_zero.mp hfuel)
      rw [hempty] at hmem
      cases hmem
  | succ fuel ih =>
      by_cases hn : n = child
      · subst hn
        refine ⟨false, by rw [climbAvoids, if_pos rfl], ?_⟩
        simp [Relation.ReflTransGen.refl]
      cases hl : node.parentLink with
      | none =>
          refine ⟨true, by simp [climbAvoids, hn, hnode, hl], ?_⟩
          -- there is nothing above the node
          have hnot : ¬ d.UpTo n child := by
            intro hup
            rcases Relation.ReflTransGen.cases_head hup with rfl | ⟨p, hparent, -⟩
            · exact hn rfl
            · obtain ⟨node', l, link, hnode', hl', -⟩ := hparent
              obtain rfl := Option.some.inj (hnode.symm.trans hnode')
              rw [hl] at hl'
              cases hl'
          simp [hnot]
      | some l =>
          have hroot : n ≠ d.rootNode := by
            rintro rfl
            rw [h.root node hnode] at hl
            cases hl
          obtain ⟨l', p, pnode, hl', hlink, hpnode, -, hlevel⟩ := h.parent n node hnode hroot
          obtain rfl := Option.some.inj (hl.symm.trans hl')
          have hless := card_standing_lt hfresh hnode hlevel
          obtain ⟨avoids, hclimb, havoids⟩ := ih hpnode (by omega)
          refine ⟨avoids, by simp [climbAvoids, hn, hnode, hl, hlink, hclimb], havoids.trans ?_⟩
          apply not_congr
          have hparent : d.IsParent n p := ⟨node, l, ⟨p, n⟩, hnode, hl, hlink, rfl⟩
          refine ⟨Relation.ReflTransGen.head hparent, fun hup => ?_⟩
          rcases Relation.ReflTransGen.cases_head hup with rfl | ⟨q, hq, hup⟩
          · exact absurd rfl hn
          · -- a node has one parent
            obtain ⟨node', l', link, hnode', hl', hlink', rfl⟩ := hq
            obtain rfl := Option.some.inj (hnode.symm.trans hnode')
            obtain rfl := Option.some.inj (hl.symm.trans hl')
            obtain rfl := Option.some.inj (hlink.symm.trans hlink')
            exact hup

/-- **The test is exact.**  In a tree of nodes with their levels it ends for any two nodes, and
accepts the parent exactly when the child is neither the parent itself nor one of its
ancestors. -/
theorem link_test_exact (h : d.IsTree) (hfresh : ∀ a, d.next ≤ a → d.node a = none)
    {parent child : ℕ} (hparent : (d.node parent).isSome) (hchild : (d.node child).isSome) :
    ∃ accepted, d.vsLinkTestNodes parent child = some accepted ∧
      (accepted = true ↔ child ≠ parent ∧ ¬ Relation.TransGen d.IsParent parent child) := by
  obtain ⟨pnode, hpnode⟩ := Option.isSome_iff_exists.mp hparent
  obtain ⟨cnode, hcnode⟩ := Option.isSome_iff_exists.mp hchild
  -- the ancestors and the node itself
  have hup : ¬ d.UpTo parent child ↔
      child ≠ parent ∧ ¬ Relation.TransGen d.IsParent parent child := by
    rw [UpTo, Relation.reflTransGen_iff_eq_or_transGen, not_or]
  rw [← hup]
  by_cases hlevel : pnode.level < cnode.level
  · refine ⟨true, ?_, fun _ habove => ?_, fun _ => rfl⟩
    · simp [vsLinkTestNodes, hpnode, hcnode, hlevel]
    · exact absurd (h.level_le habove hpnode hcnode) (Nat.not_le.mpr hlevel)
  · obtain ⟨avoids, hclimb, havoids⟩ :=
      h.climbAvoids_iff hfresh child hpnode (card_standing_le pnode.level)
    refine ⟨avoids, ?_, havoids⟩
    simp [vsLinkTestNodes, hpnode, hcnode, hlevel, hclimb]

/-- Below the nodes the server starts with, the root cannot become a child of another node. -/
theorem link_test_exact_sample :
    ∃ d, sampleInit = some d ∧ d.vsLinkTestNodes 7 1 = some false ∧
      ∃ accepted, d.vsLinkTestNodes 7 5 = some accepted ∧
        (accepted = true ↔ 5 ≠ 7 ∧ ¬ Relation.TransGen d.IsParent 7 5) := by
  have hinit : (sampleInit.map fun d => ((d.node 7).isSome, (d.node 5).isSome,
      d.vsLinkTestNodes 7 1)) = some (true, true, some false) := by decide +kernel
  obtain ⟨d, hinit, htests⟩ := Option.map_eq_some_iff.mp hinit
  simp only [Prod.mk.injEq] at htests
  obtain ⟨hparent, hchild, hroot⟩ := htests
  obtain ⟨hfresh, htree, -⟩ := vsNodesInit_treeBelow hinit
  exact ⟨d, hinit, hroot, link_test_exact htree.isTree hfresh.node hparent hchild⟩

end VSData

end Verse
