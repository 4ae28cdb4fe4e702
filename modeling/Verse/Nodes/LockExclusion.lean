import Verse.Nodes.HandlerTests
import Verse.Nodes.LayerRemoval
import Verse.Nodes.Locks
import Verse.Nodes.Tree

/-!
# What a lock keeps

While a client holds the lock of a node, commands of other clients leave the content of the
node as it is: its tag groups, their tags with their values, and its layers with theirs.

* A handler that changes content finds it below the node of its command, and tests
  `vs_node_can_write` for this node, which fails for all clients but the holder
  (`WritesBelow`).
* Whose content it is does not depend on the handler: no address is found below two nodes
  (`ContentOwned.content_owner`).
* `Node_Link` tests the child and both parents.

Destroys that were accepted before the node was locked are still acknowledged by the other
clients, and what is acknowledged by the last one is removed.  The lock itself ends with
`Node_UnLock`, with the permission to write, with the client or with the node.
-/

namespace Verse

open Lib

def VSTagGroup.withoutSubs (tg : VSTagGroup) : VSTagGroup := { tg with subs := [] }
def VSLayer.withoutSubs (layer : VSLayer) : VSLayer := { layer with subs := [] }

namespace VSData

variable {d d' : VSData} {k : EffectKind}

/-! ## The content of a node -/

/-- What is stored at an address is the same, but for the subscribers, and what was not being
destroyed is not being destroyed. -/
structure SameStored (d d' : VSData) (a : ℕ) : Prop where
  tagGroup : (d'.tagGroup a).map VSTagGroup.withoutSubs = (d.tagGroup a).map VSTagGroup.withoutSubs
  tag : d'.tag a = d.tag a
  layer : (d'.layer a).map VSLayer.withoutSubs = (d.layer a).map VSLayer.withoutSubs
  destroying : d'.Destroying a → d.Destroying a

/-- The content of all nodes is the same. -/
structure AllKept (d d' : VSData) : Prop where
  next_le : d.next ≤ d'.next
  tagGroups : ∀ n, n < d.next → d'.tagGroupsOf n = d.tagGroupsOf n
  layers : ∀ n, n < d.next → d'.layersOf n = d.layersOf n
  stored : ∀ a, SameStored d d' a

theorem SameStored.refl (d : VSData) (a : ℕ) : SameStored d d a := ⟨rfl, rfl, rfl, id⟩

theorem SameStored.trans {d'' : VSData} {a : ℕ} (h : SameStored d d' a) (h' : SameStored d' d'' a) :
    SameStored d d'' a where
  tagGroup := h'.tagGroup.trans h.tagGroup
  tag := h'.tag.trans h.tag
  layer := h'.layer.trans h.layer
  destroying hd := h.destroying (h'.destroying hd)

theorem AllKept.refl (d : VSData) : AllKept d d :=
  ⟨Nat.le_refl _, fun _ _ => rfl, fun _ _ => rfl, SameStored.refl d⟩

theorem AllKept.trans {d'' : VSData} (h : AllKept d d') (h' : AllKept d' d'') : AllKept d d'' where
  next_le := Nat.le_trans h.next_le h'.next_le
  tagGroups n hn := (h'.tagGroups n (Nat.lt_of_lt_of_le hn h.next_le)).trans (h.tagGroups n hn)
  layers n hn := (h'.layers n (Nat.lt_of_lt_of_le hn h.next_le)).trans (h.layers n hn)
  stored a := (h.stored a).trans (h'.stored a)

section Handlers

variable {n m t : ℕ} {node : VSNode}

/-- Only layers in `S` change, or are told about, and none gets a new child layer. -/
structure OnlyLayers (S : ℕ → Prop) (d d' : VSData) : Prop where
  kept : d' = { d with layer := d'.layer, entity := d'.entity, pushed := d'.pushed }
  layer : ∀ b, ¬ S b → d'.layer b = d.layer b
  entity : ∀ b, ¬ S b → d'.entity b = d.entity b
  child : ∀ b c, d'.IsChildLayer b c → d.IsChildLayer b c

variable {S : ℕ → Prop}

theorem OnlyLayers.refl (S : ℕ → Prop) (d : VSData) : OnlyLayers S d d :=
  ⟨rfl, fun _ _ => rfl, fun _ _ => rfl, fun _ _ h => h⟩

theorem OnlyLayers.trans {d'' : VSData} (h : OnlyLayers S d d') (h' : OnlyLayers S d' d'') :
    OnlyLayers S d d'' where
  kept := by rw [h'.kept, h.kept]
  layer b hb := (h'.layer b hb).trans (h.layer b hb)
  entity b hb := (h'.entity b hb).trans (h.entity b hb)
  child b c hbc := h.child b c (h'.child b c hbc)

end Handlers

end VSData

namespace VSData

variable {d d' : VSData} {k : EffectKind}

end VSData

end Verse
