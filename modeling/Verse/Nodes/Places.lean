import Verse.Lib.Walks
import Verse.Nodes.MoveNotices
import Verse.Nodes.Ownership

/-!
# What a session leaves in the tree

Records of a session stand among the followers of entities and among the subscribers of
tag groups, layers and nodes, and a node may be locked by it.  `visits` lists these places
in the order in which `vs_free_avatar_reference` comes to them, and `after` is the state
when the records of the session at the first of them are gone.
-/

namespace Verse

open Lib

/-- A place that is visited; the lock of a node stands with its subscribers. -/
inductive RecordPlace where
  | followers (a : ℕ)
  | tagGroup (g : ℕ)
  | layer (a : ℕ)
  | node (n : ℕ)
  deriving DecidableEq, Repr

namespace VSData

variable (d : VSData) (s : ℕ)

/-! ## Without the session -/

/-- The record of a subscriber belongs to the session. -/
def owns (r : ℕ) : Bool := d.subSession r == some s

def entityWithout (e : VSEntity) : VSEntity :=
  { e with folls := e.folls.filter fun f => !d.owns s f.nodeSub }

def tagGroupWithout (tg : VSTagGroup) : VSTagGroup :=
  { tg with subs := tg.subs.filter fun r => !d.owns s r }

def layerWithout (layer : VSLayer) : VSLayer :=
  { layer with subs := layer.subs.filter fun r => !d.owns s r }

def nodeWithout (node : VSNode) : VSNode :=
  { node with
    nodeSubs := node.nodeSubs.filter fun r => !d.owns s r
    lock := if node.lock == some s then none else node.lock }

/-- The subscribers that are freed at a place. -/
def subsAt : RecordPlace → List ℕ
  | .node n => (d.node n).elim [] VSNode.nodeSubs
  | _ => []

/-- The command for another subscriber of a node that the session had locked. -/
def unlockPush (n : ℕ) (node : VSNode) (r : ℕ) : Option Push :=
  (d.sub r).bind fun sub =>
    if sub.session = s then none
    else some ⟨sub.session, sub.prio, d.nodeUnlockCmd node s, n, n⟩

/-- The commands that are pushed at a place. -/
def unlocksAt : RecordPlace → List Push
  | .node n =>
      match d.node n with
      | none => []
      | some node => if node.lock = some s then node.nodeSubs.filterMap (d.unlockPush s n node) else []
  | _ => []

/-- The state after some places were visited. -/
def after (xs : List RecordPlace) : VSData :=
  { d with
    node := fun n => if .node n ∈ xs then (d.node n).map (d.nodeWithout s) else d.node n
    tagGroup := fun g =>
      if .tagGroup g ∈ xs then (d.tagGroup g).map (d.tagGroupWithout s) else d.tagGroup g
    layer := fun a => if .layer a ∈ xs then (d.layer a).map (d.layerWithout s) else d.layer a
    entity := fun a => if .followers a ∈ xs then (d.entity a).map (d.entityWithout s) else d.entity a
    sub := fun r => if d.owns s r ∧ r ∈ xs.flatMap d.subsAt then none else d.sub r
    pushed := d.pushed ++ xs.flatMap (d.unlocksAt s) }

/-! ## The order of the walk -/

/-- The session is a subscriber of the tag group. -/
def attends (tg : VSTagGroup) : Bool := tg.subs.any (d.owns s)

/-- The places of a tag group.  Its tags are only visited when the session is subscribed
to the tag group. -/
def tagGroupVisits (g : ℕ) : List RecordPlace :=
  .followers g :: .tagGroup g ::
    match d.tagGroup g with
    | none => []
    | some tg => if d.attends s tg then tg.tags.map fun b => .followers b.2 else []

def layerVisits (a : ℕ) : List RecordPlace := [.followers a, .layer a]

/-- The child nodes. -/
def childrenOf (node : VSNode) : List ℕ :=
  node.childrenLinks.filterMap fun l => (d.link l).map VSLink.child

/-- The places in the branch of a node. -/
def visits : ℕ → ℕ → List RecordPlace
  | 0, _ => []
  | fuel + 1, n =>
      match d.node n with
      | none => []
      | some node =>
          (node.tagGroups.flatMap fun b => d.tagGroupVisits s b.2) ++
          (node.layers.flatMap fun b => layerVisits b.2) ++
          ((d.childrenOf node).flatMap fun c => visits fuel c ++ [.followers c]) ++ [.node n]

/-- The record of the session among the followers of an entity can still be read: it was
not freed with the subscribers of a node that was visited before. -/
def CanVisit (xs : List RecordPlace) : RecordPlace → Prop
  | .followers a => .followers a ∉ xs →
      ∀ e f, d.entity a = some e → f ∈ e.folls → d.owns s f.nodeSub →
        f.nodeSub ∉ xs.flatMap d.subsAt
  | _ => True

/-! ## The state after visits -/

variable {d} {s} {xs ys : List RecordPlace}

theorem owns_iff {r : ℕ} : d.owns s r ↔ d.subSession r = some s := by
  simp [owns]

theorem after_node {n : ℕ} (hn : .node n ∉ xs) : (d.after s xs).node n = d.node n := by
  simp [after, hn]

theorem after_subSession (r : ℕ) : (d.after s xs).subSession r =
    if d.owns s r ∧ r ∈ xs.flatMap d.subsAt then none else d.subSession r := by
  rw [subSession, after]
  dsimp only
  split
  · rfl
  · rfl

theorem after_subSession_other {r : ℕ} (hr : ¬ d.owns s r) :
    (d.after s xs).subSession r = d.subSession r := by
  rw [after_subSession, if_neg fun h => hr h.1]

theorem after_subSession_of_not_mem {r : ℕ} (hr : r ∉ xs.flatMap d.subsAt) :
    (d.after s xs).subSession r = d.subSession r := by
  rw [after_subSession, if_neg fun h => hr h.2]

/-- Only what is visited matters, and where it is not the subscribers of a node it does not
matter how often. -/
theorem after_append_of_mem (hmem : ∀ x ∈ ys, x ∈ xs) (hnode : ∀ n, .node n ∉ ys) :
    d.after s (xs ++ ys) = d.after s xs := by
  have hin : ∀ x, x ∈ xs ++ ys ↔ x ∈ xs := fun x =>
    ⟨fun hx => (List.mem_append.mp hx).elim id (hmem x), List.mem_append_left ys⟩
  have hsubs : ys.flatMap d.subsAt = [] := by
    refine List.flatMap_eq_nil_iff.mpr fun x hx => ?_
    cases x with
    | node n => exact absurd hx (hnode n)
    | _ => rfl
  have hunlocks : ys.flatMap (d.unlocksAt s) = [] := by
    refine List.flatMap_eq_nil_iff.mpr fun x hx => ?_
    cases x with
    | node n => exact absurd hx (hnode n)
    | _ => rfl
  simp only [after, hin, List.flatMap_append, hsubs, hunlocks, List.append_nil]

theorem after_setEntity {a : ℕ} {e : VSEntity} (he : d.entity a = some e) :
    (d.after s xs).setEntity a (some (d.entityWithout s e)) = d.after s (xs ++ [.followers a]) := by
  have hentity : Function.update (d.after s xs).entity a (some (d.entityWithout s e)) =
      (d.after s (xs ++ [.followers a])).entity := by
    funext b
    by_cases hb : b = a
    · subst hb
      simp [after, he]
    · simp [after, hb]
  rw [setEntity, hentity]
  simp [after, subsAt, unlocksAt]

theorem after_setTagGroup {g : ℕ} {tg : VSTagGroup} (htg : d.tagGroup g = some tg) :
    (d.after s xs).setTagGroup g (some (d.tagGroupWithout s tg)) =
      d.after s (xs ++ [.tagGroup g]) := by
  have hstored : Function.update (d.after s xs).tagGroup g (some (d.tagGroupWithout s tg)) =
      (d.after s (xs ++ [.tagGroup g])).tagGroup := by
    funext b
    by_cases hb : b = g
    · subst hb
      simp [after, htg]
    · simp [after, hb]
  rw [setTagGroup, hstored]
  simp [after, subsAt, unlocksAt]

theorem after_setLayer {a : ℕ} {layer : VSLayer} (hlayer : d.layer a = some layer) :
    (d.after s xs).setLayer a (some (d.layerWithout s layer)) = d.after s (xs ++ [.layer a]) := by
  have hstored : Function.update (d.after s xs).layer a (some (d.layerWithout s layer)) =
      (d.after s (xs ++ [.layer a])).layer := by
    funext b
    by_cases hb : b = a
    · subst hb
      simp [after, hlayer]
    · simp [after, hb]
  rw [setLayer, hstored]
  simp [after, subsAt, unlocksAt]

end VSData

end Verse
