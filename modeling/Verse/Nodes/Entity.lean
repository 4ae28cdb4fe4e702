import Mathlib.Algebra.Group.Nat.Defs
import Mathlib.Data.List.Basic
import Mathlib.Tactic.Common

/-!
# Entities and their followers

`vs_entity.h`, and what nodes, tag groups, tags and layers have in common.  A
follower of an entity is a session that was sent the command that creates it.  It
does not hold the session but points at a subscriber of a node, which may be freed
before the follower is; `session` gives the session of a subscriber that is still in
memory, and a loop that reads a freed one fails.

The four kinds of entities have their own copies of the loops over followers, and
the copies differ.  Here each loop is written once, with the kind as a parameter
where it matters.
-/

namespace Verse

/-! ## States -/

inductive EntityState where
  | reserved
  | creating
  | created
  | deleting
  | deleted
  deriving DecidableEq, Repr

/-- The numbers of the source, which are the order of the life cycle. -/
def EntityState.rank : EntityState → ℕ
  | .reserved => 0
  | .creating => 1
  | .created => 2
  | .deleting => 3
  | .deleted => 4

/-- `ENTITY_CREATING` or `ENTITY_CREATED`, as `vs_node_is_created` tests it. -/
def EntityState.isCreated : EntityState → Bool
  | .creating => true
  | .created => true
  | _ => false

/-- `ENTITY_DELETING` or `ENTITY_DELETED`. -/
def EntityState.isDeleted : EntityState → Bool
  | .deleting => true
  | .deleted => true
  | _ => false

structure VSEntityFollower where
  nodeSub : ℕ
  state : EntityState
  deriving DecidableEq, Repr

/-- The members `state` and `*_folls` of a node, a tag group, a tag or a layer. -/
structure VSEntity where
  state : EntityState
  folls : List VSEntityFollower
  deriving DecidableEq, Repr

inductive EntityKind where
  | node
  | tagGroup
  | tag
  | layer
  deriving DecidableEq, Repr

/-! ## Loops over the followers -/

section Loops

variable (session : ℕ → Option ℕ) (s : ℕ)

/-- The follower belongs to the session `s`. -/
def VSEntityFollower.ofSession (f : VSEntityFollower) : Bool := session f.nodeSub == some s

/-- Is there a follower of the session in a state that is asked for? -/
def findFollower (asked : EntityState → Bool) : List VSEntityFollower → Option Bool
  | [] => some false
  | f :: rest =>
      match session f.nodeSub with
      | none => none
      | some t => if t = s ∧ asked f.state then some true else findFollower asked rest

/-- Frees the first follower of the session. -/
def freeFollower : List VSEntityFollower → Option (List VSEntityFollower)
  | [] => some []
  | f :: rest =>
      match session f.nodeSub with
      | none => none
      | some t => if t = s then some rest else (freeFollower rest).map (f :: ·)

/-- Frees every follower of the session. -/
def freeFollowers : List VSEntityFollower → Option (List VSEntityFollower)
  | [] => some []
  | f :: rest =>
      match session f.nodeSub with
      | none => none
      | some t => (freeFollowers rest).map fun rest' => if t = s then rest' else f :: rest'

variable {session s}

theorem findFollower_eq {asked : EntityState → Bool} {folls : List VSEntityFollower} {b : Bool}
    (h : findFollower session s asked folls = some b) :
    b = folls.any fun f => f.ofSession session s && asked f.state := by
  induction folls with
  | nil => exact (Option.some.inj h).symm
  | cons f rest ih =>
      rw [findFollower] at h
      cases hf : session f.nodeSub with
      | none => simp [hf] at h
      | some t =>
          simp only [hf] at h
          by_cases hown : t = s ∧ asked f.state
          · rw [if_pos hown] at h
            obtain rfl := Option.some.inj h
            simp [VSEntityFollower.ofSession, hf, hown]
          · rw [if_neg hown] at h
            rw [ih h]
            have hhead : (f.ofSession session s && asked f.state) = false := by
              simpa [VSEntityFollower.ofSession, hf] using hown
            simp [hhead]

theorem freeFollower_eq {folls folls' : List VSEntityFollower}
    (h : freeFollower session s folls = some folls') :
    folls' = folls.eraseP (VSEntityFollower.ofSession session s) := by
  induction folls generalizing folls' with
  | nil => exact (Option.some.inj h).symm
  | cons f rest ih =>
      rw [freeFollower] at h
      cases hf : session f.nodeSub with
      | none => simp [hf] at h
      | some t =>
          simp only [hf] at h
          by_cases hown : t = s
          · rw [if_pos hown] at h
            obtain rfl := Option.some.inj h
            rw [List.eraseP_cons_of_pos (by simp [VSEntityFollower.ofSession, hf, hown])]
          · rw [if_neg hown] at h
            obtain ⟨rest', hrest, rfl⟩ := Option.map_eq_some_iff.mp h
            rw [List.eraseP_cons_of_neg (by simp [VSEntityFollower.ofSession, hf, hown]), ← ih hrest]

theorem freeFollowers_eq {folls folls' : List VSEntityFollower}
    (h : freeFollowers session s folls = some folls') :
    folls' = folls.filter fun f => !f.ofSession session s := by
  induction folls generalizing folls' with
  | nil => exact (Option.some.inj h).symm
  | cons f rest ih =>
      rw [freeFollowers] at h
      cases hf : session f.nodeSub with
      | none => simp [hf] at h
      | some t =>
          simp only [hf] at h
          obtain ⟨rest', hrest, rfl⟩ := Option.map_eq_some_iff.mp h
          have hhead : f.ofSession session s = decide (t = s) := by
            by_cases hown : t = s <;> simp [VSEntityFollower.ofSession, hf, hown]
          rw [ih hrest, List.filter_cons, hhead]
          by_cases hown : t = s <;> simp [hown]

end Loops

/-! ## Creating and destroying -/

namespace VSEntity

variable (session : ℕ → Option ℕ) (s : ℕ)

/-- The end of the `*_send_create` functions: the session is a follower now. -/
def addFollower (e : VSEntity) (nodeSub : ℕ) : VSEntity :=
  { e with folls := e.folls ++ [⟨nodeSub, .creating⟩] }

/-- The `*_send_destroy` functions: followers that know about the entity are told. -/
def sendDestroy (e : VSEntity) : VSEntity where
  state := .deleting
  folls := e.folls.map fun f => if f.state = .created then { f with state := .deleting } else f

/-- The state of a follower whose session acknowledged the creation of an entity in
the state `entity`. -/
def ackState (kind : EntityKind) (entity foll : EntityState) : EntityState :=
  match kind with
  | .node =>
      if foll = .creating then (if entity = .deleting then .deleting else .created) else foll
  | .tagGroup => if entity = .deleting then .deleting else if foll = .creating then .created else foll
  | .tag => if entity = .deleting then .deleting else .created
  | .layer => if entity = .deleting then .deleting else if foll = .creating then .created else foll

/-- The follower leaves `all_created` as it is.  A layer does not look at the
followers of other sessions. -/
def leavesAllCreated (kind : EntityKind) (own : Bool) (entity foll : EntityState) : Bool :=
  match kind with
  | .layer => !own || entity == .deleting || ackState .layer entity foll == .created
  | _ => own || foll == .created

/-- The loop of the `vs_handle_*_create_ack` functions over the followers. -/
def createAck (kind : EntityKind) (e : VSEntity) : Option VSEntity :=
  if e.folls.all fun f => (session f.nodeSub).isSome then
    some
      { state :=
          if e.folls.all fun f =>
              leavesAllCreated kind (f.ofSession session s) e.state f.state then .created
          else e.state
        folls := e.folls.map fun f =>
          if f.ofSession session s then { f with state := ackState kind e.state f.state } else f }
  else none

/-- The loop of the `vs_handle_*_destroy_ack` functions.  Nodes and tags free one
follower of the session, tag groups and layers all of them. -/
def destroyAck (kind : EntityKind) (e : VSEntity) : Option VSEntity :=
  let freed :=
    match kind with
    | .node | .tag => freeFollower session s e.folls
    | .tagGroup | .layer => freeFollowers session s e.folls
  freed.map fun folls => { state := if folls = [] then .deleted else e.state, folls }

end VSEntity

end Verse
