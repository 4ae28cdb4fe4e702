import Verse.Nodes.NodeChanges

/-!
# The holder of a lock

A client that locked a node may only unlock it while it can write it.  A change of the
permissions looks for a lock whose holder cannot write the node any more, and releases
it.  A change of the owner does not: the holder may have been able to write the node as
its owner only.
-/

namespace Verse

open Lib

namespace VSData

variable {d d' : VSData} {k : EffectKind}

/-- Every client that locked a node can write it. -/
def HoldersCanWrite (d : VSData) : Prop :=
  ∀ n node s, d.node n = some node → node.lock = some s → d.vsNodeCanWrite s node

/-! ## What an event may not do -/

/-- No node is locked by the session. -/
def HoldsNoLock (d : VSData) (s : ℕ) : Prop := ∀ n node, d.node n = some node → node.lock ≠ some s

/-- The holder of a lock can write the node also after its owner changes, and no lock is
left of an earlier client of a session when a client logs in. -/
def KeepsHolders (d : VSData) : NodeEvent → Prop
  | .command s (.nodeOwner userId nodeId) => (d.session s).connected → ∀ n node owner t,
      d.vsNodeFind nodeId = some n → d.node n = some node → (d.session s).user = node.owner →
      d.vsUserFind userId = some owner → node.lock = some t →
      d.vsNodeCanWrite t { node with owner }
  | .login s .. => (d.session s).connected = false → d.HoldsNoLock s
  | _ => True

/-! ## Changes -/

/-- Only logging in and disconnecting change what is known of a session. -/
theorem Effect.session_kept (he : Effect k d d') (hk : k ≠ .session) : d'.session = d.session := by
  by_cases hpush : k = .push
  · subst hpush
    cases he with
    | push hpush _ _ =>
        obtain ⟨sub, -, rfl⟩ := push_eq_some.mp hpush
        rfl
  by_cases hset : k = .pushSet
  · subst hset
    cases he with
    | pushSet hpush _ _ =>
        obtain ⟨sub, -, rfl⟩ := push_eq_some.mp hpush
        rfl
  · exact (he.quiet hpush hset hk).1

theorem Effects.session_kept {S : Set EffectKind} (h : Effects S d d') (hS : .session ∉ S) :
    d'.session = d.session := by
  apply h.rel (R := fun d d' => d'.session = d.session) (fun _ => rfl)
  · intro d d' d'' h h'
    exact h'.trans h
  · intro k d d' hk he
    apply he.session_kept
    rintro rfl
    exact hS hk

/-- Whether a client can write a node depends on a few members of it. -/
theorem vsNodeCanWrite_congr {s : ℕ} {node node' : VSNode} (hsession : d'.session = d.session)
    (husers : d'.users = d.users) (hlock : node'.lock = node.lock) (howner : node'.owner = node.owner)
    (hperm : node'.permissions = node.permissions) :
    d'.vsNodeCanWrite s node' = d.vsNodeCanWrite s node := by
  simp only [vsNodeCanWrite, hasPerm, userId, hsession, husers, hlock, howner, hperm]

theorem NodeChange.holders {node node' : VSNode} {s : ℕ} (h : NodeChange d k node node')
    (hk : k ≠ .owner) (hlock : node'.lock = some s)
    (hholder : node.lock = some s → d.vsNodeCanWrite s node) : d.vsNodeCanWrite s node' := by
  cases h with
  | tree | tagGroups | layers | subs => exact hholder hlock
  | lock hcases =>
      rename_i t lock
      rcases hcases with rfl | ⟨-, rfl⟩ | ⟨hnone, rfl, hwrite⟩
      · exact hholder hlock
      · cases hlock
      · -- the lock is new, and its holder could write the node before
        obtain rfl : t = s := Option.some.inj hlock
        simpa [vsNodeCanWrite, hnone] using hwrite
  | permit hnone =>
      rw [hnone] at hlock
      cases hlock
  | access hcases =>
      rcases hcases with ⟨rfl, hwrite⟩ | ⟨rfl, -⟩
      · exact hwrite s hlock
      · cases hlock
  | owner => exact absurd rfl hk

theorem Effect.holdersCanWrite (he : Effect k d d') (hk : k ≠ .owner ∧ k ≠ .session)
    (hfresh : d.Fresh) (h : d.HoldersCanWrite) : d'.HoldersCanWrite := by
  have hsession := he.session_kept hk.2
  have husers := he.sameServer.users
  intro n node' s hnode' hlock
  have hcongr : d'.vsNodeCanWrite s node' = d.vsNodeCanWrite s node' :=
    vsNodeCanWrite_congr hsession husers rfl rfl rfl
  rw [hcongr]
  rcases he.node_after hfresh n with
    hsame | ⟨hnone, -⟩ | ⟨-, new, hnew, hisnew⟩ | ⟨node, node₁, hnode, hnode₁, hchange⟩
  · exact h n node' s (hsame.symm.trans hnode') hlock
  · rw [hnone] at hnode'
    cases hnode'
  · obtain rfl := Option.some.inj (hnew.symm.trans hnode')
    rw [hisnew.lock] at hlock
    cases hlock
  · obtain rfl := Option.some.inj (hnode₁.symm.trans hnode')
    exact hchange.holders hk.1 hlock (h n node s hnode)

theorem Effects.holdersCanWrite {S : Set EffectKind} (heffects : Effects S d d')
    (hS : .owner ∉ S ∧ .session ∉ S) (hfresh : d.Fresh) (h : d.HoldersCanWrite) :
    d'.Fresh ∧ d'.HoldersCanWrite := by
  refine heffects.invariant (fun k d d' hk he (hd : d.Fresh ∧ d.HoldersCanWrite) => ?_) ⟨hfresh, h⟩
  refine ⟨he.fresh hd.1, he.holdersCanWrite ⟨?_, ?_⟩ hd.1 hd.2⟩
  · rintro rfl
    exact hS.1 hk
  · rintro rfl
    exact hS.2 hk

theorem Effect.holdsNoLock {s : ℕ} (he : Effect k d d') (hk : ∀ t, k ≠ .lock t) (hfresh : d.Fresh)
    (h : d.HoldsNoLock s) : d'.HoldsNoLock s := by
  intro n node' hnode' hlock
  rcases he.node_after hfresh n with
    hsame | ⟨hnone, -⟩ | ⟨-, new, hnew, hisnew⟩ | ⟨node, node₁, hnode, hnode₁, hchange⟩
  · exact h n node' (hsame.symm.trans hnode') hlock
  · rw [hnone] at hnode'
    cases hnode'
  · obtain rfl := Option.some.inj (hnew.symm.trans hnode')
    rw [hisnew.lock] at hlock
    cases hlock
  · obtain rfl := Option.some.inj (hnode₁.symm.trans hnode')
    cases hchange with
    | tree | tagGroups | layers | subs | permit | owner => exact h n node hnode hlock
    | lock => exact hk _ rfl
    | access hcases =>
        rcases hcases with ⟨rfl, -⟩ | ⟨rfl, -⟩
        · exact h n node hnode hlock
        · cases hlock

theorem Effects.holdsNoLock {S : Set EffectKind} {s : ℕ} (heffects : Effects S d d')
    (hS : ∀ t, .lock t ∉ S) (hfresh : d.Fresh) (h : d.HoldsNoLock s) : d'.HoldsNoLock s := by
  have hend : d'.Fresh ∧ d'.HoldsNoLock s := by
    refine heffects.invariant (fun k d d' hk he (hd : d.Fresh ∧ d.HoldsNoLock s) => ?_) ⟨hfresh, h⟩
    refine ⟨he.fresh hd.1, he.holdsNoLock (fun t => ?_) hd.1 hd.2⟩
    rintro rfl
    exact hS t hk
  exact hend.2

/-! ## Steps -/

theorem vsHandleNodeOwner_cases {s userId nodeId : ℕ}
    (h : d.vsHandleNodeOwner s userId nodeId = some d') :
    d' = d ∨ ∃ n node owner, d.vsNodeFind nodeId = some n ∧ d.node n = some node ∧
      (d.session s).user = node.owner ∧ d.vsUserFind userId = some owner ∧
      Effects pushes (d.setNode n (some { node with owner })) d' := by
  rcases withNode_cases h with rfl | ⟨n, node, hn, hnode, h⟩
  · exact Or.inl rfl
  rcases ite_cases h with rfl | ⟨howner, h⟩
  · exact Or.inl rfl
  split at h
  · exact Or.inl (Option.some.inj h).symm
  rename_i owner huser
  split at h
  · exact Or.inl (Option.some.inj h).symm
  obtain ⟨e, -, h⟩ := Option.bind_eq_some_iff.mp h
  exact Or.inr ⟨n, node, owner, hn, hnode, howner, huser,
    foldlM_pushes (fun t x t' _ _ hbody => push_pushes rfl hbody) h⟩

/-- Pushing commands does not matter for locks. -/
theorem Effects.holdersCanWrite_of_pushes (hpush : Effects pushes d d') (h : d.HoldersCanWrite) :
    d'.HoldersCanWrite := by
  rw [hpush.pushes_kept]
  exact h

theorem HoldersCanWrite.changeOwner {n : ℕ} {node : VSNode} {owner : ℕ} (h : d.HoldersCanWrite)
    (hwrite : ∀ t, node.lock = some t → d.vsNodeCanWrite t { node with owner }) :
    (d.setNode n (some { node with owner })).HoldersCanWrite := by
  intro m mnode t hmnode hlock
  by_cases hm : m = n
  · subst hm
    obtain rfl := Option.some.inj ((setNode_node d m _).symm.trans hmnode)
    exact hwrite t hlock
  · exact h m mnode t ((setNode_node_of_ne hm d _).symm.trans hmnode) hlock

/-- Changing the user of a session that holds no lock. -/
theorem HoldersCanWrite.newSession {s : ℕ} {si : SessionInfo} (h : d.HoldersCanWrite)
    (hs : d.HoldsNoLock s ∨ si.user = (d.session s).user) :
    ({ d with session := Function.update d.session s si } : VSData).HoldersCanWrite := by
  intro n node t hnode hlock
  have hwrite := h n node t hnode hlock
  have huser : (Function.update d.session s si t).user = (d.session t).user := by
    by_cases hts : t = s
    · subst hts
      rcases hs with hnone | hsame
      · exact absurd hlock (hnone n node hnode)
      · rw [Function.update_self, hsame]
    · rw [Function.update_of_ne hts]
  calc VSData.vsNodeCanWrite _ t node = d.vsNodeCanWrite t node := by
        simp only [vsNodeCanWrite, huser]
        rfl
    _ = true := hwrite

theorem HoldersCanWrite.step (hfresh : d.Fresh) (h : d.HoldersCanWrite) {event : NodeEvent}
    (hguard : d.KeepsHolders event) (hstep : d.step event = some d') : d'.HoldersCanWrite := by
  have heffects := step_effects hfresh hstep
  cases event with
  | login s heap heap' userId stream info =>
      simp only [VSData.step] at hstep
      split at hstep
      · obtain rfl := Option.some.inj hstep
        exact h
      rename_i hconnected
      obtain ⟨d₁, d₂, hbuild, hsend, hsession⟩ := login_cases hfresh hstep
      have hbuild' : Effects (builds ∪ sends) d d₂ :=
        (hbuild.mono fun _ hk => Or.inl hk).trans (hsend.mono fun _ hk => Or.inr hk)
      have hd₂ := (hbuild'.holdersCanWrite (by simp [builds, sends]) hfresh h).2
      have hnone : d.HoldsNoLock s := hguard (by simpa using hconnected)
      rcases hsession with rfl | ⟨user, avatarId, -, rfl⟩
      · exact hd₂
      · exact hd₂.newSession (Or.inl (hbuild'.holdsNoLock (by simp [builds, sends]) hfresh hnone))
  | disconnect s =>
      rcases ite_cases hstep with rfl | ⟨-, hstep⟩
      · exact h
      obtain ⟨d₁, d₂, info, hdeparts, hbranch, rfl, rfl⟩ := disconnect_cases hstep
      obtain ⟨hfresh₁, hd₁⟩ := hdeparts.holdersCanWrite (by simp [departs]) hfresh h
      obtain ⟨-, hd₂⟩ := hbranch.holdersCanWrite (by simp) hfresh₁ hd₁
      exact hd₂.newSession (Or.inr rfl)
  | command s cmd =>
      rcases ite_cases hstep with rfl | ⟨hconnected, hstep⟩
      · exact h
      by_cases howner : ∃ userId nodeId, cmd = .nodeOwner userId nodeId
      · obtain ⟨userId, nodeId, rfl⟩ := howner
        rcases vsHandleNodeOwner_cases hstep with
          rfl | ⟨n, node, owner, hn, hnode, huser, hfind, hpush⟩
        · exact h
        · apply hpush.holdersCanWrite_of_pushes
          exact h.changeOwner fun t ht =>
            hguard hconnected n node owner t hn hnode huser hfind ht
      · have hkinds : .owner ∉ cmd.kinds s ∧ .session ∉ cmd.kinds s := by
          cases cmd with
          | nodeOwner userId nodeId => exact absurd ⟨userId, nodeId, rfl⟩ howner
          | _ => simp [NodeCmd.kinds, leaves]
        exact (heffects.holdersCanWrite hkinds hfresh h).2

/-! ## Runs -/

end VSData

end Verse
