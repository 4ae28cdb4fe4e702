import Verse.Nodes.Layers
import Verse.Nodes.TagGroups

/-!
# Nodes

`vs_node.c`, `vs_link.c` and `vs_node_access.c`.  The nodes form a tree, in which
clients may move the nodes they can write.  A client that is subscribed to a node
follows its child nodes, tag groups and layers.

The functions that go down or up the tree have a bound on the depth; there are
never more nodes than addresses in use, so that the bound is only reached on a
cycle, where the source does not return.
-/

namespace Verse

open Lib

namespace VSData

variable (d : VSData)

/-! ## Creating nodes -/

/-- The search for a free id in `vs_node_create_linked`.  The key it looks for is
not the id but the first four bytes of the pointer `node`, that is, the low half of
the address `heap` of the new node; when there is a node with that id the loop does
not end. -/
def freeNodeId (heap : ℕ) : Option ℕ :=
  if (d.nodes.findItem (heap % 2 ^ 32)).isSome then none
  else some ((d.lastCommonNodeId + 1) % 2 ^ 32)

/-- The id of a new node. -/
def newNodeId (heap nodeId : ℕ) : Option ℕ :=
  if nodeId = vrsReservedNodeId then d.freeNodeId heap else some nodeId

/-- `vs_node_init`, with the members that are set right after it. -/
def vsNodeInit (id customType owner : ℕ) : VSNode where
  id := id
  customType := customType
  owner := owner
  permissions := []
  parentLink := none
  childrenLinks := []
  tagGroups := []
  lastTgId := 0
  layers := []
  firstFreeLayerId := 0
  nodeSubs := []
  lock := none
  level := 0

/-- The new node at the address `d.next`, and `vs_link_create`: the link to its parent
stands at the address behind it. -/
def createLinked (parent : Option ℕ) (owner id customType : ℕ) : Option VSData := do
  let n := d.next
  let l := d.next + 1
  let node := vsNodeInit id customType owner
  let d' := ({ d with next := d.next + 2 }).setEntity n (some ⟨.reserved, []⟩)
  match parent with
  | none => pure (d'.setNode n (some node))
  | some p =>
      let pnode ← d.node p
      let d' := d'.setLink l (some ⟨p, n⟩)
      let d' := d'.setNode p (some { pnode with childrenLinks := pnode.childrenLinks ++ [l] })
      pure (d'.setNode n (some { node with parentLink := some l, level := pnode.level + 1 }))

/-- `vs_node_create_linked`, with the address of the new node.  No node is created
when there are too many. -/
def vsNodeCreateLinked (heap : ℕ) (parent : Option ℕ) (owner nodeId customType : ℕ) :
    Option (VSData × Option ℕ) :=
  if d.nodes.length < vrsMaxCommonNodeCount then do
    let id ← d.newNodeId heap nodeId
    let last := if nodeId = vrsReservedNodeId then id else d.lastCommonNodeId
    let d' ← d.createLinked parent owner id customType
    pure ({ d' with nodes := d'.nodes ++ [(id, d.next)], lastCommonNodeId := last }, some d.next)
  else some (d, none)

theorem createLinked_eq {d d' : VSData} {parent : Option ℕ} {owner id customType : ℕ}
    (h : d.createLinked parent owner id customType = some d') :
    (parent = none ∧ d' = { d with
      next := d.next + 2
      entity := Function.update d.entity d.next (some ⟨.reserved, []⟩)
      node := Function.update d.node d.next (some (vsNodeInit id customType owner)) }) ∨
    ∃ p pnode, parent = some p ∧ d.node p = some pnode ∧ d' = { d with
      next := d.next + 2
      entity := Function.update d.entity d.next (some ⟨.reserved, []⟩)
      link := Function.update d.link (d.next + 1) (some ⟨p, d.next⟩)
      node := Function.update (Function.update d.node p
        (some { pnode with childrenLinks := pnode.childrenLinks ++ [d.next + 1] })) d.next
        (some { vsNodeInit id customType owner with
          parentLink := some (d.next + 1), level := pnode.level + 1 }) } := by
  unfold createLinked at h
  cases parent with
  | none => exact Or.inl ⟨rfl, (Option.some.inj h).symm⟩
  | some p =>
      obtain ⟨pnode, hpnode, h⟩ := Option.bind_eq_some_iff.mp h
      exact Or.inr ⟨p, pnode, rfl, hpnode, (Option.some.inj h).symm⟩

theorem vsNodeCreateLinked_eq {d d' : VSData} {heap owner nodeId customType : ℕ}
    {parent created : Option ℕ}
    (h : d.vsNodeCreateLinked heap parent owner nodeId customType = some (d', created)) :
    (d' = d ∧ created = none) ∨
    ∃ id last d₁, d.newNodeId heap nodeId = some id ∧
      last = (if nodeId = vrsReservedNodeId then id else d.lastCommonNodeId) ∧
      d.createLinked parent owner id customType = some d₁ ∧ created = some d.next ∧
      d' = { d₁ with nodes := d₁.nodes ++ [(id, d.next)], lastCommonNodeId := last } := by
  unfold vsNodeCreateLinked at h
  split at h
  · obtain ⟨id, hid, h⟩ := Option.bind_eq_some_iff.mp h
    obtain ⟨d₁, hd₁, h⟩ := Option.bind_eq_some_iff.mp h
    obtain ⟨rfl, rfl⟩ := Prod.mk.inj (Option.some.inj h)
    exact Or.inr ⟨id, _, d₁, hid, rfl, hd₁, rfl, rfl⟩
  · obtain ⟨rfl, rfl⟩ := Prod.mk.inj (Option.some.inj h)
    exact Or.inl ⟨rfl, rfl⟩

/-- `vs_node_send_create`; `p` is the node of the subscriber. -/
def vsNodeSendCreate (r n : ℕ) (avatar : Option ℕ) (p : ℕ) : Option VSData := do
  let node ← d.node n
  let parent := match avatar with
    | some avatar => some avatar
    | none => d.parentNode node
  let cmd := do
    let parent ← parent
    let pnode ← d.node parent
    some (.nodeCreate node.id pnode.id (d.userId node.owner) node.customType)
  d.sendCreate EntityState.isCreated r n p cmd

/-- `vs_node_send_data`. -/
def vsNodeSendData (n r : ℕ) : Option VSData := do
  let node ← d.node n
  let d' ← node.childrenLinks.foldlM (fun d l => do
    let link ← d.link l
    d.vsNodeSendCreate r link.child none n) d
  let d' ← node.tagGroups.foldlM (fun d b => d.vsTaggroupSendCreate r n b.2) d'
  node.layers.foldlM (fun d b => d.vsLayerSendCreate r n b.2) d'

/-- `vs_node_new`. -/
def vsNodeNew (s heap type : ℕ) : Option VSData :=
  match d.vsNodeFind (d.session s).avatarId with
  | none => some d
  | some p => do
      let (d', created) ←
        d.vsNodeCreateLinked heap (some p) (d.session s).user vrsReservedNodeId type
      match created with
      | none => pure d'
      | some n =>
          let d' ← (d'.setState n .creating).modifyNode n fun node =>
            { node with permissions := [⟨d.otherUsers, d.defaultPerm⟩] }
          let pnode ← d'.node p
          pnode.nodeSubs.foldlM (fun d r => d.vsNodeSendCreate r n (some p) p) d'

/-- `vs_handle_node_create`. -/
def vsHandleNodeCreate (s heap userId parentId nodeId customType : ℕ) : Option VSData :=
  if nodeId = vrsReservedNodeId ∧ parentId = (d.session s).avatarId ∧
      userId = (d.session s).userId ∧ 32 ≤ customType then
    d.vsNodeNew s heap customType
  else some d

/-- `vs_handle_node_create_ack`. -/
def vsHandleNodeCreateAck (s nodeId : ℕ) : Option VSData :=
  d.withNode nodeId fun n node => d.createAck .node n n s (.nodeDestroy node.id) none

/-! ## Destroying nodes -/

/-- Removes the link to a node from its parent, and frees it. -/
def unlink (node : VSNode) : Option VSData :=
  match node.parentLink with
  | none => some d
  | some l => do
      let link ← d.link l
      let d' ← d.modifyNode link.parent fun p => { p with childrenLinks := p.childrenLinks.erase l }
      pure (d'.setLink l none)

/-- `vs_node_destroy`.  The subscribers of the node are not freed, but they are in no
list any more. -/
def vsNodeDestroy (n : ℕ) : Option VSData := do
  let node ← d.node n
  let e ← d.entity n
  if e.folls = [] ∧ node.childrenLinks = [] then
    let d' ← d.unlink node
    let d' := (d'.vsNodeTaggroupsDestroy node).vsNodeLayersDestroy node
    let d' := (d'.setNode n none).setEntity n none
    pure { d' with nodes := d'.nodes.removeItem node.id }
  else pure d

/-- `vs_node_send_destroy`: not while a child node is not being destroyed. -/
def vsNodeSendDestroy (n : ℕ) : Option VSData := do
  let node ← d.node n
  let children ← node.childrenLinks.mapM fun l => (d.link l).map VSLink.child
  if children.any fun c => d.isCreated c then pure d
  else d.sendDestroy n n (.nodeDestroy node.id)

/-- `vs_node_destroy_branch` with `send` set. -/
def vsNodeDestroyBranch : ℕ → VSData → ℕ → Option VSData
  | 0, _, _ => none
  | fuel + 1, d, n => do
      let node ← d.node n
      let d' ← node.childrenLinks.foldlM (fun d l => do
        let link ← d.link l
        vsNodeDestroyBranch fuel d link.child) d
      let e ← d'.entity n
      if e.folls = [] then d'.vsNodeDestroy n else d'.vsNodeSendDestroy n

/-- `vs_handle_node_destroy_ack`. -/
def vsHandleNodeDestroyAck (s nodeId : ℕ) : Option VSData :=
  d.withNode nodeId fun n _ => d.destroyAck .node n s fun d => d.vsNodeDestroy n

/-- `vs_handle_node_destroy`. -/
def vsHandleNodeDestroy (s nodeId : ℕ) : Option VSData :=
  d.withNode nodeId fun n node =>
    if d.isCreated n ∧ (d.session s).user = node.owner then d.vsNodeSendDestroy n else some d

/-! ## Subscribing -/

/-- The command `vs_node_send_lock` pushes. -/
def nodeLockCmd (node : VSNode) (s : ℕ) : OutCmd := .nodeLock node.id (d.session s).avatarId

/-- The command `vs_node_send_unlock` pushes. -/
def nodeUnlockCmd (node : VSNode) (s : ℕ) : OutCmd := .nodeUnlock node.id (d.session s).avatarId

/-- `vs_node_subscribe`.  The client is a subscriber even when it cannot read the
node; it is sent the permissions then, but no data. -/
def vsNodeSubscribe (s n : ℕ) : Option VSData := do
  let node ← d.node n
  let r := d.next
  let d' := ({ d with next := d.next + 1 }).setSub r (some ⟨s, defaultSubscriberPrio⟩)
  let d' := d'.setNode n (some { node with nodeSubs := node.nodeSubs ++ [r] })
  let d' ← d'.pushSome r (node.lock.map (d.nodeLockCmd node)) n n
  let d' ← node.permissions.foldlM (fun d perm =>
    d.push r (.nodePerm node.id (d.userId perm.user) perm.permissions) n n) d'
  if d.vsNodeCanRead s node then d'.vsNodeSendData n r else pure d'

/-- `vs_handle_node_subscribe`. -/
def vsHandleNodeSubscribe (s nodeId : ℕ) : Option VSData :=
  d.withNode nodeId fun n node =>
    if d.isCreated n then do
      let found ← d.findSub s node.nodeSubs
      if found.isSome then pure d else d.vsNodeSubscribe s n
    else some d

/-- `v_list_free_item` of a subscriber of a node. -/
def freeSub (n r : ℕ) : Option VSData := do
  let _ ← d.sub r
  let d' ← d.modifyNode n fun node => { node with nodeSubs := node.nodeSubs.erase r }
  pure (d'.setSub r none)

/-- The followers of the node of a command are left alone. -/
def freeFollowerBelow (below : Bool) (n s : ℕ) : Option VSData :=
  if below then d.freeFollower n s else some d

/-- `vs_node_unsubscribe`, which goes down to the child nodes the client is
subscribed to; `below` says that this is not the node of the command. -/
def vsNodeUnsubscribe : ℕ → VSData → ℕ → ℕ → Bool → Option VSData
  | 0, _, _, _, _ => none
  | fuel + 1, d, n, r, below => do
      let node ← d.node n
      let sub ← d.sub r
      let d' ← node.childrenLinks.foldlM (fun d l => do
        let link ← d.link l
        let child ← d.node link.child
        let found ← d.findSub sub.session child.nodeSubs
        match found with
        | none => pure d
        | some r' => vsNodeUnsubscribe fuel d link.child r' true) d
      let d' ← node.tagGroups.foldlM (fun d b => do
        let d ← d.vsTaggroupUnsubscribe b.2 sub.session
        d.freeFollower b.2 sub.session) d'
      let d' ← node.layers.foldlM (fun d b => do
        let d ← d.vsLayerUnsubscribe b.2 sub.session
        d.freeFollower b.2 sub.session) d'
      let d' ← d'.freeFollowerBelow below n sub.session
      d'.freeSub n r

/-- `vs_handle_node_unsubscribe`. -/
def vsHandleNodeUnsubscribe (s nodeId : ℕ) : Option VSData :=
  d.withNode nodeId fun n node =>
    if d.isCreated n then do
      let found ← d.findSub s node.nodeSubs
      match found with
      | none => pure d
      | some r => vsNodeUnsubscribe d.next d n r false
    else some d

/-- Sets the priority of a subscriber. -/
def setSubPrio (r prio : ℕ) : VSData :=
  d.setSub r ((d.sub r).map fun sub => { sub with prio })

/-- `vs_node_prio`. -/
def vsNodePrio (s prio : ℕ) : ℕ → VSData → ℕ → Option VSData
  | 0, _, _ => none
  | fuel + 1, d, n => do
      let node ← d.node n
      let found ← d.findSub s node.nodeSubs
      match found with
      | none => pure d
      | some r =>
          node.childrenLinks.foldlM (fun d l => do
            let link ← d.link l
            vsNodePrio s prio fuel d link.child) (d.setSubPrio r prio)

/-- `vs_handle_node_prio`. -/
def vsHandleNodePrio (s prio nodeId : ℕ) : Option VSData :=
  d.withNode nodeId fun n _ =>
    if d.isCreated n then vsNodePrio s prio d.next d n else some d

/-! ## Moving nodes -/

/-- The loop of `vs_link_test_nodes` from a node up to the root: is the child not
met? -/
def climbAvoids (child : ℕ) : ℕ → ℕ → Option Bool
  | 0, _ => none
  | fuel + 1, n =>
      if n = child then some false
      else
        match d.node n with
        | none => none
        | some node =>
            match node.parentLink with
            | none => some true
            | some l =>
                match d.link l with
                | none => none
                | some link => climbAvoids child fuel link.parent

/-- `vs_link_test_nodes`. -/
def vsLinkTestNodes (parent child : ℕ) : Option Bool := do
  let pnode ← d.node parent
  let cnode ← d.node child
  if pnode.level < cnode.level then pure true else d.climbAvoids child d.next parent

/-- `vs_link_update_child`.  The loop is over the children of the parent. -/
def vsLinkUpdateChild : ℕ → VSData → ℕ → ℕ → Option VSData
  | 0, _, _, _ => none
  | fuel + 1, d, parent, child => do
      let pnode ← d.node parent
      let d' ← d.modifyNode child fun cnode => { cnode with level := pnode.level + 1 }
      let pnode ← d'.node parent
      pnode.childrenLinks.foldlM (fun d l => do
        let link ← d.link l
        vsLinkUpdateChild fuel d child link.child) d'

/-- The tests of `vs_handle_link_change`: the addresses of the link, the old parent
and the new parent of the child when the node may be moved. -/
def linkChangeTests (s child parentId : ℕ) : Option (Option (ℕ × ℕ × ℕ)) := do
  let cnode ← d.node child
  if d.isCreated child ∧ d.vsNodeCanWrite s cnode then
    let l ← cnode.parentLink
    let link ← d.link l
    let old ← d.node link.parent
    if d.vsNodeCanWrite s old then
      match d.vsNodeFind parentId with
      | none => pure none
      | some parent =>
          let pnode ← d.node parent
          if d.isCreated parent ∧ parent ≠ link.parent ∧ d.vsNodeCanWrite s pnode then
            let avoids ← d.vsLinkTestNodes parent child
            if avoids then pure (some (l, link.parent, parent)) else pure none
          else pure none
    else pure none
  else pure none

/-- The link is moved from the old parent to the new one. -/
def moveLink (l old parent child : ℕ) : Option VSData := do
  let d' ← d.modifyNode old fun node => { node with childrenLinks := node.childrenLinks.erase l }
  let d' ← d'.modifyNode parent fun node => { node with childrenLinks := node.childrenLinks ++ [l] }
  let d' := d'.setLink l (some ⟨parent, child⟩)
  vsLinkUpdateChild (2 * d.next) d' parent child

/-- The end of `vs_handle_link_change`: subscribers of the old parent and followers
of the child are sent `Node_Link`, and other subscribers of the new parent
`Node_Create`.  The sessions with `tmp` set are `told`. -/
def sendLinkChange (old parent child : ℕ) : Option VSData := do
  let onode ← d.node old
  let pnode ← d.node parent
  let cnode ← d.node child
  let e ← d.entity child
  let cmd := OutCmd.nodeLink pnode.id cnode.id
  let (d', told) ← onode.nodeSubs.foldlM (fun (x : VSData × List ℕ) r => do
    let sub ← x.1.sub r
    if x.1.vsNodeCanRead sub.session onode then
      let d ← x.1.push r cmd child child
      pure (d, sub.session :: x.2)
    else pure x) (d, [])
  let (d', told) ← e.folls.foldlM (fun (x : VSData × List ℕ) f => do
    let sub ← x.1.sub f.nodeSub
    if sub.session ∈ x.2 then pure x
    else
      let d ← x.1.push f.nodeSub cmd child child
      pure (d, sub.session :: x.2)) (d', told)
  pnode.nodeSubs.foldlM (fun d r => do
    let sub ← d.sub r
    if sub.session ∉ told ∧ d.vsNodeCanRead sub.session pnode then
      d.vsNodeSendCreate r child none parent
    else pure d) d'

/-- `vs_handle_link_change`. -/
def vsHandleLinkChange (s parentId childId : ℕ) : Option VSData :=
  match d.vsNodeFind childId with
  | none => some d
  | some child => do
      let tests ← d.linkChangeTests s child parentId
      match tests with
      | none => pure d
      | some (l, old, parent) =>
          let d' ← d.moveLink l old parent child
          d'.sendLinkChange old parent child

/-! ## Permissions, owners and locks -/

/-- `vs_node_get_perm`. -/
def vsNodeGetPerm (node : VSNode) (user : ℕ) : ℕ :=
  ((node.permissions.find? fun perm =>
    perm.user == user || d.userId perm.user == vrsOtherUsersUid).map
      VSNodePermission.permissions).getD 0

/-- `vs_node_set_perm`. -/
def vsNodeSetPerm (node : VSNode) (user permission : ℕ) : VSNode :=
  let permissions :=
    if node.permissions.any fun perm => perm.user == user then
      if permission = 0 then node.permissions.eraseP fun perm => perm.user == user
      else node.permissions.replaceF fun perm =>
        if perm.user = user then some { perm with permissions := permission } else none
    else node.permissions ++ [⟨user, permission⟩]
  { node with permissions }

/-- `vs_handle_node_unlock`. -/
def vsHandleNodeUnlock (s avatarId nodeId : ℕ) : Option VSData :=
  d.withNode nodeId fun n node =>
    if avatarId = (d.session s).avatarId ∧ d.vsNodeCanWrite s node ∧ node.lock = some s then
      node.nodeSubs.foldlM (fun d r => d.push r (d.nodeUnlockCmd node s) n n)
        (d.setNode n (some { node with lock := none }))
    else some d

/-- `vs_handle_node_lock`. -/
def vsHandleNodeLock (s avatarId nodeId : ℕ) : Option VSData :=
  d.withNode nodeId fun n node =>
    if avatarId = (d.session s).avatarId ∧ d.vsNodeCanWrite s node ∧ node.lock = none then
      node.nodeSubs.foldlM (fun d r => d.push r (d.nodeLockCmd node s) n n)
        (d.setNode n (some { node with lock := some s }))
    else some d

/-- `vs_handle_node_owner`. -/
def vsHandleNodeOwner (s userId nodeId : ℕ) : Option VSData :=
  d.withNode nodeId fun n node =>
    if (d.session s).user = node.owner then
      match d.vsUserFind userId with
      | none => some d
      | some owner =>
          if d.users[owner]?.all fun user => user.fakeUser then some d
          else do
            let e ← d.entity n
            e.folls.foldlM (fun d f => d.push f.nodeSub (.nodeOwner node.id (d.userId owner)) n n)
              (d.setNode n (some { node with owner }))
    else some d

/-- The node after `vs_handle_node_perm` changed its permissions: it is unlocked when
the client that locked it cannot write it any more. -/
def permittedNode (node : VSNode) (user permissions : ℕ) : VSNode :=
  let node := vsNodeSetPerm node user permissions
  if node.lock.any fun locker => !d.vsNodeCanWrite locker node then { node with lock := none }
  else node

/-- `vs_handle_node_perm`. -/
def vsHandleNodePerm (s userId permissions nodeId : ℕ) : Option VSData :=
  d.withNode nodeId fun n node =>
    match d.vsUserFind userId with
    | none => some d
    | some user =>
        if (permissions &&& permNodeRead ≠ 0 ∨ permissions &&& permNodeWrite ≠ 0 ∨
            permissions = 0) ∧ d.isCreated n ∧ node.owner = (d.session s).user then
          let node' := d.permittedNode node user permissions
          let granted := (d.vsNodeGetPerm node user) &&& permNodeRead = 0 ∧
            permissions &&& permNodeRead ≠ 0
          node.nodeSubs.foldlM (fun d r => do
            let d' ← d.push r (.nodePerm node.id (d.userId user) permissions) n n
            let unlocked := if node'.lock = none then node.lock else none
            let d' ← d'.pushSome r (unlocked.map (d.nodeUnlockCmd node)) n n
            let sub ← d'.sub r
            if ((d'.session sub.session).user = user ∨ d'.userId user = vrsOtherUsersUid) ∧
                granted then
              d'.vsNodeSendData n r
            else pure d') (d.setNode n (some node'))
        else some d

end VSData

end Verse
