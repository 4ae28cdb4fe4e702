import Verse.Nodes.Node

/-!
# Nodes of the server, and its runs

`vs_sys_nodes.c` and `vs_data.c`.  The server creates the root, the parents of the
avatars, the users and the scenes, and a node for every user.  A client that logs in
gets an avatar node; when it disconnects, its subscriptions are removed from the
whole tree and its avatar is destroyed.

`VSData.step` is what happens next at the server: a command or an acknowledgement of
a connected client is handled, a client logs in, or it disconnects.  Any
acknowledgement may come at any time.
-/

namespace Verse

open Lib

namespace VSData

variable (d : VSData)

/-! ## Disconnecting -/

/-- `vs_tag_free_avatar_reference`. -/
def vsTagFreeAvatarReference (tags : HashTable) (s : ℕ) : Option VSData :=
  tags.foldlM (fun d b => d.freeFollower b.2 s) d

/-- The body of the loop of `vs_tg_free_avatar_reference`. -/
def vsTgFreeAvatarReference (g s : ℕ) : Option VSData := do
  let d' ← d.freeFollower g s
  let tg ← d'.tagGroup g
  let found ← d'.findSub s tg.subs
  match found with
  | none => pure d'
  | some r =>
      let d' := d'.setTagGroup g (some { tg with subs := tg.subs.erase r })
      d'.vsTagFreeAvatarReference tg.tags s

/-- The body of the loop of `vs_layer_free_avatar_reference`. -/
def vsLayerFreeAvatarReference (a s : ℕ) : Option VSData := do
  let d' ← d.freeFollower a s
  d'.vsLayerUnsubscribe a s

/-- The last loop of `vs_free_avatar_reference`.  Unless the node was locked by the
session, it ends at the first subscriber of the session. -/
def freeAvatarSubs (n : ℕ) (node : VSNode) (s : ℕ) (wasLocked : Bool) :
    VSData → List ℕ → Option VSData
  | d, [] => some d
  | d, r :: rest => do
      let sub ← d.sub r
      if sub.session = s then
        let d' ← d.freeSub n r
        if wasLocked then freeAvatarSubs n node s wasLocked d' rest else pure d'
      else
        let d' ← d.pushSome r (if wasLocked then some (d.nodeUnlockCmd node s) else none) n n
        freeAvatarSubs n node s wasLocked d' rest

/-- `vs_free_avatar_reference`. -/
def vsFreeAvatarReference (s : ℕ) : ℕ → VSData → ℕ → Option VSData
  | 0, _, _ => none
  | fuel + 1, d, n => do
      let node ← d.node n
      let d' ← node.tagGroups.foldlM (fun d b => d.vsTgFreeAvatarReference b.2 s) d
      let d' ← node.layers.foldlM (fun d b => d.vsLayerFreeAvatarReference b.2 s) d'
      let d' ← node.childrenLinks.foldlM (fun d l => do
        let link ← d.link l
        let d ← vsFreeAvatarReference s fuel d link.child
        d.freeFollower link.child s) d'
      let node ← d'.node n
      let wasLocked := node.lock == some s
      let node := { node with lock := if wasLocked then none else node.lock }
      freeAvatarSubs n node s wasLocked (d'.setNode n (some node)) node.nodeSubs

/-- `vs_node_free_avatar_reference`. -/
def vsNodeFreeAvatarReference (s : ℕ) : Option VSData :=
  match d.vsNodeFind vrsRootNodeId with
  | none => some d
  | some root => vsFreeAvatarReference s d.next d root

/-- `vs_node_destroy_avatar_node`. -/
def vsNodeDestroyAvatarNode (s : ℕ) : Option VSData :=
  match d.vsNodeFind (d.session s).avatarId with
  | none => some d
  | some avatar => vsNodeDestroyBranch d.next d avatar

/-- The end of a connection. -/
def disconnect (s : ℕ) : Option VSData := do
  let d' ← d.vsNodeFreeAvatarReference s
  let d' ← d'.vsNodeDestroyAvatarNode s
  pure { d' with
    session := Function.update d'.session s { d'.session s with connected := false } }

/-! ## Logging in -/

/-- What `vs_create_client_info_node` writes into tags: the name of the host, the
time, and the name and the version of the client when they are known. -/
structure ClientInfo where
  hostname : List UInt8
  loginTime : List UInt8
  clientName : Option (List UInt8)
  clientVersion : Option (List UInt8)
  deriving DecidableEq, Repr

/-- A tag of a system node, with its value. -/
def createSysTag (g dataType customType : ℕ) (value : List UInt8) : Option VSData := do
  let (d', a) ← d.vsTagCreate g dataType 1 customType
  let tag ← d'.tag a
  pure ((d'.setTag a (some (setTagValue tag value))).setState a .created)

/-- `vs_create_client_info_node`. -/
def vsCreateClientInfoNode (heap avatar : ℕ) (info : ClientInfo) : Option VSData := do
  let (d', created) ← d.vsNodeCreateLinked heap (some avatar) d.superUser vrsReservedNodeId 5
  match created with
  | none => pure d'
  | some n =>
      let d' ← d'.modifyNode n fun node => vsNodeSetPerm node d.otherUsers permNodeRead
      let (d', tg) ← (d'.setState n .created).vsTaggroupCreate n 0
      match tg with
      | none => pure d'
      | some g =>
          let d' ← (d'.setState g .created).createSysTag g valueTypeString8 0 info.hostname
          let d' ← d'.createSysTag g 4 1 info.loginTime
          let d' ← info.clientName.elim (pure d') fun name =>
            d'.createSysTag g valueTypeString8 2 name
          info.clientVersion.elim (pure d') fun version =>
            d'.createSysTag g valueTypeString8 3 version

/-- `vs_create_avatar_node`; there is no avatar when there are too many nodes or the
user is not known. -/
def vsCreateAvatarNode (heap heap' userId : ℕ) (info : ClientInfo) :
    Option (VSData × Option ℕ) :=
  match d.vsUserFind userId with
  | none => some (d, none)
  | some user => do
      let (d', created) ←
        d.vsNodeCreateLinked heap (some d.avatarNode) d.superUser vrsReservedNodeId 4
      match created with
      | none => pure (d', none)
      | some n =>
          let d' ← d'.modifyNode n fun node =>
            vsNodeSetPerm (vsNodeSetPerm node user (permNodeRead + permNodeWrite)) d.otherUsers
              permNodeRead
          let d' ← d'.vsCreateClientInfoNode heap' n info
          let pnode ← d'.node d.avatarNode
          let state := if pnode.nodeSubs = [] then EntityState.created else .creating
          let d'' ← pnode.nodeSubs.foldlM (fun d' r => d'.vsNodeSendCreate r n none d.avatarNode)
            (d'.setState n state)
          pure (d'', some n)

/-- The part of the authentication that concerns nodes. -/
def login (s heap heap' userId : ℕ) (stream : Bool) (info : ClientInfo) : Option VSData := do
  let (d', avatar) ← d.vsCreateAvatarNode heap heap' userId info
  match avatar, d.vsUserFind userId with
  | some n, some user =>
      let node ← d'.node n
      let si : SessionInfo := { user, userId, avatarId := node.id, stream, connected := true }
      pure { d' with session := Function.update d'.session s si }
  | _, _ => pure d'

/-! ## Starting -/

/-- A node of the server that is created with its id and readable by all users. -/
def createSysNode (parent : Option ℕ) (id customType perm : ℕ) : Option (VSData × Option ℕ) := do
  let (d', created) ← d.vsNodeCreateLinked 0 parent d.superUser id customType
  match created with
  | none => pure (d', none)
  | some n =>
      let d' ← (d'.setState n .created).modifyNode n fun node =>
        vsNodeSetPerm node d.otherUsers perm
      pure (d', some n)

/-- `vs_create_user_node`, with the real name of the user. -/
def vsCreateUserNode (parent userId : ℕ) (realname : List UInt8) : Option VSData := do
  let (d', created) ← d.createSysNode (some parent) userId 6 permNodeRead
  match created with
  | none => pure d'
  | some n =>
      let (d', tg) ← d'.vsTaggroupCreate n 0
      match tg with
      | none => pure d'
      | some g => (d'.setState g .created).createSysTag g valueTypeString8 0 realname

/-- The server before `vs_nodes_init`, with its users. -/
def empty (users : List VSUser) (superUser otherUsers : ℕ) : VSData where
  users := users
  superUser := superUser
  otherUsers := otherUsers
  defaultPerm := permNodeRead
  session _ := ⟨0, 0, 0, false, false⟩
  rootNode := 0
  avatarNode := 0
  nodes := []
  lastCommonNodeId := vrsFirstCommonNodeId
  entity _ := none
  node _ := none
  link _ := none
  tagGroup _ := none
  tag _ := none
  layer _ := none
  sub _ := none
  next := 1
  pushed := []

/-- `vs_nodes_init`. -/
def vsNodesInit (users : List VSUser) (superUser otherUsers : ℕ) (realname : ℕ → List UInt8) :
    Option VSData := do
  let (d, root) ← (empty users superUser otherUsers).createSysNode none vrsRootNodeId 0 permNodeRead
  let (d, avatar) ← d.createSysNode root vrsAvatarParentNodeId 1 permNodeRead
  let (d, userParent) ← d.createSysNode root vrsUsersParentNodeId 2 permNodeRead
  let (d, _) ← d.createSysNode root vrsSceneParentNodeId 3 (permNodeRead + permNodeWrite)
  let root ← root
  let avatar ← avatar
  let userParent ← userParent
  users.foldlM (fun d user => d.vsCreateUserNode userParent user.userId (realname user.userId))
    { d with rootNode := root, avatarNode := avatar }

end VSData

/-! ## Runs -/

/-- The commands and acknowledgements that `vs_handle_node_cmd` handles, with what a
client sent in them.  `heap` is the address of a node that is created. -/
inductive NodeCmd where
  | nodeCreate (heap userId parentId nodeId customType : ℕ)
  | nodeCreateAck (nodeId : ℕ)
  | nodeDestroy (nodeId : ℕ)
  | nodeDestroyAck (nodeId : ℕ)
  | nodeSubscribe (nodeId : ℕ)
  | nodeUnsubscribe (nodeId : ℕ)
  | nodeLink (parentId childId : ℕ)
  | nodePerm (userId permissions nodeId : ℕ)
  | nodeOwner (userId nodeId : ℕ)
  | nodeLock (avatarId nodeId : ℕ)
  | nodeUnlock (avatarId nodeId : ℕ)
  | nodePrio (prio nodeId : ℕ)
  | taggroupCreate (nodeId taggroupId type : ℕ)
  | taggroupCreateAck (nodeId taggroupId : ℕ)
  | taggroupDestroy (nodeId taggroupId : ℕ)
  | taggroupDestroyAck (nodeId taggroupId : ℕ)
  | taggroupSubscribe (nodeId taggroupId : ℕ)
  | taggroupUnsubscribe (nodeId taggroupId : ℕ)
  | tagCreate (nodeId taggroupId tagId dataType count type : ℕ)
  | tagCreateAck (nodeId taggroupId tagId : ℕ)
  | tagDestroy (nodeId taggroupId tagId : ℕ)
  | tagDestroyAck (nodeId taggroupId tagId : ℕ)
  | tagSet (nodeId taggroupId tagId dataType count : ℕ) (value : List UInt8)
  | layerCreate (nodeId parentLayerId layerId dataType count type : ℕ)
  | layerCreateAck (nodeId layerId : ℕ)
  | layerDestroy (nodeId layerId : ℕ)
  | layerDestroyAck (nodeId layerId : ℕ)
  | layerSubscribe (nodeId layerId : ℕ)
  | layerUnsubscribe (nodeId layerId : ℕ)
  | layerSetValue (nodeId layerId itemId dataType count : ℕ) (value : List UInt8)
  | layerUnsetValue (nodeId layerId itemId : ℕ)
  deriving DecidableEq, Repr

/-- What happens at the server. -/
inductive NodeEvent where
  | command (s : ℕ) (cmd : NodeCmd)
  | login (s heap heap' userId : ℕ) (stream : Bool) (info : VSData.ClientInfo)
  | disconnect (s : ℕ)
  deriving DecidableEq, Repr

namespace VSData

variable (d : VSData)

/-- `vs_handle_node_cmd`. -/
def vsHandleNodeCmd (s : ℕ) : NodeCmd → Option VSData
  | .nodeCreate heap userId parentId nodeId customType =>
      d.vsHandleNodeCreate s heap userId parentId nodeId customType
  | .nodeCreateAck nodeId => d.vsHandleNodeCreateAck s nodeId
  | .nodeDestroy nodeId => d.vsHandleNodeDestroy s nodeId
  | .nodeDestroyAck nodeId => d.vsHandleNodeDestroyAck s nodeId
  | .nodeSubscribe nodeId => d.vsHandleNodeSubscribe s nodeId
  | .nodeUnsubscribe nodeId => d.vsHandleNodeUnsubscribe s nodeId
  | .nodeLink parentId childId => d.vsHandleLinkChange s parentId childId
  | .nodePerm userId permissions nodeId => d.vsHandleNodePerm s userId permissions nodeId
  | .nodeOwner userId nodeId => d.vsHandleNodeOwner s userId nodeId
  | .nodeLock avatarId nodeId => d.vsHandleNodeLock s avatarId nodeId
  | .nodeUnlock avatarId nodeId => d.vsHandleNodeUnlock s avatarId nodeId
  | .nodePrio prio nodeId => d.vsHandleNodePrio s prio nodeId
  | .taggroupCreate nodeId taggroupId type => d.vsHandleTaggroupCreate s nodeId taggroupId type
  | .taggroupCreateAck nodeId taggroupId => d.vsHandleTaggroupCreateAck s nodeId taggroupId
  | .taggroupDestroy nodeId taggroupId => d.vsHandleTaggroupDestroy s nodeId taggroupId
  | .taggroupDestroyAck nodeId taggroupId => d.vsHandleTaggroupDestroyAck s nodeId taggroupId
  | .taggroupSubscribe nodeId taggroupId => d.vsHandleTaggroupSubscribe s nodeId taggroupId
  | .taggroupUnsubscribe nodeId taggroupId => d.vsHandleTaggroupUnsubscribe s nodeId taggroupId
  | .tagCreate nodeId taggroupId tagId dataType count type =>
      d.vsHandleTagCreate s nodeId taggroupId tagId dataType count type
  | .tagCreateAck nodeId taggroupId tagId => d.vsHandleTagCreateAck s nodeId taggroupId tagId
  | .tagDestroy nodeId taggroupId tagId => d.vsHandleTagDestroy s nodeId taggroupId tagId
  | .tagDestroyAck nodeId taggroupId tagId => d.vsHandleTagDestroyAck s nodeId taggroupId tagId
  | .tagSet nodeId taggroupId tagId dataType count value =>
      d.vsHandleTagSet s nodeId taggroupId tagId dataType count value
  | .layerCreate nodeId parentLayerId layerId dataType count type =>
      d.vsHandleLayerCreate s nodeId parentLayerId layerId dataType count type
  | .layerCreateAck nodeId layerId => d.vsHandleLayerCreateAck s nodeId layerId
  | .layerDestroy nodeId layerId => d.vsHandleLayerDestroy s nodeId layerId
  | .layerDestroyAck nodeId layerId => d.vsHandleLayerDestroyAck s nodeId layerId
  | .layerSubscribe nodeId layerId => d.vsHandleLayerSubscribe s nodeId layerId
  | .layerUnsubscribe nodeId layerId => d.vsHandleLayerUnsubscribe s nodeId layerId
  | .layerSetValue nodeId layerId itemId dataType count value =>
      d.vsHandleLayerSetValue s nodeId layerId itemId dataType count value
  | .layerUnsetValue nodeId layerId itemId => d.vsHandleLayerUnsetValue s nodeId layerId itemId

/-- What happens next.  Commands of a session that is not connected stay in its
queue, and a session that is connected does not log in again. -/
def step : NodeEvent → Option VSData
  | .command s cmd => if (d.session s).connected then d.vsHandleNodeCmd s cmd else some d
  | .login s heap heap' userId stream info =>
      if (d.session s).connected then some d else d.login s heap heap' userId stream info
  | .disconnect s => if (d.session s).connected then d.disconnect s else some d

end VSData

end Verse
