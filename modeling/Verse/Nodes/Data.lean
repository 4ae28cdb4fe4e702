import Verse.Nodes.Entity
import Verse.Lib.Run

/-!
# The data of the server

`vs_node.h`, `vs_link.h`, `vs_taggroup.h`, `vs_tag.h`, `vs_layer.h`, and the
functions all handlers use.  Nodes, links, tag groups, tags, layers and subscribers
are allocated one by one and point at each other; every one of them has its address
and a heap for its kind, in which `none` is memory that is not allocated.  Addresses
are not used again after they are freed.  What the four kinds of entities have in
common is kept in a heap of its own, `entity`.

A hashed list is the list of its buckets, each with the key its item was added with
and the address of the item: the functions of `v_list.c` take the first bucket with
the key they look for, in the order in which the items were added.

A session is its place among the sessions of the server, which are allocated once.
Users are allocated once, too.  Commands that are sent are only ever pushed to the
outgoing queue of a session, without a limit on its size; `pushed` are all of them.
Mutexes, versions and the flag of nodes to be saved are left out.  A function fails
where the source reads memory that is not allocated or does not return.
-/

namespace Verse

open Lib

/-! ## Constants -/

def vrsReservedNodeId : ℕ := 0xFFFFFFFF
def vrsRootNodeId : ℕ := 0
def vrsAvatarParentNodeId : ℕ := 1
def vrsUsersParentNodeId : ℕ := 2
def vrsSceneParentNodeId : ℕ := 3
def vrsFirstCommonNodeId : ℕ := 65536
def vrsLastCommonNodeId : ℕ := 4294967294
def vrsMaxCommonNodeCount : ℕ := 4294901760
def vrsOtherUsersUid : ℕ := 65535

/-- The ids that are assigned to tag groups, tags and layers, and the one that
stands for a new one. -/
def firstEntityId : ℕ := 0
def lastEntityId : ℕ := 65534
def reservedEntityId : ℕ := 0xFFFF
def maxEntityCount : ℕ := 65534

def permNodeRead : ℕ := 1
def permNodeWrite : ℕ := 2

def defaultSubscriberPrio : ℕ := 128

/-! ## What is stored -/

structure VSUser where
  userId : ℕ
  fakeUser : Bool
  deriving DecidableEq, Repr

/-- The permissions of the user at a place in the list of users. -/
structure VSNodePermission where
  user : ℕ
  permissions : ℕ
  deriving DecidableEq, Repr

structure VSNodeSubscriber where
  session : ℕ
  prio : ℕ
  deriving DecidableEq, Repr

structure VSLink where
  parent : ℕ
  child : ℕ
  deriving DecidableEq, Repr

/-- A hashed list: keys and addresses. -/
abbrev HashTable := List (ℕ × ℕ)

/-- `v_hash_array_find_item`. -/
def HashTable.findItem (t : HashTable) (key : ℕ) : Option ℕ :=
  (t.find? fun b => b.1 == key).map Prod.snd

/-- `v_hash_array_remove_item`. -/
def HashTable.removeItem (t : HashTable) (key : ℕ) : HashTable := t.eraseP fun b => b.1 == key

/-- The members of `VSNode` that are not in `VSEntity`. -/
structure VSNode where
  id : ℕ
  customType : ℕ
  owner : ℕ
  permissions : List VSNodePermission
  parentLink : Option ℕ
  childrenLinks : List ℕ
  tagGroups : HashTable
  lastTgId : ℕ
  layers : HashTable
  firstFreeLayerId : ℕ
  nodeSubs : List ℕ
  lock : Option ℕ
  level : ℕ
  deriving DecidableEq, Repr

/-- `subs` are the subscribers of the node that `tg_subs` points at. -/
structure VSTagGroup where
  id : ℕ
  customType : ℕ
  tags : HashTable
  lastTagId : ℕ
  subs : List ℕ
  deriving DecidableEq, Repr

/-- `size` is the size of the memory `value` points at. -/
structure VSTag where
  id : ℕ
  customType : ℕ
  dataType : ℕ
  count : ℕ
  initialized : Bool
  value : Option (List UInt8)
  size : ℕ
  deriving DecidableEq, Repr

structure VSLayer where
  id : ℕ
  customType : ℕ
  dataType : ℕ
  numVecComp : ℕ
  parent : Option ℕ
  childLayers : List ℕ
  values : List (ℕ × List UInt8)
  subs : List ℕ
  deriving DecidableEq, Repr

/-- What the handlers read of a session; `stream` says that it uses TCP or
WebSocket for node commands, and `connected` that its commands are handled. -/
structure SessionInfo where
  user : ℕ
  userId : ℕ
  avatarId : ℕ
  stream : Bool
  connected : Bool
  deriving DecidableEq, Repr

/-! ## What is sent -/

/-- The commands the server sends, with their parameters. -/
inductive OutCmd where
  | nodeCreate (nodeId parentId userId customType : ℕ)
  | nodeDestroy (nodeId : ℕ)
  | nodeLink (parentId childId : ℕ)
  | nodePerm (nodeId userId permissions : ℕ)
  | nodeOwner (nodeId userId : ℕ)
  | nodeLock (nodeId avatarId : ℕ)
  | nodeUnlock (nodeId avatarId : ℕ)
  | taggroupCreate (nodeId taggroupId customType : ℕ)
  | taggroupDestroy (nodeId taggroupId : ℕ)
  | tagCreate (nodeId taggroupId tagId dataType count customType : ℕ)
  | tagDestroy (nodeId taggroupId tagId : ℕ)
  | tagSet (nodeId taggroupId tagId dataType count : ℕ) (value : Option (List UInt8))
  | layerCreate (nodeId parentId layerId dataType count customType : ℕ)
  | layerDestroy (nodeId layerId : ℕ)
  | layerSetValue (nodeId layerId itemId dataType count : ℕ) (value : List UInt8)
  | layerUnsetValue (nodeId layerId itemId : ℕ)
  deriving DecidableEq, Repr

/-- The command carries the content of a node. -/
def OutCmd.isContent : OutCmd → Bool
  | .nodeCreate .. | .taggroupCreate .. | .tagCreate .. | .tagSet .. | .layerCreate .. => true
  | .layerSetValue .. | .layerUnsetValue .. => true
  | _ => false

/-- One of the commands that carry the value of a tag. -/
def OutCmd.isTagSet : OutCmd → Bool
  | .tagSet .. => true
  | _ => false

theorem OutCmd.not_isTagSet_of_not_isContent {cmd : OutCmd} (h : cmd.isContent = false) :
    cmd.isTagSet = false := by
  cases cmd <;> first | rfl | cases h

/-- A command that is pushed to the outgoing queue of a session.  The last two
members are not in the source: the entity the command is about, and the node to
whose content it belongs, which for `Node_Create` is the node whose subscribers are
told about the child. -/
structure Push where
  session : ℕ
  prio : ℕ
  cmd : OutCmd
  entity : ℕ
  node : ℕ
  deriving DecidableEq, Repr

/-! ## The state -/

/-- `VS_CTX`, as far as nodes are concerned.  `otherUsers` and `superUser` are places
in the list of users, `rootNode` and `avatarNode` the addresses of `data.root_node`
and `data.avatar_node`, and `next` is the next address that is not used. -/
structure VSData where
  users : List VSUser
  superUser : ℕ
  otherUsers : ℕ
  defaultPerm : ℕ
  session : ℕ → SessionInfo
  rootNode : ℕ
  avatarNode : ℕ
  nodes : HashTable
  lastCommonNodeId : ℕ
  entity : ℕ → Option VSEntity
  node : ℕ → Option VSNode
  link : ℕ → Option VSLink
  tagGroup : ℕ → Option VSTagGroup
  tag : ℕ → Option VSTag
  layer : ℕ → Option VSLayer
  sub : ℕ → Option VSNodeSubscriber
  next : ℕ
  pushed : List Push

namespace VSData

variable (d : VSData)

/-- The session of a subscriber. -/
def subSession (r : ℕ) : Option ℕ := (d.sub r).map VSNodeSubscriber.session

def setEntity (a : ℕ) (e : Option VSEntity) : VSData :=
  { d with entity := Function.update d.entity a e }

def setNode (a : ℕ) (node : Option VSNode) : VSData :=
  { d with node := Function.update d.node a node }

def setLink (a : ℕ) (link : Option VSLink) : VSData :=
  { d with link := Function.update d.link a link }

def setTagGroup (a : ℕ) (tg : Option VSTagGroup) : VSData :=
  { d with tagGroup := Function.update d.tagGroup a tg }

def setTag (a : ℕ) (tag : Option VSTag) : VSData :=
  { d with tag := Function.update d.tag a tag }

def setLayer (a : ℕ) (layer : Option VSLayer) : VSData :=
  { d with layer := Function.update d.layer a layer }

def setSub (a : ℕ) (sub : Option VSNodeSubscriber) : VSData :=
  { d with sub := Function.update d.sub a sub }

/-- Changes the node at an address. -/
def modifyNode (a : ℕ) (f : VSNode → VSNode) : Option VSData :=
  (d.node a).map fun node => d.setNode a (some (f node))

/-- `v_out_queue_push_tail` to the queue of the session of a subscriber. -/
def push (r : ℕ) (cmd : OutCmd) (entity node : ℕ) : Option VSData :=
  (d.sub r).map fun sub =>
    { d with pushed := d.pushed ++ [⟨sub.session, sub.prio, cmd, entity, node⟩] }

/-- Pushes a command if there is one. -/
def pushSome (r : ℕ) (cmd : Option OutCmd) (entity node : ℕ) : Option VSData :=
  match cmd with
  | none => some d
  | some cmd => d.push r cmd entity node

/-- Frees the first follower of a session. -/
def freeFollower (a s : ℕ) : Option VSData := do
  let e ← d.entity a
  let folls ← Verse.freeFollower d.subSession s e.folls
  pure (d.setEntity a (some { e with folls }))

/-- `vs_node_get_subscriber`, and the other loops that look for the subscriber of a
session. -/
def findSub (s : ℕ) : List ℕ → Option (Option ℕ)
  | [] => some none
  | r :: rest =>
      match d.subSession r with
      | none => none
      | some t => if t = s then some (some r) else findSub s rest

/-! ## Users and permissions -/

/-- `user->user_id`. -/
def userId (user : ℕ) : ℕ := (d.users[user]?.map VSUser.userId).getD 0

/-- `vs_user_find`. -/
def vsUserFind (userId : ℕ) : Option ℕ := d.users.findIdx? fun user => user.userId == userId

/-- The loop of `vs_node_can_write` and `vs_node_can_read` over the permissions. -/
def hasPerm (bit user : ℕ) (permissions : List VSNodePermission) : Bool :=
  permissions.any fun perm =>
    (perm.user == user || d.userId perm.user == vrsOtherUsersUid) && perm.permissions &&& bit != 0

/-- `vs_node_can_write`. -/
def vsNodeCanWrite (s : ℕ) (node : VSNode) : Bool :=
  if node.lock ≠ none ∧ node.lock ≠ some s then false
  else
    node.owner == (d.session s).user || d.hasPerm permNodeWrite (d.session s).user node.permissions

/-- `vs_node_can_read`. -/
def vsNodeCanRead (s : ℕ) (node : VSNode) : Bool :=
  node.owner == (d.session s).user || d.hasPerm permNodeRead (d.session s).user node.permissions

/-- `vs_node_find`. -/
def vsNodeFind (nodeId : ℕ) : Option ℕ := d.nodes.findItem nodeId

/-- `node->parent_link->parent`. -/
def parentNode (node : VSNode) : Option ℕ := do
  let l ← node.parentLink
  let link ← d.link l
  pure link.parent

/-- What a handler does with the node a command names; without it, nothing. -/
def withNode (nodeId : ℕ) (f : ℕ → VSNode → Option VSData) : Option VSData :=
  match d.vsNodeFind nodeId with
  | none => some d
  | some n => (d.node n).bind (f n)

/-! ## Entities -/

/-- `vs_node_is_created`, and the same test of a tag group or a layer. -/
def isCreated (a : ℕ) : Bool := (d.entity a).any fun e => e.state.isCreated

def setState (a : ℕ) (state : EntityState) : VSData :=
  d.setEntity a ((d.entity a).map fun e => { e with state })

/-- The `*_send_create` functions.  `known` says in which state a follower of the
session is enough not to send the command. -/
def sendCreate (known : EntityState → Bool) (r a n : ℕ) (cmd : Option OutCmd) :
    Option VSData := do
  let sub ← d.sub r
  let e ← d.entity a
  if e.state.isCreated then
    let found ← findFollower d.subSession sub.session known e.folls
    if found then pure d
    else
      let cmd ← cmd
      let d' ← d.push r cmd a n
      pure (d'.setEntity a (some (e.addFollower r)))
  else pure d

/-- The `*_send_destroy` functions. -/
def sendDestroy (a n : ℕ) (cmd : OutCmd) : Option VSData := do
  let e ← d.entity a
  let told := e.folls.filter fun f => f.state == .created
  let d' ← told.foldlM (fun d f => d.push f.nodeSub cmd a n) d
  pure (d'.setEntity a (some e.sendDestroy))

/-- The `vs_handle_*_create_ack` functions, once the entity is found.  When the
entity is being deleted, the client is sent the command that destroys it; before
that, a tag whose value is set sends it with `setCmd`. -/
def createAck (kind : EntityKind) (a n s : ℕ) (destroyCmd : OutCmd) (setCmd : Option OutCmd) :
    Option VSData := do
  let e ← d.entity a
  let e' ← e.createAck d.subSession s kind
  let own := e.folls.filter fun f => f.ofSession d.subSession s
  let d' ← own.foldlM (fun d f => do
    let d ← d.pushSome f.nodeSub (if f.state = .created then none else setCmd) a n
    let told := e.state = .deleting ∧ (kind = .node → f.state = .creating)
    d.pushSome f.nodeSub (if told then some destroyCmd else none) a n) d
  pure (d'.setEntity a (some e'))

/-- The `vs_handle_*_destroy_ack` functions, once the entity is found; `destroy`
removes an entity that has no follower left. -/
def destroyAck (kind : EntityKind) (a s : ℕ) (destroy : VSData → Option VSData) :
    Option VSData := do
  let e ← d.entity a
  let e' ← e.destroyAck d.subSession s kind
  let d' := d.setEntity a (some e')
  if e'.folls = [] then destroy d' else pure d'

end VSData

/-- The search for a free id of a tag group, a tag or a layer: `id` is counted up
until it is not used.  The number of the ids bounds the number of its steps. -/
def freeEntityId (t : HashTable) : ℕ → ℕ → Option ℕ
  | 0, _ => none
  | fuel + 1, id =>
      if (t.findItem id).isSome then
        let id := (id + 1) % 65536
        freeEntityId t fuel (if lastEntityId < id then firstEntityId else id)
      else some id

/-- The size of a value of a data type. -/
def dataTypeSize : ℕ → ℕ
  | 1 => 1
  | 2 => 2
  | 3 => 4
  | 4 => 8
  | 5 => 2
  | 6 => 4
  | 7 => 8
  | _ => 0

end Verse
