import Verse.Nodes.ContentEffects

/-!
# What the handlers test

A handler finds the node of its command, may test some more, and locks the mutex of the
node.  It makes its other tests with the mutex locked, and leaves at the first that
fails: by a `goto` to its end or out of nested `if`s, where the mutex is unlocked, or by
a `return` before that.  `HandlerTests` lists the tests of a handler, each with the way
the handler leaves.  A handler that leaves early does not change the data
(`vsHandleNodeCmd_of_failed`).  Memory that cannot be allocated is left out.
-/

namespace Verse

open Lib

/-! ## The tests of the handlers -/

inductive Leave where
  | atOnce
  | atEnd
  deriving DecidableEq, Repr

structure Test where
  passes : Bool
  leave : Leave
  deriving DecidableEq, Repr

/-- The handler returns when the test fails. -/
def orReturn (passes : Bool) : Test := ⟨passes, .atOnce⟩

/-- The handler goes to its end when the test fails. -/
def orEnd (passes : Bool) : Test := ⟨passes, .atEnd⟩

/-- The tests before the mutex of the node is locked, and those after. -/
structure HandlerTests where
  unlocked : List Bool
  locked : List Test
  deriving DecidableEq, Repr

/-- All tests pass. -/
def HandlerTests.pass (t : HandlerTests) : Bool :=
  t.unlocked.all id && t.locked.all Test.passes

namespace VSData

variable (d : VSData) (s n : ℕ) (node : VSNode)

/-- The session is among the subscribers. -/
def isSubscribed (subs : List ℕ) : Bool := (d.findSub s subs).any Option.isSome

def isNotSubscribed (subs : List ℕ) : Bool := (d.findSub s subs).any Option.isNone

/-- A tag group is found, and has a property. -/
def testTagGroup (taggroupId : ℕ) (p : ℕ → VSTagGroup → Bool) : Bool :=
  (node.tagGroups.findItem taggroupId).any fun g => (d.tagGroup g).any (p g)

/-- A tag is found, and has a property. -/
def testTag (taggroupId tagId : ℕ) (p : VSTag → Bool) : Bool :=
  d.testTagGroup node taggroupId fun _ tg =>
    (tg.tags.findItem tagId).any fun a => (d.tag a).any p

/-- A layer is found, and has a property. -/
def testLayer (layerId : ℕ) (p : ℕ → VSLayer → Bool) : Bool :=
  (node.layers.findItem layerId).any fun a => (d.layer a).any (p a)

/-- `vs_handle_node_prio`. -/
def vsHandleNodePrioTests : HandlerTests where
  unlocked := []
  locked := [orEnd (d.isCreated n), orEnd (d.isSubscribed s node.nodeSubs)]

/-- `vs_handle_node_unsubscribe`. -/
def vsHandleNodeUnsubscribeTests : HandlerTests where
  unlocked := []
  locked := [orEnd (d.isCreated n), orEnd (d.isSubscribed s node.nodeSubs)]

/-- `vs_handle_node_subscribe`. -/
def vsHandleNodeSubscribeTests : HandlerTests where
  unlocked := []
  locked := [orEnd (d.isCreated n), orEnd (d.isNotSubscribed s node.nodeSubs)]

/-- `vs_handle_node_create_ack` and `vs_handle_node_destroy_ack`. -/
def vsHandleNodeAckTests : HandlerTests where
  unlocked := []
  locked := []

/-- `vs_handle_node_destroy`. -/
def vsHandleNodeDestroyTests : HandlerTests where
  unlocked := []
  locked := [orEnd (d.isCreated n), orEnd ((d.session s).user = node.owner)]

/-- `vs_handle_node_unlock`. -/
def vsHandleNodeUnlockTests (avatarId : ℕ) : HandlerTests where
  unlocked := [avatarId = (d.session s).avatarId]
  locked := [orEnd (d.vsNodeCanWrite s node), orEnd (node.lock = some s)]

/-- `vs_handle_node_lock`. -/
def vsHandleNodeLockTests (avatarId : ℕ) : HandlerTests where
  unlocked := [avatarId = (d.session s).avatarId]
  locked := [orEnd (d.vsNodeCanWrite s node), orEnd (node.lock = none)]

/-- `vs_handle_node_owner`. -/
def vsHandleNodeOwnerTests (userId : ℕ) : HandlerTests where
  unlocked := [(d.session s).user = node.owner, (d.vsUserFind userId).isSome,
    (d.vsUserFind userId).any fun owner => !d.users[owner]?.all fun user => user.fakeUser]
  locked := []

/-- `vs_handle_node_perm`. -/
def vsHandleNodePermTests (userId permissions : ℕ) : HandlerTests where
  unlocked := [(d.vsUserFind userId).isSome, permissions &&& permNodeRead ≠ 0 ∨
    permissions &&& permNodeWrite ≠ 0 ∨ permissions = 0]
  locked := [orEnd (d.isCreated n), orEnd (node.owner = (d.session s).user)]

/-- `vs_handle_taggroup_create_ack`. -/
def vsHandleTaggroupCreateAckTests (taggroupId : ℕ) : HandlerTests where
  unlocked := []
  locked := [orEnd (d.testTagGroup node taggroupId fun _ _ => true)]

/-- `vs_handle_taggroup_create`.  The first test is made before the node is found. -/
def vsHandleTaggroupCreateTests (taggroupId type : ℕ) : HandlerTests where
  unlocked := [taggroupId = reservedEntityId]
  locked := [orEnd (d.isCreated n),
    orEnd (¬ (node.tagGroups.any fun b => (d.tagGroup b.2).any fun tg => tg.customType == type)),
    orEnd (d.vsNodeCanWrite s node), orEnd (node.tagGroups.length < maxEntityCount)]

/-- `vs_handle_taggroup_destroy`. -/
def vsHandleTaggroupDestroyTests (taggroupId : ℕ) : HandlerTests where
  unlocked := []
  locked := [orEnd (d.isCreated n), orEnd (d.vsNodeCanWrite s node),
    orEnd (d.testTagGroup node taggroupId fun _ _ => true)]

/-- `vs_handle_taggroup_subscribe`. -/
def vsHandleTaggroupSubscribeTests (taggroupId : ℕ) : HandlerTests where
  unlocked := []
  locked := [orEnd (d.isCreated n), orEnd (d.vsNodeCanRead s node),
    orEnd (d.isSubscribed s node.nodeSubs), orEnd (d.testTagGroup node taggroupId fun _ _ => true),
    orEnd (d.testTagGroup node taggroupId fun _ tg => d.isNotSubscribed s tg.subs)]

/-- `vs_handle_taggroup_unsubscribe`. -/
def vsHandleTaggroupUnsubscribeTests (taggroupId : ℕ) : HandlerTests where
  unlocked := []
  locked := [orEnd (d.isCreated n), orEnd (d.testTagGroup node taggroupId fun _ _ => true)]

/-- `vs_handle_tag_create_ack` and `vs_handle_tag_destroy_ack`. -/
def vsHandleTagAckTests (taggroupId tagId : ℕ) : HandlerTests where
  unlocked := []
  locked := [orEnd (d.testTagGroup node taggroupId fun _ _ => true),
    orEnd (d.testTag node taggroupId tagId fun _ => true)]

/-- `vs_handle_tag_create`. -/
def vsHandleTagCreateTests (taggroupId tagId dataType type : ℕ) : HandlerTests where
  unlocked := []
  locked := [orEnd (d.isCreated n), orEnd (d.vsNodeCanWrite s node),
    orEnd (d.testTagGroup node taggroupId fun _ _ => true),
    orEnd (d.testTagGroup node taggroupId fun g _ => d.isCreated g),
    orEnd (tagId = reservedEntityId), orEnd (0 < dataType ∧ dataType ≤ valueTypeString8),
    orEnd (d.testTagGroup node taggroupId fun _ tg =>
      ¬ (tg.tags.any fun b => (d.tag b.2).any fun tag => tag.customType == type)),
    orEnd (d.testTagGroup node taggroupId fun _ tg => tg.tags.length ≤ maxEntityCount)]

/-- `vs_handle_tag_destroy`. -/
def vsHandleTagDestroyTests (taggroupId tagId : ℕ) : HandlerTests where
  unlocked := []
  locked := [orEnd (d.isCreated n), orEnd (d.vsNodeCanWrite s node),
    orEnd (d.testTagGroup node taggroupId fun _ _ => true),
    orEnd (d.testTag node taggroupId tagId fun _ => true)]

/-- `vs_handle_tag_set`. -/
def vsHandleTagSetTests (taggroupId tagId dataType count : ℕ) : HandlerTests where
  unlocked := []
  locked := [orEnd (d.isCreated n), orEnd (d.vsNodeCanWrite s node),
    orEnd (d.testTagGroup node taggroupId fun _ _ => true),
    orEnd (d.testTag node taggroupId tagId fun _ => true),
    orEnd (d.testTag node taggroupId tagId fun tag => dataType = tag.dataType),
    orEnd (d.testTag node taggroupId tagId fun tag => count = tag.count)]

/-- `vs_handle_layer_create_ack`, `vs_handle_layer_destroy_ack` and
`vs_handle_layer_unsubscribe`. -/
def vsHandleLayerFindTests (layerId : ℕ) : HandlerTests where
  unlocked := []
  locked := [orEnd (d.testLayer node layerId fun _ _ => true)]

/-- `vs_handle_layer_create`, which returns with the mutex locked when the node is not
created. -/
def vsHandleLayerCreateTests (parentLayerId layerId dataType type : ℕ) : HandlerTests where
  unlocked := []
  locked := [orReturn (d.isCreated n),
    orEnd (parentLayerId = reservedEntityId ∨ (node.layers.findItem parentLayerId).isSome),
    orEnd (d.vsNodeCanWrite s node), orEnd (layerId = reservedEntityId),
    orEnd (0 < dataType ∧ dataType ≤ valueTypeReal64),
    orEnd (¬ (node.layers.any fun b => (d.layer b.2).any fun layer => layer.customType == type)),
    orEnd (node.layers.length ≤ maxEntityCount)]

/-- `vs_handle_layer_destroy`. -/
def vsHandleLayerDestroyTests (layerId : ℕ) : HandlerTests where
  unlocked := []
  locked := [orEnd (d.isCreated n), orEnd (d.vsNodeCanWrite s node),
    orEnd (d.testLayer node layerId fun _ _ => true),
    orEnd (d.testLayer node layerId fun a _ => d.isCreated a)]

/-- `vs_handle_layer_subscribe`. -/
def vsHandleLayerSubscribeTests (layerId : ℕ) : HandlerTests where
  unlocked := []
  locked := [orEnd (d.isCreated n), orEnd (d.vsNodeCanRead s node),
    orEnd (d.isSubscribed s node.nodeSubs), orEnd (d.testLayer node layerId fun _ _ => true),
    orEnd (d.testLayer node layerId fun a _ => d.isCreated a),
    orEnd (d.testLayer node layerId fun _ layer => d.isNotSubscribed s layer.subs)]

/-- `vs_handle_layer_set_value`. -/
def vsHandleLayerSetValueTests (layerId dataType count : ℕ) : HandlerTests where
  unlocked := []
  locked := [orEnd (d.vsNodeCanWrite s node), orEnd (d.testLayer node layerId fun _ _ => true),
    orEnd (d.testLayer node layerId fun _ layer => dataType = layer.dataType),
    orEnd (d.testLayer node layerId fun _ layer => count = layer.numVecComp),
    orEnd (d.testLayer node layerId fun _ layer => 0 < dataTypeSize layer.dataType)]

/-- `vs_handle_layer_unset_value`. -/
def vsHandleLayerUnsetValueTests (layerId : ℕ) : HandlerTests where
  unlocked := []
  locked := [orEnd (d.vsNodeCanWrite s node), orEnd (d.testLayer node layerId fun _ _ => true)]

end VSData

/-! ## Commands -/

/-- The id of the node whose mutex the handler of a command locks. -/
def NodeCmd.lockedNodeId : NodeCmd → Option ℕ
  | .nodeCreate .. | .nodeLink .. | .taggroupDestroyAck .. => none
  | .nodeCreateAck nodeId | .nodeDestroy nodeId | .nodeDestroyAck nodeId => some nodeId
  | .nodeSubscribe nodeId | .nodeUnsubscribe nodeId | .nodePerm _ _ nodeId => some nodeId
  | .nodeOwner _ nodeId | .nodeLock _ nodeId | .nodeUnlock _ nodeId => some nodeId
  | .nodePrio _ nodeId | .taggroupCreate nodeId _ _ | .taggroupCreateAck nodeId _ => some nodeId
  | .taggroupDestroy nodeId _ | .taggroupSubscribe nodeId _ => some nodeId
  | .taggroupUnsubscribe nodeId _ | .tagCreate nodeId _ _ _ _ _ => some nodeId
  | .tagCreateAck nodeId _ _ | .tagDestroy nodeId _ _ | .tagDestroyAck nodeId _ _ => some nodeId
  | .tagSet nodeId _ _ _ _ _ | .layerCreate nodeId _ _ _ _ _ => some nodeId
  | .layerCreateAck nodeId _ | .layerDestroy nodeId _ | .layerDestroyAck nodeId _ => some nodeId
  | .layerSubscribe nodeId _ | .layerUnsubscribe nodeId _ => some nodeId
  | .layerSetValue nodeId _ _ _ _ _ | .layerUnsetValue nodeId _ _ => some nodeId

namespace VSData

variable (d : VSData)

/-- The tests of the handler of a command for the node at the address `n`. -/
def handlerTests (s n : ℕ) (node : VSNode) : NodeCmd → HandlerTests
  | .nodeCreate .. | .nodeLink .. | .taggroupDestroyAck .. => ⟨[], []⟩
  | .nodeCreateAck _ | .nodeDestroyAck _ => vsHandleNodeAckTests
  | .nodeDestroy _ => d.vsHandleNodeDestroyTests s n node
  | .nodeSubscribe _ => d.vsHandleNodeSubscribeTests s n node
  | .nodeUnsubscribe _ => d.vsHandleNodeUnsubscribeTests s n node
  | .nodePerm userId permissions _ => d.vsHandleNodePermTests s n node userId permissions
  | .nodeOwner userId _ => d.vsHandleNodeOwnerTests s node userId
  | .nodeLock avatarId _ => d.vsHandleNodeLockTests s node avatarId
  | .nodeUnlock avatarId _ => d.vsHandleNodeUnlockTests s node avatarId
  | .nodePrio _ _ => d.vsHandleNodePrioTests s n node
  | .taggroupCreate _ taggroupId type => d.vsHandleTaggroupCreateTests s n node taggroupId type
  | .taggroupCreateAck _ taggroupId => d.vsHandleTaggroupCreateAckTests node taggroupId
  | .taggroupDestroy _ taggroupId => d.vsHandleTaggroupDestroyTests s n node taggroupId
  | .taggroupSubscribe _ taggroupId => d.vsHandleTaggroupSubscribeTests s n node taggroupId
  | .taggroupUnsubscribe _ taggroupId => d.vsHandleTaggroupUnsubscribeTests n node taggroupId
  | .tagCreate _ taggroupId tagId dataType _ type =>
      d.vsHandleTagCreateTests s n node taggroupId tagId dataType type
  | .tagCreateAck _ taggroupId tagId | .tagDestroyAck _ taggroupId tagId =>
      d.vsHandleTagAckTests node taggroupId tagId
  | .tagDestroy _ taggroupId tagId => d.vsHandleTagDestroyTests s n node taggroupId tagId
  | .tagSet _ taggroupId tagId dataType count _ =>
      d.vsHandleTagSetTests s n node taggroupId tagId dataType count
  | .layerCreate _ parentLayerId layerId dataType _ type =>
      d.vsHandleLayerCreateTests s n node parentLayerId layerId dataType type
  | .layerCreateAck _ layerId | .layerDestroyAck _ layerId | .layerUnsubscribe _ layerId =>
      d.vsHandleLayerFindTests node layerId
  | .layerDestroy _ layerId => d.vsHandleLayerDestroyTests s n node layerId
  | .layerSubscribe _ layerId => d.vsHandleLayerSubscribeTests s n node layerId
  | .layerSetValue _ layerId _ dataType count _ =>
      d.vsHandleLayerSetValueTests s node layerId dataType count
  | .layerUnsetValue _ layerId _ => d.vsHandleLayerUnsetValueTests s node layerId

/-! ## Leaving early -/

variable {d} {d' : VSData}

theorem testTagGroup_eq {node : VSNode} {taggroupId g : ℕ} {tg : VSTagGroup}
    (hg : node.tagGroups.findItem taggroupId = some g) (htg : d.tagGroup g = some tg)
    (p : ℕ → VSTagGroup → Bool) : d.testTagGroup node taggroupId p = p g tg := by
  simp [testTagGroup, hg, htg]

theorem testTag_eq {node : VSNode} {taggroupId g tagId a : ℕ} {tg : VSTagGroup} {tag : VSTag}
    (hg : node.tagGroups.findItem taggroupId = some g) (htg : d.tagGroup g = some tg)
    (ha : tg.tags.findItem tagId = some a) (htag : d.tag a = some tag) (p : VSTag → Bool) :
    d.testTag node taggroupId tagId p = p tag := by
  simp [testTag, testTagGroup_eq hg htg, ha, htag]

theorem testLayer_eq {node : VSNode} {layerId a : ℕ} {layer : VSLayer}
    (ha : node.layers.findItem layerId = some a) (hlayer : d.layer a = some layer)
    (p : ℕ → VSLayer → Bool) : d.testLayer node layerId p = p a layer := by
  simp [testLayer, ha, hlayer]

/-- The handler changed nothing, or its tests passed. -/
def UnchangedOrPassed (d : VSData) (s : ℕ) (cmd : NodeCmd) (d' : VSData) : Prop :=
  d' = d ∨ ∀ nodeId n node, cmd.lockedNodeId = some nodeId → d.vsNodeFind nodeId = some n →
    d.node n = some node → (d.handlerTests s n node cmd).pass

/-- What `withNode` does is to be looked at for the node of the command only. -/
theorem unchangedOrPassed_withNode {s nodeId : ℕ} {cmd : NodeCmd} {f : ℕ → VSNode → Option VSData}
    (hid : cmd.lockedNodeId = some nodeId)
    (hf : ∀ n node, d.node n = some node → f n node = some d' →
      d' = d ∨ (d.handlerTests s n node cmd).pass)
    (h : d.withNode nodeId f = some d') : d.UnchangedOrPassed s cmd d' := by
  rcases withNode_cases h with rfl | ⟨n, node, hn, hnode, h⟩
  · exact Or.inl rfl
  rcases hf n node hnode h with rfl | hpass
  · exact Or.inl rfl
  refine Or.inr fun nodeId' n' node' hid' hn' hnode' => ?_
  obtain rfl := Option.some.inj (hid.symm.trans hid')
  obtain rfl := Option.some.inj (hn.symm.trans hn')
  obtain rfl := Option.some.inj (hnode.symm.trans hnode')
  exact hpass

theorem isSubscribed_of {s r : ℕ} {subs : List ℕ} (h : d.findSub s subs = some (some r)) :
    d.isSubscribed s subs = true := by
  simp [isSubscribed, h]

theorem isNotSubscribed_of {s : ℕ} {subs : List ℕ} (h : d.findSub s subs = some none) :
    d.isNotSubscribed s subs = true := by
  simp [isNotSubscribed, h]

/-! ### Handlers of nodes -/

theorem vsHandleNodePrio_passes {s prio nodeId : ℕ}
    (h : d.vsHandleNodePrio s prio nodeId = some d') :
    d.UnchangedOrPassed s (.nodePrio prio nodeId) d' := by
  apply unchangedOrPassed_withNode rfl _ h
  intro n node hnode h
  rcases ite_cases h with rfl | ⟨hcreated, h⟩
  · exact Or.inl rfl
  unfold vsNodePrio at h
  split at h
  · cases h
  obtain ⟨node', hnode', h⟩ := Option.bind_eq_some_iff.mp h
  obtain rfl := Option.some.inj (hnode.symm.trans hnode')
  obtain ⟨found, hfound, h⟩ := Option.bind_eq_some_iff.mp h
  cases found with
  | none => exact Or.inl (Option.some.inj h).symm
  | some r =>
      right
      show (vsHandleNodePrioTests _ s _ _).pass = true
      simp [vsHandleNodePrioTests, HandlerTests.pass, orEnd, hcreated,
        isSubscribed_of hfound]

theorem vsHandleNodeUnsubscribe_passes {s nodeId : ℕ}
    (h : d.vsHandleNodeUnsubscribe s nodeId = some d') :
    d.UnchangedOrPassed s (.nodeUnsubscribe nodeId) d' := by
  apply unchangedOrPassed_withNode rfl _ h
  intro n node hnode h
  rcases ite_cases h with rfl | ⟨hcreated, h⟩
  · exact Or.inl rfl
  obtain ⟨found, hfound, h⟩ := Option.bind_eq_some_iff.mp h
  cases found with
  | none => exact Or.inl (Option.some.inj h).symm
  | some r =>
      right
      show (d.vsHandleNodeUnsubscribeTests s n node).pass = true
      simp [vsHandleNodeUnsubscribeTests, HandlerTests.pass, orEnd, hcreated,
        isSubscribed_of hfound]

theorem vsHandleNodeSubscribe_passes {s nodeId : ℕ}
    (h : d.vsHandleNodeSubscribe s nodeId = some d') :
    d.UnchangedOrPassed s (.nodeSubscribe nodeId) d' := by
  apply unchangedOrPassed_withNode rfl _ h
  intro n node hnode h
  rcases ite_cases h with rfl | ⟨hcreated, h⟩
  · exact Or.inl rfl
  obtain ⟨found, hfound, h⟩ := Option.bind_eq_some_iff.mp h
  cases found with
  | some r => exact Or.inl (Option.some.inj h).symm
  | none =>
      right
      show (d.vsHandleNodeSubscribeTests s n node).pass = true
      simp [vsHandleNodeSubscribeTests, HandlerTests.pass, orEnd, hcreated,
        isNotSubscribed_of hfound]

theorem vsHandleNodeDestroy_passes {s nodeId : ℕ}
    (h : d.vsHandleNodeDestroy s nodeId = some d') :
    d.UnchangedOrPassed s (.nodeDestroy nodeId) d' := by
  apply unchangedOrPassed_withNode rfl _ h
  intro n node hnode h
  rcases ite_cases h with rfl | ⟨⟨hcreated, howner⟩, -⟩
  · exact Or.inl rfl
  right
  show (d.vsHandleNodeDestroyTests s n node).pass = true
  simp [vsHandleNodeDestroyTests, HandlerTests.pass, orEnd, hcreated, howner]

theorem vsHandleNodeUnlock_passes {s avatarId nodeId : ℕ}
    (h : d.vsHandleNodeUnlock s avatarId nodeId = some d') :
    d.UnchangedOrPassed s (.nodeUnlock avatarId nodeId) d' := by
  apply unchangedOrPassed_withNode rfl _ h
  intro n node hnode h
  rcases ite_cases h with rfl | ⟨⟨havatar, hwrite, hlock⟩, -⟩
  · exact Or.inl rfl
  right
  show (d.vsHandleNodeUnlockTests s node avatarId).pass = true
  simp [vsHandleNodeUnlockTests, HandlerTests.pass, orEnd, havatar, hwrite, hlock]

theorem vsHandleNodeLock_passes {s avatarId nodeId : ℕ}
    (h : d.vsHandleNodeLock s avatarId nodeId = some d') :
    d.UnchangedOrPassed s (.nodeLock avatarId nodeId) d' := by
  apply unchangedOrPassed_withNode rfl _ h
  intro n node hnode h
  rcases ite_cases h with rfl | ⟨⟨havatar, hwrite, hlock⟩, -⟩
  · exact Or.inl rfl
  right
  show (d.vsHandleNodeLockTests s node avatarId).pass = true
  simp [vsHandleNodeLockTests, HandlerTests.pass, orEnd, havatar, hwrite, hlock]

theorem vsHandleNodeOwner_passes {s userId nodeId : ℕ}
    (h : d.vsHandleNodeOwner s userId nodeId = some d') :
    d.UnchangedOrPassed s (.nodeOwner userId nodeId) d' := by
  apply unchangedOrPassed_withNode rfl _ h
  intro n node hnode h
  rcases ite_cases h with rfl | ⟨howner, h⟩
  · exact Or.inl rfl
  split at h
  · exact Or.inl (Option.some.inj h).symm
  rename_i owner huser
  split at h
  · exact Or.inl (Option.some.inj h).symm
  rename_i hreal
  right
  simp only [Bool.not_eq_true] at hreal
  show (d.vsHandleNodeOwnerTests s node userId).pass = true
  simp [vsHandleNodeOwnerTests, HandlerTests.pass, howner, huser, hreal]

theorem vsHandleNodePerm_passes {s userId permissions nodeId : ℕ}
    (h : d.vsHandleNodePerm s userId permissions nodeId = some d') :
    d.UnchangedOrPassed s (.nodePerm userId permissions nodeId) d' := by
  apply unchangedOrPassed_withNode rfl _ h
  intro n node hnode h
  split at h
  · exact Or.inl (Option.some.inj h).symm
  rename_i user huser
  rcases ite_cases h with rfl | ⟨⟨hvalid, hcreated, howner⟩, -⟩
  · exact Or.inl rfl
  right
  show (d.vsHandleNodePermTests s n node userId permissions).pass = true
  simp [vsHandleNodePermTests, HandlerTests.pass, orEnd, huser, hvalid, hcreated,
    howner]

/-! ### Handlers of tag groups -/

theorem vsHandleTaggroupCreateAck_passes {s nodeId taggroupId : ℕ}
    (h : d.vsHandleTaggroupCreateAck s nodeId taggroupId = some d') :
    d.UnchangedOrPassed s (.taggroupCreateAck nodeId taggroupId) d' := by
  apply unchangedOrPassed_withNode rfl _ h
  intro n node hnode h
  rcases withTagGroup_cases h with rfl | ⟨g, tg, hg, htg, -⟩
  · exact Or.inl rfl
  right
  show (d.vsHandleTaggroupCreateAckTests node taggroupId).pass = true
  simp [vsHandleTaggroupCreateAckTests, HandlerTests.pass, orEnd,
    testTagGroup_eq hg htg]

theorem vsHandleTaggroupCreate_passes {s nodeId taggroupId type : ℕ}
    (h : d.vsHandleTaggroupCreate s nodeId taggroupId type = some d') :
    d.UnchangedOrPassed s (.taggroupCreate nodeId taggroupId type) d' := by
  rcases ite_cases h with rfl | ⟨hreserved, h⟩
  · exact Or.inl rfl
  apply unchangedOrPassed_withNode rfl _ h
  intro n node hnode h
  rcases ite_cases h with rfl | ⟨⟨hcreated, hunused, hwrite⟩, h⟩
  · exact Or.inl rfl
  obtain ⟨⟨d₁, created⟩, hcreate, h⟩ := Option.bind_eq_some_iff.mp h
  obtain ⟨node', hnode', hcreate⟩ := Option.bind_eq_some_iff.mp hcreate
  obtain rfl := Option.some.inj (hnode.symm.trans hnode')
  split at hcreate
  · rename_i hcount
    right
    simp only [Bool.not_eq_true] at hunused
    show (d.vsHandleTaggroupCreateTests s n node taggroupId type).pass = true
    simp [vsHandleTaggroupCreateTests, HandlerTests.pass, orEnd, hreserved, hcreated,
      hunused, hwrite, hcount]
  · obtain ⟨rfl, rfl⟩ := Prod.mk.inj (Option.some.inj hcreate)
    exact Or.inl (Option.some.inj h).symm

theorem vsHandleTaggroupDestroy_passes {s nodeId taggroupId : ℕ}
    (h : d.vsHandleTaggroupDestroy s nodeId taggroupId = some d') :
    d.UnchangedOrPassed s (.taggroupDestroy nodeId taggroupId) d' := by
  apply unchangedOrPassed_withNode rfl _ h
  intro n node hnode h
  rcases ite_cases h with rfl | ⟨⟨hcreated, hwrite⟩, h⟩
  · exact Or.inl rfl
  rcases withTagGroup_cases h with rfl | ⟨g, tg, hg, htg, -⟩
  · exact Or.inl rfl
  right
  show (d.vsHandleTaggroupDestroyTests s n node taggroupId).pass = true
  simp [vsHandleTaggroupDestroyTests, HandlerTests.pass, orEnd, hcreated, hwrite,
    testTagGroup_eq hg htg]

theorem vsHandleTaggroupSubscribe_passes {s nodeId taggroupId : ℕ}
    (h : d.vsHandleTaggroupSubscribe s nodeId taggroupId = some d') :
    d.UnchangedOrPassed s (.taggroupSubscribe nodeId taggroupId) d' := by
  apply unchangedOrPassed_withNode rfl _ h
  intro n node hnode h
  rcases ite_cases h with rfl | ⟨⟨hcreated, hread⟩, h⟩
  · exact Or.inl rfl
  obtain ⟨subscribed, hsubscribed, h⟩ := Option.bind_eq_some_iff.mp h
  cases subscribed with
  | none => exact Or.inl (Option.some.inj h).symm
  | some r =>
      rcases withTagGroup_cases h with rfl | ⟨g, tg, hg, htg, h⟩
      · exact Or.inl rfl
      obtain ⟨found, hfound, h⟩ := Option.bind_eq_some_iff.mp h
      cases found with
      | some r' => exact Or.inl (Option.some.inj h).symm
      | none =>
          right
          show (d.vsHandleTaggroupSubscribeTests s n node taggroupId).pass = true
          simp [vsHandleTaggroupSubscribeTests, HandlerTests.pass, orEnd, hcreated,
            hread, isSubscribed_of hsubscribed, testTagGroup_eq hg htg, isNotSubscribed_of hfound]

theorem vsHandleTaggroupUnsubscribe_passes {s nodeId taggroupId : ℕ}
    (h : d.vsHandleTaggroupUnsubscribe s nodeId taggroupId = some d') :
    d.UnchangedOrPassed s (.taggroupUnsubscribe nodeId taggroupId) d' := by
  apply unchangedOrPassed_withNode rfl _ h
  intro n node hnode h
  rcases ite_cases h with rfl | ⟨hcreated, h⟩
  · exact Or.inl rfl
  rcases withTagGroup_cases h with rfl | ⟨g, tg, hg, htg, -⟩
  · exact Or.inl rfl
  right
  show (d.vsHandleTaggroupUnsubscribeTests n node taggroupId).pass = true
  simp [vsHandleTaggroupUnsubscribeTests, HandlerTests.pass, orEnd, hcreated,
    testTagGroup_eq hg htg]

/-! ### Handlers of tags -/

theorem vsHandleTagCreateAck_passes {s nodeId taggroupId tagId : ℕ}
    (h : d.vsHandleTagCreateAck s nodeId taggroupId tagId = some d') :
    d.UnchangedOrPassed s (.tagCreateAck nodeId taggroupId tagId) d' := by
  apply unchangedOrPassed_withNode rfl _ h
  intro n node hnode h
  rcases withTagGroup_cases h with rfl | ⟨g, tg, hg, htg, h⟩
  · exact Or.inl rfl
  rcases withTag_cases h with rfl | ⟨a, tag, ha, htag, -⟩
  · exact Or.inl rfl
  right
  show (d.vsHandleTagAckTests node taggroupId tagId).pass = true
  simp [vsHandleTagAckTests, HandlerTests.pass, orEnd, testTagGroup_eq hg htg,
    testTag_eq hg htg ha htag]

theorem vsHandleTagDestroyAck_passes {s nodeId taggroupId tagId : ℕ}
    (h : d.vsHandleTagDestroyAck s nodeId taggroupId tagId = some d') :
    d.UnchangedOrPassed s (.tagDestroyAck nodeId taggroupId tagId) d' := by
  apply unchangedOrPassed_withNode rfl _ h
  intro n node hnode h
  rcases withTagGroup_cases h with rfl | ⟨g, tg, hg, htg, h⟩
  · exact Or.inl rfl
  rcases withTag_cases h with rfl | ⟨a, tag, ha, htag, -⟩
  · exact Or.inl rfl
  right
  show (d.vsHandleTagAckTests node taggroupId tagId).pass = true
  simp [vsHandleTagAckTests, HandlerTests.pass, orEnd, testTagGroup_eq hg htg,
    testTag_eq hg htg ha htag]

theorem vsHandleTagCreate_passes {s nodeId taggroupId tagId dataType count type : ℕ}
    (h : d.vsHandleTagCreate s nodeId taggroupId tagId dataType count type = some d') :
    d.UnchangedOrPassed s (.tagCreate nodeId taggroupId tagId dataType count type) d' := by
  apply unchangedOrPassed_withNode rfl _ h
  intro n node hnode h
  rcases ite_cases h with rfl | ⟨⟨hcreated, hwrite⟩, h⟩
  · exact Or.inl rfl
  rcases withTagGroup_cases h with rfl | ⟨g, tg, hg, htg, h⟩
  · exact Or.inl rfl
  rcases ite_cases h with rfl | ⟨⟨hgcreated, hreserved, hpos, hle, hunused, hcount⟩, -⟩
  · exact Or.inl rfl
  right
  simp only [Bool.not_eq_true] at hunused
  show (d.vsHandleTagCreateTests s n node taggroupId tagId dataType type).pass = true
  simp [vsHandleTagCreateTests, HandlerTests.pass, orEnd, testTagGroup_eq hg htg,
    hcreated, hwrite, hgcreated, hreserved, hpos, hle, hunused, hcount]

theorem vsHandleTagDestroy_passes {s nodeId taggroupId tagId : ℕ}
    (h : d.vsHandleTagDestroy s nodeId taggroupId tagId = some d') :
    d.UnchangedOrPassed s (.tagDestroy nodeId taggroupId tagId) d' := by
  apply unchangedOrPassed_withNode rfl _ h
  intro n node hnode h
  rcases ite_cases h with rfl | ⟨⟨hcreated, hwrite⟩, h⟩
  · exact Or.inl rfl
  rcases withTagGroup_cases h with rfl | ⟨g, tg, hg, htg, h⟩
  · exact Or.inl rfl
  rcases withTag_cases h with rfl | ⟨a, tag, ha, htag, -⟩
  · exact Or.inl rfl
  right
  show (d.vsHandleTagDestroyTests s n node taggroupId tagId).pass = true
  simp [vsHandleTagDestroyTests, HandlerTests.pass, orEnd, hcreated, hwrite,
    testTagGroup_eq hg htg, testTag_eq hg htg ha htag]

theorem vsHandleTagSet_passes {s nodeId taggroupId tagId dataType count : ℕ} {value : List UInt8}
    (h : d.vsHandleTagSet s nodeId taggroupId tagId dataType count value = some d') :
    d.UnchangedOrPassed s (.tagSet nodeId taggroupId tagId dataType count value) d' := by
  apply unchangedOrPassed_withNode rfl _ h
  intro n node hnode h
  rcases ite_cases h with rfl | ⟨⟨hcreated, hwrite⟩, h⟩
  · exact Or.inl rfl
  rcases withTagGroup_cases h with rfl | ⟨g, tg, hg, htg, h⟩
  · exact Or.inl rfl
  rcases withTag_cases h with rfl | ⟨a, tag, ha, htag, h⟩
  · exact Or.inl rfl
  rcases ite_cases h with rfl | ⟨⟨htype, hcount⟩, -⟩
  · exact Or.inl rfl
  right
  show (d.vsHandleTagSetTests s n node taggroupId tagId dataType count).pass = true
  simp [vsHandleTagSetTests, HandlerTests.pass, orEnd, hcreated, hwrite,
    testTagGroup_eq hg htg, testTag_eq hg htg ha htag, htype, hcount]

/-! ### Handlers of layers -/

theorem vsHandleLayerCreateAck_passes {s nodeId layerId : ℕ}
    (h : d.vsHandleLayerCreateAck s nodeId layerId = some d') :
    d.UnchangedOrPassed s (.layerCreateAck nodeId layerId) d' := by
  apply unchangedOrPassed_withNode rfl _ h
  intro n node hnode h
  rcases withLayer_cases h with rfl | ⟨a, layer, ha, hlayer, -⟩
  · exact Or.inl rfl
  right
  show (d.vsHandleLayerFindTests node layerId).pass = true
  simp [vsHandleLayerFindTests, HandlerTests.pass, orEnd, testLayer_eq ha hlayer]

theorem vsHandleLayerDestroyAck_passes {s nodeId layerId : ℕ}
    (h : d.vsHandleLayerDestroyAck s nodeId layerId = some d') :
    d.UnchangedOrPassed s (.layerDestroyAck nodeId layerId) d' := by
  apply unchangedOrPassed_withNode rfl _ h
  intro n node hnode h
  rcases withLayer_cases h with rfl | ⟨a, layer, ha, hlayer, -⟩
  · exact Or.inl rfl
  right
  show (d.vsHandleLayerFindTests node layerId).pass = true
  simp [vsHandleLayerFindTests, HandlerTests.pass, orEnd, testLayer_eq ha hlayer]

theorem vsHandleLayerUnsubscribe_passes {s nodeId layerId : ℕ}
    (h : d.vsHandleLayerUnsubscribe s nodeId layerId = some d') :
    d.UnchangedOrPassed s (.layerUnsubscribe nodeId layerId) d' := by
  apply unchangedOrPassed_withNode rfl _ h
  intro n node hnode h
  rcases withLayer_cases h with rfl | ⟨a, layer, ha, hlayer, -⟩
  · exact Or.inl rfl
  right
  show (d.vsHandleLayerFindTests node layerId).pass = true
  simp [vsHandleLayerFindTests, HandlerTests.pass, orEnd, testLayer_eq ha hlayer]

theorem vsHandleLayerCreate_passes {s nodeId parentLayerId layerId dataType count type : ℕ}
    (h : d.vsHandleLayerCreate s nodeId parentLayerId layerId dataType count type = some d') :
    d.UnchangedOrPassed s (.layerCreate nodeId parentLayerId layerId dataType count type) d' := by
  apply unchangedOrPassed_withNode rfl _ h
  intro n node hnode h
  rcases ite_cases h with
    rfl | ⟨⟨hcreated, hparent, hwrite, hreserved, hpos, hle, hunused, hcount⟩, -⟩
  · exact Or.inl rfl
  right
  simp only [Bool.not_eq_true] at hunused
  show (d.vsHandleLayerCreateTests s n node parentLayerId layerId dataType type).pass = true
  simp [vsHandleLayerCreateTests, HandlerTests.pass, orEnd, orReturn, hcreated,
    hparent, hwrite, hreserved, hpos, hle, hunused, hcount]

theorem vsHandleLayerDestroy_passes {s nodeId layerId : ℕ}
    (h : d.vsHandleLayerDestroy s nodeId layerId = some d') :
    d.UnchangedOrPassed s (.layerDestroy nodeId layerId) d' := by
  apply unchangedOrPassed_withNode rfl _ h
  intro n node hnode h
  rcases ite_cases h with rfl | ⟨⟨hcreated, hwrite⟩, h⟩
  · exact Or.inl rfl
  rcases withLayer_cases h with rfl | ⟨a, layer, ha, hlayer, h⟩
  · exact Or.inl rfl
  rcases ite_cases h with rfl | ⟨hacreated, -⟩
  · exact Or.inl rfl
  right
  show (d.vsHandleLayerDestroyTests s n node layerId).pass = true
  simp [vsHandleLayerDestroyTests, HandlerTests.pass, orEnd, hcreated, hwrite,
    testLayer_eq ha hlayer, hacreated]

theorem vsHandleLayerSubscribe_passes {s nodeId layerId : ℕ}
    (h : d.vsHandleLayerSubscribe s nodeId layerId = some d') :
    d.UnchangedOrPassed s (.layerSubscribe nodeId layerId) d' := by
  apply unchangedOrPassed_withNode rfl _ h
  intro n node hnode h
  rcases ite_cases h with rfl | ⟨⟨hcreated, hread⟩, h⟩
  · exact Or.inl rfl
  obtain ⟨subscribed, hsubscribed, h⟩ := Option.bind_eq_some_iff.mp h
  cases subscribed with
  | none => exact Or.inl (Option.some.inj h).symm
  | some r =>
      rcases withLayer_cases h with rfl | ⟨a, layer, ha, hlayer, h⟩
      · exact Or.inl rfl
      rcases ite_cases h with rfl | ⟨hacreated, h⟩
      · exact Or.inl rfl
      obtain ⟨found, hfound, h⟩ := Option.bind_eq_some_iff.mp h
      cases found with
      | some r' => exact Or.inl (Option.some.inj h).symm
      | none =>
          right
          show (d.vsHandleLayerSubscribeTests s n node layerId).pass = true
          simp [vsHandleLayerSubscribeTests, HandlerTests.pass, orEnd, hcreated, hread,
            isSubscribed_of hsubscribed, testLayer_eq ha hlayer, hacreated,
            isNotSubscribed_of hfound]

theorem vsHandleLayerSetValue_passes {s nodeId layerId itemId dataType count : ℕ}
    {value : List UInt8}
    (h : d.vsHandleLayerSetValue s nodeId layerId itemId dataType count value = some d') :
    d.UnchangedOrPassed s (.layerSetValue nodeId layerId itemId dataType count value) d' := by
  apply unchangedOrPassed_withNode rfl _ h
  intro n node hnode h
  rcases ite_cases h with rfl | ⟨hwrite, h⟩
  · exact Or.inl rfl
  rcases withLayer_cases h with rfl | ⟨a, layer, ha, hlayer, h⟩
  · exact Or.inl rfl
  rcases ite_cases h with rfl | ⟨⟨htype, hcount, hsize⟩, -⟩
  · exact Or.inl rfl
  right
  show (d.vsHandleLayerSetValueTests s node layerId dataType count).pass = true
  simp [vsHandleLayerSetValueTests, HandlerTests.pass, orEnd, hwrite,
    testLayer_eq ha hlayer, htype, hcount, hsize]

theorem vsHandleLayerUnsetValue_passes {s nodeId layerId itemId : ℕ}
    (h : d.vsHandleLayerUnsetValue s nodeId layerId itemId = some d') :
    d.UnchangedOrPassed s (.layerUnsetValue nodeId layerId itemId) d' := by
  apply unchangedOrPassed_withNode rfl _ h
  intro n node hnode h
  rcases ite_cases h with rfl | ⟨hwrite, h⟩
  · exact Or.inl rfl
  rcases withLayer_cases h with rfl | ⟨a, layer, ha, hlayer, -⟩
  · exact Or.inl rfl
  right
  show (d.vsHandleLayerUnsetValueTests s node layerId).pass = true
  simp [vsHandleLayerUnsetValueTests, HandlerTests.pass, orEnd, hwrite,
    testLayer_eq ha hlayer]

/-- A handler that leaves early does not change the data. -/
theorem vsHandleNodeCmd_of_failed {s nodeId n : ℕ} {node : VSNode} {cmd : NodeCmd}
    (h : d.vsHandleNodeCmd s cmd = some d') (hid : cmd.lockedNodeId = some nodeId)
    (hn : d.vsNodeFind nodeId = some n) (hnode : d.node n = some node)
    (hfailed : (d.handlerTests s n node cmd).pass = false) : d' = d := by
  have hcases : d.UnchangedOrPassed s cmd d' := by
    cases cmd with
    | nodeCreate | nodeLink | taggroupDestroyAck => cases hid
    | nodeCreateAck | nodeDestroyAck => exact Or.inr fun _ _ _ _ _ _ => rfl
    | nodeDestroy => exact vsHandleNodeDestroy_passes h
    | nodeSubscribe => exact vsHandleNodeSubscribe_passes h
    | nodeUnsubscribe => exact vsHandleNodeUnsubscribe_passes h
    | nodePerm => exact vsHandleNodePerm_passes h
    | nodeOwner => exact vsHandleNodeOwner_passes h
    | nodeLock => exact vsHandleNodeLock_passes h
    | nodeUnlock => exact vsHandleNodeUnlock_passes h
    | nodePrio => exact vsHandleNodePrio_passes h
    | taggroupCreate => exact vsHandleTaggroupCreate_passes h
    | taggroupCreateAck => exact vsHandleTaggroupCreateAck_passes h
    | taggroupDestroy => exact vsHandleTaggroupDestroy_passes h
    | taggroupSubscribe => exact vsHandleTaggroupSubscribe_passes h
    | taggroupUnsubscribe => exact vsHandleTaggroupUnsubscribe_passes h
    | tagCreate => exact vsHandleTagCreate_passes h
    | tagCreateAck => exact vsHandleTagCreateAck_passes h
    | tagDestroy => exact vsHandleTagDestroy_passes h
    | tagDestroyAck => exact vsHandleTagDestroyAck_passes h
    | tagSet => exact vsHandleTagSet_passes h
    | layerCreate => exact vsHandleLayerCreate_passes h
    | layerCreateAck => exact vsHandleLayerCreateAck_passes h
    | layerDestroy => exact vsHandleLayerDestroy_passes h
    | layerDestroyAck => exact vsHandleLayerDestroyAck_passes h
    | layerSubscribe => exact vsHandleLayerSubscribe_passes h
    | layerUnsubscribe => exact vsHandleLayerUnsubscribe_passes h
    | layerSetValue => exact vsHandleLayerSetValue_passes h
    | layerUnsetValue => exact vsHandleLayerUnsetValue_passes h
  rcases hcases with hsame | hpass
  · exact hsame
  · have htrue := hpass nodeId n node hid hn hnode
    rw [hfailed] at htrue
    cases htrue

end VSData

end Verse
