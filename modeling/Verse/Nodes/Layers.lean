import Verse.Nodes.Data

/-!
# Layers

`vs_layer.c`.  The layers of a node form trees: a layer may be created below
another one, and is destroyed with it.  A client that is subscribed to a node
follows its layers, and a client that is subscribed to a layer is sent its values.

The functions that go down a tree of layers have a bound on its depth; there are
never more layers than addresses in use.
-/

namespace Verse

open Lib

/-- `VRS_VALUE_TYPE_REAL64`. -/
def valueTypeReal64 : ℕ := 7

/-- The new value of an item: it is set where the item stands, or added. -/
def setItem (values : List (ℕ × List UInt8)) (itemId : ℕ) (value : List UInt8) :
    List (ℕ × List UInt8) :=
  if values.any fun item => item.1 == itemId then
    values.replaceF fun item => if item.1 = itemId then some (itemId, value) else none
  else values ++ [(itemId, value)]

namespace VSData

variable (d : VSData)

/-- Changes the layer at an address. -/
def modifyLayer (a : ℕ) (f : VSLayer → VSLayer) : VSData := d.setLayer a ((d.layer a).map f)

/-- `vs_layer_create` with the reserved id. -/
def vsLayerCreate (n : ℕ) (parent : Option ℕ) (dataType count type : ℕ) : Option (VSData × ℕ) := do
  let node ← d.node n
  let id ← freeEntityId node.layers 131072 node.firstFreeLayerId
  let layer : VSLayer :=
    { id, customType := type, dataType, numVecComp := count, parent, childLayers := []
      values := [], subs := [] }
  let a := d.next
  let d' := { d with next := d.next + 1 }
  let d' := parent.elim d' fun p =>
    d'.modifyLayer p fun l => { l with childLayers := l.childLayers ++ [a] }
  let d' := (d'.setLayer a (some layer)).setEntity a (some ⟨.reserved, []⟩)
  let node :=
    { node with layers := node.layers ++ [(id, a)], firstFreeLayerId := (id + 1) % 65536 }
  pure (d'.setNode n (some node), a)

theorem vsLayerCreate_eq {d d' : VSData} {n dataType count type a : ℕ} {parent : Option ℕ}
    (h : d.vsLayerCreate n parent dataType count type = some (d', a)) :
    ∃ node id layer layers, d.node n = some node ∧
      freeEntityId node.layers 131072 node.firstFreeLayerId = some id ∧
      layer.subs = [] ∧ layer.childLayers = [] ∧ layer.parent = parent ∧ a = d.next ∧
      (∀ b, b ≠ d.next → (layers b).map VSLayer.subs = (d.layer b).map VSLayer.subs) ∧
      layers d.next = some layer ∧ d' = { d with
        next := d.next + 1
        layer := layers
        entity := Function.update d.entity d.next (some ⟨.reserved, []⟩)
        node := Function.update d.node n (some { node with
          layers := node.layers ++ [(id, d.next)], firstFreeLayerId := (id + 1) % 65536 }) } := by
  simp only [vsLayerCreate, Option.bind_eq_bind, Option.bind_eq_some_iff] at h
  obtain ⟨node, hnode, id, hid, h⟩ := h
  obtain ⟨rfl, rfl⟩ := Prod.mk.inj (Option.some.inj h)
  cases parent with
  | none =>
      refine ⟨node, id, _, _, hnode, hid, rfl, rfl, rfl, rfl, fun b hb => ?_,
        Function.update_self _ _ _, rfl⟩
      rw [Function.update_of_ne hb]
      rfl
  | some p =>
      refine ⟨node, id, _, _, hnode, hid, rfl, rfl, rfl, rfl, fun b hb => ?_,
        Function.update_self _ _ _, rfl⟩
      rw [Function.update_of_ne hb]
      by_cases hbp : b = p
      · subst hbp
        cases hlayer : d.layer b <;> simp [modifyLayer, setLayer, hlayer]
      · simp [modifyLayer, setLayer, Function.update_of_ne hbp]

/-- `vs_layer_destroy`.  The layers below are left without a parent. -/
def vsLayerDestroy (n a : ℕ) : Option VSData := do
  let layer ← d.layer a
  let d' := layer.childLayers.foldl (fun d c =>
    d.modifyLayer c fun l => { l with parent := none }) d
  let d' := layer.parent.elim d' fun p =>
    d'.modifyLayer p fun l => { l with childLayers := l.childLayers.erase a }
  let d' := (d'.setLayer a none).setEntity a none
  d'.modifyNode n fun node => { node with layers := node.layers.removeItem layer.id }

/-- `vs_node_layers_destroy`, called when the node is freed. -/
def vsNodeLayersDestroy (node : VSNode) : VSData :=
  node.layers.foldl (fun d b => (d.setLayer b.2 none).setEntity b.2 none) d

/-- `vs_layer_unsubscribe`. -/
def vsLayerUnsubscribe (a s : ℕ) : Option VSData := do
  let layer ← d.layer a
  let found ← d.findSub s layer.subs
  match found with
  | none => pure d
  | some r => pure (d.setLayer a (some { layer with subs := layer.subs.erase r }))

/-- What a handler does with the layer a command names. -/
def withLayer (node : VSNode) (layerId : ℕ) (f : ℕ → VSLayer → Option VSData) : Option VSData :=
  match node.layers.findItem layerId with
  | none => some d
  | some a => (d.layer a).bind (f a)

/-- `vs_layer_send_create`. -/
def vsLayerSendCreate (r n a : ℕ) : Option VSData := do
  let node ← d.node n
  let layer ← d.layer a
  let cmd :=
    match layer.parent with
    | none => some reservedEntityId
    | some p => (d.layer p).map VSLayer.id
  d.sendCreate (fun _ => true) r a n (cmd.map fun parentId =>
    .layerCreate node.id parentId layer.id layer.dataType layer.numVecComp layer.customType)

/-- `vs_layer_send_destroy`, with the states of the layers below. -/
def vsLayerSendDestroy (n nodeId : ℕ) : ℕ → VSData → ℕ → Option VSData
  | 0, _, _ => none
  | fuel + 1, d, a => do
      let layer ← d.layer a
      let d' ← layer.childLayers.foldlM (fun d c => vsLayerSendDestroy n nodeId fuel d c) d
      d'.sendDestroy a n (.layerDestroy nodeId layer.id)

/-- `vs_handle_layer_create_ack`. -/
def vsHandleLayerCreateAck (s nodeId layerId : ℕ) : Option VSData :=
  d.withNode nodeId fun n node =>
    d.withLayer node layerId fun a layer =>
      d.createAck .layer a n s (.layerDestroy node.id layer.id) none

/-- `vs_handle_layer_create`.  It does not ask whether the subscribers can read the
node. -/
def vsHandleLayerCreate (s nodeId parentLayerId layerId dataType count type : ℕ) :
    Option VSData :=
  d.withNode nodeId fun n node =>
    let parent := node.layers.findItem parentLayerId
    if d.isCreated n ∧ (parentLayerId = reservedEntityId ∨ parent.isSome) ∧
        d.vsNodeCanWrite s node ∧ layerId = reservedEntityId ∧ 0 < dataType ∧
        dataType ≤ valueTypeReal64 ∧
        ¬ (node.layers.any fun b => (d.layer b.2).any fun layer => layer.customType == type) ∧
        node.layers.length ≤ maxEntityCount then do
      let parent := if parentLayerId = reservedEntityId then none else parent
      let (d', a) ← d.vsLayerCreate n parent dataType count type
      node.nodeSubs.foldlM (fun d r => d.vsLayerSendCreate r n a) (d'.setState a .creating)
    else some d

/-- `vs_handle_layer_destroy_ack`. -/
def vsHandleLayerDestroyAck (s nodeId layerId : ℕ) : Option VSData :=
  d.withNode nodeId fun n node =>
    d.withLayer node layerId fun a _ => d.destroyAck .layer a s fun d => d.vsLayerDestroy n a

/-- `vs_handle_layer_destroy`. -/
def vsHandleLayerDestroy (s nodeId layerId : ℕ) : Option VSData :=
  d.withNode nodeId fun n node =>
    if d.isCreated n ∧ d.vsNodeCanWrite s node then
      d.withLayer node layerId fun a _ =>
        if d.isCreated a then vsLayerSendDestroy n node.id d.next d a else some d
    else some d

/-- `vs_handle_layer_subscribe`. -/
def vsHandleLayerSubscribe (s nodeId layerId : ℕ) : Option VSData :=
  d.withNode nodeId fun n node =>
    if d.isCreated n ∧ d.vsNodeCanRead s node then do
      let subscribed ← d.findSub s node.nodeSubs
      match subscribed with
      | none => pure d
      | some r =>
          d.withLayer node layerId fun a layer => do
            if d.isCreated a then
              let found ← d.findSub s layer.subs
              if found.isSome then pure d
              else
                let d' := d.setLayer a (some { layer with subs := layer.subs ++ [r] })
                layer.values.foldlM (fun d item =>
                  d.push r (.layerSetValue node.id layer.id item.1 layer.dataType layer.numVecComp
                    item.2) a n) d'
            else pure d
    else some d

/-- `vs_handle_layer_unsubscribe`. -/
def vsHandleLayerUnsubscribe (s nodeId layerId : ℕ) : Option VSData :=
  d.withNode nodeId fun _ node =>
    d.withLayer node layerId fun a _ => d.vsLayerUnsubscribe a s

/-- `vs_handle_layer_set_value`. -/
def vsHandleLayerSetValue (s nodeId layerId itemId dataType count : ℕ) (value : List UInt8) :
    Option VSData :=
  d.withNode nodeId fun n node =>
    if d.vsNodeCanWrite s node then
      d.withLayer node layerId fun a layer =>
        if dataType = layer.dataType ∧ count = layer.numVecComp ∧ 0 < dataTypeSize layer.dataType then
          let layer' := { layer with values := setItem layer.values itemId value }
          layer.subs.foldlM (fun d r =>
            d.push r (.layerSetValue node.id layer.id itemId layer.dataType layer.numVecComp value)
              a n) (d.setLayer a (some layer'))
        else some d
    else some d

/-- `vs_layer_unset_value`. -/
def vsLayerUnsetValue (n nodeId itemId : ℕ) : ℕ → VSData → ℕ → Bool → Option VSData
  | 0, _, _, _ => none
  | fuel + 1, d, a, sendCommand => do
      let layer ← d.layer a
      if layer.values.any fun item => item.1 == itemId then
        let subs := if sendCommand then layer.subs else []
        let d' ← subs.foldlM (fun d r => d.push r (.layerUnsetValue nodeId layer.id itemId) a n) d
        let values := layer.values.eraseP fun item => item.1 == itemId
        let d' := d'.setLayer a (some { layer with values })
        layer.childLayers.foldlM (fun d c => vsLayerUnsetValue n nodeId itemId fuel d c false) d'
      else pure d

/-- `vs_handle_layer_unset_value`. -/
def vsHandleLayerUnsetValue (s nodeId layerId itemId : ℕ) : Option VSData :=
  d.withNode nodeId fun n node =>
    if d.vsNodeCanWrite s node then
      d.withLayer node layerId fun a _ => vsLayerUnsetValue n node.id itemId d.next d a true
    else some d

end VSData

end Verse
