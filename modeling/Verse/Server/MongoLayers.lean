import Verse.Nodes.SysNodes
import Verse.Server.MongoTags

/-!
# Layers that were saved are loaded again

Layers are loaded in the order of the list of the node, in which a layer stands behind its
parent, so that the parent is found by its id.  The values of a layer come back as they were
except that a 64-bit value is saved as an `int`, and read as a `long` that has the sign of it.
-/

namespace Verse.Mongo

open Lib

section Layers

variable {lib : BsonLib} (hlib : lib.Reads)

/-! ## One layer -/

/-- What is to survive of a layer; the parent is given by its id. -/
structure LayerContent where
  id : ℕ
  dataType : ℕ
  customType : ℕ
  numVecComp : ℕ
  parent : Option ℕ
  values : List (ℕ × List UInt8)
  deriving DecidableEq, Repr

/-- The id of the parent of a layer, if the parent is in memory. -/
def parentId (d : VSData) (layer : VSLayer) : Option (Option ℕ) :=
  match layer.parent with
  | none => some none
  | some p => (d.layer p).map fun parent => some parent.id

def layerContent (d : VSData) (layer : VSLayer) : Option LayerContent :=
  (parentId d layer).map fun parent =>
    ⟨layer.id, layer.dataType, layer.customType, layer.numVecComp, parent, layer.values⟩

/-- A layer of integers as `vs_layer_create` makes it, whose items have the memory of their
values. -/
structure StoredLayer (layer : VSLayer) : Prop where
  id_lt : layer.id < reservedEntityId
  customType_lt : layer.customType < 2 ^ 16
  numVecComp_lt : layer.numVecComp < 2 ^ 8
  type : IsUint layer.dataType
  values : ∀ item ∈ layer.values, item.1 < 2 ^ 32 ∧
    item.2.length = layer.numVecComp * dataTypeSize layer.dataType

/-- What becomes of the values of an item. -/
def rereadItem (layer : VSLayer) (item : ℕ × List UInt8) : ℕ × List UInt8 :=
  (item.1, ((elements (dataTypeSize layer.dataType) layer.numVecComp item.2).map
    (reread layer.dataType)).flatten)

/-- The 64-bit values of a layer fit into an `int`. -/
def FitsInts (layer : VSLayer) : Prop :=
  ∀ item ∈ layer.values, ∀ value ∈ elements (dataTypeSize layer.dataType) layer.numVecComp item.2,
    layer.dataType = 4 → FitsInt (leVal value)

/-- Values of one size that are put together again. -/
theorem flatten_map_eq_iff {width : ℕ} {items : List (List UInt8)} {f : List UInt8 → List UInt8}
    (hitems : ∀ item ∈ items, item.length = width) (hf : ∀ item ∈ items, (f item).length = width) :
    (items.map f).flatten = items.flatten ↔ ∀ item ∈ items, f item = item := by
  induction items with
  | nil => simp
  | cons item rest ih =>
      have hlen : (f item).length = item.length :=
        (hf item (by simp)).trans (hitems item (by simp)).symm
      have ih := ih (fun e he => hitems e (by simp [he])) fun e he => hf e (by simp [he])
      rw [List.map_cons, List.flatten_cons, List.flatten_cons, List.forall_mem_cons, ← ih]
      exact ⟨fun h => List.append_inj h hlen, fun h => by rw [h.1, h.2]⟩

theorem rereadItem_eq_iff {layer : VSLayer} {item : ℕ × List UInt8}
    (hlen : item.2.length = layer.numVecComp * dataTypeSize layer.dataType) :
    rereadItem layer item = item ↔
      ∀ value ∈ elements (dataTypeSize layer.dataType) layer.numVecComp item.2,
        layer.dataType = 4 → FitsInt (leVal value) := by
  have hitems : ∀ value ∈ elements (dataTypeSize layer.dataType) layer.numVecComp item.2,
      value.length = dataTypeSize layer.dataType := fun value => length_of_mem_elements hlen
  have hflat := flatten_map_eq_iff hitems fun value hvalue => length_reread (hitems value hvalue)
  rw [flatten_elements hlen] at hflat
  constructor
  · intro h value hvalue
    exact (reread_eq_iff (hitems value hvalue)).mp (hflat.mp (congrArg Prod.snd h) value hvalue)
  · intro h
    exact Prod.ext rfl (hflat.mpr fun value hvalue =>
      (reread_eq_iff (hitems value hvalue)).mpr (h value hvalue))

/-- The values of a layer survive if they fit. -/
theorem map_rereadItem_eq_iff {layer : VSLayer} (h : StoredLayer layer) :
    layer.values.map (rereadItem layer) = layer.values ↔ FitsInts layer := by
  have hmap : layer.values.map (rereadItem layer) = layer.values ↔
      ∀ item ∈ layer.values, rereadItem layer item = item := by
    conv_lhs => rw [← List.map_id layer.values, List.map_map]
    exact List.map_inj_left
  rw [hmap]
  exact forall₂_congr fun item hitem => rereadItem_eq_iff (h.values item hitem).2

include hlib in
theorem loadItem_saved {layer : VSLayer} (h : StoredLayer layer) {item : ℕ × List UInt8}
    (hitem : item ∈ layer.values) :
    loadItem lib layer.dataType layer.numVecComp (numbered
      ((elements (dataTypeSize layer.dataType) layer.numVecComp item.2).filterMap
        (layerItem lib layer.dataType))) = (rereadItem layer item).2 := by
  have hvalues : ∀ value ∈ elements (dataTypeSize layer.dataType) layer.numVecComp item.2,
      value.length = dataTypeSize layer.dataType :=
    fun value => length_of_mem_elements (h.values item hitem).2
  have hsaved : (elements (dataTypeSize layer.dataType) layer.numVecComp item.2).filterMap
      (layerItem lib layer.dataType) =
      (elements (dataTypeSize layer.dataType) layer.numVecComp item.2).map
        fun value => appendInt (leVal value) := by
    rw [← List.filterMap_eq_map]
    exact List.filterMap_congr fun value _ => layerItem_eq h.type value
  have hcount : ((elements (dataTypeSize layer.dataType) layer.numVecComp item.2).map
      (reread layer.dataType)).length = layer.numVecComp := by
    rw [List.length_map, length_elements]
  have htake : ((elements (dataTypeSize layer.dataType) layer.numVecComp item.2).map
      fun value => appendInt (leVal value)).take layer.numVecComp =
      (elements (dataTypeSize layer.dataType) layer.numVecComp item.2).map
        fun value => appendInt (leVal value) :=
    List.take_of_length_le (by rw [List.length_map, length_elements])
  have hload : ((elements (dataTypeSize layer.dataType) layer.numVecComp item.2).map
      fun value => appendInt (leVal value)).map (layerLoadItem lib layer.dataType) =
      (elements (dataTypeSize layer.dataType) layer.numVecComp item.2).map (reread layer.dataType) := by
    rw [List.map_map]
    exact List.map_congr_left fun value hvalue =>
      layerLoadItem_appendInt hlib h.type (hvalues value hvalue)
  rw [loadItem, map_snd_numbered, hsaved, htake, hload, storeItems_replicate ?_ hcount, rereadItem]
  intro value hvalue
  obtain ⟨old, hold, rfl⟩ := List.mem_map.mp hvalue
  exact length_reread (hvalues old hold)

include hlib in
/-- The loop over the items. -/
theorem loadItems_eq {layer : VSLayer} (h : StoredLayer layer) {items : List (ℕ × List UInt8)}
    (hitems : ∀ item ∈ items, item ∈ layer.values) {new : VSLayer}
    (htype : new.dataType = layer.dataType) (hcomp : new.numVecComp = layer.numVecComp) :
    loadItems lib (items.map (saveItem lib layer)) new =
      some { new with values := new.values ++ items.map (rereadItem layer) } := by
  induction items generalizing new with
  | nil =>
      rw [List.map_nil, List.map_nil, List.append_nil]
      rfl
  | cons item rest ih =>
      have hmem := hitems item (by simp)
      have hload := loadItem_saved hlib h hmem
      rw [← htype, ← hcomp] at hload
      rw [List.map_cons, saveItem, loadItems, scan_ofInt le_rfl (h.values item hmem).1,
        Option.bind_eq_bind, Option.bind_some, ← htype, ← hcomp, hload]
      have hrest := @ih (fun e he => hitems e (by simp [he]))
        { new with values := new.values ++ [rereadItem layer item] } htype hcomp
      refine hrest.trans ?_
      rw [List.append_assoc]
      rfl

/-! ## The document of a layer -/

/-- The document that `vs_mongo_layer_add_new` makes. -/
def layerDoc (lib : BsonLib) (nodeId : ℕ) (layer : VSLayer) (parent : Option ℕ) (version : Version) :
    Doc :=
  [(.nodeId, appendInt nodeId), (.layerId, appendInt layer.id),
    (.customType, appendInt layer.customType), (.dataType, appendInt layer.dataType),
    (.vecSize, appendInt layer.numVecComp), (.currentVersion, appendInt version.number)] ++
    parent.elim [] (fun id => [(Key.parentLayerId, appendInt id)]) ++
    [(.versions, .object [vsMongoLayerSaveVersion lib layer version.crc32 lastVersion])]

theorem vsMongoLayerAddNew_eq {d : VSData} {node : VSNode} {layer : VSLayer} {parent : Option ℕ}
    (hparent : parentId d layer = some parent) (version : Version) :
    vsMongoLayerAddNew lib d node layer version = some (layerDoc lib node.id layer parent version) := by
  unfold parentId at hparent
  unfold vsMongoLayerAddNew
  cases hp : layer.parent with
  | none =>
      rw [hp] at hparent
      obtain rfl := Option.some.inj hparent
      rfl
  | some p =>
      rw [hp] at hparent
      obtain ⟨l, hl, rfl⟩ := Option.map_eq_some_iff.mp hparent
      simp only [hl, Option.map_some]
      rfl

include hlib in
theorem findUint32_eq {doc : Doc} {key : Key} {v : ℕ} (hdoc : doc.find key = some (appendInt v))
    (h : v < 2 ^ 32) : findUint32 lib doc key = v := by
  have hfind : findInt lib doc key = some ((v : ℤ).bmod (2 ^ 32)) := by
    rw [findInt, hdoc]
    exact congrArg some (hlib.int _)
  rw [findUint32, hfind, Option.getD_some, emod_bmod le_rfl h]

theorem find_versions (nodeId : ℕ) (layer : VSLayer) (parent : Option ℕ) (version : Version) :
    findVersion (layerDoc lib nodeId layer parent version) =
      some [(.crc32, appendInt version.crc32), (.values, .object (layer.values.map (saveItem lib layer)))] := by
  have hversion : Doc.find [vsMongoLayerSaveVersion lib layer version.crc32 lastVersion] lastVersion =
      some (.object [(.crc32, appendInt version.crc32),
        (.values, .object (layer.values.map (saveItem lib layer)))]) := by
    simp [Doc.find, vsMongoLayerSaveVersion]
  have hversions : (layerDoc lib nodeId layer parent version).find .versions =
      some (.object [vsMongoLayerSaveVersion lib layer version.crc32 lastVersion]) := by
    cases parent <;> rfl
  rw [findVersion, hversions]
  simp only [hversion]

include hlib in
theorem find_parent {nodeId : ℕ} {layer : VSLayer} {parent : Option ℕ} {version : Version}
    (hlt : ∀ id ∈ parent, id < 2 ^ 16) (table : HashTable) :
    ((findInt lib (layerDoc lib nodeId layer parent version) .parentLayerId).bind fun v =>
      table.findItem (v % 2 ^ 16).toNat) = parent.bind table.findItem := by
  cases parent with
  | none => rfl
  | some id =>
      have hfind : findInt lib (layerDoc lib nodeId layer (some id) version) .parentLayerId =
          some ((id : ℤ).bmod (2 ^ 32)) := congrArg some (hlib.int _)
      rw [hfind, Option.bind_some, Option.bind_some, emod_bmod (by decide) (hlt id rfl)]

/-! ## Layers that are created -/

/-- Another list of child layers. -/
def SameButChildren (d d' : VSData) (a : ℕ) : Prop :=
  (d'.layer a).map (fun l => { l with childLayers := [] }) =
    (d.layer a).map fun l => { l with childLayers := [] }

theorem SameButChildren.of_eq {d d' : VSData} {a : ℕ} (h : d'.layer a = d.layer a) :
    SameButChildren d d' a := by
  rw [SameButChildren, h]

theorem sameButChildren_modifyLayer (d : VSData) (p a : ℕ) (children : List ℕ → List ℕ) :
    SameButChildren d (d.modifyLayer p fun l => { l with childLayers := children l.childLayers }) a := by
  by_cases ha : a = p
  · subst ha
    have hlayer : (d.modifyLayer a fun l => { l with childLayers := children l.childLayers }).layer a =
        (d.layer a).map fun l => { l with childLayers := children l.childLayers } :=
      Function.update_self _ _ _
    rw [SameButChildren, hlayer, Option.map_map]
    rfl
  · exact SameButChildren.of_eq (Function.update_of_ne ha _ _)

/-- A layer without values, as `vs_layer_create` makes it. -/
def newLayer (parent : Option ℕ) (id dataType count type : ℕ) : VSLayer where
  id := id
  customType := type
  dataType := dataType
  numVecComp := count
  parent := parent
  childLayers := []
  values := []
  subs := []

theorem vsLayerCreate_spec {d : VSData} {n id : ℕ} {node : VSNode} (hnode : d.node n = some node)
    (hid : id ≠ reservedEntityId) (hfree : node.layers.findItem id = none) (parent : Option ℕ)
    (dataType count type : ℕ) :
    ∃ d' node', vsLayerCreate d n parent id dataType count type = some (d', some d.next) ∧
      d'.next = d.next + 1 ∧ d'.node n = some node' ∧ node'.id = node.id ∧
      node'.layers = node.layers ++ [(id, d.next)] ∧
      d'.layer d.next = some (newLayer parent id dataType count type) ∧
      ∀ a, a ≠ d.next → SameButChildren d d' a := by
  have hnot : (node.layers.findItem id).isSome = false := by rw [hfree]; rfl
  rw [vsLayerCreate, if_neg hid, hnode, Option.bind_eq_bind, Option.bind_some]
  simp only [hnot, Bool.false_eq_true, if_false]
  refine ⟨_, _, rfl, ?_, Function.update_self _ _ _, rfl, rfl, Function.update_self _ _ _, ?_⟩
  · cases parent <;> rfl
  · intro a ha
    cases parent with
    | none => exact SameButChildren.of_eq (Function.update_of_ne ha _ _)
    | some p =>
        refine Eq.trans (congrArg (Option.map _) (Function.update_of_ne ha _ _)) ?_
        exact sameButChildren_modifyLayer { d with next := d.next + 1 } p a (· ++ [d.next])

/-! ## The layers of a node -/

/-- A layer that was loaded, in the list of the node. -/
structure LayerHeld (d : VSData) (b : ℕ × ℕ) (c : LayerContent) : Prop where
  lt : b.2 < d.next
  key : b.1 = c.id
  content : ∃ layer, d.layer b.2 = some layer ∧ layerContent d layer = some c ∧
    ∀ p ∈ layer.parent, p < d.next

theorem SameButChildren.layer {d d' : VSData} {a : ℕ} (h : SameButChildren d d' a) {layer : VSLayer}
    (hlayer : d.layer a = some layer) :
    ∃ children, d'.layer a = some { layer with childLayers := children } := by
  rw [SameButChildren, hlayer, Option.map_some, Option.map_eq_some_iff] at h
  obtain ⟨layer', hlayer', heq⟩ := h
  refine ⟨layer'.childLayers, hlayer'.trans (congrArg some ?_)⟩
  obtain ⟨⟩ := layer
  obtain ⟨⟩ := layer'
  cases heq
  rfl

theorem parentId_congr {d d' : VSData} {layer : VSLayer}
    (h : ∀ p ∈ layer.parent, SameButChildren d d' p) : parentId d' layer = parentId d layer := by
  unfold parentId
  cases hp : layer.parent with
  | none => rfl
  | some p =>
      have hmap := congrArg (Option.map fun l : VSLayer => some l.id) (h p hp)
      rw [Option.map_map, Option.map_map] at hmap
      exact hmap

theorem LayerHeld.mono {d d' : VSData} {b : ℕ × ℕ} {c : LayerContent} (h : LayerHeld d b c)
    (hnext : d.next ≤ d'.next) (hsame : ∀ a < d.next, SameButChildren d d' a) :
    LayerHeld d' b c := by
  obtain ⟨layer, hlayer, hcontent, hparent⟩ := h.content
  obtain ⟨children, hlayer'⟩ := (hsame b.2 h.lt).layer hlayer
  refine ⟨lt_of_lt_of_le h.lt hnext, h.key, _, hlayer', ?_, fun p hp =>
    lt_of_lt_of_le (hparent p hp) hnext⟩
  have hid : parentId d' { layer with childLayers := children } = parentId d layer :=
    parentId_congr fun p hp => hsame p (hparent p hp)
  rw [layerContent, hid]
  exact hcontent

/-- What was loaded so far. -/
def HoldsLayers (d : VSData) (n nodeId : ℕ) (contents : List LayerContent) : Prop :=
  ∃ node, d.node n = some node ∧ node.id = nodeId ∧
    List.Forall₂ (LayerHeld d) node.layers contents

/-- The parent is found where it was loaded. -/
theorem findItem_of_forall₂ {d : VSData} {table : HashTable} {contents : List LayerContent}
    (h : List.Forall₂ (LayerHeld d) table contents) {id : ℕ} (hid : id ∈ contents.map LayerContent.id) :
    ∃ a layer, table.findItem id = some a ∧ a < d.next ∧ d.layer a = some layer ∧ layer.id = id := by
  induction h with
  | nil => cases hid
  | @cons b c _ _ hbc _ ih =>
      by_cases hkey : b.1 = id
      · obtain ⟨layer, hlayer, hcontent, -⟩ := hbc.content
        obtain ⟨parent, -, rfl⟩ := Option.map_eq_some_iff.mp hcontent
        refine ⟨b.2, layer, ?_, hbc.lt, hlayer, hbc.key.symm.trans hkey⟩
        rw [HashTable.findItem, List.find?_cons_of_pos (by simpa using hkey), Option.map_some]
      · have hrest : id ∈ _ := (List.mem_cons.mp hid).resolve_left fun heq =>
          hkey (hbc.key.trans heq.symm)
        obtain ⟨a, layer, hfind, hlayer⟩ := ih hrest
        refine ⟨a, layer, ?_, hlayer⟩
        rwa [HashTable.findItem, List.find?_cons_of_neg (by simpa using hkey)]

theorem findItem_eq_none {d : VSData} {table : HashTable} {contents : List LayerContent}
    (h : List.Forall₂ (LayerHeld d) table contents) {id : ℕ} (hid : id ∉ contents.map LayerContent.id) :
    table.findItem id = none := by
  induction h with
  | nil => rfl
  | @cons b c _ _ hbc _ ih =>
      rw [List.map_cons, List.mem_cons, not_or] at hid
      have hkey : b.1 ≠ id := fun heq => hid.1 (heq.symm.trans hbc.key)
      rw [HashTable.findItem, List.find?_cons_of_neg (by simpa using hkey)]
      exact ih hid.2

/-- The address of a parent that was loaded. -/
theorem exists_parent {d : VSData} {table : HashTable} {contents : List LayerContent}
    (h : List.Forall₂ (LayerHeld d) table contents) {parent : Option ℕ}
    (hparent : ∀ id ∈ parent, id ∈ contents.map LayerContent.id) :
    ∃ address, parent.bind table.findItem = address ∧ (∀ p ∈ address, p < d.next) ∧
      ∀ layer : VSLayer, layer.parent = address → parentId d layer = some parent := by
  cases parent with
  | none =>
      refine ⟨none, rfl, by simp, fun layer hlayer => ?_⟩
      rw [parentId, hlayer]
  | some id =>
      obtain ⟨a, l, hfind, hlt, hl, hid⟩ := findItem_of_forall₂ h (hparent id rfl)
      refine ⟨some a, hfind, ?_, fun layer hlayer => ?_⟩
      · intro p hp
        rwa [← Option.mem_some.mp hp]
      · simp only [parentId, hlayer, hl, Option.map_some, hid]

/-- `vs_mongo_layer_load_linked` where every call goes through. -/
theorem vsMongoLayerLoadLinked_eq {d d' : VSData} {n id dataType count type a : ℕ} {node : VSNode}
    {doc version : Doc} {parent : Option ℕ} {new new' : VSLayer} (hnode : d.node n = some node)
    (hnodeId : findUint32 lib doc .nodeId = node.id) (hid : findUint32 lib doc .layerId = id)
    (hversion : findUint32 lib doc .currentVersion < 2 ^ 32 - 1)
    (htype : findUint32 lib doc .dataType = dataType) (htype_lt : dataType < 2 ^ 8)
    (hcount : findUint32 lib doc .vecSize = count) (hcount_lt : count < 2 ^ 8)
    (hcustom : findUint32 lib doc .customType = type) (hcustom_lt : type < 2 ^ 16)
    (hparent : ((findInt lib doc .parentLayerId).bind fun v =>
      node.layers.findItem (v % 2 ^ 16).toNat) = parent)
    (hcreate : vsLayerCreate d n parent id dataType count type = some (d', some a))
    (hfind : findVersion doc = some version) (hnew : d'.layer a = some new)
    (hload : vsMongoLayerLoadData lib new version = some new') :
    vsMongoLayerLoadLinked lib d n id doc =
      some ((d'.setState a .created).setLayer a (some new')) := by
  have hfound : findUint32 lib doc .nodeId = node.id ∧ findUint32 lib doc .layerId = id := ⟨hnodeId, hid⟩
  have hcomplete : findUint32 lib doc .currentVersion ≠ 2 ^ 32 - 1 ∧
      findUint32 lib doc .customType ≠ 2 ^ 32 - 1 ∧ findUint32 lib doc .dataType ≠ 2 ^ 32 - 1 ∧
      findUint32 lib doc .vecSize ≠ 2 ^ 32 - 1 := by omega
  have hcall : vsLayerCreate d n parent id (findUint32 lib doc .dataType % 2 ^ 8)
      (findUint32 lib doc .vecSize % 2 ^ 8) (findUint32 lib doc .customType % 2 ^ 16) =
      some (d', some a) := by
    rw [htype, hcount, hcustom, Nat.mod_eq_of_lt htype_lt, Nat.mod_eq_of_lt hcount_lt,
      Nat.mod_eq_of_lt hcustom_lt, hcreate]
  have hnew' : (d'.setState a .created).layer a = some new := hnew
  rw [vsMongoLayerLoadLinked, hnode, Option.bind_eq_bind, Option.bind_some, if_pos hfound]
  dsimp only
  rw [if_pos hcomplete, hparent, hcall, Option.bind_eq_bind, Option.bind_some]
  dsimp only
  rw [hfind]
  dsimp only
  rw [hnew', Option.bind_eq_bind, Option.bind_some, hload, Option.bind_some]
  rfl

include hlib in
/-- What was saved of a layer becomes one more layer. -/
theorem vsMongoLayerLoadLinked_layerDoc {d : VSData} {n nodeId : ℕ} (hnodeId : nodeId < 2 ^ 32)
    {contents : List LayerContent} (hd : HoldsLayers d n nodeId contents) {layer : VSLayer}
    (h : StoredLayer layer) (hnew : layer.id ∉ contents.map LayerContent.id) {parent : Option ℕ}
    (hparent : ∀ id ∈ parent, id < 2 ^ 16 ∧ id ∈ contents.map LayerContent.id) (version : Version) :
    ∃ d', vsMongoLayerLoadLinked lib d n layer.id (layerDoc lib nodeId layer parent version) = some d' ∧
      HoldsLayers d' n nodeId (contents ++
        [⟨layer.id, layer.dataType, layer.customType, layer.numVecComp, parent,
          layer.values.map (rereadItem layer)⟩]) := by
  obtain ⟨node, hnode, hid, hall⟩ := hd
  obtain ⟨address, haddress, haddress_lt, hparentId⟩ := exists_parent hall fun id hmem => (hparent id hmem).2
  have hid16 : layer.id < 2 ^ 16 := lt_trans h.id_lt (by decide)
  have htype_lt : layer.dataType < 2 ^ 8 := by
    rcases h.type with hone | htwo | hthree | hfour <;> omega
  have hcomp_lt := h.numVecComp_lt
  have hcustom_lt := h.customType_lt
  have hversion_lt := version.lt
  have hfields : findUint32 lib (layerDoc lib nodeId layer parent version) .nodeId = nodeId ∧
      findUint32 lib (layerDoc lib nodeId layer parent version) .layerId = layer.id ∧
      findUint32 lib (layerDoc lib nodeId layer parent version) .customType = layer.customType ∧
      findUint32 lib (layerDoc lib nodeId layer parent version) .dataType = layer.dataType ∧
      findUint32 lib (layerDoc lib nodeId layer parent version) .vecSize = layer.numVecComp ∧
      findUint32 lib (layerDoc lib nodeId layer parent version) .currentVersion = version.number :=
    ⟨findUint32_eq hlib rfl hnodeId, findUint32_eq hlib rfl (by omega),
      findUint32_eq hlib rfl (by omega), findUint32_eq hlib rfl (by omega),
      findUint32_eq hlib rfl (by omega), findUint32_eq hlib rfl (by omega)⟩
  obtain ⟨hfnode, hflayer, hfcustom, hftype, hfcomp, hfversion⟩ := hfields
  obtain ⟨d', node', hcreate, hnext, hnode', hid', hlayers', hlayer', hothers⟩ :=
    vsLayerCreate_spec hnode h.id_lt.ne (findItem_eq_none hall hnew) address layer.dataType
      layer.numVecComp layer.customType
  have hload : vsMongoLayerLoadData lib
      (newLayer address layer.id layer.dataType layer.numVecComp layer.customType)
      [(.crc32, appendInt version.crc32), (.values, .object (layer.values.map (saveItem lib layer)))] =
      some { newLayer address layer.id layer.dataType layer.numVecComp layer.customType with
        values := layer.values.map (rereadItem layer) } :=
    loadItems_eq hlib h (fun _ hitem => hitem) rfl rfl
  refine ⟨_, vsMongoLayerLoadLinked_eq hnode (hfnode.trans hid.symm) hflayer (hfversion ▸ hversion_lt)
    hftype htype_lt hfcomp hcomp_lt hfcustom hcustom_lt
    ((find_parent hlib (fun id hmem => (hparent id hmem).1) node.layers).trans haddress) hcreate
    (find_versions nodeId layer parent version) hlayer' hload, node', hnode', hid'.trans hid, ?_⟩
  have hsame : ∀ a < d.next, SameButChildren d ((d'.setState d.next .created).setLayer d.next
      (some { newLayer address layer.id layer.dataType layer.numVecComp layer.customType with
        values := layer.values.map (rereadItem layer) })) a := by
    intro a ha
    refine Eq.trans (congrArg (Option.map _) (Function.update_of_ne ha.ne _ _)) ?_
    exact hothers a ha.ne
  rw [hlayers']
  refine List.rel_append (hall.imp fun b c hbc => hbc.mono (hnext ▸ Nat.le_succ d.next) hsame)
    (List.Forall₂.cons ⟨?_, rfl, _, Function.update_self _ _ _, ?_, ?_⟩ List.Forall₂.nil)
  · show d.next < d'.next
    omega
  · rw [layerContent, parentId_congr fun p hp => hsame p (haddress_lt p hp), hparentId _ rfl]
    rfl
  · intro p hp
    exact lt_of_lt_of_le (haddress_lt p hp) (hnext ▸ Nat.le_succ d.next)

/-! ## All layers of a node -/

/-- The layers of a node. -/
def layerContents (d : VSData) (n : ℕ) : Option (List LayerContent) := do
  let node ← d.node n
  node.layers.mapM fun b => (d.layer b.2).bind (layerContent d)

/-- The layers of a node stand in memory as the server makes them: no id is used twice, and a
layer stands behind its parent, which was there when it was created. -/
structure StoredLayers (d : VSData) (n : ℕ) (layers : List VSLayer) : Prop where
  memory : ∃ node, d.node n = some node ∧ node.id < 2 ^ 32 ∧
    List.Forall₂ (fun b layer => d.layer b.2 = some layer) node.layers layers
  stored : ∀ layer ∈ layers, StoredLayer layer
  ids : (layers.map VSLayer.id).Nodup
  parents : ∀ front layer back, layers = front ++ layer :: back →
    ∀ p ∈ layer.parent, ∃ parent ∈ front, d.layer p = some parent

/-- **Layers survive**: they can be saved, and from what was saved every node of that id without
layers gets the same layers. -/
def LayersSurvive (lib : BsonLib) (d : VSData) (n : ℕ) : Prop :=
  ∀ version, ∃ docs, saveLayers lib d n version = some docs ∧
    ∀ node d' n' node', d.node n = some node → d'.node n' = some node' → node'.id = node.id →
      node'.layers = [] →
        ∃ d'', loadLayers lib n' docs d' = some d'' ∧ layerContents d'' n' = layerContents d n

/-- A layer with other values, and with the id of its parent. -/
def contentWith (d : VSData) (values : VSLayer → List (ℕ × List UInt8)) (layer : VSLayer) :
    LayerContent :=
  ⟨layer.id, layer.dataType, layer.customType, layer.numVecComp, (parentId d layer).getD none,
    values layer⟩

theorem HoldsLayers.layerContents {d : VSData} {n nodeId : ℕ} {contents : List LayerContent}
    (h : HoldsLayers d n nodeId contents) : layerContents d n = some contents := by
  obtain ⟨node, hnode, -, hall⟩ := h
  have hmap := mapM_eq_of_forall₂ (f := fun b => (d.layer b.2).bind (layerContent d)) (g := some)
    hall fun b c hbc => by
      obtain ⟨layer, hlayer, hcontent, -⟩ := hbc.content
      rw [hlayer, Option.bind_some, hcontent]
  rw [Mongo.layerContents, hnode, Option.bind_eq_bind, Option.bind_some, hmap]
  exact (mapM_eq_some_map (f := some) (g := id) fun _ _ => rfl).trans (by rw [List.map_id])

namespace StoredLayers

variable {d : VSData} {n : ℕ} {layers : List VSLayer} (h : StoredLayers d n layers)

include h

/-- Every layer has its parent in memory, in front of it. -/
theorem parentId_eq {front back : List VSLayer} {layer : VSLayer} (hsplit : layers = front ++ layer :: back) :
    ∃ parent, parentId d layer = some parent ∧
      ∀ id ∈ parent, id < 2 ^ 16 ∧ id ∈ front.map VSLayer.id := by
  unfold parentId
  cases hp : layer.parent with
  | none => exact ⟨none, rfl, by simp⟩
  | some p =>
      obtain ⟨parent, hmem, hparent⟩ := h.parents front layer back hsplit p hp
      have hstored := h.stored parent (by rw [hsplit]; exact List.mem_append_left _ hmem)
      refine ⟨some parent.id, by simp only [hparent, Option.map_some], fun id hid => ?_⟩
      obtain rfl := Option.mem_some.mp hid
      exact ⟨lt_trans hstored.id_lt (by decide), List.mem_map_of_mem hmem⟩

theorem exists_parentId {layer : VSLayer} (hlayer : layer ∈ layers) :
    ∃ parent, parentId d layer = some parent := by
  obtain ⟨front, back, hsplit⟩ := List.append_of_mem hlayer
  obtain ⟨parent, hparent, -⟩ := h.parentId_eq hsplit
  exact ⟨parent, hparent⟩

theorem layerContents : layerContents d n = some (layers.map (contentWith d VSLayer.values)) := by
  obtain ⟨node, hnode, -, hall⟩ := h.memory
  have hmap := mapM_eq_of_forall₂ (f := fun b => (d.layer b.2).bind (layerContent d))
    (g := layerContent d) hall fun b layer hb => by rw [hb, Option.bind_some]
  rw [Mongo.layerContents, hnode, Option.bind_eq_bind, Option.bind_some, hmap]
  refine mapM_eq_some_map fun layer hlayer => ?_
  obtain ⟨parent, hparent⟩ := h.exists_parentId hlayer
  rw [layerContent, contentWith, hparent]
  rfl

end StoredLayers

/-- A layer and its document. -/
def SavedAs (lib : BsonLib) (d : VSData) (nodeId : ℕ) (layer : VSLayer) (field : Key × Doc) : Prop :=
  ∃ parent version, parentId d layer = some parent ∧
    field = (Key.ofInt layer.id, layerDoc lib nodeId layer parent version)

/-- The loop over the layers goes through. -/
theorem StoredLayers.save {d : VSData} {n : ℕ} {layers : List VSLayer} (h : StoredLayers d n layers)
    {node : VSNode} (hnode : d.node n = some node) (version : ℕ → Version) :
    ∃ docs, saveLayers lib d n version = some docs ∧
      List.Forall₂ (SavedAs lib d node.id) layers docs := by
  obtain ⟨node', hnode', -, hall⟩ := h.memory
  obtain rfl : node = node' := Option.some.inj (hnode.symm.trans hnode')
  have hparents : ∀ layer ∈ layers, ∃ parent, parentId d layer = some parent :=
    fun layer hlayer => h.exists_parentId hlayer
  rw [saveLayers, hnode, Option.bind_eq_bind, Option.bind_some]
  refine exists_mapM_of_forall₂ ((List.forall₂_and_left _ _).mpr ⟨hparents, hall.flip⟩).flip ?_
  rintro b layer ⟨⟨parent, hparent⟩, hlayer⟩
  refine ⟨(Key.ofInt layer.id, layerDoc lib node.id layer parent (version b.2)), ?_, parent, _, hparent, rfl⟩
  rw [hlayer, Option.bind_eq_bind, Option.bind_some, vsMongoLayerAddNew_eq hparent,
    Option.bind_eq_bind, Option.bind_some]
  rfl

include hlib in
/-- The loop over the documents. -/
theorem loadLayers_eq {d : VSData} {n : ℕ} {layers : List VSLayer} (h : StoredLayers d n layers)
    {nodeId : ℕ} (hnodeId : nodeId < 2 ^ 32) {front rest : List VSLayer} (hsplit : layers = front ++ rest)
    {docs : List (Key × Doc)} (hdocs : List.Forall₂ (SavedAs lib d nodeId) rest docs) {d' : VSData} {n' : ℕ}
    (hd' : HoldsLayers d' n' nodeId (front.map (contentWith d fun l => l.values.map (rereadItem l)))) :
    ∃ d'', loadLayers lib n' docs d' = some d'' ∧ HoldsLayers d'' n' nodeId
      (layers.map (contentWith d fun l => l.values.map (rereadItem l))) := by
  induction hdocs generalizing front d' with
  | nil =>
      rw [List.append_nil] at hsplit
      exact ⟨d', rfl, hsplit ▸ hd'⟩
  | @cons layer field rest docs hsaved _ ih =>
      obtain ⟨parent, version, hparent, rfl⟩ := hsaved
      obtain ⟨parent', hparent', hfront⟩ := h.parentId_eq hsplit
      obtain rfl : parent = parent' := Option.some.inj (hparent.symm.trans hparent')
      have hstored := h.stored layer (by rw [hsplit]; simp)
      have hids : (front.map (contentWith d fun l => l.values.map (rereadItem l))).map LayerContent.id =
          front.map VSLayer.id := by
        rw [List.map_map]
        rfl
      have hnew : layer.id ∉ front.map VSLayer.id := by
        have hnodup := h.ids
        rw [hsplit, List.map_append, List.map_cons, List.nodup_append] at hnodup
        exact fun hmem => hnodup.2.2 _ hmem _ (by simp) rfl
      obtain ⟨d₁, hload, hd₁⟩ := vsMongoLayerLoadLinked_layerDoc hlib hnodeId hd' hstored
        (hids.symm ▸ hnew) (hids.symm ▸ hfront) version
      have hcontent : contentWith d (fun l => l.values.map (rereadItem l)) layer =
          ⟨layer.id, layer.dataType, layer.customType, layer.numVecComp, parent,
            layer.values.map (rereadItem layer)⟩ := by
        rw [contentWith, hparent]
        rfl
      rw [← hcontent] at hd₁
      have hsplit' : layers = (front ++ [layer]) ++ rest := by rw [hsplit, List.append_cons]
      obtain ⟨d'', hrest, hd''⟩ := ih hsplit' (by rw [List.map_append]; exact hd₁)
      refine ⟨d'', ?_, hd''⟩
      rw [loadLayers, scan_ofInt (by decide) (lt_trans hstored.id_lt (by decide)), Option.bind_eq_bind,
        Option.bind_some, hload, Option.bind_eq_bind, Option.bind_some]
      exact hrest

include hlib in
/-- **When the layers of a node survive.**  They do if and only if all 64-bit values fit into an
`int` with its sign. -/
theorem layersSurvive_iff {d : VSData} {n : ℕ} {layers : List VSLayer} (h : StoredLayers d n layers) :
    LayersSurvive lib d n ↔ ∀ layer ∈ layers, FitsInts layer := by
  obtain ⟨node, hnode, hnodeId, -⟩ := h.memory
  -- what is loaded, whatever the node it is loaded into
  have hloads : ∀ version docs d' n' node', saveLayers lib d n version = some docs →
      d'.node n' = some node' → node'.id = node.id → node'.layers = [] →
        ∃ d'', loadLayers lib n' docs d' = some d'' ∧ layerContents d'' n' =
          some (layers.map (contentWith d fun l => l.values.map (rereadItem l))) := by
    intro version docs d' n' node' hsave hnode' hid hempty
    obtain ⟨docs', hsave', hall⟩ := @StoredLayers.save lib d n layers h node hnode version
    obtain rfl : docs = docs' := Option.some.inj (hsave.symm.trans hsave')
    have hd' : HoldsLayers d' n' node.id [] := ⟨node', hnode', hid, hempty ▸ List.Forall₂.nil⟩
    obtain ⟨d'', hload, hd''⟩ := loadLayers_eq hlib h hnodeId (List.nil_append layers).symm hall hd'
    exact ⟨d'', hload, hd''.layerContents⟩
  have hsame : layers.map (contentWith d fun l => l.values.map (rereadItem l)) =
      layers.map (contentWith d VSLayer.values) ↔ ∀ layer ∈ layers, FitsInts layer := by
    rw [List.map_inj_left]
    refine forall₂_congr fun layer hlayer => ?_
    rw [← map_rereadItem_eq_iff (h.stored layer hlayer)]
    exact ⟨congrArg LayerContent.values, fun heq => by simp only [contentWith, heq]⟩
  constructor
  · intro hsurvive
    obtain ⟨docs, hsave, hload⟩ := hsurvive fun _ => ⟨0, 0, by decide⟩
    have hempty : (d.setNode n (some { node with layers := [] })).node n =
        some { node with layers := [] } := Function.update_self _ _ _
    obtain ⟨d'', hload'', hcontents⟩ := hload node _ n _ hnode hempty rfl rfl
    obtain ⟨d₂, hload₂, hcontents₂⟩ := hloads _ docs _ n _ hsave hempty rfl rfl
    obtain rfl : d'' = d₂ := Option.some.inj (hload''.symm.trans hload₂)
    rw [hcontents₂, h.layerContents] at hcontents
    exact hsame.mp (Option.some.inj hcontents)
  · intro hfits version
    obtain ⟨docs, hsave, -⟩ := @StoredLayers.save lib d n layers h node hnode version
    refine ⟨docs, hsave, fun node₁ d' n' node' hnode₁ hnode' hid hempty => ?_⟩
    obtain rfl : node = node₁ := Option.some.inj (hnode.symm.trans hnode₁)
    obtain ⟨d'', hload, hcontents⟩ := hloads version docs d' n' node' hsave hnode' hid hempty
    refine ⟨d'', hload, hcontents.trans ?_⟩
    rw [h.layerContents, hsame.mpr hfits]

/-! ## Tags and layers -/

/-- **When tags and layers survive being saved.**  The tags of a group and the layers of a node
come back with all their values if and only if every string tag was set and every 64-bit value
of a layer fits into an `int` with its sign. -/
theorem survive_iff (hlib : lib.Reads) {d : VSData} {g n : ℕ} {tags : List VSTag}
    {layers : List VSLayer} (hgroup : StoredGroup d g tags) (hlayers : StoredLayers d n layers) :
    TagsSurvive lib d g ∧ LayersSurvive lib d n ↔
      (∀ tag ∈ tags, IsSet tag) ∧ ∀ layer ∈ layers, FitsInts layer :=
  and_congr (tagsSurvive_iff hlib hgroup) (layersSurvive_iff hlib hlayers)

end Layers

/-! ## A node with a tag and two layers -/

/-- A BSON library that reads what was written. -/
def sampleLib : BsonLib where
  iteratorInt
    | .int v | .long v => v
    | _ => 0
  iteratorLong
    | .int v | .long v => v
    | _ => 0
  iteratorDouble
    | .double bytes => bytes
    | _ => []
  iteratorString
    | (_, .string str) :: _ => str
    | _ => []
  toDouble := id
  toFloat := id

theorem sampleLib_reads : sampleLib.Reads :=
  ⟨fun _ => rfl, fun _ => rfl, fun _ => rfl, fun _ _ _ => rfl⟩

/-- A string tag. -/
def sampleTag (value : Option (List UInt8)) : VSTag := ⟨0, 7, valueTypeString8, 1, true, value, 0⟩

/-- A layer of 64-bit values with one item. -/
def sampleLayer (id : ℕ) (parent : Option ℕ) (value : List UInt8) : VSLayer :=
  ⟨id, 7, 4, 1, parent, [], [(5, value)], []⟩

def sampleNode : VSNode :=
  { VSData.vsNodeInit 65536 32 0 with tagGroups := [(0, 2)], layers := [(0, 4), (1, 5)] }

def sampleGroup : VSTagGroup := ⟨0, 7, [(0, 3)], 0, []⟩

/-- The node at 1 has the tag in the group at 2, and one layer below the other. -/
def sampleData (str : Option (List UInt8)) (value : List UInt8) : VSData :=
  { VSData.empty [⟨1001, false⟩] 0 0 with
    next := 6
    node := Function.update (fun _ => none) 1 (some sampleNode)
    tagGroup := Function.update (fun _ => none) 2 (some sampleGroup)
    tag := Function.update (fun _ => none) 3 (some (sampleTag str))
    layer := Function.update (Function.update (fun _ => none) 4 (some (sampleLayer 0 none value))) 5
      (some (sampleLayer 1 (some 4) value)) }

theorem sampleData_tags (str : Option (List UInt8)) (value : List UInt8) :
    StoredGroup (sampleData str value) 2 [sampleTag str] := by
  refine ⟨⟨sampleGroup, rfl, ?_⟩, fun tag htag => ?_⟩
  · exact List.Forall₂.cons (show (sampleData str value).tag 3 = _ from rfl) List.Forall₂.nil
  · obtain rfl := List.mem_singleton.mp htag
    exact ⟨by simp [sampleTag, reservedEntityId], by simp [sampleTag], by simp [sampleTag], Or.inr rfl⟩

theorem sampleData_layers (str : Option (List UInt8)) {value : List UInt8} (hlen : value.length = 8) :
    StoredLayers (sampleData str value) 1 [sampleLayer 0 none value, sampleLayer 1 (some 4) value] := by
  refine ⟨⟨sampleNode, rfl, by decide, ?_⟩, fun layer hlayer => ?_, by simp [sampleLayer],
    fun front layer back hsplit p hp => ?_⟩
  · exact List.Forall₂.cons (show (sampleData str value).layer 4 = _ from rfl)
      (List.Forall₂.cons (show (sampleData str value).layer 5 = _ from rfl) List.Forall₂.nil)
  · rcases List.mem_pair.mp hlayer with rfl | rfl <;>
      exact ⟨by simp [sampleLayer, reservedEntityId], by simp [sampleLayer], by simp [sampleLayer],
        Or.inr (Or.inr (Or.inr rfl)), by simp [sampleLayer, hlen, dataTypeSize]⟩
  · rcases front with _ | ⟨first, front⟩
    · obtain rfl : sampleLayer 0 none value = layer := (List.cons.inj hsplit).1
      cases hp
    · obtain ⟨rfl, hrest⟩ := List.cons.inj hsplit
      have hmem : layer ∈ [sampleLayer 1 (some 4) value] := by simp [hrest]
      obtain rfl := List.mem_singleton.mp hmem
      obtain rfl := Option.mem_some.mp hp
      exact ⟨_, List.mem_cons_self, rfl⟩

theorem survive_sample :
    TagsSurvive sampleLib (sampleData (some [97]) [1, 0, 0, 0, 0, 0, 0, 0]) 2 ∧
      LayersSurvive sampleLib (sampleData (some [97]) [1, 0, 0, 0, 0, 0, 0, 0]) 1 := by
  refine (survive_iff sampleLib_reads (sampleData_tags _ _) (sampleData_layers _ rfl)).mpr
    ⟨fun tag htag => ?_, fun layer hlayer item hitem v hv _ => ?_⟩
  · obtain rfl := List.mem_singleton.mp htag
    exact fun _ => Option.some_ne_none _
  · have hone : v = [1, 0, 0, 0, 0, 0, 0, 0] := by
      rcases List.mem_pair.mp hlayer with rfl | rfl <;> obtain rfl := List.mem_singleton.mp hitem <;>
        exact List.mem_singleton.mp hv
    rw [hone]
    exact Or.inl (by decide)

/-- A string that was never set, and a layer with the value `2 ^ 31`. -/
theorem not_survive :
    (¬ TagsSurvive sampleLib (sampleData none [0, 0, 0, 128, 0, 0, 0, 0]) 2) ∧
      ¬ LayersSurvive sampleLib (sampleData none [0, 0, 0, 128, 0, 0, 0, 0]) 1 := by
  constructor
  · intro hsurvive
    have hset := (tagsSurvive_iff sampleLib_reads (sampleData_tags _ _)).mp hsurvive
    exact hset (sampleTag none) (by simp) rfl rfl
  · intro hsurvive
    have hfits := (layersSurvive_iff sampleLib_reads (sampleData_layers _ rfl)).mp hsurvive
    have hfit := hfits (sampleLayer 0 none [0, 0, 0, 128, 0, 0, 0, 0]) (by simp)
      (5, [0, 0, 0, 128, 0, 0, 0, 0]) (by simp [sampleLayer]) [0, 0, 0, 128, 0, 0, 0, 0] (by decide) rfl
    exact absurd hfit (by unfold FitsInt; decide)

end Verse.Mongo
