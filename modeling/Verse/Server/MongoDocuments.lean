import Verse.Lib.Decimals
import Verse.Lib.Memory
import Verse.Nodes.Layers
import Verse.Nodes.StringTags

/-!
# Tags and layers as documents

`vs_mongo_taggroup.c` and `vs_mongo_layer.c`: the documents that are written to the database,
and how tags and layers are made of them again.  A document is a list of fields, and so is an
array, the names of which are printed numbers.  What the BSON library does when it reads a
value is not in the source, nor is the conversion between floats and doubles: both are
parameters, `BsonLib`.

The values of a tag or of a layer item lie in one block of memory, with the least significant
byte of each value first.  Object ids are left out: a document is passed to the function that
would look for it.
-/

namespace Verse.Mongo

open Lib

/-! ## Documents -/

/-- The name of a field: a word of the source, or a number that was printed. -/
inductive Key where
  | crc32
  | tags
  | values
  | data
  | dataType
  | count
  | customType
  | nodeId
  | layerId
  | vecSize
  | currentVersion
  | parentLayerId
  | versions
  | number (text : List Char)
  deriving DecidableEq, Repr

inductive Bson where
  | int (v : ℤ)
  | long (v : ℤ)
  | double (bytes : List UInt8)
  | string (str : List UInt8)
  | array (items : List (Key × Bson))
  | object (fields : List (Key × Bson))

/-- A document. -/
abbrev Doc := List (Key × Bson)

/-- `bson_find`. -/
def Doc.find (doc : Doc) (key : Key) : Option Bson :=
  (List.find? (fun field => field.1 == key) doc).map Prod.snd

/-- What is not in the source: the values that the BSON library reads, for a string through an
iterator that was not moved yet, and the conversions of C between floats and doubles. -/
structure BsonLib where
  iteratorInt : Bson → ℤ
  iteratorLong : Bson → ℤ
  iteratorDouble : Bson → List UInt8
  iteratorString : Doc → List UInt8
  toDouble : List UInt8 → List UInt8
  toFloat : List UInt8 → List UInt8

/-- Integers and strings are read as they were written, and a 32-bit integer may be read as a
64-bit one. -/
structure BsonLib.Reads (lib : BsonLib) : Prop where
  int : ∀ v, lib.iteratorInt (.int v) = v
  long : ∀ v, lib.iteratorLong (.long v) = v
  longOfInt : ∀ v, lib.iteratorLong (.int v) = v
  string : ∀ key str rest, lib.iteratorString ((key, .string str) :: rest) = str

/-- `bson_append_int`: the value becomes an `int`. -/
def appendInt (v : ℕ) : Bson := .int ((v : ℤ).bmod (2 ^ 32))

/-- `bson_append_long`. -/
def appendLong (v : ℕ) : Bson := .long ((v : ℤ).bmod (2 ^ 64))

/-- A number printed with `%d`, which takes it for an `int`. -/
def Key.ofInt (v : ℕ) : Key := .number (decimal ((v : ℤ).bmod (2 ^ 32)))

/-- The number of a key, modulo `2 ^ bits`. -/
def Key.scan (key : Key) (bits : ℕ) : Option ℕ :=
  match key with
  | .number text => (scanDecimal text).map fun v => (v % 2 ^ bits).toNat
  | _ => none

/-- `UINT32_MAX`, under which the only version is stored. -/
def lastVersion : Key := .number (decimal (2 ^ 32 - 1))

/-- An array has the indices of its values for names. -/
def numbered (items : List Bson) : Doc := items.mapIdx fun i item => (.ofInt i, item)

/-- A field that has to be an `int`. -/
def findInt (lib : BsonLib) (doc : Doc) (key : Key) : Option ℤ :=
  match doc.find key with
  | some (.int v) => some (lib.iteratorInt (.int v))
  | _ => none

/-! ## Values -/

/-- The values in a block. -/
def elements (width count : ℕ) (block : List UInt8) : List (List UInt8) :=
  (List.range count).map fun i => slice block (i * width) width

/-- Values that are stored one after the other, from the index `i` on. -/
def storeItems (width : ℕ) : ℕ → List (List UInt8) → List UInt8 → List UInt8
  | _, [], block => block
  | i, item :: rest, block => storeItems width (i + 1) rest (overwrite block (i * width) item)

/-- The memory of an unsigned integer a number is converted to. -/
def uintBytes (width : ℕ) (v : ℤ) : List UInt8 := leBytes width (v % 256 ^ width).toNat

/-! ## Saving -/

/-- What the switch of `vs_mongo_taggroup_save_version` appends for one value; the types 1 to 4
are the unsigned integers, and 5 to 7 the reals. -/
def tagItem (lib : BsonLib) : ℕ → List UInt8 → Option Bson
  | 1, item | 2, item | 3, item => some (appendInt (leVal item))
  | 4, item => some (appendLong (leVal item))
  | 6, item => some (.double (lib.toDouble item))
  | 7, item => some (.double item)
  | _, _ => none

/-- The array `data` of a tag. -/
def tagItems (lib : BsonLib) (tag : VSTag) (block : List UInt8) : List Bson :=
  if tag.dataType = valueTypeString8 then [.string block]
  else (elements (dataTypeSize tag.dataType) tag.count block).filterMap (tagItem lib tag.dataType)

/-- The document of a tag.  `bson_append_string` takes the length of the string, so a tag
without one cannot be saved; no other tag is without memory. -/
def saveTag (lib : BsonLib) (tag : VSTag) : Option Doc :=
  tag.value.map fun block =>
    [(.dataType, appendInt tag.dataType), (.count, appendInt tag.count),
      (.customType, appendInt tag.customType), (.data, .array (numbered (tagItems lib tag block)))]

/-- `vs_mongo_taggroup_save_version`. -/
def vsMongoTaggroupSaveVersion (lib : BsonLib) (d : VSData) (g crc32 : ℕ) (version : Key) :
    Option (Key × Bson) := do
  let tg ← d.tagGroup g
  let tags ← tg.tags.mapM fun b => do
    let tag ← d.tag b.2
    let doc ← saveTag lib tag
    pure (Key.ofInt tag.id, Bson.object doc)
  pure (version, .object [(.crc32, appendInt crc32), (.tags, .object tags)])

/-- What the switch of `vs_mongo_layer_save_version` appends for one value. -/
def layerItem (lib : BsonLib) : ℕ → List UInt8 → Option Bson
  | 1, item | 2, item | 3, item => some (appendInt (leVal item))
  | 4, item => some (appendInt (leVal item))
  | 6, item => some (.double (lib.toDouble item))
  | 7, item => some (.double item)
  | _, _ => none

/-- The values of a layer item. -/
def saveItem (lib : BsonLib) (layer : VSLayer) (item : ℕ × List UInt8) : Key × Bson :=
  (.ofInt item.1, .array (numbered
    ((elements (dataTypeSize layer.dataType) layer.numVecComp item.2).filterMap
      (layerItem lib layer.dataType))))

/-- `vs_mongo_layer_save_version`. -/
def vsMongoLayerSaveVersion (lib : BsonLib) (layer : VSLayer) (crc32 : ℕ) (version : Key) :
    Key × Bson :=
  (version, .object [(.crc32, appendInt crc32), (.values, .object (layer.values.map (saveItem lib layer)))])

/-- `version` and `crc32` of a layer.  `vs_layer_inc_version` never gives it the version
`UINT32_MAX`. -/
structure Version where
  number : ℕ
  crc32 : ℕ
  lt : number < 2 ^ 32 - 1

/-- `vs_mongo_layer_add_new`. -/
def vsMongoLayerAddNew (lib : BsonLib) (d : VSData) (node : VSNode) (layer : VSLayer)
    (version : Version) : Option Doc := do
  let parent ← match layer.parent with
    | none => some []
    | some p => (d.layer p).map fun parent => [(Key.parentLayerId, appendInt parent.id)]
  pure ([(.nodeId, appendInt node.id), (.layerId, appendInt layer.id),
    (.customType, appendInt layer.customType), (.dataType, appendInt layer.dataType),
    (.vecSize, appendInt layer.numVecComp), (.currentVersion, appendInt version.number)] ++ parent ++
    [(.versions, .object [vsMongoLayerSaveVersion lib layer version.crc32 lastVersion])])

/-- The loop of `vs_mongo_node_save_version` over the layers, none of which was saved before. -/
def saveLayers (lib : BsonLib) (d : VSData) (n : ℕ) (version : ℕ → Version) :
    Option (List (Key × Doc)) := do
  let node ← d.node n
  node.layers.mapM fun b => do
    let layer ← d.layer b.2
    let doc ← vsMongoLayerAddNew lib d node layer (version b.2)
    pure (.ofInt layer.id, doc)

/-! ## Loading tags -/

/-- A tag with the memory that is allocated for its values. -/
def newTag (id dataType count customType : ℕ) : VSTag where
  id := id
  customType := customType
  dataType := dataType
  count := count
  initialized := false
  value :=
    if dataType = valueTypeString8 then none
    else some (List.replicate (count * dataTypeSize dataType) 0)
  size := count * dataTypeSize dataType

/-- `vs_tag_create`. -/
def vsTagCreate (d : VSData) (g id dataType count customType : ℕ) : Option (VSData × ℕ) :=
  if id = reservedEntityId then d.vsTagCreate g dataType count customType
  else do
    let tg ← d.tagGroup g
    let a := d.next
    let d' := { d with next := d.next + 1 }
    let d' := (d'.setTag a (some (newTag id dataType count customType))).setEntity a
      (some ⟨.reserved, []⟩)
    pure (d'.setTagGroup g (some { tg with tags := tg.tags ++ [(id, a)], lastTagId := id }), a)

/-- One pass of the loops of `vs_mongo_tag_load_data`; a value of another type ends them. -/
def tagLoadItem (lib : BsonLib) : ℕ → Bson → Option (List UInt8)
  | 1, .int v => some (uintBytes 1 (lib.iteratorInt (.int v)))
  | 2, .int v => some (uintBytes 2 (lib.iteratorInt (.int v)))
  | 3, .int v => some (uintBytes 4 (lib.iteratorInt (.int v)))
  | 4, .long v => some (uintBytes 8 (lib.iteratorLong (.long v)))
  | 6, .double b => some (lib.toFloat (lib.iteratorDouble (.double b)))
  | 7, .double b => some (lib.iteratorDouble (.double b))
  | _, _ => none

/-- The loop over the values, from the index `i` on. -/
def loadTagItems (lib : BsonLib) : ℕ → List Bson → VSTag → Option VSTag
  | _, [], tag => some tag
  | i, item :: rest, tag =>
      match tagLoadItem lib tag.dataType item with
      | none => some tag
      | some bytes =>
          (vsTagSetValues tag 1 (i % 2 ^ 8) bytes).bind fun tag => loadTagItems lib (i + 1) rest tag

/-- `vs_mongo_tag_load_data`. -/
def vsMongoTagLoadData (lib : BsonLib) (tag : VSTag) (doc : Doc) : Option VSTag :=
  match doc.find .data with
  | some (.array items) =>
      if tag.dataType = valueTypeString8 then vsTagSetValues tag 1 0 (lib.iteratorString items)
      else loadTagItems lib 0 (items.map Prod.snd) tag
  | _ => some tag

/-- The variables `data_type`, `count` and `tag_custom_type`, which keep what was read of the
tag before. -/
structure TagHead where
  dataType : ℤ
  count : ℤ
  customType : ℤ
  deriving DecidableEq, Repr

def TagHead.read (head : TagHead) (lib : BsonLib) (doc : Doc) : TagHead :=
  ⟨(findInt lib doc .dataType).getD head.dataType, (findInt lib doc .count).getD head.count,
    (findInt lib doc .customType).getD head.customType⟩

/-- The loop of `vs_mongo_taggroup_load_data` over the tags. -/
def loadTags (lib : BsonLib) (g : ℕ) : Doc → TagHead → VSData → Option VSData
  | (key, .object doc) :: rest, head, d => do
      let id ← key.scan 16
      let head := head.read lib doc
      if head.dataType ≠ -1 ∧ head.count ≠ -1 ∧ head.customType ≠ -1 then do
        let (d', a) ← vsTagCreate d g id (head.dataType % 2 ^ 8).toNat (head.count % 2 ^ 8).toNat
          (head.customType % 2 ^ 16).toNat
        let tag ← d'.tag a
        let tag' ← vsMongoTagLoadData lib tag doc
        loadTags lib g rest head
          ((d'.setState a .created).setTag a (some { tag' with initialized := true }))
      else loadTags lib g rest head d
  | _, _, d => some d

/-- `vs_mongo_taggroup_load_data`. -/
def vsMongoTaggroupLoadData (lib : BsonLib) (d : VSData) (g : ℕ) (version : Doc) : Option VSData :=
  match version.find .tags with
  | some (.object tags) => loadTags lib g tags ⟨-1, -1, -1⟩ d
  | _ => some d

/-! ## Loading layers -/

/-- `vs_layer_create`; without an address where the id is in use. -/
def vsLayerCreate (d : VSData) (n : ℕ) (parent : Option ℕ) (id dataType count type : ℕ) :
    Option (VSData × Option ℕ) :=
  if id = reservedEntityId then (d.vsLayerCreate n parent dataType count type).map fun (d, a) => (d, some a)
  else do
    let node ← d.node n
    if (node.layers.findItem id).isSome then pure (d, none)
    else
      let layer : VSLayer :=
        { id, customType := type, dataType, numVecComp := count, parent, childLayers := []
          values := [], subs := [] }
      let a := d.next
      let d' := { d with next := d.next + 1 }
      let d' := parent.elim d' fun p =>
        d'.modifyLayer p fun l => { l with childLayers := l.childLayers ++ [a] }
      let d' := (d'.setLayer a (some layer)).setEntity a (some ⟨.reserved, []⟩)
      let node :=
        { node with layers := node.layers ++ [(id, a)], firstFreeLayerId := (id + 1) % 65536 }
      pure (d'.setNode n (some node), some a)

/-- What the switch of `vs_mongo_layer_load_data` stores for one value. -/
def layerLoadItem (lib : BsonLib) : ℕ → Bson → List UInt8
  | 1, item => uintBytes 1 (lib.iteratorInt item)
  | 2, item => uintBytes 2 (lib.iteratorInt item)
  | 3, item => uintBytes 4 (lib.iteratorInt item)
  | 4, item => uintBytes 8 (lib.iteratorLong item)
  | 6, item => lib.toFloat (lib.iteratorDouble item)
  | 7, item => lib.iteratorDouble item
  | _, _ => []

/-- The values of a layer item, which are as many as the layer has components. -/
def loadItem (lib : BsonLib) (dataType numVecComp : ℕ) (items : Doc) : List UInt8 :=
  storeItems (dataTypeSize dataType) 0
    (((items.map Prod.snd).take numVecComp).map (layerLoadItem lib dataType))
    (List.replicate (numVecComp * dataTypeSize dataType) 0)

/-- The loop of `vs_mongo_layer_load_data` over the items. -/
def loadItems (lib : BsonLib) : Doc → VSLayer → Option VSLayer
  | (key, .array items) :: rest, layer => do
      let id ← key.scan 32
      loadItems lib rest
        { layer with
          values := layer.values ++ [(id, loadItem lib layer.dataType layer.numVecComp items)] }
  | _, layer => some layer

/-- `vs_mongo_layer_load_data`. -/
def vsMongoLayerLoadData (lib : BsonLib) (layer : VSLayer) (version : Doc) : Option VSLayer :=
  match version.find .values with
  | some (.object items) => loadItems lib items layer
  | _ => some layer

/-- A field that is kept in a `uint32`, which is -1 where the field is missing. -/
def findUint32 (lib : BsonLib) (doc : Doc) (key : Key) : ℕ :=
  (((findInt lib doc key).getD (-1)) % 2 ^ 32).toNat

/-- The required version of a layer. -/
def findVersion (doc : Doc) : Option Doc :=
  match doc.find .versions with
  | some (.object versions) =>
      match Doc.find versions lastVersion with
      | some (.object version) => some version
      | _ => none
  | _ => none

/-- `vs_mongo_layer_load_linked`. -/
def vsMongoLayerLoadLinked (lib : BsonLib) (d : VSData) (n layerId : ℕ) (doc : Doc) :
    Option VSData := do
  let node ← d.node n
  if findUint32 lib doc .nodeId = node.id ∧ findUint32 lib doc .layerId = layerId then
    let missing := 2 ^ 32 - 1
    let parent := (findInt lib doc .parentLayerId).bind fun v =>
      node.layers.findItem (v % 2 ^ 16).toNat
    if findUint32 lib doc .currentVersion ≠ missing ∧ findUint32 lib doc .customType ≠ missing ∧
        findUint32 lib doc .dataType ≠ missing ∧ findUint32 lib doc .vecSize ≠ missing then do
      let (d', a) ← vsLayerCreate d n parent layerId (findUint32 lib doc .dataType % 2 ^ 8)
        (findUint32 lib doc .vecSize % 2 ^ 8) (findUint32 lib doc .customType % 2 ^ 16)
      match a with
      | none => pure d'
      | some a =>
          let d' := d'.setState a .created
          match findVersion doc with
          | none => pure d'
          | some version => do
              let layer ← d'.layer a
              let layer' ← vsMongoLayerLoadData lib layer version
              pure (d'.setLayer a (some layer'))
    else pure d
  else pure d

/-- The loop of `vs_mongo_node_load_linked` over the layers. -/
def loadLayers (lib : BsonLib) (n : ℕ) : List (Key × Doc) → VSData → Option VSData
  | [], d => some d
  | (key, doc) :: rest, d => do
      let id ← key.scan 16
      let d' ← vsMongoLayerLoadLinked lib d n id doc
      loadLayers lib n rest d'

end Verse.Mongo
