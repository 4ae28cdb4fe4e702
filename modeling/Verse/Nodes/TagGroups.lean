import Verse.Nodes.Data

/-!
# Tag groups and tags

`vs_taggroup.c` and `vs_tag.c`.  A client that is subscribed to a node follows its
tag groups, and a client that is subscribed to a tag group follows its tags.
-/

namespace Verse

open Lib

/-- `VRS_VALUE_TYPE_STRING8`. -/
def valueTypeString8 : ℕ := 8

namespace VSData

variable (d : VSData)

/-! ## Tags -/

/-- `vs_tag_send_create`. -/
def vsTagSendCreate (r n : ℕ) (node : VSNode) (tg : VSTagGroup) (a : ℕ) : Option VSData := do
  let tag ← d.tag a
  d.sendCreate (fun _ => true) r a n
    (some (.tagCreate node.id tg.id tag.id tag.dataType tag.count tag.customType))

/-- The command `vs_tag_send_set` pushes. -/
def tagSetCmd (node : VSNode) (tg : VSTagGroup) (tag : VSTag) : OutCmd :=
  .tagSet node.id tg.id tag.id tag.dataType tag.count tag.value

/-- `vs_tag_create` with the reserved id. -/
def vsTagCreate (g dataType count customType : ℕ) : Option (VSData × ℕ) := do
  let tg ← d.tagGroup g
  let id ← freeEntityId tg.tags 131072 tg.lastTagId
  let value :=
    if dataType = valueTypeString8 then none
    else some (List.replicate (count * dataTypeSize dataType) 0)
  let tag : VSTag :=
    { id, customType, dataType, count, initialized := false, value
      size := count * dataTypeSize dataType }
  let a := d.next
  let d' := { d with next := d.next + 1 }
  let d' := (d'.setTag a (some tag)).setEntity a (some ⟨.reserved, []⟩)
  pure (d'.setTagGroup g (some { tg with tags := tg.tags ++ [(id, a)], lastTagId := id }), a)

theorem vsTagCreate_eq {d d' : VSData} {g dataType count customType a : ℕ}
    (h : d.vsTagCreate g dataType count customType = some (d', a)) :
    ∃ tg id tag, d.tagGroup g = some tg ∧ freeEntityId tg.tags 131072 tg.lastTagId = some id ∧
      a = d.next ∧ d' = { d with
        next := d.next + 1
        tag := Function.update d.tag d.next (some tag)
        entity := Function.update d.entity d.next (some ⟨.reserved, []⟩)
        tagGroup := Function.update d.tagGroup g
          (some { tg with tags := tg.tags ++ [(id, d.next)], lastTagId := id }) } := by
  simp only [vsTagCreate, Option.bind_eq_bind, Option.bind_eq_some_iff] at h
  obtain ⟨tg, htg, id, hid, h⟩ := h
  obtain ⟨rfl, rfl⟩ := Prod.mk.inj (Option.some.inj h)
  exact ⟨tg, id, _, htg, hid, rfl, rfl⟩

/-- `vs_tag_destroy`. -/
def vsTagDestroy (g a : ℕ) : Option VSData := do
  let tg ← d.tagGroup g
  let tag ← d.tag a
  let d' := d.setTagGroup g (some { tg with tags := tg.tags.removeItem tag.id })
  pure ((d'.setTag a none).setEntity a none)

/-- What a handler does with the tag group a command names. -/
def withTagGroup (node : VSNode) (taggroupId : ℕ) (f : ℕ → VSTagGroup → Option VSData) :
    Option VSData :=
  match node.tagGroups.findItem taggroupId with
  | none => some d
  | some g => (d.tagGroup g).bind (f g)

/-- What a handler does with the tag a command names. -/
def withTag (tg : VSTagGroup) (tagId : ℕ) (f : ℕ → VSTag → Option VSData) : Option VSData :=
  match tg.tags.findItem tagId with
  | none => some d
  | some a => (d.tag a).bind (f a)

/-- `vs_handle_tag_create_ack`. -/
def vsHandleTagCreateAck (s nodeId taggroupId tagId : ℕ) : Option VSData :=
  d.withNode nodeId fun n node =>
    d.withTagGroup node taggroupId fun _ tg =>
      d.withTag tg tagId fun a tag =>
        d.createAck .tag a n s (.tagDestroy node.id tg.id tag.id)
          (if tag.initialized then some (tagSetCmd node tg tag) else none)

/-- `vs_handle_tag_create`. -/
def vsHandleTagCreate (s nodeId taggroupId tagId dataType count type : ℕ) : Option VSData :=
  d.withNode nodeId fun n node =>
    if d.isCreated n ∧ d.vsNodeCanWrite s node then
      d.withTagGroup node taggroupId fun g tg =>
        if d.isCreated g ∧ tagId = reservedEntityId ∧ 0 < dataType ∧ dataType ≤ valueTypeString8 ∧
            ¬ (tg.tags.any fun b => (d.tag b.2).any fun tag => tag.customType == type) ∧
            tg.tags.length ≤ maxEntityCount then do
          let (d', a) ← d.vsTagCreate g dataType count type
          tg.subs.foldlM (fun d r => d.vsTagSendCreate r n node tg a) (d'.setState a .creating)
        else some d
    else some d

/-- `vs_handle_tag_destroy_ack`. -/
def vsHandleTagDestroyAck (s nodeId taggroupId tagId : ℕ) : Option VSData :=
  d.withNode nodeId fun _ node =>
    d.withTagGroup node taggroupId fun g tg =>
      d.withTag tg tagId fun a _ => d.destroyAck .tag a s fun d => d.vsTagDestroy g a

/-- `vs_handle_tag_destroy`. -/
def vsHandleTagDestroy (s nodeId taggroupId tagId : ℕ) : Option VSData :=
  d.withNode nodeId fun n node =>
    if d.isCreated n ∧ d.vsNodeCanWrite s node then
      d.withTagGroup node taggroupId fun _ tg =>
        d.withTag tg tagId fun a tag => d.sendDestroy a n (.tagDestroy node.id tg.id tag.id)
    else some d

/-- The `switch` of `vs_handle_tag_set`.  A string that is not as long as the old
one is stored in memory of its length without the terminating zero. -/
def setTagValue (tag : VSTag) (value : List UInt8) : VSTag :=
  let size :=
    if tag.dataType = valueTypeString8 then
      match tag.value with
      | none => value.length + 1
      | some old => if value.length = old.length then tag.size else value.length
    else tag.size
  { tag with value := some value, size, initialized := true }

/-- `vs_handle_tag_set`. -/
def vsHandleTagSet (s nodeId taggroupId tagId dataType count : ℕ) (value : List UInt8) :
    Option VSData :=
  d.withNode nodeId fun n node =>
    if d.isCreated n ∧ d.vsNodeCanWrite s node then
      d.withTagGroup node taggroupId fun _ tg =>
        d.withTag tg tagId fun a tag =>
          if dataType = tag.dataType ∧ count = tag.count then
            let tag := setTagValue tag value
            tg.subs.foldlM (fun d r => d.push r (tagSetCmd node tg tag) a n) (d.setTag a (some tag))
          else some d
    else some d

/-! ## Tag groups -/

/-- `vs_taggroup_send_create`. -/
def vsTaggroupSendCreate (r n g : ℕ) : Option VSData := do
  let node ← d.node n
  let tg ← d.tagGroup g
  d.sendCreate (fun _ => true) r g n (some (.taggroupCreate node.id tg.id tg.customType))

/-- `vs_taggroup_create` with the reserved id; no tag group is created when there
are too many. -/
def vsTaggroupCreate (n customType : ℕ) : Option (VSData × Option ℕ) := do
  let node ← d.node n
  if node.tagGroups.length < maxEntityCount then
    let id ← freeEntityId node.tagGroups 131072 node.lastTgId
    let tg : VSTagGroup := { id, customType, tags := [], lastTagId := 0, subs := [] }
    let g := d.next
    let d' := { d with next := d.next + 1 }
    let d' := (d'.setTagGroup g (some tg)).setEntity g (some ⟨.reserved, []⟩)
    let node := { node with tagGroups := node.tagGroups ++ [(id, g)], lastTgId := id }
    pure (d'.setNode n (some node), some g)
  else pure (d, none)

theorem vsTaggroupCreate_eq {d d' : VSData} {n customType : ℕ} {created : Option ℕ}
    (h : d.vsTaggroupCreate n customType = some (d', created)) :
    (d' = d ∧ created = none) ∨
    ∃ node id tg, d.node n = some node ∧ freeEntityId node.tagGroups 131072 node.lastTgId = some id ∧
      tg.tags = [] ∧ tg.subs = [] ∧ created = some d.next ∧ d' = { d with
        next := d.next + 1
        tagGroup := Function.update d.tagGroup d.next (some tg)
        entity := Function.update d.entity d.next (some ⟨.reserved, []⟩)
        node := Function.update d.node n
          (some { node with tagGroups := node.tagGroups ++ [(id, d.next)], lastTgId := id }) } := by
  simp only [vsTaggroupCreate, Option.bind_eq_bind, Option.bind_eq_some_iff] at h
  obtain ⟨node, hnode, h⟩ := h
  split at h
  · obtain ⟨id, hid, h⟩ := Option.bind_eq_some_iff.mp h
    obtain ⟨rfl, rfl⟩ := Prod.mk.inj (Option.some.inj h)
    exact Or.inr ⟨node, id, _, hnode, hid, rfl, rfl, rfl, rfl⟩
  · obtain ⟨rfl, rfl⟩ := Prod.mk.inj (Option.some.inj h)
    exact Or.inl ⟨rfl, rfl⟩

/-- Frees the tags of a tag group. -/
def freeTags (tags : HashTable) : VSData :=
  tags.foldl (fun d b => (d.setTag b.2 none).setEntity b.2 none) d

/-- `vs_taggroup_destroy`. -/
def vsTaggroupDestroy (n g : ℕ) : Option VSData := do
  let tg ← d.tagGroup g
  let d' := ((d.freeTags tg.tags).setTagGroup g none).setEntity g none
  d'.modifyNode n fun node => { node with tagGroups := node.tagGroups.removeItem tg.id }

/-- `vs_node_taggroups_destroy`, called when the node is freed. -/
def vsNodeTaggroupsDestroy (node : VSNode) : VSData :=
  node.tagGroups.foldl (fun d b =>
    (((d.freeTags (((d.tagGroup b.2).map VSTagGroup.tags).getD [])).setTagGroup b.2 none).setEntity
      b.2 none)) d

/-- `vs_taggroup_unsubscribe`. -/
def vsTaggroupUnsubscribe (g s : ℕ) : Option VSData := do
  let tg ← d.tagGroup g
  let found ← d.findSub s tg.subs
  match found with
  | none => pure d
  | some r =>
      let d' ← tg.tags.foldlM (fun d b => d.freeFollower b.2 s) d
      pure (d'.setTagGroup g (some { tg with subs := tg.subs.erase r }))

/-- `vs_handle_taggroup_destroy_ack`. -/
def vsHandleTaggroupDestroyAck (s nodeId taggroupId : ℕ) : Option VSData :=
  d.withNode nodeId fun n node =>
    d.withTagGroup node taggroupId fun g _ =>
      d.destroyAck .tagGroup g s fun d => d.vsTaggroupDestroy n g

/-- `vs_handle_taggroup_create_ack`. -/
def vsHandleTaggroupCreateAck (s nodeId taggroupId : ℕ) : Option VSData :=
  d.withNode nodeId fun n node =>
    d.withTagGroup node taggroupId fun g tg =>
      d.createAck .tagGroup g n s (.taggroupDestroy node.id tg.id) none

/-- `vs_handle_taggroup_create`. -/
def vsHandleTaggroupCreate (s nodeId taggroupId type : ℕ) : Option VSData :=
  if taggroupId = reservedEntityId then
    d.withNode nodeId fun n node =>
      if d.isCreated n ∧
          ¬ (node.tagGroups.any fun b => (d.tagGroup b.2).any fun tg => tg.customType == type) ∧
          d.vsNodeCanWrite s node then do
        let (d', created) ← d.vsTaggroupCreate n type
        match created with
        | none => pure d'
        | some g =>
            node.nodeSubs.foldlM (fun d r => do
              let sub ← d.sub r
              if d.vsNodeCanRead sub.session node then d.vsTaggroupSendCreate r n g else pure d)
              (d'.setState g .creating)
      else some d
  else some d

/-- `vs_handle_taggroup_destroy`. -/
def vsHandleTaggroupDestroy (s nodeId taggroupId : ℕ) : Option VSData :=
  d.withNode nodeId fun n node =>
    if d.isCreated n ∧ d.vsNodeCanWrite s node then
      d.withTagGroup node taggroupId fun g tg =>
        d.sendDestroy g n (.taggroupDestroy node.id tg.id)
    else some d

/-- `vs_handle_taggroup_subscribe`.  Over a stream connection the value of a tag is
sent at once. -/
def vsHandleTaggroupSubscribe (s nodeId taggroupId : ℕ) : Option VSData :=
  d.withNode nodeId fun n node =>
    if d.isCreated n ∧ d.vsNodeCanRead s node then do
      let subscribed ← d.findSub s node.nodeSubs
      match subscribed with
      | none => pure d
      | some r =>
          d.withTagGroup node taggroupId fun g tg => do
            let found ← d.findSub s tg.subs
            if found.isSome then pure d
            else
              let d' := d.setTagGroup g (some { tg with subs := tg.subs ++ [r] })
              tg.tags.foldlM (fun d b => do
                let d ← d.vsTagSendCreate r n node tg b.2
                let tag ← d.tag b.2
                if (d.session s).stream ∧ tag.initialized then
                  d.push r (tagSetCmd node tg tag) b.2 n
                else pure d) d'
    else some d

/-- `vs_handle_taggroup_unsubscribe`. -/
def vsHandleTaggroupUnsubscribe (s nodeId taggroupId : ℕ) : Option VSData :=
  d.withNode nodeId fun n node =>
    if d.isCreated n then
      d.withTagGroup node taggroupId fun g _ => d.vsTaggroupUnsubscribe g s
    else some d

end VSData

end Verse
