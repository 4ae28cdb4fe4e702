import Mathlib.Data.List.Forall2
import Verse.Lib.Loops
import Verse.Server.MongoDocuments

/-!
# Tags that were saved are loaded again

Numbers go through `int` and `long`, which keep them modulo `2 ^ 32` and `2 ^ 64`, and so do the
names of fields.  A tag is loaded with the values it was saved with, one by one, but a string
tag that was never set is not saved at all: the length of the missing string is asked for.
-/

namespace Verse.Mongo

open Lib

/-! ## Numbers -/

theorem leVal_leBytes (n v : ℕ) : leVal (leBytes n v) = v % 256 ^ n := by
  induction n generalizing v with
  | zero => simp [leBytes, leVal, Nat.mod_one]
  | succ n ih =>
      have hsplit : v % 256 ^ (n + 1) = v % 256 + 256 * (v / 256 % 256 ^ n) := by
        rw [Nat.pow_succ', Nat.mod_mul]
      rw [leBytes, leVal, ih, UInt8.toNat_ofNat', hsplit]

/-- The remainder of a number that went through a wider signed one. -/
theorem bmod_emod_of_dvd {m k : ℕ} (h : k ∣ m) (v : ℕ) :
    (v : ℤ).bmod m % (k : ℤ) = ((v % k : ℕ) : ℤ) := by
  have hdvd : (k : ℤ) ∣ (m : ℤ) := Int.natCast_dvd_natCast.mpr h
  rw [← Int.emod_emod_of_dvd ((v : ℤ).bmod m) hdvd, Int.bmod_emod, Int.emod_emod_of_dvd _ hdvd,
    Int.natCast_emod]

theorem uintBytes_bmod {width m : ℕ} (h : 256 ^ width ∣ m) (v : ℕ) :
    uintBytes width ((v : ℤ).bmod m) = leBytes width v := by
  have hpow : (256 : ℤ) ^ width = ((256 ^ width : ℕ) : ℤ) := (Int.natCast_pow 256 width).symm
  rw [uintBytes, hpow, bmod_emod_of_dvd h, Int.toNat_natCast, leBytes_mod]

theorem emod_bmod {v bits : ℕ} (hbits : bits ≤ 32) (h : v < 2 ^ bits) :
    ((v : ℤ).bmod (2 ^ 32) % 2 ^ bits).toNat = v := by
  have hpow : (2 : ℤ) ^ bits = ((2 ^ bits : ℕ) : ℤ) := (Int.natCast_pow 2 bits).symm
  rw [hpow, bmod_emod_of_dvd (Nat.pow_dvd_pow 2 hbits), Int.toNat_natCast, Nat.mod_eq_of_lt h]

/-- A small number comes through `int` as it is. -/
theorem appendInt_of_lt {v : ℕ} (h : v < 2 ^ 31) : appendInt v = .int v := by
  have hmod : (v : ℤ).bmod (2 ^ 32) = v := by
    rw [Int.bmod_def]
    split <;> omega
  rw [appendInt, hmod]

theorem natCast_ne_neg_one (v : ℕ) : (v : ℤ) ≠ -1 := by omega

/-- A name that was printed is scanned. -/
theorem scan_ofInt {v bits : ℕ} (hbits : bits ≤ 32) (h : v < 2 ^ bits) :
    (Key.ofInt v).scan bits = some v := by
  rw [Key.ofInt, Key.scan, scanDecimal_decimal, Option.map_some, emod_bmod hbits h]

/-! ## Blocks -/

theorem flatten_elements_take (width count : ℕ) (block : List UInt8) :
    (elements width count block).flatten = block.take (count * width) := by
  induction count with
  | zero => simp [elements]
  | succ count ih =>
      rw [elements] at ih
      rw [elements, List.range_succ, List.map_append, List.flatten_append, ih, Nat.succ_mul,
        ← take_append_slice]
      simp

theorem flatten_elements {width count : ℕ} {block : List UInt8}
    (h : block.length = count * width) : (elements width count block).flatten = block := by
  rw [flatten_elements_take, ← h, List.take_length]

theorem length_of_mem_elements {width count : ℕ} {block item : List UInt8}
    (h : block.length = count * width) (hitem : item ∈ elements width count block) :
    item.length = width := by
  obtain ⟨i, hi, rfl⟩ := List.mem_map.mp hitem
  refine length_slice ?_
  calc i * width + width = (i + 1) * width := (Nat.succ_mul i width).symm
    _ ≤ count * width := Nat.mul_le_mul_right width (List.mem_range.mp hi)
    _ = block.length := h.symm

theorem length_elements (width count : ℕ) (block : List UInt8) :
    (elements width count block).length = count := by
  simp [elements]

/-- Values that are stored one after the other stand there, and nothing else changes. -/
theorem storeItems_eq {width : ℕ} {items : List (List UInt8)} (hitems : ∀ item ∈ items, item.length = width)
    {i : ℕ} {block : List UInt8} (h : (i + items.length) * width ≤ block.length) :
    storeItems width i items block =
      block.take (i * width) ++ items.flatten ++ block.drop ((i + items.length) * width) := by
  induction items generalizing i block with
  | nil => simp [storeItems]
  | cons item rest ih =>
      have hitem : item.length = width := hitems item (by simp)
      have hfits : i * width + width ≤ block.length := by
        calc i * width + width = (i + 1) * width := (Nat.succ_mul i width).symm
          _ ≤ (i + (item :: rest).length) * width := Nat.mul_le_mul_right width (by simp)
          _ ≤ block.length := h
      have hlen : (overwrite block (i * width) item).length = block.length := by
        simp only [overwrite, List.length_append, List.length_take, List.length_drop, hitem]
        omega
      have hcount : i + 1 + rest.length = i + (item :: rest).length := by
        rw [List.length_cons]
        omega
      have hplace : (i + 1) * width = i * width + width := Nat.succ_mul i width
      have hfront : (block.take (i * width) ++ item).length = (i + 1) * width := by
        rw [List.length_append, List.length_take, hitem, hplace]
        omega
      have htake : (overwrite block (i * width) item).take ((i + 1) * width) =
          block.take (i * width) ++ item := by
        rw [overwrite, List.take_append_of_le_length hfront.ge, ← hfront, List.take_length]
      have hdrop : (overwrite block (i * width) item).drop ((i + 1 + rest.length) * width) =
          block.drop ((i + 1 + rest.length) * width) := by
        obtain ⟨k, hk⟩ : ∃ k, (i + 1 + rest.length) * width = (i + 1) * width + k :=
          Nat.exists_eq_add_of_le (Nat.mul_le_mul_right width (by omega))
        rw [hk, overwrite, ← hfront, List.drop_length_add_append, List.drop_drop, hfront, hplace, hitem]
      rw [storeItems, ih (fun e he => hitems e (by simp [he])) (by rw [hcount, hlen]; exact h), htake,
        hdrop, hcount]
      simp

/-- Memory that was allocated for the values holds them all. -/
theorem storeItems_replicate {width count : ℕ} {items : List (List UInt8)}
    (hitems : ∀ item ∈ items, item.length = width) (hcount : items.length = count) :
    storeItems width 0 items (List.replicate (count * width) 0) = items.flatten := by
  have hlen : (0 + items.length) * width = count * width := by rw [Nat.zero_add, hcount]
  rw [storeItems_eq hitems (by rw [hlen, List.length_replicate]), hlen,
    List.drop_eq_nil_of_le (by rw [List.length_replicate])]
  simp

theorem map_snd_numbered (items : List Bson) : (numbered items).map Prod.snd = items := by
  apply List.ext_getElem
  · simp [numbered]
  · intro i _ _
    simp [numbered]

/-! ## One value -/

section Values

variable {lib : BsonLib} (hlib : lib.Reads)

/-- A number of one of the four integer types. -/
def IsUint (dataType : ℕ) : Prop := dataType = 1 ∨ dataType = 2 ∨ dataType = 3 ∨ dataType = 4

theorem tagItem_isSome {dataType : ℕ} (htype : IsUint dataType) (item : List UInt8) :
    ∃ saved, tagItem lib dataType item = some saved := by
  rcases htype with rfl | rfl | rfl | rfl <;> exact ⟨_, rfl⟩

include hlib in
/-- A value of a tag is loaded as it was saved. -/
theorem tagLoadItem_tagItem {dataType : ℕ} (htype : IsUint dataType) {item : List UInt8}
    (hlen : item.length = dataTypeSize dataType) {saved : Bson}
    (hsaved : tagItem lib dataType item = some saved) :
    tagLoadItem lib dataType saved = some item := by
  have hitem : leBytes (dataTypeSize dataType) (leVal item) = item := by
    rw [← hlen, leBytes_leVal]
  rcases htype with rfl | rfl | rfl | rfl <;> obtain rfl := Option.some.inj hsaved
  · exact congrArg some ((congrArg _ (hlib.int _)).trans ((uintBytes_bmod (by decide) _).trans hitem))
  · exact congrArg some ((congrArg _ (hlib.int _)).trans ((uintBytes_bmod (by decide) _).trans hitem))
  · exact congrArg some ((congrArg _ (hlib.int _)).trans ((uintBytes_bmod (by decide) _).trans hitem))
  · exact congrArg some ((congrArg _ (hlib.long _)).trans ((uintBytes_bmod (by decide) _).trans hitem))

/-- What becomes of a value of a layer. -/
def reread (dataType : ℕ) (item : List UInt8) : List UInt8 :=
  if dataType = 4 then uintBytes 8 ((leVal item : ℤ).bmod (2 ^ 32)) else item

theorem layerItem_eq {dataType : ℕ} (htype : IsUint dataType) (item : List UInt8) :
    layerItem lib dataType item = some (appendInt (leVal item)) := by
  rcases htype with rfl | rfl | rfl | rfl <;> rfl

include hlib in
theorem layerLoadItem_appendInt {dataType : ℕ} (htype : IsUint dataType) {item : List UInt8}
    (hlen : item.length = dataTypeSize dataType) :
    layerLoadItem lib dataType (appendInt (leVal item)) = reread dataType item := by
  have hitem : leBytes (dataTypeSize dataType) (leVal item) = item := by
    rw [← hlen, leBytes_leVal]
  rcases htype with rfl | rfl | rfl | rfl
  · exact (congrArg _ (hlib.int _)).trans ((uintBytes_bmod (by decide) _).trans hitem)
  · exact (congrArg _ (hlib.int _)).trans ((uintBytes_bmod (by decide) _).trans hitem)
  · exact (congrArg _ (hlib.int _)).trans ((uintBytes_bmod (by decide) _).trans hitem)
  · rw [reread, if_pos rfl]
    exact congrArg (uintBytes 8) (hlib.longOfInt _)

theorem length_reread {dataType : ℕ} {item : List UInt8}
    (hlen : item.length = dataTypeSize dataType) :
    (reread dataType item).length = dataTypeSize dataType := by
  unfold reread
  split
  case isTrue h => rw [uintBytes, length_leBytes, h]; rfl
  case isFalse => exact hlen

/-- The 64-bit numbers that an `int` with its sign can stand for. -/
def FitsInt (v : ℕ) : Prop := v < 2 ^ 31 ∨ 2 ^ 64 - 2 ^ 31 ≤ v

/-- A 64-bit value survives if it fits. -/
theorem reread_eq_iff {dataType : ℕ} {item : List UInt8} (hlen : item.length = dataTypeSize dataType) :
    reread dataType item = item ↔ (dataType = 4 → FitsInt (leVal item)) := by
  unfold reread
  split
  case isFalse h => exact iff_of_true rfl fun h4 => absurd h4 h
  case isTrue h =>
    have hitem : leBytes 8 (leVal item) = item := by
      have hlen8 : item.length = 8 := by rw [hlen, h]; rfl
      rw [← hlen8, leBytes_leVal]
    have hlt : leVal item < 2 ^ 64 := by
      have hval := leVal_lt item
      rw [hlen, h] at hval
      exact hval
    have hnat : ((256 : ℤ) ^ 8) = 2 ^ 64 := by decide
    have hsame : uintBytes 8 ((leVal item : ℤ).bmod (2 ^ 32)) = item ↔
        ((leVal item : ℤ).bmod (2 ^ 32) % 2 ^ 64).toNat = leVal item := by
      constructor
      · intro heq
        have hval := congrArg leVal heq
        have hbound : ((leVal item : ℤ).bmod (2 ^ 32) % 2 ^ 64).toNat < 256 ^ 8 := by omega
        rwa [uintBytes, leVal_leBytes, hnat, Nat.mod_eq_of_lt hbound] at hval
      · intro heq
        rw [uintBytes, hnat, heq, hitem]
    rw [hsame, Int.bmod_def]
    unfold FitsInt
    split <;> omega

end Values

/-! ## One tag -/

/-- What is to survive of a tag. -/
structure TagContent where
  id : ℕ
  dataType : ℕ
  customType : ℕ
  count : ℕ
  value : Option (List UInt8)
  deriving DecidableEq, Repr

def tagContent (tag : VSTag) : TagContent :=
  ⟨tag.id, tag.dataType, tag.customType, tag.count, tag.value⟩

/-- An integer or string tag as `vs_tag_create` makes it: its members have their types, and the
memory is that of its values.  The value of a string tag may be missing. -/
structure StoredTag (tag : VSTag) : Prop where
  id_lt : tag.id < reservedEntityId
  customType_lt : tag.customType < 2 ^ 16
  count_lt : tag.count < 2 ^ 8
  memory : (IsUint tag.dataType ∧ ∃ block, tag.value = some block ∧
    block.length = tag.count * dataTypeSize tag.dataType) ∨ tag.dataType = valueTypeString8

/-- A string tag that was set, or any other one. -/
def IsSet (tag : VSTag) : Prop := tag.dataType = valueTypeString8 → tag.value ≠ none

theorem StoredTag.dataType_lt {tag : VSTag} (h : StoredTag tag) : tag.dataType < 2 ^ 8 := by
  rcases h.memory with ⟨htype, -⟩ | hstring
  · rcases htype with hone | htwo | hthree | hfour <;> omega
  · rw [hstring]
    decide

/-- An unset string cannot be saved, and everything else can. -/
theorem saveTag_isSome_iff {lib : BsonLib} {tag : VSTag} (h : StoredTag tag) :
    (∃ doc, saveTag lib tag = some doc) ↔ IsSet tag := by
  have hvalue : (∃ doc, saveTag lib tag = some doc) ↔ tag.value ≠ none := by
    unfold saveTag
    cases tag.value <;> simp
  rw [hvalue]
  constructor
  · exact fun hne _ => hne
  · intro hset
    rcases h.memory with ⟨-, block, hblock, -⟩ | hstring
    · simp [hblock]
    · exact hset hstring

section Tags

variable {lib : BsonLib} (hlib : lib.Reads)

theorem not_string_of_isUint {dataType : ℕ} (h : IsUint dataType) :
    dataType ≠ valueTypeString8 ∧ 0 < dataType ∧ dataType < valueTypeString8 := by
  rcases h with rfl | rfl | rfl | rfl <;> decide

theorem vsTagSetValues_one {tag : VSTag} (htype : IsUint tag.dataType) {block item : List UInt8}
    (hvalue : tag.value = some block) (hlen : item.length = dataTypeSize tag.dataType) (i : ℕ) :
    vsTagSetValues tag 1 i item =
      some { tag with value := some (overwrite block (i * dataTypeSize tag.dataType) item) } := by
  obtain ⟨hstring, hpos, hlt⟩ := not_string_of_isUint htype
  have htake : item.take (dataTypeSize tag.dataType) = item := by rw [← hlen, List.take_length]
  simp only [vsTagSetValues, if_neg hstring, if_pos (And.intro hpos hlt), hvalue, Option.map_some,
    Nat.one_mul, htake]

include hlib in
/-- The loop over the values stores them one after the other. -/
theorem loadTagItems_eq {items : List (List UInt8)} {tag : VSTag} (htype : IsUint tag.dataType)
    (hitems : ∀ item ∈ items, item.length = dataTypeSize tag.dataType) {i : ℕ}
    (hi : i + items.length ≤ 2 ^ 8) {block : List UInt8} (hvalue : tag.value = some block) :
    loadTagItems lib i (items.filterMap (tagItem lib tag.dataType)) tag =
      some { tag with value := some (storeItems (dataTypeSize tag.dataType) i items block) } := by
  induction items generalizing i block tag with
  | nil =>
      rw [List.filterMap_nil, loadTagItems, storeItems, ← hvalue]
  | cons item rest ih =>
      obtain ⟨saved, hsaved⟩ := @tagItem_isSome lib _ htype item
      have hlen := hitems item (by simp)
      have hcount : i + 1 + rest.length ≤ 2 ^ 8 := by
        rw [List.length_cons] at hi
        omega
      have hmod : i % 2 ^ 8 = i := Nat.mod_eq_of_lt (by omega)
      rw [List.filterMap_cons_some hsaved, loadTagItems]
      simp only [tagLoadItem_tagItem hlib htype hlen hsaved, hmod]
      rw [vsTagSetValues_one htype hvalue hlen, Option.bind_some]
      exact @ih { tag with value := some (overwrite block (i * dataTypeSize tag.dataType) item) } htype
        (fun e he => hitems e (by simp [he])) _ hcount _ rfl

include hlib in
/-- The variables hold what was read of the tag. -/
theorem TagHead.read_eq (head : TagHead) {tag : VSTag} (h : StoredTag tag) {doc : Doc}
    (hdoc : saveTag lib tag = some doc) :
    head.read lib doc = ⟨tag.dataType, tag.count, tag.customType⟩ := by
  obtain ⟨block, -, rfl⟩ := Option.map_eq_some_iff.mp hdoc
  have htype := appendInt_of_lt (lt_trans h.dataType_lt (by decide))
  have hcount := appendInt_of_lt (lt_trans h.count_lt (by decide))
  have hcustom := appendInt_of_lt (lt_trans h.customType_lt (by decide))
  rw [htype, hcount, hcustom]
  exact TagHead.mk.injEq .. ▸ ⟨hlib.int _, hlib.int _, hlib.int _⟩

include hlib in
/-- What was saved is stored in a new tag. -/
theorem vsMongoTagLoadData_saveTag {tag new : VSTag} (h : StoredTag tag) {doc : Doc}
    (hdoc : saveTag lib tag = some doc) (htype : new.dataType = tag.dataType)
    (hvalue : new.value = if tag.dataType = valueTypeString8 then none
      else some (List.replicate (tag.count * dataTypeSize tag.dataType) 0)) :
    ∃ new', vsMongoTagLoadData lib new doc = some new' ∧
      tagContent new' = { tagContent new with value := tag.value } := by
  obtain ⟨block, hblock, rfl⟩ := Option.map_eq_some_iff.mp hdoc
  rw [hblock]
  rcases h.memory with ⟨huint, block', hblock', hlen⟩ | hstring
  · obtain rfl : block = block' := Option.some.inj (hblock.symm.trans hblock')
    have hnot := (not_string_of_isUint huint).1
    have hitems : ∀ item ∈ elements (dataTypeSize tag.dataType) tag.count block,
        item.length = dataTypeSize tag.dataType := fun item => length_of_mem_elements hlen
    have hcount := length_elements (dataTypeSize tag.dataType) tag.count block
    have hfit : 0 + (elements (dataTypeSize tag.dataType) tag.count block).length ≤ 2 ^ 8 := by
      rw [hcount, Nat.zero_add]
      exact h.count_lt.le
    rw [← htype] at huint hitems hlen hcount hfit hvalue hnot
    have hload := loadTagItems_eq hlib huint hitems hfit (hvalue.trans (if_neg hnot))
    rw [storeItems_replicate hitems hcount, flatten_elements hlen] at hload
    refine ⟨{ new with value := some block }, ?_, rfl⟩
    rw [← hload]
    show (if new.dataType = valueTypeString8 then _
      else loadTagItems lib 0 ((numbered (tagItems lib tag block)).map Prod.snd) new) = _
    rw [if_neg hnot, map_snd_numbered, tagItems, ← htype, if_neg hnot]
  · have hnone : new.value = none := hvalue.trans (if_pos hstring)
    have hstring' : new.dataType = valueTypeString8 := htype.trans hstring
    have hread : lib.iteratorString (numbered (tagItems lib tag block)) = block := by
      rw [tagItems, if_pos hstring]
      exact hlib.string _ block []
    refine ⟨{ new with value := some block, size := block.length + 1 }, ?_, rfl⟩
    show (if new.dataType = valueTypeString8 then
      vsTagSetValues new 1 0 (lib.iteratorString (numbered (tagItems lib tag block))) else _) = _
    rw [if_pos hstring', hread, vsTagSetValues, if_pos hstring', hnone]

/-! ## All tags of a group -/

/-- The tags of a group. -/
def tagContents (d : VSData) (g : ℕ) : Option (List TagContent) := do
  let tg ← d.tagGroup g
  tg.tags.mapM fun b => (d.tag b.2).map tagContent

/-- The tags of a group stand in memory as the server makes them. -/
structure StoredGroup (d : VSData) (g : ℕ) (tags : List VSTag) : Prop where
  memory : ∃ tg, d.tagGroup g = some tg ∧ List.Forall₂ (fun b tag => d.tag b.2 = some tag) tg.tags tags
  stored : ∀ tag ∈ tags, StoredTag tag

/-- **Tags survive**: the group can be saved, and from what was saved every new tag group gets
the same tags. -/
def TagsSurvive (lib : BsonLib) (d : VSData) (g : ℕ) : Prop :=
  ∀ crc32, ∃ doc, vsMongoTaggroupSaveVersion lib d g crc32 lastVersion = some (lastVersion, .object doc) ∧
    ∀ d' g' tg', d'.tagGroup g' = some tg' → tg'.tags = [] →
      ∃ d'', vsMongoTaggroupLoadData lib d' g' doc = some d'' ∧ tagContents d'' g' = tagContents d g

/-- What was loaded so far. -/
def HoldsTags (d : VSData) (g : ℕ) (contents : List TagContent) : Prop :=
  ∃ tg, d.tagGroup g = some tg ∧
    List.Forall₂ (fun b c => b.2 < d.next ∧ (d.tag b.2).map tagContent = some c) tg.tags contents

/-- A tag with its name in the document of the group. -/
def saveField (lib : BsonLib) (tag : VSTag) : Option (Key × Bson) :=
  (saveTag lib tag).map fun doc => (Key.ofInt tag.id, .object doc)

theorem HoldsTags.tagContents {d : VSData} {g : ℕ} {contents : List TagContent}
    (h : HoldsTags d g contents) : tagContents d g = some contents := by
  obtain ⟨tg, htg, hall⟩ := h
  rw [Mongo.tagContents, htg, Option.bind_eq_bind, Option.bind_some,
    mapM_eq_of_forall₂ (g := some) hall fun b c hbc => hbc.2]
  exact mapM_eq_some_map (f := some) (g := id) (fun _ _ => rfl) |>.trans (by rw [List.map_id])

theorem StoredGroup.tagContents {d : VSData} {g : ℕ} {tags : List VSTag}
    (h : StoredGroup d g tags) : tagContents d g = some (tags.map tagContent) := by
  obtain ⟨tg, htg, hall⟩ := h.memory
  rw [Mongo.tagContents, htg, Option.bind_eq_bind, Option.bind_some,
    mapM_eq_of_forall₂ hall fun b tag hb => congrArg (Option.map tagContent) hb]
  exact mapM_eq_some_map fun _ _ => rfl

theorem StoredGroup.save {d : VSData} {g : ℕ} {tags : List VSTag} (h : StoredGroup d g tags)
    (crc32 : ℕ) (version : Key) :
    vsMongoTaggroupSaveVersion lib d g crc32 version =
      (tags.mapM (saveField lib)).map fun fields =>
        (version, .object [(.crc32, appendInt crc32), (.tags, .object fields)]) := by
  obtain ⟨tg, htg, hall⟩ := h.memory
  have hfields := mapM_eq_of_forall₂ (g := saveField lib) hall fun b tag hb =>
    show (do
      let tag ← d.tag b.2
      let doc ← saveTag lib tag
      pure (Key.ofInt tag.id, Bson.object doc)) = saveField lib tag by
        rw [hb]
        cases hsave : saveTag lib tag <;> simp [saveField, hsave]
  rw [vsMongoTaggroupSaveVersion, htg, Option.bind_eq_bind, Option.bind_some, hfields]
  cases tags.mapM (saveField lib) <;> rfl

/-- A tag that is created with an id of its own. -/
theorem vsTagCreate_spec {d : VSData} {g id : ℕ} {tg : VSTagGroup} (htg : d.tagGroup g = some tg)
    (hid : id ≠ reservedEntityId) (dataType count customType : ℕ) :
    ∃ d', vsTagCreate d g id dataType count customType = some (d', d.next) ∧
      d'.next = d.next + 1 ∧ (∀ a, a ≠ d.next → d'.tag a = d.tag a) ∧
      d'.tagGroup g = some { tg with tags := tg.tags ++ [(id, d.next)], lastTagId := id } ∧
      d'.tag d.next = some (newTag id dataType count customType) := by
  rw [vsTagCreate, if_neg hid, htg]
  exact ⟨_, rfl, rfl, fun a ha => Function.update_of_ne ha _ _, Function.update_self _ _ _,
    Function.update_self _ _ _⟩

/-- One pass of the loop over the tags, where every call goes through. -/
theorem loadTags_object {d d' : VSData} {g id a : ℕ} {key : Key} {doc rest : Doc}
    {head head' : TagHead} {new new' : VSTag} (hid : key.scan 16 = some id)
    (hhead : head.read lib doc = head')
    (hcomplete : head'.dataType ≠ -1 ∧ head'.count ≠ -1 ∧ head'.customType ≠ -1)
    (hcreate : vsTagCreate d g id (head'.dataType % 2 ^ 8).toNat (head'.count % 2 ^ 8).toNat
      (head'.customType % 2 ^ 16).toNat = some (d', a))
    (hnew : d'.tag a = some new) (hload : vsMongoTagLoadData lib new doc = some new') :
    loadTags lib g ((key, .object doc) :: rest) head d =
      loadTags lib g rest head'
        ((d'.setState a .created).setTag a (some { new' with initialized := true })) := by
  rw [loadTags, hid, Option.bind_eq_bind, Option.bind_some, hhead]
  dsimp only
  rw [if_pos hcomplete, hcreate, Option.bind_eq_bind, Option.bind_some]
  dsimp only
  rw [hnew, Option.bind_eq_bind, Option.bind_some, hload, Option.bind_some]

include hlib in
/-- What was saved of a tag becomes one more tag. -/
theorem loadTags_cons {d : VSData} {g : ℕ} {contents : List TagContent}
    (hd : HoldsTags d g contents) {tag : VSTag} (h : StoredTag tag) {field : Key × Bson}
    (hfield : saveField lib tag = some field) (rest : Doc) (head : TagHead) :
    ∃ d' head', loadTags lib g (field :: rest) head d = loadTags lib g rest head' d' ∧
      HoldsTags d' g (contents ++ [tagContent tag]) := by
  obtain ⟨doc, hdoc, rfl⟩ := Option.map_eq_some_iff.mp hfield
  obtain ⟨tg, htg, hall⟩ := hd
  have hid_lt : tag.id < 2 ^ 16 := lt_trans h.id_lt (by decide)
  have hid : tag.id ≠ reservedEntityId := h.id_lt.ne
  have htype : ((tag.dataType : ℤ) % 2 ^ 8).toNat = tag.dataType := by
    have hlt := h.dataType_lt
    omega
  have hcount : ((tag.count : ℤ) % 2 ^ 8).toNat = tag.count := by
    have hlt := h.count_lt
    omega
  have hcustom : ((tag.customType : ℤ) % 2 ^ 16).toNat = tag.customType := by
    have hlt := h.customType_lt
    omega
  obtain ⟨d', hcreate, hnext, hothers, htg', hnew⟩ :=
    vsTagCreate_spec htg hid tag.dataType tag.count tag.customType
  obtain ⟨new', hload, hcontent⟩ := @vsMongoTagLoadData_saveTag lib hlib tag
    (newTag tag.id tag.dataType tag.count tag.customType) h doc hdoc rfl rfl
  refine ⟨(d'.setState d.next .created).setTag d.next (some { new' with initialized := true }), _,
    loadTags_object (scan_ofInt (by decide) hid_lt) (TagHead.read_eq hlib head h hdoc) ?_ ?_ hnew hload,
    ?_⟩
  · exact ⟨natCast_ne_neg_one _, natCast_ne_neg_one _, natCast_ne_neg_one _⟩
  · rw [htype, hcount, hcustom, hcreate]
  · refine ⟨_, htg', List.rel_append (hall.imp ?_) (List.Forall₂.cons ⟨?_, ?_⟩ List.Forall₂.nil)⟩
    · intro b c hbc
      have hb : b.2 ≠ d.next := hbc.1.ne
      refine ⟨lt_of_lt_of_le hbc.1 (hnext ▸ Nat.le_succ d.next), ?_⟩
      show (Function.update d'.tag d.next _ b.2).map tagContent = some c
      rw [Function.update_of_ne hb, hothers b.2 hb]
      exact hbc.2
    · show d.next < d'.next
      omega
    · show (Function.update d'.tag d.next _ d.next).map tagContent = _
      rw [Function.update_self]
      exact congrArg some hcontent

include hlib in
/-- The loop over all tags. -/
theorem loadTags_eq {d : VSData} {g : ℕ} {contents : List TagContent} (hd : HoldsTags d g contents)
    {tags : List VSTag} (h : ∀ tag ∈ tags, StoredTag tag) {fields : Doc}
    (hfields : tags.mapM (saveField lib) = some fields) (head : TagHead) :
    ∃ d', loadTags lib g fields head d = some d' ∧ HoldsTags d' g (contents ++ tags.map tagContent) := by
  induction tags generalizing d contents fields head with
  | nil =>
      obtain rfl : [] = fields := Option.some.inj hfields
      refine ⟨d, rfl, ?_⟩
      simpa using hd
  | cons tag rest ih =>
      rw [List.mapM_cons, Option.bind_eq_bind, Option.bind_eq_some_iff] at hfields
      obtain ⟨field, hfield, hfields⟩ := hfields
      obtain ⟨fields', hrest, hfields⟩ := Option.bind_eq_some_iff.mp hfields
      obtain rfl : field :: fields' = fields := Option.some.inj hfields
      obtain ⟨d', head', hstep, hd'⟩ := loadTags_cons hlib hd (h tag (by simp)) hfield fields' head
      obtain ⟨d'', hload, hd''⟩ := ih hd' (fun t ht => h t (by simp [ht])) hrest head'
      refine ⟨d'', hstep.trans hload, ?_⟩
      rw [List.map_cons, List.append_cons]
      exact hd''

include hlib in
/-- **When the tags of a group survive.**  They do if and only if every string tag was set. -/
theorem tagsSurvive_iff {d : VSData} {g : ℕ} {tags : List VSTag} (h : StoredGroup d g tags) :
    TagsSurvive lib d g ↔ ∀ tag ∈ tags, IsSet tag := by
  constructor
  · intro hsurvive tag htag
    obtain ⟨doc, hsave, -⟩ := hsurvive 0
    rw [h.save, Option.map_eq_some_iff] at hsave
    obtain ⟨fields, hfields, -⟩ := hsave
    obtain ⟨field, -, hfield⟩ := mem_of_mapM_eq_some hfields htag
    obtain ⟨doc', hdoc', -⟩ := Option.map_eq_some_iff.mp hfield
    exact (saveTag_isSome_iff (h.stored tag htag)).mp ⟨doc', hdoc'⟩
  · intro hset crc32
    obtain ⟨fields, hfields⟩ := exists_mapM_eq_some (f := saveField lib) fun tag htag => by
      obtain ⟨doc, hdoc⟩ := (@saveTag_isSome_iff lib tag (h.stored tag htag)).mpr (hset tag htag)
      exact ⟨_, congrArg (Option.map _) hdoc⟩
    refine ⟨_, by rw [h.save, hfields]; rfl, fun d' g' tg' htg' htags => ?_⟩
    have hempty : HoldsTags d' g' [] := ⟨tg', htg', htags ▸ List.Forall₂.nil⟩
    obtain ⟨d'', hload, hd''⟩ := loadTags_eq hlib hempty h.stored hfields ⟨-1, -1, -1⟩
    exact ⟨d'', hload, hd''.tagContents.trans h.tagContents.symm⟩

end Tags

end Verse.Mongo
