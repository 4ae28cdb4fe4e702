import Mathlib.Data.List.Basic
import Mathlib.Tactic.Common

/-!
# The table of command layouts

`cmdStruct` is `cmd_struct` of `v_commands.c`: for each of the 256 command ids
the flags of the command, the size of its address (key) and of the whole command
in memory, its size in a packet, and the list of its items.  An id without a
layout has the entry `reserved`, all of whose fields are zero.

Sizes are those of a platform with 8-byte pointers (`STRING8_SIZE` is
`sizeof(char*)`).  The texts of the table (`name`) are only printed; they stand
here as comments.
-/

namespace Verse

/-! ## Command ids -/

def cmdReservedId : ℕ := 0
def minCmdId : ℕ := 32
def maxCmdId : ℕ := 255

def cmdNodeCreate : ℕ := 32
def cmdNodeDestroy : ℕ := 33
def cmdTaggroupCreate : ℕ := 64
def cmdTaggroupDestroy : ℕ := 65
def cmdTagCreate : ℕ := 68
def cmdTagDestroy : ℕ := 69
def cmdTagSetString8 : ℕ := 98
def cmdLayerCreate : ℕ := 128
def cmdLayerDestroy : ℕ := 129

/-! ## Items and layouts -/

/-- `Cmd_Item_Type`. -/
inductive CmdItemType where
  | reserved
  | int8
  | uint8
  | int16
  | uint16
  | int32
  | uint32
  | int64
  | uint64
  | real16
  | real32
  | real64
  | string8
  deriving DecidableEq, Repr

/-- The bytes an item of this type takes in memory; a string is a pointer. -/
def CmdItemType.width : CmdItemType → ℕ
  | .reserved => 0
  | .int8 | .uint8 => 1
  | .int16 | .uint16 | .real16 => 2
  | .int32 | .uint32 | .real32 => 4
  | .int64 | .uint64 | .real64 => 8
  | .string8 => 8

/-- `Cmd_Item`: `size` is what the table says, which is not always the width of
the type. -/
structure CmdItem where
  type : CmdItemType
  size : ℕ
  offset : ℕ
  deriving DecidableEq, Repr

def nodeCmdFlag : ℕ := 1
def fakeCmdFlag : ℕ := 2
def shareAddrFlag : ℕ := 4
def remDupFlag : ℕ := 8
def varLenFlag : ℕ := 16

/-- `Cmd_Struct`. -/
structure CmdStruct where
  flag : ℕ
  keySize : ℕ
  size : ℕ
  cmdSize : ℕ
  itemCount : ℕ
  keyCount : ℕ
  items : List CmdItem
  deriving DecidableEq, Repr

namespace CmdStruct

def isNodeCmd (s : CmdStruct) : Bool := s.flag &&& nodeCmdFlag != 0
def sharesAddr (s : CmdStruct) : Bool := s.flag &&& shareAddrFlag != 0
def remDup (s : CmdStruct) : Bool := s.flag &&& remDupFlag != 0
def varLen (s : CmdStruct) : Bool := s.flag &&& varLenFlag != 0

/-- An id that is no command. -/
def reserved : CmdStruct := ⟨0, 0, 0, 0, 0, 0, [⟨.reserved, 0, 0⟩]⟩

end CmdStruct

/-! ## Layout families

`Tag_Set_*` and `Layer_Set_Value_*` come for each value type as a scalar and as
vectors of two, three and four values. -/

/-- The `count` value items of a set command, from `offset` on. -/
def valueItems (type : CmdItemType) (size offset count : ℕ) : List CmdItem :=
  (List.range count).map fun i => ⟨type, size, offset + i * type.width⟩

/-- `Tag_Set_*`: node, tag group and tag are the address. -/
def tagSet (type : CmdItemType) (count : ℕ) : CmdStruct where
  flag := nodeCmdFlag + shareAddrFlag + remDupFlag
  keySize := 4 + 2 + 2
  size := 4 + 2 + 2 + count * type.width
  cmdSize := 1 + 1 + 1 + 4 + 2 + 2 + count * type.width
  itemCount := 3 + count
  keyCount := 3
  items := [⟨.uint32, 4, 0⟩, ⟨.uint16, 2, 4⟩, ⟨.uint16, 2, 6⟩] ++
    valueItems type type.width 8 count

/-- `Layer_Set_Value_*`: node and layer are the address, the item id is not.
`size` is the size the table gives to the value items. -/
def layerSet (type : CmdItemType) (size count : ℕ) : CmdStruct where
  flag := nodeCmdFlag + shareAddrFlag
  keySize := 4 + 2
  size := 4 + 2 + 4 + count * type.width
  cmdSize := 1 + 1 + 1 + 4 + 2 + 4 + count * type.width
  itemCount := 3 + count
  keyCount := 2
  items := [⟨.uint32, 4, 0⟩, ⟨.uint16, 2, 4⟩, ⟨.uint32, 4, 6⟩] ++
    valueItems type size 10 count

/-- `TagGroup_Subscribe`, `TagGroup_Unsubscribe`, `Layer_Subscribe` and
`Layer_UnSubscribe`: node id, entity id, version and checksum. -/
def entitySubscribe : CmdStruct where
  flag := nodeCmdFlag + shareAddrFlag
  keySize := 4
  size := 4 + 2 + 4 + 4
  cmdSize := 1 + 1 + 1 + 4 + 2 + 4 + 4
  itemCount := 4
  keyCount := 1
  items := [⟨.uint32, 4, 0⟩, ⟨.uint16, 2, 4⟩, ⟨.uint32, 4, 6⟩, ⟨.uint32, 4, 10⟩]

/-- `TagGroup_Destroy` and `Layer_Destroy`. -/
def entityDestroy : CmdStruct where
  flag := nodeCmdFlag + shareAddrFlag
  keySize := 4
  size := 4 + 2
  cmdSize := 1 + 1 + 1 + 4 + 2
  itemCount := 2
  keyCount := 1
  items := [⟨.uint32, 4, 0⟩, ⟨.uint16, 2, 4⟩]

/-- `Node_Subscribe` and `Node_UnSubscribe`. -/
def nodeSubscribe : CmdStruct where
  flag := nodeCmdFlag + remDupFlag
  keySize := 4
  size := 4 + 4 + 4
  cmdSize := 1 + 1 + 4 + 4 + 4
  itemCount := 3
  keyCount := 1
  items := [⟨.uint32, 4, 0⟩, ⟨.uint32, 4, 4⟩, ⟨.uint32, 4, 8⟩]

/-- `Node_Link`, `Node_Lock` and `Node_UnLock`: the first of two node ids is the
address. -/
def nodePair : CmdStruct where
  flag := nodeCmdFlag + shareAddrFlag
  keySize := 4
  size := 4 + 4
  cmdSize := 1 + 1 + 1 + 4 + 4
  itemCount := 2
  keyCount := 1
  items := [⟨.uint32, 4, 0⟩, ⟨.uint32, 4, 4⟩]

/-- `Tag_Create` and `Layer_Create`. -/
def entityCreate : CmdStruct where
  flag := nodeCmdFlag + shareAddrFlag
  keySize := 4 + 2
  size := 4 + 2 + 2 + 1 + 1 + 2
  cmdSize := 1 + 1 + 1 + 4 + 2 + 2 + 1 + 1 + 2
  itemCount := 6
  keyCount := 2
  items := [⟨.uint32, 4, 0⟩, ⟨.uint16, 2, 4⟩, ⟨.uint16, 2, 6⟩, ⟨.uint8, 1, 8⟩, ⟨.uint8, 1, 9⟩,
    ⟨.uint16, 2, 10⟩]

/-! ## The layouts that occur once -/

/-- `Node_Create`: user, parent, node, custom type. -/
def nodeCreate : CmdStruct where
  flag := nodeCmdFlag + shareAddrFlag
  keySize := 2 + 4
  size := 2 + 4 + 4 + 2
  cmdSize := 1 + 1 + 1 + 2 + 4 + 4 + 2
  itemCount := 4
  keyCount := 2
  items := [⟨.uint16, 2, 0⟩, ⟨.uint32, 4, 2⟩, ⟨.uint32, 4, 6⟩, ⟨.uint16, 2, 10⟩]

/-- `Node_Destroy`. -/
def nodeDestroy : CmdStruct where
  flag := nodeCmdFlag + remDupFlag
  keySize := 4
  size := 4
  cmdSize := 1 + 1 + 4
  itemCount := 1
  keyCount := 1
  items := [⟨.uint32, 4, 0⟩]

/-- `Node_Permision`: user and permissions are the address. -/
def nodePermission : CmdStruct where
  flag := nodeCmdFlag + shareAddrFlag
  keySize := 2 + 1
  size := 2 + 1 + 4
  cmdSize := 1 + 1 + 1 + 2 + 1 + 4
  itemCount := 3
  keyCount := 2
  items := [⟨.uint16, 2, 0⟩, ⟨.uint8, 1, 2⟩, ⟨.uint32, 4, 3⟩]

/-- `Node_Owner`. -/
def nodeOwner : CmdStruct where
  flag := nodeCmdFlag + shareAddrFlag
  keySize := 2
  size := 2 + 4
  cmdSize := 1 + 1 + 1 + 2 + 4
  itemCount := 2
  keyCount := 1
  items := [⟨.uint16, 2, 0⟩, ⟨.uint32, 4, 2⟩]

/-- `Node_Priority`. -/
def nodePriority : CmdStruct where
  flag := nodeCmdFlag + shareAddrFlag
  keySize := 1
  size := 1 + 4
  cmdSize := 1 + 1 + 1 + 1 + 4
  itemCount := 2
  keyCount := 1
  items := [⟨.uint8, 1, 0⟩, ⟨.uint32, 4, 1⟩]

/-- `TagGroup_Create`. -/
def taggroupCreate : CmdStruct where
  flag := nodeCmdFlag + shareAddrFlag
  keySize := 4
  size := 4 + 2 + 2
  cmdSize := 1 + 1 + 1 + 4 + 2 + 2
  itemCount := 3
  keyCount := 1
  items := [⟨.uint32, 4, 0⟩, ⟨.uint16, 2, 4⟩, ⟨.uint16, 2, 6⟩]

/-- `Tag_Set_String8`: the value is a pointer at a string. -/
def tagSetString8 : CmdStruct where
  flag := nodeCmdFlag + shareAddrFlag + remDupFlag + varLenFlag
  keySize := 4 + 2 + 2
  size := 4 + 2 + 2 + 8
  cmdSize := 1 + 1 + 1 + 4 + 2 + 2 + 1 + 1
  itemCount := 4
  keyCount := 3
  items := [⟨.uint32, 4, 0⟩, ⟨.uint16, 2, 4⟩, ⟨.uint16, 2, 6⟩, ⟨.string8, 8, 8⟩]

/-- `Layer_UnSet_Value`. -/
def layerUnset : CmdStruct where
  flag := nodeCmdFlag + shareAddrFlag
  keySize := 4 + 2
  size := 4 + 2 + 4
  cmdSize := 1 + 1 + 1 + 4 + 2 + 4
  itemCount := 3
  keyCount := 2
  items := [⟨.uint32, 4, 0⟩, ⟨.uint16, 2, 4⟩, ⟨.uint32, 4, 6⟩]

/-! ## The table -/

/-- Entries 32 to 43. -/
def nodeCmdTable : List CmdStruct :=
  [nodeCreate, nodeDestroy, nodeSubscribe, nodeSubscribe, .reserved, nodePair, nodePermission,
    .reserved, nodeOwner, nodePair, nodePair, nodePriority]

/-- Entries 64 to 98. -/
def taggroupCmdTable : List CmdStruct :=
  [taggroupCreate, entityDestroy, entitySubscribe, entitySubscribe, entityCreate] ++
    -- `Tag_Destroy`
    [{ flag := nodeCmdFlag + shareAddrFlag, keySize := 4 + 2, size := 4 + 2 + 2,
       cmdSize := 1 + 1 + 1 + 4 + 2 + 2, itemCount := 3, keyCount := 2,
       items := [⟨.uint32, 4, 0⟩, ⟨.uint16, 2, 4⟩, ⟨.uint16, 2, 6⟩] }] ++
    [tagSet .uint8 1, tagSet .uint8 2, tagSet .uint8 3, tagSet .uint8 4] ++
    [tagSet .uint16 1, tagSet .uint16 2, tagSet .uint16 3, tagSet .uint16 4] ++
    [tagSet .uint32 1, tagSet .uint32 2, tagSet .uint32 3, tagSet .uint32 4] ++
    [tagSet .uint64 1, tagSet .uint64 2, tagSet .uint64 3, tagSet .uint64 4] ++
    [tagSet .real16 1, tagSet .real16 2, tagSet .real16 3, tagSet .real16 4] ++
    [tagSet .real32 1, tagSet .real32 2, tagSet .real32 3, tagSet .real32 4] ++
    [tagSet .real64 1, tagSet .real64 2, tagSet .real64 3, tagSet .real64 4] ++
    [tagSetString8]

/-- Entries 128 to 160.  The table gives the size of a 32-bit item to the 16-bit
and 64-bit layer values. -/
def layerCmdTable : List CmdStruct :=
  [entityCreate, entityDestroy, entitySubscribe, entitySubscribe, layerUnset] ++
    [layerSet .uint8 1 1, layerSet .uint8 1 2, layerSet .uint8 1 3, layerSet .uint8 1 4] ++
    [layerSet .uint16 4 1, layerSet .uint16 4 2, layerSet .uint16 4 3, layerSet .uint16 4 4] ++
    [layerSet .uint32 4 1, layerSet .uint32 4 2, layerSet .uint32 4 3, layerSet .uint32 4 4] ++
    [layerSet .uint64 4 1, layerSet .uint64 4 2, layerSet .uint64 4 3, layerSet .uint64 4 4] ++
    [layerSet .real16 2 1, layerSet .real16 2 2, layerSet .real16 2 3, layerSet .real16 2 4] ++
    [layerSet .real32 4 1, layerSet .real32 4 2, layerSet .real32 4 3, layerSet .real32 4 4] ++
    [layerSet .real64 8 1, layerSet .real64 8 2, layerSet .real64 8 3, layerSet .real64 8 4]

/-- All 256 entries in the order of the source. -/
def cmdStructTable : List CmdStruct :=
  List.replicate 32 .reserved ++ nodeCmdTable ++ List.replicate 20 .reserved ++
    taggroupCmdTable ++ List.replicate 29 .reserved ++ layerCmdTable ++
    List.replicate 95 .reserved

/-- `cmd_struct[id]`. -/
def cmdStruct (id : ℕ) : CmdStruct := cmdStructTable.getD id .reserved

end Verse
