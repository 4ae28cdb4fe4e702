import Verse.Commands.Pack

/-!
# How commands are unpacked

`v_unpack.c` and the receiving half of `v_commands.c`.  The buffer is what can be
read through the pointer, so a length that lies makes the code read on, as it
does in C.  The functions return the number of bytes they went over and the
commands they gave to `v_in_queue_push`, in that order.

`none` is a loop that does not end: `v_cmd_unpack` never leaves a buffer of which
one byte is left, and the loop over commands with strings never ends when the
announced length goes past the end of the buffer and nothing is left to read.
-/

namespace Verse

open Lib

/-! ## Numbers and strings -/

/-- `vnp_raw_unpack_uint8`. -/
def vnpRawUnpackUint8 (buf : Mem) : ℕ := (buf 0).toNat

/-- `vnp_raw_unpack_uint16` and `vnp_raw_unpack_real16`. -/
def vnpRawUnpackUint16 (buf : Mem) : ℕ := (buf 0).toNat * 2 ^ 8 + (buf 1).toNat

/-- `vnp_raw_unpack_uint32` and `vnp_raw_unpack_real32`. -/
def vnpRawUnpackUint32 (buf : Mem) : ℕ :=
  (buf 0).toNat * 2 ^ 24 + (buf 1).toNat * 2 ^ 16 + (buf 2).toNat * 2 ^ 8 + (buf 3).toNat

/-- `vnp_raw_unpack_uint64` and `vnp_raw_unpack_real64`. -/
def vnpRawUnpackUint64 (buf : Mem) : ℕ :=
  vnpRawUnpackUint32 buf * 2 ^ 32 + vnpRawUnpackUint32 (buf.shift 4)

/-- `vnp_raw_unpack_string8_to_str`: the bytes gone over and the string, as far
as a reader of a C string sees it.  With fewer than two bytes left no string is
made. -/
def vnpRawUnpackString8ToStr (buf : Mem) (bufferSize : ℕ) : ℕ × Option (List UInt8) :=
  if bufferSize < 2 then (bufferSize, none)
  else
    let length := vnpRawUnpackUint8 buf
    let length := if bufferSize < length + 1 then bufferSize - 1 else length
    (1 + length, some (((List.range length).map fun i => buf (1 + i)).takeWhile (· ≠ 0)))

/-! ## Items -/

/-- Writing `bytes` to `cmd->data` from `offset` on. -/
def GenericCmd.store (cmd : GenericCmd) (offset : ℕ) (bytes : List UInt8) : GenericCmd :=
  { cmd with data := cmd.data.take offset ++ bytes ++ cmd.data.drop (offset + bytes.length) }

/-- The bytes of `cmd->data`, without the pointer at a string. -/
def CmdStruct.dataSize (s : CmdStruct) : ℕ := (s.items.map fun item => item.type.dataWidth).sum

/-- A new command.  `malloc` leaves its bytes open; every one of them is written
before the command is used, so any value would do. -/
def GenericCmd.malloc (id : UInt8) : GenericCmd :=
  ⟨id, List.replicate (cmdStruct id.toNat).dataSize 0, none⟩

/-- The difference of two `uint32` values. -/
def sub32 (a b : ℕ) : ℕ := (a + 2 ^ 32 - b) % 2 ^ 32

/-- One pass of the loop over the items. -/
def unpackItem (buf : Mem) (bufferSize : ℕ) (item : CmdItem) (cmd : GenericCmd) :
    ℕ × GenericCmd :=
  match item.type with
  | .reserved => (0, cmd)
  | .int8 | .uint8 => (1, cmd.store item.offset (leBytes 1 (vnpRawUnpackUint8 buf)))
  | .int16 | .uint16 | .real16 => (2, cmd.store item.offset (leBytes 2 (vnpRawUnpackUint16 buf)))
  | .int32 | .uint32 | .real32 => (4, cmd.store item.offset (leBytes 4 (vnpRawUnpackUint32 buf)))
  | .int64 | .uint64 | .real64 => (8, cmd.store item.offset (leBytes 8 (vnpRawUnpackUint64 buf)))
  | .string8 =>
      let (size, str) := vnpRawUnpackString8ToStr buf bufferSize
      (size, { cmd with str := str })

/-- The loop over the items of one command. -/
def unpackItems (buf : Mem) (bufferLen : ℕ) : List CmdItem → ℕ → GenericCmd → ℕ × GenericCmd
  | [], pos, cmd => (pos, cmd)
  | item :: rest, pos, cmd =>
      let (size, cmd) := unpackItem (buf.shift pos) (sub32 bufferLen pos) item cmd
      unpackItems buf bufferLen rest (pos + size) cmd

/-! ## Commands -/

/-- One pass of the loops over the commands of a group.  `first` is the command
of the first pass, whose address the later ones copy. -/
def unpackNext (buf : Mem) (bufferLen : ℕ) (id : UInt8) (share skipItems : ℕ)
    (first : Option GenericCmd) (pos : ℕ) : ℕ × GenericCmd :=
  let s := cmdStruct id.toNat
  let items := s.items.take s.itemCount
  match first with
  | none => unpackItems buf bufferLen items pos (.malloc id)
  | some f =>
      unpackItems buf bufferLen (items.drop skipItems) pos
        ((GenericCmd.malloc id).store 0 (f.data.take share))

/-- The loop over commands of fixed length: `count` commands, as long as the
buffer is not at its end. -/
def unpackFixed (buf : Mem) (bufferLen : ℕ) (id : UInt8) (share skipItems : ℕ) :
    ℕ → Option GenericCmd → ℕ → ℕ × List GenericCmd
  | 0, _, pos => (pos, [])
  | count + 1, first, pos =>
      if pos < bufferLen then
        let (pos, cmd) := unpackNext buf bufferLen id share skipItems first pos
        let (pos, cmds) :=
          unpackFixed buf bufferLen id share skipItems count (some (first.getD cmd)) pos
        (pos, cmd :: cmds)
      else (pos, [])

/-- The loop over commands of variable length.  A pass that goes over no byte is
repeated for ever, so `length` passes are enough for every loop that ends. -/
def unpackVar (buf : Mem) (bufferLen : ℕ) (id : UInt8) (share skipItems length : ℕ) :
    ℕ → Option GenericCmd → ℕ → Option (ℕ × List GenericCmd)
  | 0, _, pos => if pos < length then none else some (pos, [])
  | fuel + 1, first, pos =>
      if pos < length then
        let (pos, cmd) := unpackNext buf bufferLen id share skipItems first pos
        (unpackVar buf bufferLen id share skipItems length fuel (some (first.getD cmd)) pos).map
          fun (pos, cmds) => (pos, cmd :: cmds)
      else some (pos, [])

section UnpackVar

variable {buf : Mem} {bufferLen : ℕ} {id : UInt8} {share skipItems length pos : ℕ}
  {first : Option GenericCmd}

theorem unpackVar_end (hpos : ¬ pos < length) (fuel : ℕ) :
    unpackVar buf bufferLen id share skipItems length fuel first pos = some (pos, []) := by
  cases fuel with
  | zero => exact if_neg hpos
  | succ fuel => exact if_neg hpos

theorem unpackVar_zero (hpos : pos < length) :
    unpackVar buf bufferLen id share skipItems length 0 first pos = none :=
  if_pos hpos

/-- One pass. -/
theorem unpackVar_next (hpos : pos < length) (fuel : ℕ) :
    unpackVar buf bufferLen id share skipItems length (fuel + 1) first pos =
      (unpackVar buf bufferLen id share skipItems length fuel
        (some (first.getD (unpackNext buf bufferLen id share skipItems first pos).2))
        (unpackNext buf bufferLen id share skipItems first pos).1).map fun (last, cmds) =>
          (last, (unpackNext buf bufferLen id share skipItems first pos).2 :: cmds) :=
  if_pos hpos

end UnpackVar

/-- `v_cmd_unpack_len`: the bytes gone over, the length, and the size of what
stands before the data. -/
def vCmdUnpackLen (buf : Mem) : ℕ × ℕ × ℕ :=
  let length8 := vnpRawUnpackUint8 buf
  if length8 = 0xFF then (3, vnpRawUnpackUint16 (buf.shift 1), 1 + 1 + 2)
  else (1, length8, 1 + 1)

/-- The second half of `_v_cmd_unpack`: the commands themselves. -/
def unpackData (buf : Mem) (bufferLen : ℕ) (id : UInt8)
    (length addrLen dataLen share skipItems pos : ℕ) : Option (ℕ × List GenericCmd) :=
  if !(cmdStruct id.toNat).varLen then
    -- `int` arithmetic: a length below the header size gives no commands
    let rest : ℤ := (length : ℤ) - addrLen
    if rest.tmod dataLen ≠ 0 then some (pos + length, [])
    else
      some (unpackFixed buf bufferLen id share skipItems (rest.tdiv dataLen).toNat none pos)
  else unpackVar buf bufferLen id share skipItems length length none pos

/-- `_v_cmd_unpack`. -/
def vCmdUnpackOne (buf : Mem) (bufferLen : ℕ) : Option (ℕ × List GenericCmd) :=
  let id := buf 0
  let s := cmdStruct id.toNat
  let (lenSize, length, addrLen) := vCmdUnpackLen (buf.shift 1)
  let pos := 1 + lenSize
  if !s.isNodeCmd then
    if 2 ≤ length ∧ length < sub32 bufferLen pos then some (pos + length, [])
    else some (bufferLen, [])
  else if s.sharesAddr then
    let share := (buf pos).toNat
    let pos := pos + 1
    let addrLen := addrLen + 1
    if share ≠ 0 then
      let (sharedSize, skipItems) := sharedItems share s.keyItems 0
      if sharedSize ≠ share then some (pos + length, [])
      else
        unpackData buf bufferLen id length (addrLen + share) (s.size - share) share skipItems pos
    else unpackData buf bufferLen id length addrLen s.size 0 0 pos
  else unpackData buf bufferLen id length addrLen s.size 0 0 pos

/-- The loop of `v_cmd_unpack`.  Every pass goes over at least two bytes, so
`bufferLen` passes are enough. -/
def unpackFrom (buf : Mem) (bufferLen : ℕ) : ℕ → ℕ → Option (ℕ × List GenericCmd)
  | 0, pos => if pos < bufferLen then none else some (pos, [])
  | fuel + 1, pos =>
      if pos < bufferLen then
        if 2 ≤ bufferLen - pos then
          match vCmdUnpackOne (buf.shift pos) (bufferLen - pos) with
          | none => none
          | some (size, cmds) =>
              (unpackFrom buf bufferLen fuel (pos + size)).map
                fun (pos, rest) => (pos, cmds ++ rest)
        else none
      else some (pos, [])

/-- `v_cmd_unpack`. -/
def vCmdUnpack (buf : Mem) (bufferLen : UInt16) : Option (ℕ × List GenericCmd) :=
  unpackFrom buf bufferLen.toNat bufferLen.toNat 0

end Verse
