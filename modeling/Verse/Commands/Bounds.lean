import Verse.Commands.Layout

/-!
# Buffers whose node commands lie in the buffer

`_v_cmd_unpack` takes the lengths it finds for true: only a string is cropped at
the end of the buffer.  `NodeFramed` describes the buffers for which this does no
harm: every command that is begun ends in the buffer.

`NodeFramed.unpackFrom` says that such a buffer is read to its last byte and that
nothing behind it matters, `nodeFramed_of_safe` that every other buffer is read too
far, gives commands that depend on what follows, or is never left.
-/

namespace Verse

open Lib

/-! ## Items -/

/-- The bytes a string takes when `rest` bytes of the buffer are left. -/
def stringSpan (buf : Mem) (rest : ℕ) : ℕ :=
  if rest < 2 then rest else 1 + min (buf 0).toNat (rest - 1)

/-- The items of a command that begins at the first position end at the second, and
they lie in the buffer. -/
inductive ItemsFit (buf : Mem) (bufferLen : ℕ) : List CmdItem → ℕ → ℕ → Prop where
  | nil {pos : ℕ} (hpos : pos ≤ bufferLen) : ItemsFit buf bufferLen [] pos pos
  | scalar {item : CmdItem} {rest : List CmdItem} {pos last : ℕ} (htype : item.type ≠ .string8)
      (htail : ItemsFit buf bufferLen rest (pos + item.type.dataWidth) last) :
      ItemsFit buf bufferLen (item :: rest) pos last
  | string8 {item : CmdItem} {rest : List CmdItem} {pos last : ℕ} (htype : item.type = .string8)
      (htail : ItemsFit buf bufferLen rest
        (pos + stringSpan (buf.shift pos) (bufferLen - pos)) last) :
      ItemsFit buf bufferLen (item :: rest) pos last

theorem ItemsFit.le_last {buf : Mem} {bufferLen : ℕ} {items : List CmdItem} {pos last : ℕ}
    (h : ItemsFit buf bufferLen items pos last) : pos ≤ last ∧ last ≤ bufferLen := by
  induction h with
  | nil hpos => exact ⟨le_rfl, hpos⟩
  | scalar _ _ ih => exact ⟨by omega, ih.2⟩
  | string8 _ _ ih => exact ⟨by omega, ih.2⟩

theorem vnpRawUnpackUint16_agree {n : ℕ} {m m' : Mem} (h : Agree n m m') (hn : 2 ≤ n) :
    vnpRawUnpackUint16 m = vnpRawUnpackUint16 m' := by
  rw [vnpRawUnpackUint16, vnpRawUnpackUint16, h 0 (by omega), h 1 (by omega)]

theorem vnpRawUnpackUint32_agree {n : ℕ} {m m' : Mem} (h : Agree n m m') (hn : 4 ≤ n) :
    vnpRawUnpackUint32 m = vnpRawUnpackUint32 m' := by
  rw [vnpRawUnpackUint32, vnpRawUnpackUint32, h 0 (by omega), h 1 (by omega), h 2 (by omega),
    h 3 (by omega)]

/-- What a scalar item takes from the buffer. -/
theorem unpackItem_scalar_agree {n : ℕ} {m m' : Mem} {item : CmdItem} (htype : item.type ≠ .string8)
    (h : Agree n m m') (hn : item.type.dataWidth ≤ n) (size size' : ℕ) (cmd : GenericCmd) :
    unpackItem m size item cmd = unpackItem m' size' item cmd := by
  have h32 : 8 ≤ n → vnpRawUnpackUint32 (m.shift 4) = vnpRawUnpackUint32 (m'.shift 4) :=
    fun h8 => vnpRawUnpackUint32_agree (h.shift 4) (by omega)
  unfold unpackItem
  cases hitem : item.type <;> rw [hitem] at hn <;>
    simp only [CmdItemType.dataWidth, CmdItemType.width] at hn
  case string8 => exact absurd hitem htype
  case int8 | uint8 => simp only [vnpRawUnpackUint8, h 0 (by omega)]
  case int16 | uint16 | real16 => simp only [vnpRawUnpackUint16_agree h hn]
  case int32 | uint32 | real32 => simp only [vnpRawUnpackUint32_agree h hn]
  case int64 | uint64 | real64 =>
    simp only [vnpRawUnpackUint64, vnpRawUnpackUint32_agree h (by omega), h32 hn]

theorem unpackItem_scalar_size {m : Mem} {item : CmdItem} (htype : item.type ≠ .string8) (size : ℕ)
    (cmd : GenericCmd) : (unpackItem m size item cmd).1 = item.type.dataWidth := by
  unfold unpackItem
  cases hitem : item.type <;> first | rfl | exact absurd hitem htype

/-- A string that is left in the buffer is cropped to it. -/
theorem vnpRawUnpackString8ToStr_agree {rest : ℕ} {m m' : Mem} (h : Agree rest m m') :
    vnpRawUnpackString8ToStr m rest = vnpRawUnpackString8ToStr m' rest := by
  unfold vnpRawUnpackString8ToStr
  split
  case isTrue => rfl
  case isFalse hrest =>
    have hlen : vnpRawUnpackUint8 m = vnpRawUnpackUint8 m' := by
      rw [vnpRawUnpackUint8, vnpRawUnpackUint8, h 0 (by omega)]
    simp only [hlen]
    congr 3
    refine List.map_congr_left fun i hi => h (1 + i) ?_
    rw [List.mem_range] at hi
    split at hi <;> omega

theorem vnpRawUnpackString8ToStr_size (m : Mem) (rest : ℕ) :
    (vnpRawUnpackString8ToStr m rest).1 = stringSpan m rest := by
  unfold vnpRawUnpackString8ToStr stringSpan
  split
  case isTrue => rfl
  case isFalse =>
    show 1 + (if rest < (m 0).toNat + 1 then rest - 1 else (m 0).toNat) = _
    split <;> omega

theorem unpackItem_string_size {m : Mem} {item : CmdItem} (htype : item.type = .string8) (size : ℕ)
    (cmd : GenericCmd) : (unpackItem m size item cmd).1 = stringSpan m size := by
  rw [← vnpRawUnpackString8ToStr_size, unpackItem, htype]

theorem sub32_of_le {a b : ℕ} (ha : a < 2 ^ 32) (h : b ≤ a) : sub32 a b = a - b := by
  unfold sub32
  omega

/-- Items that lie in the buffer are read as they are, whatever follows it. -/
theorem ItemsFit.unpackItems {buf buf' : Mem} {bufferLen : ℕ} (hlt : bufferLen < 2 ^ 32)
    (hagree : Agree bufferLen buf buf') {items : List CmdItem} {pos last : ℕ}
    (h : ItemsFit buf bufferLen items pos last) (cmd : GenericCmd) :
    Verse.unpackItems buf' bufferLen items pos cmd = Verse.unpackItems buf bufferLen items pos cmd ∧
      (Verse.unpackItems buf bufferLen items pos cmd).1 = last := by
  induction h generalizing cmd with
  | nil => exact ⟨rfl, rfl⟩
  | @scalar item rest pos last htype htail ih =>
      have hle := htail.le_last
      have hsame := unpackItem_scalar_agree htype (hagree.shift pos) (by omega)
        (sub32 bufferLen pos) (sub32 bufferLen pos) cmd
      have hsize := unpackItem_scalar_size htype (m := buf.shift pos) (sub32 bufferLen pos) cmd
      rw [Verse.unpackItems, Verse.unpackItems, ← hsame]
      simp only [hsize]
      exact ih _
  | @string8 item rest pos last htype htail ih =>
      have hle := htail.le_last
      have hsub := sub32_of_le hlt (show pos ≤ bufferLen by omega)
      have hsame := vnpRawUnpackString8ToStr_agree (hagree.shift pos)
      have hsize := vnpRawUnpackString8ToStr_size (buf.shift pos) (bufferLen - pos)
      rw [Verse.unpackItems, Verse.unpackItems, hsub]
      simp only [unpackItem, htype, ← hsame, hsize]
      exact ih _

theorem unpackItems_cons (buf : Mem) (bufferLen : ℕ) (item : CmdItem) (rest : List CmdItem) (pos : ℕ)
    (cmd : GenericCmd) :
    unpackItems buf bufferLen (item :: rest) pos cmd =
      unpackItems buf bufferLen rest
        (pos + (unpackItem (buf.shift pos) (sub32 bufferLen pos) item cmd).1)
        (unpackItem (buf.shift pos) (sub32 bufferLen pos) item cmd).2 := rfl

theorem le_unpackItems (buf : Mem) (bufferLen : ℕ) (items : List CmdItem) (pos : ℕ)
    (cmd : GenericCmd) : pos ≤ (unpackItems buf bufferLen items pos cmd).1 := by
  induction items generalizing pos cmd with
  | nil => exact le_rfl
  | cons item rest ih =>
      rw [unpackItems]
      exact (Nat.le_add_right _ _).trans (ih _ _)

theorem add_widthSum_le_unpackItems (buf : Mem) (bufferLen : ℕ) (items : List CmdItem) (pos : ℕ)
    (cmd : GenericCmd) : pos + widthSum items ≤ (unpackItems buf bufferLen items pos cmd).1 := by
  induction items generalizing pos cmd with
  | nil => exact le_rfl
  | cons item rest ih =>
      have hsum : widthSum (item :: rest) = item.type.dataWidth + widthSum rest := by
        simp [widthSum]
      have hsize : item.type.dataWidth ≤
          (unpackItem (buf.shift pos) (sub32 bufferLen pos) item cmd).1 := by
        by_cases htype : item.type = .string8
        · rw [htype]
          exact Nat.zero_le _
        · exact (unpackItem_scalar_size htype _ cmd).ge
      rw [unpackItems_cons, hsum, ← Nat.add_assoc]
      exact (Nat.add_le_add_right (Nat.add_le_add_left hsize pos) _).trans (ih _ _)

/-- Items that are not read behind the end lie in the buffer. -/
theorem itemsFit_of_le {buf : Mem} {bufferLen : ℕ} (hlt : bufferLen < 2 ^ 32) {items : List CmdItem}
    {pos : ℕ} {cmd : GenericCmd} (h : (unpackItems buf bufferLen items pos cmd).1 ≤ bufferLen) :
    ItemsFit buf bufferLen items pos (unpackItems buf bufferLen items pos cmd).1 := by
  induction items generalizing pos cmd with
  | nil => exact .nil h
  | cons item rest ih =>
      rw [unpackItems_cons] at h ⊢
      have hle := le_unpackItems buf bufferLen rest
        (pos + (unpackItem (buf.shift pos) (sub32 bufferLen pos) item cmd).1)
        (unpackItem (buf.shift pos) (sub32 bufferLen pos) item cmd).2
      have htail := ih h
      by_cases htype : item.type = .string8
      · have hsub := sub32_of_le hlt ((Nat.le_add_right pos _).trans (hle.trans h))
        have hsize := unpackItem_string_size htype (m := buf.shift pos) (sub32 bufferLen pos) cmd
        rw [hsub] at hsize
        rw [hsub, hsize] at htail
        rw [hsub, hsize]
        exact .string8 htype htail
      · have hsize := unpackItem_scalar_size htype (m := buf.shift pos) (sub32 bufferLen pos) cmd
        rw [hsize] at htail ⊢
        exact .scalar htype htail

/-! ## Groups -/

/-- The items that are read of the first command of a group, and of the later ones. -/
def groupItems (id : UInt8) (skipItems : ℕ) (started : Bool) : List CmdItem :=
  let s := cmdStruct id.toNat
  (s.items.take s.itemCount).drop (if started then skipItems else 0)

/-- A group of at most `count` commands of fixed length: it ends with the last of
them or with the buffer. -/
inductive FixedRun (buf : Mem) (bufferLen : ℕ) (id : UInt8) (skipItems : ℕ) :
    ℕ → Bool → ℕ → ℕ → Prop where
  | complete {started : Bool} {pos : ℕ} : FixedRun buf bufferLen id skipItems 0 started pos pos
  | atEnd {count : ℕ} {started : Bool} :
      FixedRun buf bufferLen id skipItems (count + 1) started bufferLen bufferLen
  | next {count : ℕ} {started : Bool} {pos mid last : ℕ} (hpos : pos < bufferLen)
      (hitems : ItemsFit buf bufferLen (groupItems id skipItems started) pos mid)
      (hrest : FixedRun buf bufferLen id skipItems count true mid last) :
      FixedRun buf bufferLen id skipItems (count + 1) started pos last

/-- A group of commands of variable length up to position `length`.  Each command
takes at least a byte. -/
inductive VarRun (buf : Mem) (bufferLen : ℕ) (id : UInt8) (skipItems length : ℕ) :
    Bool → ℕ → ℕ → Prop where
  | complete {started : Bool} {pos : ℕ} (hpos : length ≤ pos) :
      VarRun buf bufferLen id skipItems length started pos pos
  | next {started : Bool} {pos mid last : ℕ} (hpos : pos < length) (hmid : pos < mid)
      (hitems : ItemsFit buf bufferLen (groupItems id skipItems started) pos mid)
      (hrest : VarRun buf bufferLen id skipItems length true mid last) :
      VarRun buf bufferLen id skipItems length started pos last

/-- What a pass starts with: the address of the first command, if it was read. -/
def groupStart (id : UInt8) (share : ℕ) : Option GenericCmd → GenericCmd
  | none => .malloc id
  | some f => (GenericCmd.malloc id).store 0 (f.data.take share)

theorem unpackNext_eq (buf : Mem) (bufferLen : ℕ) (id : UInt8) (share skipItems : ℕ)
    (first : Option GenericCmd) (pos : ℕ) :
    unpackNext buf bufferLen id share skipItems first pos =
      unpackItems buf bufferLen (groupItems id skipItems first.isSome) pos
        (groupStart id share first) := by
  cases first <;> rfl

section Runs

variable {buf buf' : Mem} {bufferLen : ℕ} {id : UInt8} {skipItems : ℕ}

theorem FixedRun.unpackFixed (hlt : bufferLen < 2 ^ 32) (hagree : Agree bufferLen buf buf')
    (share : ℕ) {count : ℕ} {started : Bool} {pos last : ℕ}
    (h : FixedRun buf bufferLen id skipItems count started pos last)
    {first : Option GenericCmd} (hfirst : first.isSome = started) :
    Verse.unpackFixed buf' bufferLen id share skipItems count first pos =
        Verse.unpackFixed buf bufferLen id share skipItems count first pos ∧
      (Verse.unpackFixed buf bufferLen id share skipItems count first pos).1 = last := by
  induction h generalizing first with
  | complete => exact ⟨rfl, rfl⟩
  | atEnd =>
      rw [Verse.unpackFixed, Verse.unpackFixed, if_neg (Nat.lt_irrefl _),
        if_neg (Nat.lt_irrefl _)]
      exact ⟨rfl, rfl⟩
  | @next count started pos mid last hpos hitems _ ih =>
      subst hfirst
      obtain ⟨hsame, hmid⟩ := hitems.unpackItems hlt hagree (groupStart id share first)
      rw [← unpackNext_eq, ← unpackNext_eq] at hsame
      rw [← unpackNext_eq] at hmid
      obtain ⟨ihsame, ihlast⟩ := @ih
        (some (first.getD (unpackNext buf bufferLen id share skipItems first pos).2)) rfl
      rw [Verse.unpackFixed, Verse.unpackFixed, if_pos hpos, if_pos hpos, hsame]
      simp only [hmid]
      rw [ihsame]
      exact ⟨rfl, ihlast⟩

theorem VarRun.unpackVar (hlt : bufferLen < 2 ^ 32) (hagree : Agree bufferLen buf buf')
    (share : ℕ) {length : ℕ} {started : Bool} {pos last : ℕ}
    (h : VarRun buf bufferLen id skipItems length started pos last)
    {first : Option GenericCmd} (hfirst : first.isSome = started) {fuel : ℕ}
    (hfuel : length ≤ pos + fuel) :
    ∃ cmds, Verse.unpackVar buf bufferLen id share skipItems length fuel first pos =
        some (last, cmds) ∧
      Verse.unpackVar buf' bufferLen id share skipItems length fuel first pos =
        some (last, cmds) := by
  induction h generalizing first fuel with
  | complete hpos =>
      refine ⟨[], ?_⟩
      cases fuel with
      | zero => exact ⟨if_neg (by omega), if_neg (by omega)⟩
      | succ fuel => exact ⟨if_neg (by omega), if_neg (by omega)⟩
  | @next started pos mid last hpos hadvance hitems _ ih =>
      subst hfirst
      obtain ⟨hsame, hmid⟩ := hitems.unpackItems hlt hagree (groupStart id share first)
      rw [← unpackNext_eq, ← unpackNext_eq] at hsame
      rw [← unpackNext_eq] at hmid
      obtain ⟨fuel, rfl⟩ : ∃ n, fuel = n + 1 := ⟨fuel - 1, by omega⟩
      obtain ⟨cmds, hcmds, hcmds'⟩ := @ih
        (some (first.getD (unpackNext buf bufferLen id share skipItems first pos).2)) rfl fuel
        (by omega)
      refine ⟨(unpackNext buf bufferLen id share skipItems first pos).2 :: cmds, ?_, ?_⟩
      · rw [unpackVar_next hpos]
        simp only [hmid, hcmds, Option.map_some]
      · rw [unpackVar_next hpos, hsame]
        simp only [hmid, hcmds', Option.map_some]

theorem le_unpackNext (buf : Mem) (bufferLen : ℕ) (id : UInt8) (share skipItems : ℕ)
    (first : Option GenericCmd) (pos : ℕ) :
    pos ≤ (unpackNext buf bufferLen id share skipItems first pos).1 := by
  rw [unpackNext_eq]
  exact le_unpackItems _ _ _ _ _

theorem le_unpackFixed (buf : Mem) (bufferLen : ℕ) (id : UInt8) (share skipItems count : ℕ)
    (first : Option GenericCmd) (pos : ℕ) :
    pos ≤ (unpackFixed buf bufferLen id share skipItems count first pos).1 := by
  induction count generalizing first pos with
  | zero => exact le_rfl
  | succ count ih =>
      rw [unpackFixed]
      split
      case isFalse => exact le_rfl
      case isTrue => exact (le_unpackNext buf bufferLen id share skipItems first pos).trans (ih _ _)

theorem fixedRun_of_le (hlt : bufferLen < 2 ^ 32) (share : ℕ) {count : ℕ}
    {first : Option GenericCmd} {pos : ℕ}
    (h : (unpackFixed buf bufferLen id share skipItems count first pos).1 ≤ bufferLen) :
    FixedRun buf bufferLen id skipItems count first.isSome pos
      (unpackFixed buf bufferLen id share skipItems count first pos).1 := by
  induction count generalizing first pos with
  | zero => exact .complete
  | succ count ih =>
      rw [unpackFixed] at h ⊢
      split at h
      case isFalse hend =>
        rw [if_neg hend]
        obtain rfl : pos = bufferLen := Nat.le_antisymm h (Nat.le_of_not_lt hend)
        exact .atEnd
      case isTrue hpos =>
        rw [if_pos hpos]
        have hmid : (unpackNext buf bufferLen id share skipItems first pos).1 ≤ bufferLen :=
          (le_unpackFixed buf bufferLen id share skipItems count _ _).trans h
        have hrest := ih h
        rw [unpackNext_eq] at hmid
        have hitems := itemsFit_of_le hlt hmid
        rw [← unpackNext_eq] at hitems
        exact .next hpos hitems hrest

/-- A pass of the loop over commands of variable length. -/
theorem unpackVar_succ_eq_some {share length fuel : ℕ} {first : Option GenericCmd} {pos last : ℕ}
    {cmds : List GenericCmd} (hpos : pos < length)
    (h : unpackVar buf bufferLen id share skipItems length (fuel + 1) first pos =
      some (last, cmds)) :
    ∃ rest, unpackVar buf bufferLen id share skipItems length fuel
        (some (first.getD (unpackNext buf bufferLen id share skipItems first pos).2))
        (unpackNext buf bufferLen id share skipItems first pos).1 = some (last, rest) := by
  rw [unpackVar_next hpos] at h
  generalize unpackNext buf bufferLen id share skipItems first pos = next at h ⊢
  obtain ⟨⟨last', rest⟩, hrest, heq⟩ := Option.map_eq_some_iff.mp h
  cases heq
  exact ⟨rest, hrest⟩

theorem le_of_unpackVar {share length fuel : ℕ} {first : Option GenericCmd} {pos last : ℕ}
    {cmds : List GenericCmd}
    (h : unpackVar buf bufferLen id share skipItems length fuel first pos = some (last, cmds)) :
    pos ≤ last := by
  induction fuel generalizing first pos cmds with
  | zero =>
      by_cases hpos : pos < length
      · rw [unpackVar_zero hpos] at h
        cases h
      · rw [unpackVar_end hpos] at h
        cases h
        exact le_rfl
  | succ fuel ih =>
      by_cases hpos : pos < length
      · obtain ⟨rest, hrest⟩ := unpackVar_succ_eq_some hpos h
        exact (le_unpackNext buf bufferLen id share skipItems first pos).trans (ih hrest)
      · rw [unpackVar_end hpos] at h
        cases h
        exact le_rfl

/-- A pass that goes over no byte is repeated for ever. -/
theorem unpackVar_stuck {share length : ℕ} {f : GenericCmd} {pos : ℕ} (hpos : pos < length)
    (hstuck : (unpackNext buf bufferLen id share skipItems (some f) pos).1 = pos) (fuel : ℕ) :
    unpackVar buf bufferLen id share skipItems length fuel (some f) pos = none := by
  induction fuel with
  | zero => exact unpackVar_zero hpos
  | succ fuel ih =>
      rw [unpackVar_next hpos]
      simp only [hstuck, Option.getD_some, ih, Option.map_none]

theorem varRun_of_le (hlt : bufferLen < 2 ^ 32) {share length fuel : ℕ} {first : Option GenericCmd}
    {pos last : ℕ} {cmds : List GenericCmd}
    (hfirst : first = none → pos < (unpackNext buf bufferLen id share skipItems none pos).1)
    (h : unpackVar buf bufferLen id share skipItems length fuel first pos = some (last, cmds))
    (hlast : last ≤ bufferLen) :
    VarRun buf bufferLen id skipItems length first.isSome pos last := by
  induction fuel generalizing first pos cmds with
  | zero =>
      by_cases hpos : pos < length
      · rw [unpackVar_zero hpos] at h
        cases h
      · rw [unpackVar_end hpos] at h
        cases h
        exact .complete (Nat.le_of_not_lt hpos)
  | succ fuel ih =>
      by_cases hpos : pos < length
      case neg =>
        rw [unpackVar_end hpos] at h
        cases h
        exact .complete (Nat.le_of_not_lt hpos)
      case pos =>
        have hadvance : pos < (unpackNext buf bufferLen id share skipItems first pos).1 := by
          cases first with
          | none => exact hfirst rfl
          | some f =>
              refine Nat.lt_of_le_of_ne (le_unpackNext _ _ _ _ _ _ _) fun hstuck => ?_
              rw [unpackVar_stuck hpos hstuck.symm] at h
              cases h
        obtain ⟨rest, hrest⟩ := unpackVar_succ_eq_some hpos h
        have hmid := (le_of_unpackVar hrest).trans hlast
        rw [unpackNext_eq] at hmid
        have hitems := itemsFit_of_le hlt hmid
        rw [← unpackNext_eq] at hitems
        exact .next hpos hadvance hitems (ih (by intro hnone; cases hnone) hrest)

end Runs

/-! ## Commands -/

/-- The data of a command lies in the buffer and ends at `last`. -/
def DataFramed (buf : Mem) (bufferLen : ℕ) (id : UInt8)
    (length addrLen dataLen skipItems pos last : ℕ) : Prop :=
  if !(cmdStruct id.toNat).varLen then
    let rest : ℤ := (length : ℤ) - addrLen
    if rest.tmod dataLen ≠ 0 then last = pos + length
    else FixedRun buf bufferLen id skipItems (rest.tdiv dataLen).toNat false pos last
  else VarRun buf bufferLen id skipItems length false pos last

/-- A command begins the buffer: its length field and its share size are there, it
ends at `last`, and so does what is read of it. -/
def CmdFramed (buf : Mem) (bufferLen last : ℕ) : Prop :=
  let id := buf 0
  let s := cmdStruct id.toNat
  let (lenSize, length, addrLen) := vCmdUnpackLen (buf.shift 1)
  let pos := 1 + lenSize
  pos ≤ bufferLen ∧ last ≤ bufferLen ∧
    if !s.isNodeCmd then
      last = if 2 ≤ length ∧ length < bufferLen - pos then pos + length else bufferLen
    else if s.sharesAddr then
      let share := (buf pos).toNat
      pos < bufferLen ∧
        if share ≠ 0 then
          let (sharedSize, skipItems) := sharedItems share s.keyItems 0
          if sharedSize ≠ share then last = pos + 1 + length
          else
            DataFramed buf bufferLen id length (addrLen + 1 + share) (s.size - share) skipItems
              (pos + 1) last
        else DataFramed buf bufferLen id length (addrLen + 1) s.size 0 (pos + 1) last
    else DataFramed buf bufferLen id length addrLen s.size 0 pos last

/-- From a position on the buffer is filled with commands that lie in it. -/
inductive NodeFramed (buf : Mem) (bufferLen : ℕ) : ℕ → Prop where
  | atEnd : NodeFramed buf bufferLen bufferLen
  | next {pos size : ℕ} (hpos : pos < bufferLen)
      (hcmd : CmdFramed (buf.shift pos) (bufferLen - pos) size)
      (hrest : NodeFramed buf bufferLen (pos + size)) : NodeFramed buf bufferLen pos

section Commands

variable {buf buf' : Mem} {bufferLen : ℕ}

theorem DataFramed.unpackData (hlt : bufferLen < 2 ^ 32) (hagree : Agree bufferLen buf buf')
    {id : UInt8} {length addrLen dataLen skipItems pos last : ℕ} (share : ℕ)
    (h : DataFramed buf bufferLen id length addrLen dataLen skipItems pos last) :
    ∃ cmds, Verse.unpackData buf bufferLen id length addrLen dataLen share skipItems pos =
        some (last, cmds) ∧
      Verse.unpackData buf' bufferLen id length addrLen dataLen share skipItems pos =
        some (last, cmds) := by
  unfold DataFramed at h
  unfold Verse.unpackData
  split at h
  case isTrue hfixed =>
    rw [if_pos hfixed, if_pos hfixed]
    simp only at h ⊢
    split at h
    case isTrue hbad =>
      rw [if_pos hbad, if_pos hbad, h]
      exact ⟨[], rfl, rfl⟩
    case isFalse hgood =>
      rw [if_neg hgood, if_neg hgood]
      obtain ⟨hsame, hlast⟩ := @FixedRun.unpackFixed _ _ _ _ _ hlt hagree share _ _ _ _ h none rfl
      refine ⟨_, congrArg some (Prod.ext hlast rfl), congrArg some ?_⟩
      rw [hsame]
      exact Prod.ext hlast rfl
  case isFalse hvar =>
    rw [if_neg hvar, if_neg hvar]
    exact h.unpackVar hlt hagree share rfl (Nat.le_add_left length pos)

theorem vCmdUnpackLen_long {m : Mem} (h : m 0 = 0xFF) :
    vCmdUnpackLen m = (3, vnpRawUnpackUint16 (m.shift 1), 4) := by
  have h0 : vnpRawUnpackUint8 m = 0xFF := by rw [vnpRawUnpackUint8, h]; rfl
  rw [vCmdUnpackLen, h0]
  rfl

theorem vCmdUnpackLen_short {m : Mem} (h : m 0 ≠ 0xFF) :
    vCmdUnpackLen m = (1, (m 0).toNat, 2) := by
  have h0 : vnpRawUnpackUint8 m ≠ 0xFF := by
    intro heq
    exact h (UInt8.toNat_inj.mp heq)
  rw [vCmdUnpackLen]
  exact if_neg h0

theorem vCmdUnpackLen_size (m : Mem) : 1 ≤ (vCmdUnpackLen m).1 ∧ (vCmdUnpackLen m).1 ≤ 3 := by
  by_cases hlong : m 0 = 0xFF
  · rw [vCmdUnpackLen_long hlong]
    exact ⟨by simp, le_rfl⟩
  · rw [vCmdUnpackLen_short hlong]
    exact ⟨le_rfl, by simp⟩

theorem vCmdUnpackLen_agree {n : ℕ} {m m' : Mem} (h : Agree n m m')
    (hn : (vCmdUnpackLen m).1 ≤ n) : vCmdUnpackLen m' = vCmdUnpackLen m := by
  by_cases hlong : m 0 = 0xFF
  · rw [vCmdUnpackLen_long hlong] at hn ⊢
    simp only at hn
    rw [vCmdUnpackLen_long (by rw [← h 0 (by omega), hlong]),
      vnpRawUnpackUint16_agree (h.shift 1) (by omega)]
  · rw [vCmdUnpackLen_short hlong] at hn ⊢
    simp only at hn
    rw [vCmdUnpackLen_short (by rwa [← h 0 (by omega)]), h 0 (by omega)]

/-- **A command that lies in the buffer** is read as it is, whatever follows. -/
theorem CmdFramed.vCmdUnpackOne {last : ℕ} (hlt : bufferLen < 2 ^ 16)
    (hagree : Agree bufferLen buf buf') (h : CmdFramed buf bufferLen last) :
    ∃ cmds, Verse.vCmdUnpackOne buf bufferLen = some (last, cmds) ∧
      Verse.vCmdUnpackOne buf' bufferLen = some (last, cmds) := by
  have hlt32 : bufferLen < 2 ^ 32 := hlt.trans (by decide)
  unfold CmdFramed at h
  generalize hlen : vCmdUnpackLen (buf.shift 1) = len at h
  obtain ⟨lenSize, length, addrLen⟩ := len
  obtain ⟨hhead, hlast, h⟩ := h
  have hid : buf' 0 = buf 0 := (hagree 0 (by omega)).symm
  have hlen' := vCmdUnpackLen_agree (hagree.shift 1) (by rw [hlen]; simp only; omega)
  unfold Verse.vCmdUnpackOne
  rw [hid, hlen', hlen]
  simp only at h ⊢
  have hsub := sub32_of_le hlt32 hhead
  split at h
  case isTrue hother =>
    rw [if_pos hother, if_pos hother, hsub]
    split at h
    case isTrue hskip =>
      rw [if_pos hskip, h]
      exact ⟨[], rfl, rfl⟩
    case isFalse hdrop =>
      rw [if_neg hdrop, h]
      exact ⟨[], rfl, rfl⟩
  case isFalse hnode =>
    rw [if_neg hnode, if_neg hnode]
    split at h
    case isFalse hplain =>
      rw [if_neg hplain, if_neg hplain]
      exact h.unpackData hlt32 hagree 0
    case isTrue hshares =>
      obtain ⟨hshare, h⟩ := h
      rw [if_pos hshares, if_pos hshares, ← hagree (1 + lenSize) hshare]
      split at h
      case isFalse hzero =>
        rw [if_neg hzero, if_neg hzero]
        exact h.unpackData hlt32 hagree 0
      case isTrue hsome =>
        rw [if_pos hsome, if_pos hsome]
        split at h
        case isTrue hbad =>
          rw [if_pos hbad, if_pos hbad, h]
          exact ⟨[], rfl, rfl⟩
        case isFalse hgood =>
          rw [if_neg hgood, if_neg hgood]
          exact h.unpackData hlt32 hagree _

theorem le_of_unpackData {id : UInt8} {length addrLen dataLen share skipItems pos last : ℕ}
    {cmds : List GenericCmd}
    (h : unpackData buf bufferLen id length addrLen dataLen share skipItems pos =
      some (last, cmds)) : pos ≤ last := by
  unfold unpackData at h
  split at h
  case isTrue =>
    simp only at h
    split at h
    case isTrue => cases h; exact Nat.le_add_right _ _
    case isFalse =>
      have := le_unpackFixed buf bufferLen id share skipItems
        (((length : ℤ) - addrLen).tdiv dataLen).toNat none pos
      rwa [Option.some.inj h] at this
  case isFalse => exact le_of_unpackVar h

theorem dataFramed_of_le (hlt : bufferLen < 2 ^ 32) {id : UInt8}
    (hnode : (cmdStruct id.toNat).isNodeCmd = true)
    {length addrLen dataLen share skipItems pos last : ℕ} {cmds : List GenericCmd}
    (h : unpackData buf bufferLen id length addrLen dataLen share skipItems pos = some (last, cmds))
    (hlast : last ≤ bufferLen) :
    DataFramed buf bufferLen id length addrLen dataLen skipItems pos last := by
  unfold unpackData at h
  unfold DataFramed
  split at h
  case isTrue hfixed =>
    rw [if_pos hfixed]
    simp only at h ⊢
    split at h
    case isTrue hbad =>
      rw [if_pos hbad]
      cases h
      rfl
    case isFalse hgood =>
      rw [if_neg hgood]
      have hfst := congrArg Prod.fst (Option.some.inj h)
      have hrun := fixedRun_of_le hlt share (hfst.trans_le hlast)
      rwa [hfst] at hrun
  case isFalse hvar =>
    rw [if_neg hvar]
    -- the first command of a group has an address
    have hfirst : pos < (unpackNext buf bufferLen id share skipItems none pos).1 := by
      have hsound := cmdStruct_sound hnode
      have hitems : groupItems id skipItems false = (cmdStruct id.toNat).items := by
        rw [groupItems, if_neg (by decide), List.drop_zero, List.take_of_length_le hsound.count.le]
      have hwidth := add_widthSum_le_unpackItems buf bufferLen (groupItems id skipItems false) pos
        (groupStart id share none)
      have hpositive : 0 < widthSum (cmdStruct id.toNat).items := hsound.dataPos
      rw [hitems] at hwidth
      rw [unpackNext_eq, Option.isSome_none, hitems]
      omega
    exact varRun_of_le hlt (fun _ => hfirst) h hlast

/-- A command that is not read behind the end lies in the buffer. -/
theorem cmdFramed_of_le (hlt : bufferLen < 2 ^ 16) {last : ℕ} {cmds : List GenericCmd}
    (hhead : (cmdStruct (buf 0).toNat).isNodeCmd = false →
      1 + (vCmdUnpackLen (buf.shift 1)).1 ≤ bufferLen)
    (h : vCmdUnpackOne buf bufferLen = some (last, cmds)) (hlast : last ≤ bufferLen) :
    CmdFramed buf bufferLen last := by
  have hlt32 : bufferLen < 2 ^ 32 := hlt.trans (by decide)
  unfold vCmdUnpackOne at h
  unfold CmdFramed
  generalize vCmdUnpackLen (buf.shift 1) = len at h hhead
  obtain ⟨lenSize, length, addrLen⟩ := len
  simp only at h hhead ⊢
  split at h
  case isTrue hother =>
    have hhead := hhead (by simpa using hother)
    rw [if_pos hother]
    rw [sub32_of_le hlt32 hhead] at h
    refine ⟨hhead, hlast, ?_⟩
    split at h
    case isTrue hskip => rw [if_pos hskip]; cases h; rfl
    case isFalse hdrop => rw [if_neg hdrop]; cases h; rfl
  case isFalse hnode =>
    rw [if_neg hnode]
    have hnode : (cmdStruct (buf 0).toNat).isNodeCmd = true := by simpa using hnode
    split at h
    case isFalse hplain =>
      have hle := le_of_unpackData h
      rw [if_neg hplain]
      exact ⟨hle.trans hlast, hlast, dataFramed_of_le hlt32 hnode h hlast⟩
    case isTrue hshares =>
      rw [if_pos hshares]
      -- whatever the share size is, it was gone over
      have hle : 1 + lenSize + 1 ≤ last := by
        split at h
        case isFalse => exact le_of_unpackData h
        case isTrue =>
          split at h
          case isTrue => cases h; exact Nat.le_add_right _ _
          case isFalse => exact le_of_unpackData h
      refine ⟨by omega, hlast, by omega, ?_⟩
      split at h
      case isFalse hzero =>
        rw [if_neg hzero]
        exact dataFramed_of_le hlt32 hnode h hlast
      case isTrue hsome =>
        rw [if_pos hsome]
        split at h
        case isTrue hbad => rw [if_pos hbad]; cases h; rfl
        case isFalse hgood =>
          rw [if_neg hgood]
          exact dataFramed_of_le hlt32 hnode h hlast

/-! ## The whole buffer -/

theorem CmdFramed.two_le {last : ℕ} (h : CmdFramed buf bufferLen last) (hlt : bufferLen < 2 ^ 16) :
    2 ≤ last ∧ 2 ≤ bufferLen := by
  have hlt32 : bufferLen < 2 ^ 32 := hlt.trans (by decide)
  unfold CmdFramed at h
  have hsize := (vCmdUnpackLen_size (buf.shift 1)).1
  generalize vCmdUnpackLen (buf.shift 1) = len at h hsize
  obtain ⟨lenSize, length, addrLen⟩ := len
  obtain ⟨hhead, hlast, h⟩ := h
  simp only at h hsize
  refine ⟨?_, by omega⟩
  have hdata : ∀ {id : UInt8} {length addrLen dataLen skipItems pos},
      DataFramed buf bufferLen id length addrLen dataLen skipItems pos last → pos ≤ last := by
    intro id length addrLen dataLen skipItems pos hframed
    obtain ⟨cmds, hcmds, -⟩ := hframed.unpackData hlt32 (.refl bufferLen buf) 0
    exact le_of_unpackData hcmds
  split at h
  case isTrue => split at h <;> omega
  case isFalse =>
    split at h
    case isFalse => have := hdata h; omega
    case isTrue =>
      obtain ⟨-, h⟩ := h
      split at h
      case isFalse => have := hdata h; omega
      case isTrue =>
        split at h
        case isTrue => omega
        case isFalse => have := hdata h; omega

/-- **A framed buffer** is read to its last byte, whatever follows. -/
theorem NodeFramed.unpackFrom (hlt : bufferLen < 2 ^ 16) {pos : ℕ}
    (h : NodeFramed buf bufferLen pos) {fuel : ℕ} (hfuel : bufferLen ≤ pos + fuel) :
    ∃ cmds, ∀ buf', Agree bufferLen buf buf' →
      Verse.unpackFrom buf' bufferLen fuel pos = some (bufferLen, cmds) := by
  induction h generalizing fuel with
  | atEnd =>
      refine ⟨[], fun buf' _ => ?_⟩
      cases fuel with
      | zero => exact if_neg (Nat.lt_irrefl _)
      | succ fuel => exact if_neg (Nat.lt_irrefl _)
  | @next pos size hpos hcmd _ ih =>
      have htwo := hcmd.two_le (by omega)
      obtain ⟨fuel, rfl⟩ : ∃ n, fuel = n + 1 := ⟨fuel - 1, by omega⟩
      obtain ⟨rest, hrest⟩ := @ih fuel (by omega)
      obtain ⟨cmds, hcmds, -⟩ := hcmd.vCmdUnpackOne (by omega) (.refl _ _)
      refine ⟨cmds ++ rest, fun buf' hagree => ?_⟩
      obtain ⟨cmds', hcmds', hsame⟩ := hcmd.vCmdUnpackOne (by omega) (hagree.shift pos)
      rw [hcmds'] at hcmds
      cases hcmds
      rw [Verse.unpackFrom, if_pos hpos, if_pos htwo.2, hsame]
      simp only [hrest buf' hagree, Option.map_some]

/-- A pass of `v_cmd_unpack`. -/
theorem unpackFrom_succ_eq_some {fuel pos last : ℕ} {cmds : List GenericCmd} (hpos : pos < bufferLen)
    (h : Verse.unpackFrom buf bufferLen (fuel + 1) pos = some (last, cmds)) :
    2 ≤ bufferLen - pos ∧ ∃ size first rest,
      Verse.vCmdUnpackOne (buf.shift pos) (bufferLen - pos) = some (size, first) ∧
        Verse.unpackFrom buf bufferLen fuel (pos + size) = some (last, rest) ∧
          cmds = first ++ rest := by
  rw [Verse.unpackFrom, if_pos hpos] at h
  split at h
  case isFalse => cases h
  case isTrue htwo =>
    split at h
    case h_1 => cases h
    case h_2 size first hone =>
      obtain ⟨⟨last', rest⟩, hrest, heq⟩ := Option.map_eq_some_iff.mp h
      cases heq
      exact ⟨htwo, size, first, rest, hone, hrest, rfl⟩

theorem le_of_unpackFrom {fuel pos last : ℕ} {cmds : List GenericCmd}
    (h : Verse.unpackFrom buf bufferLen fuel pos = some (last, cmds)) : pos ≤ last := by
  induction fuel generalizing pos cmds with
  | zero =>
      rw [Verse.unpackFrom] at h
      split at h
      · cases h
      · cases h; exact le_rfl
  | succ fuel ih =>
      by_cases hpos : pos < bufferLen
      · obtain ⟨-, size, first, rest, -, hrest, -⟩ := unpackFrom_succ_eq_some hpos h
        exact (Nat.le_add_right pos size).trans (ih hrest)
      · rw [Verse.unpackFrom, if_neg hpos] at h
        cases h
        exact le_rfl

/-- The length field of an unknown command that is cut by the end of the buffer can
be continued so that the command goes past the end. -/
theorem vCmdUnpackOne_cut (hlt : bufferLen < 2 ^ 16) (htwo : 2 ≤ bufferLen)
    (hother : (cmdStruct (buf 0).toNat).isNodeCmd = false)
    (hcut : bufferLen < 1 + (vCmdUnpackLen (buf.shift 1)).1) :
    ∃ size, bufferLen < size ∧ ∃ cmds,
      Verse.vCmdUnpackOne (buf.set 3 2) bufferLen = some (size, cmds) := by
  have hlong : buf 1 = 0xFF := by
    by_contra hshort
    rw [vCmdUnpackLen_short hshort] at hcut
    simp only at hcut
    omega
  have hfour : bufferLen < 4 := by
    rw [vCmdUnpackLen_long hlong] at hcut
    exact hcut
  have h0 : buf.set 3 2 0 = buf 0 := set_of_ne buf (by decide) 2
  have h1 : buf.set 3 2 1 = buf 1 := set_of_ne buf (by decide) 2
  have h2 : buf.set 3 2 2 = buf 2 := set_of_ne buf (by decide) 2
  have hlen : vCmdUnpackLen ((buf.set 3 2).shift 1) = (3, (buf 2).toNat * 2 ^ 8 + 2, 4) := by
    rw [vCmdUnpackLen_long (by rw [shift_apply, h1, hlong])]
    simp only [vnpRawUnpackUint16, shift_apply, Nat.reduceAdd, Nat.add_zero, h2, set_self]
    rfl
  have hb := (buf 2).toNat_lt
  refine ⟨1 + 3 + ((buf 2).toNat * 2 ^ 8 + 2), by omega, [], ?_⟩
  unfold Verse.vCmdUnpackOne
  rw [h0, hlen]
  simp only [hother, Bool.not_false, if_true]
  refine if_pos ⟨by omega, ?_⟩
  unfold sub32
  omega

/-- The parser of node commands gives the same result whatever follows the buffer,
and it does not go past the end of the buffer. -/
def NodeSafe (buf : Mem) (bufferLen fuel pos : ℕ) : Prop :=
  ∃ last cmds, last ≤ bufferLen ∧ ∀ buf', Agree bufferLen buf buf' →
    Verse.unpackFrom buf' bufferLen fuel pos = some (last, cmds)

/-- **A buffer that is read safely is framed.** -/
theorem nodeFramed_of_safe (hlt : bufferLen < 2 ^ 16) {fuel pos : ℕ}
    (h : NodeSafe buf bufferLen fuel pos) : NodeFramed buf bufferLen pos := by
  induction fuel generalizing pos with
  | zero =>
      obtain ⟨last, cmds, hlast, hall⟩ := h
      have hself := hall buf (.refl _ _)
      rw [Verse.unpackFrom] at hself
      split at hself
      case isTrue => cases hself
      case isFalse hend =>
        cases hself
        obtain rfl : pos = bufferLen := Nat.le_antisymm hlast (Nat.le_of_not_lt hend)
        exact .atEnd
  | succ fuel ih =>
      obtain ⟨last, cmds, hlast, hall⟩ := h
      have hself := hall buf (.refl _ _)
      by_cases hpos : pos < bufferLen
      case neg =>
        rw [Verse.unpackFrom, if_neg hpos] at hself
        cases hself
        obtain rfl : pos = bufferLen := Nat.le_antisymm hlast (Nat.le_of_not_lt hpos)
        exact .atEnd
      case pos =>
        obtain ⟨htwo, size, first, rest, hone, hrest, hcmds⟩ := unpackFrom_succ_eq_some hpos hself
        have hsize := (le_of_unpackFrom hrest).trans hlast
        -- the length field of an unknown command lies in the buffer
        have hhead : (cmdStruct (buf.shift pos 0).toNat).isNodeCmd = false →
            1 + (vCmdUnpackLen ((buf.shift pos).shift 1)).1 ≤ bufferLen - pos := by
          intro hother
          by_contra hcut
          obtain ⟨long, hlong, cmds', hone'⟩ :=
            vCmdUnpackOne_cut (by omega) htwo hother (Nat.lt_of_not_le hcut)
          have hfour : bufferLen ≤ pos + 3 := by
            by_contra hroom
            have hle := (vCmdUnpackLen_size ((buf.shift pos).shift 1)).2
            omega
          have hself' := hall _ (agree_set buf hfour 2)
          obtain ⟨-, size', first', rest', hone'', hrest', -⟩ := unpackFrom_succ_eq_some hpos hself'
          rw [shift_set, hone'] at hone''
          cases hone''
          have := (le_of_unpackFrom hrest').trans hlast
          omega
        have hframed := cmdFramed_of_le (by omega) hhead hone (by omega)
        refine .next hpos hframed (ih ⟨last, rest, hlast, fun buf' hagree => ?_⟩)
        obtain ⟨-, size', first', rest', hone', hrest', hcmds'⟩ :=
          unpackFrom_succ_eq_some hpos (hall buf' hagree)
        obtain ⟨first'', hfirst, hfirst'⟩ := hframed.vCmdUnpackOne (by omega) (hagree.shift pos)
        rw [hone] at hfirst
        rw [hone'] at hfirst'
        cases hfirst
        cases hfirst'
        rw [hcmds] at hcmds'
        rw [hrest', List.append_cancel_left hcmds']

theorem nodeSafe_iff (hlt : bufferLen < 2 ^ 16) {fuel pos : ℕ} (hfuel : bufferLen ≤ pos + fuel) :
    NodeSafe buf bufferLen fuel pos ↔ NodeFramed buf bufferLen pos := by
  refine ⟨nodeFramed_of_safe hlt, fun h => ?_⟩
  obtain ⟨cmds, hcmds⟩ := h.unpackFrom hlt hfuel
  exact ⟨bufferLen, cmds, le_rfl, hcmds⟩

end Commands

end Verse
