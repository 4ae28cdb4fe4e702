import Verse.Commands.Bounds
import Verse.Commands.SingleCmd

/-!
# When the loops over node commands end

`v_cmd_unpack` reads a command when at least two bytes are left and otherwise tries
again, and the loop over commands with strings goes on up to the announced length,
also when the string reader has nothing left to read.  `Leaves` describes the
buffers that are left all the same: what stands in them is divided into commands by
the bytes alone, every command of a string group takes at least a byte, and never is
exactly one byte left.

A group of fixed length gives no more commands than it has bytes in the buffer.  A
string group is held by nothing but its announced length, so a group that goes past
the end of the buffer may give any number of commands.
-/

namespace Verse

open Lib

/-! ## The head of a command -/

/-- What `_v_cmd_unpack` knows of a group of node commands when it comes to the
commands themselves. -/
structure GroupHead where
  id : UInt8
  length : ℕ
  addrLen : ℕ
  dataLen : ℕ
  share : ℕ
  skipItems : ℕ
  pos : ℕ

/-- What the first half of `_v_cmd_unpack` finds: bytes that are skipped, or a group of
node commands. -/
inductive CmdHead where
  | skip (size : ℕ)
  | group (g : GroupHead)

/-- The first half of `_v_cmd_unpack`. -/
def cmdHead (buf : Mem) (bufferLen : ℕ) : CmdHead :=
  let id := buf 0
  let s := cmdStruct id.toNat
  let (lenSize, length, addrLen) := vCmdUnpackLen (buf.shift 1)
  let pos := 1 + lenSize
  if !s.isNodeCmd then
    if 2 ≤ length ∧ length < sub32 bufferLen pos then .skip (pos + length) else .skip bufferLen
  else if s.sharesAddr then
    let share := (buf pos).toNat
    let pos := pos + 1
    let addrLen := addrLen + 1
    if share ≠ 0 then
      let (sharedSize, skipItems) := sharedItems share s.keyItems 0
      if sharedSize ≠ share then .skip (pos + length)
      else .group ⟨id, length, addrLen + share, s.size - share, share, skipItems, pos⟩
    else .group ⟨id, length, addrLen, s.size, 0, 0, pos⟩
  else .group ⟨id, length, addrLen, s.size, 0, 0, pos⟩

/-- The second half of `_v_cmd_unpack`. -/
def GroupHead.unpack (g : GroupHead) (buf : Mem) (bufferLen : ℕ) :
    Option (ℕ × List GenericCmd) :=
  unpackData buf bufferLen g.id g.length g.addrLen g.dataLen g.share g.skipItems g.pos

/-- `_v_cmd_unpack` is its two halves. -/
theorem vCmdUnpackOne_eq (buf : Mem) (bufferLen : ℕ) :
    vCmdUnpackOne buf bufferLen =
      match cmdHead buf bufferLen with
      | .skip size => some (size, [])
      | .group g => g.unpack buf bufferLen := by
  unfold vCmdUnpackOne cmdHead
  generalize vCmdUnpackLen (buf.shift 1) = len
  obtain ⟨lenSize, length, addrLen⟩ := len
  simp only
  split
  case isTrue => split <;> rfl
  case isFalse =>
    split
    case isFalse => rfl
    case isTrue =>
      split
      case isFalse => rfl
      case isTrue => split <;> rfl

/-- What the items of a group say about its head. -/
structure GroupHead.Sound (g : GroupHead) : Prop where
  node : (cmdStruct g.id.toNat).isNodeCmd = true
  two_le : 2 ≤ g.pos
  length_lt : g.length < 2 ^ 16
  skip_le : g.skipItems ≤ (cmdStruct g.id.toNat).keyCount
  later_pos : (cmdStruct g.id.toNat).varLen = false →
    0 < widthSum (groupItems g.id g.skipItems true)

/-- The loop that looks for a shared address finds a prefix of the key items. -/
theorem sharedItems_eq {share : ℕ} {items : List CmdItem} {start size skip : ℕ}
    (h : sharedItems share items start = (size, skip)) :
    skip ≤ items.length ∧ size = start + sizeSum (items.take skip) := by
  induction items generalizing start skip with
  | nil =>
      cases h
      simp [sizeSum]
  | cons item rest ih =>
      rw [sharedItems] at h
      split at h
      case isFalse =>
        cases h
        simp [sizeSum]
      case isTrue =>
        generalize hrest : sharedItems share rest (start + item.size) = found at h
        obtain ⟨size', skip'⟩ := found
        cases h
        obtain ⟨hle, hsize⟩ := ih hrest
        refine ⟨by simpa using hle, ?_⟩
        simp [hsize, sizeSum, Nat.add_assoc]

/-- Items are left behind the shared part of the address. -/
theorem widthSum_drop_pos {s : CmdStruct} (hsound : s.Sound) (hfixed : s.varLen = false)
    {skip : ℕ} (hskip : skip ≤ s.keyCount) (hshares : skip = 0 ∨ s.sharesAddr = true) :
    0 < widthSum (s.items.drop skip) := by
  have hall : widthSum (s.items.take skip) + widthSum (s.items.drop skip) = s.dataSize :=
    widthSum_take_add_drop s.items skip
  rcases hshares with rfl | hshares
  · have := hsound.dataPos
    simp only [List.take_zero, widthSum, List.map_nil, List.sum_nil] at hall ⊢
    omega
  · have hkeys : s.items.take skip = s.keyItems.take skip := by
      rw [CmdStruct.keyItems, List.take_take, Nat.min_eq_left hskip]
    have hwidth : widthSum (s.keyItems.take skip) = sizeSum (s.keyItems.take skip) := by
      unfold widthSum sizeSum
      congr 1
      refine List.map_congr_left fun item hitem => ?_
      exact ((hsound.keySizes item (List.mem_of_mem_take hitem)).1).symm
    have hle := sizeSum_take_le s.keyItems skip
    have hkeySize := hsound.keySize
    have hroom := hsound.shareRoom hshares
    have hsize := hsound.fixedSize hfixed
    rw [hkeys, hwidth] at hall
    omega

theorem groupItems_eq {id : UInt8} (hnode : (cmdStruct id.toNat).isNodeCmd = true) (skip : ℕ)
    (started : Bool) :
    groupItems id skip started = (cmdStruct id.toNat).items.drop (if started then skip else 0) := by
  rw [groupItems, List.take_of_length_le (cmdStruct_sound hnode).count.le]

/-- The length of a command is a `uint16`. -/
theorem vCmdUnpackLen_lt (buf : Mem) : (vCmdUnpackLen buf).2.1 < 2 ^ 16 := by
  have h0 := (buf 0).toNat_lt
  have h1 := (buf 1).toNat_lt
  have h2 := (buf 2).toNat_lt
  by_cases hlong : buf 0 = 0xFF
  · rw [vCmdUnpackLen_long hlong]
    simp only [vnpRawUnpackUint16, shift_apply, Nat.reduceAdd, Nat.add_zero]
    omega
  · rw [vCmdUnpackLen_short hlong]
    simp only
    omega

theorem cmdHead_sound {buf : Mem} {bufferLen : ℕ} {g : GroupHead}
    (h : cmdHead buf bufferLen = .group g) : g.Sound := by
  unfold cmdHead at h
  have hsize := (vCmdUnpackLen_size (buf.shift 1)).1
  have hlength := vCmdUnpackLen_lt (buf.shift 1)
  generalize vCmdUnpackLen (buf.shift 1) = len at h hsize hlength
  obtain ⟨lenSize, length, addrLen⟩ := len
  simp only at h hsize hlength
  split at h
  case isTrue => split at h <;> cases h
  case isFalse hnode =>
    have hnode : (cmdStruct (buf 0).toNat).isNodeCmd = true := by simpa using hnode
    have hsound := cmdStruct_sound hnode
    have hzero : (cmdStruct (buf 0).toNat).varLen = false →
        0 < widthSum (groupItems (buf 0) 0 true) := by
      intro hfixed
      rw [groupItems_eq hnode]
      exact widthSum_drop_pos hsound hfixed (Nat.zero_le _) (Or.inl rfl)
    split at h
    case isFalse =>
      cases h
      exact ⟨hnode, by simp only; omega, hlength, Nat.zero_le _, hzero⟩
    case isTrue hshares =>
      split at h
      case isFalse =>
        cases h
        exact ⟨hnode, by simp only; omega, hlength, Nat.zero_le _, hzero⟩
      case isTrue =>
        split at h
        case isTrue => cases h
        case isFalse =>
          cases h
          have hskip := (@sharedItems_eq (buf (1 + lenSize)).toNat
            (cmdStruct (buf 0).toNat).keyItems 0 _ _ rfl).1
          have hkeys : (cmdStruct (buf 0).toNat).keyItems.length ≤
              (cmdStruct (buf 0).toNat).keyCount := List.length_take_le _ _
          refine ⟨hnode, by simp only; omega, hlength, hskip.trans hkeys, fun hfixed => ?_⟩
          rw [groupItems_eq hnode]
          exact widthSum_drop_pos hsound hfixed (hskip.trans hkeys) (Or.inr hshares)

/-! ## What a group spans -/

/-- Where the items of a command that begins at `pos` end. -/
def itemsEnd (buf : Mem) (bufferLen : ℕ) : List CmdItem → ℕ → ℕ
  | [], pos => pos
  | item :: rest, pos =>
      itemsEnd buf bufferLen rest
        (pos + if item.type = .string8 then stringSpan (buf.shift pos) (sub32 bufferLen pos)
          else item.type.dataWidth)

theorem unpackItems_fst (buf : Mem) (bufferLen : ℕ) (items : List CmdItem) (pos : ℕ)
    (cmd : GenericCmd) :
    (unpackItems buf bufferLen items pos cmd).1 = itemsEnd buf bufferLen items pos := by
  induction items generalizing pos cmd with
  | nil => rfl
  | cons item rest ih =>
      rw [unpackItems_cons, ih, itemsEnd]
      by_cases htype : item.type = .string8
      · rw [if_pos htype, unpackItem_string_size htype]
      · rw [if_neg htype, unpackItem_scalar_size htype]

/-- Where the command that begins at `pos` ends: `started` says that it is not the first of
its group. -/
def GroupHead.cmdEnd (g : GroupHead) (buf : Mem) (bufferLen : ℕ) (started : Bool) (pos : ℕ) : ℕ :=
  itemsEnd buf bufferLen (groupItems g.id g.skipItems started) pos

theorem GroupHead.unpackNext_fst (g : GroupHead) (buf : Mem) (bufferLen : ℕ)
    (first : Option GenericCmd) (pos : ℕ) :
    (unpackNext buf bufferLen g.id g.share g.skipItems first pos).1 =
      g.cmdEnd buf bufferLen first.isSome pos := by
  rw [unpackNext_eq, unpackItems_fst, GroupHead.cmdEnd]

/-- A group of at most `count` commands of fixed length ends at the second position and
has so many commands.  No command begins behind the end of the buffer. -/
inductive FixedSpan (g : GroupHead) (buf : Mem) (bufferLen : ℕ) : ℕ → Bool → ℕ → ℕ → ℕ → Prop where
  | complete {started : Bool} {pos : ℕ} : FixedSpan g buf bufferLen 0 started pos pos 0
  | atEnd {count : ℕ} {started : Bool} {pos : ℕ} (hpos : bufferLen ≤ pos) :
      FixedSpan g buf bufferLen (count + 1) started pos pos 0
  | next {count n : ℕ} {started : Bool} {pos last : ℕ} (hpos : pos < bufferLen)
      (hrest : FixedSpan g buf bufferLen count true (g.cmdEnd buf bufferLen started pos) last n) :
      FixedSpan g buf bufferLen (count + 1) started pos last (n + 1)

/-- A string group ends at the second position and has so many commands, each of which
takes at least a byte. -/
inductive VarSpan (g : GroupHead) (buf : Mem) (bufferLen : ℕ) : Bool → ℕ → ℕ → ℕ → Prop where
  | complete {started : Bool} {pos : ℕ} (hpos : g.length ≤ pos) :
      VarSpan g buf bufferLen started pos pos 0
  | next {n : ℕ} {started : Bool} {pos last : ℕ} (hpos : pos < g.length)
      (hadvance : pos < g.cmdEnd buf bufferLen started pos)
      (hrest : VarSpan g buf bufferLen true (g.cmdEnd buf bufferLen started pos) last n) :
      VarSpan g buf bufferLen started pos last (n + 1)

/-- The number of commands that the length of a group of fixed length announces; `none` is
a length that does not fit the size of the command. -/
def GroupHead.count? (g : GroupHead) : Option ℕ :=
  let rest : ℤ := (g.length : ℤ) - g.addrLen
  if rest.tmod g.dataLen ≠ 0 then none else some (rest.tdiv g.dataLen).toNat

/-- A group ends at `last` and has `n` commands. -/
inductive GroupSpan (g : GroupHead) (buf : Mem) (bufferLen : ℕ) : ℕ → ℕ → Prop where
  | badLength (hfixed : (cmdStruct g.id.toNat).varLen = false) (hcount : g.count? = none) :
      GroupSpan g buf bufferLen (g.pos + g.length) 0
  | fixed {count last n : ℕ} (hfixed : (cmdStruct g.id.toNat).varLen = false)
      (hcount : g.count? = some count)
      (hspan : FixedSpan g buf bufferLen count false g.pos last n) : GroupSpan g buf bufferLen last n
  | var {last n : ℕ} (hvar : (cmdStruct g.id.toNat).varLen = true)
      (hspan : VarSpan g buf bufferLen false g.pos last n) : GroupSpan g buf bufferLen last n

section Groups

variable {g : GroupHead} {buf : Mem} {bufferLen : ℕ}

theorem GroupHead.unpack_fixed (hfixed : (cmdStruct g.id.toNat).varLen = false) :
    g.unpack buf bufferLen =
      match g.count? with
      | none => some (g.pos + g.length, [])
      | some count =>
          some (unpackFixed buf bufferLen g.id g.share g.skipItems count none g.pos) := by
  simp only [GroupHead.unpack, unpackData, hfixed, Bool.not_false, if_true, GroupHead.count?]
  split <;> rfl

theorem GroupHead.unpack_var (hvar : (cmdStruct g.id.toNat).varLen = true) :
    g.unpack buf bufferLen =
      unpackVar buf bufferLen g.id g.share g.skipItems g.length g.length none g.pos := by
  simp [GroupHead.unpack, unpackData, hvar]

/-- A pass of the loop over commands of fixed length. -/
theorem GroupHead.unpackFixed_succ (g : GroupHead) {pos : ℕ} (hpos : pos < bufferLen) (count : ℕ)
    (first : Option GenericCmd) {next : ℕ × GenericCmd}
    (hnext : unpackNext buf bufferLen g.id g.share g.skipItems first pos = next) :
    unpackFixed buf bufferLen g.id g.share g.skipItems (count + 1) first pos =
      ((unpackFixed buf bufferLen g.id g.share g.skipItems count (some (first.getD next.2)) next.1).1,
        next.2 ::
          (unpackFixed buf bufferLen g.id g.share g.skipItems count (some (first.getD next.2))
            next.1).2) := by
  rw [unpackFixed, if_pos hpos, hnext]

/-- A pass of the loop over commands with strings. -/
theorem GroupHead.unpackVar_succ (g : GroupHead) {pos : ℕ} (hpos : pos < g.length) (fuel : ℕ)
    (first : Option GenericCmd) {next : ℕ × GenericCmd}
    (hnext : unpackNext buf bufferLen g.id g.share g.skipItems first pos = next) :
    unpackVar buf bufferLen g.id g.share g.skipItems g.length (fuel + 1) first pos =
      (unpackVar buf bufferLen g.id g.share g.skipItems g.length fuel (some (first.getD next.2))
        next.1).map fun (pos, cmds) => (pos, next.2 :: cmds) := by
  rw [unpackVar_next hpos, hnext]

theorem fixedSpan_unpackFixed (count : ℕ) (first : Option GenericCmd) (pos : ℕ) :
    FixedSpan g buf bufferLen count first.isSome pos
      (unpackFixed buf bufferLen g.id g.share g.skipItems count first pos).1
      (unpackFixed buf bufferLen g.id g.share g.skipItems count first pos).2.length := by
  induction count generalizing first pos with
  | zero => exact .complete
  | succ count ih =>
      by_cases hpos : pos < bufferLen
      · have hend := g.unpackNext_fst buf bufferLen first pos
        generalize hnext : unpackNext buf bufferLen g.id g.share g.skipItems first pos = next at hend
        rw [g.unpackFixed_succ hpos count first hnext]
        exact .next hpos (hend ▸ ih (some (first.getD next.2)) next.1)
      · rw [unpackFixed, if_neg hpos]
        exact .atEnd (Nat.le_of_not_lt hpos)

theorem FixedSpan.unpackFixed {count last n pos : ℕ} {started : Bool}
    (h : FixedSpan g buf bufferLen count started pos last n) {first : Option GenericCmd}
    (hfirst : first.isSome = started) :
    (Verse.unpackFixed buf bufferLen g.id g.share g.skipItems count first pos).1 = last ∧
      (Verse.unpackFixed buf bufferLen g.id g.share g.skipItems count first pos).2.length = n := by
  induction h generalizing first with
  | complete => exact ⟨rfl, rfl⟩
  | atEnd hpos =>
      rw [Verse.unpackFixed, if_neg (Nat.not_lt.mpr hpos)]
      exact ⟨rfl, rfl⟩
  | @next count n started pos last hpos _ ih =>
      subst hfirst
      have hend := g.unpackNext_fst buf bufferLen first pos
      generalize hnext : unpackNext buf bufferLen g.id g.share g.skipItems first pos = next at hend
      rw [← hend] at ih
      have hfirst : (some (first.getD next.2)).isSome = true := rfl
      obtain ⟨hlast, hn⟩ := ih hfirst
      rw [g.unpackFixed_succ hpos count first hnext]
      exact ⟨hlast, congrArg (· + 1) hn⟩

theorem VarSpan.unpackVar {last n pos : ℕ} {started : Bool}
    (h : VarSpan g buf bufferLen started pos last n) {first : Option GenericCmd}
    (hfirst : first.isSome = started) {fuel : ℕ} (hfuel : g.length ≤ pos + fuel) :
    ∃ cmds, Verse.unpackVar buf bufferLen g.id g.share g.skipItems g.length fuel first pos =
      some (last, cmds) ∧ cmds.length = n := by
  induction h generalizing first fuel with
  | complete hpos =>
      refine ⟨[], ?_, rfl⟩
      cases fuel with
      | zero => exact if_neg (Nat.not_lt.mpr hpos)
      | succ fuel => exact if_neg (Nat.not_lt.mpr hpos)
  | @next n started pos last hpos hadvance _ ih =>
      subst hfirst
      obtain ⟨fuel, rfl⟩ : ∃ k, fuel = k + 1 := ⟨fuel - 1, by omega⟩
      have hend := g.unpackNext_fst buf bufferLen first pos
      generalize hnext : unpackNext buf bufferLen g.id g.share g.skipItems first pos = next at hend
      rw [← hend] at ih hadvance
      have hfirst : (some (first.getD next.2)).isSome = true := rfl
      obtain ⟨cmds, hcmds, hn⟩ := @ih (some (first.getD next.2)) hfirst fuel (by omega)
      refine ⟨next.2 :: cmds, ?_, by rw [List.length_cons, hn]⟩
      rw [g.unpackVar_succ hpos fuel first hnext, hcmds, Option.map_some]

/-- A string group that is left spans its commands: the first one has an address, and a
later one that takes no byte is repeated for ever. -/
theorem varSpan_of_unpackVar (hstart : ∀ pos, pos < g.cmdEnd buf bufferLen false pos) {fuel : ℕ}
    {first : Option GenericCmd} {pos last : ℕ} {cmds : List GenericCmd}
    (h : unpackVar buf bufferLen g.id g.share g.skipItems g.length fuel first pos =
      some (last, cmds)) :
    VarSpan g buf bufferLen first.isSome pos last cmds.length := by
  induction fuel generalizing first pos cmds with
  | zero =>
      by_cases hpos : pos < g.length
      · rw [unpackVar_zero hpos] at h
        cases h
      · rw [unpackVar_end hpos] at h
        cases h
        exact .complete (Nat.le_of_not_lt hpos)
  | succ fuel ih =>
      by_cases hpos : pos < g.length
      case neg =>
        rw [unpackVar_end hpos] at h
        cases h
        exact .complete (Nat.le_of_not_lt hpos)
      case pos =>
        have hadvance : pos < g.cmdEnd buf bufferLen first.isSome pos := by
          cases first with
          | none => exact hstart pos
          | some f =>
              rw [← g.unpackNext_fst]
              refine Nat.lt_of_le_of_ne (le_unpackNext _ _ _ _ _ _ _) fun hstuck => ?_
              rw [unpackVar_stuck hpos hstuck.symm] at h
              cases h
        have hend := g.unpackNext_fst buf bufferLen first pos
        generalize hnext : unpackNext buf bufferLen g.id g.share g.skipItems first pos = next at hend
        rw [g.unpackVar_succ hpos fuel first hnext] at h
        obtain ⟨⟨last', rest⟩, hrest, heq⟩ := Option.map_eq_some_iff.mp h
        cases heq
        rw [List.length_cons]
        exact .next hpos hadvance (hend ▸ ih hrest)

/-- The first command of a group has an address. -/
theorem GroupHead.Sound.first_advances (h : g.Sound) (pos : ℕ) :
    pos < g.cmdEnd buf bufferLen false pos := by
  have hwidth := add_widthSum_le_unpackItems buf bufferLen (groupItems g.id g.skipItems false) pos
    (GenericCmd.malloc g.id)
  have hpos : 0 < widthSum (cmdStruct g.id.toNat).items := (cmdStruct_sound h.node).dataPos
  rw [unpackItems_fst, groupItems_eq h.node] at hwidth
  rw [GroupHead.cmdEnd, groupItems_eq h.node]
  simp only [Bool.false_eq_true, if_false, List.drop_zero] at hwidth ⊢
  omega

/-- Every command of a group of fixed length takes bytes. -/
theorem GroupHead.Sound.fixed_advances (h : g.Sound)
    (hfixed : (cmdStruct g.id.toNat).varLen = false) (started : Bool) (pos : ℕ) :
    pos < g.cmdEnd buf bufferLen started pos := by
  cases started with
  | false => exact h.first_advances pos
  | true =>
      have hwidth := add_widthSum_le_unpackItems buf bufferLen (groupItems g.id g.skipItems true) pos
        (GenericCmd.malloc g.id)
      have hlater := h.later_pos hfixed
      rw [unpackItems_fst] at hwidth
      rw [GroupHead.cmdEnd]
      omega

/-- **A group is left when it spans its commands**, and then it gives as many. -/
theorem groupSpan_iff (h : g.Sound) (last n : ℕ) :
    (∃ cmds, g.unpack buf bufferLen = some (last, cmds) ∧ cmds.length = n) ↔
      GroupSpan g buf bufferLen last n := by
  constructor
  · rintro ⟨cmds, hcmds, rfl⟩
    cases hvar : (cmdStruct g.id.toNat).varLen with
    | true =>
        rw [GroupHead.unpack_var hvar] at hcmds
        exact .var hvar (varSpan_of_unpackVar h.first_advances hcmds)
    | false =>
        rw [GroupHead.unpack_fixed hvar] at hcmds
        cases hcount : g.count? with
        | none =>
            rw [hcount] at hcmds
            cases hcmds
            exact .badLength hvar hcount
        | some count =>
            rw [hcount] at hcmds
            have hspan := @fixedSpan_unpackFixed g buf bufferLen count none g.pos
            rw [Option.some.inj hcmds] at hspan
            exact .fixed hvar hcount hspan
  · intro hspan
    cases hspan with
    | badLength hfixed hcount => exact ⟨[], by rw [GroupHead.unpack_fixed hfixed, hcount], rfl⟩
    | fixed hfixed hcount hspan =>
        obtain ⟨hlast, hn⟩ := @FixedSpan.unpackFixed _ _ _ _ _ _ _ _ hspan none rfl
        refine ⟨_, ?_, hn⟩
        rw [GroupHead.unpack_fixed hfixed, hcount, ← hlast]
    | var hvar hspan =>
        obtain ⟨cmds, hcmds, hn⟩ := @VarSpan.unpackVar _ _ _ _ _ _ _ hspan none rfl g.length (Nat.le_add_left _ _)
        exact ⟨cmds, by rw [GroupHead.unpack_var hvar, hcmds], hn⟩

/-! ## How many commands a group gives -/

theorem FixedSpan.le (h : g.Sound) (hfixed : (cmdStruct g.id.toNat).varLen = false)
    {count last n pos : ℕ} {started : Bool}
    (hspan : FixedSpan g buf bufferLen count started pos last n) :
    n + pos ≤ last ∧ (n = 0 ∨ n + pos ≤ bufferLen) := by
  induction hspan with
  | complete => exact ⟨by omega, Or.inl rfl⟩
  | atEnd => exact ⟨by omega, Or.inl rfl⟩
  | @next count n started pos last hpos _ ih =>
      have hadvance := @GroupHead.Sound.fixed_advances g buf bufferLen h hfixed started pos
      refine ⟨by omega, Or.inr ?_⟩
      rcases ih.2 with hzero | hle
      · omega
      · omega

theorem VarSpan.le {last n pos : ℕ} {started : Bool}
    (hspan : VarSpan g buf bufferLen started pos last n) : n + pos ≤ last := by
  induction hspan with
  | complete => omega
  | next => omega

end Groups

/-! ## The buffers that are left -/

/-- A command begins the buffer, goes over `size` bytes and gives `n` node commands. -/
inductive CmdSpan (buf : Mem) (bufferLen : ℕ) : ℕ → ℕ → Prop where
  | skip {size : ℕ} (hhead : cmdHead buf bufferLen = .skip size) : CmdSpan buf bufferLen size 0
  | group {g : GroupHead} {size n : ℕ} (hhead : cmdHead buf bufferLen = .group g)
      (hspan : GroupSpan g buf bufferLen size n) : CmdSpan buf bufferLen size n

/-- From `pos` on, with `n` commands before it, the buffer is divided into commands.
Never is exactly one byte left, and a command that goes past the end does not bring the
number of commands above the length of the buffer. -/
inductive Leaves (buf : Mem) (bufferLen : ℕ) : ℕ → ℕ → Prop where
  | atEnd {pos n : ℕ} (hpos : bufferLen ≤ pos) : Leaves buf bufferLen pos n
  | next {pos n size k : ℕ} (hpos : pos + 2 ≤ bufferLen)
      (hcmd : CmdSpan (buf.shift pos) (bufferLen - pos) size k)
      (hpast : bufferLen < pos + size → n + k ≤ bufferLen)
      (hrest : Leaves buf bufferLen (pos + size) (n + k)) : Leaves buf bufferLen pos n

section Buffers

variable {buf : Mem} {bufferLen : ℕ}

theorem cmdSpan_iff (size n : ℕ) :
    (∃ cmds, vCmdUnpackOne buf bufferLen = some (size, cmds) ∧ cmds.length = n) ↔
      CmdSpan buf bufferLen size n := by
  rw [vCmdUnpackOne_eq]
  cases hhead : cmdHead buf bufferLen with
  | skip skipped =>
      constructor
      · rintro ⟨cmds, hcmds, rfl⟩
        cases hcmds
        exact .skip hhead
      · intro h
        cases h with
        | skip hhead' =>
            rw [hhead] at hhead'
            cases hhead'
            exact ⟨[], rfl, rfl⟩
        | group hhead' =>
            rw [hhead] at hhead'
            cases hhead'
  | group g =>
      refine (groupSpan_iff (cmdHead_sound hhead) size n).trans ⟨.group hhead, fun h => ?_⟩
      cases h with
      | skip hhead' =>
          rw [hhead] at hhead'
          cases hhead'
      | group hhead' hspan =>
          rw [hhead] at hhead'
          cases hhead'
          exact hspan

/-- A command goes over two bytes at least, and over a byte for every node command. -/
theorem CmdSpan.le {size n : ℕ} (h : CmdSpan buf bufferLen size n) (hlen : 2 ≤ bufferLen) :
    2 ≤ size ∧ n ≤ size := by
  cases h with
  | skip hhead =>
      refine ⟨?_, Nat.zero_le _⟩
      unfold cmdHead at hhead
      have hsize := (vCmdUnpackLen_size (buf.shift 1)).1
      generalize vCmdUnpackLen (buf.shift 1) = len at hhead hsize
      obtain ⟨lenSize, length, addrLen⟩ := len
      simp only at hhead hsize
      split at hhead
      case isTrue =>
        split at hhead
        case isTrue => cases hhead; omega
        case isFalse => cases hhead; exact hlen
      case isFalse =>
        split at hhead
        case isFalse => cases hhead
        case isTrue =>
          split at hhead
          case isFalse => cases hhead
          case isTrue =>
            split at hhead
            case isTrue => cases hhead; omega
            case isFalse => cases hhead
  | @group g _ _ hhead hspan =>
      have hsound := cmdHead_sound hhead
      have htwo := hsound.two_le
      cases hspan with
      | badLength => exact ⟨by omega, Nat.zero_le _⟩
      | fixed hfixed _ hspan =>
          have := (hspan.le hsound hfixed).1
          omega
      | var _ hspan =>
          have := hspan.le
          omega

/-- A buffer that is left gives no more commands than it has bytes. -/
theorem Leaves.unpackFrom {pos n : ℕ} (h : Leaves buf bufferLen pos n) (hn : n ≤ bufferLen)
    (hbefore : n ≤ pos) {fuel : ℕ} (hfuel : bufferLen ≤ pos + fuel) :
    ∃ last cmds, Verse.unpackFrom buf bufferLen fuel pos = some (last, cmds) ∧
      n + cmds.length ≤ bufferLen := by
  induction h generalizing fuel with
  | @atEnd pos n hpos =>
      refine ⟨pos, [], ?_, hn⟩
      cases fuel with
      | zero => exact if_neg (Nat.not_lt.mpr hpos)
      | succ fuel => exact if_neg (Nat.not_lt.mpr hpos)
  | @next pos n size k hpos hcmd hpast _ ih =>
      have hsize := hcmd.le (by omega)
      have hnk : n + k ≤ bufferLen := by
        by_cases hover : bufferLen < pos + size
        · exact hpast hover
        · omega
      obtain ⟨fuel, rfl⟩ : ∃ m, fuel = m + 1 := ⟨fuel - 1, by omega⟩
      obtain ⟨last, rest, hrest, hle⟩ := @ih hnk (by omega) fuel (by omega)
      obtain ⟨first, hone, hk⟩ := (cmdSpan_iff size k).mpr hcmd
      refine ⟨last, first ++ rest, ?_, ?_⟩
      · rw [Verse.unpackFrom, if_pos (by omega), if_pos (by omega), hone]
        simp only [hrest, Option.map_some]
      · rw [List.length_append]
        omega

theorem leaves_of_unpackFrom {fuel pos n last : ℕ} {cmds : List GenericCmd}
    (h : unpackFrom buf bufferLen fuel pos = some (last, cmds))
    (hn : n + cmds.length ≤ bufferLen) : Leaves buf bufferLen pos n := by
  induction fuel generalizing pos n cmds with
  | zero =>
      rw [unpackFrom] at h
      split at h
      case isTrue => cases h
      case isFalse hend => exact .atEnd (Nat.le_of_not_lt hend)
  | succ fuel ih =>
      by_cases hpos : pos < bufferLen
      · obtain ⟨htwo, size, first, rest, hone, hrest, rfl⟩ := unpackFrom_succ_eq_some hpos h
        rw [List.length_append] at hn
        have hcmd := (cmdSpan_iff size first.length).mp ⟨first, hone, rfl⟩
        exact .next (by omega) hcmd (fun _ => by omega) (ih hrest (by omega))
      · exact .atEnd (Nat.le_of_not_lt hpos)

end Buffers

/-! ## The passes that give a command -/

/-- A pass of the loop over commands of fixed length, by where it begins and where it ends. -/
inductive FixedPass (g : GroupHead) (buf : Mem) (bufferLen : ℕ) :
    ℕ → Option GenericCmd → ℕ → ℕ → ℕ → Prop where
  | here {count : ℕ} {first : Option GenericCmd} {pos : ℕ} (hpos : pos < bufferLen) :
      FixedPass g buf bufferLen (count + 1) first pos pos
        (unpackNext buf bufferLen g.id g.share g.skipItems first pos).1
  | later {count : ℕ} {first : Option GenericCmd} {pos start stop : ℕ} (hpos : pos < bufferLen)
      (hrest : FixedPass g buf bufferLen count
        (some (first.getD (unpackNext buf bufferLen g.id g.share g.skipItems first pos).2))
        (unpackNext buf bufferLen g.id g.share g.skipItems first pos).1 start stop) :
      FixedPass g buf bufferLen (count + 1) first pos start stop

/-- A pass of the loop over commands with strings. -/
inductive VarPass (g : GroupHead) (buf : Mem) (bufferLen : ℕ) :
    Option GenericCmd → ℕ → ℕ → ℕ → Prop where
  | here {first : Option GenericCmd} {pos : ℕ} (hpos : pos < g.length) :
      VarPass g buf bufferLen first pos pos
        (unpackNext buf bufferLen g.id g.share g.skipItems first pos).1
  | later {first : Option GenericCmd} {pos start stop : ℕ} (hpos : pos < g.length)
      (hrest : VarPass g buf bufferLen
        (some (first.getD (unpackNext buf bufferLen g.id g.share g.skipItems first pos).2))
        (unpackNext buf bufferLen g.id g.share g.skipItems first pos).1 start stop) :
      VarPass g buf bufferLen first pos start stop

/-- A pass of one of the loops of `_v_cmd_unpack`. -/
inductive CmdPass (buf : Mem) (bufferLen : ℕ) : ℕ → ℕ → Prop where
  | fixed {g : GroupHead} {count start stop : ℕ} (hhead : cmdHead buf bufferLen = .group g)
      (hfixed : (cmdStruct g.id.toNat).varLen = false) (hcount : g.count? = some count)
      (hpass : FixedPass g buf bufferLen count none g.pos start stop) : CmdPass buf bufferLen start stop
  | var {g : GroupHead} {start stop : ℕ} (hhead : cmdHead buf bufferLen = .group g)
      (hvar : (cmdStruct g.id.toNat).varLen = true)
      (hpass : VarPass g buf bufferLen none g.pos start stop) : CmdPass buf bufferLen start stop

/-- A pass that gives a command while `v_cmd_unpack` reads the buffer from `pos` on. -/
inductive Pass (buf : Mem) (bufferLen : ℕ) : ℕ → ℕ → ℕ → Prop where
  | here {pos start stop : ℕ} (hpos : pos + 2 ≤ bufferLen)
      (hpass : CmdPass (buf.shift pos) (bufferLen - pos) start stop) :
      Pass buf bufferLen pos (pos + start) (pos + stop)
  | later {pos size start stop : ℕ} {cmds : List GenericCmd} (hpos : pos + 2 ≤ bufferLen)
      (hone : vCmdUnpackOne (buf.shift pos) (bufferLen - pos) = some (size, cmds))
      (hrest : Pass buf bufferLen (pos + size) start stop) : Pass buf bufferLen pos start stop

section Passes

variable {buf : Mem} {bufferLen : ℕ} {g : GroupHead}

theorem FixedPass.advances (h : g.Sound) (hfixed : (cmdStruct g.id.toNat).varLen = false)
    {count pos start stop : ℕ} {first : Option GenericCmd}
    (hpass : FixedPass g buf bufferLen count first pos start stop) : start < stop := by
  induction hpass with
  | here =>
      rw [g.unpackNext_fst]
      exact h.fixed_advances hfixed _ _
  | later _ _ ih => exact ih

theorem VarPass.advances {pos start stop : ℕ} {first : Option GenericCmd}
    (hpass : VarPass g buf bufferLen first pos start stop) {last n : ℕ}
    (hspan : VarSpan g buf bufferLen first.isSome pos last n) : start < stop := by
  induction hpass generalizing n with
  | here hpos =>
      rw [g.unpackNext_fst]
      cases hspan with
      | complete hend => omega
      | next _ hadvance _ => exact hadvance
  | later hpos _ ih =>
      cases hspan with
      | complete hend => omega
      | next _ _ hrest =>
          rw [← g.unpackNext_fst] at hrest
          exact ih hrest

theorem CmdPass.advances {start stop : ℕ} (hpass : CmdPass buf bufferLen start stop) {size n : ℕ}
    (hcmd : CmdSpan buf bufferLen size n) : start < stop := by
  cases hpass with
  | fixed hhead hfixed _ hpass => exact hpass.advances (cmdHead_sound hhead) hfixed
  | var hhead hvar hpass =>
      cases hcmd with
      | skip hhead' =>
          rw [hhead] at hhead'
          cases hhead'
      | group hhead' hspan =>
          rw [hhead] at hhead'
          cases hhead'
          cases hspan with
          | badLength hfixed =>
              rw [hvar] at hfixed
              cases hfixed
          | fixed hfixed =>
              rw [hvar] at hfixed
              cases hfixed
          | var _ hspan => exact hpass.advances hspan

/-- Every pass that gives a command goes over at least a byte. -/
theorem Pass.advances {pos start stop : ℕ} (hpass : Pass buf bufferLen pos start stop) {n : ℕ}
    (h : Leaves buf bufferLen pos n) : start < stop := by
  induction hpass generalizing n with
  | here hpos hpass =>
      cases h with
      | atEnd hend => omega
      | next _ hcmd _ _ =>
          have := hpass.advances hcmd
          omega
  | later hpos hone _ ih =>
      cases h with
      | atEnd hend => omega
      | next _ hcmd _ hrest =>
          obtain ⟨cmds', hone', -⟩ := (cmdSpan_iff _ _).mpr hcmd
          rw [hone] at hone'
          cases hone'
          exact ih hrest

end Passes

/-- **When `v_cmd_unpack` returns.**  It ends, every pass of its loops that gives a command
goes over at least a byte, and it gives at most `bufferLen` commands, if and only if the
buffer is divided into commands in such a way that never is exactly one byte left, every
command of a string group takes at least a byte, and a group that goes past the end of the
buffer does not bring the number of commands above `bufferLen`. -/
theorem vCmdUnpack_returns_iff (buf : Mem) (bufferLen : UInt16) :
    ((∃ last cmds, vCmdUnpack buf bufferLen = some (last, cmds) ∧
        cmds.length ≤ bufferLen.toNat) ∧
      ∀ start stop, Pass buf bufferLen.toNat 0 start stop → start < stop) ↔
    Leaves buf bufferLen.toNat 0 0 := by
  constructor
  · rintro ⟨⟨last, cmds, hrun, hle⟩, -⟩
    exact leaves_of_unpackFrom hrun (by omega)
  · intro h
    refine ⟨?_, fun start stop hpass => hpass.advances h⟩
    obtain ⟨last, cmds, hrun, hle⟩ :=
      h.unpackFrom (Nat.zero_le _) (Nat.zero_le _) (Nat.le_add_left bufferLen.toNat 0)
    exact ⟨last, cmds, hrun, by omega⟩

/-- **Three buffers that show what goes wrong.**  A buffer of one byte is never left.  A
string group with its whole address shared that announces 20 bytes in a buffer of 13 is
never left either.  One whose address is cut by the end of the buffer gives more commands
than the buffer has bytes. -/
theorem vCmdUnpack_not_left :
    vCmdUnpack (fun _ => 0) 1 = none ∧
      vCmdUnpack (fun i => [98, 20, 8, 0, 0, 0, 1, 0, 1, 0, 1, 1, 97].getD i 0) 13 = none ∧
      (vCmdUnpack (fun i => [98, 40, 8].getD i 0) 3).map (fun r => r.2.length) = some 29 := by
  decide +kernel

/-! ## The string group that is never left -/

section Strings

variable {g : GroupHead} {buf : Mem} {bufferLen : ℕ}

/-- A string takes a byte as long as one is left, and it is cropped at the end of the
buffer. -/
theorem stringSpan_bounds {rest : ℕ} (hrest : 0 < rest) :
    0 < stringSpan buf rest ∧ stringSpan buf rest ≤ rest := by
  unfold stringSpan
  split <;> omega

theorem stringSpan_zero : stringSpan buf 0 = 0 := rfl

/-- The first command of a string group has the address and the string. -/
theorem cmdEnd_first (h : g.Sound) (hvar : (cmdStruct g.id.toNat).varLen = true) (pos : ℕ) :
    g.cmdEnd buf bufferLen false pos =
      pos + 8 + stringSpan (buf.shift (pos + 8)) (sub32 bufferLen (pos + 8)) := by
  rw [GroupHead.cmdEnd, groupItems_eq h.node, cmdStruct_varLen hvar]
  simp [tagSetString8, itemsEnd, CmdItemType.dataWidth, CmdItemType.width, Nat.add_assoc]

/-- A later command has the string alone when the whole address is shared. -/
theorem cmdEnd_shared (h : g.Sound) (hvar : (cmdStruct g.id.toNat).varLen = true)
    (hskip : g.skipItems = 3) (pos : ℕ) :
    g.cmdEnd buf bufferLen true pos =
      pos + stringSpan (buf.shift pos) (sub32 bufferLen pos) := by
  rw [GroupHead.cmdEnd, groupItems_eq h.node, cmdStruct_varLen hvar, hskip]
  simp [tagSetString8, itemsEnd]

/-- A later command that repeats a part of the address takes bytes. -/
theorem lt_cmdEnd_of_skip_lt (h : g.Sound) (hvar : (cmdStruct g.id.toNat).varLen = true)
    (hskip : g.skipItems < 3) (pos : ℕ) : pos < g.cmdEnd buf bufferLen true pos := by
  have hwidth := add_widthSum_le_unpackItems buf bufferLen (groupItems g.id g.skipItems true) pos
    (GenericCmd.malloc g.id)
  have hpos : 0 < widthSum (groupItems g.id g.skipItems true) := by
    rw [groupItems_eq h.node, cmdStruct_varLen hvar]
    generalize g.skipItems = skip at hskip
    have hall : ∀ k < 3, 0 < widthSum (tagSetString8.items.drop k) := by decide
    exact hall skip hskip
  rw [unpackItems_fst] at hwidth
  rw [GroupHead.cmdEnd]
  omega

/-- The loop ends when all later commands that are reached take bytes. -/
theorem exists_varSpan {reached : ℕ → Prop}
    (hstep : ∀ pos, reached pos → pos < g.length →
      pos < g.cmdEnd buf bufferLen true pos ∧ reached (g.cmdEnd buf bufferLen true pos))
    {pos : ℕ} (hpos : reached pos) : ∃ last n, VarSpan g buf bufferLen true pos last n := by
  -- the bytes up to the announced length become fewer
  induction hrest : g.length - pos using Nat.strong_induction_on generalizing pos with
  | _ rest ih =>
      by_cases hlt : pos < g.length
      · obtain ⟨hadvance, hnext⟩ := hstep pos hpos hlt
        obtain ⟨last, n, hspan⟩ := ih _ (by omega) hnext rfl
        exact ⟨last, n + 1, .next hlt hadvance hspan⟩
      · exact ⟨pos, 0, .complete (Nat.le_of_not_lt hlt)⟩

/-- At the end of the buffer nothing is left to read, and the announced length is not
reached. -/
theorem not_varSpan (h : g.Sound) (hvar : (cmdStruct g.id.toNat).varLen = true)
    (hskip : g.skipItems = 3) (hlong : bufferLen < g.length) (hlt : bufferLen < 2 ^ 16)
    {started : Bool} {pos last n : ℕ} (hstarted : started = true) (hpos : pos ≤ bufferLen) :
    ¬ VarSpan g buf bufferLen started pos last n := by
  intro hspan
  induction hspan with
  | complete hend => omega
  | @next n started pos last _ hadvance _ ih =>
      subst hstarted
      rw [cmdEnd_shared h hvar hskip, sub32_of_le (by omega) hpos] at ih hadvance
      rcases Nat.eq_or_lt_of_le hpos with rfl | hroom
      · rw [Nat.sub_self, stringSpan_zero] at hadvance
        exact Nat.lt_irrefl _ hadvance
      · have hbounds := @stringSpan_bounds (buf.shift pos) (bufferLen - pos) (by omega)
        exact ih rfl (by omega)

/-- **The string group that is never left** shares its whole address, announces a length
past the end of the buffer, and its own address ends in the buffer. -/
theorem varSpan_iff (h : g.Sound) (hvar : (cmdStruct g.id.toNat).varLen = true)
    (hlt : bufferLen < 2 ^ 16) :
    (∃ last n, VarSpan g buf bufferLen false g.pos last n) ↔
      ¬ (g.skipItems = 3 ∧ bufferLen < g.length ∧ g.pos + 8 ≤ bufferLen) := by
  have hlength := h.length_lt
  have hfirst := @cmdEnd_first g buf bufferLen h hvar g.pos
  constructor
  · rintro ⟨last, n, hspan⟩ ⟨hskip, hlong, haddr⟩
    rw [sub32_of_le (by omega) haddr] at hfirst
    have hbounds : stringSpan (buf.shift (g.pos + 8)) (bufferLen - (g.pos + 8)) ≤
        bufferLen - (g.pos + 8) := by
      unfold stringSpan
      split <;> omega
    cases hspan with
    | complete hend => omega
    | next _ _ hrest => exact not_varSpan h hvar hskip hlong hlt rfl (by omega) hrest
  · intro hnot
    by_cases hpos : g.pos < g.length
    case neg => exact ⟨g.pos, 0, .complete (Nat.le_of_not_lt hpos)⟩
    case pos =>
      suffices hlater : ∃ last n,
          VarSpan g buf bufferLen true (g.cmdEnd buf bufferLen false g.pos) last n by
        obtain ⟨last, n, hspan⟩ := hlater
        exact ⟨last, n + 1, .next hpos (h.first_advances g.pos) hspan⟩
      have hkeys : g.skipItems ≤ 3 := by
        have := h.skip_le
        rwa [cmdStruct_varLen hvar] at this
      by_cases hskip : g.skipItems < 3
      · exact @exists_varSpan g buf bufferLen (fun _ => True)
          (fun pos _ _ => ⟨lt_cmdEnd_of_skip_lt h hvar hskip pos, trivial⟩) _ trivial
      · have hskip : g.skipItems = 3 := by omega
        by_cases hlong : bufferLen < g.length
        · -- what is read stands behind the buffer, where strings are not cropped
          refine @exists_varSpan g buf bufferLen (bufferLen < ·) (fun pos hpast hpos => ?_) _ (by omega)
          have hbounds := @stringSpan_bounds (buf.shift pos) (sub32 bufferLen pos) (by
            unfold sub32
            omega)
          rw [cmdEnd_shared h hvar hskip]
          exact ⟨by omega, by omega⟩
        · refine @exists_varSpan g buf bufferLen (fun _ => True) (fun pos _ hpos => ?_) _ trivial
          have hbounds := @stringSpan_bounds (buf.shift pos) (sub32 bufferLen pos) (by
            rw [sub32_of_le (by omega) (by omega)]
            omega)
          rw [cmdEnd_shared h hvar hskip]
          exact ⟨by omega, trivial⟩

end Strings

end Verse
