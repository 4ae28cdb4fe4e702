import Verse.Commands.Skipping

/-!
# Commands with strings of any length

The length a command with a string announces is `v_cmd_size`, in the 16 bits of the
length field: 12 bytes and the string.  What is packed is something else.  A length from
255 on takes two more bytes, which are not counted, and of a string longer than 255 bytes
only the first 255 are sent.  The receiver reads commands until it is behind the announced
length.  So:

* up to 257 bytes of string the first command goes far enough, because the two bytes that
  are not counted make up for the two that are cut;
* a longer string makes the receiver read the next command out of what follows, unless
  the length wraps to a small number, and a length that wraps below four bytes makes it
  read no command at all;
* an empty string at the end of the buffer is not read.
-/

namespace Verse

open Lib

/-- The command with its string cut to what a `string8` can hold. -/
def GenericCmd.cut (cmd : GenericCmd) : GenericCmd :=
  { cmd with str := cmd.str.map (List.take vrsString8MaxSize) }

/-- What follows `before` comes back as `cmd` with its string cut, and all commands
around it come back unchanged. -/
structure ComesBackCut (cmd : GenericCmd) (bytes : List UInt8)
    (before after : List (List UInt8 × List GenericCmd)) (buf : Mem) (bufferLen : UInt16) :
    Prop where
  pass : vCmdUnpackOne (buf.shift (before.flatMap Prod.fst).length)
    (bufferLen.toNat - (before.flatMap Prod.fst).length) = some (bytes.length, [cmd.cut])
  whole : vCmdUnpack buf bufferLen =
    some (bufferLen.toNat, before.flatMap Prod.snd ++ (cmd.cut :: after.flatMap Prod.snd))

/-! ## What is packed -/

section Packed

variable {cmd : GenericCmd} {s : List UInt8}

theorem GenericCmd.cut_strOk (hstr : cmd.str = some s) (hnul : 0 ∉ s) : cmd.cut.StrOk := by
  refine ⟨s.take vrsString8MaxSize, by simp [GenericCmd.cut, hstr], List.length_take_le _ _, ?_⟩
  exact fun hmem => hnul (List.mem_of_mem_take hmem)

theorem GenericCmd.cut_built (hlayout : cmd.layout = tagSetString8) (hsized : cmd.data.length = 8)
    (hstr : cmd.str = some s) (hnul : 0 ∉ s) : cmd.cut.Built := by
  have hcut : cmd.cut.layout = tagSetString8 := hlayout
  refine ⟨by rw [hcut]; rfl, ?_, ?_, fun _ => GenericCmd.cut_strOk hstr hnul⟩
  · rw [hcut]
    exact hsized
  · intro hfixed
    rw [hcut] at hfixed
    cases hfixed

theorem strLen_cut (hstr : cmd.str = some s) : strLen cmd.cut = min s.length 255 := by
  simp [strLen, GenericCmd.cut, hstr, vrsString8MaxSize, Nat.min_comm]

/-- The packed items of a command are those of the command with the cut string. -/
theorem wire_cut (hstr : cmd.str = some s) (items : List CmdItem) :
    wire cmd items = wire cmd.cut items := by
  have hitem : ∀ item, packItem cmd item = packItem cmd.cut item := by
    intro item
    have hread : cmd.cut.read item = cmd.read item := rfl
    have hstring : vnpRawPackString8 (cmd.cut.str.getD []) = vnpRawPackString8 s := by
      simp only [GenericCmd.cut, hstr, Option.map_some, Option.getD_some, vnpRawPackString8,
        List.length_take, List.take_take]
      simp [Nat.min_comm]
    unfold packItem
    rw [hread, hstring, hstr, Option.getD_some]
  simp only [wire]
  exact List.flatMap_congr fun item _ => hitem item

theorem vCmdPack_string (hlayout : cmd.layout = tagSetString8) (hstr : cmd.str = some s)
    (length : ℕ) :
    vCmdPack cmd length 0 = some ((if length = 0 then [] else stringHeader cmd.id length) ++
      wire cmd.cut tagSetString8.items) := by
  have hitems : packItems cmd 0 = wire cmd.cut tagSetString8.items := by
    rw [← wire_cut hstr, packItems, hlayout]
    rfl
  have hshares : tagSetString8.sharesAddr = true := rfl
  simp only [vCmdPack, hlayout, hitems, hshares, stringHeader]
  split <;> simp_all

end Packed

/-! ## What is read -/

section Read

variable {buf : Mem} {bufferLen : ℕ}

theorem unpackItem_id (m : Mem) (bufferSize : ℕ) (item : CmdItem) (cmd : GenericCmd) :
    (unpackItem m bufferSize item cmd).2.id = cmd.id := by
  unfold unpackItem
  split <;> rfl

theorem unpackItems_id (items : List CmdItem) (pos : ℕ) (cmd : GenericCmd) :
    (unpackItems buf bufferLen items pos cmd).2.id = cmd.id := by
  induction items generalizing pos cmd with
  | nil => rfl
  | cons item rest ih =>
      rw [unpackItems_cons, ih, unpackItem_id]

theorem unpackNext_id (id : UInt8) (share skipItems : ℕ) (first : Option GenericCmd) (pos : ℕ) :
    (unpackNext buf bufferLen id share skipItems first pos).2.id = id := by
  rw [unpackNext_eq, unpackItems_id]
  cases first <;> rfl

theorem unpackItems_scalar {item : CmdItem} (htype : item.type ≠ .string8) (rest : List CmdItem)
    (pos : ℕ) (cmd : GenericCmd) :
    ∃ next, unpackItems buf bufferLen (item :: rest) pos cmd =
      unpackItems buf bufferLen rest (pos + item.type.dataWidth) next :=
  ⟨_, by rw [unpackItems_cons, unpackItem_scalar_size htype]⟩

-- the room is a variable, so that no proof computes the difference of two `uint32` values
theorem unpackItems_string8 {pos room : ℕ} (hroom : sub32 bufferLen pos = room) (cmd : GenericCmd) :
    unpackItems buf bufferLen [⟨.string8, 8, 8⟩] pos cmd =
      (pos + (vnpRawUnpackString8ToStr (buf.shift pos) room).1,
        ⟨cmd.id, cmd.data, (vnpRawUnpackString8ToStr (buf.shift pos) room).2⟩) := by
  have hitem : ∀ (m : Mem) (size : ℕ), unpackItem m size ⟨.string8, 8, 8⟩ cmd =
      ((vnpRawUnpackString8ToStr m size).1,
        ⟨cmd.id, cmd.data, (vnpRawUnpackString8ToStr m size).2⟩) := by
    intro m size
    simp only [unpackItem]
  rw [unpackItems_cons, hroom, unpackItems, hitem]

/-- The string of a command is read behind the eight bytes of the three ids. -/
theorem unpackNext_str {id : UInt8} (hlayout : cmdStruct id.toNat = tagSetString8) {pos room : ℕ}
    (hroom : sub32 bufferLen (pos + 8) = room) :
    ∃ i data, unpackNext buf bufferLen id 0 0 none pos =
      (pos + 8 + (vnpRawUnpackString8ToStr (buf.shift (pos + 8)) room).1,
        ⟨i, data, (vnpRawUnpackString8ToStr (buf.shift (pos + 8)) room).2⟩) := by
  have hitems : tagSetString8.items.take tagSetString8.itemCount =
      [⟨.uint32, 4, 0⟩, ⟨.uint16, 2, 4⟩, ⟨.uint16, 2, 6⟩, ⟨.string8, 8, 8⟩] := rfl
  have hwidth : pos + CmdItemType.uint32.dataWidth + CmdItemType.uint16.dataWidth +
      CmdItemType.uint16.dataWidth = pos + 8 := rfl
  simp only [unpackNext, hlayout, hitems]
  obtain ⟨afterNode, hnode⟩ := @unpackItems_scalar buf bufferLen ⟨.uint32, 4, 0⟩ (by decide)
    [⟨.uint16, 2, 4⟩, ⟨.uint16, 2, 6⟩, ⟨.string8, 8, 8⟩] pos (.malloc id)
  obtain ⟨afterGroup, hgroup⟩ := @unpackItems_scalar buf bufferLen ⟨.uint16, 2, 4⟩ (by decide)
    [⟨.uint16, 2, 6⟩, ⟨.string8, 8, 8⟩] (pos + CmdItemType.uint32.dataWidth) afterNode
  obtain ⟨afterTag, htag⟩ := @unpackItems_scalar buf bufferLen ⟨.uint16, 2, 6⟩ (by decide)
    [⟨.string8, 8, 8⟩] (pos + CmdItemType.uint32.dataWidth + CmdItemType.uint16.dataWidth)
    afterGroup
  rw [hnode, hgroup, htag, hwidth, unpackItems_string8 hroom]
  exact ⟨_, _, rfl⟩

theorem length_vnpRawUnpackString8ToStr {m : Mem} {bufferSize : ℕ} {s : List UInt8}
    (h : (vnpRawUnpackString8ToStr m bufferSize).2 = some s) :
    1 + s.length ≤ (vnpRawUnpackString8ToStr m bufferSize).1 := by
  unfold vnpRawUnpackString8ToStr at h ⊢
  split at h
  case isTrue => cases h
  case isFalse htwo =>
    rw [if_neg htwo]
    simp only [Option.some.injEq] at h ⊢
    rw [← h]
    have hle := (List.takeWhile_sublist (· ≠ (0 : UInt8)) (l := (List.range
      (if bufferSize < vnpRawUnpackUint8 m + 1 then bufferSize - 1
        else vnpRawUnpackUint8 m)).map fun i => m (1 + i))).length_le
    simp only [List.length_map, List.length_range] at hle
    omega

theorem unpackVar_ne_nil {id : UInt8} {share skipItems length fuel : ℕ} {first : Option GenericCmd}
    {pos last : ℕ} {cmds : List GenericCmd} (hpos : pos < length)
    (h : unpackVar buf bufferLen id share skipItems length fuel first pos = some (last, cmds)) :
    cmds ≠ [] := by
  cases fuel with
  | zero =>
      rw [unpackVar_zero hpos] at h
      cases h
  | succ fuel =>
      rw [unpackVar_next hpos] at h
      obtain ⟨next, -, heq⟩ := Option.map_eq_some_iff.mp h
      cases heq
      exact List.cons_ne_nil _ _

theorem unpackFixed_id {id : UInt8} {share skipItems count : ℕ} {first : Option GenericCmd}
    {pos : ℕ} {c : GenericCmd}
    (hc : c ∈ (unpackFixed buf bufferLen id share skipItems count first pos).2) : c.id = id := by
  induction count generalizing first pos with
  | zero => cases hc
  | succ count ih =>
      rw [unpackFixed] at hc
      split at hc
      case isFalse => cases hc
      case isTrue =>
        rcases List.mem_cons.mp hc with rfl | hrest
        · exact unpackNext_id id share skipItems first pos
        · exact ih hrest

/-- A string takes its bytes from what the pass goes over, behind eleven other bytes. -/
theorem length_of_stringPass {c : GenericCmd} (hlayout : c.layout = tagSetString8) {s : List UInt8}
    (hstr : c.str = some s) {size : ℕ} (h : vCmdUnpackOne buf bufferLen = some (size, [c])) :
    s.length + 11 ≤ size := by
  rw [vCmdUnpackOne_eq] at h
  cases hhead : cmdHead buf bufferLen with
  | skip k => simp [hhead] at h
  | group g =>
      have htwo := (cmdHead_sound hhead).two_le
      rw [hhead] at h
      simp only at h
      cases hvar : (cmdStruct g.id.toNat).varLen with
      | false =>
          -- commands of fixed length have another id
          have hid : c.id = g.id := by
            rw [g.unpack_fixed hvar] at h
            split at h
            case h_1 => cases h
            case h_2 =>
              have hcmds := congrArg Prod.snd (Option.some.inj h)
              have hmem : c ∈ (size, [c]).2 := List.mem_singleton_self c
              exact unpackFixed_id (hcmds ▸ hmem)
          have hclayout : cmdStruct c.id.toNat = tagSetString8 := hlayout
          rw [← hid, hclayout] at hvar
          cases hvar
      | true =>
          have hglayout := cmdStruct_varLen hvar
          rw [g.unpack_var hvar] at h
          cases hlen : g.length with
          | zero =>
              rw [hlen, unpackVar_end (Nat.not_lt_zero _)] at h
              cases h
          | succ n =>
              by_cases hpos : g.pos < n + 1
              case neg =>
                rw [hlen, unpackVar_end hpos] at h
                cases h
              case pos =>
                rw [hlen, unpackVar_next hpos] at h
                obtain ⟨⟨last, rest⟩, hrest, heq⟩ := Option.map_eq_some_iff.mp h
                simp only [Prod.mk.injEq, List.cons.injEq] at heq
                obtain ⟨rfl, rfl, -⟩ := heq
                have hle := le_of_unpackVar hrest
                have hle : (unpackNext buf bufferLen g.id 0 0 none g.pos).1 ≤ last := hle
                have hstr : (unpackNext buf bufferLen g.id 0 0 none g.pos).2.str = some s := hstr
                obtain ⟨room, hroom⟩ : ∃ n, sub32 bufferLen (g.pos + 8) = n := ⟨_, rfl⟩
                obtain ⟨i, data, hnext⟩ := @unpackNext_str buf bufferLen g.id hglayout g.pos room hroom
                rw [hnext] at hle hstr
                have hspan := length_vnpRawUnpackString8ToStr hstr
                simp only at hle
                omega

end Read

/-! ## The first pass -/

section Pass

variable {cmd : GenericCmd} {s bytes : List UInt8}

/-- The pass at a string command reads it if the announced length lies between the header
and the end of the command, and the string is not an empty one at the end of the buffer. -/
theorem stringPass_iff (hlayout : cmd.layout = tagSetString8) (hsized : cmd.data.length = 8)
    (hstr : cmd.str = some s) (hnul : 0 ∉ s)
    (hpack : vCmdPack cmd (vCmdSize cmd % 2 ^ 16) 0 = some bytes) {buf : Mem} {bufferLen : ℕ}
    (hbuf : bufferLen < 2 ^ 16) (hroom : bytes.length ≤ bufferLen) (hholds : Holds buf bytes) :
    vCmdUnpackOne buf bufferLen = some (bytes.length, [cmd.cut]) ↔
      4 ≤ (12 + s.length) % 2 ^ 16 ∧ (12 + s.length) % 2 ^ 16 ≤ 269 ∧
        (s ≠ [] ∨ bytes.length < bufferLen) := by
  have hbuilt := GenericCmd.cut_built hlayout hsized hstr hnul
  have hsize : vCmdSize cmd = 12 + s.length := by
    rw [vCmdSize_string hlayout, strLen, hstr, Option.getD_some]
  have hwire := wire_string_length (GenericCmd.cut_strOk hstr hnul)
  rw [strLen_cut hstr] at hwire
  have hcutLayout : cmd.cut.layout = tagSetString8 := hlayout
  have hcutStr : cmd.cut.str = some (s.take 255) := by simp [GenericCmd.cut, hstr, vrsString8MaxSize]
  rw [hsize, vCmdPack_string hlayout hstr] at hpack
  have hW : (12 + s.length) % 2 ^ 16 < 2 ^ 16 := Nat.mod_lt _ (by decide)
  generalize hdef : (12 + s.length) % 2 ^ 16 = W at *
  obtain rfl := Option.some.inj hpack
  by_cases hzero : W = 0
  · -- no header was packed, so the bytes are too few for the string
    constructor
    · intro h
      have hspan := length_of_stringPass hcutLayout hcutStr h
      rw [hzero, if_pos rfl, List.nil_append, hwire, List.length_take] at hspan
      omega
    · rintro ⟨hfour, -⟩
      omega
  · rw [if_neg hzero] at *
    have hheader := length_stringHeader cmd.id W
    rw [holds_append] at hholds
    rw [List.length_append] at hroom ⊢
    rw [vCmdUnpackOne_stringHeader hlayout hW bufferLen hholds.1]
    generalize hposDef : (stringHeader cmd.id W).length = pos at *
    by_cases hpos : pos < W
    · obtain ⟨fuel, rfl⟩ : ∃ n, W = n + 1 := ⟨W - 1, by omega⟩
      rw [unpackVar_next hpos]
      by_cases hempty : s ≠ [] ∨ pos + (wire cmd.cut tagSetString8.items).length < bufferLen
      · have hnext : unpackNext buf bufferLen cmd.id 0 0 none pos =
            (pos + (wire cmd.cut tagSetString8.items).length, cmd.cut) := by
          refine unpackNext_string hbuilt hcutLayout hbuf hroom ?_ hholds.2
          refine hempty.imp_left fun hne => ?_
          have hlen := List.length_pos_iff.mpr hne
          rw [strLen_cut hstr]
          omega
        rw [hnext]
        simp only [Option.getD_none]
        by_cases hend : pos + (wire cmd.cut tagSetString8.items).length < fuel + 1
        · -- the announced length goes on, so another command is read
          constructor
          · intro h
            obtain ⟨⟨last, rest⟩, hrest, heq⟩ := Option.map_eq_some_iff.mp h
            simp only [Prod.mk.injEq, List.cons.injEq, true_and] at heq
            exact absurd heq.2 (unpackVar_ne_nil hend hrest)
          · rintro ⟨hfour, hmost, -⟩
            split at hheader <;> omega
        · have hstop : unpackVar buf bufferLen cmd.id 0 0 (fuel + 1) fuel (some cmd.cut)
              (pos + (wire cmd.cut tagSetString8.items).length) =
                some (pos + (wire cmd.cut tagSetString8.items).length, []) := by
            exact unpackVar_end hend fuel
          rw [hstop]
          simp only [Option.map_some, true_iff]
          exact ⟨by split at hheader <;> omega, by split at hheader <;> omega, hempty⟩
      · -- the empty string at the end of the buffer
        obtain ⟨hnil, hlast⟩ := not_or.mp hempty
        have hnone : s.length = 0 := by simpa using hnil
        have hroom' : sub32 bufferLen (pos + 8) = 1 := by
          rw [sub32]
          omega
        obtain ⟨i, data, hnext⟩ := @unpackNext_str buf bufferLen cmd.id hlayout pos 1 hroom'
        constructor
        · intro h
          rw [hnext] at h
          obtain ⟨⟨last, rest⟩, -, heq⟩ := Option.map_eq_some_iff.mp h
          simp only [Prod.mk.injEq, List.cons.injEq] at heq
          have hlost := congrArg GenericCmd.str heq.2.1
          rw [hcutStr] at hlost
          cases hlost
        · rintro ⟨-, -, hcond⟩
          exact absurd hcond hempty
    · -- the announced length ends in the header
      have hstop : unpackVar buf bufferLen cmd.id 0 0 W W none pos = some (pos, []) := by
        exact unpackVar_end hpos W
      rw [hstop]
      constructor
      · intro h
        exact absurd (congrArg Prod.snd (Option.some.inj h)) (List.cons_ne_nil _ _).symm
      · rintro ⟨hfour, -⟩
        split at hheader <;> omega

end Pass

/-! ## The whole buffer -/

/-- **When a string command comes back.**  Between well-formed commands it is read as one
command with the same ids and the first 255 characters of the string, and everything behind
it is unchanged, if and only if the 16-bit length it announces is at least 4 and at most
269, which is so for every string of at most 257 characters, and the string is not an
empty one at the end of the buffer. -/
theorem comesBackCut_iff {cmd : GenericCmd} (hid : cmd.id.toNat = cmdTagSetString8)
    (hsized : cmd.data.length = 8) {s : List UInt8} (hstr : cmd.str = some s) (hnul : 0 ∉ s)
    {before after : List (List UInt8 × List GenericCmd)}
    (hbefore : ∀ piece ∈ before, ReadsInside piece.1 piece.2) (hafter : ReadsAll after)
    {bytes : List UInt8} (hpack : vCmdPack cmd (vCmdSize cmd % 2 ^ 16) 0 = some bytes)
    {buf : Mem} {bufferLen : UInt16}
    (hlen : (before.flatMap Prod.fst ++ (bytes ++ after.flatMap Prod.fst)).length =
      bufferLen.toNat)
    (hholds : Holds buf (before.flatMap Prod.fst ++ (bytes ++ after.flatMap Prod.fst))) :
    ComesBackCut cmd bytes before after buf bufferLen ↔
      4 ≤ (12 + s.length) % 2 ^ 16 ∧ (12 + s.length) % 2 ^ 16 ≤ 269 ∧
        (s ≠ [] ∨ after ≠ []) := by
  have hlayout : cmd.layout = tagSetString8 := by
    rw [GenericCmd.layout, hid]
    decide +kernel
  have hlt := bufferLen.toNat_lt
  rw [List.length_append, List.length_append] at hlen
  rw [holds_append, holds_append, shift_shift] at hholds
  obtain ⟨hbeforeHolds, hbytes, hafterHolds⟩ := hholds
  have hpass := stringPass_iff hlayout hsized hstr hnul hpack
    (show bufferLen.toNat - (before.flatMap Prod.fst).length < 2 ^ 16 by omega) (by omega) hbytes
  have hmore : bytes.length < bufferLen.toNat - (before.flatMap Prod.fst).length ↔ after ≠ [] := by
    cases after with
    | nil =>
        simp only [List.flatMap_nil, List.length_nil] at hlen
        simp only [ne_eq, not_true, iff_false]
        omega
    | cons piece rest =>
        have htwo := hafter.length_pos
        rw [List.flatMap_cons, List.length_append] at hlen
        simp only [ne_eq, reduceCtorEq, not_false_eq_true, iff_true]
        omega
  rw [hmore] at hpass
  constructor
  · exact fun h => hpass.mp h.pass
  · intro h
    have hone := hpass.mpr h
    have hbytesLen : 8 ≤ bytes.length := by
      have hwire := wire_string_length (GenericCmd.cut_strOk hstr hnul)
      have hsplit := Option.some.inj ((vCmdPack_string hlayout hstr _).symm.trans hpack)
      rw [← hsplit, List.length_append, hwire]
      omega
    exact ⟨hone, vCmdUnpack_between hbefore hafter rfl (by omega) (by omega) (by omega)
      hbeforeHolds hafterHolds hone⟩

/-- The command that sets tag 2 of tag group 1 of node 5 to a string of `n` letters. -/
def setLetters (n : ℕ) : GenericCmd :=
  ⟨98, [5, 0, 0, 0, 1, 0, 2, 0], some (List.replicate n 97)⟩

theorem setLetters_comesBack :
    ComesBackCut (setLetters 256)
      (stringHeader 98 268 ++ wire (setLetters 256).cut tagSetString8.items)
      [(linkGroup.bytes linkGroup.length, linkGroup.cmds)]
      [(linkGroup.bytes linkGroup.length, linkGroup.cmds)]
      (ofBytes ([(linkGroup.bytes linkGroup.length, linkGroup.cmds)].flatMap Prod.fst ++
        ((stringHeader 98 268 ++ wire (setLetters 256).cut tagSetString8.items) ++
          [(linkGroup.bytes linkGroup.length, linkGroup.cmds)].flatMap Prod.fst))) 299 := by
  have hreads : Reads (linkGroup.bytes linkGroup.length) linkGroup.cmds :=
    CmdGroup.reads (by decide +kernel)
  have hafter : ReadsAll [(linkGroup.bytes linkGroup.length, linkGroup.cmds)] := hreads.atEnd
  refine (comesBackCut_iff (s := List.replicate 256 97) (by decide) (by decide) rfl
    (by decide +kernel) ?_ hafter (by decide +kernel) (by decide +kernel)
    (holds_ofBytes _)).mpr (by decide +kernel)
  intro piece hpiece
  rw [List.mem_singleton.mp hpiece]
  exact hreads.inside

/-- **A string of 258 letters before a `Node_Destroy`.**  269 bytes are packed and 270 are
announced, so that the receiver takes the `Node_Destroy` for the beginning of another string
command. -/
theorem setLetters_258 :
    ∃ bytes, vCmdPack (setLetters 258) (vCmdSize (setLetters 258) % 2 ^ 16) 0 = some bytes ∧
      bytes.length = 269 ∧
      vCmdUnpack (ofBytes [33, 6, 0, 0, 0, 9]) 6 = some (6, [⟨33, [9, 0, 0, 0], none⟩]) ∧
      vCmdUnpack (ofBytes (bytes ++ [33, 6, 0, 0, 0, 9])) 275 =
        some (278, [(setLetters 258).cut, ⟨98, [0, 0, 6, 33, 9, 0, 0, 0], some []⟩]) := by
  refine ⟨[98, 0xFF, 1, 14, 0, 0, 0, 0, 5, 0, 1, 0, 2, 0xFF] ++ List.replicate 255 97,
    ?_, ?_, ?_, ?_⟩ <;> decide +kernel

end Verse
