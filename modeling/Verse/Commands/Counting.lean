import Verse.Commands.Layout
import Mathlib.Data.UInt

/-!
# How many commands fit

`v_cmd_count` divides what a buffer has behind the header of a group by the size of one
command, and `v_cmds_len` is the length of such a group.  The two agree for commands that
share an address, as long as the buffer holds the header.  They disagree:

* in a buffer that is smaller than the header, because the difference is unsigned;
* for commands that share no address, because the size is reduced by one;
* for an id without a layout, whose size is zero, so that the reduced size wraps.
-/

namespace Verse

/-- The number that `v_cmd_count` gives fits: so many commands are no longer than the
buffer, and the number is zero if the buffer does not hold one command. -/
structure CountFits (cmd : GenericCmd) (maxLen share : ℕ) : Prop where
  fits : vCmdCount cmd maxLen share = 0 ∨
    vCmdsLen cmd (vCmdCount cmd maxLen share) share 0 ≤ maxLen
  none : maxLen < vCmdsLen cmd 1 share 0 → vCmdCount cmd maxLen share = 0

theorem countFits_iff_and {cmd : GenericCmd} {maxLen share : ℕ} :
    CountFits cmd maxLen share ↔
      (vCmdCount cmd maxLen share = 0 ∨
        vCmdsLen cmd (vCmdCount cmd maxLen share) share 0 ≤ maxLen) ∧
      (maxLen < vCmdsLen cmd 1 share 0 → vCmdCount cmd maxLen share = 0) :=
  ⟨fun h => ⟨h.fits, h.none⟩, fun h => ⟨h.1, h.2⟩⟩

/-- The buffers for which the number fits.  Commands without a shared address are counted
with a size that is one too small, so that the bytes left over must make up for it, or the
length must be too large for 16 bits. -/
def CountsRight (s : CmdStruct) (maxLen share : ℕ) : Prop :=
  if s.sharesAddr then 3 + share ≤ maxLen
  else if s.isNodeCmd then
    if maxLen < 0xFF then 2 ≤ maxLen ∧ (maxLen - 2) / (s.size - 1) ≤ (maxLen - 2) % (s.size - 1)
    else 2 ^ 16 ≤ 4 + s.size * ((maxLen - 4) / (s.size - 1))
  else maxLen ≠ 1

instance (s : CmdStruct) (maxLen share : ℕ) : Decidable (CountsRight s maxLen share) :=
  inferInstanceAs (Decidable (if s.sharesAddr then _ else if s.isNodeCmd then _ else _))

/-! ## The table -/

/-- Only three ids without a shared address have a layout. -/
theorem cmdStructTable_noShare : ∀ s ∈ cmdStructTable, s.isNodeCmd = true → s.sharesAddr = false →
    s.size = 4 ∨ s.size = 12 := by
  decide +kernel

theorem cmdStructTable_unused :
    ∀ s ∈ cmdStructTable, s.isNodeCmd = false → s = .reserved := by
  decide +kernel

theorem cmdStruct_unused {id : ℕ} (h : (cmdStruct id).isNodeCmd = false) :
    cmdStruct id = .reserved := by
  rcases cmdStruct_mem id with hmem | hres
  · exact cmdStructTable_unused _ hmem h
  · exact hres

theorem cmdStruct_noShare {id : ℕ} (hnode : (cmdStruct id).isNodeCmd = true)
    (hshare : (cmdStruct id).sharesAddr = false) :
    (cmdStruct id).size = 4 ∨ (cmdStruct id).size = 12 := by
  rcases cmdStruct_mem id with hmem | hres
  · exact cmdStructTable_noShare _ hmem hnode hshare
  · rw [hres] at hnode
    cases hnode

/-- A difference that wraps never gives a multiple of `2 ^ 16` commands. -/
theorem cmdStructTable_wrapped : ∀ s ∈ cmdStructTable, s.isNodeCmd = true → s.sharesAddr = true →
    ∀ k ≤ s.keyCount, ∀ maxLen < 3 + sizeSum (s.items.take k),
      sub64 maxLen (1 + 1 + 1 + sizeSum (s.items.take k)) /
        sub64 s.size (sizeSum (s.items.take k)) % 2 ^ 16 ≠ 0 := by
  decide +kernel

theorem cmdStructTable_keySize : ∀ s ∈ cmdStructTable, s.keySize ≤ 8 := by
  decide +kernel

/-! ## Commands that share an address -/

section Shared

variable {cmd : GenericCmd} {maxLen share : ℕ}

theorem vCmdsLen_shared (hvar : cmd.layout.varLen = false) (hshares : cmd.layout.sharesAddr = true)
    (n : ℕ) :
    vCmdsLen cmd n share 0 =
      if 3 + share + n * (cmd.layout.size - share) % 2 ^ 16 < 0xFF then
        (3 + share + n * (cmd.layout.size - share) % 2 ^ 16) % 2 ^ 16
      else (5 + share + n * (cmd.layout.size - share) % 2 ^ 16) % 2 ^ 16 := by
  simp only [vCmdsLen, hvar, hshares, Bool.not_false, if_true]

theorem vCmdCount_shared (hvar : cmd.layout.varLen = false)
    (hshares : cmd.layout.sharesAddr = true) (hsize : cmd.layout.size < 256)
    (hroom : share < cmd.layout.size) (hlt : maxLen < 2 ^ 16) {header : ℕ}
    (hheader : header = if maxLen < 0xFF then 3 + share else 5 + share) (hle : header ≤ maxLen) :
    vCmdCount cmd maxLen share = (maxLen - header) / (cmd.layout.size - share) := by
  have hdiv : (maxLen - header) / (cmd.layout.size - share) < 2 ^ 16 :=
    calc (maxLen - header) / (cmd.layout.size - share) ≤ maxLen - header := Nat.div_le_self _ _
      _ < 2 ^ 16 := by omega
  have hsub : sub64 maxLen header = maxLen - header := sub64_of_le (by omega) hle
  simp only [vCmdCount, hvar, hshares, Bool.false_eq_true, if_false, if_true,
    sub64_of_le (show cmd.layout.size < 2 ^ 64 by omega) hroom.le]
  split at hheader
  case isTrue h =>
    rw [if_pos h, show 1 + 1 + 1 + share = header by omega, hsub, Nat.mod_eq_of_lt hdiv]
  case isFalse h =>
    rw [if_neg h, show 1 + 1 + 2 + 1 + share = header by omega, hsub, Nat.mod_eq_of_lt hdiv]

theorem countFits_shared (hvar : cmd.layout.varLen = false)
    (hshares : cmd.layout.sharesAddr = true) (hsize : cmd.layout.size < 256)
    (hroom : share < cmd.layout.size) (hlt : maxLen < 2 ^ 16) (hkey : share ≤ 8)
    (hle : 3 + share ≤ maxLen) : CountFits cmd maxLen share := by
  obtain ⟨header, hheader⟩ : ∃ n, n = if maxLen < 0xFF then 3 + share else 5 + share := ⟨_, rfl⟩
  have hheaderLe : header ≤ maxLen := by split at hheader <;> omega
  have hcount := vCmdCount_shared hvar hshares hsize hroom hlt hheader hheaderLe
  have hdata : vCmdCount cmd maxLen share * (cmd.layout.size - share) ≤ maxLen - header :=
    hcount ▸ Nat.div_mul_le_self _ _
  have hmod : vCmdCount cmd maxLen share * (cmd.layout.size - share) % 2 ^ 16 =
      vCmdCount cmd maxLen share * (cmd.layout.size - share) := Nat.mod_eq_of_lt (by omega)
  constructor
  · right
    rw [vCmdsLen_shared hvar hshares, hmod]
    split at hheader <;> split <;> omega
  · intro hone
    rw [vCmdsLen_shared hvar hshares, Nat.one_mul] at hone
    rw [hcount]
    refine Nat.div_eq_of_lt ?_
    split at hheader <;> split at hone <;> omega

/-- In a buffer without room for the header the difference wraps. -/
theorem not_countFits_shared (hvar : cmd.layout.varLen = false)
    (hshares : cmd.layout.sharesAddr = true) (hsize : cmd.layout.size < 256)
    (hroom : share < cmd.layout.size) (hkey : share ≤ 8) (hlt : maxLen < 3 + share)
    (hwrapped : sub64 maxLen (1 + 1 + 1 + share) / sub64 cmd.layout.size share % 2 ^ 16 ≠ 0) :
    ¬ CountFits cmd maxLen share := by
  intro h
  refine hwrapped ?_
  have hnone : vCmdCount cmd maxLen share = 0 := by
    refine h.none ?_
    rw [vCmdsLen_shared hvar hshares, Nat.one_mul]
    split <;> omega
  simpa only [vCmdCount, hvar, hshares, Bool.false_eq_true, if_false, if_true,
    if_pos (show maxLen < 0xFF by omega)] using hnone

end Shared

/-! ## Commands that share no address -/

section NoShare

variable {cmd : GenericCmd} {maxLen : ℕ}

theorem vCmdsLen_noShare (hshares : cmd.layout.sharesAddr = false) (n : ℕ) :
    vCmdsLen cmd n 0 0 =
      if 2 + n * cmd.layout.size % 2 ^ 16 < 0xFF then (2 + n * cmd.layout.size % 2 ^ 16) % 2 ^ 16
      else (4 + n * cmd.layout.size % 2 ^ 16) % 2 ^ 16 := by
  simp only [vCmdsLen, hshares, Bool.false_eq_true, if_false]

theorem vCmdCount_noShare (hvar : cmd.layout.varLen = false)
    (hshares : cmd.layout.sharesAddr = false) :
    vCmdCount cmd maxLen 0 =
      sub64 maxLen (if maxLen < 0xFF then 2 else 4) / sub64 cmd.layout.size 1 % 2 ^ 16 := by
  simp only [vCmdCount, hvar, hshares, Bool.false_eq_true, if_false]
  split <;> rfl

theorem vCmdCount_noShare_of_le (hvar : cmd.layout.varLen = false)
    (hshares : cmd.layout.sharesAddr = false)
    (hsize : cmd.layout.size = 4 ∨ cmd.layout.size = 12) (hlt : maxLen < 2 ^ 16) {header : ℕ}
    (hheader : header = if maxLen < 0xFF then 2 else 4) (hle : header ≤ maxLen) :
    vCmdCount cmd maxLen 0 = (maxLen - header) / (cmd.layout.size - 1) := by
  have hdiv : (maxLen - header) / (cmd.layout.size - 1) < 2 ^ 16 :=
    calc (maxLen - header) / (cmd.layout.size - 1) ≤ maxLen - header := Nat.div_le_self _ _
      _ < 2 ^ 16 := by omega
  rw [vCmdCount_noShare hvar hshares, ← hheader, sub64_of_le (show maxLen < 2 ^ 64 by omega) hle,
    sub64_of_le (show cmd.layout.size < 2 ^ 64 by omega) (by omega), Nat.mod_eq_of_lt hdiv]

theorem vCmdsLen_noShare_one (hshares : cmd.layout.sharesAddr = false)
    (hsize : cmd.layout.size = 4 ∨ cmd.layout.size = 12) :
    vCmdsLen cmd 1 0 0 = 2 + cmd.layout.size := by
  rw [vCmdsLen_noShare hshares, Nat.one_mul]
  split <;> omega

theorem countFits_noShare_short (hvar : cmd.layout.varLen = false)
    (hshares : cmd.layout.sharesAddr = false)
    (hsize : cmd.layout.size = 4 ∨ cmd.layout.size = 12) (hlt : maxLen < 0xFF) :
    CountFits cmd maxLen 0 ↔ 2 ≤ maxLen ∧
      (maxLen - 2) / (cmd.layout.size - 1) ≤ (maxLen - 2) % (cmd.layout.size - 1) := by
  rw [countFits_iff_and, vCmdsLen_noShare_one hshares hsize, vCmdsLen_noShare hshares]
  by_cases hle : 2 ≤ maxLen
  · rw [vCmdCount_noShare_of_le hvar hshares hsize (show maxLen < 2 ^ 16 by omega) rfl
      (by rw [if_pos hlt]; exact hle), if_pos hlt]
    obtain ⟨d, hd, hthree⟩ : ∃ d, cmd.layout.size = d + 1 ∧ (d = 3 ∨ d = 11) :=
      ⟨cmd.layout.size - 1, by omega, by omega⟩
    have hsplit := Nat.div_add_mod (maxLen - 2) d
    have hrest : (maxLen - 2) % d < d := Nat.mod_lt _ (by omega)
    rw [hd, Nat.add_sub_cancel]
    generalize (maxLen - 2) / d = n at *
    generalize (maxLen - 2) % d = rest at *
    have hdata : n * (d + 1) % 2 ^ 16 = n * (d + 1) := by
      refine Nat.mod_eq_of_lt ?_
      rcases hthree with rfl | rfl <;> omega
    rw [hdata]
    rcases hthree with rfl | rfl <;> split <;> omega
  · -- the difference wraps, and the quotient is no multiple of `2 ^ 16`
    have hnone : vCmdCount cmd maxLen 0 ≠ 0 := by
      rw [vCmdCount_noShare hvar hshares, if_pos hlt]
      obtain rfl | rfl : maxLen = 0 ∨ maxLen = 1 := by omega
      all_goals rcases hsize with hsize | hsize <;> rw [hsize] <;> decide
    constructor
    · rintro ⟨-, hone⟩
      exact absurd (hone (by omega)) hnone
    · rintro ⟨htwo, -⟩
      exact absurd htwo hle

theorem countFits_noShare_long (hvar : cmd.layout.varLen = false)
    (hshares : cmd.layout.sharesAddr = false)
    (hsize : cmd.layout.size = 4 ∨ cmd.layout.size = 12) (hlong : 0xFF ≤ maxLen)
    (hlt : maxLen < 2 ^ 16) :
    CountFits cmd maxLen 0 ↔
      2 ^ 16 ≤ 4 + cmd.layout.size * ((maxLen - 4) / (cmd.layout.size - 1)) := by
  have hshort : ¬ maxLen < 0xFF := Nat.not_lt.mpr hlong
  rw [countFits_iff_and, vCmdsLen_noShare_one hshares hsize, vCmdsLen_noShare hshares,
    vCmdCount_noShare_of_le hvar hshares hsize hlt rfl (by rw [if_neg hshort]; omega),
    if_neg hshort]
  obtain ⟨d, hd, hthree⟩ : ∃ d, cmd.layout.size = d + 1 ∧ (d = 3 ∨ d = 11) :=
    ⟨cmd.layout.size - 1, by omega, by omega⟩
  have hsplit := Nat.div_add_mod (maxLen - 4) d
  have hrest : (maxLen - 4) % d < d := Nat.mod_lt _ (by omega)
  rw [hd, Nat.add_sub_cancel]
  generalize (maxLen - 4) / d = n at *
  generalize (maxLen - 4) % d = rest at *
  -- the data of all commands may wrap once
  have hdata : n * (d + 1) % 2 ^ 16 = n * (d + 1) ∧ n * (d + 1) < 2 ^ 16 ∨
      n * (d + 1) % 2 ^ 16 + 2 ^ 16 = n * (d + 1) := by
    rcases hthree with rfl | rfl <;> omega
  have hdataLt : n * (d + 1) % 2 ^ 16 < 2 ^ 16 := Nat.mod_lt _ (by decide)
  generalize n * (d + 1) % 2 ^ 16 = data at *
  have htotal : (4 + data) % 2 ^ 16 = 4 + data ∧ 4 + data < 2 ^ 16 ∨
      (4 + data) % 2 ^ 16 + 2 ^ 16 = 4 + data := by omega
  generalize (4 + data) % 2 ^ 16 = total at *
  rcases hthree with rfl | rfl <;> split <;> omega

end NoShare

/-! ## Ids without a layout -/

theorem countFits_unused {cmd : GenericCmd} (hvar : cmd.layout.varLen = false) {maxLen : ℕ}
    (hres : cmd.layout = .reserved) (hlt : maxLen < 2 ^ 16) :
    CountFits cmd maxLen 0 ↔ maxLen ≠ 1 := by
  have hshares : cmd.layout.sharesAddr = false := by rw [hres]; rfl
  have hsize : cmd.layout.size = 0 := by rw [hres]; rfl
  have hlen : ∀ n, vCmdsLen cmd n 0 0 = 2 := by
    intro n
    rw [vCmdsLen_noShare hshares, hsize, Nat.mul_zero]
    rfl
  have hcount := @vCmdCount_noShare cmd maxLen hvar hshares
  rw [hsize, show sub64 0 1 = 2 ^ 64 - 1 from rfl] at hcount
  rw [countFits_iff_and, hlen, hlen, hcount]
  by_cases hle : 4 ≤ maxLen
  · have hzero : sub64 maxLen (if maxLen < 0xFF then 2 else 4) < 2 ^ 64 - 1 := by
      rw [sub64_of_le (by omega) (by split <;> omega)]
      split <;> omega
    rw [Nat.div_eq_of_lt hzero]
    simp only [Nat.zero_mod, true_or, implies_true, and_self, true_iff]
    omega
  · obtain rfl | rfl | rfl | rfl : maxLen = 0 ∨ maxLen = 1 ∨ maxLen = 2 ∨ maxLen = 3 := by omega
    all_goals decide

/-! ## All ids -/

/-- **When the number of commands fits the buffer.**  For commands that share an address the
buffer must hold the header of the group; for the others the bytes that are left over must
make up for the size that is one too small, or the length is too large for 16 bits; and an
id without a layout fits unless the buffer has exactly one byte. -/
theorem countFits_iff {cmd : GenericCmd} (hvar : cmd.layout.varLen = false) {maxLen : UInt16}
    {share : ℕ}
    (hshare : ∃ k ≤ cmd.layout.keyCount, share = sizeSum (cmd.layout.items.take k))
    (hnone : cmd.layout.sharesAddr = false → share = 0) :
    CountFits cmd maxLen.toNat share ↔ CountsRight cmd.layout maxLen.toNat share := by
  have hlt := maxLen.toNat_lt
  cases hnode : cmd.layout.isNodeCmd with
  | false =>
      have hres : cmd.layout = .reserved := cmdStruct_unused hnode
      have hshares : cmd.layout.sharesAddr = false := by rw [hres]; rfl
      rw [hnone hshares, CountsRight, hshares, hnode, if_neg (by decide), if_neg (by decide)]
      exact countFits_unused hvar hres hlt
  | true =>
      have hsound : cmd.layout.Sound := cmdStruct_sound hnode
      cases hshares : cmd.layout.sharesAddr with
      | false =>
          have hsize : cmd.layout.size = 4 ∨ cmd.layout.size = 12 := cmdStruct_noShare hnode hshares
          rw [hnone hshares, CountsRight, hshares, hnode, if_neg (by decide), if_pos rfl]
          split
          case isTrue hshort => exact countFits_noShare_short hvar hshares hsize hshort
          case isFalse hlong => exact countFits_noShare_long hvar hshares hsize (by omega) hlt
      | true =>
          obtain ⟨k, hk, rfl⟩ := hshare
          have hmem : cmd.layout ∈ cmdStructTable := by
            rcases cmdStruct_mem cmd.id.toNat with hmem | hres
            · exact hmem
            · rw [show cmd.layout = _ from hres] at hnode
              cases hnode
          have hkeys := hsound.sizeSum_take_le hk
          have hroom := hsound.shareRoom hshares
          have hsmall := hsound.small
          have hkeySize := cmdStructTable_keySize _ hmem
          rw [CountsRight, hshares, if_pos rfl]
          constructor
          · intro h
            by_contra hlow
            exact not_countFits_shared hvar hshares hsmall (by omega) (by omega) (by omega)
              (cmdStructTable_wrapped _ hmem hnode hshares k hk _ (by omega)) h
          · intro h
            exact countFits_shared hvar hshares hsmall (by omega) hlt (by omega) h

theorem countFits_nodeLink : CountFits ⟨37, [1, 0, 0, 0, 2, 0, 0, 0], none⟩ 1500 4 :=
  (@countFits_iff ⟨37, [1, 0, 0, 0, 2, 0, 0, 0], none⟩ (by decide +kernel) 1500 4 ⟨1, by decide +kernel⟩
    (by decide +kernel)).mpr (by decide +kernel)

/-- **Numbers that do not fit.**  `Node_Subscribe` commands in 1500 bytes: 136 commands are
counted, which take 1636 bytes.  `Node_Link` commands in three bytes, with the parent shared:
65535 are counted, and not one fits.  An unused id in one byte: one command is counted. -/
theorem vCmdCount_too_many :
    vCmdCount ⟨34, List.replicate 12 0, none⟩ 1500 0 = 136 ∧
      vCmdsLen ⟨34, List.replicate 12 0, none⟩ 136 0 0 = 1636 ∧
      vCmdCount ⟨37, [1, 0, 0, 0, 2, 0, 0, 0], none⟩ 3 4 = 65535 ∧
      vCmdsLen ⟨37, [1, 0, 0, 0, 2, 0, 0, 0], none⟩ 1 4 0 = 11 ∧
      vCmdCount ⟨1, [], none⟩ 1 0 = 1 ∧ vCmdsLen ⟨1, [], none⟩ 1 0 0 = 2 := by
  decide +kernel

end Verse
