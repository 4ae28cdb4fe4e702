import Verse.Nodes.TagGroups

/-!
# The memory of string tags

A string is stored in memory that `strdup` or `realloc` gave, and how much that was is not
stored: the memory is taken to be as long as the string in it.  The same code stands in
`vs_handle_tag_set`, for clients, and in `vs_tag_set_values`, for the database.  Both leave
no room for the terminating zero when the length of the string changes.

A string is given by the bytes in front of its terminating zero.
-/

namespace Verse

open Lib

/-- `memcpy` to the place `pos` of a block. -/
def overwrite (old : List UInt8) (pos : ℕ) (data : List UInt8) : List UInt8 :=
  old.take pos ++ data ++ old.drop (pos + data.length)

/-- `vs_tag_set_values`.  `strcpy` where the length is the same, and otherwise `realloc` to
the length of the string; `none` is the failed assertion on the type. -/
def vsTagSetValues (tag : VSTag) (count index : ℕ) (data : List UInt8) : Option VSTag :=
  if tag.dataType = valueTypeString8 then
    let size :=
      match tag.value with
      | none => data.length + 1
      | some old => if data.length = old.length then tag.size else data.length
    some { tag with value := some data, size }
  else if 0 < tag.dataType ∧ tag.dataType < valueTypeString8 then
    let width := dataTypeSize tag.dataType
    some
      { tag with
        value := tag.value.map fun old => overwrite old (index * width) (data.take (count * width)) }
  else none

/-- A set of a tag that has passed the tests of its handler. -/
inductive TagSet where
  /-- the switch of `vs_handle_tag_set` -/
  | command (value : List UInt8)
  /-- `vs_tag_set_values` -/
  | values (count index : ℕ) (data : List UInt8)
  deriving DecidableEq, Repr

/-- What `data` points at. -/
def TagSet.data : TagSet → List UInt8
  | .command value => value
  | .values _ _ data => data

def VSTag.set (tag : VSTag) : TagSet → Option VSTag
  | .command value => some (VSData.setTagValue tag value)
  | .values count index data => vsTagSetValues tag count index data

/-- The string is stored, with room for its terminating zero. -/
def VSTag.Stores (tag : VSTag) (str : List UInt8) : Prop :=
  tag.value = some str ∧ str.length + 1 ≤ tag.size

/-- **After each set** the tag stores the string that was set. -/
def StringsStored (tag : VSTag) (sets : List TagSet) : Prop :=
  ∀ done last, done ++ [last] <+: sets →
    ∃ tag', run VSTag.set tag (done ++ [last]) = some tag' ∧ tag'.Stores last.data

/-- All strings have the length of the first one. -/
def SameLength (sets : List TagSet) : Prop :=
  ∀ first ∈ sets.head?, ∀ set ∈ sets, set.data.length = first.data.length

/-! ## One set -/

variable {tag : VSTag}

/-- The tags the results are about are those that `vs_tag_create` makes. -/
theorem vsTagCreate_string {d d' : VSData} {g count customType a : ℕ}
    (h : d.vsTagCreate g valueTypeString8 count customType = some (d', a)) :
    ∃ tag, d'.tag a = some tag ∧ tag.dataType = valueTypeString8 ∧ tag.value = none := by
  simp only [VSData.vsTagCreate, Option.bind_eq_bind, Option.bind_eq_some_iff] at h
  obtain ⟨tg, -, id, -, h⟩ := h
  obtain ⟨rfl, rfl⟩ := Prod.mk.inj (Option.some.inj h)
  exact ⟨_, Function.update_self _ _ _, rfl, rfl⟩

/-- Both copies of the code do the same to the string. -/
theorem VSTag.set_string (htype : tag.dataType = valueTypeString8) (s : TagSet) :
    ∃ tag', tag.set s = some tag' ∧ tag'.dataType = valueTypeString8 ∧ tag'.value = some s.data ∧
      tag'.size =
        match tag.value with
        | none => s.data.length + 1
        | some old => if s.data.length = old.length then tag.size else s.data.length := by
  cases s with
  | command value =>
      refine ⟨_, rfl, htype, rfl, ?_⟩
      simp only [VSData.setTagValue, if_pos htype]
      cases tag.value <;> rfl
  | values count index data =>
      refine ⟨_, if_pos htype, htype, rfl, ?_⟩
      cases tag.value <;> rfl

/-- A tag that was never set has room for any string. -/
theorem VSTag.set_first (htype : tag.dataType = valueTypeString8) (hnew : tag.value = none)
    (s : TagSet) :
    ∃ tag', tag.set s = some tag' ∧ tag'.dataType = valueTypeString8 ∧ tag'.value = some s.data ∧
      tag'.size = s.data.length + 1 := by
  obtain ⟨tag', hset, htype', hvalue, hsize⟩ := VSTag.set_string htype s
  rw [hnew] at hsize
  exact ⟨tag', hset, htype', hvalue, hsize⟩

/-- The memory stays as it is for a string of the same length, and is one byte short for
every other one. -/
theorem VSTag.set_next (htype : tag.dataType = valueTypeString8) {old : List UInt8}
    (hold : tag.value = some old) (hsize : tag.size = old.length + 1) (s : TagSet) :
    ∃ tag', tag.set s = some tag' ∧ tag'.dataType = valueTypeString8 ∧ tag'.value = some s.data ∧
      (s.data.length = old.length → tag'.size = s.data.length + 1) ∧
      (s.data.length ≠ old.length → tag'.size = s.data.length) := by
  obtain ⟨tag', hset, htype', hvalue, hsize'⟩ := VSTag.set_string htype s
  simp only [hold] at hsize'
  refine ⟨tag', hset, htype', hvalue, ?_, ?_⟩
  · intro hlen
    rw [hsize', if_pos hlen, hsize, hlen]
  · intro hlen
    rw [hsize', if_neg hlen]

/-! ## Runs -/

theorem stringsStored_nil (tag : VSTag) : StringsStored tag [] := by
  intro done last hbegin
  have hnil := List.prefix_nil.mp hbegin
  simp at hnil

/-- The first set, and then the others. -/
theorem stringsStored_cons {s : TagSet} {rest : List TagSet} {tag' : VSTag}
    (hset : tag.set s = some tag') :
    StringsStored tag (s :: rest) ↔ tag'.Stores s.data ∧ StringsStored tag' rest := by
  constructor
  · intro h
    constructor
    · obtain ⟨tag₁, hrun, hstores⟩ := h [] s (by simp)
      rw [List.nil_append, run_cons hset] at hrun
      obtain rfl := Option.some.inj hrun
      exact hstores
    · intro done last hbegin
      have hlong := h (s :: done) last (List.cons_prefix_cons.mpr ⟨rfl, hbegin⟩)
      rwa [List.cons_append, run_cons hset] at hlong
  · rintro ⟨hfirst, hrest⟩ done last hbegin
    cases done with
    | nil =>
        obtain ⟨rfl, -⟩ := List.cons_prefix_cons.mp hbegin
        exact ⟨tag', by rw [List.nil_append, run_cons hset, run_nil], hfirst⟩
    | cons first done =>
        obtain ⟨rfl, htail⟩ := List.cons_prefix_cons.mp hbegin
        obtain ⟨tag₁, hrun, hstores⟩ := hrest done last htail
        exact ⟨tag₁, by rw [List.cons_append, run_cons hset, hrun], hstores⟩

/-- From a tag with the right memory on, only strings of its length are stored. -/
theorem stringsStored_from (htype : tag.dataType = valueTypeString8) {old : List UInt8}
    (hold : tag.value = some old) (hsize : tag.size = old.length + 1) (sets : List TagSet) :
    StringsStored tag sets ↔ ∀ s ∈ sets, s.data.length = old.length := by
  induction sets generalizing tag old with
  | nil => exact iff_of_true (stringsStored_nil tag) fun s hs => absurd hs List.not_mem_nil
  | cons s rest ih =>
      obtain ⟨tag', hset, htype', hvalue, hsame, hother⟩ := VSTag.set_next htype hold hsize s
      rw [stringsStored_cons hset, List.forall_mem_cons]
      by_cases hlen : s.data.length = old.length
      case neg =>
        have hshort : ¬ tag'.Stores s.data := by
          rintro ⟨-, hroom⟩
          rw [hother hlen] at hroom
          omega
        exact iff_of_false (fun h => hshort h.1) fun h => hlen h.1
      case pos =>
        have hstores : tag'.Stores s.data := ⟨hvalue, Nat.le_of_eq (hsame hlen).symm⟩
        rw [ih htype' hvalue (hsame hlen), hlen]
        exact and_congr_left' (iff_of_true hstores rfl)

/-- **When strings are stored.**  After each set of a tag the string is stored with its
terminating zero exactly if all strings have the same length. -/
theorem stringsStored_iff (htype : tag.dataType = valueTypeString8) (hnew : tag.value = none)
    (sets : List TagSet) : StringsStored tag sets ↔ SameLength sets := by
  cases sets with
  | nil =>
      refine iff_of_true (stringsStored_nil tag) ?_
      intro first hfirst
      cases hfirst
  | cons first rest =>
      obtain ⟨tag', hset, htype', hvalue, hsize⟩ := VSTag.set_first htype hnew first
      have hstores : tag'.Stores first.data := ⟨hvalue, Nat.le_of_eq hsize.symm⟩
      rw [stringsStored_cons hset, stringsStored_from htype' hvalue hsize]
      unfold SameLength
      constructor
      · rintro ⟨-, hrest⟩ first' hfirst set hmem
        obtain rfl := Option.some.inj hfirst
        rcases List.mem_cons.mp hmem with rfl | hmem
        · rfl
        · exact hrest set hmem
      · intro hall
        exact ⟨hstores, fun set hmem => hall first rfl set (List.mem_cons_of_mem _ hmem)⟩

/-- A string tag as `vs_tag_create` leaves it. -/
def emptyStringTag : VSTag := ⟨1, 0, valueTypeString8, 1, false, none, 0⟩

/-- Two strings of one byte, from a client and from the database. -/
theorem stringsStored_two :
    StringsStored emptyStringTag [.command [97], .values 1 0 [98]] := by
  have hsame : SameLength [.command [97], .values 1 0 [98]] := by
    intro first hfirst set hmem
    obtain rfl := Option.some.inj hfirst
    rcases List.mem_cons.mp hmem with rfl | hmem
    · rfl
    · obtain rfl := List.mem_singleton.mp hmem
      rfl
  exact (stringsStored_iff rfl rfl _).mpr hsame

/-- A string of one byte and then one of two bytes: there are two bytes for three. -/
theorem not_stringsStored :
    ¬ ∀ tag : VSTag, tag.dataType = valueTypeString8 → tag.value = none →
      ∀ sets : List TagSet, StringsStored tag sets := by
  intro hall
  have hlong : [TagSet.command [97]] ++ [.command [97, 98]] <+:
      [.command [97], .command [97, 98]] := List.prefix_refl _
  obtain ⟨tag', hrun, hstores⟩ := hall emptyStringTag rfl rfl _ _ _ hlong
  obtain rfl := Option.some.inj hrun
  have hroom : 2 + 1 ≤ 2 := hstores.2
  omega

end Verse
