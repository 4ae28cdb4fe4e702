import Verse.Lib.Run
import Verse.Server.Handshake

/-!
# User accounts from a CSV file

`vs_load_user_accounts_csv_file` of `vs_auth_csv.c`.  The lines of the file are read into one
buffer, one behind the other, and the fields of an account are looked for up to the end of
the buffer: behind the zero byte of a line there is what was left of the lines before it, or
what the buffer held at the begin.  A line that is longer than the buffer comes in pieces.

What an allocation or a read error would change is left out.  `sscanf` with `%d` is that of
the C library: a number that is too large becomes the largest one.

## Strategy

`readUser_fields` is that the fields are those of the line, if it has four; for this it is
enough that the line stands in the buffer.  With fewer fields, or with a part of a line, an
account must not be added (`ownLine_iff`).
-/

namespace Verse.CsvAccounts

open Lib

/-! ## Accounts -/

/-- `VSUser`. -/
structure VSUser where
  userId : UInt16
  username : List UInt8
  password : Option (List UInt8)
  passwordHash : Option (List UInt8)
  realname : List UInt8
  fakeUser : Bool
  deriving DecidableEq, Repr

/-- `VRS_SUPER_USER_UID`. -/
def vrsSuperUserUid : UInt16 := 100

/-- `VRS_OTHER_USERS_UID`. -/
def vrsOtherUsersUid : UInt16 := 65535

/-- `MIN_USER_ID`. -/
def minUserId : UInt16 := 1000

/-- `MAX_USER_ID`. -/
def maxUserId : UInt16 := vrsOtherUsersUid - 1

/-- The list after `vs_add_superuser_account` and `vs_add_other_users_account`. -/
def initialUsers : List VSUser :=
  [⟨vrsSuperUserUid, ascii "superuser", none, none, ascii "Super User", true⟩,
    ⟨vrsOtherUsersUid, ascii "others", none, none, ascii "Other Users", true⟩]

/-- The column behind the names of the users. -/
inductive PassColumn where
  | password
  | passhash
  deriving DecidableEq, Repr

/-- A new account with these fields. -/
def accountWith (column : PassColumn) (name pass : List UInt8) (userId : UInt16)
    (realname : List UInt8) : VSUser where
  userId := userId
  username := name
  password := if column = .password then some pass else none
  passwordHash := if column = .passhash then some pass else none
  realname := realname
  fakeUser := false

/-- The id is allowed, and no other account has the id or the name. -/
def Accepts (users : List VSUser) (user : VSUser) : Prop :=
  minUserId ≤ user.userId ∧ user.userId ≤ maxUserId ∧
    ∀ other ∈ users, other.userId ≠ user.userId ∧ other.username ≠ user.username

instance (users : List VSUser) (user : VSUser) : Decidable (Accepts users user) :=
  inferInstanceAs (Decidable (minUserId ≤ user.userId ∧ user.userId ≤ maxUserId ∧
    ∀ other ∈ users, other.userId ≠ user.userId ∧ other.username ≠ user.username))

def addUser (users : List VSUser) (user : VSUser) : List VSUser :=
  if Accepts users user then users ++ [user] else users

/-! ## Lines of the file -/

/-- `LINE_LEN`. -/
def lineLen : ℕ := 65536

/-- What `fgets` has read into the buffer, between what was read before and the rest. -/
structure CsvPiece where
  before : List UInt8
  bytes : List UInt8
  rest : List UInt8
  short : bytes.length < lineLen - 2
  oneLine : 10 ∉ bytes.dropLast

/-- The bytes up to the end of the line, but not more than there is place for. -/
def fgetsBytes (file : List UInt8) : List UInt8 :=
  (file.take (lineLen - 3)).take ((file.take (lineLen - 3)).findIdx (· == 10) + 1)

theorem length_fgetsBytes_lt (file : List UInt8) : (fgetsBytes file).length < lineLen - 2 := by
  have hcut := List.length_take_le (lineLen - 3) file
  have htake := List.length_take_le' ((file.take (lineLen - 3)).findIdx (· == 10) + 1)
    (file.take (lineLen - 3))
  have hsize : lineLen - 3 < lineLen - 2 := by decide
  unfold fgetsBytes
  omega

theorem newline_not_mem_fgetsBytes (file : List UInt8) : 10 ∉ (fgetsBytes file).dropLast := by
  unfold fgetsBytes
  generalize file.take (lineLen - 3) = cut
  intro hmem
  obtain ⟨i, hi, hget⟩ := List.mem_iff_getElem.mp hmem
  rw [List.length_dropLast, List.length_take] at hi
  rw [List.getElem_dropLast, List.getElem_take] at hget
  have := @List.not_of_lt_findIdx _ (· == 10) cut i (by omega)
  rw [hget] at this
  exact absurd this (by decide)

/-- `fgets`. -/
def fgets (before file : List UInt8) : Option CsvPiece :=
  if file = [] then none
  else
    some ⟨before, fgetsBytes file, file.drop (fgetsBytes file).length, length_fgetsBytes_lt file,
      newline_not_mem_fgetsBytes file⟩

/-- All that is read from a file, which needs no more calls than there are bytes. -/
def csvPieces : ℕ → List UInt8 → List UInt8 → List CsvPiece
  | 0, _, _ => []
  | fuel + 1, before, file =>
      match fgets before file with
      | none => []
      | some piece => piece :: csvPieces fuel (before ++ piece.bytes) piece.rest

/-- The buffer after a call of `fgets`; what is behind the zero byte stays. -/
def storeLine (line : Mem) (bytes : List UInt8) : Mem := fun i =>
  if i ≤ bytes.length then bytes.getD i 0 else line i

/-! ## The fields of a line -/

/-- The loop that looks for a byte, with the passes that are left. -/
def scan (line : Mem) (c : UInt8) : ℕ → ℕ → ℕ
  | 0, col => col
  | n + 1, col => if line col = c then col else scan line c n (col + 1)

/-- The column of the next `c`, or `LINE_LEN`. -/
def scanFor (line : Mem) (c : UInt8) (start : ℕ) : ℕ := scan line c (lineLen - start) start

/-- The column behind a comma. -/
def behindComma (comma : ℕ) : ℕ := if comma + 1 < lineLen then comma + 1 else lineLen

/-- `strndup`. -/
def strndup (line : Mem) (start n : ℕ) : List UInt8 :=
  cString ((List.range n).map fun i => line (start + i))

/-- `isspace`. -/
def isspace (c : UInt8) : Bool := c == 32 || (9 ≤ c && c ≤ 13)

/-- `isdigit`. -/
def isdigit (c : UInt8) : Bool := 48 ≤ c && c ≤ 57

/-- The sign in front of a number, and what is behind it. -/
def splitSign : List UInt8 → Bool × List UInt8
  | 45 :: rest => (true, rest)
  | 43 :: rest => (false, rest)
  | text => (false, text)

/-- The number that `sscanf` reads with `%d`; `none` if there is none. -/
def scanInt (text : List UInt8) : Option ℤ :=
  let (negative, rest) := splitSign (text.dropWhile isspace)
  let digits := rest.takeWhile isdigit
  let n : ℤ := digits.foldl (fun n c => 10 * n + (c.toNat - 48)) 0
  if digits = [] then none
  else if negative then some (max (-n) (-2 ^ 63))
  else some (min n (2 ^ 63 - 1))

/-- The number goes through a pointer at an `int` into `user_id`, which has 16 bits and is 0
before. -/
def userIdOf (text : List UInt8) : UInt16 :=
  match scanInt text with
  | none => 0
  | some n => UInt16.ofNat (n % 65536).toNat

/-- The account that is read out of the buffer. -/
def readUser (column : PassColumn) (line : Mem) : VSUser :=
  let comma := scanFor line 44 0
  let passStart := behindComma comma
  let passComma := scanFor line 44 passStart
  let uidStart := behindComma passComma
  let uidComma := scanFor line 44 uidStart
  let nameStart := behindComma uidComma
  let nameEnd := scanFor line 10 nameStart
  accountWith column (strndup line 0 comma) (strndup line passStart (passComma - passStart))
    (userIdOf (strndup line uidStart (uidComma - uidStart)))
    (strndup line nameStart (nameEnd - nameStart))

/-! ## Loading -/

/-- `strncmp` of the text with what stands at `col`. -/
def textAt (line : Mem) (col : ℕ) (text : List UInt8) : Bool :=
  ((List.range text.length).map fun i => line (col + i)) == text

/-- The first line: which column is behind the names; hashes need OpenSSL. -/
def csvHeader (withOpenssl : Bool) (line : Mem) : Option PassColumn :=
  if !textAt line 0 (ascii "username") then none
  else
    (if textAt line 9 (ascii "password") then some PassColumn.password
      else if textAt line 9 (ascii "passhash") && withOpenssl then some .passhash
      else none).bind fun column =>
        if textAt line 18 (ascii "UID") && textAt line 22 (ascii "real name") then some column
        else none

/-- The buffer and the list of accounts. -/
structure CsvReader where
  line : Mem
  users : List VSUser

/-- One line behind the first. -/
def loadLine (column : PassColumn) (reader : CsvReader) (piece : CsvPiece) : CsvReader :=
  let line := storeLine reader.line piece.bytes
  ⟨line, addUser reader.users (readUser column line)⟩

/-- A file with a valid header: the column, the buffer behind the header, and the lines. -/
def csvStart (withOpenssl : Bool) (line : Mem) (file : List UInt8) :
    Option (PassColumn × Mem × List CsvPiece) :=
  match csvPieces file.length [] file with
  | [] => none
  | header :: lines =>
      (csvHeader withOpenssl (storeLine line header.bytes)).map fun column =>
        (column, storeLine line header.bytes, lines)

/-- `vs_load_user_accounts_csv_file` for a file that can be opened: 1 if an account was
added, and the list. -/
def vsLoadUserAccountsCsvFile (withOpenssl : Bool) (line : Mem) (users : List VSUser)
    (file : List UInt8) : ℕ × List VSUser :=
  match csvStart withOpenssl line file with
  | none => (0, users)
  | some (column, line, lines) =>
      let loaded := (lines.foldl (loadLine column) ⟨line, users⟩).users
      (if users.length < loaded.length then 1 else 0, loaded)

/-! ## What is asked for -/

/-- A line without its newline. -/
def lineContent (bytes : List UInt8) : List UInt8 :=
  if bytes.getLast? = some 10 then bytes.dropLast else bytes

/-- What was read is a line of the file, and not a part of one. -/
def CsvPiece.Whole (piece : CsvPiece) : Prop :=
  (piece.before = [] ∨ piece.before.getLast? = some 10) ∧
    (piece.bytes.getLast? = some 10 ∨ piece.rest = [] ∨ piece.rest.head? = some 10)

instance (piece : CsvPiece) : Decidable piece.Whole :=
  inferInstanceAs (Decidable ((piece.before = [] ∨ piece.before.getLast? = some 10) ∧
    (piece.bytes.getLast? = some 10 ∨ piece.rest = [] ∨ piece.rest.head? = some 10)))

/-- The line has four fields, and the account has them as strings. -/
def AccountOf (column : PassColumn) (piece : CsvPiece) (user : VSUser) : Prop :=
  ∃ name pass uid real, lineContent piece.bytes = name ++ 44 :: (pass ++ 44 :: (uid ++ 44 :: real)) ∧
    44 ∉ name ∧ 44 ∉ pass ∧ 44 ∉ uid ∧
    user = accountWith column (cString name) (cString pass) (userIdOf (cString uid)) (cString real)

/-- Names and ids are pairwise different. -/
structure DistinctUsers (users : List VSUser) : Prop where
  ids : (users.map VSUser.userId).Nodup
  names : (users.map VSUser.username).Nodup

/-- **The line is loaded as it should be**: names and ids stay different, and if an account is
added, then its id is allowed and all of it comes from this line, which has four fields. -/
def OwnLine (column : PassColumn) (reader : CsvReader) (piece : CsvPiece) : Prop :=
  DistinctUsers (loadLine column reader piece).users ∧
    ((loadLine column reader piece).users = reader.users ∨
      ∃ user, (loadLine column reader piece).users = reader.users ++ [user] ∧
        minUserId ≤ user.userId ∧ user.userId ≤ maxUserId ∧ piece.Whole ∧
        AccountOf column piece user)

/-- The account that stands in the buffer would be added. -/
def Acceptable (column : PassColumn) (reader : CsvReader) (piece : CsvPiece) : Prop :=
  Accepts reader.users (readUser column (storeLine reader.line piece.bytes))

/-- **The condition**: it is a whole line with three commas, or what stands in the buffer is
no account that would be added. -/
def SoundLine (column : PassColumn) (reader : CsvReader) (piece : CsvPiece) : Prop :=
  Acceptable column reader piece → piece.Whole ∧ 3 ≤ (lineContent piece.bytes).count 44

instance (column : PassColumn) (reader : CsvReader) (piece : CsvPiece) :
    Decidable (SoundLine column reader piece) :=
  inferInstanceAs (Decidable (Accepts reader.users
    (readUser column (storeLine reader.line piece.bytes)) →
      piece.Whole ∧ 3 ≤ (lineContent piece.bytes).count 44))

/-- `P` holds at every line behind the header, if the header is valid; `line` is what the
buffer holds at the begin. -/
def AtEachLine (withOpenssl : Bool) (line : Mem) (file : List UInt8)
    (P : PassColumn → CsvReader → CsvPiece → Prop) : Prop :=
  ∀ start ∈ csvStart withOpenssl line file,
    Admissible (fun reader piece => some (loadLine start.1 reader piece)) (P start.1)
      ⟨start.2.1, initialUsers⟩ start.2.2

instance (withOpenssl : Bool) (line : Mem) (file : List UInt8)
    (P : PassColumn → CsvReader → CsvPiece → Prop)
    [∀ column reader piece, Decidable (P column reader piece)] :
    Decidable (AtEachLine withOpenssl line file P) :=
  inferInstanceAs (Decidable (∀ start ∈ csvStart withOpenssl line file,
    Admissible (fun reader piece => some (loadLine start.1 reader piece)) (P start.1)
      ⟨start.2.1, initialUsers⟩ start.2.2))

/-! ## The file -/

section File

variable {before file : List UInt8} {fuel : ℕ}

theorem fgetsBytes_begins (file : List UInt8) : fgetsBytes file <+: file :=
  (List.take_prefix _ _).trans (List.take_prefix _ _)

theorem fgetsBytes_ne_nil (hfile : file ≠ []) : fgetsBytes file ≠ [] := by
  obtain ⟨b, rest, rfl⟩ := List.exists_cons_of_ne_nil hfile
  have hlen : lineLen - 3 = (lineLen - 4) + 1 := by decide
  unfold fgetsBytes
  rw [hlen, List.take_succ_cons, List.take_succ_cons]
  exact List.cons_ne_nil _ _

/-- **The whole file is read**, piece by piece. -/
theorem csvPieces_flatten (hfuel : file.length ≤ fuel) :
    ((csvPieces fuel before file).map CsvPiece.bytes).flatten = file := by
  induction fuel generalizing before file with
  | zero => rw [List.length_eq_zero_iff.mp (Nat.le_zero.mp hfuel)]; rfl
  | succ fuel ih =>
      rw [csvPieces, fgets]
      by_cases hfile : file = []
      · rw [if_pos hfile, hfile]
        rfl
      · rw [if_neg hfile]
        have hpos := List.length_pos_iff.mpr (fgetsBytes_ne_nil hfile)
        have hrest : (file.drop (fgetsBytes file).length).length ≤ fuel := by
          rw [List.length_drop]
          omega
        rw [List.map_cons, List.flatten_cons, ih hrest]
        exact List.prefix_append_drop (fgetsBytes_begins file) |>.symm

/-- A piece stands in the file between what was read before it and the rest. -/
theorem mem_csvPieces {piece : CsvPiece} (h : piece ∈ csvPieces fuel before file) :
    piece.before ++ (piece.bytes ++ piece.rest) = before ++ file := by
  induction fuel generalizing before file with
  | zero => cases h
  | succ fuel ih =>
      rw [csvPieces, fgets] at h
      by_cases hfile : file = []
      · rw [if_pos hfile] at h
        cases h
      · rw [if_neg hfile] at h
        have hsplit : fgetsBytes file ++ file.drop (fgetsBytes file).length = file :=
          (List.prefix_append_drop (fgetsBytes_begins file)).symm
        rcases List.mem_cons.mp h with rfl | h
        · exact congrArg _ hsplit
        · rw [ih h, List.append_assoc, hsplit]

end File

/-! ## The fields -/

section Fields

variable {line : Mem} {text a rest : List UInt8} {c : UInt8} {start n : ℕ}

/-- The loop stops at the first `c`. -/
theorem scan_eq (hmiss : ∀ i < n, line (start + i) ≠ c) {k : ℕ} (hk : n < k)
    (hhit : line (start + n) = c) : scan line c k start = start + n := by
  induction n generalizing start k with
  | zero =>
      obtain ⟨k, rfl⟩ := Nat.exists_eq_add_of_lt hk
      exact if_pos hhit
  | succ n ih =>
      obtain ⟨k, rfl⟩ : ∃ m, k = m + 1 := ⟨k - 1, by omega⟩
      have hnext : ∀ i, start + 1 + i = start + (i + 1) := fun i => by omega
      have hhere : line start ≠ c := hmiss 0 (by omega)
      rw [scan, if_neg hhere, @ih (start + 1) ?_ k (by omega) ?_, hnext]
      · intro i hi
        rw [hnext]
        exact hmiss (i + 1) (by omega)
      · rw [hnext]
        exact hhit

/-- The loop goes on as long as there is no `c`. -/
theorem le_scan {k : ℕ} (hmiss : ∀ i < n, line (start + i) ≠ c) (hk : n ≤ k) :
    start + n ≤ scan line c k start := by
  induction n generalizing start k with
  | zero =>
      clear hmiss hk
      induction k generalizing start with
      | zero => exact Nat.le_refl _
      | succ k ihk =>
          rw [scan]
          split
          · exact Nat.le_refl _
          · exact Nat.le_trans (by omega) ihk
  | succ n ih =>
      obtain ⟨k, rfl⟩ : ∃ m, k = m + 1 := ⟨k - 1, by omega⟩
      have hnext : ∀ i, start + 1 + i = start + (i + 1) := fun i => by omega
      have hhere : line start ≠ c := hmiss 0 (by omega)
      rw [scan, if_neg hhere]
      have hle := @ih (start + 1) k (fun i hi => by
        rw [hnext]
        exact hmiss (i + 1) (by omega)) (by omega)
      omega

/-- The end of a field. -/
theorem scanFor_field (hholds : Holds (line.shift start) (a ++ c :: rest)) (hc : c ∉ a)
    (hlen : start + a.length < lineLen) : scanFor line c start = start + a.length := by
  obtain ⟨ha, hrest⟩ := holds_append.mp hholds
  refine scan_eq (fun i hi heq => hc ?_) (by omega) ?_
  · have := ha i hi
    rw [shift_apply, heq] at this
    exact this ▸ List.getElem_mem hi
  · have := (holds_cons.mp hrest).1
    rwa [shift_shift, shift_apply, Nat.add_zero] at this

/-- What `strndup` gives of a text in the buffer, with a zero byte behind it if more was
asked for. -/
theorem strndup_holds (hholds : Holds (line.shift start) text) (hle : text.length ≤ n)
    (hzero : text.length < n → line (start + text.length) = 0) :
    strndup line start n = cString text := by
  unfold strndup
  rcases Nat.lt_or_eq_of_le hle with hlt | rfl
  · obtain ⟨k, rfl⟩ : ∃ k, n = text.length + (k + 1) := ⟨n - text.length - 1, by omega⟩
    rw [List.range_add, List.map_append, hholds.map_range, List.range_succ_eq_map, List.map_map,
      List.map_cons, cString, cString, List.takeWhile_append]
    have hhead : (line (start + (text.length + 0)) ≠ 0) = False := by
      rw [Nat.add_zero, hzero hlt]
      simp
    split
    · rename_i hall
      simp only [Function.comp_apply, List.takeWhile_cons, hhead, decide_false, Bool.false_eq_true,
        if_false, List.append_nil]
      have hself := List.takeWhile_append_dropWhile (p := (· ≠ (0 : UInt8))) (l := text)
      have hdrop : (text.dropWhile (· ≠ (0 : UInt8))) = [] := by
        apply List.eq_nil_of_length_eq_zero
        have := congrArg List.length hself
        rw [List.length_append] at this
        omega
      rw [hdrop, List.append_nil] at hself
      exact hself.symm
    · rfl
  · rw [hholds.map_range]

theorem behindComma_of_lt (h : start + 1 < lineLen) : behindComma start = start + 1 := if_pos h

end Fields

section Content

variable {column : PassColumn} {piece : CsvPiece}

theorem newline_not_mem_content (piece : CsvPiece) : 10 ∉ lineContent piece.bytes := by
  unfold lineContent
  split
  · exact piece.oneLine
  · rename_i hlast
    intro hmem
    have hne := List.ne_nil_of_mem hmem
    rw [← List.dropLast_append_getLast hne] at hmem
    rcases List.mem_append.mp hmem with hmem | hmem
    · exact piece.oneLine hmem
    · rw [List.mem_singleton] at hmem
      exact hlast (by rw [List.getLast?_eq_some_getLast hne, ← hmem])

/-- The line in the buffer; behind it is the newline or the zero byte. -/
theorem content_holds (line : Mem) (piece : CsvPiece) :
    Holds (storeLine line piece.bytes) (lineContent piece.bytes) ∧
      (lineContent piece.bytes).length < lineLen - 2 ∧
      (storeLine line piece.bytes (lineContent piece.bytes).length = 10 ∨
        storeLine line piece.bytes (lineContent piece.bytes).length = 0) := by
  have hshort := piece.short
  have hstored : ∀ i ≤ piece.bytes.length,
      storeLine line piece.bytes i = piece.bytes.getD i 0 := fun i hi => if_pos hi
  unfold lineContent
  split
  · rename_i hlast
    have hne : piece.bytes ≠ [] := fun hnil => by rw [hnil] at hlast; cases hlast
    have hpos := List.length_pos_iff.mpr hne
    refine ⟨fun i hi => ?_, ?_, .inl ?_⟩
    · rw [List.length_dropLast] at hi
      rw [hstored i (by omega), List.getElem_dropLast, List.getD_eq_getElem _ _ (by omega)]
    · rw [List.length_dropLast]
      omega
    · rw [List.length_dropLast, hstored _ (by omega), List.getD_eq_getElem?_getD,
        ← List.getLast?_eq_getElem?, hlast]
      rfl
  · refine ⟨fun i hi => ?_, hshort, .inr ?_⟩
    · rw [hstored i (by omega), List.getD_eq_getElem _ _ hi]
    · rw [hstored _ (Nat.le_refl _), List.getD_eq_default _ _ (Nat.le_refl _)]

/-- **The fields of a line with four fields are read.** -/
theorem readUser_fields (line : Mem) {name pass uid real : List UInt8}
    (hfields : lineContent piece.bytes = name ++ 44 :: (pass ++ 44 :: (uid ++ 44 :: real)))
    (hname : 44 ∉ name) (hpass : 44 ∉ pass) (huid : 44 ∉ uid) :
    readUser column (storeLine line piece.bytes) =
      accountWith column (cString name) (cString pass) (userIdOf (cString uid)) (cString real) := by
  obtain ⟨hholds, hlen, hend⟩ := content_holds line piece
  have hnewline := newline_not_mem_content piece
  rw [hfields] at hholds hlen hend hnewline
  generalize storeLine line piece.bytes = buf at *
  simp only [List.length_append, List.length_cons] at hlen hend
  -- what stands behind each comma
  have hpassAt : Holds (buf.shift (name.length + 1)) (pass ++ 44 :: (uid ++ 44 :: real)) := by
    have := (holds_cons.mp (holds_append.mp hholds).2).2
    rwa [shift_shift] at this
  have huidAt : Holds (buf.shift (name.length + 1 + pass.length + 1)) (uid ++ 44 :: real) := by
    have := (holds_cons.mp (holds_append.mp hpassAt).2).2
    rwa [shift_shift, shift_shift] at this
  have hrealAt : Holds (buf.shift (name.length + 1 + pass.length + 1 + uid.length + 1)) real := by
    have := (holds_cons.mp (holds_append.mp huidAt).2).2
    rwa [shift_shift, shift_shift] at this
  have hstart : Holds (buf.shift 0) (name ++ 44 :: (pass ++ 44 :: (uid ++ 44 :: real))) := by
    rwa [shift_zero]
  have hcomma := scanFor_field hstart hname (by omega)
  have hpassComma := scanFor_field hpassAt hpass (by omega)
  have huidComma := scanFor_field huidAt huid (by omega)
  generalize hs : name.length + 1 + pass.length + 1 + uid.length + 1 = realStart at *
  have hrealEnd : name.length + (pass.length + (uid.length + (real.length + 1) + 1) + 1) =
      realStart + real.length := by omega
  rw [hrealEnd] at hend
  have hmiss : ∀ i < real.length, buf (realStart + i) ≠ 10 := by
    intro i hi heq
    have := hrealAt i hi
    rw [shift_apply, heq] at this
    exact hnewline (by simp [this ▸ List.getElem_mem hi])
  have hstop : realStart + real.length ≤ scanFor buf 10 realStart := le_scan hmiss (by omega)
  have hreal : strndup buf realStart (scanFor buf 10 realStart - realStart) = cString real := by
    refine strndup_holds hrealAt (by omega) fun hlt => ?_
    rcases hend with hend | hend
    · have := scan_eq hmiss (k := lineLen - realStart) (by omega) hend
      rw [scanFor, this] at hlt
      omega
    · exact hend
  unfold readUser
  simp only [Nat.zero_add] at hcomma
  simp only [hcomma, behindComma_of_lt (show name.length + 1 < lineLen by omega), hpassComma,
    behindComma_of_lt (show name.length + 1 + pass.length + 1 < lineLen by omega), huidComma,
    behindComma_of_lt (show name.length + 1 + pass.length + 1 + uid.length + 1 < lineLen by omega),
    hs, hreal, Nat.add_sub_cancel_left]
  rw [strndup_holds (holds_append.mp hstart).1 (Nat.le_refl _) (fun h => absurd h (Nat.lt_irrefl _)),
    strndup_holds (holds_append.mp hpassAt).1 (Nat.le_refl _) (fun h => absurd h (Nat.lt_irrefl _)),
    strndup_holds (holds_append.mp huidAt).1 (Nat.le_refl _) (fun h => absurd h (Nat.lt_irrefl _))]

end Content

/-! ## Accounts from their own lines -/

section Lines

variable {column : PassColumn} {reader : CsvReader} {piece : CsvPiece} {users : List VSUser}
  {user : VSUser}

/-- The text in front of the first of at least `n + 1` commas, and what is behind it. -/
theorem exists_field {text : List UInt8} {n : ℕ} (h : n + 1 ≤ text.count 44) :
    ∃ a rest, text = a ++ 44 :: rest ∧ 44 ∉ a ∧ n ≤ rest.count 44 := by
  have hpos : 0 < text.count 44 := by omega
  obtain ⟨a, rest, rfl, ha⟩ := List.eq_append_cons_of_mem (List.count_pos_iff.mp hpos)
  refine ⟨a, rest, rfl, ha, ?_⟩
  rw [List.count_append, List.count_eq_zero.mpr ha, List.count_cons_self] at h
  omega

/-- Three commas are four fields. -/
theorem accountOf_readUser (line : Mem) (h : 3 ≤ (lineContent piece.bytes).count 44) :
    AccountOf column piece (readUser column (storeLine line piece.bytes)) := by
  obtain ⟨name, rest, hname, hname44, h⟩ := exists_field h
  obtain ⟨pass, rest', rfl, hpass44, h⟩ := exists_field h
  obtain ⟨uid, real, rfl, huid44, -⟩ := exists_field h
  exact ⟨name, pass, uid, real, hname, hname44, hpass44, huid44,
    readUser_fields line hname hname44 hpass44 huid44⟩

theorem AccountOf.commas (h : AccountOf column piece user) :
    3 ≤ (lineContent piece.bytes).count 44 := by
  obtain ⟨name, pass, uid, real, hfields, -⟩ := h
  rw [hfields]
  simp only [List.count_append, List.count_cons_self]
  omega

theorem addUser_of_accepts (h : Accepts users user) : addUser users user = users ++ [user] :=
  if_pos h

theorem addUser_of_not_accepts (h : ¬ Accepts users user) : addUser users user = users := if_neg h

theorem loadLine_users (column : PassColumn) (reader : CsvReader) (piece : CsvPiece) :
    (loadLine column reader piece).users =
      addUser reader.users (readUser column (storeLine reader.line piece.bytes)) := by
  simp only [loadLine]

theorem loadLine_of_acceptable (h : Acceptable column reader piece) :
    (loadLine column reader piece).users =
      reader.users ++ [readUser column (storeLine reader.line piece.bytes)] := by
  rw [loadLine_users, addUser_of_accepts h]

theorem loadLine_of_not_acceptable (h : ¬ Acceptable column reader piece) :
    (loadLine column reader piece).users = reader.users := by
  rw [loadLine_users, addUser_of_not_accepts h]

/-- The new name and the new id are not in the list. -/
theorem DistinctUsers.append (h : DistinctUsers users)
    (hnew : ∀ other ∈ users, other.userId ≠ user.userId ∧ other.username ≠ user.username) :
    DistinctUsers (users ++ [user]) := by
  constructor
  · rw [List.map_append, List.nodup_append']
    refine ⟨h.ids, List.nodup_singleton _, List.disjoint_singleton.mpr fun hmem => ?_⟩
    obtain ⟨other, hother, hid⟩ := List.mem_map.mp hmem
    exact (hnew other hother).1 hid
  · rw [List.map_append, List.nodup_append']
    refine ⟨h.names, List.nodup_singleton _, List.disjoint_singleton.mpr fun hmem => ?_⟩
    obtain ⟨other, hother, hname⟩ := List.mem_map.mp hmem
    exact (hnew other hother).2 hname

/-- Names and ids stay different with every line. -/
theorem DistinctUsers.loadLine (h : DistinctUsers reader.users) :
    DistinctUsers (loadLine column reader piece).users := by
  by_cases haccept : Acceptable column reader piece
  · rw [loadLine_of_acceptable haccept]
    exact h.append haccept.2.2
  · rw [loadLine_of_not_acceptable haccept]
    exact h

/-- One line. -/
theorem ownLine_iff (h : DistinctUsers reader.users) :
    OwnLine column reader piece ↔ SoundLine column reader piece := by
  constructor
  · rintro ⟨-, hown⟩ haccept
    rw [loadLine_of_acceptable haccept] at hown
    rcases hown with hsame | ⟨user, hadded, -, -, hwhole, haccount⟩
    · exact absurd (congrArg List.length hsame) (by simp)
    · exact ⟨hwhole, haccount.commas⟩
  · refine fun hsound => ⟨h.loadLine, ?_⟩
    by_cases haccept : Acceptable column reader piece
    · obtain ⟨hwhole, hcommas⟩ := hsound haccept
      exact .inr ⟨_, loadLine_of_acceptable haccept, haccept.1, haccept.2.1, hwhole,
        accountOf_readUser _ hcommas⟩
    · exact .inl (loadLine_of_not_acceptable haccept)

theorem distinct_initialUsers : DistinctUsers initialUsers := ⟨by decide, by decide⟩

end Lines

/-- A property at every line may be replaced by one that means the same for lists with
different names and ids. -/
theorem atEachLine_congr {P Q : PassColumn → CsvReader → CsvPiece → Prop}
    (hiff : ∀ column reader piece, DistinctUsers reader.users →
      (P column reader piece ↔ Q column reader piece))
    (withOpenssl : Bool) (line : Mem) (file : List UInt8) :
    AtEachLine withOpenssl line file P ↔ AtEachLine withOpenssl line file Q := by
  refine forall_congr' fun start => imp_congr_right fun _ => ?_
  apply @admissible_congr_of_invariant _ _ _ _ _ fun reader => DistinctUsers reader.users
  · exact fun reader piece hdistinct => hiff start.1 reader piece hdistinct
  · intro reader piece reader' hdistinct _ hstep
    obtain rfl := Option.some.inj hstep
    exact hdistinct.loadLine
  · exact distinct_initialUsers

/-- **User accounts come from their own lines.** -/
theorem ownLines_iff (withOpenssl : Bool) (line : Mem) (file : List UInt8) :
    AtEachLine withOpenssl line file OwnLine ↔ AtEachLine withOpenssl line file SoundLine :=
  atEachLine_congr (fun _ _ _ hdistinct => ownLine_iff hdistinct) withOpenssl line file

/-- What the list holds in the end. -/
theorem loaded_of_ownLines {column : PassColumn} {lines : List CsvPiece} {reader : CsvReader}
    (hdistinct : DistinctUsers reader.users)
    (h : Admissible (fun reader piece => some (loadLine column reader piece)) (OwnLine column)
      reader lines) :
    DistinctUsers (lines.foldl (loadLine column) reader).users ∧
      ∀ user ∈ (lines.foldl (loadLine column) reader).users, user ∈ reader.users ∨
        minUserId ≤ user.userId ∧ user.userId ≤ maxUserId ∧
          ∃ piece ∈ lines, piece.Whole ∧ AccountOf column piece user := by
  induction lines generalizing reader with
  | nil => exact ⟨hdistinct, fun user huser => .inl huser⟩
  | cons piece rest ih =>
      obtain ⟨⟨hdistinct', hown⟩, hrest⟩ := h
      obtain ⟨hlast, hall⟩ := ih hdistinct' (hrest _ rfl)
      refine ⟨hlast, fun user huser => ?_⟩
      rcases hall user huser with huser | ⟨hmin, hmax, other, hother, hline⟩
      · rcases hown with hsame | ⟨added, hadded, hmin, hmax, hwhole, haccount⟩
        · exact .inl (hsame ▸ huser)
        · rw [hadded] at huser
          rcases List.mem_append.mp huser with huser | huser
          · exact .inl huser
          · obtain rfl := List.mem_singleton.mp huser
            exact .inr ⟨hmin, hmax, piece, List.mem_cons_self, hwhole, haccount⟩
      · exact .inr ⟨hmin, hmax, other, List.mem_cons_of_mem _ hother, hline⟩

/-- The second line has two fields; the others are what is left of the first one, whose
password is a number. -/
def twoFieldsFile : List UInt8 :=
  ascii "username,password,UID,real name\ncarol,1003,1001,Carol\nx,y\n"

theorem not_ownLines :
    ¬ ∀ (withOpenssl : Bool) (line : Mem) (file : List UInt8),
      AtEachLine withOpenssl line file OwnLine := by
  intro hall
  have hsound : AtEachLine false (fun _ => 0) twoFieldsFile SoundLine :=
    (atEachLine_congr (fun _ _ _ hdistinct => ownLine_iff hdistinct) _ _ _).mp
      (hall false (fun _ => 0) twoFieldsFile)
  exact absurd hsound (by decide +kernel)

/-- The account that is added from the line with two fields. -/
example : (vsLoadUserAccountsCsvFile false (fun _ => 0) initialUsers twoFieldsFile).2.getLast? =
    some ⟨1003, ascii "x", some (ascii "y\n"), none, ascii "1001,Carol", false⟩ := by
  decide +kernel

end Verse.CsvAccounts
