import FastWebServer.Library.CxxString
import FastWebServer.Library.Numeral

/-!
# Dumping a buffer

`hex_dump` writes lines of an offset, 16 hexadecimal columns and the printable characters. From line
to line it goes on by 64 bytes, of which the line shows 16.

A dump is read back line by line: the offset, and the bytes in the columns. Each line is read as the
16 bytes from its offset on, or as what is left there (`readDump_dumpText`). So a dump shows its
buffer exactly if that is not longer than one line (`hexDump_shows_iff`), and of 17 bytes the last
is not shown (`seventeenBytes_unshown`).
-/

set_option autoImplicit false

namespace FastWebServer.Nanolog

open Cxx Numeral

/-! ## hex_dump -/

/-- A buffer. An object in memory is smaller than half the address space. -/
structure ByteBuffer where
  bytes : List UInt8
  small : bytes.length < 2 ^ 63

/-- The C string that `snprintf` leaves in an array of `size` characters. -/
def snprintf (size : ℕ) (text : Str) : Str := text.take (size - 1)

/-- `isprint`. -/
def isPrint (byte : UInt8) : Bool := 0x20 ≤ byte ∧ byte ≤ 0x7e

/-- `hex[j]` for the byte at an index. -/
def hexColumn (buffer : List UInt8) (index : ℕ) : Str :=
  match buffer[index]? with
  | none => snprintf 3 "  ".toList
  | some byte => snprintf 3 (padded 16 2 byte.toNat)

/-- `ascii[j]` for the byte at an index. -/
def asciiColumn (buffer : List UInt8) (index : ℕ) : Char :=
  match buffer[index]? with
  | none => '\x00'
  | some byte => if isPrint byte then Char.ofNat byte.toNat else '.'

/-- A line without its line feed. -/
def dumpBody (buffer : List UInt8) (i : ℕ) : Str :=
  snprintf 17 (padded 16 16 i) ++
    ((List.range 16).flatMap fun j => ' ' :: hexColumn buffer (i + j)) ++ "  |".toList ++
    cStr ((List.range 16).map fun j => asciiColumn buffer (i + j)) ++ "|".toList

/-- The loop of `hex_dump` from an offset on, with its output if it comes to its end within some
steps. -/
def hexDumpFrom (buffer : List UInt8) : ℕ → ℕ → Option Str
  | 0, _ => none
  | steps + 1, i =>
      if i < buffer.length then
        (hexDumpFrom buffer steps (sizeAdd i 64)).map (dumpBody buffer i ++ '\n' :: ·)
      else some []

/-- `hex_dump`. -/
def hexDump (steps : ℕ) (buffer : List UInt8) : Option Str := hexDumpFrom buffer steps 0

/-! ## Reading a dump -/

/-- What a line says. -/
structure DumpLine where
  offset : ℕ
  bytes : List UInt8

/-- A column, with the blank before it. -/
def readColumn : Str → Option (List UInt8)
  | ' ' :: column =>
      match read 16 hexDigit column with
      | some n => some [UInt8.ofNat n]
      | none => if column = [' ', ' '] then some [] else none
  | _ => none

/-- Some columns. -/
def readColumns : ℕ → Str → Option (List UInt8)
  | 0, _ => some []
  | count + 1, text =>
      (readColumn (text.take 3)).bind fun bytes =>
        (readColumns count (text.drop 3)).map (bytes ++ ·)

/-- A line. -/
def readLine (line : Str) : Option DumpLine :=
  (read 16 hexDigit (line.take 16)).bind fun offset =>
    (readColumns 16 (line.drop 16)).map fun bytes => ⟨offset, bytes⟩

/-- The lines, each with a line feed behind it. -/
def readDump (text : Str) : Option (List DumpLine) := (text.splitOn '\n').dropLast.mapM readLine

/-- The bytes that some lines show. -/
def shown (lines : List DumpLine) : List UInt8 := lines.flatMap DumpLine.bytes

/-- A dump shows some bytes, and the offset of each line is the index of its first byte. -/
def Shows (text : Str) (bytes : List UInt8) : Prop :=
  ∃ lines, readDump text = some lines ∧ shown lines = bytes ∧
    ∀ before line after, lines = before ++ line :: after → line.offset = (shown before).length

/-! ## One line -/

/-- A text that is read as a number has no line feed. -/
theorem lineFeed_not_mem {text : Str} {n : ℕ} (spells : read 16 hexDigit text = some n) :
    '\n' ∉ text := fun member => absurd (isSome_of_read spells _ member) (by decide)

/-- The text of a number that fits. -/
theorem snprintf_padded {width n : ℕ} (positive : 0 < width) (fits : n < 16 ^ width) :
    snprintf (width + 1) (padded 16 width n) = padded 16 width n :=
  List.take_of_length_le (length_padded (by decide) positive fits).le

theorem read_padded_hex (width n : ℕ) : read 16 hexDigit (padded 16 width n) = some n :=
  read_padded hexDigit_digitChar (by decide) width n

/-- **A column is read back.** -/
theorem hexColumn_spec (buffer : List UInt8) (index : ℕ) :
    (hexColumn buffer index).length = 2 ∧ '\n' ∉ hexColumn buffer index ∧
      readColumn (' ' :: hexColumn buffer index) = some (buffer[index]?).toList := by
  unfold hexColumn
  cases buffer[index]? with
  | none => exact ⟨rfl, by decide, rfl⟩
  | some byte =>
      have fits : byte.toNat < 16 ^ 2 := byte.toNat_lt
      have spells := read_padded_hex 2 byte.toNat
      dsimp only
      rw [snprintf_padded (by decide) fits]
      refine ⟨length_padded (by decide) (by decide) fits, lineFeed_not_mem spells, ?_⟩
      rw [readColumn, spells]
      dsimp only
      rw [UInt8.ofNat_toNat]
      rfl

/-- The bytes from an index on are the one there and those behind it. -/
theorem take_drop_succ (buffer : List UInt8) (i count : ℕ) :
    (buffer.drop i).take (count + 1) = (buffer[i]?).toList ++ (buffer.drop (i + 1)).take count := by
  by_cases inside : i < buffer.length
  · rw [List.drop_eq_getElem_cons inside, List.take_succ_cons, List.getElem?_eq_getElem inside]
    rfl
  · have outside : buffer.length ≤ i := Nat.not_lt.mp inside
    rw [List.drop_eq_nil_of_le outside, List.drop_eq_nil_of_le (outside.trans (Nat.le_succ i)),
      List.getElem?_eq_none outside, List.take_nil, List.take_nil]
    rfl

/-- **The columns from an index on** are read back as the bytes there. -/
theorem readColumns_columns (buffer : List UInt8) (count i : ℕ) (rest : Str) :
    readColumns count
        (((List.range count).flatMap fun j => ' ' :: hexColumn buffer (i + j)) ++ rest) =
      some ((buffer.drop i).take count) := by
  induction count generalizing i with
  | zero => rfl
  | succ count ih =>
      obtain ⟨length, -, column⟩ := hexColumn_spec buffer i
      have columns : ((List.range (count + 1)).flatMap fun j => ' ' :: hexColumn buffer (i + j)) =
          (' ' :: hexColumn buffer i) ++
            (List.range count).flatMap fun j => ' ' :: hexColumn buffer (i + 1 + j) := by
        rw [List.range_succ_eq_map, List.flatMap_cons, List.flatMap_map]
        refine congrArg _ (congrArg (List.flatMap · _) (funext fun j => ?_))
        rw [Nat.add_right_comm]
        rfl
      have width : (' ' :: hexColumn buffer i).length = 3 := congrArg (· + 1) length
      rw [columns, List.append_assoc, readColumns, List.take_left' width, List.drop_left' width,
        column, ih, take_drop_succ]
      rfl

theorem asciiColumn_ne (buffer : List UInt8) (index : ℕ) : asciiColumn buffer index ≠ '\n' := by
  unfold asciiColumn
  cases buffer[index]? with
  | none => decide
  | some byte =>
      dsimp only
      split
      · rename_i print
        have low : 0x20 ≤ byte.toNat := (of_decide_eq_true print).1
        have valid : byte.toNat.isValidChar := .inl (byte.toNat_lt.trans (by decide))
        intro same
        rw [Char.ofNat, dif_pos valid] at same
        have code : byte.toNat = 10 := congrArg Char.toNat same
        omega
      · decide

/-- The characters of a line are printable. -/
theorem lineFeed_not_mem_dumpBody {buffer : List UInt8} {i : ℕ} (fits : i < 16 ^ 16) :
    '\n' ∉ dumpBody buffer i := by
  have offset : '\n' ∉ snprintf 17 (padded 16 16 i) := by
    rw [snprintf_padded (by decide) fits]
    exact lineFeed_not_mem (read_padded_hex 16 i)
  have columns : '\n' ∉ (List.range 16).flatMap fun j => ' ' :: hexColumn buffer (i + j) := by
    intro member
    obtain ⟨j, -, column⟩ := List.mem_flatMap.mp member
    rcases List.mem_cons.mp column with blank | digit
    · exact absurd blank (by decide)
    · exact (hexColumn_spec buffer (i + j)).2.1 digit
  have ascii : '\n' ∉ cStr ((List.range 16).map fun j => asciiColumn buffer (i + j)) := by
    intro member
    obtain ⟨j, -, same⟩ := List.mem_map.mp (List.takeWhile_subset _ member)
    exact asciiColumn_ne buffer (i + j) same
  simp only [dumpBody, List.mem_append, not_or]
  exact ⟨⟨⟨⟨offset, columns⟩, by decide⟩, ascii⟩, by decide⟩

/-- **A line is read back** as its offset and up to 16 bytes from there. -/
theorem readLine_dumpBody (buffer : List UInt8) {i : ℕ} (fits : i < 16 ^ 16) :
    readLine (dumpBody buffer i) = some ⟨i, (buffer.drop i).take 16⟩ := by
  have length : (padded 16 16 i).length = 16 := length_padded (by decide) (by decide) fits
  unfold readLine dumpBody
  rw [snprintf_padded (by decide) fits, List.append_assoc, List.append_assoc, List.append_assoc,
    List.take_left' length, List.drop_left' length, read_padded_hex, readColumns_columns]
  rfl

/-! ## The dump -/

/-- The number of lines. -/
def lineCount (length : ℕ) : ℕ := (length + 63) / 64

/-- The line of an index. -/
def lineOf (buffer : List UInt8) (k : ℕ) : DumpLine := ⟨64 * k, (buffer.drop (64 * k)).take 16⟩

/-- The whole dump. -/
def dumpText (buffer : List UInt8) : Str :=
  (List.range (lineCount buffer.length)).flatMap fun k => dumpBody buffer (64 * k) ++ ['\n']

/-- **The loop ends** after a step for each line, and one. -/
theorem hexDumpFrom_eq {buffer : List UInt8} (small : buffer.length < 2 ^ 63) {k count steps : ℕ}
    (rest : k + count = lineCount buffer.length) (enough : count < steps) :
    hexDumpFrom buffer steps (64 * k) =
      some ((List.range' k count).flatMap fun k => dumpBody buffer (64 * k) ++ ['\n']) := by
  unfold lineCount at rest
  induction count generalizing k steps with
  | zero =>
      obtain ⟨steps, rfl⟩ := Nat.exists_eq_succ_of_ne_zero (Nat.ne_zero_of_lt enough)
      exact if_neg (by omega)
  | succ count ih =>
      obtain ⟨steps, rfl⟩ := Nat.exists_eq_succ_of_ne_zero (Nat.ne_zero_of_lt enough)
      have next : sizeAdd (64 * k) 64 = 64 * (k + 1) := Nat.mod_eq_of_lt (by omega)
      rw [hexDumpFrom, if_pos (by omega), next, ih (by omega) (by omega), List.range'_succ,
        List.flatMap_cons, Option.map_some, List.append_assoc]
      rfl

/-- Lines that are read one by one are read together. -/
theorem readDump_flatMap {Index : Type} {body : Index → Str} {line : Index → DumpLine}
    {indices : List Index}
    (each : ∀ k ∈ indices, '\n' ∉ body k ∧ readLine (body k) = some (line k)) :
    readDump (indices.flatMap fun k => body k ++ ['\n']) = some (indices.map line) := by
  induction indices with
  | nil => rfl
  | cons k indices ih =>
      obtain ⟨⟨oneLine, spelt⟩, each⟩ := List.forall_mem_cons.mp each
      have rest := ih each
      unfold readDump at rest ⊢
      rw [List.flatMap_cons, List.append_assoc, List.singleton_append,
        List.splitOn_append_cons_self_of_not_mem oneLine,
        List.dropLast_cons_of_ne_nil (List.splitOn_ne_nil _ _), List.mapM_cons, spelt, rest]
      rfl

/-- **Each line of a dump** is read as 16 bytes from its offset on, or what is left there. -/
theorem readDump_dumpText {buffer : List UInt8} (small : buffer.length < 2 ^ 63) :
    readDump (dumpText buffer) =
      some ((List.range (lineCount buffer.length)).map (lineOf buffer)) := by
  refine readDump_flatMap fun k member => ?_
  have inside := List.mem_range.mp member
  unfold lineCount at inside
  have fits : 64 * k < 16 ^ 16 := by omega
  exact ⟨lineFeed_not_mem_dumpBody fits, readLine_dumpBody buffer fits⟩

/-! ## What a dump shows -/

theorem length_shown_le {lines : List DumpLine}
    (short : ∀ line ∈ lines, line.bytes.length ≤ 16) :
    (shown lines).length ≤ 16 * lines.length := by
  induction lines with
  | nil => exact Nat.le_refl 0
  | cons line lines ih =>
      obtain ⟨first, short⟩ := List.forall_mem_cons.mp short
      have rest := ih short
      have both : (shown (line :: lines)).length = line.bytes.length + (shown lines).length := by
        unfold shown
        rw [List.flatMap_cons, List.length_append]
      rw [both, List.length_cons]
      omega

/-- The lines of a long buffer have too few columns. -/
theorem not_shows_of_long {buffer : List UInt8} (small : buffer.length < 2 ^ 63)
    (long : 16 < buffer.length) : ¬ Shows (dumpText buffer) buffer := by
  rintro ⟨lines, spelt, all, -⟩
  have same := Option.some.inj (spelt.symm.trans (readDump_dumpText small))
  have short : ∀ line ∈ lines, line.bytes.length ≤ 16 := by
    rw [same]
    intro line member
    obtain ⟨k, -, rfl⟩ := List.mem_map.mp member
    exact List.length_take_le 16 _
  have bound := length_shown_le short
  rw [all, same, List.length_map, List.length_range, lineCount] at bound
  omega

/-- One line shows a short buffer. -/
theorem shows_of_short {buffer : List UInt8} (short : buffer.length ≤ 16) :
    Shows (dumpText buffer) buffer := by
  have small : buffer.length < 2 ^ 63 := by omega
  have spelt := readDump_dumpText small
  rcases Nat.eq_zero_or_pos buffer.length with empty | positive
  · have none : lineCount buffer.length = 0 := by
      rw [lineCount, empty]
    rw [none] at spelt
    refine ⟨[], spelt, (List.eq_nil_of_length_eq_zero empty).symm, ?_⟩
    intro before line after split
    exact absurd split (by simp)
  · have one : lineCount buffer.length = 1 := by
      unfold lineCount
      omega
    rw [one] at spelt
    refine ⟨[⟨0, buffer⟩], ?_, List.append_nil buffer, ?_⟩
    · rw [spelt]
      have whole : buffer.take 16 = buffer := List.take_of_length_le short
      exact congrArg (fun bytes => some [DumpLine.mk 0 bytes]) whole
    · intro before line after split
      cases before with
      | nil =>
          rw [← (List.cons.inj split).1]
          rfl
      | cons earlier before => exact absurd (List.cons.inj split).2 (by simp)

/-- The dump of a buffer is its text, and shows it exactly if it is short. -/
theorem hexDump_eq (buffer : ByteBuffer) {steps : ℕ}
    (enough : lineCount buffer.bytes.length < steps) :
    hexDump steps buffer.bytes = some (dumpText buffer.bytes) := by
  have loop := @hexDumpFrom_eq _ buffer.small 0 _ steps (Nat.zero_add _) enough
  rwa [← List.range_eq_range'] at loop

/-- **What is shown.** `hex_dump` ends, and its dump shows the buffer exactly if that has no more
than 16 bytes. -/
theorem hexDump_shows_iff (buffer : ByteBuffer) :
    ∃ text, (∀ steps, lineCount buffer.bytes.length < steps →
        hexDump steps buffer.bytes = some text) ∧
      (Shows text buffer.bytes ↔ buffer.bytes.length ≤ 16) := by
  refine ⟨dumpText buffer.bytes, fun steps enough => hexDump_eq buffer enough, ?_, shows_of_short⟩
  intro shows
  by_contra long
  exact not_shows_of_long buffer.small (Nat.not_le.mp long) shows

/-- 17 bytes. -/
def seventeenBytes : ByteBuffer := ⟨List.replicate 17 0, by decide⟩

/-- Of 17 bytes the last is not shown. -/
theorem seventeenBytes_unshown :
    ∃ text, hexDump 2 seventeenBytes.bytes = some text ∧ ¬ Shows text seventeenBytes.bytes :=
  ⟨_, hexDump_eq seventeenBytes (by decide),
    not_shows_of_long seventeenBytes.small (by decide)⟩

end FastWebServer.Nanolog
