import ComputerSystem.CString
import ComputerSystem.Word

/-!
# The file-system image

The image is the memory from `boot_block` on.  Block 0 is the boot block, the inode blocks follow
it and the data blocks come last; every field is decoded from the bytes at its offset, so an index
that runs past one table reads the block behind it, as the pointer arithmetic of the code does.
-/

namespace ComputerSystem

open CString Word

/-- `dentry_t`, less its reserved bytes. -/
structure Dentry where
  /-- File name, padded with NULs or full. -/
  fname : Fin 32 → UInt8
  /-- 0 for the RTC, 1 for a directory, 2 for a regular file. -/
  file_type : Nat
  /-- Inode of a regular file. -/
  inode_index : Nat

namespace Dentry

/-- The bytes of the name field. -/
def fnameBytes (dentry : Dentry) : List UInt8 := List.ofFn dentry.fname

/-- The name: the bytes up to the first NUL, or all 32. -/
def name (dentry : Dentry) : List UInt8 := text dentry.fnameBytes

theorem name_length_le (dentry : Dentry) : dentry.name.length ≤ 32 := by
  have field_length : dentry.fnameBytes.length = 32 := List.length_ofFn
  exact field_length ▸ text_length_le dentry.fnameBytes

/-- A full name field has no NUL, so `strlen` runs on behind it; the cap hides that. -/
theorem strlen_field (dentry : Dentry) (behind : List UInt8) :
    min (strlen (dentry.fnameBytes ++ behind)) 32 = strlen dentry.fnameBytes := by
  have field_length : dentry.fnameBytes.length = 32 := List.length_ofFn
  have shown := congrArg List.length
    (text_append_take dentry.fnameBytes behind (n := 32) field_length.ge)
  have name_le : (text dentry.fnameBytes).length ≤ 32 := dentry.name_length_le
  rw [List.length_take, List.length_take] at shown
  rw [strlen_eq_length_text, strlen_eq_length_text]
  omega

/-- As far as the field reaches, a comparison does not see what lies behind it. -/
theorem strncmp_field (dentry : Dentry) (fname behind : List UInt8) {count : Nat}
    (inside : count ≤ 32) :
    strncmp fname (dentry.fnameBytes ++ behind) count = 0 ↔
      strncmp fname dentry.fnameBytes count = 0 := by
  have field_length : dentry.fnameBytes.length = 32 := List.length_ofFn
  rw [strncmp_eq_zero_iff, strncmp_eq_zero_iff,
    text_append_take _ _ (inside.trans field_length.ge)]

end Dentry

/-- Memory from `boot_block` on. -/
structure Image where
  /-- Byte at an offset from `boot_block`. -/
  byte : Nat → UInt8

namespace Image

/-- Little-endian 32-bit word at an offset. -/
def word (image : Image) (offset : Nat) : Nat :=
  littleEndian (image.byte offset) (image.byte (offset + 1)) (image.byte (offset + 2))
    (image.byte (offset + 3))

theorem word_lt (image : Image) (offset : Nat) : image.word offset < 2 ^ 32 :=
  littleEndian_lt _ _ _ _

/-- `boot_block->num_dir_entry`. -/
def num_dir_entry (image : Image) : Nat := image.word 0

/-- `boot_block->num_inodes`. -/
def num_inodes (image : Image) : Nat := image.word 4

/-- `boot_block->num_data_blocks`. -/
def num_data_blocks (image : Image) : Nat := image.word 8

/-- `boot_block->dir_entries[index]`: 64-byte entries behind the 64-byte header. -/
def dir_entries (image : Image) (index : Nat) : Dentry where
  fname k := image.byte (64 + 64 * index + k)
  file_type := image.word (64 + 64 * index + 32)
  inode_index := image.word (64 + 64 * index + 36)

/-- `cur_inode->length` for the inode block behind the boot block. -/
def length (image : Image) (inode : Nat) : Nat := image.word (4096 * (1 + inode))

/-- `cur_inode->data_block_list[index]`. -/
def data_block_list (image : Image) (inode index : Nat) : Nat :=
  image.word (4096 * (1 + inode) + 4 + 4 * index)

/-- Byte of a data block; the data blocks come behind the inode blocks. -/
def data (image : Image) (data_block_index offset : Nat) : UInt8 :=
  image.byte (4096 * (1 + image.num_inodes + data_block_index) + offset)

/-- The directory as a list. -/
def entries (image : Image) : List Dentry :=
  (List.range image.num_dir_entry).map image.dir_entries

/-- The first entry with a given name. -/
def lookup (image : Image) (name : List UInt8) : Option Dentry :=
  image.entries.find? fun entry => entry.name = name

/-- What the tools that build an image promise about it. -/
structure WellFormed (image : Image) : Prop where
  /-- The directory fits the first block. -/
  entries_le : image.num_dir_entry ≤ 63
  /-- The file types are those of the kernel. -/
  file_type_le : ∀ entry ∈ image.entries, entry.file_type ≤ 2
  /-- Files have inodes. -/
  inode_lt : ∀ entry ∈ image.entries, entry.file_type = 2 → entry.inode_index < image.num_inodes
  /-- They fit their block lists. -/
  length_le : ∀ inode < image.num_inodes, image.length inode ≤ 1023 * 4096
  /-- Their blocks are there. -/
  block_lt : ∀ inode < image.num_inodes, ∀ index < (image.length inode + 4095) / 4096,
    image.data_block_list inode index < image.num_data_blocks

theorem mem_entries_of_lookup {image : Image} {name : List UInt8} {entry : Dentry}
    (found : image.lookup name = some entry) : entry ∈ image.entries :=
  List.mem_of_find?_eq_some found

/-- The entry that a lookup finds is the first one with the name. -/
theorem lookup_eq_some_iff {image : Image} {name : List UInt8} {entry : Dentry} :
    image.lookup name = some entry ↔
      ∃ index < image.num_dir_entry, image.dir_entries index = entry ∧ entry.name = name ∧
        ∀ earlier < index, (image.dir_entries earlier).name ≠ name := by
  simp only [lookup, entries, List.find?_eq_some_iff_getElem, List.length_map, List.length_range,
    List.getElem_map, List.getElem_range, decide_eq_true_eq, Bool.not_eq_true',
    decide_eq_false_iff_not]
  constructor
  · rintro ⟨same, index, inside, rfl, earlier⟩
    exact ⟨index, inside, rfl, same, earlier⟩
  · rintro ⟨index, inside, rfl, same, earlier⟩
    exact ⟨same, index, inside, rfl, earlier⟩

theorem lookup_eq_none_iff {image : Image} {name : List UInt8} :
    image.lookup name = none ↔ ∀ entry ∈ image.entries, entry.name ≠ name := by
  simp [lookup]

/-- An image with the directory `.` and the programs `shell` and `ls`, which share an inode of four
bytes, the ELF magic number. -/
def sample : Image where
  byte offset :=
    match offset with
    | 0 => 3                                                    -- num_dir_entry
    | 4 => 1                                                    -- num_inodes
    | 8 => 1                                                    -- num_data_blocks
    | 64 => 46                                                  -- .
    | 96 => 1
    | 128 => 115 | 129 => 104 | 130 => 101 | 131 => 108 | 132 => 108  -- shell
    | 160 => 2
    | 192 => 108 | 193 => 115                                   -- ls
    | 224 => 2
    | 4096 => 4                                                 -- length of inode 0
    | 8192 => 0x7F | 8193 => 0x45 | 8194 => 0x4C | 8195 => 0x46
    | _ => 0

theorem sample_wellFormed : sample.WellFormed where
  entries_le := by decide
  file_type_le := by decide
  inode_lt := by decide
  length_le := by decide
  block_lt := by decide

end Image

/-! ## Directory lookups -/

/-- The loop of `read_dentry_by_name`: `name_count1` grows to the longest name seen so far.  A full
name field runs on into the fields behind it; the cap at 32 makes up for that. -/
def read_dentry_loop (image : Image) (fname : List UInt8) : Nat → Nat → Nat → Option Dentry
  | 0, _, _ => none
  | remaining + 1, index_dir_entry, name_count1 =>
      let entry := image.dir_entries index_dir_entry
      let name_count2 := strlen entry.fnameBytes
      let name_count2 := if name_count2 > 32 then 32 else name_count2
      let name_count1 := if name_count1 < name_count2 then name_count2 else name_count1
      if strncmp fname entry.fnameBytes name_count1 = 0 then some entry
      else read_dentry_loop image fname remaining (index_dir_entry + 1) name_count1

/-- `read_dentry_by_name`: the result and the caller's dentry afterwards. -/
def read_dentry_by_name (image : Image) (fname : List UInt8) (dentry : Dentry) : Int × Dentry :=
  if strlen fname > 32 then (-1, dentry)
  else
    match read_dentry_loop image fname image.num_dir_entry 0 (strlen fname) with
    | some entry => (0, entry)
    | none => (-1, dentry)

/-- `read_dentry_by_index`: the result, the caller's dentry and the global `cur_dir_dentry`
afterwards.  The entry goes to the global, whatever the caller passes. -/
def read_dentry_by_index (image : Image) (index : Nat) (dentry cur_dir_dentry : Dentry) :
    Int × Dentry × Dentry :=
  if image.num_dir_entry < index then (-1, dentry, cur_dir_dentry)
  else (0, dentry, image.dir_entries index)

/-- The running maximum is long enough to tell any two names apart. -/
theorem strncmp_running_maximum {fname : List UInt8} {entry : Dentry} {count : Nat}
    (fname_le : (text fname).length ≤ count) (name_le : entry.name.length ≤ count) :
    strncmp fname entry.fnameBytes count = 0 ↔ entry.name = text fname := by
  rw [strncmp_eq_zero_iff, ← Dentry.name, List.take_of_length_le fname_le,
    List.take_of_length_le name_le]
  exact eq_comm

/-- The loop finds the first entry of the rest of the directory that bears the name. -/
theorem read_dentry_loop_eq_find (image : Image) (fname : List UInt8) (remaining index count : Nat)
    (fname_le : (text fname).length ≤ count) :
    read_dentry_loop image fname remaining index count =
      ((List.range' index remaining).map image.dir_entries).find?
        (fun entry => entry.name = text fname) := by
  induction remaining generalizing index count with
  | zero => rfl
  | succ remaining ih =>
      have name_le := (image.dir_entries index).name_length_le
      have length_eq : strlen (image.dir_entries index).fnameBytes =
          (image.dir_entries index).name.length := strlen_eq_length_text _
      rw [List.range'_succ, List.map_cons, List.find?_cons, read_dentry_loop]
      simp only [length_eq, if_neg (Nat.not_lt.mpr name_le)]
      generalize grown : (if count < (image.dir_entries index).name.length then
        (image.dir_entries index).name.length else count) = next
      have fname_le_next : (text fname).length ≤ next := by
        rw [← grown]
        split <;> omega
      have name_le_next : (image.dir_entries index).name.length ≤ next := by
        rw [← grown]
        split <;> omega
      have compared := strncmp_running_maximum fname_le_next name_le_next
      by_cases same : (image.dir_entries index).name = text fname
      · simp [compared.mpr same, same]
      · have differs : strncmp fname (image.dir_entries index).fnameBytes next ≠ 0 :=
          fun zero => same (compared.mp zero)
        simp only [differs, if_false, same, decide_false]
        exact ih (index + 1) next fname_le_next

/-- `read_dentry_by_name` is exact lookup; a name that is too long belongs to no entry. -/
theorem read_dentry_by_name_eq (image : Image) (fname : List UInt8) (dentry : Dentry) :
    read_dentry_by_name image fname dentry =
      match image.lookup (text fname) with
      | some entry => (0, entry)
      | none => (-1, dentry) := by
  rw [read_dentry_by_name, strlen_eq_length_text]
  split
  · rename_i long
    have absent : image.lookup (text fname) = none := by
      rw [Image.lookup, List.find?_eq_none]
      intro entry _
      have := entry.name_length_le
      simp only [decide_eq_true_eq]
      intro same
      rw [same] at this
      omega
    rw [absent]
  · rw [read_dentry_loop_eq_find image fname _ _ _ le_rfl, ← List.range_eq_range']
    rfl

/-- Lookup is exact: `read_dentry_by_name` finds the first entry whose name is the string, and
otherwise leaves the caller's dentry alone. -/
theorem read_dentry_by_name_exact (image : Image) (fname : List UInt8) (dentry : Dentry) :
    let answer := read_dentry_by_name image fname dentry
    (answer.1 = 0 ↔
      (text fname).length ≤ 32 ∧ ∃ entry ∈ image.entries, entry.name = text fname) ∧
    (answer.1 = 0 → ∃ index < image.num_dir_entry,
      image.dir_entries index = answer.2 ∧ answer.2.name = text fname ∧
        ∀ earlier < index, (image.dir_entries earlier).name ≠ text fname) ∧
    (answer.1 ≠ 0 → answer = (-1, dentry)) := by
  cases found : image.lookup (text fname) with
  | none =>
      have absent := Image.lookup_eq_none_iff.mp found
      have answer_eq : read_dentry_by_name image fname dentry = (-1, dentry) := by
        rw [read_dentry_by_name_eq, found]
      have failed : (-1 : Int) ≠ 0 := by decide
      rw [answer_eq]
      refine ⟨?_, fun zero => absurd zero failed, fun _ => rfl⟩
      constructor
      · intro zero
        exact absurd zero failed
      · rintro ⟨-, entry, mem, same⟩
        exact absurd same (absent entry mem)
  | some entry =>
      obtain ⟨index, inside, entry_eq, same, earlier⟩ := Image.lookup_eq_some_iff.mp found
      have answer_eq : read_dentry_by_name image fname dentry = (0, entry) := by
        rw [read_dentry_by_name_eq, found]
      rw [answer_eq]
      refine ⟨?_, fun _ => ⟨index, inside, entry_eq, same, earlier⟩,
        fun failed => absurd rfl failed⟩
      constructor
      · intro
        refine ⟨?_, entry, Image.mem_entries_of_lookup found, same⟩
        rw [← same]
        exact entry.name_length_le
      · intro
        rfl

end ComputerSystem
