import ComputerSystem.CommandScan
import ComputerSystem.ReadData
import ComputerSystem.StrayStores

/-!
# Loading a program

`execute` takes a file for a program when the first bytes of its header buffer are the magic number
after it read the file into the buffer.  It then copies the file to the page of the new process and
takes the entry point from there.
-/

namespace ComputerSystem

open CArray CString Word

/-! ## The check of the header -/

theorem strncmp_elf_header (buf : List UInt8) :
    strncmp (buf.take 4) elf_header 4 = 0 ↔ buf.take 4 = elf_header := by
  have length_le : (buf.take 4).length ≤ 4 := List.length_take_le 4 buf
  have magic : (text elf_header).take 4 = elf_header := by decide
  rw [strncmp_eq_zero_iff, magic]
  generalize buf.take 4 = check_buf at length_le
  constructor
  · intro same
    have shown := congrArg List.length same
    have text_le := text_length_le check_buf
    rw [List.length_take] at shown
    have four : elf_header.length = 4 := rfl
    have whole : text check_buf = check_buf :=
      (List.takeWhile_prefix _).eq_of_length (by rw [← text]; omega)
    rw [whole, List.take_of_length_le length_le] at same
    exact same
  · rintro rfl
    exact magic

/-- What `read_data` finds at an inode; it also reads the one behind the last. -/
def Image.contents (image : Image) (inode : Nat) : List UInt8 :=
  if inode ≤ image.num_inodes then image.file inode else []

/-- The first four bytes of `header_buf` after a file was read into it: where the file is too short,
what the buffer held before. -/
def found_header (image : Image) (frame : Frame) (inode : Nat) : List UInt8 :=
  (image.contents inode ++ frame.header_buf.drop (image.contents inode).length).take 4

theorem read_data_contents (image : Image) (inode : Nat) {length : Nat} (small : length < 2 ^ 31) :
    (read_data image inode 0 length).2 = (image.contents inode).take length := by
  rw [Image.contents]
  split_ifs with valid
  · rw [read_data_in_file image valid (Nat.zero_le _) small]
    rfl
  · rw [read_data_invalid image 0 length (not_le.mp valid), List.take_nil]

/-- What lies behind the fortieth byte does not show in the first four. -/
theorem take_four (file old : List UInt8) :
    (file.take 40 ++ old.drop (file.take 40).length).take 4 =
      (file ++ old.drop file.length).take 4 := by
  rcases Nat.lt_or_ge file.length 40 with short | long
  · rw [List.take_of_length_le short.le]
  · rw [List.take_append_of_le_length (by rw [List.length_take]; omega),
      List.take_append_of_le_length (by omega), List.take_take]
    rfl

theorem check_executable_eq_some_iff {image : Image} {frame : Frame} {name : List UInt8}
    {entry : Dentry} :
    check_executable image frame name = some entry ↔
      image.lookup (text (name_buffer frame name)) = some entry ∧
        found_header image frame entry.inode_index = elf_header := by
  have answer := read_dentry_by_name_eq image (name_buffer frame name) frame.cur_dentry
  have small : 40 < 2 ^ 31 := by decide
  rw [name_buffer] at answer ⊢
  rw [check_executable]
  simp only [answer]
  cases image.lookup
      (text (name ++ List.replicate (32 - name.length) 0 ++ frame.exe_tail)) with
  | none => simp
  | some found =>
      simp only [read_data_contents image found.inode_index small, take_four, ne_eq,
         strncmp_elf_header, ite_not, Option.ite_none_right_eq_some, Option.some.injEq]
      rw [found_header]
      constructor
      · rintro ⟨magic, rfl⟩
        exact ⟨rfl, magic⟩
      · rintro ⟨rfl, magic⟩
        exact ⟨magic, rfl⟩

/-! ## Which files are started -/

/-- The name is that of a regular file with the magic number at its beginning. -/
def Executable (image : Image) (name : List UInt8) : Prop :=
  ∃ entry, image.lookup name = some entry ∧ entry.file_type = 2 ∧
    4 ≤ image.length entry.inode_index ∧
    (image.file entry.inode_index).take 4 = elf_header

/-- The name is that of a directory, the RTC or a file of fewer than four bytes, but the magic
number turns up in the header buffer. -/
def Sham (image : Image) (frame : Frame) (name : List UInt8) : Prop :=
  ∃ entry, image.lookup name = some entry ∧
    (entry.file_type ≠ 2 ∨ image.length entry.inode_index < 4) ∧
    found_header image frame entry.inode_index = elf_header

/-- `execute` takes the slot and starts a program exactly when the first word is the name of an
executable. -/
structure StartsExecutable (image : Image) (kernel : Kernel) (frame : Frame) (line : List UInt8)
    (slot : Fin 6) : Prop where
  /-- The slot is marked used. -/
  marked : (execute image kernel frame (some line)).2.Live slot ↔
    Executable image (first_word line)
  /-- A program is loaded. -/
  loaded : (∃ entry_point, (execute image kernel frame (some line)).1 = .started slot entry_point) ↔
    Executable image (first_word line)

/-- The first word ends within 128 bytes and is no sham; or it is cut, and what is left of it passes
for an executable exactly when the whole word is one. -/
def HeaderFits (image : Image) (frame : Frame) (line : List UInt8) : Prop :=
  if leading_blanks line + (first_word line).length ≤ 128 then
    ¬Sham image frame (first_word line)
  else
    (Executable image (cut_word line) ∨ Sham image frame (cut_word line)) ↔
      Executable image (first_word line)

section Started

variable {image : Image} {kernel : Kernel} {frame : Frame} {line : List UInt8} {slot : Fin 6}

theorem execute_marks_iff (free : kernel.free_slot = some slot) :
    (execute image kernel frame (some line)).2.Live slot ↔
      check_executable image frame (scan_command line).name ≠ none := by
  obtain ⟨refused, next, result, kept⟩ | ⟨passes, entry_point, next, result, started⟩ :=
    execute_free_cases image frame free line
  · rw [result, kept.live_iff]
    exact iff_of_false (Kernel.free_slot_spec free).1 (not_not.mpr refused)
  · rw [result, started.live_iff]
    exact iff_of_true (Or.inl rfl) passes

theorem execute_starts_iff (free : kernel.free_slot = some slot) :
    (∃ entry_point, (execute image kernel frame (some line)).1 = .started slot entry_point) ↔
      check_executable image frame (scan_command line).name ≠ none := by
  obtain ⟨refused, next, result, -⟩ | ⟨passes, entry_point, next, result, -⟩ :=
    execute_free_cases image frame free line
  · rw [result]
    exact iff_of_false (fun ⟨_, started⟩ => absurd started Outcome.noConfusion)
      (not_not.mpr refused)
  · rw [result]
    exact iff_of_true ⟨entry_point, rfl⟩ passes

/-- The name buffer holds what the limits leave of the word. -/
theorem name_buffer_scan (frame : Frame) (short : (first_word line).length ≤ 31) :
    text (name_buffer frame (scan_command line).name) = cut_word line := by
  have name_eq : (scan_command line).name = (parse_command line 128 0 []).exe_command := rfl
  rw [name_eq]
  by_cases word : first_word line = []
  · rw [name_buffer_of_no_word frame word, cut_word, word, List.take_nil, List.take_nil]
  · rw [parse_command_name_of_word word]
    apply name_buffer_of_short frame fun c => solid_of_mem_cut_word
    rw [cut_word, List.length_take, List.length_take]
    omega

end Started

/-- The check passes for executables and for shams. -/
theorem check_passes_iff {image : Image} (well_formed : image.WellFormed) (frame : Frame)
    (name : List UInt8) :
    (∃ entry, image.lookup name = some entry ∧
      found_header image frame entry.inode_index = elf_header) ↔
      Executable image name ∨ Sham image frame name := by
  have whole {entry : Dentry} (found : image.lookup name = some entry)
      (regular : entry.file_type = 2) (long : 4 ≤ image.length entry.inode_index) :
      found_header image frame entry.inode_index = (image.file entry.inode_index).take 4 := by
    have valid := (well_formed.inode_lt entry (Image.mem_entries_of_lookup found) regular).le
    rw [found_header, Image.contents, if_pos valid]
    apply List.take_append_of_le_length
    rw [Image.file_length]
    exact long
  constructor
  · rintro ⟨entry, found, magic⟩
    by_cases real : entry.file_type = 2 ∧ 4 ≤ image.length entry.inode_index
    · rw [whole found real.1 real.2] at magic
      exact Or.inl ⟨entry, found, real.1, real.2, magic⟩
    · rw [not_and_or, not_le] at real
      exact Or.inr ⟨entry, found, real, magic⟩
  · rintro (⟨entry, found, regular, long, magic⟩ | ⟨entry, found, -, magic⟩)
    · rw [← whole found regular long] at magic
      exact ⟨entry, found, magic⟩
    · exact ⟨entry, found, magic⟩

theorem Executable.not_sham {image : Image} {name : List UInt8} (executable : Executable image name)
    (frame : Frame) : ¬Sham image frame name := by
  obtain ⟨entry, found, regular, long, -⟩ := executable
  rintro ⟨other, other_found, not_real, -⟩
  obtain rfl := Option.some.inj (found.symm.trans other_found)
  obtain other_type | too_short := not_real
  · exact other_type regular
  · exact absurd long (not_le.mpr too_short)

/-- The sample image with an empty file. -/
def Image.emptied : Image where
  byte offset := if offset = 4096 then 0 else Image.sample.byte offset

/-- Start of the user page, at 128 MB. -/
def USER_PAGE : Nat := 0x8000000

/-- Where a program is loaded. -/
def USER_IMAGE : Nat := USER_PAGE + USER_IMAGE_OFFSET

/-- End of the user page. -/
def USER_PAGE_END : Nat := USER_PAGE + 0x400000

/-- The byte at a user address, through entry 32 of the page directory. -/
def Kernel.user_byte (kernel : Kernel) (address : Nat) : Option UInt8 :=
  if (kernel.page_dir 32).present = 1 ∧ USER_PAGE ≤ address ∧ address < USER_PAGE_END then
    some (kernel.memory ((kernel.page_dir 32).Addr31_12 * 0x1000 + (address - USER_PAGE)))
  else none

/-- The store of an index into `term[i].pcb_idx` gets to a user address. -/
def Overwritten (i address : Nat) : Prop :=
  pcb_idx_address i ≤ address ∧ address < pcb_idx_address i + 4

instance (i address : Nat) : Decidable (Overwritten i address) :=
  inferInstanceAs (Decidable (_ ∧ _))

/-- The bytes of an index. -/
def index_bytes (i : Nat) : List UInt8 := (List.range 4).map fun n => (i / 256 ^ n).toUInt8

/-- The store of an index into `term[i].pcb_idx`, where it hits the user page. -/
def Kernel.store_index (kernel : Kernel) (i : Nat) : Kernel :=
  let address := pcb_idx_address i
  if USER_PAGE ≤ address ∧ address < USER_PAGE_END then
    let physical := (kernel.page_dir 32).Addr31_12 * 0x1000 + (address - USER_PAGE)
    kernel.modifyConsole fun console =>
      { console with screen := { console.screen with
        memory := console.screen.memory.write physical (index_bytes i) } }
  else kernel

/-- User memory holds the whole file, and the program is entered at the address in it. -/
structure LoadsWhole (image : Image) (inode : Nat) (next : Kernel) (entry_point : Nat) : Prop where
  /-- The file. -/
  loaded : ∀ k < image.length inode, next.user_byte (USER_IMAGE + k) = some (image.fileByte inode k)
  /-- The address in bytes 24 to 27. -/
  entered : entry_point = littleEndian (image.fileByte inode 24) (image.fileByte inode 25)
    (image.fileByte inode 26) (image.fileByte inode 27)

theorem Memory.write_add (memory : Memory) (address : Nat) (bytes : List UInt8) (k : Nat) :
    memory.write address bytes (address + k) =
      if k < bytes.length then bytes.getD k 0 else memory (address + k) := by
  rw [write, Nat.add_sub_cancel_left]
  simp only [Nat.le_add_right, true_and, Nat.add_lt_add_iff_left]

theorem Image.getD_file (image : Image) {inode k : Nat} (inside : k < image.length inode) :
    (image.file inode).getD k 0 = image.fileByte inode k := by
  rw [List.getD_eq_getElem _ _ (by rwa [file_length])]
  simp [file, slice]

namespace Kernel

theorem userImage_paging_set_up (kernel : Kernel) (slot : Fin 6) :
    (kernel.paging_set_up slot).userImage =
      (0x800 + 0x400 * slot.val) * 0x1000 + USER_IMAGE_OFFSET := by
  rw [userImage, paging_set_up_frame]

theorem user_byte_mapped {kernel next : Kernel} {slot : Fin 6}
    (mapped : next.page_dir = (kernel.paging_set_up slot).page_dir) {k : Nat}
    (inside : USER_IMAGE + k < USER_PAGE_END) :
    next.user_byte (USER_IMAGE + k) =
      some (next.memory ((kernel.paging_set_up slot).userImage + k)) := by
  have present : (next.page_dir 32).present = 1 := by
    rw [mapped]
    rfl
  have frame_eq : (next.page_dir 32).Addr31_12 = 0x800 + 0x400 * slot.val := by
    rw [mapped, paging_set_up_frame]
  have above : USER_PAGE ≤ USER_IMAGE + k := by
    rw [USER_IMAGE]
    omega
  rw [user_byte, if_pos ⟨present, above, inside⟩, frame_eq, userImage_paging_set_up, USER_IMAGE,
    Nat.add_assoc USER_PAGE, Nat.add_sub_cancel_left, Nat.add_assoc]

theorem user_byte_eq_iff {kernel next : Kernel} {slot : Fin 6}
    (mapped : next.page_dir = (kernel.paging_set_up slot).page_dir) {k : Nat}
    (inside : USER_IMAGE + k < USER_PAGE_END) (byte : UInt8) :
    next.user_byte (USER_IMAGE + k) = some byte ↔
      next.memory ((kernel.paging_set_up slot).userImage + k) = byte := by
  rw [user_byte_mapped mapped inside, Option.some.injEq]

theorem modifyConsole_memory (kernel : Kernel) (f : Console → Console) :
    (kernel.modifyConsole f).memory = (f kernel.console).screen.memory := rfl

theorem modifyConsole_page_dir (kernel : Kernel) (f : Console → Console) :
    (kernel.modifyConsole f).page_dir = kernel.page_dir := rfl

theorem store_index_page_dir (kernel : Kernel) (i : Nat) :
    (kernel.store_index i).page_dir = kernel.page_dir := by
  simp only [store_index]
  split_ifs
  · exact modifyConsole_page_dir _ _
  · rfl

theorem store_index_memory (kernel : Kernel) {i : Nat}
    (page : USER_PAGE ≤ pcb_idx_address i ∧ pcb_idx_address i < USER_PAGE_END) :
    (kernel.store_index i).memory = kernel.memory.write
      ((kernel.page_dir 32).Addr31_12 * 0x1000 + (pcb_idx_address i - USER_PAGE))
      (index_bytes i) := by
  simp only [store_index, if_pos page, memory, modifyConsole_console]

/-- An index that goes where nothing else is does not show in user memory. -/
theorem store_index_of_takes (kernel : Kernel) {mod : BootModule} {i : Nat} (takes : mod.Takes i) :
    kernel.store_index i = kernel := by
  have below := takes.below
  have outside : ¬(USER_PAGE ≤ pcb_idx_address i ∧ pcb_idx_address i < USER_PAGE_END) := by
    rw [USER_PAGE]
    omega
  rw [store_index, if_neg outside]

theorem store_index_user_byte (i : Nat) {kernel next : Kernel} {slot : Fin 6}
    (mapped : next.page_dir = (kernel.paging_set_up slot).page_dir) {k : Nat}
    (inside : USER_IMAGE + k < USER_PAGE_END) :
    (next.store_index i).user_byte (USER_IMAGE + k) =
      if Overwritten i (USER_IMAGE + k) then
        some ((index_bytes i).getD (USER_IMAGE + k - pcb_idx_address i) 0)
      else next.user_byte (USER_IMAGE + k) := by
  have present : (next.page_dir 32).present = 1 := by
    rw [mapped]
    rfl
  have above : USER_PAGE + 4 ≤ USER_IMAGE + k := by
    rw [USER_IMAGE, USER_IMAGE_OFFSET]
    omega
  have length_eq : (index_bytes i).length = 4 := by simp [index_bytes]
  have readable : USER_PAGE ≤ USER_IMAGE + k := by omega
  generalize USER_IMAGE + k = address at above inside readable
  by_cases page : USER_PAGE ≤ pcb_idx_address i ∧ pcb_idx_address i < USER_PAGE_END
  · have shown : (next.page_dir 32).present = 1 ∧ USER_PAGE ≤ address ∧ address < USER_PAGE_END :=
      ⟨present, readable, inside⟩
    simp only [user_byte, store_index_page_dir, if_pos shown, store_index_memory next page,
      Memory.write, length_eq]
    generalize (next.page_dir 32).Addr31_12 * 0x1000 = base
    have hit_iff : base + (pcb_idx_address i - USER_PAGE) ≤ base + (address - USER_PAGE) ∧
        base + (address - USER_PAGE) < base + (pcb_idx_address i - USER_PAGE) + 4 ↔
        Overwritten i address := by
      rw [Overwritten]
      omega
    have offset : base + (address - USER_PAGE) - (base + (pcb_idx_address i - USER_PAGE)) =
        address - pcb_idx_address i := by omega
    simp only [hit_iff, offset]
    split_ifs <;> rfl
  · have missed : ¬Overwritten i address := by
      rw [Overwritten]
      omega
    rw [store_index, if_neg page, if_neg missed]

theorem load_program_memory (image : Image) (kernel : Kernel) (slot : Fin 6) (cur_dentry : Dentry) :
    (kernel.load_program image slot cur_dentry).memory =
      kernel.memory.write (kernel.paging_set_up slot).userImage
        (read_data image cur_dentry.inode_index 0 FOURTY_KB).2 := by
  simp only [load_program]
  generalize (read_data image cur_dentry.inode_index 0 FOURTY_KB).2 = bytes
  rw [modifyConsole_memory, userImage_paging_set_up, userImage_paging_set_up]
  rfl

theorem initiate_pcb_memory (kernel : Kernel) (frame : Frame) (slot : Fin 6) :
    (kernel.initiate_pcb frame slot).memory = kernel.memory := by
  rw [initiate_pcb_eq]
  rfl

theorem record_index_memory (kernel : Kernel) (i : Nat) :
    (kernel.record_index i).memory = kernel.memory := rfl

theorem modifyPcb_memory (kernel : Kernel) (address : Nat) (f : Pcb → Pcb) :
    (kernel.modifyPcb address f).memory = kernel.memory := rfl

theorem setTss_memory (kernel : Kernel) (pid : Int) : (kernel.setTss pid).memory = kernel.memory :=
  rfl

end Kernel

theorem start_process_memory (image : Image) (kernel : Kernel) (frame : Frame) (slot : Fin 6)
    (cur_dentry : Dentry) (i : Nat) :
    let memory := kernel.memory.write (kernel.paging_set_up slot).userImage
      (read_data image cur_dentry.inode_index 0 FOURTY_KB).2
    let word := (kernel.paging_set_up slot).userImage + 24
    (start_process image kernel frame slot cur_dentry i).2.memory = memory ∧
      (start_process image kernel frame slot cur_dentry i).1 =
        .started slot (littleEndian (memory word) (memory (word + 1)) (memory (word + 2))
          (memory (word + 3))) := by
  have load := kernel.load_program_spec image slot cur_dentry
  have memory_eq := kernel.load_program_memory image slot cur_dentry
  simp only [start_process]
  generalize kernel.load_program image slot cur_dentry = loaded at load memory_eq
  have base_eq : loaded.userImage = (kernel.paging_set_up slot).userImage := by
    rw [Kernel.userImage, load.page_dir, Kernel.userImage]
  rw [Kernel.setTss_memory, Kernel.modifyPcb_memory, Kernel.record_index_memory,
    Kernel.initiate_pcb_memory, memory_eq, base_eq]
  exact ⟨rfl, rfl⟩

theorem execute_started {image : Image} {kernel next : Kernel} {frame : Frame} {line : List UInt8}
    {slot : Fin 6} {entry_point : Nat}
    (started : execute image kernel frame (some line) = (.started slot entry_point, next)) :
    kernel.free_slot = some slot ∧ Started kernel frame slot (scan_command line).i next := by
  obtain ⟨last, result, -⟩ | ⟨found, command, entry, last, free, line_eq, -, result, tables⟩ :=
    execute_cases image kernel frame (some line)
  · rw [result] at started
    exact absurd (Prod.mk.inj started).1 Outcome.noConfusion
  · obtain rfl := Option.some.inj line_eq
    obtain ⟨outcome_eq, rfl⟩ := Prod.mk.inj (result.symm.trans started)
    obtain ⟨rfl, -⟩ := Outcome.started.inj outcome_eq
    exact ⟨free, tables⟩

/-- After `execute` started the program of a regular file, its page holds the first 40 KB of the
file and what was in the frame of the slot. -/
theorem started_memory {image : Image} (well_formed : image.WellFormed) {kernel next : Kernel}
    {frame : Frame} {line : List UInt8} {slot : Fin 6} {entry_point : Nat} {entry : Dentry}
    (started : execute image kernel frame (some line) = (.started slot entry_point, next))
    (found : check_executable image frame (scan_command line).name = some entry)
    (regular : entry.file_type = 2) (long : 28 ≤ image.length entry.inode_index) :
    next.page_dir = (kernel.paging_set_up slot).page_dir ∧
      (∀ k, next.memory ((kernel.paging_set_up slot).userImage + k) =
        if k < min FOURTY_KB (image.length entry.inode_index) then
          image.fileByte entry.inode_index k
        else kernel.memory ((kernel.paging_set_up slot).userImage + k)) ∧
      entry_point = littleEndian (image.fileByte entry.inode_index 24)
        (image.fileByte entry.inode_index 25) (image.fileByte entry.inode_index 26)
        (image.fileByte entry.inode_index 27) := by
  obtain ⟨free, tables⟩ := execute_started started
  have valid := (well_formed.inode_lt entry
    (Image.mem_entries_of_lookup (check_executable_eq_some_iff.mp found).1) regular).le
  have limit : FOURTY_KB < 2 ^ 31 := by decide
  have bytes_eq : (read_data image entry.inode_index 0 FOURTY_KB).2 =
      (image.file entry.inode_index).take FOURTY_KB := by
    rw [read_data_contents image entry.inode_index limit, Image.contents, if_pos valid]
  have base_eq (f : Pcb → Pcb) :
      ((kernel.modifyPcb (pcbAddress slot) f).paging_set_up slot).userImage =
        (kernel.paging_set_up slot).userImage := by
    rw [Kernel.userImage_paging_set_up, Kernel.userImage_paging_set_up]
  rw [execute_of_free_slot image frame free, found] at started
  obtain ⟨memory_eq, outcome_eq⟩ := start_process_memory image
    (kernel.modifyPcb (pcbAddress slot) fun pcb =>
      { pcb with argument := store_argument pcb.argument (scan_command line).argument })
    frame slot entry (scan_command line).i
  rw [Prod.ext_iff] at started
  rw [started.2, Kernel.modifyPcb_memory, base_eq, bytes_eq] at memory_eq
  rw [started.1, Kernel.modifyPcb_memory, base_eq, bytes_eq, ← memory_eq] at outcome_eq
  have loaded (k : Nat) := congrFun memory_eq ((kernel.paging_set_up slot).userImage + k)
  simp only [Memory.write_add, List.length_take, Image.file_length] at loaded
  have byte_eq (k : Nat) (inside : k < min FOURTY_KB (image.length entry.inode_index)) :
      next.memory ((kernel.paging_set_up slot).userImage + k) =
        image.fileByte entry.inode_index k := by
    obtain ⟨below, within⟩ := lt_min_iff.mp inside
    rw [loaded, if_pos inside, ← image.getD_file within, List.getD_eq_getElem?_getD,
      List.getElem?_take_of_lt below, ← List.getD_eq_getElem?_getD]
  refine ⟨tables.page_dir, fun k => ?_, ?_⟩
  · split_ifs with inside
    · exact byte_eq k inside
    · rw [loaded, if_neg inside]
  · have room : 28 ≤ min FOURTY_KB (image.length entry.inode_index) :=
      le_min (by decide) long
    obtain ⟨-, entry_point_eq⟩ := Outcome.started.inj outcome_eq
    rw [entry_point_eq, byte_eq 24 (by omega), Nat.add_assoc, byte_eq 25 (by omega), Nat.add_assoc,
      byte_eq 26 (by omega), Nat.add_assoc, byte_eq 27 (by omega)]

/-- The program is loaded whole exactly when it has at most 40 KB, or the frame of the slot already
held the rest of it, and the store into `term` leaves it so. -/
theorem loads_whole_iff (image : Image) (well_formed : image.WellFormed) (kernel next : Kernel)
    (frame : Frame) (line : List UInt8) (slot : Fin 6) (entry_point : Nat) (entry : Dentry)
    (started : execute image kernel frame (some line) = (.started slot entry_point, next))
    (found : check_executable image frame (scan_command line).name = some entry)
    (regular : entry.file_type = 2) (long : 28 ≤ image.length entry.inode_index)
    (fits : USER_IMAGE + image.length entry.inode_index ≤ USER_PAGE_END) :
    LoadsWhole image entry.inode_index (next.store_index (scan_command line).i) entry_point ↔
      ∀ k < image.length entry.inode_index,
        if Overwritten (scan_command line).i (USER_IMAGE + k) then
          (index_bytes (scan_command line).i).getD
              (USER_IMAGE + k - pcb_idx_address (scan_command line).i) 0 =
            image.fileByte entry.inode_index k
        else k < FOURTY_KB ∨ (kernel.paging_set_up slot).user_byte (USER_IMAGE + k) =
          some (image.fileByte entry.inode_index k) := by
  obtain ⟨mapped, memory_eq, entered⟩ := started_memory well_formed started found regular long
  have seen {mapping : Kernel} (mapped : mapping.page_dir = (kernel.paging_set_up slot).page_dir)
      {k : Nat} (inside : k < image.length entry.inode_index) :=
    Kernel.user_byte_eq_iff mapped (lt_of_lt_of_le (Nat.add_lt_add_left inside _) fits)
      (image.fileByte entry.inode_index k)
  -- what the copy leaves at an offset
  have copied {k : Nat} (inside : k < image.length entry.inode_index) :
      next.user_byte (USER_IMAGE + k) = some (image.fileByte entry.inode_index k) ↔
        k < FOURTY_KB ∨ (kernel.paging_set_up slot).user_byte (USER_IMAGE + k) =
          some (image.fileByte entry.inode_index k) := by
    rw [seen mapped inside, seen rfl inside, memory_eq]
    by_cases below : k < FOURTY_KB
    · rw [if_pos (lt_min below inside)]
      exact iff_of_true rfl (Or.inl below)
    · rw [if_neg fun both => below (lt_of_lt_of_le both (min_le_left _ _)), or_iff_right below]
      rfl
  have stored {k : Nat} (inside : k < image.length entry.inode_index) :=
    Kernel.store_index_user_byte (scan_command line).i mapped
      (lt_of_lt_of_le (Nat.add_lt_add_left inside _) fits)
  constructor
  · intro whole k inside
    have loaded := whole.loaded k inside
    rw [stored inside] at loaded
    split_ifs at loaded ⊢ with overwritten
    · exact Option.some_injective _ loaded
    · exact (copied inside).mp loaded
  · intro condition
    refine ⟨fun k inside => ?_, entered⟩
    have kept := condition k inside
    rw [stored inside]
    split_ifs at kept ⊢ with overwritten
    · rw [kept]
    · exact (copied inside).mpr kept

/-- An image with one program, `shell`, of a given length below 2 ^ 16.  It has the magic number,
zeros, and a one behind the first 40 KB. -/
def Image.shell_of (length : Nat) : Image where
  byte offset :=
    match offset with
    | 0 => 1                                                    -- num_dir_entry
    | 4 => 1                                                    -- num_inodes
    | 8 => 11                                                   -- num_data_blocks
    | 64 => 115 | 65 => 104 | 66 => 101 | 67 => 108 | 68 => 108 -- shell
    | 96 => 2
    | 4096 => (length % 256).toUInt8                            -- length of inode 0
    | 4097 => (length / 256).toUInt8
    | 4104 => 1 | 4108 => 2 | 4112 => 3 | 4116 => 4 | 4120 => 5 -- its blocks
    | 4124 => 6 | 4128 => 7 | 4132 => 8 | 4136 => 9 | 4140 => 10
    | 8192 => 0x7F | 8193 => 0x45 | 8194 => 0x4C | 8195 => 0x46
    | 49152 => 1
    | _ => 0

theorem shell_of_started {length : Nat}
    (passes : check_executable (Image.shell_of length) Frame.zero (scan_command shell).name ≠ none)
    (facts : ((Image.shell_of length).lookup shell).map
      (fun entry => (entry.file_type, entry.inode_index)) = some (2, 0)) :
    ∃ entry entry_point next,
      execute (Image.shell_of length) Kernel.boot Frame.zero (some shell) =
        (.started 0 entry_point, next) ∧
      check_executable (Image.shell_of length) Frame.zero (scan_command shell).name = some entry ∧
      entry.file_type = 2 ∧ entry.inode_index = 0 := by
  have free : Kernel.boot.free_slot = some 0 := by decide
  have launched := Kernel.launched_eq_some_iff.mpr ⟨free, rfl, passes⟩
  obtain ⟨entry, found⟩ := Option.ne_none_iff_exists'.mp passes
  obtain ⟨entry_point, next, started, -⟩ := execute_launched launched
  have name_eq : text (name_buffer Frame.zero (scan_command shell).name) = shell := by decide
  have looked_up := (check_executable_eq_some_iff.mp found).1
  rw [name_eq] at looked_up
  rw [looked_up, Option.map_some, Option.some.injEq, Prod.mk.injEq] at facts
  exact ⟨entry, entry_point, next, started, found, facts⟩

/-- A program of 28 bytes is loaded whole. -/
theorem loads_whole_iff_short :
    ∃ entry_point next,
      execute (Image.shell_of 28) Kernel.boot Frame.zero (some shell) =
        (.started 0 entry_point, next) ∧
      LoadsWhole (Image.shell_of 28) 0 next entry_point := by
  have well_formed : (Image.shell_of 28).WellFormed :=
    ⟨by decide, by decide, by decide, by decide, by decide⟩
  have length_eq : (Image.shell_of 28).length 0 = 28 := by decide
  obtain ⟨entry, entry_point, next, started, found, regular, inode_eq⟩ :=
    @shell_of_started 28 (by decide) (by decide)
  have whole_iff := loads_whole_iff (Image.shell_of 28) well_formed Kernel.boot next Frame.zero
    shell 0 entry_point entry started found regular (by rw [inode_eq, length_eq])
    (by rw [inode_eq, length_eq]; decide)
  rw [inode_eq, length_eq, scan_shell,
    next.store_index_of_takes (BootModule.sample.takes_of_le (by decide))] at whole_iff
  refine ⟨entry_point, next, started, whole_iff.mpr fun k inside => ?_⟩
  have missed : ¬Overwritten 5 (USER_IMAGE + k) := by
    rw [Overwritten, pcb_idx_address, TERM, TERM_SIZE, PCB_IDX, USER_IMAGE, USER_PAGE]
    omega
  rw [if_neg missed]
  exact Or.inl (lt_trans inside (by decide))

/-- One of 40 KB and a byte is started without its last byte. -/
theorem loads_part :
    ∃ entry_point next,
      execute (Image.shell_of 40961) Kernel.boot Frame.zero (some shell) =
        (.started 0 entry_point, next) ∧
      ¬LoadsWhole (Image.shell_of 40961) 0 (next.store_index 5) entry_point := by
  have well_formed : (Image.shell_of 40961).WellFormed :=
    ⟨by decide, by decide, by decide, by decide, by decide⟩
  have length_eq : (Image.shell_of 40961).length 0 = 40961 := by decide
  have last : (Image.shell_of 40961).fileByte 0 40960 = 1 := by decide
  obtain ⟨entry, entry_point, next, started, found, regular, inode_eq⟩ :=
    @shell_of_started 40961 (by decide) (by decide)
  obtain ⟨mapped, memory_eq, -⟩ := started_memory well_formed started found regular
    (by rw [inode_eq, length_eq]; decide)
  refine ⟨entry_point, next, started, fun whole => ?_⟩
  rw [next.store_index_of_takes (BootModule.sample.takes_of_le (by decide))] at whole
  have loaded := whole.loaded 40960 (by rw [length_eq]; decide)
  rw [Kernel.user_byte_eq_iff mapped (by decide), memory_eq, last, inode_eq, length_eq,
    if_neg (by decide)] at loaded
  exact absurd loaded (by decide)

end ComputerSystem
