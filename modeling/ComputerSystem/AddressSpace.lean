import ComputerSystem.CallReturn
import ComputerSystem.Loading
import ComputerSystem.PageWalk
import ComputerSystem.VideoMapping

/-!
# What addresses mean

The tables of `paging.c` as the processor reads them, and the address space that they stand for: the
kernel sees itself and the text pages where they are, and user code sees the image of one process
and, if it was opened, the video page.
-/

namespace ComputerSystem

open PageWalk

/-! ## Entries in memory -/

/-- A word with the fields of a page directory or page table entry. -/
def packed (present R_W U_S PWT PCD A D PAT G AVL address : Nat) : Nat :=
  present % 2 + R_W % 2 * 2 + U_S % 2 * 4 + PWT % 2 * 8 + PCD % 2 * 16 + A % 2 * 32 + D % 2 * 64 +
    PAT % 2 * 128 + G % 2 * 256 + AVL % 8 * 512 + address % 2 ^ 20 * 2 ^ 12

section packed

variable (present R_W U_S PWT PCD A D PAT G AVL address : Nat)

theorem packed_present : (packed present R_W U_S PWT PCD A D PAT G AVL address).testBit 0 =
    decide (present % 2 = 1) := by
  rw [Nat.testBit_eq_decide_div_mod_eq, packed, decide_eq_decide]
  omega

theorem packed_writable : (packed present R_W U_S PWT PCD A D PAT G AVL address).testBit 1 =
    decide (R_W % 2 = 1) := by
  rw [Nat.testBit_eq_decide_div_mod_eq, packed, decide_eq_decide]
  omega

theorem packed_user : (packed present R_W U_S PWT PCD A D PAT G AVL address).testBit 2 =
    decide (U_S % 2 = 1) := by
  rw [Nat.testBit_eq_decide_div_mod_eq, packed, decide_eq_decide]
  omega

theorem packed_size : (packed present R_W U_S PWT PCD A D PAT G AVL address).testBit 7 =
    decide (PAT % 2 = 1) := by
  rw [Nat.testBit_eq_decide_div_mod_eq, packed, decide_eq_decide]
  omega

theorem packed_global : (packed present R_W U_S PWT PCD A D PAT G AVL address).testBit 8 =
    decide (G % 2 = 1) := by
  rw [Nat.testBit_eq_decide_div_mod_eq, packed, decide_eq_decide]
  omega

theorem packed_address : packed present R_W U_S PWT PCD A D PAT G AVL address / 2 ^ 12 =
    address % 2 ^ 20 := by
  rw [packed]
  omega

theorem packed_large : packed present R_W U_S PWT PCD A D PAT G AVL address / 2 ^ 22 =
    address % 2 ^ 20 / 2 ^ 10 := by
  rw [packed]
  omega

end packed

/-- The entry as the processor reads it. -/
def PageDirectory.word (entry : PageDirectory) : Nat :=
  packed entry.present entry.R_W entry.U_S entry.PWT entry.PCD entry.A entry.Ignored entry.Size
    entry.G entry.AVL entry.Addr31_12

/-- The entry as the processor reads it. -/
def PageTableEntry.word (entry : PageTableEntry) : Nat :=
  packed entry.present entry.R_W entry.U_S entry.PWT entry.PCD entry.A entry.D entry.PAT entry.G
    entry.AVL entry.Addr_4k

/-- The frames of `page_dir`, `page_table` and `page_table_VM`, which are aligned and part of the
kernel's data. -/
structure TablePlace where
  /-- The frame of `page_dir`. -/
  page_dir : Nat
  /-- The frame of `page_table`. -/
  page_table : Nat
  /-- The frame of `page_table_VM`. -/
  page_table_VM : Nat
  /-- `page_dir` is in the kernel. -/
  page_dir_kernel : 0x400 ≤ page_dir ∧ (page_dir + 1) * 0x1000 ≤ KERNEL_END
  /-- `page_table` is in the kernel. -/
  page_table_kernel : 0x400 ≤ page_table ∧ (page_table + 1) * 0x1000 ≤ KERNEL_END
  /-- `page_table_VM` is in the kernel. -/
  page_table_VM_kernel : 0x400 ≤ page_table_VM ∧ (page_table_VM + 1) * 0x1000 ≤ KERNEL_END
  /-- The directory and the table do not overlap. -/
  dir_ne_table : page_table ≠ page_dir
  /-- The directory and the table for user code do not overlap. -/
  dir_ne_VM : page_table_VM ≠ page_dir
  /-- The two tables do not overlap. -/
  table_ne_VM : page_table_VM ≠ page_table

namespace TablePlace

/-- What `paging_init` leaves. -/
def init (place : TablePlace) : PageTables :=
  paging_init (place.page_table * 2 ^ 12) (place.page_table_VM * 2 ^ 12)

/-- Physical memory with the tables in it; `page_table` keeps what `paging_init` leaves. -/
def load (place : TablePlace) (page_dir : Fin 1024 → PageDirectory)
    (page_table_VM : Fin 1024 → PageTableEntry) (elsewhere : Nat → Nat) (address : Nat) : Nat :=
  let frame := address / 2 ^ 12
  let index := Fin.ofNat 1024 (address % 2 ^ 12 / 4)
  if frame = place.page_dir then (page_dir index).word
  else if frame = place.page_table then (place.init.page_table index).word
  else if frame = place.page_table_VM then (page_table_VM index).word
  else elsewhere address

variable (place : TablePlace) (page_dir : Fin 1024 → PageDirectory)
  (page_table_VM : Fin 1024 → PageTableEntry) (elsewhere : Nat → Nat)

theorem load_page_dir {k : Nat} (inside : k < 1024) :
    place.load page_dir page_table_VM elsewhere (place.page_dir * 2 ^ 12 + k * 4) =
      (page_dir (Fin.ofNat 1024 k)).word := by
  have frame : (place.page_dir * 2 ^ 12 + k * 4) / 2 ^ 12 = place.page_dir := by omega
  have index : (place.page_dir * 2 ^ 12 + k * 4) % 2 ^ 12 / 4 = k := by omega
  simp only [load, frame, index, if_true]

theorem load_page_table {k : Nat} (inside : k < 1024) :
    place.load page_dir page_table_VM elsewhere (place.page_table * 2 ^ 12 + k * 4) =
      (place.init.page_table (Fin.ofNat 1024 k)).word := by
  have frame : (place.page_table * 2 ^ 12 + k * 4) / 2 ^ 12 = place.page_table := by omega
  have index : (place.page_table * 2 ^ 12 + k * 4) % 2 ^ 12 / 4 = k := by omega
  simp only [load, frame, index, if_neg place.dir_ne_table, if_true]

theorem load_page_table_VM {k : Nat} (inside : k < 1024) :
    place.load page_dir page_table_VM elsewhere (place.page_table_VM * 2 ^ 12 + k * 4) =
      (page_table_VM (Fin.ofNat 1024 k)).word := by
  have frame : (place.page_table_VM * 2 ^ 12 + k * 4) / 2 ^ 12 = place.page_table_VM := by omega
  have index : (place.page_table_VM * 2 ^ 12 + k * 4) % 2 ^ 12 / 4 = k := by omega
  simp only [load, frame, index, if_neg place.dir_ne_VM, if_neg place.table_ne_VM, if_true]

end TablePlace

/-! ## Turning paging on -/

/-- The control registers. -/
structure ControlRegisters where
  /-- Bit 31 turns paging on. -/
  cr0 : Nat
  /-- The address of the directory. -/
  cr3 : Nat
  /-- Bit 4 allows 4 MB pages, bit 7 global ones. -/
  cr4 : Nat

namespace ControlRegisters

/-- `loadPageDirectory`. -/
def loadPageDirectory (registers : ControlRegisters) (page_dir : Nat) : ControlRegisters :=
  { registers with cr3 := page_dir, cr4 := registers.cr4 ||| 0x10 }

/-- `enablePaging`. -/
def enablePaging (registers : ControlRegisters) : ControlRegisters :=
  { registers with cr0 := registers.cr0 ||| 0x80000000 }

/-- What the registers say about paging. -/
def controls (registers : ControlRegisters) : Controls where
  paging := registers.cr0.testBit 31
  write_protect := registers.cr0.testBit 16
  page_size := registers.cr4.testBit 4
  global := registers.cr4.testBit 7
  directory := registers.cr3 / 2 ^ 12

/-- The end of `paging_init` turns paging on, with 4 MB pages; global pages are as before. -/
theorem controls_paging_init (registers : ControlRegisters) (directory : Nat) :
    ((registers.loadPageDirectory (directory * 2 ^ 12)).enablePaging).controls =
      { paging := true
        write_protect := registers.cr0.testBit 16
        page_size := true
        global := registers.cr4.testBit 7
        directory } := by
  have paging : (0x80000000 : Nat).testBit 31 = true := by decide
  have write_protect : (0x80000000 : Nat).testBit 16 = false := by decide
  have page_size : (0x10 : Nat).testBit 4 = true := by decide
  have global : (0x10 : Nat).testBit 7 = false := by decide
  simp [controls, enablePaging, loadPageDirectory, Nat.testBit_or, paging, write_protect,
    page_size, global]

end ControlRegisters

/-! ## Address spaces -/

/-- What the tables stand for. -/
structure AddressSpace where
  /-- The process whose image is mapped. -/
  image : Option (Fin 6)
  /-- The video page is open to user code. -/
  video : Bool

namespace AddressSpace

/-- The physical address that a linear one means; none where an access faults. -/
def resolve (space : AddressSpace) (user : Bool) (linear : Nat) : Option Nat :=
  if USER_PAGE ≤ linear ∧ linear < USER_PAGE_END then
    space.image.map fun p => 0x800000 + p.val * 0x400000 + (linear - USER_PAGE)
  else if VIDEO_MEM_USR_ADDR ≤ linear ∧ linear < VIDEO_MEM_USR_ADDR + 0x1000 then
    if space.video then some (0xB8000 + (linear - VIDEO_MEM_USR_ADDR)) else none
  else if (0xB8000 ≤ linear ∧ linear < 0xBC000) ∨ (0x400000 ≤ linear ∧ linear < 0x800000) then
    if user then none else some linear
  else none

/-- User code gets to the image or to the video memory. -/
theorem resolve_user {space : AddressSpace} {linear physical : Nat}
    (reached : space.resolve true linear = some physical) :
    (∃ p, space.image = some p ∧ 0x800000 + p.val * 0x400000 ≤ physical ∧
      physical < 0x800000 + (p.val + 1) * 0x400000) ∨
    (0xB8000 ≤ physical ∧ physical < 0xB9000) := by
  have user_page_end : USER_PAGE_END = USER_PAGE + 0x400000 := rfl
  rw [resolve, if_pos rfl, ite_self] at reached
  split_ifs at reached with image video
  · obtain ⟨p, mapped, address⟩ := Option.map_eq_some_iff.mp reached
    exact Or.inl ⟨p, mapped, by omega⟩
  · have address := Option.some.inj reached
    exact Or.inr (by omega)

end AddressSpace

/-- The entry that `paging_set_up` writes. -/
def user_entry (process_num : Int) : PageDirectory where
  present := 1
  R_W := 1
  U_S := 1
  PWT := 0
  PCD := 0
  A := 0
  Ignored := 0
  Size := 1
  G := 1
  AVL := 0
  Addr31_12 := Word.toUnsigned (0x800 + 0x400 * process_num) % 2 ^ 20

theorem paging_set_up_page_dir (kernel : Kernel) (process_num : Int) :
    (kernel.paging_set_up process_num).page_dir =
      Function.update kernel.page_dir 32 (user_entry process_num) := rfl

theorem user_entry_address (p : Fin 6) : (user_entry p).Addr31_12 = 0x800 + 0x400 * p.val :=
  Kernel.boot.paging_set_up_frame p

/-- The entry that `vidmap_paging_set_up` leaves. -/
def video_entry (entry : PageTableEntry) : PageTableEntry :=
  { entry with present := 1, R_W := 1, U_S := 1, Addr_4k := VIDEO_MEM_ADDR }

/-- The tables stand for an address space. -/
structure TablePlace.Describes (place : TablePlace) (page_dir : Fin 1024 → PageDirectory)
    (page_table_VM : Fin 1024 → PageTableEntry) (space : AddressSpace) : Prop where
  /-- The directory is as `paging_init` left it, but for the user entries. -/
  other : ∀ index, index ≠ 32 → index ≠ 33 → page_dir index = place.init.page_dir index
  /-- Entry 32 maps the image. -/
  image : page_dir 32 =
    (space.image.map fun p : Fin 6 => user_entry p).getD (place.init.page_dir 32)
  /-- Entry 33 is there while the video page is. -/
  directory : page_dir 33 =
    { place.init.page_dir 33 with present := if space.video then 1 else 0 }
  /-- The video page itself. -/
  video : page_table_VM 0xB8 =
    if space.video then video_entry (place.init.page_table_VM 0xB8)
    else place.init.page_table_VM 0xB8
  /-- No other page is in its table. -/
  rest : ∀ index, index ≠ 0xB8 → page_table_VM index = place.init.page_table_VM index

namespace TablePlace

variable {place : TablePlace} {page_dir : Fin 1024 → PageDirectory}
  {page_table_VM : Fin 1024 → PageTableEntry} {space : AddressSpace} {elsewhere : Nat → Nat}
  {controls : Controls}

theorem translate_load (directory : controls.directory = place.page_dir)
    (page_size : controls.page_size = true) {page : Nat} (inside : page < 2 ^ 20) :
    translate controls (place.load page_dir page_table_VM elsewhere) page =
      let entry := page_dir (Fin.ofNat 1024 (page / 2 ^ 10))
      if entry.present % 2 = 1 then
        if entry.Size % 2 = 1 then
          some
            { frame := entry.Addr31_12 % 2 ^ 20 / 2 ^ 10 * 2 ^ 10 + page % 2 ^ 10
              user := decide (entry.U_S % 2 = 1)
              writable := decide (entry.R_W % 2 = 1)
              global := decide (entry.G % 2 = 1) }
        else
          let lower := place.load page_dir page_table_VM elsewhere
            (entry.Addr31_12 % 2 ^ 20 * 2 ^ 12 + page % 2 ^ 10 * 4)
          if lower.testBit 0 then
            some
              { frame := lower / 2 ^ 12
                user := decide (entry.U_S % 2 = 1) && lower.testBit 2
                writable := decide (entry.R_W % 2 = 1) && lower.testBit 1
                global := lower.testBit 8 }
          else none
      else none := by
  have index_lt : page / 2 ^ 10 < 1024 := by omega
  simp only [PageWalk.translate, directory, load_page_dir _ _ _ _ index_lt, PageDirectory.word,
    packed_present, packed_size, packed_user, packed_writable, packed_global, packed_address,
    packed_large, page_size, Bool.true_and, decide_eq_true_eq]

/-- Most of the directory is empty in front of the first process. -/
theorem init_absent {index : Fin 1024} (not_table : index ≠ 0) (not_kernel : index ≠ 1) :
    (place.init.page_dir index).present = 0 := by
  simp only [init, paging_init, if_neg not_table, if_neg not_kernel]
  split_ifs <;> rfl

theorem init_table : (place.init.page_dir 0).Addr31_12 = place.page_table :=
  Nat.mul_div_cancel _ (Nat.two_pow_pos 12)

theorem init_table_VM : (place.init.page_dir 33).Addr31_12 = place.page_table_VM :=
  Nat.mul_div_cancel _ (Nat.two_pow_pos 12)

theorem Describes.translate_image (describes : place.Describes page_dir page_table_VM space)
    (directory : controls.directory = place.page_dir) (page_size : controls.page_size = true)
    {page : Nat} (image : page / 2 ^ 10 = 32) :
    PageWalk.translate controls (place.load page_dir page_table_VM elsewhere) page =
      space.image.map fun p =>
        { frame := 0x800 + 0x400 * p.val + page % 2 ^ 10
          user := true
          writable := true
          global := true } := by
  have index : Fin.ofNat 1024 (page / 2 ^ 10) = 32 := by
    rw [image]
    rfl
  rw [translate_load directory page_size (by omega), index, describes.image]
  cases space.image with
  | none =>
      have absent := @init_absent place 32 (by decide) (by decide)
      simp [absent]
  | some p =>
      have p_lt := p.isLt
      have frame : (0x800 + 0x400 * p.val) % 2 ^ 20 / 2 ^ 10 * 2 ^ 10 = 0x800 + 0x400 * p.val := by
        omega
      simp only [Option.map_some, Option.getD_some, user_entry_address p, frame]
      rfl

theorem Describes.resolve_image (describes : place.Describes page_dir page_table_VM space)
    (directory : controls.directory = place.page_dir) (page_size : controls.page_size = true)
    (access : PageAccess) {linear : Nat} (above : USER_PAGE ≤ linear)
    (below : linear < USER_PAGE_END) :
    reach controls (PageWalk.translate controls (place.load page_dir page_table_VM elsewhere)
      (linear / 2 ^ 12)) access linear =
      space.image.map fun p => 0x800000 + p.val * 0x400000 + (linear - USER_PAGE) := by
  have user_page : USER_PAGE = 0x8000000 := rfl
  have user_page_end : USER_PAGE_END = 0x8400000 := rfl
  rw [describes.translate_image directory page_size (by omega)]
  cases space.image with
  | none => rfl
  | some p =>
      refine (if_pos ?_).trans (congrArg some ?_)
      · cases user : access.user <;> simp [Translation.permits, user]
      · simp only [Translation.physical]
        omega

theorem Describes.resolve_kernel (describes : place.Describes page_dir page_table_VM space)
    (directory : controls.directory = place.page_dir) (page_size : controls.page_size = true)
    (access : PageAccess) {linear : Nat} (above : 0x400000 ≤ linear) (below : linear < 0x800000) :
    reach controls (PageWalk.translate controls (place.load page_dir page_table_VM elsewhere)
      (linear / 2 ^ 12)) access linear = if access.user then none else some linear := by
  have index : Fin.ofNat 1024 (linear / 2 ^ 12 / 2 ^ 10) = 1 := by
    have quotient : linear / 2 ^ 12 / 2 ^ 10 = 1 := by omega
    rw [quotient]
    rfl
  have entry : place.init.page_dir 1 = { user_entry (-1) with U_S := 0 } := rfl
  rw [translate_load directory page_size (by omega), index,
    describes.other 1 (by decide) (by decide), entry]
  have address : (user_entry (-1)).Addr31_12 = 0x400 := by decide
  simp only [address]
  cases user : access.user with
  | true =>
      refine if_neg ?_
      simp [Translation.permits, user]
  | false =>
      refine (if_pos ?_).trans (congrArg some ?_)
      · simp [Translation.permits, user, user_entry]
      · simp only [Translation.physical]
        omega

theorem Describes.resolve_text (describes : place.Describes page_dir page_table_VM space)
    (directory : controls.directory = place.page_dir) (page_size : controls.page_size = true)
    (access : PageAccess) {linear : Nat} (below : linear < 0x400000) :
    reach controls (PageWalk.translate controls (place.load page_dir page_table_VM elsewhere)
      (linear / 2 ^ 12)) access linear =
      if 0xB8000 ≤ linear ∧ linear < 0xBC000 then if access.user then none else some linear
      else none := by
  have index : Fin.ofNat 1024 (linear / 2 ^ 12 / 2 ^ 10) = 0 := by
    have quotient : linear / 2 ^ 12 / 2 ^ 10 = 0 := by omega
    rw [quotient]
    rfl
  have page_lt : linear / 2 ^ 12 < 1024 := by omega
  have kernel := place.page_table_kernel
  rw [KERNEL_END] at kernel
  have table_address : (place.init.page_dir 0).Addr31_12 % 2 ^ 20 = place.page_table := by
    rw [init_table]
    omega
  have lower := place.load_page_table page_dir page_table_VM elsewhere
    (show linear / 2 ^ 12 % 2 ^ 10 < 1024 by omega)
  rw [translate_load directory page_size (by omega), index,
    describes.other 0 (by decide) (by decide)]
  simp only [table_address, lower]
  have table_index : (Fin.ofNat 1024 (linear / 2 ^ 12 % 2 ^ 10)).val = linear / 2 ^ 12 := by
    rw [Fin.val_ofNat]
    omega
  by_cases text : 0xB8000 ≤ linear ∧ linear < 0xBC000
  · have mapped : VIDEO_MEM_ADDR ≤ linear / 2 ^ 12 ∧ linear / 2 ^ 12 ≤ VIDEO_MEM_ADDR + 3 := by
      rw [VIDEO_MEM_ADDR]
      omega
    have word_eq : (place.init.page_table (Fin.ofNat 1024 (linear / 2 ^ 12 % 2 ^ 10))).word =
        packed 1 1 0 0 0 0 0 0 0 0 (linear / 2 ^ 12) := by
      simp only [init, paging_init, table_index, if_pos mapped, PageTableEntry.word]
    simp only [word_eq, packed_present, packed_user, packed_writable, packed_global, packed_address]
    rw [if_pos text]
    cases user : access.user with
    | true =>
        refine if_neg ?_
        simp [Translation.permits, user]
    | false =>
        refine (if_pos ?_).trans (congrArg some ?_)
        · simp [Translation.permits, user, init, paging_init]
        · simp only [Translation.physical]
          omega
  · have absent : ¬(VIDEO_MEM_ADDR ≤ linear / 2 ^ 12 ∧ linear / 2 ^ 12 ≤ VIDEO_MEM_ADDR + 3) := by
      rw [VIDEO_MEM_ADDR]
      omega
    have word_eq : (place.init.page_table (Fin.ofNat 1024 (linear / 2 ^ 12 % 2 ^ 10))).word =
        packed 0 0 0 0 0 0 0 0 0 0 0 := by
      simp only [init, paging_init, table_index, if_neg absent, PageTableEntry.word]
    simp only [word_eq, packed_present]
    rw [if_neg text]
    rfl

theorem Describes.resolve_video (describes : place.Describes page_dir page_table_VM space)
    (directory : controls.directory = place.page_dir) (page_size : controls.page_size = true)
    (access : PageAccess) {linear : Nat} (above : USER_PAGE_END ≤ linear)
    (below : linear < USER_PAGE_END + 0x400000) :
    reach controls (PageWalk.translate controls (place.load page_dir page_table_VM elsewhere)
      (linear / 2 ^ 12)) access linear =
      if VIDEO_MEM_USR_ADDR ≤ linear ∧ linear < VIDEO_MEM_USR_ADDR + 0x1000 then
        if space.video then some (0xB8000 + (linear - VIDEO_MEM_USR_ADDR)) else none
      else none := by
  have user_page_end : USER_PAGE_END = 0x8400000 := rfl
  have video_mem : VIDEO_MEM_USR_ADDR = 0x84B8000 := rfl
  have index : Fin.ofNat 1024 (linear / 2 ^ 12 / 2 ^ 10) = 33 := by
    have quotient : linear / 2 ^ 12 / 2 ^ 10 = 33 := by omega
    rw [quotient]
    rfl
  have kernel := place.page_table_VM_kernel
  rw [KERNEL_END] at kernel
  have table_address : (place.init.page_dir 33).Addr31_12 % 2 ^ 20 = place.page_table_VM := by
    rw [init_table_VM]
    omega
  have lower := place.load_page_table_VM page_dir page_table_VM elsewhere
    (show linear / 2 ^ 12 % 2 ^ 10 < 1024 by omega)
  rw [translate_load directory page_size (by omega), index, describes.directory]
  simp only [table_address, lower]
  cases space_video : space.video with
  | false => simp [reach]
  | true =>
      have opened := describes.video
      rw [space_video, if_pos rfl] at opened
      have size : (place.init.page_dir 33).Size = 0 := rfl
      have user : (place.init.page_dir 33).U_S = 1 := rfl
      have writable : (place.init.page_dir 33).R_W = 1 := rfl
      simp only [if_true, size, user, writable, Nat.zero_mod, zero_ne_one, if_false, Nat.one_mod,
        decide_true, Bool.true_and]
      by_cases video : VIDEO_MEM_USR_ADDR ≤ linear ∧ linear < VIDEO_MEM_USR_ADDR + 0x1000
      · have table_index : Fin.ofNat 1024 (linear / 2 ^ 12 % 2 ^ 10) = 0xB8 := by
          have remainder : linear / 2 ^ 12 % 2 ^ 10 = 0xB8 := by omega
          rw [remainder]
          rfl
        have word_eq : (page_table_VM 0xB8).word = packed 1 1 1 0 0 0 0 0 1 0 0xB8 := by
          rw [opened]
          rfl
        rw [table_index, word_eq, if_pos video]
        simp only [packed_present, packed_user, packed_writable, packed_global, packed_address]
        refine (if_pos ?_).trans (congrArg some ?_)
        · cases user : access.user <;> simp [Translation.permits, user]
        · simp only [Translation.physical]
          omega
      · have other : Fin.ofNat 1024 (linear / 2 ^ 12 % 2 ^ 10) ≠ 0xB8 := by
          intro same
          have remainder := congrArg Fin.val same
          rw [Fin.val_ofNat] at remainder
          have value : (0xB8 : Fin 1024).val = 0xB8 := rfl
          omega
        have word_eq : (page_table_VM (Fin.ofNat 1024 (linear / 2 ^ 12 % 2 ^ 10))).word =
            packed 0 0 0 0 0 0 0 0 1 0 0 := by
          rw [describes.rest _ other]
          rfl
        simp only [word_eq, packed_present]
        rw [if_neg video]
        rfl

theorem Describes.resolve_absent (describes : place.Describes page_dir page_table_VM space)
    (directory : controls.directory = place.page_dir) (page_size : controls.page_size = true)
    (access : PageAccess) {linear : Nat} (word : linear < 2 ^ 32)
    (unmapped : (0x800000 ≤ linear ∧ linear < USER_PAGE) ∨ USER_PAGE_END + 0x400000 ≤ linear) :
    reach controls (PageWalk.translate controls (place.load page_dir page_table_VM elsewhere)
      (linear / 2 ^ 12)) access linear = none := by
  have user_page : USER_PAGE = 0x8000000 := rfl
  have user_page_end : USER_PAGE_END = 0x8400000 := rfl
  have index_val : (Fin.ofNat 1024 (linear / 2 ^ 12 / 2 ^ 10)).val = linear / 2 ^ 12 / 2 ^ 10 := by
    rw [Fin.val_ofNat]
    omega
  rw [translate_load directory page_size (by omega)]
  generalize Fin.ofNat 1024 (linear / 2 ^ 12 / 2 ^ 10) = index at index_val
  have not_first : index ≠ 0 ∧ index ≠ 1 ∧ index ≠ 32 ∧ index ≠ 33 := by
    refine ⟨?_, ?_, ?_, ?_⟩ <;> rintro rfl <;> simp at index_val <;> omega
  obtain ⟨not_table, not_kernel, not_image, not_video⟩ := not_first
  have absent := @init_absent place index not_table not_kernel
  simp only [describes.other index not_image not_video, absent]
  rfl

/-- Every access means what it means in the address space that the tables stand for. -/
theorem Describes.resolve (describes : place.Describes page_dir page_table_VM space)
    (directory : controls.directory = place.page_dir) (page_size : controls.page_size = true)
    (access : PageAccess) {linear : Nat} (word : linear < 2 ^ 32) :
    reach controls (PageWalk.translate controls (place.load page_dir page_table_VM elsewhere)
      (linear / 2 ^ 12)) access linear = space.resolve access.user linear := by
  have user_page : USER_PAGE = 0x8000000 := rfl
  have user_page_end : USER_PAGE_END = 0x8400000 := rfl
  have video_mem : VIDEO_MEM_USR_ADDR = 0x84B8000 := rfl
  rw [AddressSpace.resolve]
  by_cases image : USER_PAGE ≤ linear ∧ linear < USER_PAGE_END
  · rw [if_pos image, describes.resolve_image directory page_size access image.1 image.2]
  · rw [if_neg image]
    by_cases video : USER_PAGE_END ≤ linear ∧ linear < USER_PAGE_END + 0x400000
    · have not_kernel : ¬((0xB8000 ≤ linear ∧ linear < 0xBC000) ∨
          (0x400000 ≤ linear ∧ linear < 0x800000)) := by omega
      rw [describes.resolve_video directory page_size access video.1 video.2, if_neg not_kernel]
    · have not_video : ¬(VIDEO_MEM_USR_ADDR ≤ linear ∧ linear < VIDEO_MEM_USR_ADDR + 0x1000) := by
        omega
      rw [if_neg not_video]
      by_cases text : linear < 0x400000
      · have not_kernel : ¬(0x400000 ≤ linear ∧ linear < 0x800000) := by omega
        simp only [describes.resolve_text directory page_size access text, not_kernel, or_false]
      · by_cases kernel : linear < 0x800000
        · rw [describes.resolve_kernel directory page_size access (by omega) kernel,
            if_pos (Or.inr ⟨by omega, kernel⟩)]
        · rw [describes.resolve_absent directory page_size access word (by omega),
            if_neg (by omega)]

/-! ## Changes -/

theorem describes_init (place : TablePlace) :
    place.Describes place.init.page_dir place.init.page_table_VM ⟨none, false⟩ where
  other _ _ _ := rfl
  image := rfl
  directory := rfl
  video := rfl
  rest _ _ := rfl

theorem Describes.map_image (describes : place.Describes page_dir page_table_VM space) (p : Fin 6) :
    place.Describes (Function.update page_dir 32 (user_entry p)) page_table_VM
      { space with image := some p } where
  other index not_image not_video := by
    rw [Function.update_of_ne not_image]
    exact describes.other index not_image not_video
  image := Function.update_self ..
  directory := by
    rw [Function.update_of_ne (by decide)]
    exact describes.directory
  video := describes.video
  rest := describes.rest

theorem Describes.open_video (describes : place.Describes page_dir page_table_VM space) :
    place.Describes (Function.update page_dir 33 { page_dir 33 with present := 1 })
      (Function.update page_table_VM 0xB8 (video_entry (page_table_VM 0xB8)))
      { space with video := true } where
  other index not_image not_video := by
    rw [Function.update_of_ne not_video]
    exact describes.other index not_image not_video
  image := by
    rw [Function.update_of_ne (by decide)]
    exact describes.image
  directory := by
    rw [Function.update_self, describes.directory]
    rfl
  video := by
    rw [Function.update_self, describes.video]
    cases space.video <;> rfl
  rest index other := by
    rw [Function.update_of_ne other]
    exact describes.rest index other

theorem Describes.exposed_iff (describes : place.Describes page_dir page_table_VM space) :
    ((page_dir 33).present = 1 ∧ (page_table_VM 0xB8).present = 1 ∧ (page_table_VM 0xB8).U_S = 1) ↔
      space.video = true := by
  rw [describes.directory, describes.video]
  cases space.video with
  | false => exact iff_of_false (fun exposed => zero_ne_one exposed.1) Bool.false_ne_true
  | true => exact iff_of_true ⟨rfl, rfl, rfl⟩ rfl

end TablePlace

end ComputerSystem
