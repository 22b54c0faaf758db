import ComputerSystem.Printf
import ComputerSystem.VirtualScreen

/-!
# Output from kernel entry on

`entry` prints what the boot loader passed on before anything has chosen a terminal: only the first
turn of `contextSwitch` does.  A run is the printing of `entry`, the start of the terminals and
whatever processes, keys and ticks do then.
-/

namespace ComputerSystem

open CString Word

/-- `MULTIBOOT_BOOTLOADER_MAGIC`. -/
def MULTIBOOT_BOOTLOADER_MAGIC : Nat := 0x2BADB002

/-- `module_t`, with the bytes at its start. -/
structure Module where
  /-- First address. -/
  mod_start : Nat
  /-- Address behind the last one. -/
  mod_end : Nat
  /-- Memory at `mod_start`. -/
  memory : List UInt8

/-- `memory_map_t`. -/
structure MemoryMap where
  /-- Size of the entry. -/
  size : Nat
  /-- Low word of the address. -/
  base_addr_low : Nat
  /-- High word of the address. -/
  base_addr_high : Nat
  /-- Low word of the length. -/
  length_low : Nat
  /-- High word of the length. -/
  length_high : Nat
  /-- Kind of memory. -/
  type : Nat

/-- `elf_section_header_table_t`. -/
structure ElfSectionHeaderTable where
  /-- Number of sections. -/
  num : Nat
  /-- Size of an entry. -/
  size : Nat
  /-- Address of the table. -/
  addr : Nat
  /-- Section of the names. -/
  shndx : Nat

/-- `multiboot_info_t`, with what its addresses lead to. -/
structure MultibootInfo where
  /-- Which of the fields are valid. -/
  flags : Nat
  /-- Memory below 1 MB. -/
  mem_lower : Nat
  /-- Memory above 1 MB. -/
  mem_upper : Nat
  /-- Boot device. -/
  boot_device : Nat
  /-- Memory at the command line. -/
  cmdline : List UInt8
  /-- The modules. -/
  mods : List Module
  /-- Section headers. -/
  elf_sec : ElfSectionHeaderTable
  /-- Size of the memory map. -/
  mmap_length : Nat
  /-- Address of the memory map. -/
  mmap_addr : Nat
  /-- The entries that the loop over the memory map visits. -/
  mmap : List MemoryMap

/-- `CHECK_FLAG`. -/
def CHECK_FLAG (flags bit : Nat) : Bool := flags.testBit bit

/-- The bytes that a call of `printf` with plain words prints. -/
def printed (format : String) (words : List Nat) : List UInt8 :=
  (printf format (words.map Argument.ofWord)).2

/-- What `entry` prints about a module. -/
def module_text (mod_count : Nat) (mod : Module) : List UInt8 :=
  printed "Module %d loaded at address: 0x%#x\n" [mod_count, mod.mod_start] ++
  printed "Module %d ends at address: 0x%#x\n" [mod_count, mod.mod_end] ++
  printed "First few bytes of module:\n" [] ++
  (List.range 16).flatMap (fun i => printed "0x%x " [toUnsigned (signed (mod.memory.getD i 0))]) ++
  printed "\n" []

/-- What `entry` prints about an entry of the memory map. -/
def mmap_text (mmap : MemoryMap) : List UInt8 :=
  printed
    "    size = 0x%x, base_addr = 0x%#x%#x\n    type = 0x%x,  length    = 0x%#x%#x\n"
    [mmap.size, mmap.base_addr_high, mmap.base_addr_low, mmap.type, mmap.length_high,
      mmap.length_low]

/-- What `entry` prints, and whether it goes on to start the devices. -/
def entry_text (magic : Nat) (mbi : MultibootInfo) : List UInt8 × Bool :=
  if magic ≠ MULTIBOOT_BOOTLOADER_MAGIC then
    (printed "Invalid magic number: 0x%#x\n" [magic], false)
  else
    let text := printed "flags = 0x%#x\n" [mbi.flags]
    let text := text ++
      if CHECK_FLAG mbi.flags 0 then
        printed "mem_lower = %uKB, mem_upper = %uKB\n" [mbi.mem_lower, mbi.mem_upper]
      else []
    let text := text ++
      if CHECK_FLAG mbi.flags 1 then printed "boot_device = 0x%#x\n" [mbi.boot_device] else []
    let text := text ++
      if CHECK_FLAG mbi.flags 2 then (printf "cmdline = %s\n" [⟨0, mbi.cmdline⟩]).2 else []
    let text := text ++
      if CHECK_FLAG mbi.flags 3 then
        mbi.mods.zipIdx.flatMap fun (mod, mod_count) => module_text mod_count mod
      else []
    if CHECK_FLAG mbi.flags 4 ∧ CHECK_FLAG mbi.flags 5 then
      (text ++ printed "Both bits 4 and 5 are set.\n" [], false)
    else
      let text := text ++
        if CHECK_FLAG mbi.flags 5 then
          printed "elf_sec: num = %u, size = 0x%#x, addr = 0x%#x, shndx = 0x%#x\n"
            [mbi.elf_sec.num, mbi.elf_sec.size, mbi.elf_sec.addr, mbi.elf_sec.shndx]
        else []
      let text := text ++
        if CHECK_FLAG mbi.flags 6 then
          printed "mmap_addr = 0x%#x, mmap_length = 0x%x\n" [mbi.mmap_addr, mbi.mmap_length] ++
            mbi.mmap.flatMap mmap_text
        else []
      (text, true)

/-- What happens to the terminals. -/
inductive OutputEvent
  /-- A character of `printf`, `puts` or `terminal_write`. -/
  | putc (c : UInt8)
  /-- The screen is cleared. -/
  | clear
  /-- `entry` starts the terminals. -/
  | terminal_start
  /-- A turn of `contextSwitch` that finds no process for terminal `i`. -/
  | turn (i : Fin 3)
  /-- A key selects a terminal. -/
  | terminal_switch (t : Fin 3)
  deriving DecidableEq

namespace Console

/-- One event. -/
def output (console : Console) : OutputEvent → Console
  | .putc c => console.putc c
  | .clear => { console with screen := console.screen.clear }
  | .terminal_start => console.terminal_start
  | .turn i => { console with background_terminal := some i }
  | .terminal_switch t => console.terminal_switch console.cur_term_idx t

/-- `putc` names a terminal, and a page that it writes through is initialised. -/
def InRange (console : Console) : Prop :=
  ∃ background ∈ console.background_terminal, background = console.cur_term_idx ∨
    (console.term background).video_mem = ![0xB9000, 0xBA000, 0xBB000] background

end Console

/-- A run from kernel entry on; without a start of the devices nothing comes after the printing. -/
def boot_events (magic : Nat) (mbi : MultibootInfo) (later : List OutputEvent) :
    List OutputEvent :=
  .clear :: (entry_text magic mbi).1.map .putc ++
    if (entry_text magic mbi).2 then .terminal_start :: later else []

namespace Console

theorem putc_background_terminal (console : Console) (c : UInt8) :
    (console.putc c).background_terminal = console.background_terminal := by
  rw [putc]
  split
  · rfl
  · split_ifs
    · rfl
    · rw [putc_background_eq]
      rfl

theorem putc_video_mem (console : Console) (c : UInt8) (t : Fin 3) :
    ((console.putc c).term t).video_mem = (console.term t).video_mem := by
  rw [putc]
  split
  · rfl
  · rename_i background _
    split_ifs
    · rfl
    · exact putc_background_video_mem _ _ _ _

/-- The pages of the terminals are set. -/
def Started (console : Console) : Prop :=
  ∀ t, (console.term t).video_mem = ![0xB9000, 0xBA000, 0xBB000] t

theorem Started.step {console : Console} (started : console.Started) (event : OutputEvent) :
    (console.output event).Started := by
  cases event with
  | putc c => exact fun t => (console.putc_video_mem c t).trans (started t)
  | clear => simpa only [Started, output] using started
  | terminal_start => exact fun t => rfl
  | turn i => exact started
  | terminal_switch t =>
      rw [Console.output, terminal_switch_eq]
      intro u
      simp only [terminal_save_term]
      exact started u

theorem Started.run {console : Console} (started : console.Started)
    (events : List OutputEvent) : (events.foldl output console).Started := by
  induction events generalizing console with
  | nil => exact started
  | cons event events ih => exact ih (started.step event)

/-- Only a turn chooses a terminal. -/
theorem output_background_terminal (console : Console) (event : OutputEvent) :
    (console.output event).background_terminal ≠ none ↔
      console.background_terminal ≠ none ∨ ∃ i, event = .turn i := by
  cases event with
  | putc c => simp [output, putc_background_terminal]
  | clear => simp [output]
  | terminal_start => simp [output, Console.terminal_start]
  | turn i => simp [output]
  | terminal_switch t => simp [output, terminal_switch_eq, terminal_save, modifyTerm]

theorem outputs_background_terminal (console : Console) (events : List OutputEvent) :
    (events.foldl output console).background_terminal ≠ none ↔
      console.background_terminal ≠ none ∨ ∃ i, OutputEvent.turn i ∈ events := by
  induction events generalizing console with
  | nil => simp
  | cons event events ih =>
      rw [List.foldl_cons, ih, output_background_terminal, or_assoc]
      simp only [List.mem_cons, exists_or, eq_comm]

/-- With the pages set, `putc` is in range as soon as a terminal was chosen. -/
theorem Started.inRange_iff {console : Console} (started : console.Started) :
    console.InRange ↔ console.background_terminal ≠ none := by
  cases chosen : console.background_terminal with
  | none => simp [InRange, chosen]
  | some background => simp [InRange, chosen, started background]

theorem not_inRange_of_none {console : Console} (none : console.background_terminal = none) :
    ¬console.InRange := by
  simp [InRange, none]

end Console

/-- `entry` prints something on every path. -/
theorem entry_text_ne_nil (magic : Nat) (mbi : MultibootInfo) : (entry_text magic mbi).1 ≠ [] := by
  have flags_text : printed "flags = 0x%#x\n" [mbi.flags] ≠ [] := List.cons_ne_nil 102 _
  rw [entry_text]
  by_cases invalid : magic ≠ MULTIBOOT_BOOTLOADER_MAGIC
  · rw [if_pos invalid]
    exact List.cons_ne_nil 73 _
  · rw [if_neg invalid]
    by_cases both : CHECK_FLAG mbi.flags 4 ∧ CHECK_FLAG mbi.flags 5
    · simp only [if_pos both]
      simp [flags_text]
    · simp only [if_neg both]
      simp [flags_text]

/-- In front of a turn the terminals were started. -/
theorem started_of_turn {console : Console} {magic : Nat} {mbi : MultibootInfo}
    {later before rest : List OutputEvent} (run : boot_events magic mbi later = before ++ rest)
    {i : Fin 3} (turn : .turn i ∈ before) : (before.foldl Console.output console).Started := by
  have no_turn : .turn i ∉ .clear :: (entry_text magic mbi).1.map OutputEvent.putc := by simp
  rw [boot_events] at run
  rcases List.append_eq_append_iff.mp run with ⟨middle, before_eq, tail_eq⟩ | ⟨middle, head_eq, -⟩
  · subst before_eq
    have in_middle := (List.mem_append.mp turn).resolve_left no_turn
    split_ifs at tail_eq
    · cases middle with
      | nil => cases in_middle
      | cons event middle =>
          obtain ⟨rfl, -⟩ := List.cons_eq_cons.mp tail_eq
          rw [List.foldl_append, List.foldl_cons]
          exact Console.Started.run (fun t => rfl) middle
    · rw [List.append_eq_nil_iff.mp tail_eq.symm |>.1] at in_middle
      cases in_middle
  · rw [head_eq] at no_turn
    exact absurd (List.mem_append_left _ turn) no_turn

/-- In every run from kernel entry, on whatever the boot loader passes on: a character goes to a
terminal exactly when a turn of `contextSwitch` came before it, and `entry` prints before that. -/
theorem putc_inRange_iff (memory : Memory) (magic : Nat) (mbi : MultibootInfo)
    (later : List OutputEvent) :
    let start := Console.boot.withMemory memory
    (∀ before c rest, boot_events magic mbi later = before ++ .putc c :: rest →
      ((before.foldl Console.output start).InRange ↔ ∃ i, .turn i ∈ before)) ∧
    ∃ before c rest, boot_events magic mbi later = before ++ .putc c :: rest ∧
      ¬(before.foldl Console.output start).InRange := by
  intro start
  have chosen_iff (before : List OutputEvent) :
      (before.foldl Console.output start).background_terminal ≠ none ↔ ∃ i, .turn i ∈ before := by
    have unchosen : ¬start.background_terminal ≠ none := not_not.mpr rfl
    rw [Console.outputs_background_terminal, or_iff_right unchosen]
  constructor
  · intro before c rest run
    constructor
    · intro in_range
      rw [← chosen_iff]
      exact fun none => Console.not_inRange_of_none none in_range
    · rintro ⟨i, turn⟩
      rw [(started_of_turn run turn).inRange_iff, chosen_iff]
      exact ⟨i, turn⟩
  · obtain ⟨c, text, text_eq⟩ := List.exists_cons_of_ne_nil (entry_text_ne_nil magic mbi)
    refine ⟨[.clear], c, text.map .putc ++
      if (entry_text magic mbi).2 then .terminal_start :: later else [], ?_,
      Console.not_inRange_of_none rfl⟩
    rw [boot_events, text_eq]
    rfl

/-- What a boot loader passes on that sets no flag. -/
def bare : MultibootInfo where
  flags := 0
  mem_lower := 0
  mem_upper := 0
  boot_device := 0
  cmdline := []
  mods := []
  elf_sec := ⟨0, 0, 0, 0⟩
  mmap_length := 0
  mmap_addr := 0
  mmap := []

/-- The first character of `flags = ` goes through `term[-1]`. -/
theorem flags_out_of_range :
    ¬∀ before c rest,
      boot_events MULTIBOOT_BOOTLOADER_MAGIC bare [] = before ++ .putc c :: rest →
        (before.foldl Console.output Console.boot).InRange := by
  intro in_range
  exact Console.not_inRange_of_none rfl (in_range [.clear] 102 _ rfl)

end ComputerSystem
