import ComputerSystem.ProcessEffects

/-!
# Where a start stores

`execute` stores the index that its scan left behind into `term` at itself, and the frame of its
caller into the PCB that `schedule_arr` names; neither index is checked.  The addresses here are
those of the linked kernel: what lies behind `term` is nobody's memory, then the file-system image,
the PCBs with the kernel stacks, and no page at all.
-/

namespace ComputerSystem

open CArray

/-- Address of `term`. -/
def TERM : Nat := 0x40B000

/-- Size of `term_t`. -/
def TERM_SIZE : Nat := 152

/-- Offset of `pcb_idx` in `term_t`. -/
def PCB_IDX : Nat := 148

/-- Offset of `ebp` in `pcb_t`; `esp` is the next word. -/
def PCB_EBP : Nat := 132

/-- End of the kernel's code and data. -/
def KERNEL_END : Nat := 0x40B1D0

/-- Address of `term[i].pcb_idx`. -/
def pcb_idx_address (i : Nat) : Nat := TERM + TERM_SIZE * i + PCB_IDX

/-- No page is mapped at an address: between video memory and the kernel, or between the kernel and
the user page. -/
def Unmapped (address : Nat) : Prop :=
  (0xBC000 ≤ address ∧ address < 0x400000) ∨ (0x800000 ≤ address ∧ address < 0x8000000)

instance (address : Nat) : Decidable (Unmapped address) := inferInstanceAs (Decidable (_ ∨ _))

/-- `module_t` of the file-system image.  `MULTIBOOT_HEADER_FLAGS` asks for a page boundary. -/
structure BootModule where
  /-- First byte. -/
  mod_start : Nat
  /-- Byte behind the last one. -/
  mod_end : Nat
  /-- It starts a page. -/
  aligned : mod_start % 0x1000 = 0
  /-- The kernel is in front of it. -/
  behind : KERNEL_END ≤ mod_start

namespace BootModule

/-- The image on the first page behind the kernel. -/
def sample : BootModule where
  mod_start := 0x40C000
  mod_end := 0x488000
  aligned := by decide
  behind := by decide

/-- The word at an address belongs neither to the kernel, nor to the file-system image, nor to a
PCB or a kernel stack. -/
def Spare (mod : BootModule) (address : Nat) : Prop :=
  KERNEL_END ≤ address ∧ address + 4 ≤ pcbAddress 5 ∧
    (address + 4 ≤ mod.mod_start ∨ mod.mod_end ≤ address)

instance (mod : BootModule) (address : Nat) : Decidable (mod.Spare address) :=
  inferInstanceAs (Decidable (_ ∧ _ ∧ _))

/-- The index of a scan goes into `term`, or into a word that nothing uses. -/
def Takes (mod : BootModule) (i : Nat) : Prop := i < 3 ∨ mod.Spare (pcb_idx_address i)

instance (mod : BootModule) (i : Nat) : Decidable (mod.Takes i) :=
  inferInstanceAs (Decidable (_ ∨ _))

/-- The frame of the caller goes into the PCB of a process, or into words that nothing uses. -/
def Saves (mod : BootModule) (parent : Int) : Prop :=
  (∃ p : Fin 6, parent = p) ∨
    mod.Spare (pcbAddress parent + PCB_EBP) ∧ mod.Spare (pcbAddress parent + PCB_EBP + 4)

instance (mod : BootModule) (parent : Int) : Decidable (mod.Saves parent) :=
  inferInstanceAs (Decidable ((∃ _, _) ∨ _ ∧ _))

/-- Both stores of a start in a slot go where nothing else is. -/
def Settles (mod : BootModule) (kernel : Kernel) (slot : Fin 6) (i : Nat) : Prop :=
  mod.Takes i ∧ (2 < slot.val → mod.Saves (kernel.schedule_arr kernel.console.cur_term_idx))

instance (mod : BootModule) (kernel : Kernel) (slot : Fin 6) (i : Nat) :
    Decidable (mod.Settles kernel slot i) :=
  inferInstanceAs (Decidable (_ ∧ (_ → _)))

theorem lowest_pcb : pcbAddress 5 = 0x7F4000 := by decide

/-- The rest of the page that `term` ends in is free: no command of up to 25 characters strays. -/
theorem takes_of_le (mod : BootModule) {i : Nat} (short : i ≤ 25) : mod.Takes i := by
  have aligned := mod.aligned
  have behind := mod.behind
  rw [KERNEL_END] at behind
  rw [Takes, Spare, lowest_pcb, pcb_idx_address, TERM, TERM_SIZE, PCB_IDX, KERNEL_END]
  omega

/-- What is stored where nothing else is stays below the kernel stacks. -/
theorem Takes.below {mod : BootModule} {i : Nat} (takes : mod.Takes i) :
    pcb_idx_address i + 4 ≤ 0x7F4000 := by
  rcases takes with term | ⟨-, below, -⟩
  · rw [pcb_idx_address, TERM, TERM_SIZE, PCB_IDX]
    omega
  · rwa [lowest_pcb] at below

/-- The second half of `execute` with the addresses of its stores: a page fault where no page is
mapped, and nothing is said about a start that overwrites something. -/
def start_process (mod : BootModule) (image : Image) (kernel : Kernel) (frame : Frame)
    (cur_pid : Fin 6) (cur_dentry : Dentry) (i : Nat) : Option (Outcome × Kernel) :=
  let parent := kernel.schedule_arr kernel.console.cur_term_idx
  let loaded := kernel.load_program image cur_pid cur_dentry
  let initiated := loaded.initiate_pcb frame cur_pid
  if mod.Settles kernel cur_pid i then
    some (ComputerSystem.start_process image kernel frame cur_pid cur_dentry i)
  else if 2 < cur_pid.val ∧ Unmapped (pcbAddress parent + PCB_EBP) then
    some (.fault, loaded.modifyPcb (pcbAddress cur_pid) fun pcb =>
      { pcb with pid := cur_pid, parent := pcbAddress parent })
  else if (2 < cur_pid.val → mod.Saves parent) ∧ Unmapped (pcb_idx_address i) then
    some (.fault, { initiated with
      schedule_arr := store initiated.schedule_arr initiated.console.cur_term_idx i })
  else none

/-- `execute` with the addresses of its stores. -/
def execute (mod : BootModule) (image : Image) (kernel : Kernel) (frame : Frame)
    (command : Option (List UInt8)) : Option (Outcome × Kernel) :=
  match kernel.launched image frame command with
  | none => some (ComputerSystem.execute image kernel frame command)
  | some (slot, line) =>
      let scan := scan_command line
      let stored := kernel.modifyPcb (pcbAddress slot) fun pcb =>
        { pcb with argument := store_argument pcb.argument scan.argument }
      (check_executable image frame scan.name).bind fun cur_dentry =>
        mod.start_process image stored frame slot cur_dentry scan.i

section Start

variable {mod : BootModule} {image : Image} {kernel next : Kernel} {frame : Frame} {slot : Fin 6}
  {cur_dentry : Dentry} {i : Nat} {outcome : Outcome} {command : Option (List UInt8)}
  {line : List UInt8}

/-- A start is what the source says, or faults with its slot taken. -/
theorem start_process_cases
    (started : mod.start_process image kernel frame slot cur_dentry i = some (outcome, next)) :
    (mod.Settles kernel slot i ∧
      ComputerSystem.start_process image kernel frame slot cur_dentry i = (outcome, next)) ∨
    (¬mod.Settles kernel slot i ∧ outcome = .fault ∧
      next.process_arr = store kernel.process_arr slot 1) := by
  have load := kernel.load_program_spec image slot cur_dentry
  rw [start_process] at started
  generalize kernel.load_program image slot cur_dentry = loaded at load started
  have initiated : (loaded.initiate_pcb frame slot).process_arr = loaded.process_arr := by
    rw [Kernel.initiate_pcb_eq]
  split_ifs at started with settles
  · exact Or.inl ⟨settles, Option.some.inj started⟩
  · cases started
    exact Or.inr ⟨settles, rfl, load.process_arr⟩
  · cases started
    exact Or.inr ⟨settles, rfl, initiated.trans load.process_arr⟩

theorem execute_of_not_launched (nothing : kernel.launched image frame command = none) :
    mod.execute image kernel frame command =
      some (ComputerSystem.execute image kernel frame command) := by
  rw [execute, nothing]

/-- A call that starts a process stores its argument and goes on with the second half. -/
theorem execute_of_launched (mod : BootModule)
    (launched : kernel.launched image frame command = some (slot, line)) :
    ∃ cur_dentry,
      let stored := kernel.modifyPcb (pcbAddress slot) fun pcb =>
        { pcb with argument := store_argument pcb.argument (scan_command line).argument }
      mod.execute image kernel frame command =
          mod.start_process image stored frame slot cur_dentry (scan_command line).i ∧
        ComputerSystem.execute image kernel frame command =
          ComputerSystem.start_process image stored frame slot cur_dentry
            (scan_command line).i := by
  obtain ⟨free, rfl, checked⟩ := Kernel.launched_eq_some_iff.mp launched
  obtain ⟨cur_dentry, found⟩ := Option.ne_none_iff_exists'.mp checked
  refine ⟨cur_dentry, ?_, ?_⟩
  · rw [execute, launched]
    simp only [found, Option.bind_some]
  · rw [execute_of_free_slot image frame free]
    simp only [found]

/-- As long as the stores of a start settle, `execute` is the one without addresses. -/
theorem execute_of_settles
    (launched : kernel.launched image frame command = some (slot, line))
    (settles : mod.Settles kernel slot (scan_command line).i) :
    mod.execute image kernel frame command =
      some (ComputerSystem.execute image kernel frame command) := by
  obtain ⟨cur_dentry, placed, plain⟩ := mod.execute_of_launched launched
  rw [placed, plain]
  exact if_pos settles

theorem not_takes_of_unmapped (unmapped : Unmapped (pcb_idx_address i)) : ¬mod.Takes i := by
  intro takes
  have below := takes.below
  rw [Unmapped, pcb_idx_address, TERM, TERM_SIZE, PCB_IDX] at unmapped
  rw [pcb_idx_address, TERM, TERM_SIZE, PCB_IDX] at below
  omega

/-- An index whose store finds no page ends the start with a page fault. -/
theorem execute_of_unmapped
    (launched : kernel.launched image frame command = some (slot, line))
    (saves : 2 < slot.val → mod.Saves (kernel.schedule_arr kernel.console.cur_term_idx))
    (unmapped : Unmapped (pcb_idx_address (scan_command line).i)) :
    ∃ next, mod.execute image kernel frame command = some (.fault, next) := by
  obtain ⟨cur_dentry, placed, -⟩ := mod.execute_of_launched launched
  rw [placed, start_process, if_neg fun settles => not_takes_of_unmapped unmapped settles.1]
  split_ifs with no_parent in_order
  · exact ⟨_, rfl⟩
  · exact ⟨_, rfl⟩
  · exact absurd ⟨saves, unmapped⟩ in_order

/-- Otherwise it starts nothing: if it ends at all, it faults with its slot taken. -/
theorem execute_of_not_settles
    (launched : kernel.launched image frame command = some (slot, line))
    (strays : ¬mod.Settles kernel slot (scan_command line).i)
    (result : mod.execute image kernel frame command = some (outcome, next)) :
    outcome = .fault ∧ next.process_arr = store kernel.process_arr slot 1 := by
  obtain ⟨cur_dentry, placed, -⟩ := mod.execute_of_launched launched
  rw [placed] at result
  rcases start_process_cases result with ⟨settles, -⟩ | ⟨-, fault, marked⟩
  · exact absurd settles strays
  · exact ⟨fault, marked⟩

theorem execute_shell (mod : BootModule) (image : Image) {kernel : Kernel} (frame : Frame)
    (early : ∀ slot ∈ kernel.free_slot, slot.val ≤ 2) :
    mod.execute image kernel frame (some shell) =
      some (ComputerSystem.execute image kernel frame (some shell)) := by
  cases launched : kernel.launched image frame (some shell) with
  | none => exact execute_of_not_launched launched
  | some process =>
      obtain ⟨slot, line⟩ := process
      obtain ⟨free, line_eq, -⟩ := Kernel.launched_eq_some_iff.mp launched
      cases line_eq
      have first := early slot free
      refine execute_of_settles launched ⟨mod.takes_of_le ?_, fun late => ?_⟩
      · rw [scan_shell]
        decide
      · exact absurd late (not_lt.mpr first)

/-- The shell that `real_halt` starts in place of one of the first three processes strays nowhere:
the slot that was given up is free, so it comes into one of the first three. -/
theorem execute_released (mod : BootModule) (image : Image) {kernel : Kernel} {r : Fin 6}
    (pid : (kernel.pcb (pcbAddress r)).pid = r) (first : r.val ≤ 2) (message : String)
    (frame : Frame) :
    mod.execute image ((kernel.release (pcbAddress r)).printf message) frame (some shell) =
      some (ComputerSystem.execute image ((kernel.release (pcbAddress r)).printf message) frame
        (some shell)) := by
  apply execute_shell
  intro slot free
  rw [((kernel.release (pcbAddress r)).kept_printf message).free_slot] at free
  have busy := (Kernel.free_slot_spec free).2
  by_contra late
  have live := busy r (by omega)
  exact ((Kernel.release_live_iff pid r).mp live).1 rfl

end Start

end BootModule

end ComputerSystem
