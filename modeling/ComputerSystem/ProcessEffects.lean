import ComputerSystem.DescriptorTable
import ComputerSystem.Process

/-!
# What starting and ending a process do

One lemma for each of the ways `execute` and `real_halt` can go, with everything they change.
-/

namespace ComputerSystem

open CArray Word

/-! ## Terminal output -/

namespace Console

/-- Terminal output changes the screen and the cursors only. -/
structure Redrawn (console next : Console) : Prop where
  /-- The processes of the terminals stay. -/
  pcb_idx : ∀ t, (next.term t).pcb_idx = (console.term t).pcb_idx
  /-- Nothing is stored behind `term`. -/
  term_overrun : next.term_overrun = console.term_overrun
  /-- The terminal on display stays. -/
  cur_term_idx : next.cur_term_idx = console.cur_term_idx

theorem Redrawn.refl (console : Console) : console.Redrawn console := ⟨fun _ => rfl, rfl, rfl⟩

theorem Redrawn.trans {first second third : Console} (head : first.Redrawn second)
    (tail : second.Redrawn third) : first.Redrawn third where
  pcb_idx t := (tail.pcb_idx t).trans (head.pcb_idx t)
  term_overrun := tail.term_overrun.trans head.term_overrun
  cur_term_idx := tail.cur_term_idx.trans head.cur_term_idx

theorem Redrawn.screen {console next : Console} (redrawn : console.Redrawn next)
    (screen : Screen) : console.Redrawn { next with screen } :=
  ⟨redrawn.pcb_idx, redrawn.term_overrun, redrawn.cur_term_idx⟩

theorem Redrawn.scroll_up_switch {console next : Console} (redrawn : console.Redrawn next)
    (background : Fin 3) : console.Redrawn (next.scroll_up_switch background) :=
  redrawn.screen _

theorem Redrawn.modifyTerm {console next : Console} (redrawn : console.Redrawn next) (t : Fin 3)
    {f : Term → Term} (kept : (f (next.term t)).pcb_idx = (next.term t).pcb_idx) :
    console.Redrawn (next.modifyTerm t f) where
  pcb_idx k := by
    rw [← redrawn.pcb_idx k]
    simp only [Console.modifyTerm, Function.update_apply]
    split_ifs with same
    · rw [same, kept]
    · rfl
  term_overrun := redrawn.term_overrun
  cur_term_idx := redrawn.cur_term_idx

theorem redrawn_putc_background (console : Console) (background : Fin 3) (c : UInt8) :
    console.Redrawn (console.putc_background background c) := by
  simp only [putc_background]
  set wrapped : Console :=
    if (console.term background).term_screen_x = NUM_COLS ∧
        (console.term background).term_screen_y < NUM_ROWS - 1 then
      console.modifyTerm background fun term =>
        { term with
          term_screen_x := 0
          term_screen_y := (console.term background).term_screen_y + 1 }
    else console with wrapped_eq
  have redrawn : console.Redrawn wrapped := by
    rw [wrapped_eq]
    split_ifs
    · exact (Redrawn.refl console).modifyTerm _ rfl
    · exact Redrawn.refl _
  split_ifs
  · exact (redrawn.modifyTerm _ rfl).scroll_up_switch _
  · exact redrawn.modifyTerm _ rfl
  · exact (((redrawn.screen _).modifyTerm _ rfl).scroll_up_switch _).modifyTerm _ rfl
  · exact (redrawn.screen _).modifyTerm _ rfl

theorem redrawn_putc (console : Console) (c : UInt8) : console.Redrawn (console.putc c) := by
  rw [putc]
  split
  · exact Redrawn.refl _
  · split_ifs
    · exact (Redrawn.refl console).screen _
    · exact redrawn_putc_background _ _ _

theorem redrawn_puts (console : Console) (s : List UInt8) : console.Redrawn (console.puts s) := by
  induction s generalizing console with
  | nil => exact Redrawn.refl _
  | cons c s ih => exact (redrawn_putc console c).trans (ih (console.putc c))

end Console

/-! ## Addresses and single updates -/

theorem pcbAddress_injective : ∀ {p q : Fin 6}, pcbAddress p = pcbAddress q → p = q := by decide

theorem pcbAddress_ne {p q : Fin 6} (ne : p ≠ q) : pcbAddress p ≠ pcbAddress q :=
  mt pcbAddress_injective ne

theorem pcbAddress_ne_zero : ∀ p : Fin 6, pcbAddress p ≠ 0 := by decide

theorem get_cur_pcb_stackTop : ∀ p : Fin 6, get_cur_pcb (stackTop p) = pcbAddress p := by decide

namespace Kernel

/-- A process exists. -/
def Live (kernel : Kernel) (p : Fin 6) : Prop := kernel.process_arr p = 1

instance (kernel : Kernel) (p : Fin 6) : Decidable (kernel.Live p) :=
  inferInstanceAs (Decidable (_ = _))

@[simp]
theorem modifyPcb_same (kernel : Kernel) (address : Nat) (f : Pcb → Pcb) :
    (kernel.modifyPcb address f).pcb address = f (kernel.pcb address) :=
  Function.update_self _ _ _

theorem modifyPcb_of_ne (kernel : Kernel) {address other : Nat} (f : Pcb → Pcb)
    (ne : other ≠ address) : (kernel.modifyPcb address f).pcb other = kernel.pcb other :=
  Function.update_of_ne ne _ _

theorem modifyPcb_pcb (kernel : Kernel) (address other : Nat) (f : Pcb → Pcb) :
    (kernel.modifyPcb address f).pcb other =
      if other = address then f (kernel.pcb address) else kernel.pcb other :=
  Function.update_apply _ _ _ _

@[simp]
theorem modifyPcb_process_arr (kernel : Kernel) (address : Nat) (f : Pcb → Pcb) :
    (kernel.modifyPcb address f).process_arr = kernel.process_arr := rfl

@[simp]
theorem modifyPcb_schedule_arr (kernel : Kernel) (address : Nat) (f : Pcb → Pcb) :
    (kernel.modifyPcb address f).schedule_arr = kernel.schedule_arr := rfl

@[simp]
theorem modifyPcb_console (kernel : Kernel) (address : Nat) (f : Pcb → Pcb) :
    (kernel.modifyPcb address f).console = kernel.console := rfl

theorem modifyConsole_console (kernel : Kernel) (f : Console → Console) :
    (kernel.modifyConsole f).console = f kernel.console := rfl

theorem paging_set_up_console (kernel : Kernel) (pid : Int) :
    (kernel.paging_set_up pid).console = kernel.console := rfl

theorem paging_set_up_pcb (kernel : Kernel) (pid : Int) :
    (kernel.paging_set_up pid).pcb = kernel.pcb := rfl

theorem paging_set_up_frame (kernel : Kernel) (p : Fin 6) :
    ((kernel.paging_set_up p).page_dir 32).Addr31_12 = 0x800 + 0x400 * p.val := by
  have frame_eq : ∀ p : Fin 6,
      toUnsigned (0x800 + 0x400 * (p : Int)) % 2 ^ 20 = 0x800 + 0x400 * p.val := by decide
  simp only [paging_set_up, Function.update_self, frame_eq p]

@[simp]
theorem task_fdt (kernel : Kernel) (address : Nat) :
    (kernel.task address).fdt = (kernel.pcb address).fdt := rfl

theorem setTask_pcb_same (kernel : Kernel) (address : Nat) (task : Task) :
    (kernel.setTask address task).pcb address =
      { kernel.pcb address with fdt := task.fdt } :=
  kernel.modifyPcb_same address fun pcb => { pcb with fdt := task.fdt }

theorem setTask_pcb_of_ne (kernel : Kernel) {address other : Nat} (task : Task)
    (ne : other ≠ address) : (kernel.setTask address task).pcb other = kernel.pcb other :=
  kernel.modifyPcb_of_ne (fun pcb => { pcb with fdt := task.fdt }) ne

theorem setTss_page_dir (kernel : Kernel) (pid : Int) :
    (kernel.setTss pid).page_dir = kernel.page_dir := rfl

theorem setTss_esp0 (kernel : Kernel) (pid : Int) :
    (kernel.setTss pid).tss.esp0 = stackTop pid := rfl

theorem setTss_pcb (kernel : Kernel) (pid : Int) : (kernel.setTss pid).pcb = kernel.pcb := rfl

theorem modifyPcb_modifyPcb (kernel : Kernel) (address : Nat) (f g : Pcb → Pcb) :
    (kernel.modifyPcb address f).modifyPcb address g =
      kernel.modifyPcb address fun pcb => g (f pcb) := by
  simp [modifyPcb]

theorem modifyPcb_self (kernel : Kernel) (address : Nat) :
    (kernel.modifyPcb address fun pcb => pcb) = kernel := by
  simp [modifyPcb]

theorem modifyPcb_congr (kernel : Kernel) (address : Nat) {f g : Pcb → Pcb}
    (agree : f (kernel.pcb address) = g (kernel.pcb address)) :
    kernel.modifyPcb address f = kernel.modifyPcb address g := by
  rw [modifyPcb, agree, modifyPcb]

theorem free_slot_spec {kernel : Kernel} {slot : Fin 6} (free : kernel.free_slot = some slot) :
    ¬kernel.Live slot ∧ ∀ p, p < slot → kernel.Live p := by
  have sorted : (List.finRange 6).Pairwise (· < ·) := by decide
  obtain ⟨not_live, busy⟩ := lowest_of_find? sorted free
  refine ⟨by simpa [Live] using not_live, ?_⟩
  intro p below
  simpa [Live] using busy p (List.mem_finRange p) below

end Kernel

/-! ## execute -/

/-- The scan of a command: the name, the argument, and the index it leaves behind. -/
structure Scan where
  /-- The name. -/
  name : List UInt8
  /-- The argument. -/
  argument : List UInt8
  /-- The index. -/
  i : Nat
  deriving DecidableEq

/-- The scan of a command. -/
def scan_command (command : List UInt8) : Scan :=
  let parsed := parse_command command 128 0 []
  let argument := if parsed.flag1 then argument_text command parsed.i else []
  { name := parsed.exe_command
    argument
    i :=
      if parsed.flag1 then parsed.i + argument_blanks command parsed.i + argument.length
      else parsed.i }

/-- What a started process leaves of the kernel; `i` is the index of the scan. -/
structure Started (kernel : Kernel) (frame : Frame) (slot : Fin 6) (i : Nat) (next : Kernel) :
    Prop where
  /-- The slot is taken. -/
  process_arr : next.process_arr = store kernel.process_arr slot 1
  /-- The index goes into `schedule_arr` at the terminal on display. -/
  schedule_arr : next.schedule_arr = store kernel.schedule_arr kernel.console.cur_term_idx i
  /-- The user page maps the frame of the process. -/
  page_dir : next.page_dir = (kernel.paging_set_up slot).page_dir
  /-- The kernel stack is that of the process. -/
  tss : next.tss = { ss0 := KERNEL_DS, esp0 := stackTop slot }
  /-- The index goes into `term` at itself. -/
  term : ∀ t, (next.console.term t).pcb_idx =
    if t.val = i then (i : Int) else (kernel.console.term t).pcb_idx
  /-- A store past the end of `term` is recorded. -/
  term_overrun : next.console.term_overrun = (kernel.console.term_overrun || decide (3 ≤ i))
  /-- The terminal on display stays. -/
  cur_term_idx : next.console.cur_term_idx = kernel.console.cur_term_idx
  /-- The PCB has the number of the slot. -/
  pid : (next.pcb (pcbAddress slot)).pid = slot
  /-- The PCB has stdin and stdout, and the other descriptors of the slot's last process. -/
  fdt : (next.pcb (pcbAddress slot)).fdt =
    set_up_io_file (kernel.pcb (pcbAddress slot)).fdt
  /-- The parent is the one `schedule_arr` names. -/
  parent : (next.pcb (pcbAddress slot)).parent =
    if slot.val ≤ 2 then 0
    else pcbAddress (kernel.schedule_arr kernel.console.cur_term_idx)
  /-- The frame is saved in the parent; no other PCB changes. -/
  pcb : ∀ a, a ≠ pcbAddress slot → next.pcb a =
    if 2 < slot.val ∧ a = pcbAddress (kernel.schedule_arr kernel.console.cur_term_idx) then
      { kernel.pcb a with esp := frame.esp, ebp := frame.ebp }
    else kernel.pcb a

theorem Kernel.initiate_pcb_eq (kernel : Kernel) (frame : Frame) (slot : Fin 6) :
    kernel.initiate_pcb frame slot =
      { kernel with pcb := (kernel.initiate_pcb frame slot).pcb } := by
  simp only [initiate_pcb]
  split <;> rfl

theorem Kernel.initiate_pcb_later (kernel : Kernel) (frame : Frame) {slot : Fin 6}
    (later : ¬slot.val ≤ 2) :
    let parent := pcbAddress (kernel.schedule_arr kernel.console.cur_term_idx)
    kernel.initiate_pcb frame slot =
      (kernel.modifyPcb (pcbAddress slot) fun pcb => { pcb with pid := slot, parent }).modifyPcb
        parent fun pcb => { pcb with esp := frame.esp, ebp := frame.ebp } := by
  simp only [initiate_pcb, if_neg later, modifyPcb_schedule_arr, modifyPcb_console,
    modifyPcb_modifyPcb]

theorem Kernel.initiate_pcb_slot (kernel : Kernel) (frame : Frame) (slot : Fin 6) :
    let pcb := (kernel.initiate_pcb frame slot).pcb (pcbAddress slot)
    pcb.pid = slot ∧ pcb.fdt = (kernel.pcb (pcbAddress slot)).fdt ∧
      pcb.parent = if slot.val ≤ 2 then 0
        else pcbAddress (kernel.schedule_arr kernel.console.cur_term_idx) := by
  by_cases first : slot.val ≤ 2
  · simp [initiate_pcb, first]
  · rw [kernel.initiate_pcb_later frame first, if_neg first]
    generalize pcbAddress slot = address
    generalize pcbAddress (kernel.schedule_arr kernel.console.cur_term_idx) = parent
    rcases eq_or_ne address parent with rfl | other
    · simp
    · simp [modifyPcb_of_ne _ _ other]

theorem Kernel.initiate_pcb_other (kernel : Kernel) (frame : Frame) {slot : Fin 6} {a : Nat}
    (other : a ≠ pcbAddress slot) :
    (kernel.initiate_pcb frame slot).pcb a =
      if 2 < slot.val ∧ a = pcbAddress (kernel.schedule_arr kernel.console.cur_term_idx) then
        { kernel.pcb a with esp := frame.esp, ebp := frame.ebp }
      else kernel.pcb a := by
  by_cases first : slot.val ≤ 2
  · have not_later : ¬2 < slot.val := by omega
    simp [initiate_pcb, first, not_later, modifyPcb_of_ne, other]
  · have later : 2 < slot.val := by omega
    simp only [kernel.initiate_pcb_later frame first, later, true_and]
    generalize pcbAddress (kernel.schedule_arr kernel.console.cur_term_idx) = parent
    rcases eq_or_ne a parent with rfl | unsaved
    · simp [modifyPcb_of_ne _ _ other]
    · rw [modifyPcb_of_ne _ _ unsaved, modifyPcb_of_ne _ _ other, if_neg unsaved]

/-- Loading a program takes the slot, maps its page and writes memory. -/
structure Kernel.Loaded (kernel : Kernel) (slot : Fin 6) (next : Kernel) : Prop where
  /-- The slot is taken. -/
  process_arr : next.process_arr = store kernel.process_arr slot 1
  /-- The processes of the terminals stay. -/
  schedule_arr : next.schedule_arr = kernel.schedule_arr
  /-- The PCBs stay. -/
  pcb : next.pcb = kernel.pcb
  /-- The page of the slot is mapped. -/
  page_dir : next.page_dir = (kernel.paging_set_up slot).page_dir
  /-- The terminals stay. -/
  term : next.console.term = kernel.console.term
  /-- The terminal on display stays. -/
  cur_term_idx : next.console.cur_term_idx = kernel.console.cur_term_idx
  /-- Nothing is stored behind `term`. -/
  term_overrun : next.console.term_overrun = kernel.console.term_overrun

theorem Kernel.load_program_spec (image : Image) (kernel : Kernel) (slot : Fin 6)
    (cur_dentry : Dentry) : kernel.Loaded slot (kernel.load_program image slot cur_dentry) := by
  simp only [load_program]
  generalize (read_data image cur_dentry.inode_index 0 FOURTY_KB).2 = bytes
  refine ⟨rfl, rfl, rfl, rfl, ?_, ?_, ?_⟩
  all_goals
    rw [modifyConsole_console, paging_set_up_console]
    rfl

theorem Kernel.Loaded.started {kernel loaded : Kernel} {slot : Fin 6}
    (load : kernel.Loaded slot loaded) (frame : Frame) (i : Nat) :
    Started kernel frame slot i
      ((((loaded.initiate_pcb frame slot).record_index i).modifyPcb (pcbAddress slot) fun pcb =>
        { pcb with fdt := set_up_io_file pcb.fdt }).setTss slot) := by
  have slot_pcb := loaded.initiate_pcb_slot frame slot
  have other_pcb (a : Nat) (other : a ≠ pcbAddress slot) := loaded.initiate_pcb_other frame other
  rw [Kernel.initiate_pcb_eq]
  generalize (loaded.initiate_pcb frame slot).pcb = pcb at slot_pcb other_pcb
  rw [load.pcb, load.schedule_arr, load.cur_term_idx] at slot_pcb
  simp only [load.pcb, load.schedule_arr, load.cur_term_idx] at other_pcb
  obtain ⟨pid_eq, fdt_eq, parent_eq⟩ := slot_pcb
  refine
    { process_arr := load.process_arr
      schedule_arr := ?_
      page_dir := load.page_dir
      tss := rfl
      term := fun t => ?_
      term_overrun := ?_
      cur_term_idx := load.cur_term_idx
      pid := ?_
      fdt := ?_
      parent := ?_
      pcb := fun a other => ?_ }
  · rw [← load.schedule_arr, ← load.cur_term_idx]
    rfl
  · rw [← load.term]
    exact apply_ite Term.pcb_idx (t.val = i) _ _
  · rw [← load.term_overrun]
    rfl
  · rw [setTss_pcb, modifyPcb_same]
    exact pid_eq
  · rw [setTss_pcb, modifyPcb_same]
    exact congrArg set_up_io_file fdt_eq
  · rw [setTss_pcb, modifyPcb_same]
    exact parent_eq
  · rw [setTss_pcb, modifyPcb_of_ne _ _ other]
    exact other_pcb a other

theorem start_process_spec (image : Image) (kernel : Kernel) (frame : Frame) (slot : Fin 6)
    (cur_dentry : Dentry) (i : Nat) :
    ∃ entry_point next,
      start_process image kernel frame slot cur_dentry i = (.started slot entry_point, next) ∧
        Started kernel frame slot i next := by
  have load := kernel.load_program_spec image slot cur_dentry
  simp only [start_process]
  generalize kernel.load_program image slot cur_dentry = loaded at load
  exact ⟨_, _, rfl, load.started frame i⟩

namespace Kernel

/-- Nothing changes but arguments of commands and what the terminals show. -/
structure Kept (kernel next : Kernel) : Prop where
  /-- The slots in use stay. -/
  process_arr : next.process_arr = kernel.process_arr
  /-- The processes of the terminals stay. -/
  schedule_arr : next.schedule_arr = kernel.schedule_arr
  /-- The mappings stay. -/
  page_dir : next.page_dir = kernel.page_dir
  /-- The kernel stack stays. -/
  tss : next.tss = kernel.tss
  /-- The console is at most redrawn. -/
  console : kernel.console.Redrawn next.console
  /-- The PCBs stay, but for arguments. -/
  pcb : ∀ a, ∃ argument, next.pcb a = { kernel.pcb a with argument }

theorem kept_refl (kernel : Kernel) : kernel.Kept kernel where
  process_arr := rfl
  schedule_arr := rfl
  page_dir := rfl
  tss := rfl
  console := Console.Redrawn.refl _
  pcb _ := ⟨_, rfl⟩

theorem kept_printf (kernel : Kernel) (text : String) : kernel.Kept (kernel.printf text) where
  process_arr := rfl
  schedule_arr := rfl
  page_dir := rfl
  tss := rfl
  console := Console.redrawn_puts _ _
  pcb _ := ⟨_, rfl⟩

theorem kept_argument (kernel : Kernel) (address : Nat)
    (f : (Fin 128 → UInt8) → Fin 128 → UInt8) :
    kernel.Kept (kernel.modifyPcb address fun pcb => { pcb with argument := f pcb.argument }) where
  process_arr := rfl
  schedule_arr := rfl
  page_dir := rfl
  tss := rfl
  console := Console.Redrawn.refl _
  pcb a := by
    rw [modifyPcb_pcb]
    split_ifs with same
    · subst same
      exact ⟨_, rfl⟩
    · exact ⟨_, rfl⟩

theorem Kept.trans {first second third : Kernel} (head : first.Kept second)
    (tail : second.Kept third) : first.Kept third where
  process_arr := tail.process_arr.trans head.process_arr
  schedule_arr := tail.schedule_arr.trans head.schedule_arr
  page_dir := tail.page_dir.trans head.page_dir
  tss := tail.tss.trans head.tss
  console := head.console.trans tail.console
  pcb a := by
    obtain ⟨_, head_eq⟩ := head.pcb a
    obtain ⟨argument, tail_eq⟩ := tail.pcb a
    exact ⟨argument, by rw [tail_eq, head_eq]⟩

end Kernel

theorem Started.live_iff {kernel next : Kernel} {frame : Frame} {slot : Fin 6} {i : Nat}
    (started : Started kernel frame slot i next) (p : Fin 6) :
    next.Live p ↔ p = slot ∨ kernel.Live p := by
  rw [Kernel.Live, started.process_arr, store_fin, Kernel.Live]
  by_cases same : p = slot <;> simp [same]

/-- The PCBs of the other processes keep numbers, parents and descriptors. -/
theorem Started.other_kept {kernel next : Kernel} {frame : Frame} {slot : Fin 6} {i : Nat}
    (started : Started kernel frame slot i next) {p : Fin 6} (other : p ≠ slot) :
    (next.pcb (pcbAddress p)).pid = (kernel.pcb (pcbAddress p)).pid ∧
      (next.pcb (pcbAddress p)).parent = (kernel.pcb (pcbAddress p)).parent ∧
      (next.pcb (pcbAddress p)).fdt = (kernel.pcb (pcbAddress p)).fdt := by
  rw [started.pcb (pcbAddress p) (pcbAddress_ne other)]
  split_ifs <;> exact ⟨rfl, rfl, rfl⟩

theorem Started.of_argument {kernel : Kernel} {frame : Frame} {slot : Fin 6} {i : Nat}
    {next : Kernel} (f : (Fin 128 → UInt8) → Fin 128 → UInt8)
    (started : Started (kernel.modifyPcb (pcbAddress slot) fun pcb =>
      { pcb with argument := f pcb.argument }) frame slot i next) :
    Started kernel frame slot i next where
  process_arr := started.process_arr
  schedule_arr := started.schedule_arr
  page_dir := started.page_dir
  tss := started.tss
  term := started.term
  term_overrun := started.term_overrun
  cur_term_idx := started.cur_term_idx
  pid := started.pid
  fdt := by rw [started.fdt, Kernel.modifyPcb_same]
  parent := started.parent
  pcb a other := by
    rw [started.pcb a other, Kernel.modifyPcb_of_ne _ _ other]
    rfl

theorem execute_of_no_slot (image : Image) {kernel : Kernel} (frame : Frame)
    (busy : kernel.free_slot = none) (command : Option (List UInt8)) :
    execute image kernel frame command = (.returned 0, kernel.printf
      "Hushen: There are already 6 processes running, cannot open new process\n") := by
  rw [execute, busy]

theorem execute_of_free_slot (image : Image) {kernel : Kernel} (frame : Frame) {slot : Fin 6}
    (free : kernel.free_slot = some slot) (line : List UInt8) :
    let scan := scan_command line
    let stored := kernel.modifyPcb (pcbAddress slot) fun pcb =>
      { pcb with argument := store_argument pcb.argument scan.argument }
    execute image kernel frame (some line) =
      match check_executable image frame scan.name with
      | none => (.returned (-1), stored)
      | some cur_dentry => start_process image stored frame slot cur_dentry scan.i := by
  simp only [execute, free]
  rfl

/-- The process that a call of `execute` starts, if any: its slot and its command. -/
def Kernel.launched (image : Image) (kernel : Kernel) (frame : Frame)
    (command : Option (List UInt8)) : Option (Fin 6 × List UInt8) :=
  kernel.free_slot.bind fun slot => command.bind fun line =>
    if check_executable image frame (scan_command line).name = none then none else some (slot, line)

theorem Kernel.launched_eq_some_iff {image : Image} {kernel : Kernel} {frame : Frame}
    {command : Option (List UInt8)} {slot : Fin 6} {line : List UInt8} :
    kernel.launched image frame command = some (slot, line) ↔
      kernel.free_slot = some slot ∧ command = some line ∧
        check_executable image frame (scan_command line).name ≠ none := by
  simp only [launched, Option.bind_eq_some_iff, Option.ite_none_left_eq_some, Option.some.injEq,
    Prod.mk.injEq]
  constructor
  · rintro ⟨_, free, _, line_eq, checked, rfl, rfl⟩
    exact ⟨free, line_eq, checked⟩
  · rintro ⟨free, line_eq, checked⟩
    exact ⟨slot, free, line, line_eq, checked, rfl, rfl⟩

theorem execute_launched {image : Image} {kernel : Kernel} {frame : Frame}
    {command : Option (List UInt8)} {slot : Fin 6} {line : List UInt8}
    (launched : kernel.launched image frame command = some (slot, line)) :
    ∃ entry_point next, execute image kernel frame command = (.started slot entry_point, next) ∧
      Started kernel frame slot (scan_command line).i next := by
  obtain ⟨free, rfl, checked⟩ := Kernel.launched_eq_some_iff.mp launched
  obtain ⟨cur_dentry, dentry_eq⟩ := Option.ne_none_iff_exists'.mp checked
  rw [execute_of_free_slot image frame free, dentry_eq]
  obtain ⟨entry_point, next, result, started⟩ :=
    start_process_spec image _ frame slot cur_dentry (scan_command line).i
  exact ⟨entry_point, next, result, started.of_argument fun argument =>
    store_argument argument (scan_command line).argument⟩

theorem execute_not_launched {image : Image} {kernel : Kernel} {frame : Frame}
    {command : Option (List UInt8)} (not_launched : kernel.launched image frame command = none) :
    ∃ next, execute image kernel frame command =
      (.returned (if kernel.free_slot = none then 0 else -1), next) ∧ kernel.Kept next := by
  cases free : kernel.free_slot with
  | none =>
      rw [execute_of_no_slot image frame free, if_pos rfl]
      exact ⟨_, rfl, kernel.kept_printf _⟩
  | some slot =>
      rw [if_neg (Option.some_ne_none slot)]
      cases command with
      | none =>
          rw [execute, free]
          exact ⟨kernel, rfl, kernel.kept_refl⟩
      | some line =>
          have checked : check_executable image frame (scan_command line).name = none := by
            by_contra found
            rw [Kernel.launched_eq_some_iff.mpr ⟨free, rfl, found⟩] at not_launched
            cases not_launched
          rw [execute_of_free_slot image frame free, checked]
          exact ⟨_, rfl, kernel.kept_argument _ fun argument =>
            store_argument argument (scan_command line).argument⟩

/-- With a free slot the check of the executable decides. -/
theorem execute_free_cases (image : Image) {kernel : Kernel} (frame : Frame) {slot : Fin 6}
    (free : kernel.free_slot = some slot) (line : List UInt8) :
    (check_executable image frame (scan_command line).name = none ∧
      ∃ next, execute image kernel frame (some line) = (.returned (-1), next) ∧ kernel.Kept next) ∨
    (check_executable image frame (scan_command line).name ≠ none ∧
      ∃ entry_point next,
        execute image kernel frame (some line) = (.started slot entry_point, next) ∧
        Started kernel frame slot (scan_command line).i next) := by
  by_cases checked : check_executable image frame (scan_command line).name = none
  · have not_launched : kernel.launched image frame (some line) = none := by
      rw [Kernel.launched, free, Option.bind_some, Option.bind_some, if_pos checked]
    obtain ⟨next, result, kept⟩ := execute_not_launched not_launched
    rw [if_neg (free ▸ Option.some_ne_none slot)] at result
    exact Or.inl ⟨checked, next, result, kept⟩
  · have launched := Kernel.launched_eq_some_iff.mpr ⟨free, rfl, checked⟩
    exact Or.inr ⟨checked, execute_launched launched⟩

/-- The ways `execute` can go: it returns, or it starts a process in the lowest free slot. -/
theorem execute_cases (image : Image) (kernel : Kernel) (frame : Frame)
    (command : Option (List UInt8)) :
    (∃ next, execute image kernel frame command =
        (.returned (if kernel.free_slot = none then 0 else -1), next) ∧ kernel.Kept next) ∨
    ∃ slot line entry_point next, kernel.free_slot = some slot ∧ command = some line ∧
      check_executable image frame (scan_command line).name ≠ none ∧
      execute image kernel frame command = (.started slot entry_point, next) ∧
      Started kernel frame slot (scan_command line).i next := by
  cases launched : kernel.launched image frame command with
  | none => exact Or.inl (execute_not_launched launched)
  | some process =>
      obtain ⟨slot, line⟩ := process
      obtain ⟨free, line_eq, checked⟩ := Kernel.launched_eq_some_iff.mp launched
      obtain ⟨entry_point, next, result, started⟩ := execute_launched launched
      exact Or.inr ⟨slot, line, entry_point, next, free, line_eq, checked, result, started⟩

/-! ## halt -/

/-- A descriptor when `close` was called on it; one without a table stays as it is. -/
def Fd.closed (fd : Fd) : Fd :=
  if fd.file_operation_table_ptr = none then fd else { fd with flags := 0 }

theorem Fd.closed_of_free {fd : Fd} (free : fd.flags = 0) : fd.closed = fd := by
  rw [closed, ← free]
  exact ite_self fd

theorem Fd.closed_closed (fd : Fd) : fd.closed.closed = fd.closed := by
  by_cases table_eq : fd.file_operation_table_ptr = none <;> simp [closed, table_eq]

/-- A closed descriptor is free unless it had no table. -/
theorem Fd.closed_flags {fd : Fd} (has_table : fd.flags ≠ 0 → fd.file_operation_table_ptr ≠ none) :
    fd.closed.flags = 0 := by
  by_cases free : fd.flags = 0
  · rw [closed_of_free free, free]
  · rw [closed, if_neg (has_table free)]

/-- A PCB that `real_halt` gave up. -/
def Pcb.released (pcb : Pcb) : Pcb :=
  { pcb with
    fdt := fun fd => if fd.val < 2 then { pcb.fdt fd with flags := 0 } else (pcb.fdt fd).closed
    argument := fun _ => 0 }

theorem close_task (task : Task) {fd : Fin 8} (from_two : 2 ≤ fd) :
    (close task fd).task = task.setFd fd (task.fdt fd).closed := by
  have unchanged : task.setFd fd (task.fdt fd) = task := by
    rw [Task.setFd, Function.update_eq_self]
  by_cases free : (task.fdt fd).flags = 0
  · have closed (k : Fin 8) (same : (k : Int) = fd) (_ : 2 ≤ k) : ¬task.Open k := by
      rw [show k = fd by omega, Task.Open, not_not]
      exact free
    rw [close_closed closed, Fd.closed_of_free free, unchanged]
  · by_cases table_eq : (task.fdt fd).file_operation_table_ptr = none
    · have inside : 2 ≤ (fd : Int) ∧ (fd : Int) < 8 := by omega
      rw [Fd.closed, if_pos table_eq, unchanged]
      simp only [close, dif_pos inside, Int.toNat_natCast, Fin.eta, if_neg free, table_eq]
    · rw [close_open from_two free table_eq, Fd.closed, if_neg table_eq]

namespace Kernel

theorem close_file_eq (kernel : Kernel) (address : Nat) {fd : Fin 8} (from_two : 2 ≤ fd) :
    (if ((kernel.pcb address).fdt fd).flags ≠ 0 then
      kernel.setTask address (close (kernel.task address) fd).task
    else
      kernel) =
    kernel.modifyPcb address fun pcb =>
      { pcb with fdt := Function.update pcb.fdt fd (pcb.fdt fd).closed } := by
  split_ifs with in_use
  · rw [close_task _ from_two]
    rfl
  · rw [not_not] at in_use
    rw [kernel.modifyPcb_congr (g := fun pcb => pcb), modifyPcb_self]
    rw [Fd.closed_of_free in_use, Function.update_eq_self]

theorem close_loop_eq (address : Nat) {fds : List (Fin 8)} (from_two : ∀ fd ∈ fds, 2 ≤ fd)
    (kernel : Kernel) :
    fds.foldl
      (fun kernel fd_index =>
        if ((kernel.pcb address).fdt fd_index).flags ≠ 0 then
          kernel.setTask address (close (kernel.task address) fd_index).task
        else
          kernel)
      kernel =
    kernel.modifyPcb address fun pcb =>
      { pcb with fdt := fun fd => if fd ∈ fds then (pcb.fdt fd).closed else pcb.fdt fd } := by
  induction fds generalizing kernel with
  | nil =>
      simp only [List.foldl_nil, List.not_mem_nil, if_false]
      exact (kernel.modifyPcb_self address).symm
  | cons fd fds ih =>
      rw [List.forall_mem_cons] at from_two
      rw [List.foldl_cons, close_file_eq _ _ from_two.1, ih from_two.2, modifyPcb_modifyPcb]
      refine kernel.modifyPcb_congr address ?_
      congr 1
      funext k
      simp only [Function.update_apply, List.mem_cons]
      rcases eq_or_ne k fd with rfl | other
      · simp [Fd.closed_closed]
      · simp [other]

theorem release_eq (kernel : Kernel) (address : Nat) :
    kernel.release address =
      { kernel with
        process_arr := store kernel.process_arr (kernel.pcb address).pid 0 }.modifyPcb address
          Pcb.released := by
  simp only [release, close_files,
    close_loop_eq address fun _ => Task.two_le_of_mem_openable, modifyPcb_modifyPcb]
  refine modifyPcb_congr _ address ?_
  rw [Pcb.released]
  congr 1
  funext fd
  by_cases from_two : 2 ≤ fd
  · have not_lt : ¬fd.val < 2 := by omega
    simp [Task.mem_openable from_two, not_lt]
  · have lt : fd.val < 2 := by omega
    have not_mem : fd ∉ openable := fun mem => from_two (Task.two_le_of_mem_openable mem)
    simp [not_mem, lt]

theorem release_process_arr (kernel : Kernel) (address : Nat) :
    (kernel.release address).process_arr =
      store kernel.process_arr (kernel.pcb address).pid 0 := by
  rw [release_eq, modifyPcb_process_arr]

theorem release_live_iff {kernel : Kernel} {r : Fin 6}
    (pid : (kernel.pcb (pcbAddress r)).pid = r) (p : Fin 6) :
    (kernel.release (pcbAddress r)).Live p ↔ p ≠ r ∧ kernel.Live p := by
  rw [Live, release_process_arr, pid, store_fin, Live]
  by_cases same : p = r <;> simp [same]

@[simp]
theorem release_pcb_same (kernel : Kernel) (address : Nat) :
    (kernel.release address).pcb address = (kernel.pcb address).released := by
  rw [release_eq, modifyPcb_same]

theorem release_pcb_of_ne (kernel : Kernel) {address other : Nat} (ne : other ≠ address) :
    (kernel.release address).pcb other = kernel.pcb other := by
  rw [release_eq, modifyPcb_of_ne _ _ ne]

end Kernel

theorem Kernel.Kept.live_iff {kernel next : Kernel} (kept : kernel.Kept next) (p : Fin 6) :
    next.Live p ↔ kernel.Live p := by
  rw [Kernel.Live, kept.process_arr, Kernel.Live]

theorem Kernel.Kept.free_slot {kernel next : Kernel} (kept : kernel.Kept next) :
    next.free_slot = kernel.free_slot := by
  rw [Kernel.free_slot, Kernel.free_slot, kept.process_arr]

theorem Started.of_printf {kernel : Kernel} {message : String} {frame : Frame} {slot : Fin 6}
    {i : Nat} {next : Kernel} (started : Started (kernel.printf message) frame slot i next) :
    Started kernel frame slot i next := by
  have kept := kernel.kept_printf message
  exact
    { process_arr := started.process_arr
      schedule_arr := by rw [started.schedule_arr, kept.console.cur_term_idx]; rfl
      page_dir := started.page_dir
      tss := started.tss
      term := fun t => by rw [started.term, kept.console.pcb_idx]
      term_overrun := by rw [started.term_overrun, kept.console.term_overrun]
      cur_term_idx := by rw [started.cur_term_idx, kept.console.cur_term_idx]
      pid := started.pid
      fdt := started.fdt
      parent := by rw [started.parent, kept.console.cur_term_idx]; rfl
      pcb := fun a other => by rw [started.pcb a other, kept.console.cur_term_idx]; rfl }

theorem scan_shell : scan_command shell = ⟨shell, [], 5⟩ := by decide

theorem real_halt_later (image : Image) {kernel : Kernel} {esp : Nat} (frame : Frame)
    (status : Nat) (later : 2 < (kernel.pcb (get_cur_pcb esp)).pid) :
    real_halt image kernel esp frame status =
      (kernel.release (get_cur_pcb esp)).halt_return (get_cur_pcb esp) status := by
  rw [real_halt, if_neg (not_le.mpr later)]

/-- The process that a call of `real_halt` starts, if any: a shell in place of a process without a
parent. -/
def Kernel.relaunched (image : Image) (kernel : Kernel) (esp : Nat) (frame : Frame) :
    Option (Fin 6 × List UInt8) :=
  if (kernel.pcb (get_cur_pcb esp)).pid ≤ 2 then
    (kernel.release (get_cur_pcb esp)).launched image frame (some shell)
  else none

theorem Kernel.Kept.launched {kernel next : Kernel} (kept : kernel.Kept next) (image : Image)
    (frame : Frame) (command : Option (List UInt8)) :
    next.launched image frame command = kernel.launched image frame command := by
  rw [Kernel.launched, Kernel.launched, kept.free_slot]

theorem real_halt_relaunched {image : Image} {kernel : Kernel} {esp : Nat} {frame : Frame}
    {slot : Fin 6} {line : List UInt8}
    (relaunched : kernel.relaunched image esp frame = some (slot, line)) (status : Nat) :
    line = shell ∧ (kernel.release (get_cur_pcb esp)).free_slot = some slot ∧
    ∃ entry_point next,
      real_halt image kernel esp frame status = (.started slot entry_point, next) ∧
        Started (kernel.release (get_cur_pcb esp)) frame slot 5 next := by
  obtain ⟨first, launched⟩ := Option.ite_none_right_eq_some.mp relaunched
  obtain ⟨free, line_eq, -⟩ := Kernel.launched_eq_some_iff.mp launched
  cases line_eq
  refine ⟨rfl, free, ?_⟩
  simp only [real_halt, if_pos first]
  generalize kernel.release (get_cur_pcb esp) = released at launched
  generalize "Quiting last shell is prohibited by Xushen\n" = message
  rw [← (released.kept_printf message).launched] at launched
  obtain ⟨entry_point, next, result, started⟩ := execute_launched launched
  rw [result]
  rw [scan_shell] at started
  exact ⟨entry_point, next, rfl, started.of_printf⟩

theorem real_halt_not_relaunched {image : Image} {kernel : Kernel} {esp : Nat} {frame : Frame}
    (not_relaunched : kernel.relaunched image esp frame = none) (status : Nat) :
    ∃ failed, (kernel.release (get_cur_pcb esp)).Kept failed ∧
      real_halt image kernel esp frame status = failed.halt_return (get_cur_pcb esp) status := by
  rw [Kernel.relaunched] at not_relaunched
  split_ifs at not_relaunched with first
  · simp only [real_halt, if_pos first]
    generalize kernel.release (get_cur_pcb esp) = released at not_relaunched
    generalize "Quiting last shell is prohibited by Xushen\n" = message
    rw [← (released.kept_printf message).launched] at not_relaunched
    obtain ⟨failed, result, kept⟩ := execute_not_launched not_relaunched
    rw [result]
    exact ⟨failed, (released.kept_printf message).trans kept, rfl⟩
  · exact ⟨_, Kernel.kept_refl _, real_halt_later image frame status (not_le.mp first)⟩

/-- The ways `real_halt` can go: back to the parent, or into a shell. -/
theorem real_halt_cases (image : Image) {kernel : Kernel} {esp : Nat} (frame : Frame)
    (status : Nat) :
    (∃ failed, (kernel.release (get_cur_pcb esp)).Kept failed ∧
      real_halt image kernel esp frame status = failed.halt_return (get_cur_pcb esp) status) ∨
    ∃ slot entry_point next, (kernel.release (get_cur_pcb esp)).free_slot = some slot ∧
      real_halt image kernel esp frame status = (.started slot entry_point, next) ∧
      Started (kernel.release (get_cur_pcb esp)) frame slot 5 next := by
  cases relaunched : kernel.relaunched image esp frame with
  | none => exact Or.inl (real_halt_not_relaunched relaunched status)
  | some process =>
      obtain ⟨slot, line⟩ := process
      obtain ⟨-, free, entry_point, next, result, started⟩ := real_halt_relaunched relaunched status
      exact Or.inr ⟨slot, entry_point, next, free, result, started⟩

/-- What printing, `execute` and the return to the parent keep outlives `real_halt`, once it holds
of what the process left. -/
theorem real_halt_keeps {Inv : Kernel → Prop} {image : Image} {frame : Frame}
    (printed : ∀ kernel text, Inv kernel → Inv (kernel.printf text))
    (executed : ∀ kernel, Inv kernel → Inv (execute image kernel frame (some shell)).2)
    (returned : ∀ kernel address status, Inv kernel → Inv (kernel.halt_return address status).2)
    {kernel : Kernel} {esp : Nat} (released : Inv (kernel.release (get_cur_pcb esp)))
    (status : Nat) : Inv (real_halt image kernel esp frame status).2 := by
  by_cases first : (kernel.pcb (get_cur_pcb esp)).pid ≤ 2
  · have after := executed _ (printed _ "Quiting last shell is prohibited by Xushen\n" released)
    simp only [real_halt, if_pos first]
    generalize kernel.release (get_cur_pcb esp) = kernel at after
    generalize "Quiting last shell is prohibited by Xushen\n" = message at after
    generalize execute image (kernel.printf message) frame (some shell) = result at after
    obtain ⟨outcome, next⟩ := result
    cases outcome with
    | started slot entry_point => exact after
    | _ => exact returned _ _ _ after
  · rw [real_halt_later image frame status (not_le.mp first)]
    exact returned _ _ _ released

end ComputerSystem
