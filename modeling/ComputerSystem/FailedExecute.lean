import ComputerSystem.ArgumentBounds
import ComputerSystem.VirtualScreen

/-!
# When execute fails

`execute` gives up in four places: without a free slot, without a command, and when the name is not
found or is no executable.  By then it has at most printed a message or stored the argument in the
PCB of the free slot.
-/

namespace ComputerSystem

open CArray

/-! ## Terminal output and user memory -/

namespace Console

/-- The terminals are set up, and a process of one of them has the processor. -/
structure InUse (console : Console) : Prop where
  /-- The terminals are set up. -/
  laid : console.Laid
  /-- A turn has chosen one. -/
  selected : console.background_terminal ≠ none

theorem putc_eq_draw {console : Console} {background : Fin 3}
    (selected : console.background_terminal = some background) (c : UInt8) :
    console.putc c = console.draw (.putc background c) := by
  have same : { console with background_terminal := some background } = console := by
    rw [← selected]
  rw [draw, same]

/-- All screens lie below the user pages. -/
theorem Laid.page_le {console : Console} (laid : console.Laid) (t : Fin 3) :
    (console.page t + SCREEN_BYTES : Nat) ≤ EIGHT_MB := by
  have bytes : SCREEN_BYTES = 4000 := rfl
  rw [laid.page_eq, VIDEO, EIGHT_MB]
  split_ifs <;> omega

theorem putc_background_selected (console : Console) (background : Fin 3) (c : UInt8) :
    (console.putc_background background c).background_terminal = console.background_terminal := by
  rw [putc_background_eq]
  rfl

theorem InUse.putc {console : Console} (in_use : console.InUse) (c : UInt8) :
    (console.putc c).InUse ∧
      ∀ a : Nat, EIGHT_MB ≤ a → (console.putc c).screen.memory a = console.screen.memory a := by
  obtain ⟨background, selected⟩ := Option.ne_none_iff_exists'.mp in_use.selected
  have target : (ScreenEvent.putc background c).target console = some background := rfl
  have draws := in_use.laid.draws_on target
  rw [← putc_eq_draw selected] at draws
  refine ⟨⟨draws.laid, ?_⟩, ?_⟩
  · simp only [Console.putc, selected]
    split_ifs
    · exact Option.some_ne_none background
    · rw [putc_background_selected]
      exact in_use.selected
  · intro a above
    apply draws.memory
    have below := in_use.laid.page_le background
    omega

theorem InUse.puts {console : Console} (in_use : console.InUse) (s : List UInt8) :
    (console.puts s).InUse ∧
      ∀ a : Nat, EIGHT_MB ≤ a → (console.puts s).screen.memory a = console.screen.memory a := by
  induction s generalizing console with
  | nil => exact ⟨in_use, fun _ _ => rfl⟩
  | cons c s ih =>
      obtain ⟨next, first⟩ := in_use.putc c
      obtain ⟨last, rest⟩ := ih next
      exact ⟨last, fun a above => (rest a above).trans (first a above)⟩

theorem InUse.withMemory {console : Console} (in_use : console.InUse) (memory : Memory) :
    InUse { console with screen := { console.screen with memory } } :=
  ⟨⟨in_use.laid.video_mem, in_use.laid.live, in_use.laid.saved⟩, in_use.selected⟩

theorem InUse.storePcbIdx {console : Console} (in_use : console.InUse) (index : Nat) (pid : Int) :
    (console.storePcbIdx index pid).InUse := by
  refine ⟨⟨fun t => ?_, in_use.laid.live, fun t => ?_⟩, in_use.selected⟩
  · rw [← in_use.laid.video_mem t]
    simp only [Console.storePcbIdx]
    split_ifs <;> rfl
  · have saved := in_use.laid.saved t
    simp only [Console.storePcbIdx]
    split_ifs <;> exact saved

theorem laid_terminal_start {console : Console}
    (on_screen : OnScreen console.screen.screen_x console.screen.screen_y) :
    console.terminal_start.Laid where
  video_mem t := by
    fin_cases t <;> rfl
  live := on_screen
  saved _ := onScreen_zero (Nat.zero_le _)

end Console

theorem Kernel.take_turn_in_use {kernel : Kernel} (laid : kernel.console.Laid) (i : Fin 3) :
    (kernel.take_turn i).console.InUse := by
  apply Console.InUse.storePcbIdx
  exact ⟨⟨laid.video_mem, laid.live, laid.saved⟩, Option.some_ne_none i⟩

/-! ## Starts and the console -/

namespace Kernel

theorem printf_console (kernel : Kernel) (message : String) :
    (kernel.printf message).console =
      kernel.console.puts (message.toList.map fun c => c.toNat.toUInt8) := rfl

theorem setTss_console (kernel : Kernel) (pid : Int) :
    (kernel.setTss pid).console = kernel.console := rfl

theorem record_index_console (kernel : Kernel) (i : Nat) :
    (kernel.record_index i).console = kernel.console.storePcbIdx i i := rfl

theorem initiate_pcb_console (kernel : Kernel) (frame : Frame) (slot : Fin 6) :
    (kernel.initiate_pcb frame slot).console = kernel.console := by
  rw [initiate_pcb_eq]
  rfl

end Kernel

theorem start_process_in_use (image : Image) {kernel : Kernel} (in_use : kernel.console.InUse)
    (frame : Frame) (slot : Fin 6) (cur_dentry : Dentry) (i : Nat) :
    (start_process image kernel frame slot cur_dentry i).2.console.InUse := by
  have loaded : (kernel.load_program image slot cur_dentry).console.InUse := by
    simp only [Kernel.load_program]
    generalize (read_data image cur_dentry.inode_index 0 FOURTY_KB).2 = bytes
    rw [Kernel.modifyConsole_console, Kernel.paging_set_up_console]
    exact in_use.withMemory _
  simp only [start_process]
  generalize kernel.load_program image slot cur_dentry = kernel at loaded
  rw [Kernel.setTss_console, Kernel.modifyPcb_console, Kernel.record_index_console,
    Kernel.initiate_pcb_console]
  exact loaded.storePcbIdx i i

theorem execute_in_use (image : Image) {kernel : Kernel} (in_use : kernel.console.InUse)
    (frame : Frame) (command : Option (List UInt8)) :
    (execute image kernel frame command).2.console.InUse := by
  cases free : kernel.free_slot with
  | none =>
      rw [execute_of_no_slot image frame free]
      dsimp only
      rw [Kernel.printf_console]
      exact (in_use.puts _).1
  | some slot =>
      cases command with
      | none =>
          rw [execute, free]
          exact in_use
      | some line =>
          have stored := in_use
          rw [← Kernel.modifyPcb_console kernel (pcbAddress slot) fun pcb =>
            { pcb with argument := store_argument pcb.argument (scan_command line).argument }]
            at stored
          rw [execute_of_free_slot image frame free]
          cases check_executable image frame (scan_command line).name with
          | none => exact stored
          | some cur_dentry => exact start_process_in_use image stored frame slot cur_dentry _

/-! ## Failing calls -/

/-- Tables, live processes and user memory are the same. -/
structure Kernel.Untouched (kernel next : Kernel) : Prop where
  /-- The slots in use. -/
  process_arr : next.process_arr = kernel.process_arr
  /-- The processes of the terminals. -/
  schedule_arr : next.schedule_arr = kernel.schedule_arr
  /-- Their copies in `term`. -/
  pcb_idx : ∀ t, (next.console.term t).pcb_idx = (kernel.console.term t).pcb_idx
  /-- The mappings. -/
  page_dir : next.page_dir = kernel.page_dir
  /-- The kernel stack. -/
  tss : next.tss = kernel.tss
  /-- PCBs of live processes. -/
  live : ∀ p, kernel.Live p → next.pcb (pcbAddress p) = kernel.pcb (pcbAddress p)
  /-- Frames of user pages. -/
  user_memory : ∀ a : Nat, EIGHT_MB ≤ a → next.memory a = kernel.memory a

namespace Kernel

theorem untouched_refl (kernel : Kernel) : kernel.Untouched kernel where
  process_arr := rfl
  schedule_arr := rfl
  pcb_idx _ := rfl
  page_dir := rfl
  tss := rfl
  live _ _ := rfl
  user_memory _ _ := rfl

theorem untouched_printf {kernel : Kernel} (in_use : kernel.console.InUse) (message : String) :
    kernel.Untouched (kernel.printf message) where
  process_arr := (kernel.kept_printf message).process_arr
  schedule_arr := (kernel.kept_printf message).schedule_arr
  pcb_idx := (kernel.kept_printf message).console.pcb_idx
  page_dir := (kernel.kept_printf message).page_dir
  tss := (kernel.kept_printf message).tss
  live p _ := by rw [printf_pcb]
  user_memory a above := by
    rw [memory, memory, printf_console]
    exact (in_use.puts _).2 a above

theorem untouched_modifyPcb {kernel : Kernel} {slot : Fin 6} (unused : ¬kernel.Live slot)
    (f : Pcb → Pcb) : kernel.Untouched (kernel.modifyPcb (pcbAddress slot) f) where
  process_arr := rfl
  schedule_arr := rfl
  pcb_idx _ := rfl
  page_dir := rfl
  tss := rfl
  live p live := by
    apply kernel.modifyPcb_of_ne
    intro same
    exact unused (pcbAddress_injective same ▸ live)
  user_memory _ _ := rfl

/-- Nothing was altered but the screen, or the argument of a slot that is free. -/
def AlteredAtMost (kernel next : Kernel) : Prop :=
  next = kernel ∨ (∃ message, next = kernel.printf message) ∨
    ∃ slot argument, ¬kernel.Live slot ∧
      next = kernel.modifyPcb (pcbAddress slot) fun pcb => { pcb with argument }

end Kernel

theorem failed_execute_cases {image : Image} {kernel next : Kernel} {frame : Frame}
    {command : Option (List UInt8)} {result : Int}
    (failed : execute image kernel frame command = (.returned result, next)) :
    (kernel.free_slot = none ∧ next = kernel.printf
      "Hushen: There are already 6 processes running, cannot open new process\n") ∨
    (command = none ∧ next = kernel) ∨
    ∃ slot line, kernel.free_slot = some slot ∧ command = some line ∧
      next = kernel.modifyPcb (pcbAddress slot) fun pcb =>
        { pcb with argument := store_argument pcb.argument (scan_command line).argument } := by
  cases free : kernel.free_slot with
  | none =>
      rw [execute_of_no_slot image frame free] at failed
      exact Or.inl ⟨rfl, (Prod.mk.inj failed).2.symm⟩
  | some slot =>
      cases command with
      | none =>
          rw [execute, free] at failed
          exact Or.inr (Or.inl ⟨rfl, (Prod.mk.inj failed).2.symm⟩)
      | some line =>
          rw [execute_of_free_slot image frame free] at failed
          cases checked : check_executable image frame (scan_command line).name with
          | none =>
              rw [checked] at failed
              exact Or.inr (Or.inr ⟨slot, line, rfl, rfl, (Prod.mk.inj failed).2.symm⟩)
          | some cur_dentry =>
              rw [checked] at failed
              obtain ⟨entry_point, last, result_eq, -⟩ := start_process_spec image
                (kernel.modifyPcb (pcbAddress slot) fun pcb =>
                  { pcb with argument := store_argument pcb.argument (scan_command line).argument })
                frame slot cur_dentry (scan_command line).i
              have started := (Prod.mk.inj (result_eq.symm.trans failed)).1
              exact absurd started Outcome.noConfusion

/-- The stores into the argument stay within it when the argument of the command fits. -/
theorem argument_stores_lt {kernel : Kernel} {command : Option (List UInt8)}
    (fits : ∀ line ∈ command, first_word line ≠ [] ∧ (argument_part line).length ≤ 127) :
    ∀ i ∈ kernel.argument_stores command, i < 128 := by
  cases free : kernel.free_slot with
  | none =>
      simp only [Kernel.argument_stores, free]
      exact fun i mem => absurd mem List.not_mem_nil
  | some slot =>
      cases command with
      | none =>
          simp only [Kernel.argument_stores, free]
          exact fun i mem => absurd mem List.not_mem_nil
      | some line =>
          obtain ⟨word, short⟩ := fits line rfl
          rw [argument_part_eq, if_neg word] at short
          exact (stores_bounded_iff free).mpr fun _ => Nat.lt_succ_of_le short

/-- An `execute` that returns leaves tables, live processes and user memory as they were; it altered
at most the screen or, within its bounds, the argument in the PCB of a free slot. -/
theorem failed_execute_untouched (image : Image) (kernel next : Kernel) (frame : Frame)
    (command : Option (List UInt8)) (in_use : kernel.console.InUse)
    (fits : ∀ line ∈ command, first_word line ≠ [] ∧ (argument_part line).length ≤ 127)
    {result : Int} (failed : execute image kernel frame command = (.returned result, next)) :
    kernel.Untouched next ∧ kernel.AlteredAtMost next ∧
      ∀ i ∈ kernel.argument_stores command, i < 128 := by
  refine and_assoc.mp ⟨?_, argument_stores_lt fits⟩
  obtain ⟨-, rfl⟩ | ⟨-, rfl⟩ | ⟨slot, line, free, -, rfl⟩ := failed_execute_cases failed
  · exact ⟨Kernel.untouched_printf in_use _, Or.inr (Or.inl ⟨_, rfl⟩)⟩
  · exact ⟨next.untouched_refl, Or.inl rfl⟩
  · have unused := (Kernel.free_slot_spec free).1
    let argument :=
      store_argument (kernel.pcb (pcbAddress slot)).argument (scan_command line).argument
    refine ⟨Kernel.untouched_modifyPcb unused _, Or.inr (Or.inr ⟨slot, argument, unused, ?_⟩)⟩
    exact kernel.modifyPcb_congr _ rfl

/-- The image with a `shell` and an `ls` that are no programs. -/
def Image.plain : Image where
  byte offset := if offset = 8192 then 0 else Image.sample.byte offset

/-- A kernel in which six shells have been started. -/
def Kernel.crowded : Kernel :=
  (fun kernel => (execute Image.sample kernel Frame.zero (some shell)).2)^[6]
    (Kernel.boot.take_turn 0)

theorem Kernel.boot_in_use : (Kernel.boot.take_turn 0).console.InUse := by
  have laid : Kernel.boot.console.Laid :=
    Console.laid_terminal_start (onScreen_zero (Nat.zero_le (NUM_ROWS - 1)))
  exact Kernel.take_turn_in_use laid 0

theorem Kernel.crowded_in_use : Kernel.crowded.console.InUse :=
  Function.Iterate.rec (fun kernel : Kernel => kernel.console.InUse) boot_in_use
    (fun _ in_use => execute_in_use Image.sample in_use Frame.zero (some shell)) 6

/-- The four exits: no slot is free, there is no command, `x y` names no file, and `ls` is no
program. -/
theorem failed_execute_untouched_exits :
    let kernel := Kernel.boot.take_turn 0
    Kernel.crowded.Untouched (execute Image.sample Kernel.crowded Frame.zero (some shell)).2 ∧
      kernel.Untouched (execute Image.sample kernel Frame.zero none).2 ∧
      kernel.Untouched (execute Image.sample kernel Frame.zero (some [120, 32, 121])).2 ∧
      kernel.Untouched (execute Image.plain kernel Frame.zero (some [108, 115, 32, 97])).2 := by
  have in_use := Kernel.boot_in_use
  have no_slot : (execute Image.sample Kernel.crowded Frame.zero (some shell)).1 =
      .returned 0 := by decide +kernel
  have no_command : (execute Image.sample (Kernel.boot.take_turn 0) Frame.zero none).1 =
      .returned (-1) := by decide +kernel
  have no_file : (execute Image.sample (Kernel.boot.take_turn 0) Frame.zero
      (some [120, 32, 121])).1 = .returned (-1) := by decide +kernel
  have no_program : (execute Image.plain (Kernel.boot.take_turn 0) Frame.zero
      (some [108, 115, 32, 97])).1 = .returned (-1) := by decide +kernel
  exact
    ⟨(failed_execute_untouched Image.sample _ _ Frame.zero _ Kernel.crowded_in_use (by decide)
        (Prod.ext no_slot rfl)).1,
      (failed_execute_untouched Image.sample _ _ Frame.zero _ in_use (by decide)
        (Prod.ext no_command rfl)).1,
      (failed_execute_untouched Image.sample _ _ Frame.zero _ in_use (by decide)
        (Prod.ext no_file rfl)).1,
      (failed_execute_untouched Image.plain _ _ Frame.zero _ in_use (by decide)
        (Prod.ext no_program rfl)).1⟩

/-! ## The console of a running machine -/

theorem real_halt_in_use (image : Image) {kernel : Kernel} (in_use : kernel.console.InUse)
    (esp : Nat) (frame : Frame) (status : Nat) :
    (real_halt image kernel esp frame status).2.console.InUse := by
  apply @real_halt_keeps fun kernel => kernel.console.InUse
  · intro kernel message in_use
    rw [Kernel.printf_console]
    exact (in_use.puts _).1
  · intro kernel in_use
    exact execute_in_use image in_use frame _
  · intro kernel address status in_use
    simp only [Kernel.halt_return]
    split_ifs <;> exact in_use
  · rw [Kernel.release_eq]
    exact in_use

namespace Machine

/-- The terminals are set up, and one is selected as soon as a process runs. -/
structure Prepared (machine : Machine) : Prop where
  /-- The terminals are set up. -/
  laid : machine.kernel.console.Laid
  /-- A turn has chosen one before a process runs. -/
  selected : machine.running ≠ none → machine.kernel.console.background_terminal ≠ none

theorem prepared_of_in_use {machine : Machine} (in_use : machine.kernel.console.InUse) :
    machine.Prepared :=
  ⟨in_use.laid, fun _ => in_use.selected⟩

/-- Every call of `execute` finds the console in use. -/
theorem Prepared.executes {machine : Machine} (prepared : machine.Prepared) {event : MachineEvent}
    {kernel : Kernel} {frame : Frame} {command : Option (List UInt8)}
    (executes : machine.executes event = some (kernel, frame, command)) :
    kernel.console.InUse := by
  cases event with
  | turn frame =>
      simp only [Machine.executes] at executes
      split at executes
      · cases executes
      · obtain ⟨-, call_eq⟩ := Option.ite_none_right_eq_some.mp executes
        cases call_eq
        exact Kernel.take_turn_in_use prepared.laid _
  | execute frame command =>
      obtain ⟨⟨runs, -⟩, call_eq⟩ := Option.ite_none_right_eq_some.mp executes
      cases call_eq
      exact ⟨prepared.laid, prepared.selected runs⟩
  | _ => cases executes

theorem Prepared.ends {machine : Machine} (prepared : machine.Prepared) {event : MachineEvent}
    {c : Fin 6} {kernel : Kernel} {esp : Nat} {frame : Frame} {status : Nat}
    (ends : machine.ends event = some (c, kernel, esp, frame, status)) :
    kernel.console.InUse := by
  have runs := (ends_spec ends).1
  have in_use : machine.kernel.console.InUse :=
    ⟨prepared.laid, prepared.selected (runs ▸ Option.some_ne_none c)⟩
  cases event with
  | halt esp frame status =>
      obtain ⟨-, call⟩ := Option.ite_none_right_eq_some.mp ends
      obtain ⟨r, -, call_eq⟩ := Option.map_eq_some_iff.mp call
      cases call_eq
      exact in_use
  | exception message esp frame =>
      obtain ⟨-, call⟩ := Option.ite_none_right_eq_some.mp ends
      obtain ⟨r, -, call_eq⟩ := Option.map_eq_some_iff.mp call
      cases call_eq
      exact (in_use.puts _).1
  | _ => cases ends

theorem Prepared.passed {machine next : Machine} (prepared : machine.Prepared)
    {event : MachineEvent} (taken : machine.passed event = some next) : next.Prepared := by
  cases event with
  | tick =>
      obtain ⟨-, next_eq⟩ := Option.ite_none_right_eq_some.mp taken
      cases next_eq
      exact ⟨prepared.laid, prepared.selected⟩
  | turn frame =>
      rw [Machine.passed] at taken
      split at taken
      · cases taken
      · cases taken
        exact ⟨prepared.laid, prepared.selected⟩
  | switch t =>
      cases taken
      exact ⟨prepared.laid.terminal_switch t, prepared.selected⟩
  | _ => cases taken

theorem Prepared.step {image : Image} {machine next : Machine} (prepared : machine.Prepared)
    {event : MachineEvent} (taken : machine.step image event = some next) : next.Prepared := by
  rcases Machine.step_cases taken with ⟨kernel, frame, command, turns, home, executes, executed⟩ |
    ⟨c, kernel, esp, frame, status, -, ends, ended⟩ | ⟨-, -, passed⟩
  · apply prepared_of_in_use
    rw [executed_kernel executed]
    exact execute_in_use image (prepared.executes executes) frame command
  · apply prepared_of_in_use
    rw [ended_kernel ended]
    exact real_halt_in_use image (prepared.ends ends) esp frame status
  · exact prepared.passed passed

/-- In every run, every call of `execute` finds the terminals set up and one of them selected. -/
theorem executes_in_use (image : Image) {kernel : Kernel}
    (on_screen : OnScreen kernel.console.screen.screen_x kernel.console.screen.screen_y)
    (events : List MachineEvent) :
    ∀ machine ∈ Run.visited (step image) (start kernel) events, ∀ event found frame command,
      machine.executes event = some (found, frame, command) → found.console.InUse := by
  intro machine visited event found frame command executes
  have initial : (start kernel).Prepared :=
    ⟨⟨(Console.laid_terminal_start on_screen).video_mem, on_screen,
      (Console.laid_terminal_start on_screen).saved⟩, fun runs => absurd rfl runs⟩
  have prepared := Run.invariant_of_ok Prepared (fun _ _ => True)
    (fun _ _ _ prepared _ taken => prepared.step taken) initial events (fun _ _ => trivial)
    machine visited
  exact prepared.executes executes

end Machine

end ComputerSystem
