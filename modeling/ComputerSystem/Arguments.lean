import ComputerSystem.CallReturn
import ComputerSystem.CommandScan
import ComputerSystem.Lifecycle

/-!
# Arguments of commands

`execute` splits a command into a name and an argument and stores the argument in the PCB of the
slot it is about to take; `getargs` copies it from the PCB on whose kernel stack it runs.  Between
the two other commands are executed, processes end, and the devices change.
-/

namespace ComputerSystem

open CString

/-! ## Splitting a command -/

/-- A command of fewer than 128 characters: blanks, a name of 1 to 31 characters, blanks, and an
argument, which may be empty. -/
structure Splits (line name argument : List UInt8) (before between : Nat) : Prop where
  /-- The parts, one behind another. -/
  text_eq : text line =
    List.replicate before SPACE ++ name ++ List.replicate between SPACE ++ argument
  /-- `execute` reads it whole. -/
  length_lt : (text line).length < 128
  /-- There is a name. -/
  name_ne : name ≠ []
  /-- The name fits its buffer. -/
  name_le : name.length ≤ 31
  /-- The name has no blanks. -/
  name_solid : ∀ c ∈ name, c ≠ SPACE
  /-- The argument begins behind the blanks. -/
  argument_solid : argument.head? ≠ some SPACE
  /-- Blanks stand in front of an argument. -/
  separated : between = 0 → argument = []

namespace Splits

variable {line name argument : List UInt8} {before between : Nat}

theorem length_eq (splits : Splits line name argument before between) :
    (text line).length = before + name.length + between + argument.length := by
  rw [splits.text_eq]
  simp only [List.length_append, List.length_replicate]

/-- Behind the first blanks stands the name. -/
theorem dropWhile_blank (splits : Splits line name argument before between) :
    (text line).dropWhile (· = SPACE) = name ++ (List.replicate between SPACE ++ argument) := by
  rw [splits.text_eq, List.append_assoc, List.append_assoc,
    List.dropWhile_append_of_pos (by simp)]
  cases name with
  | nil => exact absurd rfl splits.name_ne
  | cons c name =>
      have solid := splits.name_solid c List.mem_cons_self
      exact List.dropWhile_cons_of_neg (by simpa using solid)

/-- Behind the name stands a blank or the end of the command. -/
theorem takeWhile_behind (splits : Splits line name argument before between) :
    (List.replicate between SPACE ++ argument).takeWhile (· ≠ SPACE) = [] := by
  cases between with
  | zero =>
      rw [splits.separated rfl]
      rfl
  | succ between => exact List.takeWhile_cons_of_neg (by simp)

theorem first_word_eq (splits : Splits line name argument before between) :
    first_word line = name := by
  rw [first_word, splits.dropWhile_blank, List.takeWhile_append_of_pos, splits.takeWhile_behind,
    List.append_nil]
  intro c mem
  simpa using splits.name_solid c mem

theorem argument_part_eq (splits : Splits line name argument before between) :
    argument_part line = argument := by
  have name_passed : (name ++ (List.replicate between SPACE ++ argument)).dropWhile (· ≠ SPACE) =
      List.replicate between SPACE ++ argument := by
    rw [List.dropWhile_append_of_pos fun c mem => by simpa using splits.name_solid c mem]
    have parts := List.takeWhile_append_dropWhile (p := (· ≠ SPACE))
      (l := List.replicate between SPACE ++ argument)
    rwa [splits.takeWhile_behind] at parts
  rw [argument_part, splits.dropWhile_blank, name_passed, List.dropWhile_append_of_pos (by simp)]
  cases argument with
  | nil => rfl
  | cons c argument =>
      have solid := splits.argument_solid
      rw [List.head?_cons, ne_eq, Option.some.injEq] at solid
      exact List.dropWhile_cons_of_neg (by simpa using solid)

theorem scan_command (splits : Splits line name argument before between) :
    (ComputerSystem.scan_command line).name = name ∧
      (ComputerSystem.scan_command line).argument = argument := by
  have word_eq := splits.first_word_eq
  have word : first_word line ≠ [] := by
    rw [word_eq]
    exact splits.name_ne
  obtain ⟨end_eq, end_le⟩ := name_end_of_word word
  have length_lt := splits.length_lt
  have short := splits.name_le
  rw [← word_eq] at short
  constructor
  · calc
      (ComputerSystem.scan_command line).name = cut_word line := parse_command_name_of_word word
      _ = first_word line := cut_word_of_fits (by omega) (short.trans (by decide))
      _ = name := word_eq
  · rw [scan_command_argument, if_pos (by omega), ← splits.argument_part_eq,
      ComputerSystem.argument_part_eq, if_neg word]

end Splits

/-! ## getargs -/

/-- The loop of `getargs`: the bytes up to the NUL, if the array has one. -/
def getargs_loop : List UInt8 → Option (List UInt8)
  | [] => none
  | c :: cells => if c = 0 then some [0] else (getargs_loop cells).map (c :: ·)

/-- `getargs`, called with ESP `esp`: the result and the bytes stored; `nbytes` is not looked at
again.  A loop that runs past the array does not return here. -/
def Kernel.getargs (kernel : Kernel) (esp : Nat) (buf_null : Bool) (nbytes : Int) :
    Option (Int × List UInt8) :=
  if buf_null ∨ nbytes ≤ 0 then some (-1, [])
  else
    let argument := (kernel.pcb (get_cur_pcb esp)).argument
    if argument 0 = 0 then some (-1, [])
    else (getargs_loop (List.ofFn argument)).map fun bytes => (0, bytes)

theorem getargs_loop_append {bytes : List UInt8} (solid : ∀ c ∈ bytes, c ≠ 0) (cells : List UInt8) :
    getargs_loop (bytes ++ 0 :: cells) = some (bytes ++ [0]) := by
  induction bytes with
  | nil => rfl
  | cons c bytes ih =>
      rw [List.forall_mem_cons] at solid
      rw [List.cons_append, getargs_loop, if_neg solid.1, ih solid.2]
      rfl

theorem store_argument_ofFn (argument : Fin 128 → UInt8) {bytes : List UInt8}
    (fits : bytes.length < 128) :
    List.ofFn (store_argument argument bytes) =
      bytes ++ 0 :: (List.ofFn argument).drop (bytes.length + 1) := by
  apply List.ext_getElem
  · simp only [List.length_ofFn, List.length_append, List.length_cons, List.length_drop]
    omega
  · intro k inside _
    rw [List.length_ofFn] at inside
    rw [List.getElem_ofFn, store_argument]
    rcases Nat.lt_trichotomy k bytes.length with below | rfl | above
    · rw [if_pos below, List.getElem_append_left below, List.getD_eq_getElem _ _ below]
    · rw [if_neg (lt_irrefl _), if_pos rfl, List.getElem_append_right le_rfl]
      simp only [Nat.sub_self, List.getElem_cons_zero]
    · obtain ⟨d, rfl⟩ := Nat.exists_eq_add_of_lt above
      rw [if_neg (by simp only; omega), if_neg (by simp only; omega),
        List.getElem_append_right (by omega)]
      simp only [show bytes.length + d + 1 - bytes.length = d + 1 by omega, List.getElem_cons_succ,
        List.getElem_drop, List.getElem_ofFn]
      congr 2
      omega

theorem Kernel.getargs_store {kernel : Kernel} {esp : Nat} {old : Fin 128 → UInt8}
    {argument : List UInt8} (fits : argument.length < 128) (solid : ∀ c ∈ argument, c ≠ 0)
    (stored : (kernel.pcb (get_cur_pcb esp)).argument = store_argument old argument) {nbytes : Int}
    (room : argument.length < nbytes) :
    kernel.getargs esp false nbytes =
      some (if argument = [] then (-1, []) else (0, argument ++ [0])) := by
  have asked : ¬((false : Bool) = true ∨ nbytes ≤ 0) := by simp; omega
  rw [getargs, if_neg asked]
  simp only [stored, store_argument_ofFn old fits, getargs_loop_append solid]
  cases argument with
  | nil => simp [store_argument]
  | cons c argument =>
      have first : store_argument old (c :: argument) 0 = c := by simp [store_argument]
      have not_nul : c ≠ 0 := solid c List.mem_cons_self
      rw [first, if_neg not_nul, if_neg (List.cons_ne_nil c argument)]
      rfl

/-! ## What execute and real_halt do to arguments -/

theorem Kernel.modifyPcb_argument (kernel : Kernel) (address : Nat) {f : Pcb → Pcb}
    (kept : ∀ pcb, (f pcb).argument = pcb.argument) (a : Nat) :
    ((kernel.modifyPcb address f).pcb a).argument = (kernel.pcb a).argument := by
  rw [modifyPcb_pcb]
  split_ifs with same
  · rw [kept, same]
  · rfl

theorem Kernel.initiate_pcb_argument (kernel : Kernel) (frame : Frame) (slot : Fin 6) (a : Nat) :
    ((kernel.initiate_pcb frame slot).pcb a).argument = (kernel.pcb a).argument := by
  simp only [initiate_pcb]
  split_ifs
  · rw [modifyPcb_argument, modifyPcb_argument] <;> exact fun _ => rfl
  · rw [modifyPcb_argument, modifyPcb_argument, modifyPcb_argument] <;> exact fun _ => rfl

theorem Kernel.printf_pcb (kernel : Kernel) (text : String) :
    (kernel.printf text).pcb = kernel.pcb := rfl

theorem Kernel.record_index_pcb (kernel : Kernel) (i : Nat) :
    (kernel.record_index i).pcb = kernel.pcb := rfl

theorem start_process_argument (image : Image) (kernel : Kernel) (frame : Frame) (slot : Fin 6)
    (cur_dentry : Dentry) (i a : Nat) :
    ((start_process image kernel frame slot cur_dentry i).2.pcb a).argument =
      (kernel.pcb a).argument := by
  have load := kernel.load_program_spec image slot cur_dentry
  simp only [start_process]
  generalize kernel.load_program image slot cur_dentry = loaded at load
  rw [Kernel.setTss_pcb, Kernel.modifyPcb_argument, Kernel.record_index_pcb,
    Kernel.initiate_pcb_argument, load.pcb]
  exact fun _ => rfl

/-- `execute` stores the argument in the PCB of the free slot, whether it starts a process or
not. -/
theorem execute_argument (image : Image) {kernel : Kernel} (frame : Frame) {slot : Fin 6}
    (free : kernel.free_slot = some slot) (line : List UInt8) (a : Nat) :
    ((execute image kernel frame (some line)).2.pcb a).argument =
      if a = pcbAddress slot then
        store_argument (kernel.pcb a).argument (scan_command line).argument
      else (kernel.pcb a).argument := by
  have stored (a : Nat) :
      ((kernel.modifyPcb (pcbAddress slot) fun pcb =>
        { pcb with argument := store_argument pcb.argument (scan_command line).argument }).pcb
          a).argument =
        if a = pcbAddress slot then
          store_argument (kernel.pcb a).argument (scan_command line).argument
        else (kernel.pcb a).argument := by
    rw [Kernel.modifyPcb_pcb]
    split_ifs with same
    · rw [same]
    · rfl
  rw [execute_of_free_slot image frame free]
  cases check_executable image frame (scan_command line).name with
  | none => exact stored a
  | some cur_dentry =>
      rw [← stored a]
      exact start_process_argument image _ frame slot cur_dentry _ a

theorem execute_argument_of_ne (image : Image) (kernel : Kernel) (frame : Frame)
    (command : Option (List UInt8)) {a : Nat}
    (other : ∀ slot, kernel.free_slot = some slot → a ≠ pcbAddress slot) :
    ((execute image kernel frame command).2.pcb a).argument = (kernel.pcb a).argument := by
  cases free : kernel.free_slot with
  | none =>
      rw [execute, free]
      rfl
  | some slot =>
      cases command with
      | none =>
          rw [execute, free]
      | some line => rw [execute_argument image frame free line a, if_neg (other slot free)]

/-- A process that exists after `execute` existed before, with the same argument, or was started
with that of its command. -/
theorem execute_argument_live {image : Image} {kernel : Kernel} {frame : Frame}
    {command : Option (List UInt8)} {p : Fin 6}
    (live : (execute image kernel frame command).2.Live p) :
    (kernel.Live p ∧
      ((execute image kernel frame command).2.pcb (pcbAddress p)).argument =
        (kernel.pcb (pcbAddress p)).argument ∧
      ∀ process ∈ kernel.launched image frame command, process.1 ≠ p) ∨
    ∃ line, kernel.launched image frame command = some (p, line) ∧
      ((execute image kernel frame command).2.pcb (pcbAddress p)).argument =
        store_argument (kernel.pcb (pcbAddress p)).argument (scan_command line).argument := by
  have kept (live : kernel.Live p) :=
    execute_argument_of_ne image kernel frame command (a := pcbAddress p) fun slot free same =>
      (Kernel.free_slot_spec free).1 (pcbAddress_injective same ▸ live)
  cases launched : kernel.launched image frame command with
  | none =>
      obtain ⟨failed, result, failed_kept⟩ := execute_not_launched launched
      rw [result, failed_kept.live_iff] at live
      exact Or.inl ⟨live, kept live, fun process mem => absurd mem (Option.not_mem_none _)⟩
  | some process =>
      obtain ⟨slot, line⟩ := process
      obtain ⟨free, rfl, -⟩ := Kernel.launched_eq_some_iff.mp launched
      obtain ⟨entry_point, next, result, started⟩ := execute_launched launched
      rw [result, started.live_iff] at live
      rcases eq_or_ne p slot with rfl | other
      · have stored := execute_argument image frame free line (pcbAddress p)
        rw [if_pos rfl] at stored
        exact Or.inr ⟨line, rfl, stored⟩
      · have live_before := live.resolve_left other
        refine Or.inl ⟨live_before, kept live_before, fun process mem => ?_⟩
        obtain rfl := Option.some.inj mem
        exact other.symm

/-- The commands of the processes, after one was started. -/
def commanded (commands : Fin 6 → List UInt8) : Option (Fin 6 × List UInt8) → Fin 6 → List UInt8
  | some (slot, line) => Function.update commands slot line
  | none => commands

/-- The PCBs of the processes hold the arguments of their commands. -/
def Delivered (kernel : Kernel) (commands : Fin 6 → List UInt8) : Prop :=
  ∀ p, kernel.Live p → ∃ old, (kernel.pcb (pcbAddress p)).argument =
    store_argument old (scan_command (commands p)).argument

namespace Delivered

variable {kernel next : Kernel} {commands : Fin 6 → List UInt8}

theorem of_same (delivered : Delivered kernel commands)
    (process_arr : next.process_arr = kernel.process_arr)
    (argument : ∀ a, (next.pcb a).argument = (kernel.pcb a).argument) :
    Delivered next commands := by
  intro p live
  rw [Kernel.Live, process_arr] at live
  rw [argument]
  exact delivered p live

theorem of_same_tables (delivered : Delivered kernel commands) (same : kernel.SameTables next) :
    Delivered next commands :=
  delivered.of_same same.process_arr fun a => by rw [same.pcb]

theorem execute (delivered : Delivered kernel commands) (image : Image) (frame : Frame)
    (command : Option (List UInt8)) :
    Delivered (ComputerSystem.execute image kernel frame command).2
      (commanded commands (kernel.launched image frame command)) := by
  intro p live
  rcases execute_argument_live live with ⟨live_before, kept, other⟩ | ⟨line, launched, stored⟩
  · have same : commanded commands (kernel.launched image frame command) p = commands p := by
      cases launched : kernel.launched image frame command with
      | none => rfl
      | some process => exact Function.update_of_ne (other process launched).symm _ _
    rw [same, kept]
    exact delivered p live_before
  · rw [launched, commanded, Function.update_self]
    exact ⟨_, stored⟩

theorem release (delivered : Delivered kernel commands) {c : Fin 6}
    (pid : (kernel.pcb (pcbAddress c)).pid = c) :
    Delivered (kernel.release (pcbAddress c)) commands := by
  intro p live
  obtain ⟨other, live_before⟩ := (Kernel.release_live_iff pid p).mp live
  rw [kernel.release_pcb_of_ne (pcbAddress_ne other)]
  exact delivered p live_before

theorem halt_return (delivered : Delivered kernel commands) (address status : Nat) :
    Delivered (kernel.halt_return address status).2 commands := by
  simp only [Kernel.halt_return]
  split_ifs
  · exact delivered
  · exact delivered.of_same rfl fun a => by rw [Kernel.setTss_pcb, Kernel.paging_set_up_pcb]

theorem real_halt (delivered : Delivered kernel commands) {c : Fin 6}
    (pid : (kernel.pcb (pcbAddress c)).pid = c) {esp : Nat}
    (own_stack : get_cur_pcb esp = pcbAddress c) (image : Image) (frame : Frame) (status : Nat) :
    Delivered (ComputerSystem.real_halt image kernel esp frame status).2
      (commanded commands (kernel.relaunched image esp frame)) := by
  have released := delivered.release pid
  rw [← own_stack] at released
  rw [Kernel.relaunched]
  split_ifs with first
  · simp only [ComputerSystem.real_halt, if_pos first]
    generalize kernel.release (get_cur_pcb esp) = kernel at released
    generalize "Quiting last shell is prohibited by Xushen\n" = message
    have printed : Delivered (kernel.printf message) commands :=
      released.of_same (kernel.kept_printf message).process_arr fun a => by rw [kernel.printf_pcb]
    rw [← (kernel.kept_printf message).launched]
    have relaunched := printed.execute image frame (some shell)
    cases launched : (kernel.printf message).launched image frame (some shell) with
    | none =>
        obtain ⟨failed, result, -⟩ := execute_not_launched launched
        rw [launched, result] at relaunched
        rw [result]
        exact relaunched.halt_return _ _
    | some process =>
        obtain ⟨slot, line⟩ := process
        obtain ⟨entry_point, last, result, -⟩ := execute_launched launched
        rw [launched, result] at relaunched
        rw [result]
        exact relaunched
  · rw [real_halt_later image frame status (not_le.mp first)]
    exact released.halt_return _ _

end Delivered

/-! ## Runs -/

/-- What happens between two calls of `getargs`. -/
inductive CommandEvent
  /-- An event of the machine. -/
  | machine (event : MachineEvent)
  /-- The running process makes a call on its descriptors. -/
  | call (esp : Nat) (syscall : Syscall)
  /-- The devices change. -/
  | interrupt (devices : Devices)

/-- The argument of a command fits `pcb->argument`. -/
def MachineEvent.fits : MachineEvent → Prop
  | .execute _ command => argument_fits command
  | _ => True

instance : (event : MachineEvent) → Decidable event.fits
  | .execute _ command => inferInstanceAs (Decidable (argument_fits command))
  | .tick => isTrue trivial
  | .turn _ => isTrue trivial
  | .switch _ => isTrue trivial
  | .halt _ _ _ => isTrue trivial
  | .exception _ _ _ => isTrue trivial

/-- The machine with the commands of its processes. -/
structure Commanded where
  /-- The machine. -/
  machine : Machine
  /-- Not in the source: the command that each process was started with. -/
  commands : Fin 6 → List UInt8

namespace Commanded

/-- The machine when the first tick can come; `kernel` is what memory holds before. -/
def start (kernel : Kernel) : Commanded where
  machine := Machine.start kernel
  commands := fun _ => []

/-- One event. -/
def step (image : Image) (state : Commanded) : CommandEvent → Option Commanded
  | .machine event =>
      if event.fits then
        (state.machine.step image event).map fun machine =>
          ⟨machine, commanded state.commands (state.machine.starts image event)⟩
      else none
  | .call esp syscall =>
      if state.machine.running ≠ none ∧ state.machine.InCall esp then
        let address := get_cur_pcb esp
        ((state.machine.kernel.task address).call image syscall).map fun answer =>
          { state with
            machine := { state.machine with
              kernel := state.machine.kernel.setTask address answer.task } }
      else none
  | .interrupt devices =>
      some { state with
        machine := { state.machine with kernel := { state.machine.kernel with devices } } }

/-- What an event starts, if anything, is linked. -/
def Linked (mod : BootModule) (image : Image) (state : Commanded) : CommandEvent → Prop
  | .machine event => state.machine.Linked mod image event
  | _ => True

instance (mod : BootModule) (image : Image) (state : Commanded) : (event : CommandEvent) →
    Decidable (state.Linked mod image event)
  | .machine event => inferInstanceAs (Decidable (state.machine.Linked mod image event))
  | .call _ _ => isTrue trivial
  | .interrupt _ => isTrue trivial

/-- The processes hang together and have their arguments. -/
structure Attended (state : Commanded) : Prop where
  /-- Calls and returns nest. -/
  nested : state.machine.Nested
  /-- Every argument is in its place. -/
  delivered : Delivered state.machine.kernel state.commands

theorem attended_start (kernel : Kernel) : (start kernel).Attended where
  nested := Machine.nested_start kernel
  delivered _ live := absurd live (zero_ne_one : (0 : Int) ≠ 1)

/-- An event of the machine leaves the arguments where they belong. -/
theorem delivered_step {image : Image} {machine next : Machine} {event : MachineEvent}
    (nested : machine.Nested) {commands : Fin 6 → List UInt8}
    (delivered : Delivered machine.kernel commands)
    (taken : machine.step image event = some next) :
    Delivered next.kernel (commanded commands (machine.starts image event)) := by
  rcases Machine.step_cases taken with ⟨kernel, frame, command, turns, home, executes, executed⟩ |
    ⟨c, kernel, esp, frame, status, no_call, ends, ended⟩ | ⟨no_call, no_end, passed⟩
  · have before := delivered.of_same_tables (Machine.executes_spec executes)
    have starts_eq : machine.starts image event = kernel.launched image frame command := by
      simp only [Machine.starts, executes]
    rw [starts_eq, Machine.executed_kernel executed]
    exact before.execute image frame command
  · obtain ⟨-, -, same⟩ := Machine.ends_spec ends
    obtain ⟨chained, live, own_stack⟩ := nested.ends ends
    have before := delivered.of_same_tables same
    have starts_eq : machine.starts image event = kernel.relaunched image esp frame := by
      simp only [Machine.starts, no_call, ends]
    rw [starts_eq, Machine.ended_kernel ended]
    exact before.real_halt (chained.pid c live) own_stack image frame status
  · obtain ⟨-, -, same⟩ := Machine.passed_spec passed
    have starts_eq : machine.starts image event = none := by
      simp only [Machine.starts, no_call, no_end]
    rw [starts_eq]
    exact delivered.of_same_tables same

/-- A change of descriptors and devices leaves all else. -/
theorem Attended.of_same {state : Commanded} (attended : state.Attended) {kernel : Kernel}
    (process_arr : kernel.process_arr = state.machine.kernel.process_arr)
    (tss : kernel.tss = state.machine.kernel.tss)
    (pcb : ∀ a, ∃ fdt, kernel.pcb a = { state.machine.kernel.pcb a with fdt }) :
    ({ state with machine := { state.machine with kernel } } : Commanded).Attended where
  nested :=
    { chained := attended.nested.chained.of_same process_arr fun a => by
        obtain ⟨fdt, pcb_eq⟩ := pcb a
        exact ⟨fdt, _, pcb_eq⟩
      processor := attended.nested.processor.of_same process_arr tss }
  delivered := attended.delivered.of_same process_arr fun a => by
    obtain ⟨fdt, pcb_eq⟩ := pcb a
    rw [pcb_eq]

/-- Every linked event keeps the processes together and their arguments in place. -/
theorem Attended.step {mod : BootModule} {image : Image} {state next : Commanded}
    (attended : state.Attended) {event : CommandEvent} (linked : state.Linked mod image event)
    (taken : state.step image event = some next) : next.Attended := by
  cases event with
  | machine event =>
      obtain ⟨-, happens⟩ := Option.ite_none_right_eq_some.mp taken
      obtain ⟨machine, machine_step, next_eq⟩ := Option.map_eq_some_iff.mp happens
      cases next_eq
      exact ⟨attended.nested.step linked machine_step,
        delivered_step attended.nested attended.delivered machine_step⟩
  | call esp syscall =>
      obtain ⟨-, called⟩ := Option.ite_none_right_eq_some.mp taken
      obtain ⟨answer, -, next_eq⟩ := Option.map_eq_some_iff.mp called
      cases next_eq
      refine attended.of_same rfl rfl fun a => ?_
      rcases eq_or_ne a (get_cur_pcb esp) with rfl | other
      · exact ⟨_, Kernel.setTask_pcb_same _ _ _⟩
      · exact ⟨_, Kernel.setTask_pcb_of_ne _ _ other⟩
  | interrupt devices =>
      cases taken
      exact attended.of_same rfl rfl fun _ => ⟨_, rfl⟩

theorem Attended.getargs {state : Commanded} (attended : state.Attended) {p : Fin 6}
    (run : state.machine.running = some p) {esp : Nat} (in_call : state.machine.InCall esp)
    {name argument : List UInt8} {before between : Nat}
    (splits : Splits (state.commands p) name argument before between) {nbytes : Int}
    (room : argument.length < nbytes) :
    state.machine.kernel.getargs esp false nbytes =
      some (if argument = [] then (-1, []) else (0, argument ++ [0])) := by
  obtain ⟨old, stored⟩ := attended.delivered p (attended.nested.processor.live p run)
  have own_stack : get_cur_pcb esp = pcbAddress p := by
    rw [in_call.2, attended.nested.processor.stack p run, get_cur_pcb_stackTop]
  rw [splits.scan_command.2, ← own_stack] at stored
  have fits := splits.length_lt
  rw [splits.length_eq] at fits
  refine Kernel.getargs_store (by omega) (fun c mem => ?_) stored room
  exact ne_zero_of_mem_text (s := state.commands p) (by simp [splits.text_eq, mem])

/-- In every run in which no start strays and each process with a parent is started by the one that
`schedule_arr` names for the terminal on display: as long as a process lives, `getargs` gives it the
argument of the command that started it, or -1 if there is none. -/
theorem arguments_delivered (mod : BootModule) (image : Image) (kernel : Kernel)
    (events : List CommandEvent)
    (all_linked : ∀ entry ∈ Run.taken (step image) (start kernel) events,
      entry.1.Linked mod image entry.2) :
    ∀ state ∈ Run.visited (step image) (start kernel) events, ∀ p esp,
      state.machine.running = some p → state.machine.InCall esp →
      ∀ name argument before between, Splits (state.commands p) name argument before between →
        ∀ nbytes : Int, argument.length < nbytes →
          state.machine.kernel.getargs esp false nbytes =
            some (if argument = [] then (-1, []) else (0, argument ++ [0])) := by
  intro state visited p esp run in_call name argument before between splits nbytes room
  have attended := Run.invariant_of_ok Attended (Linked mod image)
    (fun _ _ _ attended linked taken => attended.step linked taken) (attended_start kernel) events
    all_linked state visited
  exact attended.getargs run in_call splits room

/-- The command `ls a`. -/
def ls_command : List UInt8 := [108, 115, 32, 97]

theorem splits_ls_command : Splits ls_command [108, 115] [97] 0 1 where
  text_eq := by decide
  length_lt := by decide
  name_ne := by decide
  name_le := by decide
  name_solid := by simp [SPACE]
  argument_solid := by decide
  separated := by decide

/-- `ls` with an argument is started in slot 3 and calls a command that is no executable. -/
def call_with_argument : List MachineEvent :=
  [.tick, .turn (Machine.frame_on 0), .execute (Machine.frame_on 0) (some [108, 115]),
    .execute (Machine.frame_on 1) (some [108, 115]),
    .execute (Machine.frame_on 2) (some ls_command),
    .execute (Machine.frame_on 3) (some [120, 32, 121])]

/-- It still gets its argument. -/
theorem arguments_delivered_ls :
    ∃ state, Run.run (step Image.sample) (start Kernel.boot)
        (call_with_argument.map CommandEvent.machine) = some state ∧
      state.machine.kernel.getargs (stackTop 3) false 4 = some (0, [97, 0]) := by
  have facts : (Run.run (step Image.sample) (start Kernel.boot)
      (call_with_argument.map CommandEvent.machine)).map (fun state =>
        (state.machine.running, decide (state.machine.InCall (stackTop 3)), state.commands 3)) =
      some (some 3, true, ls_command) := by decide +kernel
  have all_linked : ∀ entry ∈ Run.taken (step Image.sample) (start Kernel.boot)
      (call_with_argument.map CommandEvent.machine),
      entry.1.Linked BootModule.sample Image.sample entry.2 := by decide +kernel
  generalize call_with_argument.map CommandEvent.machine = events at facts all_linked ⊢
  obtain ⟨state, reached, facts⟩ := Option.map_eq_some_iff.mp facts
  simp only [Prod.mk.injEq, decide_eq_true_eq] at facts
  obtain ⟨run, in_call, command_eq⟩ := facts
  have splits := splits_ls_command
  rw [← command_eq] at splits
  exact ⟨state, reached, arguments_delivered BootModule.sample Image.sample Kernel.boot events
    all_linked state (Run.mem_visited_of_run reached) 3 (stackTop 3) run in_call _ _ _ _ splits 4
    (by decide)⟩

/-- The shell of terminal 2 calls `ls` with an argument, which calls `ls`, which ends, all while
terminal 0 is on display. -/
def call_from_background : List MachineEvent :=
  Machine.three_shells ++
    [.execute (Machine.frame_on 2) (some ls_command),
      .execute (Machine.frame_on 3) (some [108, 115]),
      .halt (Machine.frame_on 4).esp (Machine.frame_on 4) 0]

/-- `schedule_arr[0]` makes the second `ls` its own parent, so when it has ended, `getargs` of the
first one looks into the PCB of the second. -/
theorem argument_lost :
    ¬∀ (events : List CommandEvent),
      ∀ state ∈ Run.visited (step Image.sample) (start Kernel.boot) events, ∀ p esp,
        state.machine.running = some p → state.machine.InCall esp →
        ∀ name argument before between, Splits (state.commands p) name argument before between →
          ∀ nbytes : Int, argument.length < nbytes →
            state.machine.kernel.getargs esp false nbytes =
              some (if argument = [] then (-1, []) else (0, argument ++ [0])) := by
  intro delivered
  have facts : (Run.run (step Image.sample) (start Kernel.boot)
      (call_from_background.map CommandEvent.machine)).map
      (fun state => (state.machine.running, decide (state.machine.InCall (stackTop 4)),
        state.commands 3,
        decide (state.machine.kernel.getargs (stackTop 4) false 4 = some (-1, [])))) =
      some (some 3, true, ls_command, true) := by decide +kernel
  obtain ⟨state, reached, facts⟩ := Option.map_eq_some_iff.mp facts
  simp only [Prod.mk.injEq, decide_eq_true_eq] at facts
  obtain ⟨run, in_call, command_eq, lost⟩ := facts
  have splits := splits_ls_command
  rw [← command_eq] at splits
  have got := delivered _ state (Run.mem_visited_of_run reached) 3 (stackTop 4) run in_call _ _ _ _
    splits 4 (by decide)
  rw [lost] at got
  exact absurd got (by decide)

end Commanded

end ComputerSystem
