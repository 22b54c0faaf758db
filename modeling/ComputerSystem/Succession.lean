import ComputerSystem.Scheduling

/-!
# Which process runs next

A process that starts takes the processor, and one that ends leaves it to its starter.  The page
directory changes at the entry of the user page only.
-/

namespace ComputerSystem

open CArray

/-- Processes, PCBs and mappings are the same. -/
structure Kernel.SameTables (kernel next : Kernel) : Prop where
  /-- The slots in use. -/
  process_arr : next.process_arr = kernel.process_arr
  /-- The PCBs. -/
  pcb : next.pcb = kernel.pcb
  /-- The mappings. -/
  page_dir : next.page_dir = kernel.page_dir
  /-- The kernel stack. -/
  tss : next.tss = kernel.tss

/-! ## What execute and real_halt leave of the page directory -/

/-- Nothing but the user page is mapped anew. -/
def Kernel.SamePages (kernel next : Kernel) : Prop :=
  ∀ index ≠ 32, next.page_dir index = kernel.page_dir index

namespace Kernel

theorem SamePages.trans {first second third : Kernel} (head : first.SamePages second)
    (tail : second.SamePages third) : first.SamePages third :=
  fun index other => (tail index other).trans (head index other)

theorem SameTables.samePages {kernel next : Kernel} (same : kernel.SameTables next) :
    kernel.SamePages next :=
  fun index _ => by rw [same.page_dir]

theorem Kept.samePages {kernel next : Kernel} (kept : kernel.Kept next) : kernel.SamePages next :=
  fun index _ => by rw [kept.page_dir]

theorem samePages_paging_set_up (kernel : Kernel) (pid : Int) :
    kernel.SamePages (kernel.paging_set_up pid) :=
  fun _ other => Function.update_of_ne other _ _

theorem release_page_dir (kernel : Kernel) (address : Nat) :
    (kernel.release address).page_dir = kernel.page_dir := by
  rw [release_eq]
  rfl

/-- `real_halt` ends in a jump, if there is a parent. -/
theorem halt_return_cases (kernel : Kernel) (address status : Nat) :
    ∃ next, kernel.SamePages next ∧
      (kernel.halt_return address status = (.fault, next) ∨
        ∃ esp ebp, kernel.halt_return address status = (.jumped status esp ebp, next)) := by
  rw [halt_return]
  dsimp only
  split_ifs
  · exact ⟨kernel, fun _ _ => rfl, Or.inl rfl⟩
  · refine ⟨_, fun index other => ?_, Or.inr ⟨_, _, rfl⟩⟩
    rw [setTss_page_dir]
    exact kernel.samePages_paging_set_up _ index other

end Kernel

theorem Started.samePages {kernel : Kernel} {frame : Frame} {slot : Fin 6} {i : Nat} {next : Kernel}
    (started : Started kernel frame slot i next) : kernel.SamePages next := by
  intro index other
  rw [started.page_dir]
  exact kernel.samePages_paging_set_up _ index other

/-! ## One event -/

namespace Machine

/-- The process that an event starts, if any: its slot and its command. -/
def starts (image : Image) (machine : Machine) (event : MachineEvent) :
    Option (Fin 6 × List UInt8) :=
  match machine.executes event with
  | some (kernel, frame, command) => kernel.launched image frame command
  | none =>
      match machine.ends event with
      | some (_, kernel, esp, frame, _) => kernel.relaunched image esp frame
      | none => none

/-- The process that runs after an event: the one it starts, else the starter of the one it ends. -/
def successor (image : Image) (machine : Machine) (event : MachineEvent) : Option (Fin 6) :=
  match machine.starts image event with
  | some (slot, _) => some slot
  | none =>
      match machine.ends event with
      | some (c, _) => (machine.calls c).starter
      | none => machine.running

/-- In front of a call of `execute` only `schedule_arr` and the terminals change. -/
theorem executes_spec {machine : Machine} {event : MachineEvent} {kernel : Kernel} {frame : Frame}
    {command : Option (List UInt8)}
    (executes : machine.executes event = some (kernel, frame, command)) :
    machine.kernel.SameTables kernel := by
  cases event with
  | turn frame =>
      simp only [Machine.executes] at executes
      split at executes
      · cases executes
      · obtain ⟨-, call_eq⟩ := Option.ite_none_right_eq_some.mp executes
        cases call_eq
        exact ⟨rfl, rfl, rfl, rfl⟩
  | execute frame command =>
      obtain ⟨-, call_eq⟩ := Option.ite_none_right_eq_some.mp executes
      cases call_eq
      exact ⟨rfl, rfl, rfl, rfl⟩
  | _ => cases executes

/-- In front of a call of `real_halt` only the terminals change. -/
theorem ends_spec {machine : Machine} {event : MachineEvent} {c : Fin 6} {kernel : Kernel}
    {esp : Nat} {frame : Frame} {status : Nat}
    (ends : machine.ends event = some (c, kernel, esp, frame, status)) :
    machine.running = some c ∧ machine.InCall esp ∧ machine.kernel.SameTables kernel := by
  cases event with
  | halt esp frame status =>
      obtain ⟨in_call, call⟩ := Option.ite_none_right_eq_some.mp ends
      obtain ⟨r, run, call_eq⟩ := Option.map_eq_some_iff.mp call
      cases call_eq
      exact ⟨run, in_call, rfl, rfl, rfl, rfl⟩
  | exception message esp frame =>
      obtain ⟨in_call, call⟩ := Option.ite_none_right_eq_some.mp ends
      obtain ⟨r, run, call_eq⟩ := Option.map_eq_some_iff.mp call
      cases call_eq
      exact ⟨run, in_call, rfl, rfl, rfl, rfl⟩
  | _ => cases ends

/-- The other events change turns and terminals only. -/
theorem passed_spec {machine next : Machine} {event : MachineEvent}
    (taken : machine.passed event = some next) :
    next.running = machine.running ∧ next.calls = machine.calls ∧
      machine.kernel.SameTables next.kernel := by
  cases event with
  | tick =>
      obtain ⟨-, next_eq⟩ := Option.ite_none_right_eq_some.mp taken
      cases next_eq
      exact ⟨rfl, rfl, rfl, rfl, rfl, rfl⟩
  | turn frame =>
      rw [passed] at taken
      split at taken
      · cases taken
      · cases taken
        exact ⟨rfl, rfl, rfl, rfl, rfl, rfl⟩
  | switch t =>
      cases taken
      exact ⟨rfl, rfl, rfl, rfl, rfl, rfl⟩
  | _ => cases taken

/-- A step is a call of `execute`, the end of a process, or neither. -/
theorem step_cases {image : Image} {machine next : Machine} {event : MachineEvent}
    (taken : machine.step image event = some next) :
    (∃ kernel frame command turns home,
      machine.executes event = some (kernel, frame, command) ∧
      machine.executed frame turns home (execute image kernel frame command) = some next) ∨
    (∃ c kernel esp frame status, machine.executes event = none ∧
      machine.ends event = some (c, kernel, esp, frame, status) ∧
      machine.ended c frame (real_halt image kernel esp frame status) = some next) ∨
    (machine.executes event = none ∧ machine.ends event = none ∧
      machine.passed event = some next) := by
  rw [step] at taken
  cases executes : machine.executes event with
  | some call =>
      rw [executes] at taken
      exact Or.inl ⟨_, _, _, _, _, rfl, taken⟩
  | none =>
      rw [executes] at taken
      cases ends : machine.ends event with
      | some call =>
          rw [ends] at taken
          exact Or.inr (Or.inl ⟨_, _, _, _, _, rfl, rfl, taken⟩)
      | none =>
          rw [ends] at taken
          exact Or.inr (Or.inr ⟨rfl, rfl, taken⟩)

theorem ends_eq_none_of_executes {machine : Machine} {event : MachineEvent}
    {call : Kernel × Frame × Option (List UInt8)} (executes : machine.executes event = some call) :
    machine.ends event = none := by
  cases event with
  | halt esp frame status => cases executes
  | exception message esp frame => cases executes
  | _ => rfl

/-- A call of `execute` goes on with the process that it starts, else with its caller. -/
theorem executed_spec {image : Image} {machine : Machine} {event : MachineEvent} {kernel : Kernel}
    {frame : Frame} {command : Option (List UInt8)}
    (executes : machine.executes event = some (kernel, frame, command)) {turns : List (Fin 3)}
    {home : Fin 3} {next : Machine}
    (taken : machine.executed frame turns home (execute image kernel frame command) = some next) :
    next.running = machine.successor image event ∧ machine.kernel.SamePages next.kernel := by
  have before := (executes_spec executes).samePages
  simp only [successor, starts, executes, ends_eq_none_of_executes executes]
  cases launched : kernel.launched image frame command with
  | none =>
      obtain ⟨failed, result, kept⟩ := execute_not_launched launched
      rw [result] at taken
      cases taken
      exact ⟨rfl, before.trans kept.samePages⟩
  | some process =>
      obtain ⟨slot, line⟩ := process
      obtain ⟨entry_point, last, result, started⟩ := execute_launched launched
      rw [result] at taken
      cases taken
      exact ⟨rfl, before.trans started.samePages⟩

/-- The end of a process goes on with the shell that takes its place, else with its starter. -/
theorem ended_spec {image : Image} {machine : Machine} {event : MachineEvent} {c : Fin 6}
    {kernel : Kernel} {esp : Nat} {frame : Frame} {status : Nat}
    (no_call : machine.executes event = none)
    (ends : machine.ends event = some (c, kernel, esp, frame, status)) {next : Machine}
    (taken : machine.ended c frame (real_halt image kernel esp frame status) = some next) :
    next.running = machine.successor image event ∧ machine.kernel.SamePages next.kernel := by
  obtain ⟨-, -, same⟩ := ends_spec ends
  have released : machine.kernel.SamePages (kernel.release (get_cur_pcb esp)) :=
    same.samePages.trans fun index _ => by rw [Kernel.release_page_dir]
  simp only [successor, starts, no_call, ends]
  cases relaunched : kernel.relaunched image esp frame with
  | none =>
      obtain ⟨failed, failed_kept, result⟩ := real_halt_not_relaunched relaunched status
      obtain ⟨last, pages, fault | ⟨esp, ebp, jumped⟩⟩ :=
        failed.halt_return_cases (get_cur_pcb esp) status
      · rw [result, fault] at taken
        cases taken
      · rw [result, jumped, Machine.ended] at taken
        cases starter : (machine.calls c).starter with
        | none =>
            rw [starter] at taken
            cases taken
        | some p =>
            rw [starter] at taken
            obtain ⟨-, next_eq⟩ := Option.ite_none_right_eq_some.mp taken
            cases next_eq
            exact ⟨rfl, (released.trans failed_kept.samePages).trans pages⟩
  | some process =>
      obtain ⟨slot, line⟩ := process
      obtain ⟨-, -, entry_point, last, result, started⟩ := real_halt_relaunched relaunched status
      rw [result] at taken
      cases taken
      exact ⟨rfl, released.trans started.samePages⟩

/-- Every event goes on with the successor and keeps all entries of the page directory but that of
the user page. -/
theorem step_spec {image : Image} {machine : Machine} {event : MachineEvent} {next : Machine}
    (taken : machine.step image event = some next) :
    next.running = machine.successor image event ∧ machine.kernel.SamePages next.kernel := by
  rcases step_cases taken with ⟨kernel, frame, command, turns, home, executes, executed⟩ |
    ⟨c, kernel, esp, frame, status, no_call, ends, ended⟩ | ⟨no_call, no_end, passed⟩
  · exact executed_spec executes executed
  · exact ended_spec no_call ends ended
  · obtain ⟨running, -, same⟩ := passed_spec passed
    simp only [successor, starts, no_call, no_end]
    exact ⟨running, same.samePages⟩

theorem executed_kernel {machine next : Machine} {frame : Frame} {turns : List (Fin 3)}
    {home : Fin 3} {result : Outcome × Kernel}
    (taken : machine.executed frame turns home result = some next) : next.kernel = result.2 := by
  obtain ⟨outcome, kernel⟩ := result
  cases outcome with
  | started slot entry_point =>
      cases taken
      rfl
  | returned eax =>
      cases taken
      rfl
  | _ => cases taken

theorem ended_kernel {machine next : Machine} {c : Fin 6} {frame : Frame}
    {result : Outcome × Kernel} (taken : machine.ended c frame result = some next) :
    next.kernel = result.2 := by
  obtain ⟨outcome, kernel⟩ := result
  cases outcome with
  | started slot entry_point =>
      cases taken
      rfl
  | jumped eax esp ebp =>
      simp only [Machine.ended] at taken
      split at taken
      · cases taken
      · obtain ⟨-, next_eq⟩ := Option.ite_none_right_eq_some.mp taken
        cases next_eq
        rfl
  | _ => cases taken

end Machine

end ComputerSystem
