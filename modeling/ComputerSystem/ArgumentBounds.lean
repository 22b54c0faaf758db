import ComputerSystem.Arguments

/-!
# Bounds on arguments

`execute` copies the argument of a command into the 128 bytes of `pcb->argument`, and `getargs`
copies it on into the caller's buffer; both loops stop at a NUL only.
-/

namespace ComputerSystem

open CString

/-! ## execute -/

/-- The indices of `pcb->argument` that `execute` stores to. -/
def Kernel.argument_stores (kernel : Kernel) (command : Option (List UInt8)) : List Nat :=
  match kernel.free_slot with
  | none => []
  | some _ =>
      match command with
      | none => []
      | some line =>
          let parsed := parse_command line 128 0 []
          if parsed.flag1 then List.range ((argument_text line parsed.i).length + 1) else [0]

/-- A command is stored within `pcb->argument`, or rejected. -/
structure ExecuteBounded (image : Image) (kernel : Kernel) (frame : Frame) (line : List UInt8) :
    Prop where
  /-- No byte behind the array is written. -/
  stores : ∀ i ∈ kernel.argument_stores (some line), i < 128
  /-- An argument that does not fit with its NUL is rejected. -/
  rejected : 128 ≤ (argument_part line).length →
    (execute image kernel frame (some line)).1 = .returned (-1)

/-- Without a free slot the argument fits.  With one, either the loop reaches the end of the word,
or of the word behind the NUL, and the argument behind that fits; or it does not, and the argument
fits or what is left of the word is not executable. -/
def ArgumentFits (image : Image) (kernel : Kernel) (frame : Frame) (line : List UInt8) : Prop :=
  match kernel.free_slot with
  | none => (argument_part line).length < 128
  | some _ =>
      if name_end line < 128 then (argument_behind line).length < 128
      else (argument_part line).length < 128 ∨
        check_executable image frame (cut_word line) = none

variable {image : Image} {kernel : Kernel} {frame : Frame} {line : List UInt8}

theorem argument_stores_eq {slot : Fin 6} (free : kernel.free_slot = some slot)
    (line : List UInt8) :
    kernel.argument_stores (some line) = List.range ((scan_command line).argument.length + 1) := by
  simp only [Kernel.argument_stores, free, scan_command]
  split_ifs <;> rfl

theorem stores_bounded_iff {slot : Fin 6} (free : kernel.free_slot = some slot) :
    (∀ i ∈ kernel.argument_stores (some line), i < 128) ↔
      (name_end line < 128 → (argument_behind line).length < 128) := by
  rw [argument_stores_eq free, scan_command_argument]
  constructor
  · intro bounded ends
    apply bounded
    rw [if_pos ends, List.mem_range]
    exact Nat.lt_succ_self _
  · intro fits i mem
    rw [List.mem_range] at mem
    split_ifs at mem with ends
    · have := fits ends
      omega
    · rw [List.length_nil] at mem
      omega

/-- `execute` stores at most 128 bytes of the argument and rejects one that does not fit, exactly
when the argument fits. -/
theorem execute_bounded_iff (image : Image) (kernel : Kernel) (frame : Frame) (line : List UInt8) :
    ExecuteBounded image kernel frame line ↔ ArgumentFits image kernel frame line := by
  rw [ArgumentFits]
  cases free : kernel.free_slot with
  | none =>
      have nothing : kernel.argument_stores (some line) = [] := by
        rw [Kernel.argument_stores, free]
      have refused : (execute image kernel frame (some line)).1 ≠ .returned (-1) := by
        rw [execute_of_no_slot image frame free]
        intro same
        exact absurd (Outcome.returned.inj same) (by decide)
      constructor
      · intro bounded
        exact not_le.mp (mt bounded.rejected refused)
      · intro fits
        refine ⟨?_, fun long => absurd fits (not_lt.mpr long)⟩
        rw [nothing]
        exact fun i mem => absurd mem List.not_mem_nil
  | some slot =>
      have rejects_iff (long : 128 ≤ (argument_part line).length) :
          (execute image kernel frame (some line)).1 = .returned (-1) ↔
            check_executable image frame (cut_word line) = none := by
        have word : first_word line ≠ [] := by
          intro no_word
          rw [argument_part_eq, if_pos no_word] at long
          exact absurd long (by decide)
        rw [execute_rejects_iff free, parse_command_name_of_word word]
      have part_le : (argument_part line).length ≤ (argument_behind line).length := by
        rw [argument_part_eq]
        split_ifs
        · exact Nat.zero_le _
        · exact le_rfl
      dsimp only
      split_ifs with ends
      · constructor
        · intro bounded
          exact (stores_bounded_iff free).mp bounded.stores ends
        · intro fits
          exact ⟨(stores_bounded_iff free).mpr fun _ => fits, fun long => by omega⟩
      · have stores := (stores_bounded_iff free).mpr fun inside => absurd inside ends
        constructor
        · intro bounded
          rw [or_iff_not_imp_left, not_lt]
          exact fun long => (rejects_iff long).mp (bounded.rejected long)
        · intro fits
          refine ⟨stores, fun long => (rejects_iff long).mpr ?_⟩
          exact fits.resolve_left (not_lt.mpr long)

/-! ## getargs -/

/-- The argument that the PCB holds whose stack ESP is on. -/
def Kernel.stored_argument (kernel : Kernel) (esp : Nat) : List UInt8 :=
  text (List.ofFn (kernel.pcb (get_cur_pcb esp)).argument)

/-- `getargs` returns, writes no more than `nbytes` bytes and fails if the argument does not fit in
them with its NUL. -/
def GetargsBounded (kernel : Kernel) (esp : Nat) (buf_null : Bool) (nbytes : Int) : Prop :=
  ∃ result bytes, kernel.getargs esp buf_null nbytes = some (result, bytes) ∧
    bytes.length ≤ nbytes.toNat ∧
    (nbytes < (kernel.stored_argument esp).length + 1 → result = -1)

theorem getargs_loop_eq (cells : List UInt8) :
    getargs_loop cells =
      if (text cells).length < cells.length then some (text cells ++ [0]) else none := by
  induction cells with
  | nil => rfl
  | cons c cells ih =>
      rw [getargs_loop, text_cons]
      split_ifs with nul empty within
      · rfl
      · exact absurd (Nat.succ_pos _) empty
      · rw [ih, if_pos (by simpa using within)]
        rfl
      · rw [ih, if_neg (by simpa using within)]
        rfl

/-- An argument array that holds a NUL. -/
def Terminated (argument : Fin 128 → UInt8) : Prop := ∃ k, argument k = 0

theorem Terminated.length_lt {argument : Fin 128 → UInt8} (terminated : Terminated argument) :
    (text (List.ofFn argument)).length < 128 := by
  obtain ⟨k, nul⟩ := terminated
  have length_eq : (List.ofFn argument).length = 128 := List.length_ofFn
  have short := text_length_le (List.ofFn argument)
  refine lt_of_le_of_ne (short.trans length_eq.le) fun full => ?_
  have whole : text (List.ofFn argument) = List.ofFn argument :=
    (List.takeWhile_prefix _).eq_of_length (full.trans length_eq.symm)
  have mem : (0 : UInt8) ∈ text (List.ofFn argument) := by
    rw [whole, List.mem_ofFn]
    exact ⟨k, nul⟩
  exact ne_zero_of_mem_text mem rfl

theorem terminated_store_argument (old : Fin 128 → UInt8) {bytes : List UInt8}
    (fits : bytes.length ≤ 127) : Terminated (store_argument old bytes) := by
  refine ⟨⟨bytes.length, by omega⟩, ?_⟩
  rw [store_argument, if_neg (lt_irrefl _), if_pos rfl]

/-- `getargs` stays within the buffer exactly when there is no buffer or no argument, or the
argument fits. -/
theorem getargs_bounded_iff {kernel : Kernel} {esp : Nat}
    (terminated : Terminated (kernel.pcb (get_cur_pcb esp)).argument) (buf_null : Bool)
    (nbytes : Int) :
    GetargsBounded kernel esp buf_null nbytes ↔
      buf_null ∨ nbytes ≤ 0 ∨ kernel.stored_argument esp = [] ∨
        (kernel.stored_argument esp).length < nbytes := by
  have length_lt := terminated.length_lt
  have length_eq : (List.ofFn (kernel.pcb (get_cur_pcb esp)).argument).length = 128 :=
    List.length_ofFn
  have first_eq : (kernel.pcb (get_cur_pcb esp)).argument 0 = 0 ↔
      kernel.stored_argument esp = [] := by
    rw [Kernel.stored_argument, List.ofFn_succ, text_cons]
    split_ifs with nul
    · exact iff_of_true nul rfl
    · exact iff_of_false nul id
  by_cases refused : buf_null ∨ nbytes ≤ 0
  · refine iff_of_true ⟨-1, [], ?_, Nat.zero_le _, fun _ => rfl⟩ ?_
    · rw [Kernel.getargs, if_pos refused]
    · exact or_assoc.mp (Or.inl refused)
  · rw [← or_assoc, or_iff_right refused]
    by_cases no_argument : kernel.stored_argument esp = []
    · refine iff_of_true ⟨-1, [], ?_, Nat.zero_le _, fun _ => rfl⟩ (Or.inl no_argument)
      rw [Kernel.getargs, if_neg refused]
      simp only [if_pos (first_eq.mpr no_argument)]
    · have copied : kernel.getargs esp buf_null nbytes =
          some (0, kernel.stored_argument esp ++ [0]) := by
        rw [Kernel.getargs, if_neg refused]
        simp only [if_neg (mt first_eq.mp no_argument), getargs_loop_eq, length_eq,
          if_pos length_lt]
        rfl
      rw [GetargsBounded, copied, or_iff_right no_argument]
      rw [not_or] at refused
      constructor
      · rintro ⟨result, bytes, answer, room, -⟩
        obtain ⟨rfl, rfl⟩ := Prod.mk.inj (Option.some.inj answer)
        rw [List.length_append, List.length_singleton] at room
        omega
      · intro fits
        refine ⟨0, _, rfl, ?_, fun tight => absurd fits (by omega)⟩
        rw [List.length_append, List.length_singleton]
        omega

/-! ## Runs -/

/-- The arguments of all processes hold a NUL. -/
def Kernel.AllTerminated (kernel : Kernel) : Prop :=
  ∀ p, kernel.Live p → Terminated (kernel.pcb (pcbAddress p)).argument

namespace Kernel.AllTerminated

theorem of_same {kernel next : Kernel} (all : kernel.AllTerminated)
    (process_arr : next.process_arr = kernel.process_arr)
    (argument : ∀ a, (next.pcb a).argument = (kernel.pcb a).argument) : next.AllTerminated := by
  intro p live
  rw [Live, process_arr] at live
  rw [argument]
  exact all p live

theorem execute (all : kernel.AllTerminated) {command : Option (List UInt8)}
    (fits : argument_fits command) :
    (ComputerSystem.execute image kernel frame command).2.AllTerminated := by
  intro p live
  rcases execute_argument_live live with ⟨live_before, kept, -⟩ | ⟨line, launched, stored⟩
  · rw [kept]
    exact all p live_before
  · obtain ⟨-, line_eq, -⟩ := launched_eq_some_iff.mp launched
    rw [stored]
    exact terminated_store_argument _ (fits line line_eq)

theorem release (all : kernel.AllTerminated) (address : Nat) :
    (kernel.release address).AllTerminated := by
  intro p live
  rcases eq_or_ne (pcbAddress p) address with rfl | other
  · rw [release_pcb_same]
    exact ⟨0, rfl⟩
  · rw [release_pcb_of_ne kernel other]
    apply all p
    rw [Live, release_process_arr, CArray.store] at live
    split_ifs at live
    · exact absurd live (by decide)
    · exact live

theorem halt_return (all : kernel.AllTerminated) (address status : Nat) :
    (kernel.halt_return address status).2.AllTerminated := by
  simp only [Kernel.halt_return]
  split_ifs
  · exact all
  · exact all.of_same rfl fun a => by rw [setTss_pcb, paging_set_up_pcb]

theorem real_halt (all : kernel.AllTerminated) (esp status : Nat) :
    (ComputerSystem.real_halt image kernel esp frame status).2.AllTerminated := by
  apply real_halt_keeps
  · intro kernel message all
    exact all.of_same (kernel.kept_printf message).process_arr fun a => by rw [kernel.printf_pcb]
  · intro kernel all
    exact all.execute (by decide)
  · intro kernel address status all
    exact all.halt_return address status
  · exact all.release _

end Kernel.AllTerminated

namespace Commanded

/-- Events of the machine with commands that fit keep the arguments terminated. -/
theorem all_terminated_machine {image : Image} {machine next : Machine} {event : MachineEvent}
    (all : machine.kernel.AllTerminated) (fits : event.fits)
    (taken : machine.step image event = some next) : next.kernel.AllTerminated := by
  rcases Machine.step_cases taken with ⟨kernel, frame, command, turns, home, executes, executed⟩ |
    ⟨c, kernel, esp, frame, status, no_call, ends, ended⟩ | ⟨no_call, no_end, passed⟩
  · have same := Machine.executes_spec executes
    have before : kernel.AllTerminated := all.of_same same.process_arr fun a => by rw [same.pcb]
    rw [Machine.executed_kernel executed]
    apply before.execute
    cases event with
    | execute frame command =>
        obtain ⟨-, call_eq⟩ := Option.ite_none_right_eq_some.mp executes
        cases call_eq
        exact fits
    | turn frame =>
        simp only [Machine.executes] at executes
        split at executes
        · cases executes
        · obtain ⟨-, call_eq⟩ := Option.ite_none_right_eq_some.mp executes
          cases call_eq
          decide
    | _ => cases executes
  · obtain ⟨-, -, same⟩ := Machine.ends_spec ends
    have before : kernel.AllTerminated := all.of_same same.process_arr fun a => by rw [same.pcb]
    rw [Machine.ended_kernel ended]
    exact before.real_halt esp status
  · obtain ⟨-, -, same⟩ := Machine.passed_spec passed
    exact all.of_same same.process_arr fun a => by rw [same.pcb]

theorem all_terminated_step {image : Image} {state next : Commanded} {event : CommandEvent}
    (all : state.machine.kernel.AllTerminated) (taken : state.step image event = some next) :
    next.machine.kernel.AllTerminated := by
  cases event with
  | machine event =>
      obtain ⟨fits, happens⟩ := Option.ite_none_right_eq_some.mp taken
      obtain ⟨machine, machine_step, next_eq⟩ := Option.map_eq_some_iff.mp happens
      cases next_eq
      exact all_terminated_machine all fits machine_step
  | call esp syscall =>
      obtain ⟨-, called⟩ := Option.ite_none_right_eq_some.mp taken
      obtain ⟨answer, -, next_eq⟩ := Option.map_eq_some_iff.mp called
      cases next_eq
      refine all.of_same rfl fun a => ?_
      rcases eq_or_ne a (get_cur_pcb esp) with rfl | other
      · rw [Kernel.setTask_pcb_same]
      · rw [Kernel.setTask_pcb_of_ne _ _ other]
  | interrupt devices =>
      cases taken
      exact all.of_same rfl fun _ => rfl

/-- In every run whose commands fit: the next call of `execute` stays within `pcb->argument` and
rejects what does not fit there exactly when its argument fits, and a call of `getargs` by a process
stays within its buffer and rejects what does not fit there exactly when there is no buffer or no
argument, or the argument fits. -/
theorem arguments_bounded_iff (image : Image) (kernel : Kernel) (events : List CommandEvent) :
    ∀ state ∈ Run.visited (step image) (start kernel) events,
      (∀ frame line, ExecuteBounded image state.machine.kernel frame line ↔
        ArgumentFits image state.machine.kernel frame line) ∧
      ∀ p esp, state.machine.kernel.Live p → get_cur_pcb esp = pcbAddress p →
        ∀ buf_null nbytes, GetargsBounded state.machine.kernel esp buf_null nbytes ↔
          buf_null ∨ nbytes ≤ 0 ∨ state.machine.kernel.stored_argument esp = [] ∨
            (state.machine.kernel.stored_argument esp).length < nbytes := by
  intro state visited
  refine ⟨fun frame line => execute_bounded_iff image _ frame line, ?_⟩
  intro p esp live own_stack buf_null nbytes
  have initial : (start kernel).machine.kernel.AllTerminated := fun p live =>
    absurd live (zero_ne_one : (0 : Int) ≠ 1)
  have all := Run.invariant_of_ok (fun state => state.machine.kernel.AllTerminated)
    (fun _ _ => True) (fun _ _ _ all _ taken => all_terminated_step all taken) initial events
    (fun _ _ => trivial) state visited
  have terminated := all p live
  rw [← own_stack] at terminated
  exact getargs_bounded_iff terminated buf_null nbytes

/-- The argument of `ls` with its NUL fits in two bytes. -/
theorem arguments_bounded_iff_ls :
    ∃ state, Run.run (step Image.sample) (start Kernel.boot)
        (call_with_argument.map CommandEvent.machine) = some state ∧
      GetargsBounded state.machine.kernel (stackTop 3) false 2 := by
  have facts : (Run.run (step Image.sample) (start Kernel.boot)
      (call_with_argument.map CommandEvent.machine)).map (fun state =>
        (decide (state.machine.kernel.Live 3), state.machine.kernel.stored_argument (stackTop 3))) =
      some (true, [97]) := by decide +kernel
  generalize call_with_argument.map CommandEvent.machine = events at facts ⊢
  obtain ⟨state, reached, facts⟩ := Option.map_eq_some_iff.mp facts
  simp only [Prod.mk.injEq, decide_eq_true_eq] at facts
  obtain ⟨live, stored⟩ := facts
  have bounded_iff := (arguments_bounded_iff Image.sample Kernel.boot events state
    (Run.mem_visited_of_run reached)).2 3 (stackTop 3) live (get_cur_pcb_stackTop 3) false 2
  refine ⟨state, reached, bounded_iff.mpr ?_⟩
  rw [stored]
  decide

/-- `ls` with an argument of 128 characters. -/
def long_command : List UInt8 := [108, 115, 32] ++ List.replicate 128 97

/-- Its NUL goes behind `pcb->argument`, and `getargs` writes two bytes to a buffer of one. -/
theorem arguments_overrun :
    ¬ExecuteBounded Image.sample Kernel.boot Frame.zero long_command ∧
      ∃ state, Run.run (step Image.sample) (start Kernel.boot)
          (call_with_argument.map CommandEvent.machine) = some state ∧
        state.machine.kernel.Live 3 ∧
        ¬GetargsBounded state.machine.kernel (stackTop 3) false 1 := by
  have facts : (Run.run (step Image.sample) (start Kernel.boot)
      (call_with_argument.map CommandEvent.machine)).map (fun state =>
        (decide (state.machine.kernel.Live 3), state.machine.kernel.stored_argument (stackTop 3),
          (state.machine.kernel.pcb (get_cur_pcb (stackTop 3))).argument 1)) =
      some (true, [97], 0) := by decide +kernel
  generalize call_with_argument.map CommandEvent.machine = events at facts ⊢
  obtain ⟨state, reached, facts⟩ := Option.map_eq_some_iff.mp facts
  simp only [Prod.mk.injEq, decide_eq_true_eq] at facts
  obtain ⟨live, stored, nul⟩ := facts
  constructor
  · intro bounded
    have free : Kernel.boot.free_slot = some 0 := by decide
    have fits := (stores_bounded_iff free).mp bounded.stores
    exact absurd (fits (by decide +kernel)) (by decide +kernel)
  · refine ⟨state, reached, live, ?_⟩
    rw [getargs_bounded_iff ⟨1, nul⟩, stored]
    decide

end Commanded

end ComputerSystem
