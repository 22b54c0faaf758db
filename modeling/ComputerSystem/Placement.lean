import ComputerSystem.Scheduling

/-!
# What the scheduling array says

`schedule_arr` is meant to hold the running process of each terminal.  `execute` stores into it, and
into `term`, with the index that its scan of the command left behind, and `contextSwitch` stores
before it knows whether its call starts anything.
-/

namespace ComputerSystem

open CArray

namespace Machine

/-- Every cell of `schedule_arr` is unset or names a process of its terminal, on which `term`
agrees, and no store into `term` left the array. -/
structure Placed (machine : Machine) : Prop where
  /-- The cells. -/
  cells : ∀ t, machine.kernel.schedule_arr t = -1 ∨ ∃ p : Fin 6,
    machine.kernel.schedule_arr t = p ∧ machine.kernel.Live p ∧ machine.home p = t ∧
    (machine.kernel.console.term t).pcb_idx = p
  /-- The stores. -/
  inside : machine.kernel.console.term_overrun = false

/-- The loop of `contextSwitch` finds a terminal without a shell. -/
def StartsShell (machine : Machine) : MachineEvent → Prop
  | .turn _ => ∃ i ∈ machine.turns.head?, machine.kernel.schedule_arr i = -1
  | _ => False

/-- No process was started since `start_up`. -/
structure Idle (machine : Machine) : Prop where
  /-- Nothing runs. -/
  running : machine.running = none
  /-- No slot is taken. -/
  free : ∀ p, ¬machine.kernel.Live p
  /-- No terminal has a shell. -/
  unset : ∀ t, machine.kernel.schedule_arr t = -1
  /-- No store left `term`. -/
  inside : machine.kernel.console.term_overrun = false

theorem idle_start (kernel : Kernel) : (start kernel).Idle where
  running := rfl
  free _ := zero_ne_one
  unset _ := rfl
  inside := rfl

theorem Idle.placed {machine : Machine} (idle : machine.Idle) : machine.Placed where
  cells t := Or.inl (idle.unset t)
  inside := idle.inside

/-- Without a running process only the loop of `contextSwitch` calls `execute`, and it finds a
terminal without a shell. -/
theorem Idle.step_cases {image : Image} {machine : Machine} (idle : machine.Idle)
    {event : MachineEvent} {next : Machine} (taken : machine.step image event = some next) :
    (¬machine.StartsShell event ∧ next.Idle) ∨
    ∃ frame i turns, event = .turn frame ∧ machine.turns = i :: turns ∧
      machine.executed frame turns i
        (ComputerSystem.execute image (machine.kernel.take_turn i) frame (some shell)) =
          some next := by
  cases event with
  | tick =>
      obtain ⟨-, next_eq⟩ := Option.ite_none_right_eq_some.mp taken
      cases next_eq
      exact Or.inl ⟨id, idle.running, idle.free, idle.unset, idle.inside⟩
  | turn frame =>
      simp only [step, executes, ends, passed, turns_left, home_of] at taken
      cases turns_eq : machine.turns with
      | nil =>
          simp only [turns_eq] at taken
          cases taken
      | cons i turns =>
          simp only [turns_eq, if_pos (idle.unset i)] at taken
          exact Or.inr ⟨frame, i, turns, rfl, rfl, taken⟩
  | switch t =>
      cases taken
      exact Or.inl ⟨id, idle.running, idle.free, idle.unset, idle.inside⟩
  | execute frame command =>
      simp only [step, executes, ends, passed, idle.running, ne_eq, not_true_eq_false, false_and,
        if_false] at taken
      cases taken
  | halt esp frame status =>
      simp only [step, executes, ends, passed, idle.running, Option.map_none, ite_self] at taken
      cases taken
  | exception message esp frame =>
      simp only [step, executes, ends, passed, idle.running, Option.map_none, ite_self] at taken
      cases taken

/-- The call of `execute` in the loop of `contextSwitch` leaves a cell that names no process, or
stores past the end of `term`. -/
theorem Idle.not_placed {image : Image} {machine : Machine} (idle : machine.Idle) {frame : Frame}
    {i : Fin 3} {turns : List (Fin 3)} {next : Machine}
    (taken : machine.executed frame turns i
      (ComputerSystem.execute image (machine.kernel.take_turn i) frame (some shell)) = some next) :
    ¬next.Placed := by
  intro placed
  rcases execute_cases image (machine.kernel.take_turn i) frame (some shell) with
    ⟨failed, result, kept⟩ | ⟨slot, line, entry_point, last, free, line_eq, -, result, started⟩
  · rw [result] at taken
    cases taken
    have stored : failed.schedule_arr i = i := by
      rw [kept.schedule_arr]
      exact store_same _ i _
    rcases placed.cells i with unset | ⟨p, -, live, -⟩
    · change failed.schedule_arr i = -1 at unset
      omega
    · change failed.process_arr p = 1 at live
      rw [kept.process_arr] at live
      exact idle.free p live
  · rw [result] at taken
    cases taken
    cases line_eq
    have inside : last.console.term_overrun = false := placed.inside
    rw [started.term_overrun, scan_shell] at inside
    simp at inside

/-- From `start_up` on, `schedule_arr` and `term` agree with the processes exactly as long as the
loop of `contextSwitch` has found no terminal without a shell. -/
theorem placed_iff_no_shell_started (image : Image) (kernel : Kernel) (events : List MachineEvent) :
    (∀ machine ∈ Run.visited (step image) (start kernel) events, machine.Placed) ↔
      ∀ entry ∈ Run.taken (step image) (start kernel) events, ¬entry.1.StartsShell entry.2 := by
  refine Run.weak_iff_ok (fun machine event => ¬machine.StartsShell event) Idle Placed
    (fun _ idle => idle.placed) ?_ ?_ (idle_start kernel) events
  · intro machine event next idle taken no_shell
    rcases idle.step_cases taken with ⟨-, next_idle⟩ | ⟨frame, i, turns, rfl, turns_eq, -⟩
    · exact next_idle
    · refine absurd ⟨i, ?_, idle.unset i⟩ no_shell
      rw [turns_eq]
      rfl
  · intro machine event next idle taken shell_started
    rcases idle.step_cases taken with ⟨no_shell, -⟩ | ⟨frame, i, turns, -, -, executed⟩
    · exact absurd no_shell shell_started
    · exact idle.not_placed executed

/-- The first tick starts a shell on terminal 0, leaves 5 in `schedule_arr[0]` and stores into
`term[5]`. -/
theorem first_shell_not_placed :
    ¬∀ machine ∈ Run.visited (step Image.sample) (start Kernel.boot) [.tick, .turn Frame.zero],
      machine.Placed := by
  intro all_placed
  have finishes : (Run.run (step Image.sample) (start Kernel.boot)
      [.tick, .turn Frame.zero]).isSome := by decide
  obtain ⟨machine, reached⟩ := Option.isSome_iff_exists.mp finishes
  have facts : (Run.run (step Image.sample) (start Kernel.boot) [.tick, .turn Frame.zero]).map
      (fun machine => machine.kernel.console.term_overrun) = some true := by decide
  rw [reached, Option.map_some, Option.some.injEq] at facts
  have inside := (all_placed machine (Run.mem_visited_of_run reached)).inside
  rw [facts] at inside
  cases inside

end Machine

end ComputerSystem
