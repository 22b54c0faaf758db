import ComputerSystem.StrayStores

/-!
# Process slots over whole runs

Processes are started, end, and open and close files in any order.  Next to the kernel a run keeps
the set of slots whose process was started and has not ended; what the kernel's own table says is
compared with it.  A start whose stores stray faults with its slot taken.
-/

namespace ComputerSystem

open CArray

/-- What happens to the processes. -/
inductive LifecycleEvent
  /-- Somebody calls `execute`. -/
  | execute (frame : Frame) (command : Option (List UInt8))
  /-- A process halts. -/
  | halt (p : Fin 6) (esp : Nat) (frame : Frame) (status : UInt8)
  /-- A process raises an exception. -/
  | exception (p : Fin 6) (esp : Nat) (frame : Frame)
  /-- A process makes a call on its descriptors. -/
  | call (p : Fin 6) (syscall : Syscall)

/-- The kernel with the slots whose process was started and has not ended. -/
structure Lifecycle where
  /-- The kernel. -/
  kernel : Kernel
  /-- Not in the source: the slots in use. -/
  live : Finset (Fin 6)

/-- The argument of a command fits `pcb->argument`. -/
def argument_fits (command : Option (List UInt8)) : Prop :=
  ∀ line ∈ command, (scan_command line).argument.length ≤ 127

instance (command : Option (List UInt8)) : Decidable (argument_fits command) :=
  inferInstanceAs (Decidable (∀ line ∈ command, _))

namespace Lifecycle

/-- The slots that an event leaves in use before it starts a process. -/
def remaining (state : Lifecycle) : LifecycleEvent → Finset (Fin 6)
  | .halt p _ _ _ | .exception p _ _ => state.live.erase p
  | _ => state.live

/-- What an event does: processes that halt or make calls are live ones, on their own kernel
stack. -/
def outcome (mod : BootModule) (image : Image) (state : Lifecycle) :
    LifecycleEvent → Option (Outcome × Kernel)
  | .execute frame command =>
      if argument_fits command then mod.execute image state.kernel frame command else none
  | .halt p esp frame status =>
      if p ∈ state.live ∧ get_cur_pcb esp = pcbAddress p then
        some (ComputerSystem.halt image state.kernel esp frame status)
      else none
  | .exception p esp frame =>
      if p ∈ state.live ∧ get_cur_pcb esp = pcbAddress p then
        some (ComputerSystem.real_halt image state.kernel esp frame 256)
      else none
  | .call p syscall =>
      if p ∈ state.live then
        ((state.kernel.task (pcbAddress p)).call image syscall).map fun answer =>
          (.returned answer.result, state.kernel.setTask (pcbAddress p) answer.task)
      else none

/-- The slots in use after an outcome. -/
def occupied (remaining : Finset (Fin 6)) : Outcome → Finset (Fin 6)
  | .started slot _ => insert slot remaining
  | _ => remaining

/-- One event. -/
def step (mod : BootModule) (image : Image) (state : Lifecycle) (event : LifecycleEvent) :
    Option Lifecycle :=
  (state.outcome mod image event).map fun (outcome, kernel) =>
    ⟨kernel, occupied (state.remaining event) outcome⟩

/-- The stores of what an event starts, if anything, go where nothing else is. -/
def Settles (mod : BootModule) (image : Image) (state : Lifecycle) : LifecycleEvent → Prop
  | .execute frame command => ∀ process ∈ state.kernel.launched image frame command,
      mod.Settles state.kernel process.1 (scan_command process.2).i
  | _ => True

instance (mod : BootModule) (image : Image) (state : Lifecycle) (event : LifecycleEvent) :
    Decidable (state.Settles mod image event) :=
  match event with
  | .execute frame command =>
      inferInstanceAs (Decidable (∀ process ∈ state.kernel.launched image frame command, _))
  | .halt _ _ _ _ | .exception _ _ _ | .call _ _ => isTrue trivial

/-- The tables agree with the slots in use, and free slots have nothing open. -/
structure Clean (kernel : Kernel) (live : Finset (Fin 6)) : Prop where
  /-- The kernel's table. -/
  mem_live : ∀ p, kernel.Live p ↔ p ∈ live
  /-- A PCB in use has the number of its slot. -/
  pid : ∀ p ∈ live, (kernel.pcb (pcbAddress p)).pid = p
  /-- A PCB in use has a sound descriptor table. -/
  sound : ∀ p ∈ live, (kernel.task (pcbAddress p)).Sound
  /-- The other slots have no open descriptors. -/
  closed : ∀ p ∉ live, ∀ fd, ((kernel.pcb (pcbAddress p)).fdt fd).flags = 0

/-- Only slots, numbers and descriptors count. -/
theorem Clean.of_same {kernel next : Kernel} {live : Finset (Fin 6)} (clean : Clean kernel live)
    (process_arr : next.process_arr = kernel.process_arr)
    (pcb : ∀ a, (next.pcb a).pid = (kernel.pcb a).pid ∧ (next.pcb a).fdt = (kernel.pcb a).fdt) :
    Clean next live where
  mem_live p := by
    rw [← clean.mem_live p]
    simp only [Kernel.Live, process_arr]
  pid p mem := (pcb _).1.trans (clean.pid p mem)
  sound p mem := (clean.sound p mem).of_fdt_eq (pcb _).2
  closed p not_mem fd := by
    simp only [(pcb _).2]
    exact clean.closed p not_mem fd

theorem Clean.kept {kernel next : Kernel} {live : Finset (Fin 6)} (clean : Clean kernel live)
    (kept : kernel.Kept next) : Clean next live := by
  refine clean.of_same kept.process_arr fun a => ?_
  obtain ⟨argument, pcb_eq⟩ := kept.pcb a
  rw [pcb_eq]
  exact ⟨rfl, rfl⟩

theorem Clean.halt_return {kernel : Kernel} {live : Finset (Fin 6)} (clean : Clean kernel live)
    (address status : Nat) :
    Clean (kernel.halt_return address status).2
      (occupied live (kernel.halt_return address status).1) := by
  simp only [Kernel.halt_return]
  split_ifs
  · exact clean
  · exact clean.of_same rfl fun a => ⟨rfl, rfl⟩

theorem Clean.free_slot {kernel : Kernel} {live : Finset (Fin 6)} (clean : Clean kernel live)
    {slot : Fin 6} (free : kernel.free_slot = some slot) :
    slot ∉ live ∧ ∀ p, p < slot → p ∈ live := by
  obtain ⟨not_live, busy⟩ := Kernel.free_slot_spec free
  exact ⟨fun mem => not_live ((clean.mem_live slot).mpr mem),
    fun p below => (clean.mem_live p).mp (busy p below)⟩

theorem Clean.started_files {kernel : Kernel} {live : Finset (Fin 6)} (clean : Clean kernel live)
    {slot : Fin 6} (free : kernel.free_slot = some slot) {frame : Frame} {i : Nat} {next : Kernel}
    (started : Started kernel frame slot i next) (fd : Fin 8) :
    ((next.pcb (pcbAddress slot)).fdt fd).flags ≠ 0 ↔ fd.val < 2 := by
  have closed := clean.closed slot (clean.free_slot free).1 fd
  rw [started.fdt]
  simp only [set_up_io_file, Function.update_apply]
  split_ifs with one zero
  · simp [one]
  · simp [zero]
  · refine iff_of_false (not_not.mpr closed) ?_
    omega

theorem Clean.started {kernel : Kernel} {live : Finset (Fin 6)} (clean : Clean kernel live)
    {slot : Fin 6} (free : kernel.free_slot = some slot) {frame : Frame} {i : Nat} {next : Kernel}
    (started : Started kernel frame slot i next) : Clean next (insert slot live) := by
  have unused := clean.free_slot free
  refine
    { mem_live := fun p => ?_
      pid := fun p mem => ?_
      sound := fun p mem => ?_
      closed := fun p not_mem fd => ?_ }
  · rw [started.live_iff, Finset.mem_insert, clean.mem_live p]
  · rcases eq_or_ne p slot with rfl | other
    · exact started.pid
    · rw [(started.other_kept other).1]
      exact clean.pid p (Finset.mem_of_mem_insert_of_ne mem other)
  · rcases eq_or_ne p slot with rfl | other
    · have fresh (fd : Fin 8) (_ : 2 ≤ fd) := clean.closed p unused.1 fd
      exact (Task.sound_set_up_io_file fresh next.devices).of_fdt_eq started.fdt
    · have sound := clean.sound p (Finset.mem_of_mem_insert_of_ne mem other)
      exact sound.of_fdt_eq (started.other_kept other).2.2
  · rw [Finset.mem_insert, not_or] at not_mem
    simp only [(started.other_kept not_mem.1).2.2]
    exact clean.closed p not_mem.2 fd

/-- A halting process gives its slot up with everything in it. -/
theorem Clean.release {kernel : Kernel} {live : Finset (Fin 6)} (clean : Clean kernel live)
    {p : Fin 6} (mem : p ∈ live) : Clean (kernel.release (pcbAddress p)) (live.erase p) := by
  have other_pcb {q : Fin 6} (other : q ≠ p) := kernel.release_pcb_of_ne (pcbAddress_ne other)
  refine
    { mem_live := fun q => ?_
      pid := fun q mem => ?_
      sound := fun q mem => ?_
      closed := fun q not_mem fd => ?_ }
  · rw [Kernel.release_live_iff (clean.pid p mem), Finset.mem_erase, clean.mem_live q]
  · obtain ⟨other, mem⟩ := Finset.mem_erase.mp mem
    simp only [other_pcb other]
    exact clean.pid q mem
  · obtain ⟨other, mem⟩ := Finset.mem_erase.mp mem
    exact (clean.sound q mem).of_fdt_eq (by rw [Kernel.task_fdt, Kernel.task_fdt, other_pcb other])
  · rcases eq_or_ne q p with rfl | other
    · rw [Kernel.release_pcb_same]
      simp only [Pcb.released]
      split_ifs
      · rfl
      · exact Fd.closed_flags ((clean.sound q mem).has_table fd)
    · simp only [other_pcb other]
      exact clean.closed q (fun mem => not_mem (Finset.mem_erase.mpr ⟨other, mem⟩)) fd

/-- What starts a process: the slot it takes and what is open in it. -/
def StartsClean (remaining : Finset (Fin 6)) (outcome : Outcome) (kernel : Kernel) : Prop :=
  ∀ slot entry_point, outcome = .started slot entry_point →
    slot ∉ remaining ∧ (∀ p, p < slot → p ∈ remaining) ∧
    ∀ fd, ((kernel.pcb (pcbAddress slot)).fdt fd).flags ≠ 0 ↔ fd.val < 2

theorem startsClean_of_not_started {remaining : Finset (Fin 6)} {outcome : Outcome}
    {kernel : Kernel} (not_started : ∀ slot entry_point, outcome ≠ .started slot entry_point) :
    StartsClean remaining outcome kernel :=
  fun slot entry_point started => absurd started (not_started slot entry_point)

theorem Clean.startsClean {kernel : Kernel} {live : Finset (Fin 6)} (clean : Clean kernel live)
    {slot : Fin 6} (free : kernel.free_slot = some slot) {frame : Frame} {i : Nat} {next : Kernel}
    (started : Started kernel frame slot i next) (entry_point : Nat) :
    StartsClean live (.started slot entry_point) next := by
  rintro _ _ ⟨⟩
  exact ⟨(clean.free_slot free).1, (clean.free_slot free).2, clean.started_files free started⟩

theorem Clean.execute {mod : BootModule} {image : Image} {kernel : Kernel} {live : Finset (Fin 6)}
    (clean : Clean kernel live) {frame : Frame} {command : Option (List UInt8)} {outcome : Outcome}
    {next : Kernel} (result : mod.execute image kernel frame command = some (outcome, next)) :
    StartsClean live outcome next ∧
      ((∀ process ∈ kernel.launched image frame command,
          mod.Settles kernel process.1 (scan_command process.2).i) →
        Clean next (occupied live outcome)) := by
  cases launched : kernel.launched image frame command with
  | none =>
      obtain ⟨kept_kernel, returned, kept⟩ := execute_not_launched launched
      rw [BootModule.execute_of_not_launched launched, returned] at result
      cases result
      exact ⟨startsClean_of_not_started fun _ _ => Outcome.noConfusion, fun _ => clean.kept kept⟩
  | some process =>
      obtain ⟨slot, line⟩ := process
      have free := (Kernel.launched_eq_some_iff.mp launched).1
      by_cases settles : mod.Settles kernel slot (scan_command line).i
      · obtain ⟨entry_point, last, entered, started⟩ := execute_launched launched
        rw [BootModule.execute_of_settles launched settles, entered] at result
        cases result
        exact ⟨clean.startsClean free started entry_point, fun _ => clean.started free started⟩
      · obtain ⟨rfl, -⟩ := BootModule.execute_of_not_settles launched settles result
        exact ⟨startsClean_of_not_started fun _ _ => Outcome.noConfusion,
          fun all => absurd (all _ rfl) settles⟩

theorem Clean.real_halt (image : Image) {kernel : Kernel} {live : Finset (Fin 6)}
    (clean : Clean kernel live) {p : Fin 6} (mem : p ∈ live) {esp : Nat}
    (own_stack : get_cur_pcb esp = pcbAddress p) (frame : Frame) (status : Nat) :
    let result := ComputerSystem.real_halt image kernel esp frame status
    Clean result.2 (occupied (live.erase p) result.1) ∧
      StartsClean (live.erase p) result.1 result.2 := by
  have released := clean.release mem
  rw [← own_stack] at released
  have ended {kernel : Kernel} (clean : Clean kernel (live.erase p)) (address : Nat) :
      StartsClean (live.erase p) (kernel.halt_return address status).1
        (kernel.halt_return address status).2 := by
    refine startsClean_of_not_started fun _ _ => ?_
    simp only [Kernel.halt_return]
    split_ifs <;> exact Outcome.noConfusion
  rcases real_halt_cases image frame status with
    ⟨failed, kept, result⟩ | ⟨slot, entry_point, next, free, result, started⟩
  · rw [result]
    exact ⟨(released.kept kept).halt_return _ _, ended (released.kept kept) _⟩
  · rw [result]
    exact ⟨released.started free started, released.startsClean free started entry_point⟩

theorem Clean.call {image : Image} {kernel : Kernel} {live : Finset (Fin 6)}
    (types : ∀ entry ∈ image.entries, entry.file_type ≤ 2) (clean : Clean kernel live)
    {p : Fin 6} (mem : p ∈ live) {syscall : Syscall} {answer : Answer}
    (returned : (kernel.task (pcbAddress p)).call image syscall = some answer) :
    Clean (kernel.setTask (pcbAddress p) answer.task) live := by
  have own_pcb := kernel.setTask_pcb_same (pcbAddress p) answer.task
  have other_pcb {q : Fin 6} (other : q ≠ p) := kernel.setTask_pcb_of_ne answer.task
    (pcbAddress_ne other)
  refine
    { mem_live := clean.mem_live
      pid := fun q in_use => ?_
      sound := fun q in_use => ?_
      closed := fun q unused fd => ?_ }
  · rcases eq_or_ne q p with rfl | other
    · simp only [own_pcb]
      exact clean.pid q in_use
    · simp only [other_pcb other]
      exact clean.pid q in_use
  · rcases eq_or_ne q p with rfl | other
    · exact (Task.sound_call types (clean.sound q in_use) returned).of_fdt_eq
        (by rw [Kernel.task_fdt, own_pcb])
    · exact (clean.sound q in_use).of_fdt_eq
        (by rw [Kernel.task_fdt, Kernel.task_fdt, other_pcb other])
  · have other : q ≠ p := by
      rintro rfl
      exact unused mem
    simp only [other_pcb other]
    exact clean.closed q unused fd

/-- What an event starts, it starts clean; when its stores settle, it keeps the tables clean. -/
theorem Clean.outcome {mod : BootModule} {image : Image}
    (types : ∀ entry ∈ image.entries, entry.file_type ≤ 2) {state : Lifecycle}
    (clean : Clean state.kernel state.live) {event : LifecycleEvent} {outcome : Outcome}
    {next : Kernel} (happens : state.outcome mod image event = some (outcome, next)) :
    StartsClean (state.remaining event) outcome next ∧
      (state.Settles mod image event →
        Clean next (occupied (state.remaining event) outcome)) := by
  cases event with
  | execute frame command =>
      obtain ⟨-, result⟩ := Option.ite_none_right_eq_some.mp happens
      exact clean.execute result
  | halt p esp frame status =>
      obtain ⟨⟨mem, own_stack⟩, result⟩ := Option.ite_none_right_eq_some.mp happens
      have kept := clean.real_halt image mem own_stack frame status.toNat
      rw [ComputerSystem.halt] at result
      rw [Option.some_injective _ result] at kept
      exact ⟨kept.2, fun _ => kept.1⟩
  | exception p esp frame =>
      obtain ⟨⟨mem, own_stack⟩, result⟩ := Option.ite_none_right_eq_some.mp happens
      have kept := clean.real_halt image mem own_stack frame 256
      rw [Option.some_injective _ result] at kept
      exact ⟨kept.2, fun _ => kept.1⟩
  | call p syscall =>
      obtain ⟨mem, result⟩ := Option.ite_none_right_eq_some.mp happens
      obtain ⟨answer, returned, answer_eq⟩ := Option.map_eq_some_iff.mp result
      cases answer_eq
      exact ⟨startsClean_of_not_started fun _ _ => Outcome.noConfusion,
        fun _ => clean.call types mem returned⟩

theorem clean_start {kernel : Kernel} (free : ∀ p, ¬kernel.Live p)
    (zeroed : ∀ p : Fin 6, kernel.pcb (pcbAddress p) = Pcb.zero) : Clean kernel ∅ where
  mem_live p := iff_of_false (free p) (Finset.notMem_empty p)
  pid p mem := absurd mem (Finset.notMem_empty p)
  sound p mem := absurd mem (Finset.notMem_empty p)
  closed p _ fd := by
    rw [zeroed]
    rfl

/-- From free slots and zeroed PCBs on, in every run of starts, ends and calls of live processes in
which the stores of all starts settle: the kernel's table marks exactly the slots in use, and
whatever event comes next, a process that it starts takes the lowest slot not in use and has exactly
descriptors 0 and 1 open. -/
theorem slots_recycled (mod : BootModule) (image : Image)
    (types : ∀ entry ∈ image.entries, entry.file_type ≤ 2)
    (kernel : Kernel) (free : ∀ p, ¬kernel.Live p)
    (zeroed : ∀ p : Fin 6, kernel.pcb (pcbAddress p) = Pcb.zero) (events : List LifecycleEvent)
    (state : Lifecycle) (reached : Run.run (step mod image) ⟨kernel, ∅⟩ events = some state)
    (settle : ∀ entry ∈ Run.taken (step mod image) ⟨kernel, ∅⟩ events,
      entry.1.Settles mod image entry.2) :
    (∀ p, state.kernel.process_arr p = 1 ↔ p ∈ state.live) ∧
    ∀ event slot entry_point next,
      state.outcome mod image event = some (.started slot entry_point, next) →
        slot ∉ state.remaining event ∧ (∀ p, p < slot → p ∈ state.remaining event) ∧
        ∀ fd, ((next.pcb (pcbAddress slot)).fdt fd).flags ≠ 0 ↔ fd.val < 2 := by
  have clean : Clean state.kernel state.live := by
    refine Run.invariant_of_ok (fun state => Clean state.kernel state.live)
      (Settles mod image) ?_ (clean_start free zeroed) events settle state
      (Run.mem_visited_of_run reached)
    intro state event next clean settles taken
    obtain ⟨⟨outcome, kernel⟩, happens, rfl⟩ := Option.map_eq_some_iff.mp taken
    exact (clean.outcome types happens).2 settles
  exact ⟨clean.mem_live, fun event slot entry_point next happens =>
    (clean.outcome types happens).1 slot entry_point rfl⟩

/-- Three shells, and `ls` in slot 3, which opens two files, closes one and halts; the next `ls`
takes slot 3 again and finds two descriptors open. -/
theorem slots_recycled_ls :
    let events : List LifecycleEvent :=
      [.execute Frame.zero (some shell), .execute Frame.zero (some shell),
        .execute Frame.zero (some shell), .execute Frame.zero (some [108, 115]),
        .call 3 (.open_file shell), .call 3 (.open_file [108, 115]), .call 3 (.close 2),
        .halt 3 (stackTop 3) Frame.zero 7]
    ∃ state, Run.run (step BootModule.sample Image.sample) ⟨Kernel.boot, ∅⟩ events = some state ∧
      state.live = {0, 1, 2} ∧ (∀ p, state.kernel.process_arr p = 1 ↔ p ∈ state.live) ∧
      ∃ entry_point next,
        state.outcome BootModule.sample Image.sample (.execute Frame.zero (some [108, 115])) =
          some (.started 3 entry_point, next) ∧
        ∀ fd, ((next.pcb (pcbAddress 3)).fdt fd).flags ≠ 0 ↔ fd.val < 2 := by
  intro events
  have finishes : (Run.run (step BootModule.sample Image.sample) ⟨Kernel.boot, ∅⟩ events).map
      (fun state => (state.live, ((state.outcome BootModule.sample Image.sample
        (.execute Frame.zero (some [108, 115]))).map fun result => result.1))) =
      some ({0, 1, 2}, some (.started 3 0)) := by decide +kernel
  have settle : ∀ entry ∈ Run.taken (step BootModule.sample Image.sample) ⟨Kernel.boot, ∅⟩ events,
      entry.1.Settles BootModule.sample Image.sample entry.2 := by decide +kernel
  obtain ⟨state, reached, facts⟩ := Option.map_eq_some_iff.mp finishes
  obtain ⟨live, starts⟩ := Prod.mk.inj facts
  obtain ⟨⟨outcome, next⟩, happens, rfl⟩ := Option.map_eq_some_iff.mp starts
  have recycled := slots_recycled BootModule.sample Image.sample (by decide) Kernel.boot (by decide)
    (fun _ => rfl) events state reached settle
  exact ⟨state, reached, live, recycled.1, 0, next, happens,
    (recycled.2 _ 3 0 next happens).2.2⟩

/-- `ls` with blanks behind it. -/
def wide_line (blanks : Nat) : List UInt8 := 108 :: 115 :: List.replicate (blanks + 1) SPACE

theorem scan_wide_line (blanks : Nat) :
    scan_command (wide_line blanks) = { name := [108, 115], argument := [], i := blanks + 3 } := by
  have parsed : parse_command (wide_line blanks) 128 0 [] = ⟨2, [108, 115], true⟩ := by
    rw [wide_line, List.replicate_succ]
    rfl
  have skipped : argument_blanks (wide_line blanks) 2 = blanks + 1 := by
    rw [argument_blanks, wide_line, List.drop_succ_cons, List.drop_succ_cons, List.drop_zero,
      List.takeWhile_replicate]
    simp
  have argument : argument_text (wide_line blanks) 2 = [] := by
    rw [argument_text, skipped, List.drop_eq_nil_of_le]
    · rfl
    · rw [wide_line, List.length_cons, List.length_cons, List.length_replicate]
      omega
  simp only [scan_command, parsed, argument, skipped, if_true, List.length_nil, Scan.mk.injEq,
    true_and]
  omega

/-- A start whose index finds no page takes its slot for nobody. -/
theorem step_of_unmapped {mod : BootModule} {image : Image} {state : Lifecycle} {frame : Frame}
    {slot : Fin 6} {line : List UInt8}
    (launched : state.kernel.launched image frame (some line) = some (slot, line))
    (fits : argument_fits (some line))
    (saves : 2 < slot.val →
      mod.Saves (state.kernel.schedule_arr state.kernel.console.cur_term_idx))
    (unmapped : Unmapped (pcb_idx_address (scan_command line).i)) :
    ∃ next, step mod image state (.execute frame (some line)) = some ⟨next, state.live⟩ ∧
      next.Live slot := by
  obtain ⟨next, faults⟩ := BootModule.execute_of_unmapped launched saves unmapped
  have strays : ¬mod.Settles state.kernel slot (scan_command line).i := fun settles =>
    BootModule.not_takes_of_unmapped unmapped settles.1
  obtain ⟨-, marked⟩ := BootModule.execute_of_not_settles launched strays faults
  refine ⟨next, ?_, ?_⟩
  · simp only [step, outcome, if_pos fits, faults]
    rfl
  · rw [Kernel.Live, marked, store_fin, if_pos rfl]

/-- A shell executes `ls` with 30000 blanks behind it: the store into `term` faults, and slot 1 is
taken by nobody. -/
theorem slot_lost :
    ¬∀ events state,
      Run.run (step BootModule.sample Image.sample) ⟨Kernel.boot, ∅⟩ events = some state →
        ∀ p, state.kernel.process_arr p = 1 ↔ p ∈ state.live := by
  intro marks
  have starts : (step BootModule.sample Image.sample ⟨Kernel.boot, ∅⟩
      (.execute Frame.zero (some shell))).map
        (fun state => (state.live, state.kernel.free_slot)) = some ({0}, some 1) := by
    decide +kernel
  obtain ⟨state, started, facts⟩ := Option.map_eq_some_iff.mp starts
  obtain ⟨live, free⟩ := Prod.mk.inj facts
  have scan := scan_wide_line 29999
  generalize wide_line 29999 = line at scan
  have launched : state.kernel.launched Image.sample Frame.zero (some line) = some (1, line) := by
    refine Kernel.launched_eq_some_iff.mpr ⟨free, rfl, ?_⟩
    rw [scan]
    decide +kernel
  have fits : argument_fits (some line) := by
    rintro _ ⟨⟩
    rw [scan]
    decide
  obtain ⟨next, taken, lost⟩ : ∃ next,
      step BootModule.sample Image.sample state (.execute Frame.zero (some line)) =
        some ⟨next, state.live⟩ ∧ next.Live 1 :=
    step_of_unmapped launched fits (fun late => absurd late (by decide)) (by rw [scan]; decide)
  have reached : Run.run (step BootModule.sample Image.sample) ⟨Kernel.boot, ∅⟩
      [.execute Frame.zero (some shell), .execute Frame.zero (some line)] =
      some ⟨next, state.live⟩ := by
    rw [Run.run, started]
    exact congrArg (· >>= fun next => Run.run _ next []) taken
  have counted := (marks _ _ reached 1).mp lost
  rw [live] at counted
  exact absurd counted (by decide)

end Lifecycle

end ComputerSystem
