import ComputerSystem.AddressSpace

/-!
# Memory of the processes

The machine with the translations that the processor keeps.  In every run in which the children find
their parents, the tables stand for the running process's address space after each event, and no
access sees an older one.
-/

namespace ComputerSystem

open PageWalk

/-! ## The user page follows the running process -/

namespace Machine

/-- The event changes an entry of the tables, and so has the processor drop what it keeps. -/
def remaps (image : Image) (machine : Machine) (event : MachineEvent) : Bool :=
  (machine.starts image event).isSome || (machine.ends event).isSome

variable {image : Image} {machine next : Machine} {event : MachineEvent}

/-- The image of the process that runs next is mapped. -/
def Remapped (machine next : Machine) : Prop :=
  ∃ p, next.running = some p ∧
    next.kernel.page_dir = Function.update machine.kernel.page_dir 32 (user_entry p)

theorem remapped_started {kernel last : Kernel} {frame : Frame} {slot : Fin 6} {i : Nat}
    (before : kernel.page_dir = machine.kernel.page_dir)
    (started : Started kernel frame slot i last) (running : next.running = some slot)
    (kernel_eq : next.kernel = last) : machine.Remapped next := by
  refine ⟨slot, running, ?_⟩
  rw [kernel_eq, started.page_dir, paging_set_up_page_dir, before]

/-- A process that ends goes back to its starter's image, or a shell maps its own. -/
theorem Nested.remapped_ended (nested : machine.Nested) {c : Fin 6} {kernel : Kernel} {esp : Nat}
    {frame : Frame} {status : Nat}
    (ends : machine.ends event = some (c, kernel, esp, frame, status))
    (taken : machine.ended c frame (real_halt image kernel esp frame status) = some next) :
    machine.Remapped next := by
  obtain ⟨chained, live, own_stack⟩ := nested.ends ends
  obtain ⟨-, -, same⟩ := ends_spec ends
  have before (address : Nat) : (kernel.release address).page_dir = machine.kernel.page_dir := by
    rw [Kernel.release_page_dir, same.page_dir]
  cases relaunched : kernel.relaunched image esp frame with
  | some process =>
      obtain ⟨slot, line⟩ := process
      obtain ⟨-, -, entry_point, last, result, started⟩ := real_halt_relaunched relaunched status
      rw [result] at taken
      cases taken
      exact remapped_started (before _) started rfl rfl
  | none =>
      obtain ⟨failed, failed_kept, result⟩ := real_halt_not_relaunched relaunched status
      by_cases early : c.val ≤ 2
      · have no_parent : (failed.pcb (get_cur_pcb esp)).parent = 0 := by
          obtain ⟨argument, pcb_eq⟩ := failed_kept.pcb (get_cur_pcb esp)
          rw [pcb_eq, Kernel.release_pcb_same, own_stack]
          exact chained.first c live early
        rw [result, Kernel.halt_return, if_pos no_parent] at taken
        simp only [Machine.ended, reduceCtorEq] at taken
      · have late := not_le.mp early
        obtain ⟨p, waits⟩ := chained.waits c live late
        have released_page_dir := before (pcbAddress c)
        rw [real_halt_returns image chained live late waits own_stack frame status] at taken
        generalize kernel.release (pcbAddress c) = released at released_page_dir taken
        simp only [Machine.ended, waits.starter, and_self, if_true] at taken
        cases taken
        refine ⟨p, rfl, ?_⟩
        rw [Kernel.setTss_page_dir, paging_set_up_page_dir, released_page_dir]

/-- An event maps the image of the process that runs next, or no entry and no process changes. -/
theorem Nested.remapped (nested : machine.Nested) (taken : machine.step image event = some next) :
    (machine.remaps image event = true ∧ machine.Remapped next) ∨
      (machine.remaps image event = false ∧ next.running = machine.running ∧
        next.kernel.page_dir = machine.kernel.page_dir) := by
  rw [remaps, starts]
  rcases step_cases taken with ⟨kernel, frame, command, turns, home, executes, executed⟩ |
    ⟨c, kernel, esp, frame, status, no_call, ends, ended⟩ | ⟨no_call, no_end, passed⟩
  · have same := executes_spec executes
    simp only [executes, ends_eq_none_of_executes executes]
    cases launched : kernel.launched image frame command with
    | none =>
        obtain ⟨failed, result, kept⟩ := execute_not_launched launched
        rw [result] at executed
        cases executed
        exact Or.inr ⟨rfl, rfl, kept.page_dir.trans same.page_dir⟩
    | some process =>
        obtain ⟨slot, line⟩ := process
        obtain ⟨entry_point, last, result, started⟩ := execute_launched launched
        rw [result] at executed
        cases executed
        exact Or.inl ⟨rfl, remapped_started same.page_dir started rfl rfl⟩
  · simp only [no_call, ends, Option.isSome_some, Bool.or_true, true_and, Bool.true_eq_false,
      false_and, or_false]
    exact nested.remapped_ended ends ended
  · obtain ⟨running, -, same⟩ := passed_spec passed
    simp only [no_call, no_end]
    exact Or.inr ⟨rfl, running, same.page_dir⟩

end Machine

/-! ## The tables stand for the address space of the running process -/

/-- `vidmap` with a pointer inside the user page maps the image of its caller again and opens the
video page. -/
theorem Kernel.vidmap_inside (kernel : Kernel) (page_table_VM : Fin 1024 → PageTableEntry)
    (esp : Nat) {screen_start : Int}
    (inside : screen_start ≥ 0x8000000 ∧ screen_start < 0x8400000) :
    let (_, next, table) := kernel.vidmap page_table_VM esp screen_start
    let mapped := Function.update kernel.page_dir 32 (user_entry (kernel.pcb (get_cur_pcb esp)).pid)
    next.page_dir = Function.update mapped 33 { mapped 33 with present := 1 } ∧
      table = Function.update page_table_VM 0xB8 (video_entry (page_table_VM 0xB8)) ∧
      next.process_arr = kernel.process_arr ∧ next.pcb = kernel.pcb ∧ next.tss = kernel.tss := by
  have not_null : screen_start ≠ 0 := by omega
  rw [vidmap, if_neg not_null, if_pos inside]
  dsimp only
  split_ifs <;> exact ⟨rfl, rfl, rfl, rfl, rfl⟩

namespace PagedMachine

/-- The event changes an entry of the tables, and so has the processor drop what it keeps. -/
def remaps (image : Image) (state : PagedMachine) : PagedEvent → Bool
  | .machine event => state.machine.remaps image event
  | .vidmap _ screen_start => decide (screen_start ≥ 0x8000000 ∧ screen_start < 0x8400000)

/-- The address space of the running process. -/
def space (state : PagedMachine) : AddressSpace where
  image := state.machine.running
  video := decide state.Exposed

/-- What an event starts, if anything, is linked. -/
def Linked (mod : BootModule) (image : Image) (state : PagedMachine) : PagedEvent → Prop
  | .machine event => state.machine.Linked mod image event
  | .vidmap _ _ => True

instance (mod : BootModule) (image : Image) (state : PagedMachine) (event : PagedEvent) :
    Decidable (state.Linked mod image event) :=
  match event with
  | .machine event => inferInstanceAs (Decidable (state.machine.Linked mod image event))
  | .vidmap _ _ => inferInstanceAs (Decidable True)

/-- The tables stand for the address space of the running process. -/
structure Maps (place : TablePlace) (state : PagedMachine) : Prop where
  /-- Calls and returns nest. -/
  nested : state.machine.Nested
  /-- The tables are those of the running process. -/
  describes : place.Describes state.machine.kernel.page_dir state.page_table_VM state.space

variable {place : TablePlace} {mod : BootModule} {image : Image} {state next : PagedMachine}

/-- Whether the video page is open is read off the tables. -/
theorem maps_of_describes (video : Bool) (nested : state.machine.Nested)
    (describes : place.Describes state.machine.kernel.page_dir state.page_table_VM
      ⟨state.machine.running, video⟩) : state.Maps place where
  nested := nested
  describes := by
    have exposed : decide state.Exposed = video := by
      rw [Bool.eq_iff_iff, decide_eq_true_iff]
      exact describes.exposed_iff
    rwa [space, exposed]

theorem maps_start (kernel : Kernel) (place : TablePlace) :
    (start kernel (place.page_table * 2 ^ 12) (place.page_table_VM * 2 ^ 12)).Maps place :=
  maps_of_describes false (Machine.nested_start _) place.describes_init

/-- Every linked event keeps it so, and the tables as they are unless it remaps. -/
theorem Maps.step (maps : state.Maps place) {event : PagedEvent}
    (linked : state.Linked mod image event) (taken : state.step image event = some next) :
    next.Maps place ∧ (state.remaps image event = false →
      next.machine.kernel.page_dir = state.machine.kernel.page_dir ∧
        next.page_table_VM = state.page_table_VM) := by
  cases event with
  | machine event =>
      obtain ⟨machine, happens, next_eq⟩ := Option.map_eq_some_iff.mp taken
      cases next_eq
      have nested := maps.nested.step linked happens
      rcases maps.nested.remapped happens with
        ⟨remaps, p, running, page_dir⟩ | ⟨-, running, page_dir⟩
      · refine ⟨maps_of_describes (decide state.Exposed) nested ?_,
          fun same => absurd (remaps.symm.trans same) nofun⟩
        rw [running, page_dir]
        exact maps.describes.map_image p
      · refine ⟨maps_of_describes (decide state.Exposed) nested ?_, fun _ => ⟨page_dir, rfl⟩⟩
        rw [running, page_dir]
        exact maps.describes
  | vidmap esp screen_start =>
      obtain ⟨⟨-, on_stack⟩, called⟩ := Option.ite_none_right_eq_some.mp taken
      obtain ⟨r, run, next_eq⟩ := Option.map_eq_some_iff.mp called
      have chained := maps.nested.chained
      have processor := maps.nested.processor
      by_cases inside : screen_start ≥ 0x8000000 ∧ screen_start < 0x8400000
      · have tables := state.machine.kernel.vidmap_inside state.page_table_VM esp inside
        generalize state.machine.kernel.vidmap state.page_table_VM esp screen_start = call
          at next_eq tables
        obtain ⟨result, kernel, table⟩ := call
        obtain ⟨page_dir, table_eq, process_arr, pcb, tss⟩ := tables
        cases next_eq
        have own_pid : (state.machine.kernel.pcb (get_cur_pcb esp)).pid = r := by
          rw [on_stack, processor.stack r run, get_cur_pcb_stackTop]
          exact chained.pid r (processor.live r run)
        rw [own_pid] at page_dir
        refine ⟨maps_of_describes true ⟨chained.of_same process_arr fun a => ?_,
          processor.of_same process_arr tss⟩ ?_, fun same => ?_⟩
        · rw [pcb]
          exact ⟨_, _, rfl⟩
        · dsimp only
          rw [page_dir, table_eq, run]
          exact (maps.describes.map_image r).open_video
        · exact absurd inside (of_decide_eq_false same)
      · rcases state.machine.kernel.vidmap_cases state.page_table_VM esp screen_start with
          ⟨-, refused⟩ | ⟨-, -, -, contained, -⟩
        · rw [refused] at next_eq
          cases next_eq
          refine ⟨maps_of_describes (decide state.Exposed) maps.nested ?_, fun _ => ⟨rfl, rfl⟩⟩
          exact maps.describes
        · exact absurd contained inside

end PagedMachine

/-! ## The processor between the events -/

/-- What happens to the tables and to the translations that the processor keeps. -/
inductive MemoryEvent
  /-- An event of the machine. -/
  | paged (event : PagedEvent)
  /-- The processor looks up a page. -/
  | fetch (page : Nat)
  /-- The processor drops a translation. -/
  | drop (page : Nat)

/-- The machine with its processor. -/
structure MemoryMachine where
  /-- Processes and tables. -/
  paged : PagedMachine
  /-- The processor. -/
  cpu : Cpu

namespace MemoryMachine

/-- Physical memory; the tables are at `place`. -/
def load (place : TablePlace) (elsewhere : Nat → Nat) (state : MemoryMachine) : Nat → Nat :=
  place.load state.paged.machine.kernel.page_dir state.paged.page_table_VM elsewhere

/-- The machine when the first tick can come; `kernel` is what memory holds before, and
`registers` what the control registers hold before `paging_init`. -/
def start (kernel : Kernel) (place : TablePlace) (registers : ControlRegisters) :
    MemoryMachine where
  paged := .start kernel (place.page_table * 2 ^ 12) (place.page_table_VM * 2 ^ 12)
  cpu :=
    { controls := (registers.loadPageDirectory (place.page_dir * 2 ^ 12)).enablePaging.controls
      kept := fun _ => none }

/-- One event; `flush_tlb` loads CR3 again whenever an entry was changed. -/
def step (image : Image) (place : TablePlace) (elsewhere : Nat → Nat) (state : MemoryMachine) :
    MemoryEvent → Option MemoryMachine
  | .paged event =>
      (state.paged.step image event).map fun paged =>
        { paged
          cpu := if state.paged.remaps image event then state.cpu.reload else state.cpu }
  | .fetch page => some { state with cpu := state.cpu.fetch (state.load place elsewhere) page }
  | .drop page => some { state with cpu := state.cpu.drop page }

/-- Where an access gets. -/
def resolve (place : TablePlace) (elsewhere : Nat → Nat) (state : MemoryMachine)
    (access : PageAccess) (linear : Nat) : Option Nat :=
  state.cpu.resolve (state.load place elsewhere) access linear

/-- What an event starts, if anything, is linked. -/
def Linked (mod : BootModule) (image : Image) (state : MemoryMachine) : MemoryEvent → Prop
  | .paged event => state.paged.Linked mod image event
  | _ => True

instance (mod : BootModule) (image : Image) (state : MemoryMachine) (event : MemoryEvent) :
    Decidable (state.Linked mod image event) :=
  match event with
  | .paged event => inferInstanceAs (Decidable (state.paged.Linked mod image event))
  | .fetch _ => inferInstanceAs (Decidable True)
  | .drop _ => inferInstanceAs (Decidable True)

/-- The processor keeps nothing that is out of date. -/
structure Sees (place : TablePlace) (elsewhere : Nat → Nat) (registers : ControlRegisters)
    (state : MemoryMachine) : Prop where
  /-- The tables are those of the running process. -/
  maps : state.paged.Maps place
  /-- The processor uses them. -/
  controls : state.cpu.controls =
    (registers.loadPageDirectory (place.page_dir * 2 ^ 12)).enablePaging.controls
  /-- What it keeps is in them. -/
  coherent : state.cpu.Coherent (state.load place elsewhere)

variable {mod : BootModule} {image : Image} {place : TablePlace} {elsewhere : Nat → Nat}
  {registers : ControlRegisters} {state next : MemoryMachine}

theorem sees_start (kernel : Kernel) :
    (start kernel place registers).Sees place elsewhere registers where
  maps := PagedMachine.maps_start kernel place
  controls := rfl
  coherent _ _ kept := absurd kept.symm (Option.some_ne_none _)

/-- Without global pages the processor never keeps anything that is out of date. -/
theorem Sees.step (sees : state.Sees place elsewhere registers)
    (no_global : registers.cr4.testBit 7 = false) {event : MemoryEvent}
    (linked : state.Linked mod image event)
    (taken : state.step image place elsewhere event = some next) :
    next.Sees place elsewhere registers := by
  cases event with
  | fetch page =>
      cases taken
      exact ⟨sees.maps, sees.controls, sees.coherent.fetch page⟩
  | drop page =>
      cases taken
      exact ⟨sees.maps, sees.controls, sees.coherent.drop page⟩
  | paged event =>
      obtain ⟨paged, happens, next_eq⟩ := Option.map_eq_some_iff.mp taken
      obtain ⟨maps, same⟩ := sees.maps.step linked happens
      have not_global : state.cpu.controls.global = false := by
        rw [sees.controls, ControlRegisters.controls_paging_init]
        exact no_global
      cases next_eq
      cases remaps : state.paged.remaps image event with
      | true => exact ⟨maps, sees.controls, Cpu.coherent_reload not_global _⟩
      | false =>
          obtain ⟨page_dir, page_table_VM⟩ := same remaps
          refine ⟨maps, sees.controls, sees.coherent.of_translate fun page => ?_⟩
          rw [load, load, page_dir, page_table_VM]

theorem Sees.resolve (sees : state.Sees place elsewhere registers) (access : PageAccess)
    {linear : Nat} (word : linear < 2 ^ 32) :
    state.resolve place elsewhere access linear = state.paged.space.resolve access.user linear := by
  have controls_eq := ControlRegisters.controls_paging_init registers place.page_dir
  rw [← sees.controls] at controls_eq
  rw [MemoryMachine.resolve, sees.coherent.resolve (congrArg Controls.paging controls_eq)]
  exact sees.maps.describes.resolve (congrArg Controls.directory controls_eq)
    (congrArg Controls.page_size controls_eq) access word

/-- In every run whose events are linked, the processor keeps nothing that is out of date. -/
theorem sees_of_linked (kernel : Kernel) (no_global : registers.cr4.testBit 7 = false)
    {events : List MemoryEvent}
    (linked : ∀ entry ∈
      Run.taken (step image place elsewhere) (start kernel place registers) events,
        entry.1.Linked mod image entry.2)
    (visited : state ∈ Run.visited (step image place elsewhere) (start kernel place registers)
      events) : state.Sees place elsewhere registers :=
  Run.invariant_of_ok (Sees place elsewhere registers) (Linked mod image)
    (fun _ _ _ sees linked taken => sees.step no_global linked taken) (sees_start kernel) events
    linked state visited

/-- The tables of the linked kernel. -/
def sample_place : TablePlace where
  page_dir := 0x409
  page_table := 0x408
  page_table_VM := 0x40A
  page_dir_kernel := by decide
  page_table_kernel := by decide
  page_table_VM_kernel := by decide
  dir_ne_table := by decide
  dir_ne_VM := by decide
  table_ne_VM := by decide

/-- The shell of terminal 0 is started. -/
def shell_started : List PagedEvent := [.machine .tick, .machine (.turn (Machine.frame_on 0))]

/-- The shell of terminal 0 starts `ls`. -/
def ls_started : PagedEvent := .machine (.execute (Machine.frame_on 0) (some [108, 115]))

theorem step_paged {event : PagedEvent} {paged : PagedMachine}
    (happens : state.paged.step image event = some paged) :
    state.step image place elsewhere (.paged event) =
      some
        { paged
          cpu := if state.paged.remaps image event then state.cpu.reload else state.cpu } := by
  rw [step, happens]
  rfl

theorem kept_nothing {cpu : Cpu} (nothing : cpu.kept = fun _ => none) (drops : Bool) :
    (if drops then cpu.reload else cpu).kept = fun _ => none := by
  cases drops with
  | false => exact nothing
  | true =>
      funext page
      simp [Cpu.reload, nothing]

theorem controls_kept (cpu : Cpu) (drops : Bool) :
    (if drops then cpu.reload else cpu).controls = cpu.controls := by
  cases drops <;> rfl

/-- With global pages a translation of the shell's image outlives the start of `ls`. -/
theorem outlives (global : registers.cr4.testBit 7 = true) :
    ∃ events, (∀ entry ∈ Run.taken (step Image.sample sample_place fun _ => 0)
        (start Kernel.boot sample_place registers) events,
          entry.1.Linked BootModule.sample Image.sample entry.2) ∧
      ∃ state ∈ Run.visited (step Image.sample sample_place fun _ => 0)
          (start Kernel.boot sample_place registers) events,
        state.resolve sample_place (fun _ => 0) ⟨true, false⟩ 0x8000000 ≠
          state.paged.space.resolve true 0x8000000 := by
  let paged := PagedMachine.start Kernel.boot (0x408 * 2 ^ 12) (0x40A * 2 ^ 12)
  have facts : (do
      let first ← paged.step Image.sample (.machine .tick)
      let second ← first.step Image.sample (.machine (.turn (Machine.frame_on 0)))
      let third ← second.step Image.sample ls_started
      some (second.machine.running, third.machine.running, second.remaps Image.sample ls_started,
        decide (paged.Linked BootModule.sample Image.sample (.machine .tick)),
        decide (first.Linked BootModule.sample Image.sample
          (.machine (.turn (Machine.frame_on 0)))),
        decide (second.Linked BootModule.sample Image.sample ls_started))) =
      some (some 0, some 1, true, true, true, true) := by decide +kernel
  obtain ⟨first, ticked, facts⟩ := Option.bind_eq_some_iff.mp facts
  obtain ⟨second, turned, facts⟩ := Option.bind_eq_some_iff.mp facts
  obtain ⟨third, started, facts⟩ := Option.bind_eq_some_iff.mp facts
  simp only [Option.some.injEq, Prod.mk.injEq, decide_eq_true_eq] at facts
  obtain ⟨shell_runs, ls_runs, remaps, tick_linked, turn_linked, start_linked⟩ := facts
  have maps := ((PagedMachine.maps_start Kernel.boot sample_place).step tick_linked ticked).1.step
    turn_linked turned
  have controls_eq := ControlRegisters.controls_paging_init registers sample_place.page_dir
  -- the processor keeps nothing behind the first two events, and then the shell's first page
  let start_state := start Kernel.boot sample_place registers
  let first_state : MemoryMachine :=
    { paged := first
      cpu := if paged.remaps Image.sample (.machine .tick) then start_state.cpu.reload
        else start_state.cpu }
  let second_state : MemoryMachine :=
    { paged := second
      cpu := if first.remaps Image.sample (.machine (.turn (Machine.frame_on 0))) then
          first_state.cpu.reload
        else first_state.cpu }
  have nothing : second_state.cpu.kept = fun _ => none := kept_nothing (kept_nothing rfl _) _
  have controls : second_state.cpu.controls =
      (registers.loadPageDirectory (sample_place.page_dir * 2 ^ 12)).enablePaging.controls :=
    (controls_kept _ _).trans (controls_kept _ _)
  rw [← controls] at controls_eq
  let load := second_state.load sample_place fun _ => 0
  let shell_page : Translation := ⟨0x800, true, true, true⟩
  have translated : PageWalk.translate second_state.cpu.controls load 0x8000 = some shell_page := by
    have inside : 0x8000 / 2 ^ 10 = 32 := rfl
    refine (maps.1.describes.translate_image (congrArg Controls.directory controls_eq)
      (congrArg Controls.page_size controls_eq) inside).trans ?_
    rw [PagedMachine.space, shell_runs]
    rfl
  let fetched : MemoryMachine := { second_state with cpu := second_state.cpu.fetch load 0x8000 }
  have kept : fetched.cpu.kept 0x8000 = some shell_page := by
    simp only [fetched, Cpu.fetch, Function.update_self, nothing, Option.none_or, translated]
  -- it is still there when `ls` runs
  let last : MemoryMachine := { paged := third, cpu := fetched.cpu.reload }
  have stays : last.cpu.kept 0x8000 = some shell_page :=
    Cpu.reload_global (by rw [← global]; exact congrArg Controls.global controls_eq) kept rfl
  have first_step : (start Kernel.boot sample_place registers).step Image.sample sample_place
      (fun _ => 0) (.paged (.machine .tick)) = some first_state := step_paged ticked
  have second_step : first_state.step Image.sample sample_place (fun _ => 0)
      (.paged (.machine (.turn (Machine.frame_on 0)))) = some second_state := step_paged turned
  have third_step : second_state.step Image.sample sample_place (fun _ => 0) (.fetch 0x8000) =
      some fetched := rfl
  have fourth_step : fetched.step Image.sample sample_place (fun _ => 0) (.paged ls_started) =
      some last := by
    refine (@step_paged Image.sample sample_place (fun _ => 0) fetched _ _ started).trans ?_
    rw [if_pos remaps]
  refine ⟨shell_started.map .paged ++ [.fetch 0x8000, .paged ls_started], ?_, last, ?_, ?_⟩
  · simp only [shell_started, List.map_cons, List.map_nil, List.cons_append, List.nil_append,
      Run.taken, first_step, second_step, third_step, fourth_step, List.forall_mem_cons]
    exact ⟨tick_linked, turn_linked, trivial, start_linked, List.forall_mem_nil _⟩
  · refine Run.mem_visited_of_run ?_
    simp only [shell_started, List.map_cons, List.map_nil, List.cons_append, List.nil_append,
      Run.run, first_step, second_step, third_step, fourth_step, Option.bind_eq_bind,
      Option.bind_some]
  · have runs : last.paged.space.image = some 1 := ls_runs
    have resolved : last.resolve sample_place (fun _ => 0) ⟨true, false⟩ 0x8000000 =
        some 0x800000 := by
      have paging : last.cpu.controls.paging = true := congrArg Controls.paging controls_eq
      have page : last.cpu.kept (0x8000000 / 2 ^ 12) = some shell_page := stays
      refine (Cpu.resolve_kept paging page _).trans ?_
      simp [reach, Translation.permits, Translation.physical, shell_page]
    have own : last.paged.space.resolve true 0x8000000 = some 0xC00000 := by
      have inside : USER_PAGE ≤ 0x8000000 ∧ 0x8000000 < USER_PAGE_END := by decide
      rw [AddressSpace.resolve, if_pos inside, runs]
      rfl
    rw [resolved, own]
    decide

end MemoryMachine

end ComputerSystem
