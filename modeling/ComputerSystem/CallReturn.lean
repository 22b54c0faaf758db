import ComputerSystem.StrayStores
import ComputerSystem.Succession

/-!
# Execute and halt as call and return

`execute` looks for the parent of a new process in `schedule_arr`, at the terminal on display, while
the process that calls it is the running one.  As long as the two agree whenever a process with a
parent is started, every such process returns to the call that started it.
-/

namespace ComputerSystem

open CArray

/-- Bytes from `pcb->argument` to the end of the process's own kernel stack. -/
def argument_room : Nat := 8048

/-- A process that `running` starts stores the index of its command where nothing else is, and from
slot 3 on it finds `running` in `schedule_arr`. -/
def Kernel.Links (mod : BootModule) (kernel : Kernel) (running : Option (Fin 6)) (slot : Fin 6)
    (line : List UInt8) : Prop :=
  mod.Takes (scan_command line).i ∧
  (2 < slot.val → ∃ r ∈ running, kernel.schedule_arr kernel.console.cur_term_idx = r)

instance (mod : BootModule) (kernel : Kernel) (running : Option (Fin 6)) (slot : Fin 6)
    (line : List UInt8) : Decidable (kernel.Links mod running slot line) :=
  inferInstanceAs (Decidable (_ ∧ (_ → ∃ r ∈ running, _)))

/-- A call of `execute` made while `running` runs has a free slot, its argument fits the kernel
stack, and what it starts is linked. -/
def Kernel.Accepts (mod : BootModule) (image : Image) (kernel : Kernel) (frame : Frame)
    (running : Option (Fin 6)) (command : Option (List UInt8)) : Prop :=
  kernel.free_slot ≠ none ∧
  ∀ line ∈ command, (scan_command line).argument.length < argument_room ∧
    ∀ slot ∈ kernel.free_slot, check_executable image frame (scan_command line).name ≠ none →
      kernel.Links mod running slot line

instance (mod : BootModule) (image : Image) (kernel : Kernel) (frame : Frame)
    (running : Option (Fin 6)) (command : Option (List UInt8)) :
    Decidable (kernel.Accepts mod image frame running command) :=
  inferInstanceAs (Decidable (_ ∧ ∀ line ∈ command, _ ∧ ∀ slot ∈ _, _ → _))

namespace Machine

/-- The call of `execute` that an event makes, if any, has a free slot and room, and what it starts
is linked. -/
def Orderly (mod : BootModule) (image : Image) (machine : Machine) (event : MachineEvent) : Prop :=
  ∀ call ∈ machine.executes event,
    call.1.Accepts mod image call.2.1 machine.running call.2.2

instance (mod : BootModule) (image : Image) (machine : Machine) (event : MachineEvent) :
    Decidable (machine.Orderly mod image event) :=
  inferInstanceAs (Decidable (∀ call ∈ machine.executes event, _))

theorem orderly_of_none {mod : BootModule} {image : Image} {machine : Machine}
    {event : MachineEvent} (no_call : machine.executes event = none) :
    machine.Orderly mod image event := by
  intro call executes
  rw [no_call] at executes
  cases executes

/-- What the call of `execute` of an event starts, if anything, is linked. -/
def Linked (mod : BootModule) (image : Image) (machine : Machine) (event : MachineEvent) : Prop :=
  ∀ call ∈ machine.executes event, ∀ process ∈ call.1.launched image call.2.1 call.2.2,
    call.1.Links mod machine.running process.1 process.2

instance (mod : BootModule) (image : Image) (machine : Machine) (event : MachineEvent) :
    Decidable (machine.Linked mod image event) :=
  inferInstanceAs (Decidable (∀ call ∈ machine.executes event, ∀ process ∈ _, _))

theorem Orderly.linked {mod : BootModule} {image : Image} {machine : Machine}
    {event : MachineEvent} (orderly : machine.Orderly mod image event) :
    machine.Linked mod image event := by
  rintro ⟨kernel, frame, command⟩ executes ⟨slot, line⟩ launched
  obtain ⟨free, line_eq, checked⟩ := Kernel.launched_eq_some_iff.mp launched
  exact ((orderly _ executes).2 line line_eq).2 slot free checked

/-- Calls and returns of an event. -/
structure Nests (image : Image) (machine : Machine) (event : MachineEvent) : Prop where
  /-- A call of `execute` that starts nothing returns -1. -/
  failed : ∀ kernel frame command value next,
    machine.executes event = some (kernel, frame, command) →
    execute image kernel frame command = (.returned value, next) → value = -1
  /-- The end of a process with a parent resumes the call that started it, with the status as its
  value, the starter's page mapped and the starter's kernel stack in the TSS. -/
  returns : ∀ (c : Fin 6) kernel esp frame status (p : Fin 6),
    machine.ends event = some (c, kernel, esp, frame, status) → 2 < c.val →
    (machine.calls c).starter = some p →
    ∃ next, real_halt image kernel esp frame status =
        (.jumped status (machine.calls c).esp (machine.calls c).ebp, next) ∧
      (next.page_dir 32).Addr31_12 = 0x800 + 0x400 * p.val ∧ next.tss.esp0 = stackTop p

/-! ## The invariant -/

/-- Process `p` waits in the call that started `c`, and the PCBs say so. -/
structure Waits (kernel : Kernel) (running : Option (Fin 6)) (calls : Fin 6 → Call) (c p : Fin 6) :
    Prop where
  /-- It started `c`. -/
  starter : (calls c).starter = some p
  /-- It has not ended. -/
  live : kernel.Live p
  /-- It is not `c` itself. -/
  ne : p ≠ c
  /-- It does not run. -/
  not_running : running ≠ some p
  /-- The PCB of `c` names it. -/
  parent : (kernel.pcb (pcbAddress c)).parent = pcbAddress p
  /-- Its PCB holds the frame it waits in. -/
  esp : (kernel.pcb (pcbAddress p)).esp = (calls c).esp
  /-- Its PCB holds the frame it waits in. -/
  ebp : (kernel.pcb (pcbAddress p)).ebp = (calls c).ebp

/-- The processes with a parent hang on different waiting ones. -/
structure Chained (kernel : Kernel) (running : Option (Fin 6)) (calls : Fin 6 → Call) : Prop where
  /-- PCBs have the numbers of their slots. -/
  pid : ∀ p : Fin 6, kernel.Live p → (kernel.pcb (pcbAddress p)).pid = p
  /-- The first three slots have no parent. -/
  first : ∀ p : Fin 6, kernel.Live p → p.val ≤ 2 → (kernel.pcb (pcbAddress p)).parent = 0
  /-- The others have one that waits for them. -/
  waits : ∀ c : Fin 6, kernel.Live c → 2 < c.val → ∃ p, Waits kernel running calls c p
  /-- Nobody waits for two. -/
  unique : ∀ c d : Fin 6, kernel.Live c → kernel.Live d → 2 < c.val → 2 < d.val →
    (calls c).starter = (calls d).starter → c = d

/-- The running process has the processor. -/
structure Processor (kernel : Kernel) (running : Option (Fin 6)) : Prop where
  /-- Without a running process there is none. -/
  idle : running = none → ∀ p, ¬kernel.Live p
  /-- The running process exists. -/
  live : ∀ r, running = some r → kernel.Live r
  /-- System calls of the running process get its kernel stack. -/
  stack : ∀ r : Fin 6, running = some r → kernel.tss.esp0 = stackTop r

/-- A process goes on waiting as long as the call, the parent and the saved frame are the same. -/
theorem Waits.of_same {kernel next : Kernel} {running other : Option (Fin 6)}
    {calls changed : Fin 6 → Call} {c p : Fin 6} (waits : Waits kernel running calls c p)
    (live : next.Live p) (not_running : other ≠ some p) (call : changed c = calls c)
    (parent : (next.pcb (pcbAddress c)).parent = (kernel.pcb (pcbAddress c)).parent)
    (esp : (next.pcb (pcbAddress p)).esp = (kernel.pcb (pcbAddress p)).esp)
    (ebp : (next.pcb (pcbAddress p)).ebp = (kernel.pcb (pcbAddress p)).ebp) :
    Waits next other changed c p where
  starter := by rw [call, waits.starter]
  live := live
  ne := waits.ne
  not_running := not_running
  parent := by rw [parent, waits.parent]
  esp := by rw [esp, call, waits.esp]
  ebp := by rw [ebp, call, waits.ebp]

/-- Only numbers, parents and saved frames count. -/
theorem Chained.of_same {kernel next : Kernel} {running : Option (Fin 6)} {calls : Fin 6 → Call}
    (chained : Chained kernel running calls) (process_arr : next.process_arr = kernel.process_arr)
    (pcb : ∀ a, ∃ fdt argument, next.pcb a = { kernel.pcb a with fdt, argument }) :
    Chained next running calls := by
  have live_iff (p : Fin 6) : next.Live p ↔ kernel.Live p := by
    simp only [Kernel.Live, process_arr]
  have same (a : Nat) : (next.pcb a).pid = (kernel.pcb a).pid ∧
      (next.pcb a).parent = (kernel.pcb a).parent ∧ (next.pcb a).esp = (kernel.pcb a).esp ∧
      (next.pcb a).ebp = (kernel.pcb a).ebp := by
    obtain ⟨fdt, argument, pcb_eq⟩ := pcb a
    rw [pcb_eq]
    exact ⟨rfl, rfl, rfl, rfl⟩
  refine
    { pid := fun p live => ?_
      first := fun p live early => ?_
      waits := fun c live late => ?_
      unique := fun c d live_c live_d =>
        chained.unique c d ((live_iff c).mp live_c) ((live_iff d).mp live_d) }
  · rw [(same _).1]
    exact chained.pid p ((live_iff p).mp live)
  · rw [(same _).2.1]
    exact chained.first p ((live_iff p).mp live) early
  · obtain ⟨p, waits⟩ := chained.waits c ((live_iff c).mp live) late
    exact ⟨p, waits.of_same ((live_iff p).mpr waits.live) waits.not_running rfl (same _).2.1
      (same _).2.2.1 (same _).2.2.2⟩

theorem Chained.of_same_tables {kernel next : Kernel} {running : Option (Fin 6)}
    {calls : Fin 6 → Call} (chained : Chained kernel running calls)
    (same : kernel.SameTables next) : Chained next running calls := by
  refine chained.of_same same.process_arr fun a => ?_
  rw [same.pcb]
  exact ⟨_, _, rfl⟩

theorem Chained.kept {kernel next : Kernel} {running : Option (Fin 6)} {calls : Fin 6 → Call}
    (chained : Chained kernel running calls) (kept : kernel.Kept next) :
    Chained next running calls := by
  refine chained.of_same kept.process_arr fun a => ?_
  obtain ⟨argument, pcb_eq⟩ := kept.pcb a
  exact ⟨_, argument, pcb_eq⟩

theorem Processor.of_same {kernel next : Kernel} {running : Option (Fin 6)}
    (processor : Processor kernel running) (process_arr : next.process_arr = kernel.process_arr)
    (tss : next.tss = kernel.tss) : Processor next running where
  idle none p := by
    rw [Kernel.Live, process_arr]
    exact processor.idle none p
  live r run := by
    rw [Kernel.Live, process_arr]
    exact processor.live r run
  stack r run := by
    rw [tss]
    exact processor.stack r run

theorem Chained.resumed {kernel : Kernel} {running : Option (Fin 6)} {calls : Fin 6 → Call}
    (chained : Chained kernel running calls) {p : Fin 6} :
    Chained ((kernel.paging_set_up p).setTss p) running calls := by
  refine chained.of_same rfl fun a => ⟨(kernel.pcb a).fdt, (kernel.pcb a).argument, ?_⟩
  rw [Kernel.setTss_pcb, Kernel.paging_set_up_pcb]

theorem processor_resumed {kernel : Kernel} {p : Fin 6} (live : kernel.Live p) :
    Processor ((kernel.paging_set_up p).setTss p) (some p) where
  idle none := absurd none (Option.some_ne_none p)
  live r run := by
    obtain rfl := Option.some_injective _ run
    exact live
  stack r run := by
    obtain rfl := Option.some_injective _ run
    exact Kernel.setTss_esp0 _ _

theorem processor_started {kernel : Kernel} {slot : Fin 6} {frame : Frame} {i : Nat} {next : Kernel}
    (started : Started kernel frame slot i next) : Processor next (some slot) where
  idle none := absurd none (Option.some_ne_none slot)
  live r run := by
    obtain rfl := Option.some_injective _ run
    exact (started.live_iff slot).mpr (Or.inl rfl)
  stack r run := by
    obtain rfl := Option.some_injective _ run
    rw [started.tss]

/-- The caller of a call that starts a process from slot 3 on. -/
structure Caller (kernel : Kernel) (running : Option (Fin 6)) (frame : Frame) (call : Call)
    (r : Fin 6) : Prop where
  /-- It runs. -/
  running : running = some r
  /-- It has not ended. -/
  live : kernel.Live r
  /-- `execute` takes it for the parent. -/
  scheduled : kernel.schedule_arr kernel.console.cur_term_idx = r
  /-- The call is its own. -/
  starter : call.starter = some r
  /-- The call is made in its frame. -/
  esp : call.esp = frame.esp
  /-- The call is made in its frame. -/
  ebp : call.ebp = frame.ebp

section Started

variable {kernel next : Kernel} {running : Option (Fin 6)} {calls : Fin 6 → Call} {slot : Fin 6}
  {frame : Frame} {i : Nat} {call : Call}

/-- The caller waits for the process it started. -/
theorem Caller.waits {r : Fin 6} (caller : Caller kernel running frame call r) (ne : r ≠ slot)
    (started : Started kernel frame slot i next) (late : 2 < slot.val) :
    Waits next (some slot) (Function.update calls slot call) slot r := by
  have saved := started.pcb (pcbAddress r) (pcbAddress_ne ne)
  rw [if_pos ⟨late, by rw [caller.scheduled]⟩] at saved
  exact
    { starter := by rw [Function.update_self, caller.starter]
      live := (started.live_iff r).mpr (Or.inr caller.live)
      ne := ne
      not_running := fun same => ne (Option.some_injective _ same).symm
      parent := by rw [started.parent, if_neg (not_le.mpr late), caller.scheduled]
      esp := by rw [saved, Function.update_self, caller.esp]
      ebp := by rw [saved, Function.update_self, caller.ebp] }

/-- The others wait on; none of them is the caller. -/
theorem Waits.started {c p : Fin 6} (waits : Waits kernel running calls c p) (c_ne : c ≠ slot)
    (p_ne : p ≠ slot) (started : Started kernel frame slot i next)
    (later : 2 < slot.val → ∃ r, Caller kernel running frame call r) :
    Waits next (some slot) (Function.update calls slot call) c p := by
  have kept := started.pcb (pcbAddress p) (pcbAddress_ne p_ne)
  rw [if_neg] at kept
  · exact waits.of_same ((started.live_iff p).mpr (Or.inr waits.live))
      (fun same => p_ne (Option.some_injective _ same).symm) (Function.update_of_ne c_ne _ _)
      (started.other_kept c_ne).2.1 (by rw [kept]) (by rw [kept])
  · rintro ⟨late, same⟩
    obtain ⟨r, caller⟩ := later late
    rw [caller.scheduled] at same
    rw [pcbAddress_injective same] at waits
    exact waits.not_running caller.running

/-- A process was started; from slot 3 on by the running one. -/
theorem Chained.started (chained : Chained kernel running calls)
    (free : kernel.free_slot = some slot) (started : Started kernel frame slot i next)
    (later : 2 < slot.val → ∃ r, Caller kernel running frame call r) :
    Chained next (some slot) (Function.update calls slot call) := by
  have unused := (Kernel.free_slot_spec free).1
  have ne_of_live {p : Fin 6} (live : kernel.Live p) : p ≠ slot := by
    rintro rfl
    exact unused live
  have live_iff := started.live_iff
  have calls_other {c : Fin 6} (other : c ≠ slot) :
      Function.update calls slot call c = calls c := Function.update_of_ne other _ _
  have starter_ne {c : Fin 6} (live : kernel.Live c) (late : 2 < c.val) (slot_late : 2 < slot.val) :
      (calls c).starter ≠ call.starter := by
    obtain ⟨r, caller⟩ := later slot_late
    obtain ⟨p, waits⟩ := chained.waits c live late
    rw [waits.starter, caller.starter, ← caller.running]
    exact waits.not_running.symm
  refine
    { pid := fun p live => ?_
      first := fun p live early => ?_
      waits := fun c live late => ?_
      unique := fun c d live_c live_d late_c late_d same => ?_ }
  · rcases (live_iff p).mp live with rfl | live
    · exact started.pid
    · rw [(started.other_kept (ne_of_live live)).1]
      exact chained.pid p live
  · rcases (live_iff p).mp live with rfl | live
    · rw [started.parent, if_pos early]
    · rw [(started.other_kept (ne_of_live live)).2.1]
      exact chained.first p live early
  · rcases (live_iff c).mp live with rfl | live
    · obtain ⟨r, caller⟩ := later late
      exact ⟨r, caller.waits (ne_of_live caller.live) started late⟩
    · obtain ⟨p, waits⟩ := chained.waits c live late
      exact ⟨p, waits.started (ne_of_live live) (ne_of_live waits.live) started later⟩
  · rcases (live_iff c).mp live_c with rfl | live_c
    · rcases (live_iff d).mp live_d with rfl | live_d
      · rfl
      · rw [Function.update_self, calls_other (ne_of_live live_d)] at same
        exact absurd same.symm (starter_ne live_d late_d late_c)
    · rcases (live_iff d).mp live_d with rfl | live_d
      · rw [Function.update_self, calls_other (ne_of_live live_c)] at same
        exact absurd same (starter_ne live_c late_c late_d)
      · rw [calls_other (ne_of_live live_c), calls_other (ne_of_live live_d)] at same
        exact chained.unique c d live_c live_d late_c late_d same

end Started

/-- The running process gives its slot up; no other process waited for by the next one is left. -/
theorem Chained.release {kernel : Kernel} {r : Fin 6} {calls : Fin 6 → Call}
    (chained : Chained kernel (some r) calls) (live_r : kernel.Live r) (running : Option (Fin 6))
    (apart : ∀ c p, kernel.Live c → 2 < c.val → c ≠ r → (calls c).starter = some p →
      running ≠ some p) :
    Chained (kernel.release (pcbAddress r)) running calls := by
  have live_iff := Kernel.release_live_iff (chained.pid r live_r)
  have other_pcb {p : Fin 6} (other : p ≠ r) := kernel.release_pcb_of_ne (pcbAddress_ne other)
  refine
    { pid := fun p live => ?_
      first := fun p live early => ?_
      waits := fun c live late => ?_
      unique := fun c d live_c live_d =>
        chained.unique c d ((live_iff c).mp live_c).2 ((live_iff d).mp live_d).2 }
  · obtain ⟨other, live⟩ := (live_iff p).mp live
    rw [other_pcb other]
    exact chained.pid p live
  · obtain ⟨other, live⟩ := (live_iff p).mp live
    rw [other_pcb other]
    exact chained.first p live early
  · obtain ⟨other, live⟩ := (live_iff c).mp live
    obtain ⟨p, waits⟩ := chained.waits c live late
    have waits_ne : p ≠ r := by
      rintro rfl
      exact waits.not_running rfl
    exact ⟨p, waits.of_same ((live_iff p).mpr ⟨waits_ne, waits.live⟩)
      (apart c p live late other waits.starter) rfl (by rw [other_pcb other])
      (by rw [other_pcb waits_ne]) (by rw [other_pcb waits_ne])⟩

/-- A process that somebody waits for ends in the call that started it. -/
theorem real_halt_returns (image : Image) {kernel : Kernel} {c p : Fin 6} {calls : Fin 6 → Call}
    (chained : Chained kernel (some c) calls) (live_c : kernel.Live c) (late : 2 < c.val)
    (waits : Waits kernel (some c) calls c p) {esp : Nat}
    (own_stack : get_cur_pcb esp = pcbAddress c) (frame : Frame) (status : Nat) :
    real_halt image kernel esp frame status =
      (.jumped status (calls c).esp (calls c).ebp,
        ((kernel.release (pcbAddress c)).paging_set_up p).setTss p) := by
  have pid_eq := chained.pid c live_c
  have parent_pcb := kernel.release_pcb_of_ne (pcbAddress_ne waits.ne)
  have parent_eq : ((kernel.release (pcbAddress c)).pcb (pcbAddress c)).parent = pcbAddress p := by
    rw [Kernel.release_pcb_same]
    exact waits.parent
  rw [real_halt_later image frame status (by rw [own_stack, pid_eq]; omega), own_stack]
  generalize kernel.release (pcbAddress c) = released at parent_pcb parent_eq
  simp only [Kernel.halt_return, parent_eq, if_neg (pcbAddress_ne_zero p), parent_pcb,
    chained.pid p waits.live]
  rw [Kernel.setTss_pcb, Kernel.paging_set_up_pcb, parent_pcb, waits.esp, waits.ebp]

/-- The processes hang together, and one of them has the processor. -/
structure Nested (machine : Machine) : Prop where
  /-- Parents wait for their children. -/
  chained : Chained machine.kernel machine.running machine.calls
  /-- The processor is the running process's. -/
  processor : Processor machine.kernel machine.running

theorem nested_start (kernel : Kernel) : (start kernel).Nested := by
  have none_live (p : Fin 6) : ¬kernel.start_up.Live p := zero_ne_one
  exact
    { chained :=
        { pid := fun p live => absurd live (none_live p)
          first := fun p live => absurd live (none_live p)
          waits := fun c live => absurd live (none_live c)
          unique := fun c _ live => absurd live (none_live c) }
      processor :=
        { idle := fun _ => none_live
          live := fun _ run => absurd run.symm (Option.some_ne_none _)
          stack := fun _ run => absurd run.symm (Option.some_ne_none _) } }

/-! ## One event -/

theorem Nested.ends {machine : Machine} (nested : machine.Nested) {event : MachineEvent} {c : Fin 6}
    {kernel : Kernel} {esp : Nat} {frame : Frame} {status : Nat}
    (ends : machine.ends event = some (c, kernel, esp, frame, status)) :
    Chained kernel (some c) machine.calls ∧ kernel.Live c ∧ get_cur_pcb esp = pcbAddress c := by
  obtain ⟨run, ⟨-, on_stack⟩, same⟩ := ends_spec ends
  have chained := nested.chained.of_same_tables same
  rw [run] at chained
  have processor := nested.processor.of_same same.process_arr same.tss
  refine ⟨chained, processor.live c run, ?_⟩
  rw [on_stack, nested.processor.stack c run, get_cur_pcb_stackTop]

theorem Nested.nests {mod : BootModule} {image : Image} {machine : Machine}
    (nested : machine.Nested) {event : MachineEvent} (orderly : machine.Orderly mod image event) :
    machine.Nests image event := by
  refine
    { failed := fun kernel frame command value next executes result => ?_
      returns := fun c kernel esp frame status p ends late starter => ?_ }
  · have busy := (orderly _ executes).1
    rcases execute_cases image kernel frame command with
      ⟨other, failed, -⟩ | ⟨slot, line, entry_point, other, -, -, -, started, -⟩
    · rw [if_neg busy, result] at failed
      cases failed
      rfl
    · rw [result] at started
      cases started
  · obtain ⟨chained, live, own_stack⟩ := nested.ends ends
    obtain ⟨q, waits⟩ := chained.waits c live late
    obtain rfl : q = p := Option.some_injective _ (waits.starter.symm.trans starter)
    refine ⟨_, real_halt_returns image chained live late waits own_stack frame status, ?_, ?_⟩
    · rw [Kernel.setTss_page_dir, Kernel.paging_set_up_frame]
    · rw [Kernel.setTss_esp0]

theorem Nested.executes {machine : Machine} (nested : machine.Nested) {event : MachineEvent}
    {kernel : Kernel} {frame : Frame} {command : Option (List UInt8)}
    (executes : machine.executes event = some (kernel, frame, command)) :
    Chained kernel machine.running machine.calls ∧ Processor kernel machine.running := by
  have same := executes_spec executes
  exact ⟨nested.chained.of_same_tables same, nested.processor.of_same same.process_arr same.tss⟩

theorem Nested.executed {mod : BootModule} {image : Image} {machine : Machine}
    (nested : machine.Nested) {event : MachineEvent} (linked : machine.Linked mod image event)
    {kernel : Kernel} {frame : Frame} {command : Option (List UInt8)}
    (executes : machine.executes event = some (kernel, frame, command)) {turns : List (Fin 3)}
    {home : Fin 3} {next : Machine}
    (taken : machine.executed frame turns home (execute image kernel frame command) = some next) :
    next.Nested := by
  obtain ⟨chained, processor⟩ := nested.executes executes
  cases launched : kernel.launched image frame command with
  | none =>
      obtain ⟨failed, result, kept⟩ := execute_not_launched launched
      rw [result] at taken
      cases taken
      exact ⟨chained.kept kept, processor.of_same kept.process_arr kept.tss⟩
  | some process =>
      obtain ⟨slot, line⟩ := process
      obtain ⟨entry_point, last, result, started⟩ := execute_launched launched
      have free := (Kernel.launched_eq_some_iff.mp launched).1
      rw [result] at taken
      cases taken
      refine ⟨chained.started free started fun late => ?_, processor_started started⟩
      obtain ⟨r, run, scheduled⟩ := (linked _ executes _ launched).2 late
      exact ⟨r, run, processor.live r run, scheduled, run, rfl, rfl⟩

theorem Nested.ended {machine : Machine} (nested : machine.Nested) {image : Image}
    {event : MachineEvent} {c : Fin 6} {kernel : Kernel} {esp : Nat} {frame : Frame} {status : Nat}
    (ends : machine.ends event = some (c, kernel, esp, frame, status)) {next : Machine}
    (taken : machine.ended c frame (real_halt image kernel esp frame status) = some next) :
    next.Nested := by
  obtain ⟨chained, live, own_stack⟩ := nested.ends ends
  have pid_eq := chained.pid c live
  by_cases early : c.val ≤ 2
  · -- a shell takes the slot, or there is no parent to return to
    rcases real_halt_cases image frame status with
      ⟨failed, kept, result⟩ | ⟨slot, entry_point, last, free, result, started⟩
    · have no_parent : (failed.pcb (get_cur_pcb esp)).parent = 0 := by
        obtain ⟨argument, pcb_eq⟩ := kept.pcb (get_cur_pcb esp)
        rw [pcb_eq, Kernel.release_pcb_same, own_stack]
        exact chained.first c live early
      rw [result, Kernel.halt_return, if_pos no_parent] at taken
      cases taken
    · have released := chained.release live none fun _ _ _ _ _ _ => (Option.some_ne_none _).symm
      rw [← own_stack] at released
      rw [result] at taken
      cases taken
      refine ⟨released.started free started fun slot_late => ?_, processor_started started⟩
      have freed : ¬(kernel.release (get_cur_pcb esp)).Live c := by
        rw [own_stack, Kernel.release_live_iff pid_eq]
        exact fun both => both.1 rfl
      exact absurd ((Kernel.free_slot_spec free).2 c (by omega)) freed
  · have late := not_le.mp early
    obtain ⟨p, waits⟩ := chained.waits c live late
    have released := chained.release live (some p) (by
      intro d q live_d late_d ne starter same
      obtain rfl := Option.some_injective _ same
      exact ne (chained.unique d c live_d live late_d late (starter.trans waits.starter.symm)))
    have live_p : (kernel.release (pcbAddress c)).Live p :=
      (Kernel.release_live_iff pid_eq p).mpr ⟨waits.ne, waits.live⟩
    rw [real_halt_returns image chained live late waits own_stack frame status] at taken
    generalize kernel.release (pcbAddress c) = kernel at released live_p taken
    simp only [Machine.ended, waits.starter, and_self, if_true] at taken
    cases taken
    exact ⟨released.resumed, processor_resumed live_p⟩

/-- Every linked event keeps the machine nested. -/
theorem Nested.step {mod : BootModule} {image : Image} {machine : Machine}
    (nested : machine.Nested) {event : MachineEvent} (linked : machine.Linked mod image event)
    {next : Machine}     (taken : machine.step image event = some next) : next.Nested := by
  rcases step_cases taken with ⟨kernel, frame, command, turns, home, executes, executed⟩ |
    ⟨c, kernel, esp, frame, status, -, ends, ended⟩ | ⟨-, -, passed⟩
  · exact nested.executed linked executes executed
  · exact nested.ended ends ended
  · obtain ⟨running, calls, same⟩ := passed_spec passed
    have chained := nested.chained.of_same_tables same
    have processor := nested.processor.of_same same.process_arr same.tss
    rw [← running] at chained processor
    rw [← calls] at chained
    exact ⟨chained, processor⟩

/-! ## Runs -/

/-- In every run whose events are orderly, every process that somebody waits for returns to the call
that started it, and every call of `execute` that starts nothing returns -1. -/
theorem nests_of_orderly (mod : BootModule) (image : Image) (kernel : Kernel)
    (events : List MachineEvent) (machine : Machine)
    (reached : Run.run (step image) (start kernel) events = some machine)
    (all_orderly : ∀ entry ∈ Run.taken (step image) (start kernel) events,
      entry.1.Orderly mod image entry.2)
    (event : MachineEvent) (orderly : machine.Orderly mod image event) :
    machine.Nests image event := by
  have nested := Run.invariant_of_ok Nested (Orderly mod image)
    (fun _ _ _ nested orderly taken => nested.step (Orderly.linked orderly) taken)
    (nested_start kernel) events all_orderly machine (Run.mem_visited_of_run reached)
  exact nested.nests orderly

/-- The shell of terminal 0 is replaced by `ls`, which is replaced by `ls`, which calls `ls`: it
returns to its caller. -/
theorem nests_of_orderly_ls :
    let events : List MachineEvent :=
      [.tick, .turn (frame_on 0), .execute (frame_on 0) (some [108, 115]),
        .execute (frame_on 1) (some [108, 115]), .execute (frame_on 2) (some [108, 115])]
    ∃ machine, Run.run (step Image.sample) (start Kernel.boot) events = some machine ∧
      machine.Nests Image.sample (.halt (frame_on 3).esp (frame_on 3) 7) := by
  intro events
  have finishes : (Run.run (step Image.sample) (start Kernel.boot) events).isSome := by decide
  obtain ⟨machine, reached⟩ := Option.isSome_iff_exists.mp finishes
  have all_orderly : ∀ entry ∈ Run.taken (step Image.sample) (start Kernel.boot) events,
      entry.1.Orderly BootModule.sample Image.sample entry.2 := by decide +kernel
  refine ⟨machine, reached, ?_⟩
  apply nests_of_orderly BootModule.sample Image.sample Kernel.boot events machine reached
    all_orderly
  exact orderly_of_none rfl

/-- Three ticks; each starts the shell of one more terminal. -/
def three_shells : List MachineEvent :=
  [.tick, .turn (frame_on 0), .tick, .turn (frame_on 0), .turn (frame_on 0),
    .tick, .turn (frame_on 1), .turn (frame_on 1), .turn (frame_on 1)]

/-- With terminal 0 on display the shell of terminal 2 calls `ls`: its parent is looked up in
`schedule_arr[0]`, which holds the length of the command that started shell 0, and the page of
process 0 is mapped when `ls` ends. -/
theorem returns_on_other_page :
    ¬∀ machine event,
      Run.run (step Image.sample) (start Kernel.boot)
        (three_shells ++ [.execute (frame_on 2) (some [108, 115])]) = some machine →
      machine.Nests Image.sample event := by
  intro nests
  have finishes : (Run.run (step Image.sample) (start Kernel.boot)
      (three_shells ++ [.execute (frame_on 2) (some [108, 115])])).isSome := by decide
  obtain ⟨machine, reached⟩ := Option.isSome_iff_exists.mp finishes
  have facts : (Run.run (step Image.sample) (start Kernel.boot)
      (three_shells ++ [.execute (frame_on 2) (some [108, 115])])).map (fun machine =>
        (machine.running, (machine.calls 3).starter, decide (machine.InCall (frame_on 3).esp),
          ((real_halt Image.sample machine.kernel (frame_on 3).esp (frame_on 3) 7).2.page_dir
            32).Addr31_12)) = some (some 3, some 2, true, 0x800) := by decide
  rw [reached, Option.map_some] at facts
  simp only [Option.some.injEq, Prod.mk.injEq, decide_eq_true_eq] at facts
  obtain ⟨run, starter, in_call, page⟩ := facts
  have ends : machine.ends (.halt (frame_on 3).esp (frame_on 3) 7) =
      some (3, machine.kernel, (frame_on 3).esp, frame_on 3, 7) := by
    rw [Machine.ends, if_pos in_call, run]
    rfl
  obtain ⟨next, result, mapped, -⟩ :=
    (nests machine _ reached).returns 3 _ _ _ _ 2 ends (by decide) starter
  rw [result, mapped] at page
  exact absurd page (by decide)

end Machine

end ComputerSystem
