import ComputerSystem.Succession

/-!
# The video page of user programs

`vidmap` makes one entry of the page directory and one page table entry present that no other code
touches.  Next to the machine a run keeps which processes have called it with success; that the
page is open to those only is compared with what the two entries say.
-/

namespace ComputerSystem

open Word

/-- Page number of the video memory. -/
def VIDEO_MEM_ADDR : Nat := 0xB8

/-- Where user programs find the video memory. -/
def VIDEO_MEM_USR_ADDR : Nat := 0x8400000 + 0xB8000

/-- `paging_table_entry_t`. -/
structure PageTableEntry where
  /-- Whether the page is present. -/
  present : Nat
  /-- Whether it can be written. -/
  R_W : Nat
  /-- Whether user code can use it. -/
  U_S : Nat
  /-- Write-through. -/
  PWT : Nat
  /-- Caching disabled. -/
  PCD : Nat
  /-- Accessed. -/
  A : Nat
  /-- Dirty. -/
  D : Nat
  /-- Attribute table. -/
  PAT : Nat
  /-- Global. -/
  G : Nat
  /-- Free for the system. -/
  AVL : Nat
  /-- Bits 31 to 12 of the physical address. -/
  Addr_4k : Nat

/-- The page directory and the two page tables. -/
structure PageTables where
  /-- `page_dir`. -/
  page_dir : Fin 1024 → PageDirectory
  /-- `page_table`. -/
  page_table : Fin 1024 → PageTableEntry
  /-- `page_table_VM`. -/
  page_table_VM : Fin 1024 → PageTableEntry

/-- `paging_init`; the tables are at these addresses. -/
def paging_init (page_table page_table_VM : Nat) : PageTables where
  page_dir index :=
    if index = 0 then
      { present := 1, R_W := 1, U_S := 0, PWT := 0, PCD := 0, A := 0, Ignored := 0, Size := 0,
        G := 0, AVL := 0, Addr31_12 := page_table / 2 ^ 12 }
    else if index = 1 then
      { present := 1, R_W := 1, U_S := 0, PWT := 0, PCD := 0, A := 0, Ignored := 0, Size := 1,
        G := 1, AVL := 0, Addr31_12 := 0x400 }
    else if index = 33 then
      { present := 0, R_W := 1, U_S := 1, PWT := 0, PCD := 0, A := 0, Ignored := 0, Size := 0,
        G := 0, AVL := 0, Addr31_12 := page_table_VM / 2 ^ 12 }
    else
      { present := 0, R_W := 0, U_S := 0, PWT := 0, PCD := 0, A := 0, Ignored := 0, Size := 1,
        G := 0, AVL := 0, Addr31_12 := 0 }
  page_table index :=
    if VIDEO_MEM_ADDR ≤ index.val ∧ index.val ≤ VIDEO_MEM_ADDR + 3 then
      { present := 1, R_W := 1, U_S := 0, PWT := 0, PCD := 0, A := 0, D := 0, PAT := 0, G := 0,
        AVL := 0, Addr_4k := index }
    else
      { present := 0, R_W := 0, U_S := 0, PWT := 0, PCD := 0, A := 0, D := 0, PAT := 0, G := 0,
        AVL := 0, Addr_4k := 0 }
  page_table_VM _ :=
    { present := 0, R_W := 0, U_S := 0, PWT := 0, PCD := 0, A := 0, D := 0, PAT := 0, G := 1,
      AVL := 0, Addr_4k := 0 }

namespace Kernel

/-- `vidmap_paging_set_up`. -/
def vidmap_paging_set_up (kernel : Kernel) (page_table_VM : Fin 1024 → PageTableEntry) :
    Nat × Kernel × (Fin 1024 → PageTableEntry) :=
  let page_dir :=
    Function.update kernel.page_dir 33 { kernel.page_dir 33 with present := 1 }
  let entry : PageTableEntry :=
    { page_table_VM 0xB8 with present := 1, R_W := 1, U_S := 1, Addr_4k := VIDEO_MEM_ADDR }
  (VIDEO_MEM_USR_ADDR, { kernel with page_dir }, Function.update page_table_VM 0xB8 entry)

/-- Store through a pointer into the user page. -/
def storeUser (kernel : Kernel) (address : Int) (bytes : List UInt8) : Kernel :=
  let physical := (kernel.page_dir 32).Addr31_12 * 0x1000 + (address - 0x8000000).toNat
  kernel.modifyConsole fun console =>
    { console with screen := { console.screen with
      memory := console.screen.memory.write physical bytes } }

/-- `vidmap`, called with ESP `esp`.  Behind the user page the first page that `page_table_VM` could
map is never present, so a pointer that reaches into it faults, when all is mapped. -/
def vidmap (kernel : Kernel) (page_table_VM : Fin 1024 → PageTableEntry) (esp : Nat)
    (screen_start : Int) : Option Int × Kernel × (Fin 1024 → PageTableEntry) :=
  if screen_start = 0 then (some (-1), kernel, page_table_VM)
  else if screen_start ≥ 0x8000000 ∧ screen_start < 0x8400000 then
    let kernel := kernel.paging_set_up (kernel.pcb (get_cur_pcb esp)).pid
    let (address, kernel, page_table_VM) := kernel.vidmap_paging_set_up page_table_VM
    if screen_start + 4 > 0x8400000 then (none, kernel, page_table_VM)
    else
      let bytes := (List.range 4).map fun k => (address / 256 ^ k).toUInt8
      (some 0, kernel.storeUser screen_start bytes, page_table_VM)
  else (some (-1), kernel, page_table_VM)

theorem storeUser_page_dir (kernel : Kernel) (address : Int) (bytes : List UInt8) :
    (kernel.storeUser address bytes).page_dir = kernel.page_dir := rfl

/-- `vidmap` refuses a pointer outside the user page and changes nothing; else both entries are
present, and it returns 0 unless the pointer faults. -/
theorem vidmap_cases (kernel : Kernel) (page_table_VM : Fin 1024 → PageTableEntry) (esp : Nat)
    (screen_start : Int) :
    (¬(screen_start ≥ 0x8000000 ∧ screen_start < 0x8400000) ∧
      kernel.vidmap page_table_VM esp screen_start = (some (-1), kernel, page_table_VM)) ∨
    ∃ result next table, (screen_start ≥ 0x8000000 ∧ screen_start < 0x8400000) ∧
      kernel.vidmap page_table_VM esp screen_start = (result, next, table) ∧
      (result = some 0 ↔ ¬screen_start + 4 > 0x8400000) ∧
      (next.page_dir 33).present = 1 ∧ (table 0xB8).present = 1 ∧ (table 0xB8).U_S = 1 := by
  by_cases inside : screen_start ≥ 0x8000000 ∧ screen_start < 0x8400000
  · have not_null : screen_start ≠ 0 := by omega
    refine Or.inr ?_
    simp only [vidmap, if_neg not_null, if_pos inside]
    generalize kernel.paging_set_up (kernel.pcb (get_cur_pcb esp)).pid = mapped
    by_cases crosses : screen_start + 4 > 0x8400000
    · rw [if_pos crosses]
      refine ⟨_, _, _, inside, rfl, ⟨nofun, fun fits => absurd crosses fits⟩, ?_⟩
      simp only [vidmap_paging_set_up, Function.update_self, and_self]
    · rw [if_neg crosses]
      refine ⟨_, _, _, inside, rfl, ⟨fun _ => crosses, fun _ => rfl⟩, ?_⟩
      simp only [vidmap_paging_set_up, storeUser_page_dir, Function.update_self, and_self]
  · refine Or.inl ⟨inside, ?_⟩
    rw [vidmap, if_neg inside, ite_self]

end Kernel

/-- What happens on the machine. -/
inductive PagedEvent
  /-- An event of the machine. -/
  | machine (event : MachineEvent)
  /-- The running process calls `vidmap`. -/
  | vidmap (esp : Nat) (screen_start : Int)

/-- The machine with the page table of the video page. -/
structure PagedMachine where
  /-- The machine. -/
  machine : Machine
  /-- `page_table_VM`. -/
  page_table_VM : Fin 1024 → PageTableEntry
  /-- Not in the source: which processes have called `vidmap` with success since they were
  started. -/
  vidmapped : Fin 6 → Bool

namespace PagedMachine

/-- The machine when the first tick can come; `kernel` is what memory holds before. -/
def start (kernel : Kernel) (page_table page_table_VM : Nat) : PagedMachine :=
  let tables := paging_init page_table page_table_VM
  { machine := Machine.start { kernel with page_dir := tables.page_dir }
    page_table_VM := tables.page_table_VM
    vidmapped := fun _ => false }

/-- One event.  When `vidmap` faults, the exception is the next one. -/
def step (image : Image) (state : PagedMachine) : PagedEvent → Option PagedMachine
  | .machine event =>
      (state.machine.step image event).map fun machine =>
        { state with
          machine
          vidmapped :=
            match state.machine.starts image event with
            | some (slot, _) => Function.update state.vidmapped slot false
            | none => state.vidmapped }
  | .vidmap esp screen_start =>
      if state.machine.InCall esp then
        state.machine.running.map fun r =>
          let (result, kernel, page_table_VM) :=
            state.machine.kernel.vidmap state.page_table_VM esp screen_start
          { machine := { state.machine with kernel }
            page_table_VM
            vidmapped :=
              if result = some 0 then Function.update state.vidmapped r true
              else state.vidmapped }
      else none

/-- The tables let user code use the video memory. -/
def Exposed (state : PagedMachine) : Prop :=
  (state.machine.kernel.page_dir 33).present = 1 ∧ (state.page_table_VM 0xB8).present = 1 ∧
    (state.page_table_VM 0xB8).U_S = 1

instance (state : PagedMachine) : Decidable state.Exposed :=
  inferInstanceAs (Decidable (_ ∧ _))

/-- The video memory is open to a process that asked for it. -/
def OnRequest (state : PagedMachine) : Prop :=
  state.Exposed → ∃ r ∈ state.machine.running, state.vidmapped r = true

instance (state : PagedMachine) : Decidable state.OnRequest :=
  inferInstanceAs (Decidable (_ → ∃ r ∈ _, _))

/-- While the video memory is open, nothing is started, and a process that ends goes back to one
that asked for it; no other process than such a one calls `vidmap` with a pointer that faults. -/
def Fit (image : Image) (state : PagedMachine) : PagedEvent → Prop
  | .machine event =>
      state.Exposed → state.machine.starts image event = none ∧
        ∀ call ∈ state.machine.ends event,
          ∃ p ∈ (state.machine.calls call.1).starter, state.vidmapped p = true
  | .vidmap _ screen_start =>
      screen_start > 0x8400000 - 4 ∧ screen_start < 0x8400000 →
        ∃ r ∈ state.machine.running, state.vidmapped r = true

theorem paging_init_not_present (page_table page_table_VM : Nat) :
    ((paging_init page_table page_table_VM).page_dir 33).present = 0 := by
  have not_first : (33 : Fin 1024) ≠ 0 ∧ (33 : Fin 1024) ≠ 1 := by decide
  simp only [paging_init, if_neg not_first.1, if_neg not_first.2, if_true]

theorem onRequest_start (kernel : Kernel) (page_table page_table_VM : Nat) :
    (start kernel page_table page_table_VM).OnRequest := by
  intro exposed
  have present := exposed.1
  rw [show (start kernel page_table page_table_VM).machine.kernel.page_dir =
    (paging_init page_table page_table_VM).page_dir from rfl, paging_init_not_present] at present
  cases present

/-- Only `vidmap` opens the video memory. -/
theorem exposed_machine_iff {state : PagedMachine} {machine : Machine} {vidmapped : Fin 6 → Bool}
    (pages : state.machine.kernel.SamePages machine.kernel) :
    ({ machine, page_table_VM := state.page_table_VM, vidmapped } : PagedMachine).Exposed ↔
      state.Exposed := by
  simp only [Exposed, pages 33 (by decide)]

/-- A `vidmap` keeps the video memory to those who asked for it unless a process that did not calls
it with a pointer that faults. -/
theorem OnRequest.vidmap_iff {image : Image} {state next : PagedMachine}
    (onRequest : state.OnRequest) {esp : Nat} {screen_start : Int}
    (taken : state.step image (.vidmap esp screen_start) = some next) :
    next.OnRequest ↔ state.Fit image (.vidmap esp screen_start) := by
  obtain ⟨-, called⟩ := Option.ite_none_right_eq_some.mp taken
  obtain ⟨r, run, next_eq⟩ := Option.map_eq_some_iff.mp called
  simp only [Fit, run, Option.mem_some_iff, exists_eq_left']
  rcases state.machine.kernel.vidmap_cases state.page_table_VM esp screen_start with
    ⟨outside, refused⟩ | ⟨result, kernel, table, inside, mapped, result_iff, exposed⟩
  · rw [refused] at next_eq
    cases next_eq
    refine iff_of_true onRequest fun faults => absurd ⟨?_, faults.2⟩ outside
    omega
  · rw [mapped] at next_eq
    cases next_eq
    simp only [OnRequest, Exposed, exposed, and_self, true_implies, run, Option.mem_some_iff,
      exists_eq_left']
    by_cases crosses : screen_start + 4 > 0x8400000
    · have faulted : ¬result = some 0 := fun returned => result_iff.mp returned crosses
      have faults : screen_start > 0x8400000 - 4 ∧ screen_start < 0x8400000 := by omega
      rw [if_neg faulted]
      exact ⟨fun granted _ => granted, fun granted => granted faults⟩
    · have returned := result_iff.mpr crosses
      rw [if_pos returned, Function.update_self]
      exact iff_of_true rfl fun faults => absurd faults.1 (by omega)

/-- An event of the machine keeps the video memory to those who asked for it unless it is open and
the next process is a new one or did not ask for it. -/
theorem OnRequest.machine_iff {image : Image} {state next : PagedMachine}
    (onRequest : state.OnRequest) {event : MachineEvent}
    (taken : state.step image (.machine event) = some next) :
    next.OnRequest ↔ state.Fit image (.machine event) := by
  obtain ⟨machine, happens, next_eq⟩ := Option.map_eq_some_iff.mp taken
  obtain ⟨running, pages⟩ := Machine.step_spec happens
  cases next_eq
  rw [OnRequest, exposed_machine_iff pages, Fit]
  simp only [running]
  refine forall_congr' fun exposed => ?_
  cases starts : state.machine.starts image event with
  | some process =>
      obtain ⟨slot, line⟩ := process
      simp [Machine.successor, starts]
  | none =>
      cases ends : state.machine.ends event with
      | some call => simp [Machine.successor, starts, ends]
      | none =>
          simp only [Machine.successor, starts, ends]
          exact iff_of_true (onRequest exposed)
            ⟨trivial, fun call ended => absurd ended (Option.not_mem_none call)⟩

/-- From `paging_init` on, in every run: user code can use the video memory only while a process
runs that has asked for it, exactly when every event is fit. -/
theorem on_request_iff (image : Image) (kernel : Kernel) (page_table page_table_VM : Nat)
    (events : List PagedEvent) :
    (∀ state ∈ Run.visited (step image) (start kernel page_table page_table_VM) events,
      state.OnRequest) ↔
    ∀ entry ∈ Run.taken (step image) (start kernel page_table page_table_VM) events,
      entry.1.Fit image entry.2 := by
  refine Run.invariant_iff_ok (fun _ => True) OnRequest (Fit image) (fun _ _ _ _ _ => trivial) ?_
    trivial (onRequest_start kernel page_table page_table_VM) events
  intro state event next _ onRequest taken
  cases event with
  | machine event => exact onRequest.machine_iff taken
  | vidmap esp screen_start => exact onRequest.vidmap_iff taken

/-- The shell of terminal 0 calls `vidmap`, and then it starts `ls`. -/
theorem video_memory_inherited :
    ¬∀ state ∈ Run.visited (step Image.sample) (start Kernel.boot 0x5000 0x6000)
      [.machine .tick, .machine (.turn (Machine.frame_on 0)), .vidmap (stackTop 0) 0x8000000,
        .machine (.execute (Machine.frame_on 0) (some [108, 115]))], state.OnRequest := by
  decide +kernel

end PagedMachine

end ComputerSystem
