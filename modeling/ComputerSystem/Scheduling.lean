import ComputerSystem.ProcessEffects
import ComputerSystem.Run

/-!
# Ticks, calls and returns

The machine with its processes.  A tick runs the loop of `contextSwitch` on the kernel stack of the
process it interrupts, one turn after the other; a started process takes the processor at once and
leaves its caller, a process or the rest of that loop, behind until it ends.  Where each process was
started from is kept beside the kernel, which only has the copies in the PCBs.
-/

namespace ComputerSystem

open CArray

/-- The call of `execute` that started a process. -/
structure Call where
  /-- The process on whose kernel stack it was made; none for a start that nobody waits for. -/
  starter : Option (Fin 6)
  /-- ESP when the parent's data is stored. -/
  esp : Nat
  /-- EBP when the parent's data is stored. -/
  ebp : Nat
  /-- Turns of the loop of `contextSwitch` left to the caller. -/
  turns : List (Fin 3)

/-- What happens on the machine. -/
inductive MachineEvent
  /-- The timer interrupts. -/
  | tick
  /-- The loop of `contextSwitch` makes a turn. -/
  | turn (frame : Frame)
  /-- A key switches the terminal on display. -/
  | switch (t : Fin 3)
  /-- The running process calls `execute`. -/
  | execute (frame : Frame) (command : Option (List UInt8))
  /-- The running process calls `halt`. -/
  | halt (esp : Nat) (frame : Frame) (status : UInt8)
  /-- The running process raises an exception, whose handler prints a message. -/
  | exception (message : String) (esp : Nat) (frame : Frame)

/-- The machine. -/
structure Machine where
  /-- The kernel. -/
  kernel : Kernel
  /-- The running process. -/
  running : Option (Fin 6)
  /-- Turns of the loop of `contextSwitch` still to be made. -/
  turns : List (Fin 3)
  /-- Not in the source: where each process was started from. -/
  calls : Fin 6 → Call
  /-- Not in the source: the terminal that each process belongs to. -/
  home : Fin 6 → Fin 3

/-- The stores of a turn of `contextSwitch` in front of its call of `execute`. -/
def Kernel.take_turn (kernel : Kernel) (i : Fin 3) : Kernel :=
  let kernel := { kernel with schedule_arr := store kernel.schedule_arr i i }
  let kernel := kernel.modifyConsole fun console => { console with background_terminal := some i }
  kernel.modifyConsole fun console => console.storePcbIdx i i

/-- The kernel when the first tick can come; `kernel` is what memory holds before. -/
def Kernel.start_up (kernel : Kernel) : Kernel :=
  let kernel := kernel.modifyConsole fun console =>
    { console.terminal_start with background_terminal := none, term_overrun := false }
  { kernel with process_arr := fun _ => 0, schedule_arr := fun _ => -1 }

namespace Machine

/-- The machine when the first tick can come. -/
def start (kernel : Kernel) : Machine where
  kernel := kernel.start_up
  running := none
  turns := []
  calls := fun _ => ⟨none, 0, 0, []⟩
  home := fun _ => 0

/-- A process can make a system call on the kernel stack that ESP is on. -/
def InCall (machine : Machine) (esp : Nat) : Prop :=
  machine.turns = [] ∧ get_cur_pcb esp = get_cur_pcb machine.kernel.tss.esp0

instance (machine : Machine) (esp : Nat) : Decidable (machine.InCall esp) :=
  inferInstanceAs (Decidable (_ ∧ _))

/-- The call of `execute` that an event makes, with the kernel that it finds. -/
def executes (machine : Machine) : MachineEvent → Option (Kernel × Frame × Option (List UInt8))
  | .turn frame =>
      match machine.turns with
      | [] => none
      | i :: _ =>
          if machine.kernel.schedule_arr i = -1 then
            some (machine.kernel.take_turn i, frame, some shell)
          else none
  | .execute frame command =>
      if machine.running ≠ none ∧ machine.InCall frame.esp then
        some (machine.kernel, frame, command)
      else none
  | _ => none

/-- The call of `real_halt` that an event makes: the process, the kernel, ESP, the frame of the
`execute` in it and the status. -/
def ends (machine : Machine) : MachineEvent → Option (Fin 6 × Kernel × Nat × Frame × Nat)
  | .halt esp frame status =>
      if machine.InCall esp then
        machine.running.map fun c => (c, machine.kernel, esp, frame, status.toNat)
      else none
  | .exception message esp frame =>
      if machine.InCall esp then
        machine.running.map fun c => (c, machine.kernel.printf message, esp, frame, 256)
      else none
  | _ => none

/-- After a call of `execute` with `turns` left to its caller; a process that it starts belongs to
terminal `home`. -/
def executed (machine : Machine) (frame : Frame) (turns : List (Fin 3)) (home : Fin 3) :
    Outcome × Kernel → Option Machine
  | (.started slot _, kernel) =>
      some
        { kernel
          running := some slot
          turns := []
          calls := Function.update machine.calls slot ⟨machine.running, frame.esp, frame.ebp, turns⟩
          home := Function.update machine.home slot home }
  | (.returned _, kernel) => some { machine with kernel, turns }
  | _ => none

/-- After the end of process `c`.  A jump into another frame than the one that `c` was started from
leaves everything modelled here. -/
def ended (machine : Machine) (c : Fin 6) (frame : Frame) : Outcome × Kernel → Option Machine
  | (.started slot _, kernel) =>
      some
        { kernel
          running := some slot
          turns := []
          calls := Function.update machine.calls slot ⟨none, frame.esp, frame.ebp, []⟩
          home := Function.update machine.home slot (machine.home c) }
  | (.jumped _ esp ebp, kernel) =>
      match (machine.calls c).starter with
      | none => none
      | some p =>
          if esp = (machine.calls c).esp ∧ ebp = (machine.calls c).ebp then
            some { machine with kernel, running := some p, turns := (machine.calls c).turns }
          else none
  | _ => none

/-- The turns left to the caller of `execute`. -/
def turns_left (machine : Machine) : MachineEvent → List (Fin 3)
  | .turn _ => machine.turns.tail
  | _ => machine.turns

/-- The terminal of a process that a call of `execute` starts. -/
def home_of (machine : Machine) : MachineEvent → Fin 3
  | .turn _ => machine.turns.headD 0
  | _ => match machine.running with
    | none => 0
    | some r => machine.home r

/-- An event that calls neither `execute` nor `real_halt`; a turn finds its terminal started. -/
def passed (machine : Machine) : MachineEvent → Option Machine
  | .tick => if machine.turns = [] then some { machine with turns := [0, 1, 2] } else none
  | .turn _ =>
      match machine.turns with
      | [] => none
      | _ :: turns => some { machine with turns }
  | .switch t =>
      some { machine with
        kernel := machine.kernel.modifyConsole fun console =>
          console.terminal_switch console.cur_term_idx t }
  | _ => none

/-- One event. -/
def step (image : Image) (machine : Machine) (event : MachineEvent) : Option Machine :=
  match machine.executes event with
  | some (kernel, frame, command) =>
      machine.executed frame (machine.turns_left event) (machine.home_of event)
        (ComputerSystem.execute image kernel frame command)
  | none =>
      match machine.ends event with
      | some (c, kernel, esp, frame, status) =>
          machine.ended c frame (real_halt image kernel esp frame status)
      | none => machine.passed event

/-- A frame on the kernel stack of a process. -/
def frame_on (p : Fin 6) : Frame :=
  { Frame.zero with esp := stackTop p - 100, ebp := stackTop p - 84 }

end Machine

end ComputerSystem
