import ComputerSystem.I8259
import ComputerSystem.Idt

/-!
# Interrupts while the kernel starts and after

What `entry` does to the controllers, the table and the interrupt flag, and the handlers of the
three devices as the controllers see them.  Devices request interrupts at any time.
-/

namespace ComputerSystem

open Pic8259 Gates Run

def PIT_IRQ : Nat := 0
def KEYBOARD_IRQ : Nat := 1
def RTC_IRQ : Nat := 8

/-- Where the code of the handlers is. -/
structure Layout where
  /-- The address of a handler. -/
  address : Isr → BitVec 32
  /-- The handler that begins at an address. -/
  isr : Nat → Option Isr
  /-- No two begin at the same one. -/
  isr_address : ∀ handler, isr (address handler).toNat = some handler

/-- The handlers one behind another, 16 bytes each. -/
def Layout.sample : Layout where
  address handler := .ofNat 32 (0x404000 + 16 * handler.ctorIdx)
  isr address := (isrs.map Prod.snd).find? fun handler => 0x404000 + 16 * handler.ctorIdx = address
  isr_address handler := by cases handler <;> decide

/-- What the stubs of `linkage.S` give to `do_irq`. -/
def Isr.irq : Isr → Option Nat
  | .pit_intr_asm => some 32
  | .key_intr_asm => some 33
  | .rtc_intr_asm => some 40
  | _ => none

/-- `do_irq`: every way through one of the handlers sends one EOI. -/
def do_irq (irq : Nat) (pair : Pair) : Pair :=
  if irq = 0x20 then send_eoi PIT_IRQ pair                     -- pit_handler
  else if irq = 33 then send_eoi KEYBOARD_IRQ pair             -- show_pressed_key
  else if irq = 40 then send_eoi RTC_IRQ pair                  -- rtc_handler
  else pair

/-- The calls of `entry` that interrupts depend on. -/
inductive BootCall
  | i8259_init
  | idt_init
  | keyboard_init
  | rtc_init
  | init_pit
  deriving DecidableEq

/-- `entry`. -/
def entryCalls : List BootCall := [.i8259_init, .idt_init, .keyboard_init, .rtc_init, .init_pit]

/-- The processor, the controllers and the table. -/
structure Interrupts where
  /-- The controllers. -/
  pair : Pair
  /-- The table that the processor uses. -/
  idt : IdtTable
  /-- The processor accepts interrupts. -/
  flag : Bool
  /-- What the handlers that have not sent their EOI gave to `do_irq`, the last one first. -/
  running : List Nat
  /-- What `entry` has still to call. -/
  booting : List BootCall
  /-- An interrupt led to nothing that handles it. -/
  fault : Bool

inductive InterruptsEvent
  /-- A device requests an interrupt. -/
  | request (n : Fin 16)
  /-- The next call of `entry`. -/
  | boot
  /-- The processor accepts an interrupt and gets this vector. -/
  | accept (vector : Nat)
  /-- The handler that was called last sends its EOI and lets interrupts in again. -/
  | finish

namespace Interrupts

variable (layout : Layout)

/-- One call of `entry`. -/
def call (interrupts : Interrupts) : BootCall → Interrupts
  | .i8259_init => { interrupts with pair := i8259_init interrupts.pair, flag := true }
  | .idt_init => { interrupts with idt := ComputerSystem.idt_init layout.address interrupts.idt }
  | .keyboard_init => { interrupts with pair := enable_irq KEYBOARD_IRQ interrupts.pair }
  | .rtc_init => { interrupts with pair := enable_irq RTC_IRQ interrupts.pair }
  | .init_pit => { interrupts with pair := enable_irq PIT_IRQ interrupts.pair }

/-- The processor goes through the gate of a vector. -/
def enter (interrupts : Interrupts) (vector : Nat) : Interrupts :=
  let entered : Option Interrupts := do
    let gate ← gate (interrupts.idt vector).val
    let isr ← layout.isr gate.offset
    let irq ← isr.irq
    return { interrupts with
      running := irq :: interrupts.running
      flag := interrupts.flag && gate.trap }
  entered.getD { interrupts with fault := true }

/-- One event. -/
def step (interrupts : Interrupts) : InterruptsEvent → Option Interrupts
  | .request n => some { interrupts with pair := interrupts.pair.request n }
  | .boot =>
      match interrupts.running, interrupts.booting with
      | [], next :: booting => some (call layout { interrupts with booting } next)
      | _, _ => none
  | .accept vector =>
      if interrupts.flag then
        interrupts.pair.acknowledge.bind fun (given, pair) =>
          if given = vector then some (enter layout { interrupts with pair } vector) else none
      else none
  | .finish =>
      match interrupts.running with
      | [] => none
      | irq :: running =>
          some { interrupts with pair := do_irq irq interrupts.pair, running, flag := true }

/-- The state in which `entry` is called. -/
def start (pair : Pair) (idt : IdtTable) : Interrupts where
  pair := pair
  idt := idt
  flag := false
  running := []
  booting := entryCalls
  fault := false

end Interrupts

/-! ## The devices -/

/-- The devices that the kernel handles. -/
inductive Device
  | pit
  | keyboard
  | rtc

namespace Device

/-- Its interrupt line. -/
def line : Device → Fin 16
  | .pit => ⟨PIT_IRQ, by decide⟩
  | .keyboard => ⟨KEYBOARD_IRQ, by decide⟩
  | .rtc => ⟨RTC_IRQ, by decide⟩

/-- Its handler. -/
def isr : Device → Isr
  | .pit => .pit_intr_asm
  | .keyboard => .key_intr_asm
  | .rtc => .rtc_intr_asm

def vector (device : Device) : Nat := 0x20 + device.line.val

/-- The gate of a device's vector leads to its handler, with interrupts disabled. -/
theorem gate_vector (device : Device) (layout : Layout) (idt : IdtTable) :
    gate (idt_init layout.address idt device.vector).val =
      some ⟨KERNEL_CS, (layout.address device.isr).toNat, false, 0⟩ := by
  rw [gate_idt_init layout.address idt (by cases device <;> decide)]
  cases device <;> rfl

theorem irq_isr (device : Device) : device.isr.irq = some device.vector := by
  cases device <;> rfl

theorem do_irq_vector (device : Device) (pair : Pair) :
    do_irq device.vector pair = pair.ended device.line := by
  rw [← send_eoi_eq]
  cases device <;> rfl

end Device

/-! ## What holds in every state -/

namespace Interrupts

variable (layout : Layout)

/-- `i8259_init` has not been called. -/
def Unprepared (interrupts : Interrupts) : Prop :=
  interrupts.booting = entryCalls ∧ interrupts.flag = false ∧ interrupts.running = []

/-- No line is enabled before the table is filled in, and then those of the devices. -/
def Guarded (interrupts : Interrupts) (lines : Lines) : Prop :=
  (interrupts.booting = [.idt_init, .keyboard_init, .rtc_init, .init_pit] ∧
    ∀ n, lines.enabled n = true → n.val = SLAVE_LINE) ∨
  (interrupts.booting <:+ [.keyboard_init, .rtc_init, .init_pit] ∧
    (∃ idt, interrupts.idt = idt_init layout.address idt) ∧
    ∀ n, lines.enabled n = true → n.val = SLAVE_LINE ∨ ∃ device : Device, n = device.line)

/-- One device is served, with interrupts disabled, or none. -/
def Serves (interrupts : Interrupts) (lines : Lines) : Prop :=
  (interrupts.running = [] ∧ lines.serving = []) ∨
  ∃ device : Device, interrupts.running = [device.vector] ∧ lines.serving = [device.line] ∧
    interrupts.flag = false

/-- The controllers and the table are fit for the interrupts that may come. -/
structure Prepared (interrupts : Interrupts) (lines : Lines) : Prop where
  /-- The controllers are initialised. -/
  stands : interrupts.pair.Stands 0x20 lines
  /-- What is enabled has a gate. -/
  guarded : interrupts.Guarded layout lines
  /-- What is served runs. -/
  serves : interrupts.Serves lines

/-- What holds in every state. -/
def Sound (interrupts : Interrupts) : Prop :=
  interrupts.fault = false ∧
    (interrupts.Unprepared ∨ ∃ lines, interrupts.Prepared layout lines)

variable {layout} {interrupts : Interrupts} {lines : Lines}

/-- While the processor accepts interrupts, nothing is served. -/
theorem Serves.idle (serves : interrupts.Serves lines) (flag : interrupts.flag = true) :
    interrupts.running = [] ∧ lines.serving = [] := by
  rcases serves with idle | ⟨device, -, -, closed⟩
  · exact idle
  · rw [flag] at closed
    cases closed

/-- The line that interrupts is that of a device, and the table has been filled in. -/
theorem Guarded.next (guarded : interrupts.Guarded layout lines) {n : Fin 16}
    (next : lines.next = some n) :
    ∃ device : Device, n = device.line ∧ ∃ idt, interrupts.idt = idt_init layout.address idt := by
  obtain ⟨⟨-, enabled, -⟩, other⟩ := Pair.next_spec next
  rcases guarded with ⟨-, only⟩ | ⟨-, filled, only⟩
  · exact absurd (only n enabled) other
  · obtain ⟨device, found⟩ := (only n enabled).resolve_left other
    exact ⟨device, found, filled⟩

theorem Guarded.of_same (guarded : interrupts.Guarded layout lines) {next : Interrupts}
    {lines' : Lines} (booting : next.booting = interrupts.booting)
    (idt : next.idt = interrupts.idt) (enabled : lines'.enabled = lines.enabled) :
    next.Guarded layout lines' := by
  rw [Guarded, booting, idt, enabled]
  exact guarded

theorem Prepared.request (prepared : interrupts.Prepared layout lines) (n : Fin 16) :
    Prepared layout { interrupts with pair := interrupts.pair.request n } (lines.request n) where
  stands := prepared.stands.request n
  guarded := by
    rw [Lines.request]
    split_ifs <;> exact prepared.guarded
  serves := by
    rw [Lines.request]
    split_ifs <;> exact prepared.serves

/-- The calls of `entry` that enable a device. -/
theorem call_enables (interrupts : Interrupts) {next : BootCall}
    (enables : next ∈ [BootCall.keyboard_init, .rtc_init, .init_pit]) :
    ∃ device : Device, call layout interrupts next =
      { interrupts with pair := enable_irq device.line.val interrupts.pair } := by
  cases next with
  | i8259_init => exact absurd enables (by decide)
  | idt_init => exact absurd enables (by decide)
  | keyboard_init => exact ⟨.keyboard, rfl⟩
  | rtc_init => exact ⟨.rtc, rfl⟩
  | init_pit => exact ⟨.pit, rfl⟩

theorem Prepared.boot (prepared : interrupts.Prepared layout lines) {next : BootCall}
    {booting : List BootCall} (idle : interrupts.running = [])
    (remaining : interrupts.booting = next :: booting) :
    ∃ lines', (call layout { interrupts with booting } next).Prepared layout lines' := by
  obtain ⟨stands, guarded, serves⟩ := prepared
  have serving : lines.serving = [] := by
    rcases serves with ⟨-, serving⟩ | ⟨device, running, -⟩
    · exact serving
    · rw [idle] at running
      cases running
  rcases guarded with ⟨first, only⟩ | ⟨later, filled, only⟩
  · rw [remaining] at first
    obtain ⟨rfl, rfl⟩ := List.cons.inj first
    exact ⟨lines, stands, Or.inr ⟨List.suffix_rfl, ⟨_, rfl⟩, fun n on => Or.inl (only n on)⟩,
      Or.inl ⟨idle, serving⟩⟩
  · rw [remaining] at later
    obtain ⟨device, called⟩ := @call_enables layout { interrupts with booting } next
      (later.mem List.mem_cons_self)
    have remasked : (interrupts.pair.remask device.line false).Stands 0x20
        (lines.switch device.line true) := stands.remask device.line true
    refine ⟨lines.switch device.line true, ?_⟩
    rw [called]
    refine ⟨?_, Or.inr ⟨?_, filled, fun n on => ?_⟩, Or.inl ⟨idle, serving⟩⟩
    · rwa [← enable_irq_eq stands] at remasked
    · exact (List.suffix_cons next booting).trans later
    · rcases eq_or_ne n device.line with here | other
      · exact Or.inr ⟨device, here⟩
      · have before : (lines.switch device.line true).enabled n = lines.enabled n :=
          Function.update_of_ne other _ _
        exact only n (before.symm.trans on)

/-- The gate of a device's vector leads to the handler that ends its interrupts. -/
theorem enter_device (device : Device) {idt : IdtTable}
    (filled : interrupts.idt = idt_init layout.address idt) :
    enter layout interrupts device.vector =
      { interrupts with running := device.vector :: interrupts.running, flag := false } := by
  have found := device.gate_vector layout idt
  rw [← filled] at found
  rw [enter, found]
  simp only [Option.bind_eq_bind, Option.bind_some, Option.pure_def, Option.getD_some,
    layout.isr_address, device.irq_isr, Bool.and_false]

theorem Prepared.accept (prepared : interrupts.Prepared layout lines)
    (flag : interrupts.flag = true) {n : Fin 16} (next : lines.next = some n) :
    ∃ device : Device, 0x20 + n.val = device.vector ∧
      gate (interrupts.idt device.vector).val =
        some ⟨KERNEL_CS, (layout.address device.isr).toNat, false, 0⟩ ∧
      (enter layout { interrupts with pair := interrupts.pair.served n } device.vector).Prepared
        layout (lines.serve n) ∧
      (enter layout { interrupts with pair := interrupts.pair.served n } device.vector).fault =
        interrupts.fault := by
  obtain ⟨stands, guarded, serves⟩ := prepared
  obtain ⟨running, serving⟩ := serves.idle flag
  obtain ⟨device, rfl, idt, filled⟩ := guarded.next next
  have entered := @enter_device layout
    { interrupts with pair := interrupts.pair.served device.line } device idt filled
  refine ⟨device, rfl, ?_, ?_, ?_⟩
  · rw [filled]
    exact device.gate_vector layout idt
  · rw [entered]
    refine ⟨stands.served next, guarded.of_same rfl rfl rfl, Or.inr ⟨device, ?_, ?_, rfl⟩⟩
    · rw [running]
    · rw [Lines.serve_serving, serving]
  · rw [entered]

theorem Prepared.finish (prepared : interrupts.Prepared layout lines) (device : Device)
    (serving : lines.serving = [device.line]) :
    Prepared layout
      { interrupts with pair := do_irq device.vector interrupts.pair, running := [], flag := true }
      lines.finish := by
  obtain ⟨stands, guarded, -⟩ := prepared
  refine ⟨?_, guarded.of_same rfl rfl rfl, Or.inl ⟨rfl, ?_⟩⟩
  · rw [device.do_irq_vector]
    exact stands.ended serving
  · rw [Lines.finish, serving]
    rfl

theorem stands_idle {pair : Pair} (stands : pair.Stands 0x20 lines) (serving : lines.serving = [])
    (n : Fin 16) : pair.bit Chip.in_service n = false := by
  by_cases slave : n.val = SLAVE_LINE
  · have two : n = 2 := Fin.ext slave
    rw [two, stands.slave_service, serving]
    simp
  · rw [stands.service n slave, serving]
    simp

/-- What an event of a run finds. -/
def Orderly (layout : Layout) (interrupts : Interrupts) : InterruptsEvent → Prop
  | .accept vector =>
      ∃ device : Device, vector = device.vector ∧
        gate (interrupts.idt vector).val =
          some ⟨KERNEL_CS, (layout.address device.isr).toNat, false, 0⟩ ∧
        ∀ n, interrupts.pair.bit Chip.in_service n = false
  | .finish =>
      ∃ device : Device, interrupts.running = [device.vector] ∧
        ∀ n, (do_irq device.vector interrupts.pair).bit Chip.in_service n = false
  | _ => True

theorem Sound.step (sound : interrupts.Sound layout) {event : InterruptsEvent} {next : Interrupts}
    (taken : interrupts.step layout event = some next) :
    next.Sound layout ∧ interrupts.Orderly layout event := by
  obtain ⟨fault, unprepared | ⟨lines, prepared⟩⟩ := sound
  · obtain ⟨booting, flag, running⟩ := unprepared
    cases event with
    | request n =>
        cases taken
        exact ⟨⟨fault, Or.inl ⟨booting, flag, running⟩⟩, trivial⟩
    | boot =>
        rw [Interrupts.step, running, booting] at taken
        cases taken
        refine ⟨⟨fault, Or.inr ⟨Lines.closed, i8259_init_stands interrupts.pair, ?_, ?_⟩⟩, trivial⟩
        · refine Or.inl ⟨rfl, fun n on => ?_⟩
          exact of_decide_eq_true on
        · exact Or.inl ⟨rfl, rfl⟩
    | accept vector =>
        rw [Interrupts.step, flag] at taken
        cases taken
    | finish =>
        rw [Interrupts.step, running] at taken
        cases taken
  · cases event with
    | request n =>
        cases taken
        exact ⟨⟨fault, Or.inr ⟨_, prepared.request n⟩⟩, trivial⟩
    | boot =>
        rw [Interrupts.step] at taken
        split at taken
        next called booting idle remaining =>
          obtain ⟨lines', prepared'⟩ := prepared.boot idle remaining
          rw [← Option.some.inj taken]
          refine ⟨⟨?_, Or.inr ⟨lines', prepared'⟩⟩, trivial⟩
          cases called <;> exact fault
        next => cases taken
    | accept vector =>
        rw [Interrupts.step] at taken
        split_ifs at taken with flag
        rw [prepared.stands.acknowledge] at taken
        cases next_eq : lines.next with
        | none =>
            rw [next_eq] at taken
            cases taken
        | some n =>
            rw [next_eq, Option.map_some, Option.bind_some] at taken
            dsimp only at taken
            split_ifs at taken with given
            obtain ⟨device, vector_eq, gate_eq, prepared', fault_eq⟩ := prepared.accept flag next_eq
            rw [given.symm.trans vector_eq] at taken ⊢
            rw [← Option.some.inj taken]
            refine ⟨⟨fault_eq.trans fault, Or.inr ⟨_, prepared'⟩⟩, device, rfl, gate_eq, ?_⟩
            exact stands_idle prepared.stands (prepared.serves.idle flag).2
    | finish =>
        rw [Interrupts.step] at taken
        rcases prepared.serves with ⟨running, -⟩ | ⟨device, running, serving, -⟩
        · rw [running] at taken
          cases taken
        · rw [running] at taken
          have finished := prepared.finish device serving
          have served : lines.finish.serving = [] := by
            rw [Lines.finish, serving]
            rfl
          rw [← Option.some.inj taken]
          exact ⟨⟨fault, Or.inr ⟨_, finished⟩⟩, device, running,
            stands_idle finished.stands served⟩

/-- Whatever the devices request while the kernel starts and after, and whenever the processor
accepts an interrupt: it comes from the PIT, the keyboard or the RTC, while nothing else is in
service, and its gate leads to the handler of that device, which ends it.  Nothing else is ever
reached. -/
theorem interrupts_reach_handlers (layout : Layout) (pair : Pair) (idt : IdtTable)
    (events : List InterruptsEvent) :
    (∀ entry ∈ taken (step layout) (start pair idt) events,
      Orderly layout entry.1 entry.2) ∧
    ∀ interrupts ∈ visited (step layout) (start pair idt) events, interrupts.fault = false := by
  have initial : (start pair idt).Sound layout := ⟨rfl, Or.inl ⟨rfl, rfl, rfl⟩⟩
  constructor
  · have agree := good_iff_ok (Sound layout) (fun _ _ => True) (Orderly layout)
      (fun _ _ _ sound taken => iff_of_true (sound.step taken).2 trivial)
      (fun _ _ _ sound _ taken => (sound.step taken).1) initial events
    exact agree.mpr fun _ _ => trivial
  · intro interrupts mem
    have sound : interrupts.Sound layout := invariant_of_ok (Sound layout) (fun _ _ => True)
      (fun _ _ _ sound _ taken => (sound.step taken).1) initial events (fun _ _ => trivial)
      interrupts mem
    exact sound.1

/-- A key before the table is filled in, and while it is handled a tick of a PIT that is not enabled
yet; the clock waits until then, and another key for the clock. -/
def typed : List InterruptsEvent :=
  [.boot, .request Device.keyboard.line, .boot, .request Device.rtc.line, .boot, .accept 33,
    .request Device.pit.line, .finish, .boot, .boot, .accept 32, .finish, .accept 40,
    .request Device.keyboard.line, .finish, .accept 33, .finish]

/-- The controllers as nobody initialised them, and an empty table. -/
def unprepared : Interrupts :=
  start ⟨⟨.mask, false, 8, 0, false, 0, 0, 0⟩, ⟨.mask, false, 0x70, 0, false, 0, 0, 0⟩⟩
    fun _ => ⟨0, 0, 0, 0, 0, 0, 0, 0, 0, 0, 0⟩

/-- All of these events happen, in this order, and each finds what it should. -/
theorem interrupts_reach_handlers_typed :
    ∃ last, run (step Layout.sample) unprepared typed = some last ∧ last.running = [] ∧
      last.booting = [] ∧ last.fault = false ∧
      ∀ entry ∈ taken (step Layout.sample) unprepared typed,
        Orderly Layout.sample entry.1 entry.2 := by
  have finishes : (run (step Layout.sample) unprepared typed).map
      (fun last => (last.running, last.booting)) = some ([], []) := by decide +kernel
  obtain ⟨last, reached, facts⟩ := Option.map_eq_some_iff.mp finishes
  obtain ⟨running, booting⟩ := Prod.mk.inj facts
  obtain ⟨orderly, faultless⟩ := interrupts_reach_handlers Layout.sample unprepared.pair
    unprepared.idt typed
  exact ⟨last, reached, running, booting, faultless last (mem_visited_of_run reached), orderly⟩

end Interrupts

end ComputerSystem
