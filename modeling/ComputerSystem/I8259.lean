import ComputerSystem.InterruptLines
import ComputerSystem.Run

/-!
# The interrupt controllers

`i8259.c`.  The masks in its two globals are never used; the controllers' own are read back.
-/

namespace ComputerSystem

open Pic8259 Run

def MASTER_8259_PORT : Nat := 0x20
def SLAVE_8259_PORT : Nat := 0xA0

/-- `enable_irq`.  Lines from 8 on are the slave's. -/
def enable_irq (irq_num : Nat) (pair : Pair) : Pair :=
  if irq_num > 15 then pair
  else
    let port := if irq_num < 8 then MASTER_8259_PORT + 1 else SLAVE_8259_PORT + 1
    let irq_num := if irq_num < 8 then irq_num else irq_num - 8
    let value := ((pair.inb port).setWidth 32 &&& ~~~(1#32 <<< irq_num)).setWidth 8
    pair.outb value port

/-- `disable_irq`. -/
def disable_irq (irq_num : Nat) (pair : Pair) : Pair :=
  if irq_num > 15 then pair
  else
    let port := if irq_num < 8 then MASTER_8259_PORT + 1 else SLAVE_8259_PORT + 1
    let irq_num := if irq_num < 8 then irq_num else irq_num - 8
    let value := ((pair.inb port).setWidth 32 ||| (1#32 <<< irq_num)).setWidth 8
    pair.outb value port

def ICW1 : BitVec 8 := 0x11
def ICW2_MASTER : BitVec 8 := 0x20
def ICW2_SLAVE : BitVec 8 := 0x28
def ICW3_MASTER : BitVec 8 := 0x04
def ICW3_SLAVE : BitVec 8 := 0x02

/-- `i8259_init`. -/
def i8259_init (pair : Pair) : Pair :=
  let pair := pair.outb ICW1 MASTER_8259_PORT
  let pair := pair.outb ICW2_MASTER 0x21
  let pair := pair.outb ICW3_MASTER 0x21
  let pair := pair.outb 0x01 0x21
  let pair := pair.outb ICW1 SLAVE_8259_PORT
  let pair := pair.outb ICW2_SLAVE 0xA1
  let pair := pair.outb ICW3_SLAVE 0xA1
  let pair := pair.outb 0x01 0xA1
  let pair := pair.outb 0xFF (MASTER_8259_PORT + 1)
  let pair := pair.outb 0xFF (SLAVE_8259_PORT + 1)
  enable_irq 2 pair

def EOI : Nat := 0x60

/-- `send_eoi`.  An interrupt of the slave ends on the master too. -/
def send_eoi (irq_num : Nat) (pair : Pair) : Pair :=
  if irq_num > 15 then pair
  else if irq_num ≥ 8 then
    let pair := pair.outb (.ofNat 8 (EOI ||| (irq_num - 8))) SLAVE_8259_PORT
    pair.outb (.ofNat 8 (EOI + 2)) MASTER_8259_PORT
  else pair.outb (.ofNat 8 (EOI ||| irq_num)) MASTER_8259_PORT

/-! ## What the calls do to the lines -/

theorem setWidth_one_shiftLeft (n : Nat) : (1#32 <<< n).setWidth 8 = line n := by
  rw [line, BitVec.setWidth_shiftLeft_of_le (by decide)]
  rfl

theorem enable_value (mask : BitVec 8) (n : Nat) :
    (mask.setWidth 32 &&& ~~~(1#32 <<< n)).setWidth 8 = put mask n false := by
  rw [BitVec.setWidth_and, BitVec.setWidth_not (by decide), setWidth_one_shiftLeft,
    BitVec.setWidth_setWidth_of_le _ (by decide), BitVec.setWidth_eq]
  rfl

theorem disable_value (mask : BitVec 8) (n : Nat) :
    (mask.setWidth 32 ||| (1#32 <<< n)).setWidth 8 = put mask n true := by
  rw [BitVec.setWidth_or, setWidth_one_shiftLeft,
    BitVec.setWidth_setWidth_of_le _ (by decide), BitVec.setWidth_eq]
  rfl

section calls

variable {pair : Pair} {base : Nat} {lines : Lines}

theorem outb_mask (stands : pair.Stands base lines) (n : Fin 16) (masked : Bool) :
    (if n.val < 8 then pair.outb (put pair.master.mask n.val masked) 0x21
      else pair.outb (put pair.slave.mask (n.val - 8) masked) 0xA1) = pair.remask n masked := by
  rw [Pair.remask]
  refine if_congr Iff.rfl ?_ ?_
  · rw [Pair.outb, if_neg (by decide), if_pos rfl, Chip.data_mask stands.master_ready.1]
  · rw [Pair.outb, if_neg (by decide), if_neg (by decide), if_neg (by decide), if_pos rfl,
      Chip.data_mask stands.slave_ready.1]

theorem enable_irq_eq (stands : pair.Stands base lines) (n : Fin 16) :
    enable_irq n.val pair = pair.remask n false := by
  rw [← outb_mask stands, enable_irq, if_neg (by omega)]
  dsimp only
  rw [enable_value]
  split_ifs <;> rfl

theorem disable_irq_eq (stands : pair.Stands base lines) (n : Fin 16) :
    disable_irq n.val pair = pair.remask n true := by
  rw [← outb_mask stands, disable_irq, if_neg (by omega)]
  dsimp only
  rw [disable_value]
  split_ifs <;> rfl

theorem command_eoi (chip : Chip) {n : Nat} (inside : n < 8) :
    chip.command (.ofNat 8 (EOI ||| n)) =
      { chip with in_service := put chip.in_service n false } := by
  have bits : ∀ k < 8, (BitVec.ofNat 8 (EOI ||| k)).getLsbD 4 = false ∧
      (BitVec.ofNat 8 (EOI ||| k)).getLsbD 3 = false ∧ BitVec.ofNat 8 (EOI ||| k) >>> 5 = 3 ∧
      (BitVec.ofNat 8 (EOI ||| k) &&& 7).toNat = k := by decide
  obtain ⟨icw, ocw, specific, line_eq⟩ := bits n inside
  rw [Chip.command, icw, ocw, specific, line_eq]
  rfl

theorem send_eoi_eq (pair : Pair) (n : Fin 16) : send_eoi n.val pair = pair.ended n := by
  rw [send_eoi, if_neg (by omega), Pair.ended]
  by_cases master : n.val < 8
  · have master_port : pair.outb (.ofNat 8 (EOI ||| n.val)) MASTER_8259_PORT =
        { pair with master := pair.master.command (.ofNat 8 (EOI ||| n.val)) } := rfl
    rw [if_neg (by omega), if_pos master, master_port, command_eoi _ master]
  · have slave_port : pair.outb (.ofNat 8 (EOI ||| (n.val - 8))) SLAVE_8259_PORT =
        { pair with slave := pair.slave.command (.ofNat 8 (EOI ||| (n.val - 8))) } := rfl
    have cascade : BitVec.ofNat 8 (EOI + 2) = .ofNat 8 (EOI ||| SLAVE_LINE) := rfl
    rw [if_pos (by omega), if_neg master, slave_port, command_eoi _ (by omega)]
    have master_port (pair : Pair) : pair.outb (.ofNat 8 (EOI + 2)) MASTER_8259_PORT =
        { pair with master := pair.master.command (.ofNat 8 (EOI + 2)) } := rfl
    dsimp only
    rw [master_port, cascade, command_eoi _ (by decide)]

end calls

/-! ## Runs of the controllers -/

/-- What happens to the controllers. -/
inductive InterruptEvent
  | enable_irq (irq_num : Nat)
  | disable_irq (irq_num : Nat)
  /-- A device requests an interrupt. -/
  | request (n : Fin 16)
  /-- The processor accepts an interrupt and gets this vector. -/
  | accept (vector : Nat)
  /-- The handler that was called last sends its EOI. -/
  | finish

/-- The controllers and the handlers that run. -/
structure Controllers where
  /-- The controllers. -/
  pair : Pair
  /-- The vectors whose handlers have not sent their EOI, the last one first. -/
  handling : List Nat

/-- One event. -/
def Controllers.step (controllers : Controllers) : InterruptEvent → Option Controllers
  | .enable_irq irq_num => some { controllers with pair := enable_irq irq_num controllers.pair }
  | .disable_irq irq_num => some { controllers with pair := disable_irq irq_num controllers.pair }
  | .request n => some { controllers with pair := controllers.pair.request n }
  | .accept vector =>
      controllers.pair.acknowledge.bind fun (given, pair) =>
        if given = vector then some ⟨pair, vector :: controllers.handling⟩ else none
  | .finish =>
      match controllers.handling with
      | [] => none
      | vector :: handling => some ⟨send_eoi (vector - 0x20) controllers.pair, handling⟩

/-- A line is enabled or disabled, if there is one of that number. -/
def Lines.switchAt (lines : Lines) (irq_num : Nat) (on : Bool) : Lines :=
  if inside : irq_num < 16 then lines.switch ⟨irq_num, inside⟩ on else lines

/-- One event, for the lines. -/
def Lines.step (lines : Lines) : InterruptEvent → Option Lines
  | .enable_irq irq_num => some (switchAt lines irq_num true)
  | .disable_irq irq_num => some (switchAt lines irq_num false)
  | .request n => some (lines.request n)
  | .accept vector =>
      lines.next.bind fun n => if 0x20 + n.val = vector then some (lines.serve n) else none
  | .finish => if lines.serving = [] then none else some lines.finish

theorem switchAt_serving (lines : Lines) (irq_num : Nat) (on : Bool) :
    (Lines.switchAt lines irq_num on).serving = lines.serving := by
  rw [Lines.switchAt]
  split_ifs <;> rfl

theorem enable_irq_stands {pair : Pair} {lines : Lines} (stands : pair.Stands 0x20 lines)
    (irq_num : Nat) :
    (enable_irq irq_num pair).Stands 0x20 (Lines.switchAt lines irq_num true) := by
  rw [Lines.switchAt]
  split_ifs with inside
  · have remasked := stands.remask ⟨irq_num, inside⟩ true
    rwa [show (enable_irq irq_num pair) = _ from enable_irq_eq stands ⟨irq_num, inside⟩]
  · rw [enable_irq, if_pos (by omega)]
    exact stands

theorem disable_irq_stands {pair : Pair} {lines : Lines} (stands : pair.Stands 0x20 lines)
    (irq_num : Nat) :
    (disable_irq irq_num pair).Stands 0x20 (Lines.switchAt lines irq_num false) := by
  rw [Lines.switchAt]
  split_ifs with inside
  · have remasked := stands.remask ⟨irq_num, inside⟩ false
    rwa [show (disable_irq irq_num pair) = _ from disable_irq_eq stands ⟨irq_num, inside⟩]
  · rw [disable_irq, if_pos (by omega)]
    exact stands

/-- Only the line that the slave is on is enabled. -/
def Lines.closed : Lines where
  enabled := fun n => n.val = SLAVE_LINE
  pending := fun _ => false
  serving := []

theorem i8259_init_stands (pair : Pair) : (i8259_init pair).Stands 0x20 Lines.closed := by
  let masked : Pair :=
    ⟨⟨.mask, true, 0x20, 4, false, 0xFF, 0, 0⟩, ⟨.mask, true, 0x28, 2, false, 0xFF, 0, 0⟩⟩
  have programmed : i8259_init pair = enable_irq 2 masked := rfl
  have stands : masked.Stands 0x20 ⟨fun _ => false, fun _ => false, []⟩ :=
    { master_ready := ⟨rfl, rfl⟩
      slave_ready := ⟨rfl, rfl⟩
      cascade := by decide
      answers := by decide
      master_base := rfl
      slave_base := rfl
      mask := by decide
      requests := by decide
      quiet := fun _ _ => ⟨rfl, List.not_mem_nil⟩
      service := by decide
      slave_service := by decide
      nested := .nil }
  have enabled : Function.update (fun _ => false) ⟨2, by decide⟩ true = Lines.closed.enabled := by
    decide
  have opened := enable_irq_stands stands 2
  rw [Lines.switchAt, dif_pos (by decide), Lines.switch, enabled] at opened
  rw [programmed]
  exact opened

/-- The controllers and the lines agree. -/
def Controllers.Agree (controllers : Controllers) (lines : Lines) : Prop :=
  controllers.pair.Stands 0x20 lines ∧
    controllers.handling = lines.serving.map fun n => 0x20 + n.val

theorem Controllers.agree_step (controllers : Controllers) (lines : Lines) (event : InterruptEvent)
    (agree : controllers.Agree lines) :
    Option.Rel Controllers.Agree (controllers.step event) (Lines.step lines event) := by
  obtain ⟨stands, handling⟩ := agree
  cases event with
  | enable_irq irq_num =>
      refine .some ⟨?_, ?_⟩
      · exact enable_irq_stands stands irq_num
      · rw [handling, switchAt_serving]
  | disable_irq irq_num =>
      refine .some ⟨?_, ?_⟩
      · exact disable_irq_stands stands irq_num
      · rw [handling, switchAt_serving]
  | request n =>
      refine .some ⟨stands.request n, ?_⟩
      rw [handling, Lines.request]
      split_ifs <;> rfl
  | accept vector =>
      rw [Controllers.step, Lines.step, stands.acknowledge]
      cases next : lines.next with
      | none => exact .none
      | some n =>
          simp only [Option.map_some, Option.bind_some]
          split_ifs with given
          · refine .some ⟨stands.served next, ?_⟩
            rw [handling, ← given]
            rfl
          · exact .none
  | finish =>
      rw [Controllers.step, Lines.step]
      cases serving : lines.serving with
      | nil =>
          rw [handling, serving]
          exact .none
      | cons n rest =>
          have finished : lines.finish.serving = rest := by rw [Lines.finish, serving]; rfl
          rw [handling, serving, if_neg (List.cons_ne_nil n rest)]
          refine .some ⟨?_, ?_⟩
          · rw [Nat.add_sub_cancel_left, send_eoi_eq]
            exact stands.ended serving
          · rw [finished]

/-- After `i8259_init` the controllers are sixteen lines: whatever happens, in whatever order, the
processor gets the vectors of the lines that are to interrupt, and each EOI ends what it should. -/
theorem i8259_serves_lines (pair : Pair) (events : List InterruptEvent) :
    Option.Rel Controllers.Agree (run Controllers.step ⟨i8259_init pair, []⟩ events)
      (run Lines.step Lines.closed events) :=
  rel_run Controllers.agree_step ⟨i8259_init_stands pair, rfl⟩ events

end ComputerSystem
