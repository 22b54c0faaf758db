import Mathlib

/-!
# Two cascaded interrupt controllers

The 8259 pair of a PC: edge-triggered requests, masks, fully nested priorities and the commands that
end an interrupt.  A set of lines is a byte, line 0 first; it has the highest priority.
-/

namespace Pic8259

/-- The set of one line. -/
def line (n : Nat) : BitVec 8 := 1#8 <<< n

theorem getLsbD_line {n k : Nat} (inside : k < 8) : (line n).getLsbD k = decide (k = n) := by
  rw [line, BitVec.getLsbD_shiftLeft, BitVec.getLsbD_one, Bool.eq_iff_iff]
  simp only [inside, decide_true, Bool.true_and, Bool.and_eq_true, Bool.not_eq_true',
    decide_eq_false_iff_not, decide_eq_true_eq]
  omega

/-- A line put into a set or taken out of it. -/
def put (set : BitVec 8) (n : Nat) (on : Bool) : BitVec 8 :=
  if on then set ||| line n else set &&& ~~~line n

theorem getLsbD_put (set : BitVec 8) {n k : Nat} (on : Bool) (inside : k < 8) :
    (put set n on).getLsbD k = if k = n then on else set.getLsbD k := by
  cases on with
  | true =>
      rw [put, if_pos rfl, BitVec.getLsbD_or, getLsbD_line inside]
      by_cases same : k = n <;> simp [same]
  | false =>
      rw [put, if_neg Bool.false_ne_true, BitVec.getLsbD_and, BitVec.getLsbD_not,
        getLsbD_line inside]
      by_cases same : k = n <;> simp [same, inside]

/-! ## One controller -/

/-- What the next write to the data port is. -/
inductive Awaits
  /-- The vectors. -/
  | icw2
  /-- How the two are cascaded. -/
  | icw3
  /-- How interrupts end. -/
  | icw4
  /-- The mask, from then on. -/
  | mask
  deriving DecidableEq

/-- A controller. -/
structure Chip where
  /-- How far it is initialised. -/
  awaits : Awaits
  /-- ICW1 announced an ICW4. -/
  four : Bool
  /-- The vector of line 0. -/
  base : BitVec 8
  /-- ICW3: the lines of the slaves, or the line a slave is on. -/
  cascade : BitVec 8
  /-- Interrupts end when they are acknowledged. -/
  auto_eoi : Bool
  /-- The lines that are disabled. -/
  mask : BitVec 8
  /-- The lines whose requests were not acknowledged yet. -/
  requests : BitVec 8
  /-- The lines whose interrupts were acknowledged and have not ended. -/
  in_service : BitVec 8

namespace Chip

/-- A write to the command port.  Rotations and OCW3 leave the fields here alone. -/
def command (chip : Chip) (value : BitVec 8) : Chip :=
  if value.getLsbD 4 then                                      -- ICW1
    { chip with
      awaits := .icw2
      four := value.getLsbD 0
      auto_eoi := false
      mask := 0
      requests := 0
      in_service := 0 }
  else if value.getLsbD 3 then chip                            -- OCW3
  else if value >>> 5 = 1 then                                 -- the highest one ends
    match (List.range 8).find? chip.in_service.getLsbD with
    | none => chip
    | some n => { chip with in_service := put chip.in_service n false }
  else if value >>> 5 = 3 then                                 -- this one ends
    { chip with in_service := put chip.in_service (value &&& 7).toNat false }
  else chip

/-- A write to the data port. -/
def data (chip : Chip) (value : BitVec 8) : Chip :=
  match chip.awaits with
  | .icw2 => { chip with awaits := .icw3, base := value &&& 0xF8 }
  | .icw3 => { chip with awaits := if chip.four then .icw4 else .mask, cascade := value }
  | .icw4 => { chip with awaits := .mask, auto_eoi := value.getLsbD 1 }
  | .mask => { chip with mask := value }

theorem data_mask {chip : Chip} (ready : chip.awaits = .mask) (value : BitVec 8) :
    chip.data value = { chip with mask := value } := by
  rw [data, ready]

/-- A request that would interrupt now: none of its priority or above is in service. -/
def Eligible (chip : Chip) (n : Nat) : Prop :=
  chip.requests.getLsbD n = true ∧ chip.mask.getLsbD n = false ∧
    ∀ m ≤ n, chip.in_service.getLsbD m = false

instance (chip : Chip) (n : Nat) : Decidable (chip.Eligible n) :=
  inferInstanceAs (Decidable (_ ∧ _ ∧ ∀ m, m ≤ n → _))

/-- The request that interrupts. -/
def candidate (chip : Chip) : Option Nat := (List.range 8).find? fun n => chip.Eligible n

/-- A request is acknowledged. -/
def serve (chip : Chip) (n : Nat) : Chip :=
  { chip with
    requests := put chip.requests n false
    in_service := if chip.auto_eoi then chip.in_service else put chip.in_service n true }

/-- The vector of a line. -/
def vector (chip : Chip) (n : Nat) : Nat := chip.base.toNat + n

end Chip

/-! ## Master and slave -/

/-- The line of the master that the slave's output is wired to. -/
def SLAVE_LINE : Nat := 2

/-- The two controllers. -/
structure Pair where
  /-- The one that is wired to the processor. -/
  master : Chip
  /-- The one that is wired to the master. -/
  slave : Chip

namespace Pair

/-- The master with the slave's output on its line. -/
def wired (pair : Pair) : Chip :=
  { pair.master with
    requests := put pair.master.requests SLAVE_LINE pair.slave.candidate.isSome }

/-- The slave takes a line of the master for its own. -/
def Answers (pair : Pair) (n : Nat) : Prop := (pair.slave.cascade &&& 7).toNat = n

instance (pair : Pair) (n : Nat) : Decidable (pair.Answers n) :=
  inferInstanceAs (Decidable (_ = _))

/-- The processor acknowledges an interrupt: its vector, and the controllers afterwards.  On a line
of a slave the vector is the slave's, if it takes that line for its own; otherwise there is none. -/
def acknowledge (pair : Pair) : Option (Nat × Pair) :=
  match pair.wired.candidate with
  | none => none
  | some n =>
      if pair.master.cascade.getLsbD n then
        if pair.Answers n then
          pair.slave.candidate.map fun k =>
            (pair.slave.vector k, ⟨pair.master.serve n, pair.slave.serve k⟩)
        else none
      else some (pair.master.vector n, { pair with master := pair.master.serve n })

/-- A device requests an interrupt.  Nothing but the slave is on its line. -/
def request (pair : Pair) (n : Fin 16) : Pair :=
  if n.val = SLAVE_LINE then pair
  else if n.val < 8 then
    { pair with master.requests := put pair.master.requests n.val true }
  else { pair with slave.requests := put pair.slave.requests (n.val - 8) true }

/-- A write to a port. -/
def outb (pair : Pair) (value : BitVec 8) (port : Nat) : Pair :=
  if port = 0x20 then { pair with master := pair.master.command value }
  else if port = 0x21 then { pair with master := pair.master.data value }
  else if port = 0xA0 then { pair with slave := pair.slave.command value }
  else if port = 0xA1 then { pair with slave := pair.slave.data value }
  else pair

/-- A read of one of the data ports, which gives the mask. -/
def inb (pair : Pair) (port : Nat) : BitVec 8 :=
  if port = 0x21 then pair.master.mask
  else if port = 0xA1 then pair.slave.mask
  else 0xFF

/-- The bit of a line in the sets of the two controllers. -/
def bit (set : Chip → BitVec 8) (pair : Pair) (n : Fin 16) : Bool :=
  if n.val < 8 then (set pair.master).getLsbD n else (set pair.slave).getLsbD (n - 8)

section bits

variable (set : Chip → BitVec 8) (on : Bool) (pair : Pair) {changed : Pair} {n : Fin 16}

theorem bit_master (master : n.val < 8) : pair.bit set n = (set pair.master).getLsbD n :=
  if_pos master

theorem bit_slave (slave : ¬n.val < 8) : pair.bit set n = (set pair.slave).getLsbD (n - 8) :=
  if_neg slave

theorem bit_put_master (m : Fin 16) (n_master : n.val < 8)
    (master : set changed.master = put (set pair.master) n on)
    (slave : set changed.slave = set pair.slave) :
    changed.bit set m = if m = n then on else pair.bit set m := by
  by_cases m_master : m.val < 8
  · rw [bit_master _ _ m_master, bit_master _ _ m_master, master, getLsbD_put _ _ m_master]
    simp only [Fin.ext_iff]
  · have other : m ≠ n := fun same => m_master (same ▸ n_master)
    rw [bit_slave _ _ m_master, bit_slave _ _ m_master, slave, if_neg other]

theorem bit_put_slave (m : Fin 16) (n_slave : ¬n.val < 8)
    (master : set changed.master = set pair.master)
    (slave : set changed.slave = put (set pair.slave) (n - 8) on) :
    changed.bit set m = if m = n then on else pair.bit set m := by
  by_cases m_master : m.val < 8
  · have other : m ≠ n := fun same => n_slave (same ▸ m_master)
    rw [bit_master _ _ m_master, bit_master _ _ m_master, master, if_neg other]
  · have same : m.val - 8 = n.val - 8 ↔ m = n := by
      rw [Fin.ext_iff]
      omega
    rw [bit_slave _ _ m_master, bit_slave _ _ m_master, slave, getLsbD_put _ _ (by omega)]
    simp only [same]

/-- The bit of a line of the slave changes, and with it that of the slave. -/
theorem bit_put_through (m : Fin 16) (n_slave : ¬n.val < 8)
    (master : set changed.master = put (set pair.master) SLAVE_LINE on)
    (slave : set changed.slave = put (set pair.slave) (n - 8) on) :
    changed.bit set m = if m = n ∨ m.val = SLAVE_LINE then on else pair.bit set m := by
  let middle : Pair := ⟨changed.master, pair.slave⟩
  have first : middle.bit set m = if m = 2 then on else pair.bit set m :=
    bit_put_master set on pair m (by decide) master rfl
  have second : changed.bit set m = if m = n then on else middle.bit set m :=
    bit_put_slave set on middle m n_slave rfl slave
  have line_iff : m = 2 ↔ m.val = SLAVE_LINE := Fin.ext_iff
  rw [second, first]
  simp only [line_iff]
  by_cases same : m = n
  · rw [if_pos same, if_pos (Or.inl same)]
  · simp only [same, if_false, false_or]

/-- The bit of a line changes on the controllers that its requests go through. -/
theorem bit_put_line (m : Fin 16)
    (through :
      if n.val < 8 then
        set changed.master = put (set pair.master) n on ∧ set changed.slave = set pair.slave
      else
        set changed.master = put (set pair.master) SLAVE_LINE on ∧
          set changed.slave = put (set pair.slave) (n - 8) on) :
    changed.bit set m =
      if m = n ∨ m.val = SLAVE_LINE ∧ ¬n.val < 8 then on else pair.bit set m := by
  split_ifs at through with master
  · rw [bit_put_master set on pair m master through.1 through.2]
    simp only [master, not_true_eq_false, and_false, or_false]
  · rw [bit_put_through set on pair m master through.1 through.2]
    simp only [master, not_false_eq_true, and_true]

end bits

end Pair

end Pic8259
