import Mathlib

/-!
# Gates

An entry of an interrupt descriptor table, as the processor reads its eight bytes.
-/

namespace Gates

/-- A gate that is present. -/
structure Gate where
  /-- Code segment of the handler. -/
  selector : Nat
  /-- Address of the handler. -/
  offset : Nat
  /-- Interrupts stay enabled in the handler. -/
  trap : Bool
  /-- The least privileged level that may use the gate with `int`. -/
  dpl : Nat
  deriving DecidableEq

/-- A descriptor whose fields have the widths that the processor gives them; `kind` is the type of a
system descriptor. -/
def descriptor (offset selector kind storage dpl present : Nat) : Nat :=
  offset % 2 ^ 16 + selector % 2 ^ 16 * 2 ^ 16 + kind % 2 ^ 4 * 2 ^ 40 + storage % 2 * 2 ^ 44 +
    dpl % 4 * 2 ^ 45 + present % 2 * 2 ^ 47 + offset / 2 ^ 16 % 2 ^ 16 * 2 ^ 48

/-- The gate that a descriptor is, if it is one for 32-bit code and is present. -/
def gate (word : Nat) : Option Gate :=
  if word / 2 ^ 47 % 2 = 0 ∨ word / 2 ^ 44 % 2 = 1 then none
  else if word / 2 ^ 40 % 2 ^ 4 = 0xE ∨ word / 2 ^ 40 % 2 ^ 4 = 0xF then
    some
      { selector := word / 2 ^ 16 % 2 ^ 16
        offset := word / 2 ^ 48 % 2 ^ 16 * 2 ^ 16 + word % 2 ^ 16
        trap := word / 2 ^ 40 % 2 = 1
        dpl := word / 2 ^ 45 % 4 }
  else none

section descriptor

variable (offset selector kind storage dpl present : Nat)

theorem descriptor_present :
    descriptor offset selector kind storage dpl present / 2 ^ 47 % 2 = present % 2 := by
  rw [descriptor]
  omega

theorem descriptor_dpl :
    descriptor offset selector kind storage dpl present / 2 ^ 45 % 4 = dpl % 4 := by
  rw [descriptor]
  omega

theorem descriptor_storage :
    descriptor offset selector kind storage dpl present / 2 ^ 44 % 2 = storage % 2 := by
  rw [descriptor]
  omega

theorem descriptor_kind :
    descriptor offset selector kind storage dpl present / 2 ^ 40 % 2 ^ 4 = kind % 2 ^ 4 := by
  rw [descriptor]
  omega

theorem descriptor_trap :
    descriptor offset selector kind storage dpl present / 2 ^ 40 % 2 = kind % 2 := by
  rw [descriptor]
  omega

theorem descriptor_selector :
    descriptor offset selector kind storage dpl present / 2 ^ 16 % 2 ^ 16 = selector % 2 ^ 16 := by
  rw [descriptor]
  omega

theorem descriptor_high :
    descriptor offset selector kind storage dpl present / 2 ^ 48 % 2 ^ 16 =
      offset / 2 ^ 16 % 2 ^ 16 := by
  have low : offset % 2 ^ 16 + selector % 2 ^ 16 * 2 ^ 16 + kind % 2 ^ 4 * 2 ^ 40 +
      storage % 2 * 2 ^ 44 + dpl % 4 * 2 ^ 45 + present % 2 * 2 ^ 47 < 2 ^ 48 := by omega
  rw [descriptor, Nat.add_mul_div_right _ _ (by decide), Nat.div_eq_of_lt low, Nat.zero_add,
    Nat.mod_mod]

theorem descriptor_low :
    descriptor offset selector kind storage dpl present % 2 ^ 16 = offset % 2 ^ 16 := by
  rw [descriptor]
  omega

theorem descriptor_offset (bound : offset < 2 ^ 32) :
    descriptor offset selector kind storage dpl present / 2 ^ 48 % 2 ^ 16 * 2 ^ 16 +
      descriptor offset selector kind storage dpl present % 2 ^ 16 = offset := by
  rw [descriptor_high, descriptor_low]
  omega

theorem gate_present (bound : offset < 2 ^ 32) (trap : Bool) :
    gate (descriptor offset selector (0xE + trap.toNat) 0 dpl 1) =
      some ⟨selector % 2 ^ 16, offset, trap, dpl % 4⟩ := by
  rw [gate, descriptor_present, descriptor_storage, descriptor_kind, descriptor_trap,
    descriptor_selector, descriptor_dpl, descriptor_offset _ _ _ _ _ _ bound, if_neg (by decide)]
  cases trap <;> rfl

end descriptor

end Gates
