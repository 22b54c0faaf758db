import ComputerSystem.Word

/-!
# A 32-bit processor

General registers, the direction flag and byte memory, with the instructions that push, pop and
copy.  Segments are flat and addresses wrap.  The word number `k` of the stack lies `4 * k` bytes
above the stack pointer, and a call that follows the C convention leaves the words of its caller
alone.
-/

namespace Ia32

open Word

/-- Byte memory. -/
abbrev Memory := BitVec 32 → UInt8

theorem offset_add (a : BitVec 32) (m n : Nat) :
    a + BitVec.ofNat 32 m + BitVec.ofNat 32 n = a + BitVec.ofNat 32 (m + n) := by
  rw [BitVec.add_assoc, ← BitVec.ofNat_add]

/-- Byte `k` of a word, the lowest one first. -/
def byte (word : BitVec 32) (k : Nat) : UInt8 := (word.toNat / 256 ^ k).toUInt8

namespace Memory

/-- The word at an address. -/
def load (memory : Memory) (a : BitVec 32) : BitVec 32 :=
  BitVec.ofNat 32 (littleEndian (memory a) (memory (a + 1)) (memory (a + 2)) (memory (a + 3)))

/-- Store a word. -/
def store (memory : Memory) (a word : BitVec 32) : Memory :=
  fun x => if (x - a).toNat < 4 then byte word (x - a).toNat else memory x

/-- Store one byte. -/
def storeb (memory : Memory) (a : BitVec 32) (b : UInt8) : Memory :=
  fun x => if x = a then b else memory x

end Memory

theorem byte_ofNat_littleEndian (b : Fin 4 → UInt8) (k : Fin 4) :
    byte (BitVec.ofNat 32 (littleEndian (b 0) (b 1) (b 2) (b 3))) k = b k := by
  have bound := littleEndian_lt (b 0) (b 1) (b 2) (b 3)
  have b0 := (b 0).toNat_lt
  have b1 := (b 1).toNat_lt
  have b2 := (b 2).toNat_lt
  have b3 := (b 3).toNat_lt
  apply UInt8.toNat_inj.mp
  rw [byte, BitVec.toNat_ofNat, Nat.mod_eq_of_lt bound, Nat.toUInt8, UInt8.toNat_ofNat']
  simp only [littleEndian]
  fin_cases k <;> simp <;> omega

theorem littleEndian_byte (word : BitVec 32) :
    BitVec.ofNat 32 (littleEndian (byte word 0) (byte word 1) (byte word 2) (byte word 3)) =
      word := by
  apply BitVec.eq_of_toNat_eq
  rw [BitVec.toNat_ofNat]
  simp only [littleEndian, byte, Nat.toUInt8, UInt8.toNat_ofNat']
  have bound := word.isLt
  omega

namespace Memory

@[simp]
theorem load_store (memory : Memory) (a word : BitVec 32) :
    (memory.store a word).load a = word := by
  have offset (k : BitVec 32) : a + k - a = k := by rw [BitVec.add_comm, BitVec.add_sub_cancel]
  have here : a - a = 0 := BitVec.sub_self a
  simp only [load, store, offset, here]
  exact littleEndian_byte word

theorem byte_load (memory : Memory) (a : BitVec 32) {k : Nat} (k_lt : k < 4) :
    byte (memory.load a) k = memory (a + BitVec.ofNat 32 k) := by
  have picked := byte_ofNat_littleEndian (fun k => memory (a + BitVec.ofNat 32 k)) ⟨k, k_lt⟩
  simp only [Fin.val_zero, BitVec.add_zero] at picked
  exact picked

theorem load_store_apart (memory : Memory) {a b : BitVec 32} (word : BitVec 32)
    (above : 4 ≤ (b - a).toNat) (below : (b - a).toNat ≤ 2 ^ 32 - 4) :
    (memory.store a word).load b = memory.load b := by
  have outside (k : BitVec 32) (k_lt : k.toNat < 4) : ¬(b + k - a).toNat < 4 := by
    bv_omega
  have first : ¬(b - a).toNat < 4 := Nat.not_lt.mpr above
  simp only [load, store, if_neg first, if_neg (outside 1 (by decide)),
    if_neg (outside 2 (by decide)), if_neg (outside 3 (by decide))]

/-- `n` bytes that are all the same. -/
def fill (memory : Memory) (a : BitVec 32) (n : Nat) (b : UInt8) : Memory :=
  fun x => if (x - a).toNat < n then b else memory x

/-- `n` bytes of another place. -/
def copied (memory : Memory) (dest src : BitVec 32) (n : Nat) : Memory :=
  fun x => if (x - dest).toNat < n then memory (src + (x - dest)) else memory x

@[simp]
theorem fill_zero (memory : Memory) (a : BitVec 32) (b : UInt8) : memory.fill a 0 b = memory := by
  funext x
  rw [fill, if_neg (Nat.not_lt_zero _)]

@[simp]
theorem copied_zero (memory : Memory) (dest src : BitVec 32) :
    memory.copied dest src 0 = memory := by
  funext x
  rw [copied, if_neg (Nat.not_lt_zero _)]

theorem fill_storeb (memory : Memory) (a : BitVec 32) {n : Nat} (b : UInt8) (fits : n < 2 ^ 32) :
    (memory.fill a n b).storeb (a + BitVec.ofNat 32 n) b = memory.fill a (n + 1) b := by
  funext x
  have last : x = a + BitVec.ofNat 32 n ↔ (x - a).toNat = n := by bv_omega
  simp only [fill, storeb, last]
  split_ifs <;> first | rfl | omega

theorem fill_store (memory : Memory) (a : BitVec 32) {n : Nat} {word : BitVec 32} {b : UInt8}
    (fits : n + 4 ≤ 2 ^ 32) (bytes : ∀ k < 4, byte word k = b) :
    (memory.fill a n b).store (a + BitVec.ofNat 32 n) word = memory.fill a (n + 4) b := by
  funext x
  have inside : (x - (a + BitVec.ofNat 32 n)).toNat < 4 ↔
      n ≤ (x - a).toNat ∧ (x - a).toNat < n + 4 := by bv_omega
  simp only [fill, store]
  split_ifs with written <;> first | rfl | exact bytes _ written | omega

/-- Source and destination do not overlap. -/
def Apart (dest src : BitVec 32) (n : Nat) : Prop :=
  n ≤ (src - dest).toNat ∧ n ≤ (dest - src).toNat

theorem copied_source (memory : Memory) {dest src k : BitVec 32} {m n : Nat}
    (apart : Apart dest src n) (k_lt : k.toNat < n) (m_le : m ≤ n) :
    memory.copied dest src m (src + k) = memory (src + k) := by
  obtain ⟨above, below⟩ := apart
  have outside : ¬(src + k - dest).toNat < m := by bv_omega
  rw [copied, if_neg outside]

theorem copied_storeb (memory : Memory) {dest src : BitVec 32} {m n : Nat}
    (apart : Apart dest src n) (fits : n ≤ 2 ^ 32) (m_lt : m < n) :
    (memory.copied dest src m).storeb (dest + BitVec.ofNat 32 m)
      (memory.copied dest src m (src + BitVec.ofNat 32 m)) = memory.copied dest src (m + 1) := by
  have small : (BitVec.ofNat 32 m).toNat = m := Nat.mod_eq_of_lt (m_lt.trans_le fits)
  rw [copied_source memory apart (small.trans_lt m_lt) m_lt.le]
  funext x
  have last : x = dest + BitVec.ofNat 32 m ↔ (x - dest).toNat = m := by bv_omega
  simp only [copied, storeb, last]
  split_ifs with written
  · have here : x - dest = BitVec.ofNat 32 m := BitVec.eq_of_toNat_eq (written.trans small.symm)
    rw [here]
  all_goals first | rfl | omega

theorem copied_store (memory : Memory) {dest src : BitVec 32} {m n : Nat}
    (apart : Apart dest src n) (fits : n ≤ 2 ^ 32) (m_le : m + 4 ≤ n) :
    (memory.copied dest src m).store (dest + BitVec.ofNat 32 m)
      ((memory.copied dest src m).load (src + BitVec.ofNat 32 m)) =
        memory.copied dest src (m + 4) := by
  have source {k : Nat} (k_lt : k < 4) :
      byte ((memory.copied dest src m).load (src + BitVec.ofNat 32 m)) k =
        memory (src + BitVec.ofNat 32 (m + k)) := by
    have small : (BitVec.ofNat 32 (m + k)).toNat < n := by
      rw [BitVec.toNat_ofNat]
      omega
    rw [byte_load _ _ k_lt, offset_add,
      copied_source memory apart small (by omega)]
  funext x
  have inside : (x - (dest + BitVec.ofNat 32 m)).toNat < 4 ↔
      m ≤ (x - dest).toNat ∧ (x - dest).toNat < m + 4 := by bv_omega
  simp only [store]
  split_ifs with written
  · rw [source written, copied, if_pos (inside.mp written).2]
    congr 2
    bv_omega
  · simp only [copied]
    split_ifs <;> first | rfl | omega

end Memory

/-! ## Registers and the stack -/

/-- Registers and memory. -/
structure Cpu where
  /-- The accumulator, in which calls return. -/
  eax : BitVec 32
  /-- A register that belongs to the caller. -/
  ebx : BitVec 32
  /-- The count of string instructions. -/
  ecx : BitVec 32
  /-- A register that belongs to nobody. -/
  edx : BitVec 32
  /-- Where string instructions read. -/
  esi : BitVec 32
  /-- Where string instructions write. -/
  edi : BitVec 32
  /-- The frame of the function that runs. -/
  ebp : BitVec 32
  /-- The stack pointer. -/
  esp : BitVec 32
  /-- The direction flag: string instructions go down. -/
  df : Bool
  /-- All bytes, by their addresses. -/
  memory : Memory

namespace Cpu

/-- `pushl`. -/
def pushl (cpu : Cpu) (value : BitVec 32) : Cpu :=
  { cpu with
    esp := cpu.esp - 4
    memory := cpu.memory.store (cpu.esp - 4) value }

/-- Take `n` words from the stack. -/
def discard (cpu : Cpu) (n : Nat) : Cpu :=
  { cpu with esp := cpu.esp + BitVec.ofNat 32 (4 * n) }

/-- Word `k` of the stack. -/
def word (cpu : Cpu) (k : Nat) : BitVec 32 :=
  cpu.memory.load (cpu.esp + BitVec.ofNat 32 (4 * k))

section pushl

variable (cpu : Cpu) (value : BitVec 32)

@[simp]
theorem pushl_eax : (cpu.pushl value).eax = cpu.eax := rfl

@[simp]
theorem pushl_ebx : (cpu.pushl value).ebx = cpu.ebx := rfl

@[simp]
theorem pushl_ecx : (cpu.pushl value).ecx = cpu.ecx := rfl

@[simp]
theorem pushl_edx : (cpu.pushl value).edx = cpu.edx := rfl

@[simp]
theorem pushl_esi : (cpu.pushl value).esi = cpu.esi := rfl

@[simp]
theorem pushl_edi : (cpu.pushl value).edi = cpu.edi := rfl

@[simp]
theorem pushl_ebp : (cpu.pushl value).ebp = cpu.ebp := rfl

@[simp]
theorem pushl_esp : (cpu.pushl value).esp = cpu.esp - 4 := rfl

@[simp]
theorem word_pushl_zero : (cpu.pushl value).word 0 = value := by
  rw [word, Nat.mul_zero, BitVec.add_zero]
  exact Memory.load_store _ _ _

theorem word_pushl_succ {k : Nat} (k_lt : k < 2 ^ 29) :
    (cpu.pushl value).word (k + 1) = cpu.word k := by
  have place : (cpu.pushl value).esp + BitVec.ofNat 32 (4 * (k + 1)) =
      cpu.esp + BitVec.ofNat 32 (4 * k) := by
    rw [pushl]
    bv_omega
  rw [word, place, word]
  apply Memory.load_store_apart <;> bv_omega

end pushl

theorem word_discard (cpu : Cpu) (n k : Nat) :
    (cpu.discard n).word k = cpu.word (n + k) := by
  rw [word, word, discard, Nat.mul_add, BitVec.ofNat_add, BitVec.add_assoc]

/-- What a call that follows the C convention and returns leaves alone: the registers that belong
to its caller, and the words of the stack behind its arguments, of which the caller uses
`frame`. -/
structure Cdecl (arguments frame : Nat) (before after : Cpu) : Prop where
  /-- `%ebx` belongs to the caller. -/
  ebx : after.ebx = before.ebx
  /-- `%esi` belongs to the caller. -/
  esi : after.esi = before.esi
  /-- `%edi` belongs to the caller. -/
  edi : after.edi = before.edi
  /-- `%ebp` belongs to the caller. -/
  ebp : after.ebp = before.ebp
  /-- The caller takes its arguments from the stack. -/
  esp : after.esp = before.esp
  /-- The stack of the caller is its own. -/
  word : ∀ k < frame, after.word (arguments + k) = before.word (arguments + k)

/-! ## String instructions -/

/-- The next address of a string instruction. -/
def advance (cpu : Cpu) (a count : BitVec 32) : BitVec 32 :=
  if cpu.df then a - count else a + count

/-- `stosl`. -/
def stosl (cpu : Cpu) : Cpu :=
  { cpu with
    memory := cpu.memory.store cpu.edi cpu.eax
    edi := cpu.advance cpu.edi 4 }

/-- `movsl`. -/
def movsl (cpu : Cpu) : Cpu :=
  { cpu with
    memory := cpu.memory.store cpu.edi (cpu.memory.load cpu.esi)
    edi := cpu.advance cpu.edi 4
    esi := cpu.advance cpu.esi 4 }

/-- `rep`: the instruction as often as `ecx` says. -/
def rep (instruction : Cpu → Cpu) (cpu : Cpu) : Cpu :=
  { instruction^[cpu.ecx.toNat] cpu with ecx := 0 }

/-- What holds before and after a repeated instruction, with the count of what is done. -/
theorem rep_induction {instruction : Cpu → Cpu} {cpu : Cpu}
    (motive : Nat → Cpu → Prop) (start : motive 0 cpu)
    (next : ∀ k < cpu.ecx.toNat, ∀ state, motive k state → motive (k + 1) (instruction state)) :
    motive cpu.ecx.toNat (instruction^[cpu.ecx.toNat] cpu) := by
  have upto (k : Nat) (k_le : k ≤ cpu.ecx.toNat) : motive k (instruction^[k] cpu) := by
    induction k with
    | zero => exact start
    | succ k ih =>
        rw [Function.iterate_succ_apply']
        exact next k k_le _ (ih (Nat.le_of_succ_le k_le))
  exact upto _ le_rfl

end Cpu

end Ia32
