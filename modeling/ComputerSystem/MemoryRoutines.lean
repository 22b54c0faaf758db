import ComputerSystem.Ia32
import ComputerSystem.Screen

/-!
# `memcpy` and `memset`

The two routines have one shape: single bytes until the destination is aligned, whole words with a
repeated string instruction, then the bytes that are left.  What differs is the step that moves a
byte and the one that moves a word; the shape is proved once, for any count of bytes done that both
steps keep.
-/

namespace ComputerSystem

open Ia32 StateTransition

/-- The labels of a routine. -/
inductive RoutineLabel
  | top
  | aligned
  | bottom
  | done
  deriving DecidableEq

/-- The code from one label to the next, for a step that moves a byte and one that moves a word. -/
def routine (move_byte move_word : Cpu → Cpu) : RoutineLabel × Cpu → Option (RoutineLabel × Cpu)
  | (.top, cpu) =>
      if cpu.ecx = 0 then some (.done, cpu)
      else if cpu.edi &&& 3 = 0 then some (.aligned, cpu)
      else
        let cpu := move_byte cpu
        some (.top, { cpu with ecx := cpu.ecx - 1 })
  | (.aligned, cpu) =>
      let cpu := { cpu with edx := cpu.ecx, ecx := cpu.ecx >>> 2 }
      let cpu := { cpu with edx := cpu.edx &&& 3, df := false }
      some (.bottom, cpu.rep move_word)
  | (.bottom, cpu) =>
      if cpu.edx = 0 then some (.done, cpu)
      else
        let cpu := move_byte cpu
        some (.bottom, { cpu with edx := cpu.edx - 1 })
  | (.done, _) => none

/-- `movb %al, (%edi)` and `addl $1, %edi`. -/
def set_byte (cpu : Cpu) : Cpu :=
  { cpu with
    memory := cpu.memory.storeb cpu.edi (byte cpu.eax 0)
    edi := cpu.edi + 1 }

/-- `movb (%esi), %al`, `movb %al, (%edi)`, `addl $1, %edi` and `addl $1, %esi`. -/
def copy_byte (cpu : Cpu) : Cpu :=
  let al := cpu.memory cpu.esi
  { cpu with
    eax := (cpu.eax &&& 0xFFFFFF00) ||| BitVec.ofNat 32 al.toNat
    memory := cpu.memory.storeb cpu.edi al
    edi := cpu.edi + 1
    esi := cpu.esi + 1 }

/-- The byte `c & 0xFF` in all four bytes of a word. -/
def set_word (c : BitVec 32) : BitVec 32 :=
  let c := c &&& 0xFF
  c <<< 24 ||| c <<< 16 ||| c <<< 8 ||| c

/-- `memset`. -/
def memset (s c n : BitVec 32) (cpu : Cpu) : Part Cpu :=
  (eval (routine set_byte Cpu.stosl)
    (.top, { cpu with eax := set_word c, edi := s, ecx := n })).map Prod.snd

/-- `memcpy`. -/
def memcpy (dest src n : BitVec 32) (cpu : Cpu) : Part Cpu :=
  (eval (routine copy_byte Cpu.movsl)
    (.top, { cpu with esi := src, edi := dest, ecx := n })).map Prod.snd

/-! ## The shape of the routines -/

/-- Both steps of a routine add to the bytes done, up to `n`; the counters and the direction flag
are not theirs. -/
structure Moves (move_byte move_word : Cpu → Cpu) (n : Nat) (Done : Nat → Cpu → Prop) : Prop where
  /-- A byte step does one byte. -/
  by_byte : ∀ k < n, ∀ cpu, Done k cpu → Done (k + 1) (move_byte cpu)
  /-- A word step does four. -/
  by_word : ∀ k, k + 4 ≤ n → ∀ cpu, cpu.df = false → Done k cpu → Done (k + 4) (move_word cpu)
  /-- `%ecx` counts the words. -/
  byte_ecx : ∀ cpu, (move_byte cpu).ecx = cpu.ecx
  /-- `%edx` counts the bytes. -/
  byte_edx : ∀ cpu, (move_byte cpu).edx = cpu.edx
  /-- `%edx` counts the bytes. -/
  word_edx : ∀ cpu, (move_word cpu).edx = cpu.edx
  /-- Words go upwards. -/
  word_df : ∀ cpu, (move_word cpu).df = cpu.df
  /-- The counters do not matter to what is done. -/
  counters : ∀ k cpu ecx edx df, Done k cpu → Done k { cpu with ecx, edx, df }

namespace Moves

variable {move_byte move_word : Cpu → Cpu} {n : Nat} {Done : Nat → Cpu → Prop}

theorem eval_next {state next : RoutineLabel × Cpu}
    (taken : routine move_byte move_word state = some next) :
    eval (routine move_byte move_word) state = eval (routine move_byte move_word) next :=
  reaches_eval (Relation.ReflTransGen.single taken)

theorem mem_eval_done (cpu : Cpu) :
    (RoutineLabel.done, cpu) ∈ eval (routine move_byte move_word) (.done, cpu) :=
  mem_eval.mpr ⟨Relation.ReflTransGen.refl, rfl⟩

/-- The bytes that are left, as many as `edx` says. -/
theorem bottom (moves : Moves move_byte move_word n Done) {k : Nat} {cpu : Cpu}
    (left : k + cpu.edx.toNat = n) (done : Done k cpu) :
    ∃ final, (.done, final) ∈ eval (routine move_byte move_word) (.bottom, cpu) ∧
      Done n final := by
  induction rest : cpu.edx.toNat generalizing k cpu with
  | zero =>
      have zero : cpu.edx = 0 := BitVec.eq_of_toNat_eq rest
      have stops : routine move_byte move_word (.bottom, cpu) = some (.done, cpu) := if_pos zero
      refine ⟨cpu, ?_, ?_⟩
      · rw [eval_next stops]
        exact mem_eval_done cpu
      · rw [rest, Nat.add_zero] at left
        exact left ▸ done
  | succ rest_count ih =>
      have nonzero : cpu.edx ≠ 0 := by
        intro zero
        rw [zero] at rest
        cases rest
      have moves_on : routine move_byte move_word (.bottom, cpu) =
          some (.bottom, { move_byte cpu with edx := (move_byte cpu).edx - 1 }) := if_neg nonzero
      rw [eval_next moves_on]
      have fewer : ((move_byte cpu).edx - 1).toNat = rest_count := by
        rw [moves.byte_edx]
        bv_omega
      refine ih (k := k + 1) ?_ ?_ fewer
      · simp only [fewer]
        omega
      · exact moves.counters _ _ _ _ _ (moves.by_byte k (by omega) cpu done)

/-- Whole words, as many as `ecx` has room for. -/
theorem aligned (moves : Moves move_byte move_word n Done) {k : Nat} {cpu : Cpu}
    (left : k + cpu.ecx.toNat = n) (done : Done k cpu) :
    ∃ final, (.done, final) ∈ eval (routine move_byte move_word) (.aligned, cpu) ∧
      Done n final := by
  have words : (cpu.ecx >>> 2).toNat = cpu.ecx.toNat / 4 := by
    rw [BitVec.toNat_ushiftRight, Nat.shiftRight_eq_div_pow]
  have rest : (cpu.ecx &&& 3).toNat = cpu.ecx.toNat % 4 := by
    rw [BitVec.toNat_and]
    exact Nat.and_two_pow_sub_one_eq_mod _ 2
  rw [eval_next rfl]
  have moved := @Cpu.rep_induction move_word
    { cpu with ecx := cpu.ecx >>> 2, edx := cpu.ecx &&& 3, df := false }
    (fun j state => Done (k + 4 * j) state ∧ state.edx = cpu.ecx &&& 3 ∧ state.df = false)
    ⟨moves.counters _ _ _ _ _ done, rfl, rfl⟩
    (fun j j_lt state ⟨so_far, edx, df⟩ => by
      simp only [words] at j_lt
      exact ⟨moves.by_word (k + 4 * j) (by omega) state df so_far, (moves.word_edx state).trans edx,
        (moves.word_df state).trans df⟩)
  simp only [words] at moved
  obtain ⟨so_far, edx, df⟩ := moved
  apply moves.bottom (k := k + 4 * (cpu.ecx.toNat / 4))
  · simp only [Cpu.rep, words, edx, rest]
    omega
  · simp only [Cpu.rep, words]
    exact moves.counters _ _ _ _ _ so_far

/-- A routine ends with all its bytes done. -/
theorem top (moves : Moves move_byte move_word n Done) {k : Nat} {cpu : Cpu}
    (left : k + cpu.ecx.toNat = n) (done : Done k cpu) :
    ∃ final, (.done, final) ∈ eval (routine move_byte move_word) (.top, cpu) ∧ Done n final := by
  induction rest : cpu.ecx.toNat generalizing k cpu with
  | zero =>
      have zero : cpu.ecx = 0 := BitVec.eq_of_toNat_eq rest
      have stops : routine move_byte move_word (.top, cpu) = some (.done, cpu) := if_pos zero
      refine ⟨cpu, ?_, ?_⟩
      · rw [eval_next stops]
        exact mem_eval_done cpu
      · rw [rest, Nat.add_zero] at left
        exact left ▸ done
  | succ rest_count ih =>
      have nonzero : cpu.ecx ≠ 0 := by
        intro zero
        rw [zero] at rest
        cases rest
      by_cases on_word : cpu.edi &&& 3 = 0
      · have goes_on : routine move_byte move_word (.top, cpu) = some (.aligned, cpu) := by
          rw [routine, if_neg nonzero, if_pos on_word]
        rw [eval_next goes_on]
        exact moves.aligned left done
      · have moves_on : routine move_byte move_word (.top, cpu) =
            some (.top, { move_byte cpu with ecx := (move_byte cpu).ecx - 1 }) := by
          rw [routine, if_neg nonzero, if_neg on_word]
        rw [eval_next moves_on]
        have fewer : ((move_byte cpu).ecx - 1).toNat = rest_count := by
          rw [moves.byte_ecx]
          bv_omega
        refine ih (k := k + 1) ?_ ?_ fewer
        · simp only [fewer]
          omega
        · exact moves.counters _ _ _ _ _ (moves.by_byte k (by omega) cpu done)

end Moves

/-! ## The two routines -/

theorem set_word_congr {c d : BitVec 32} (low : c.toNat % 2 ^ 8 = d.toNat % 2 ^ 8) :
    set_word c = set_word d := by
  have masked : c &&& 0xFF = d &&& 0xFF := by
    apply BitVec.eq_of_toNat_eq
    rw [BitVec.toNat_and, BitVec.toNat_and]
    exact (Nat.and_two_pow_sub_one_eq_mod _ 8).trans
      (low.trans (Nat.and_two_pow_sub_one_eq_mod _ 8).symm)
  rw [set_word, set_word, masked]

theorem byte_set_word (c : BitVec 32) {k : Nat} (k_lt : k < 4) :
    byte (set_word c) k = (c &&& 0xFF).toNat.toUInt8 := by
  have spread : ∀ v : Fin 256, ∀ k : Fin 4,
      byte (set_word (BitVec.ofNat 32 v)) k = v.val.toUInt8 := by
    decide +kernel
  have low : (c &&& 0xFF).toNat = c.toNat % 2 ^ 8 := by
    rw [BitVec.toNat_and]
    exact Nat.and_two_pow_sub_one_eq_mod _ 8
  have small : c.toNat % 2 ^ 8 < 256 := Nat.mod_lt _ (by decide)
  have same : set_word c = set_word (BitVec.ofNat 32 (c.toNat % 2 ^ 8)) := by
    apply set_word_congr
    rw [BitVec.toNat_ofNat]
    omega
  rw [same, low]
  exact spread ⟨_, small⟩ ⟨k, k_lt⟩

/-- `memset` fills byte by byte, whatever its steps. -/
theorem moves_memset (memory : Ia32.Memory) (s c : BitVec 32) {n : Nat} (fits : n ≤ 2 ^ 32) :
    Moves set_byte Cpu.stosl n fun k cpu =>
      cpu.memory = memory.fill s k (c &&& 0xFF).toNat.toUInt8 ∧ cpu.edi = s + BitVec.ofNat 32 k ∧
        cpu.eax = set_word c where
  by_byte k k_lt cpu done := by
    obtain ⟨memory_eq, edi, eax⟩ := done
    refine ⟨?_, ?_, eax⟩
    · simp only [set_byte, memory_eq, edi, eax, byte_set_word c (by decide : 0 < 4)]
      exact memory.fill_storeb s _ (k_lt.trans_le fits)
    · exact (congrArg (· + 1) edi).trans (offset_add s k 1)
  by_word k k_le cpu df done := by
    obtain ⟨memory_eq, edi, eax⟩ := done
    refine ⟨?_, ?_, eax⟩
    · simp only [Cpu.stosl, memory_eq, edi, eax]
      exact memory.fill_store s (k_le.trans fits) fun _ => byte_set_word c
    · simp only [Cpu.stosl, Cpu.advance, df, edi]
      exact offset_add s k 4
  byte_ecx _ := rfl
  byte_edx _ := rfl
  word_edx _ := rfl
  word_df _ := rfl
  counters _ _ _ _ _ done := done

/-- `memcpy` copies byte by byte, whatever its steps. -/
theorem moves_memcpy (memory : Ia32.Memory) {dest src : BitVec 32} {n : Nat} (fits : n ≤ 2 ^ 32)
    (apart : Ia32.Memory.Apart dest src n) :
    Moves copy_byte Cpu.movsl n fun k cpu =>
      cpu.memory = memory.copied dest src k ∧ cpu.edi = dest + BitVec.ofNat 32 k ∧
        cpu.esi = src + BitVec.ofNat 32 k where
  by_byte k k_lt cpu done := by
    obtain ⟨memory_eq, edi, esi⟩ := done
    refine ⟨?_, ?_, ?_⟩
    · simp only [copy_byte, memory_eq, edi, esi]
      exact memory.copied_storeb apart fits k_lt
    · exact (congrArg (· + 1) edi).trans (offset_add dest k 1)
    · exact (congrArg (· + 1) esi).trans (offset_add src k 1)
  by_word k k_le cpu df done := by
    obtain ⟨memory_eq, edi, esi⟩ := done
    refine ⟨?_, ?_, ?_⟩
    · simp only [Cpu.movsl, memory_eq, edi, esi]
      exact memory.copied_store apart fits k_le
    · simp only [Cpu.movsl, Cpu.advance, df, edi]
      exact offset_add dest k 4
    · simp only [Cpu.movsl, Cpu.advance, df, esi]
      exact offset_add src k 4
  byte_ecx _ := rfl
  byte_edx _ := rfl
  word_edx _ := rfl
  word_df _ := rfl
  counters _ _ _ _ _ done := done

theorem memset_fill (s c n : BitVec 32) (cpu : Cpu) :
    ∃ final ∈ memset s c n cpu,
      final.memory = cpu.memory.fill s n.toNat (c &&& 0xFF).toNat.toUInt8 := by
  let entered : Cpu := { cpu with eax := set_word c, edi := s, ecx := n }
  obtain ⟨final, ended, memory_eq, -⟩ := (moves_memset cpu.memory s c n.isLt.le).top
    (Nat.zero_add entered.ecx.toNat)
    ⟨(cpu.memory.fill_zero s _).symm, (BitVec.add_zero s).symm, rfl⟩
  exact ⟨final, Part.mem_map Prod.snd ended, memory_eq⟩

theorem memcpy_copied {dest src n : BitVec 32} (cpu : Cpu)
    (apart : Ia32.Memory.Apart dest src n.toNat) :
    ∃ final ∈ memcpy dest src n cpu, final.memory = cpu.memory.copied dest src n.toNat := by
  let entered : Cpu := { cpu with esi := src, edi := dest, ecx := n }
  obtain ⟨final, ended, memory_eq, -⟩ := (moves_memcpy cpu.memory n.isLt.le apart).top
    (Nat.zero_add entered.ecx.toNat)
    ⟨(cpu.memory.copied_zero dest src).symm, (BitVec.add_zero dest).symm,
      (BitVec.add_zero src).symm⟩
  exact ⟨final, Part.mem_map Prod.snd ended, memory_eq⟩

/-- Ranges of the address space, without a wrap, of which one lies behind the other. -/
structure Ranges (dest src n : BitVec 32) : Prop where
  /-- The destination does not wrap. -/
  dest_le : dest.toNat + n.toNat ≤ 2 ^ 32
  /-- The source does not wrap. -/
  src_le : src.toNat + n.toNat ≤ 2 ^ 32
  /-- They do not overlap. -/
  apart : dest.toNat + n.toNat ≤ src.toNat ∨ src.toNat + n.toNat ≤ dest.toNat

theorem Ranges.apart_addresses {dest src n : BitVec 32} (ranges : Ranges dest src n) :
    Ia32.Memory.Apart dest src n.toNat := by
  obtain ⟨dest_le, src_le, apart⟩ := ranges
  constructor <;> bv_omega

/-- The addresses of a range that does not wrap, by their distance from its start. -/
theorem distance_lt_iff {a start : BitVec 32} {n : Nat} (fits : start.toNat + n ≤ 2 ^ 32) :
    (a - start).toNat < n ↔ start.toNat ≤ a.toNat ∧ a.toNat < start.toNat + n := by
  bv_omega

/-- The memory that `terminal_save` and `terminal_load` copy in is the one that `memcpy` leaves. -/
theorem memcpy_copy {dest src n : BitVec 32} (ranges : Ranges dest src n) (memory : Memory)
    (cpu : Cpu) (memory_eq : ∀ a, cpu.memory a = memory a.toNat) :
    ∃ final ∈ memcpy dest src n cpu,
      ∀ a, final.memory a = memory.copy dest.toNat src.toNat n.toNat a.toNat := by
  obtain ⟨final, ended, copied⟩ := memcpy_copied cpu ranges.apart_addresses
  refine ⟨final, ended, fun a => ?_⟩
  have inside := distance_lt_iff (a := a) ranges.dest_le
  rw [copied, Ia32.Memory.copied, Memory.copy, memory_eq, memory_eq]
  simp only [inside]
  split_ifs with written
  · have src_le := ranges.src_le
    congr 1
    bv_omega
  · rfl

/-- Whatever the alignment and the count: `memcpy` between ranges that do not overlap ends with the
destination equal to the source, `memset` ends with every byte of its range equal to the low byte
of its value, and neither changes a byte outside. -/
theorem routines_bytewise (cpu : Cpu) :
    (∀ dest src n : BitVec 32, Ranges dest src n →
      ∃ final ∈ memcpy dest src n cpu,
        (∀ k < n.toNat, final.memory (dest + BitVec.ofNat 32 k) =
          cpu.memory (src + BitVec.ofNat 32 k)) ∧
        ∀ a, ¬(dest.toNat ≤ a.toNat ∧ a.toNat < dest.toNat + n.toNat) →
          final.memory a = cpu.memory a) ∧
    (∀ s c n : BitVec 32, s.toNat + n.toNat ≤ 2 ^ 32 →
      ∃ final ∈ memset s c n cpu,
        (∀ k < n.toNat, (final.memory (s + BitVec.ofNat 32 k)).toNat = (c &&& 0xFF).toNat) ∧
        ∀ a, ¬(s.toNat ≤ a.toNat ∧ a.toNat < s.toNat + n.toNat) →
          final.memory a = cpu.memory a) := by
  have offset {start : BitVec 32} {n : BitVec 32} {k : Nat} (k_lt : k < n.toNat) :
      start + BitVec.ofNat 32 k - start = BitVec.ofNat 32 k ∧
        (start + BitVec.ofNat 32 k - start).toNat < n.toNat := by
    constructor <;> bv_omega
  constructor
  · intro dest src n ranges
    obtain ⟨final, ended, copied⟩ := memcpy_copied cpu ranges.apart_addresses
    refine ⟨final, ended, fun k k_lt => ?_, fun a outside => ?_⟩
    · obtain ⟨distance, inside⟩ := @offset dest n k k_lt
      rw [copied, Ia32.Memory.copied, if_pos inside, distance]
    · rw [copied, Ia32.Memory.copied, if_neg]
      rwa [distance_lt_iff ranges.dest_le]
  · intro s c n fits
    obtain ⟨final, ended, filled⟩ := memset_fill s c n cpu
    refine ⟨final, ended, fun k k_lt => ?_, fun a outside => ?_⟩
    · obtain ⟨-, inside⟩ := @offset s n k k_lt
      have small : (c &&& 0xFF).toNat < 2 ^ 8 := by
        rw [BitVec.toNat_and]
        exact Nat.and_le_right.trans_lt (by decide)
      rw [filled, Ia32.Memory.fill, if_pos inside, Nat.toUInt8, UInt8.toNat_ofNat']
      exact Nat.mod_eq_of_lt small
    · rw [filled, Ia32.Memory.fill, if_neg]
      rwa [distance_lt_iff fits]

/-- A processor whose memory holds the low bytes of its addresses. -/
def counting : Cpu where
  eax := 0
  ebx := 0
  ecx := 0
  edx := 0
  esi := 0
  edi := 0
  ebp := 0
  esp := 0
  df := true
  memory := fun a => a.toNat.toUInt8

/-- Seven bytes from an odd address to an even one, and two bytes before the next word. -/
theorem routines_bytewise_short :
    (∃ final ∈ memcpy 0x202 0x101 7 counting,
      ∀ k < 7, final.memory (0x202 + BitVec.ofNat 32 k) =
        counting.memory (0x101 + BitVec.ofNat 32 k)) ∧
    ∃ final ∈ memset 0x301 0x1FF 2 counting, final.memory 0x300 = counting.memory 0x300 := by
  obtain ⟨copies, fills⟩ := routines_bytewise counting
  obtain ⟨copy, copy_ended, copied, -⟩ :=
    copies 0x202 0x101 7 ⟨by decide, by decide, by decide⟩
  obtain ⟨filled, fill_ended, -, outside⟩ := fills 0x301 0x1FF 2 (by decide)
  exact ⟨⟨copy, copy_ended, copied⟩, filled, fill_ended, outside 0x300 (by decide)⟩

end ComputerSystem
